import Scriptorium.Proofs.Unfolding
import Scriptorium.Rendering

/-! Runs of acts. A run that has not failed has performed every act, so that what one act keeps
is kept by the run, and a document is rendered when its acts do not fail and leave a page. -/
namespace Scriptorium

/-- Not the start of a document. -/
def Act.IsLater (act : Act) : Prop := ∀ path event, act = .take path event → event.kind ≠ .documentStart

namespace Session
variable {commission : Commission}

theorem step_of_success {outcome : Outcome} (fine : outcome.failure = none) (act : Act) :
    step commission outcome act = perform commission outcome.session outcome.edition act := by
  simp [step, fine]

theorem success_before_step {outcome : Outcome} {act : Act}
    (fine : (step commission outcome act).failure = none) : outcome.failure = none := by
  cases failed : outcome.failure with
  | none => rfl
  | some failure => simp [step, failed] at fine

theorem step_performed {outcome : Outcome} {act : Act}
    (fine : (step commission outcome act).failure = none) :
    step commission outcome act = perform commission outcome.session outcome.edition act :=
  step_of_success (success_before_step fine) act

theorem success_before {acts : List Act} {outcome : Outcome}
    (fine : (acts.foldl (step commission) outcome).failure = none) : outcome.failure = none := by
  induction acts generalizing outcome with
  | nil => exact fine
  | cons act rest ih => exact success_before_step (ih fine)

theorem run_append (session : Session) (edition : Edition) (before behind : List Act) :
    run commission session edition (before ++ behind) =
      behind.foldl (step commission) (run commission session edition before) :=
  List.foldl_append

theorem run_concat (session : Session) (edition : Edition) (before : List Act) (act : Act) :
    run commission session edition (before ++ [act]) =
      step commission (run commission session edition before) act := by
  rw [run_append, List.foldl_cons, List.foldl_nil]

theorem unrefused_of_success {acts : List Act} {outcome : Outcome}
    (fine : (acts.foldl (step commission) outcome).failure = none) (failure : Failure) :
    .refuse failure ∉ acts := by
  intro member
  obtain ⟨before,behind,rfl⟩ := List.append_of_mem member
  rw [List.foldl_append, List.foldl_cons] at fine
  have refused := success_before fine
  have performed := step_performed refused
  rw [performed] at refused
  cases refused

theorem kept_by_run {kept : Session → Prop} {acts : List Act} {outcome : Outcome}
    (initial : kept outcome.session)
    (each : ∀ act ∈ acts, ∀ session edition, kept session →
      kept (perform commission session edition act).session) :
    kept (acts.foldl (step commission) outcome).session := by
  induction acts generalizing outcome with
  | nil => exact initial
  | cons act rest ih =>
    refine ih ?_ fun next member => each next (List.mem_cons_of_mem _ member)
    unfold step
    split
    · exact each act (by simp) _ _ initial
    · exact initial

/-- What comes of events that are dispatched one after the other, whether or not one of them fails. -/
def attend (commission : Commission) (outcome : Outcome) : List Event → List Outcome
  | [] => []
  | event :: rest =>
    let next := dispatch commission event outcome.session outcome.edition
    next :: attend commission next rest

end Session

namespace Document

def acts (document : Document) (profile : Profile) : List Act :=
  Graft.unfold profile document.sequences [] document.events

def outcome (document : Document) (profile : Profile) (settings : Settings) (edition : Edition) :
    Outcome :=
  Session.run (document.commission profile settings) {} edition (document.acts profile)

theorem success_of_front {document : Document} {profile : Profile} {settings : Settings} {edition : Edition}
    {before : List Act} (front : before <+: document.acts profile)
    (fine : (document.outcome profile settings edition).failure = none) :
    (Session.run (document.commission profile settings) {} edition before).failure = none := by
  obtain ⟨behind,whole⟩ := front
  rw [outcome, ← whole, Session.run_append] at fine
  exact Session.success_before fine

theorem renderAs_eq (document : Document) (profile : Profile) (settings : Settings) (edition : Edition) :
    document.renderAs profile settings edition =
      match (document.outcome profile settings edition).failure with
      | some failure => ⟨.error failure,(document.outcome profile settings edition).edition⟩
      | none => ⟨(document.outcome profile settings edition).session.finish
          (document.commission profile settings),(document.outcome profile settings edition).edition⟩ := by
  have performed : Session.performAll (document.commission profile settings) []
      ⟨{},edition,none⟩ document.events = document.outcome profile settings edition :=
    Session.performAll_eq_foldl _ _ _ _
  exact congrArg (fun outcome : Outcome => (match outcome.failure with
    | some failure => ⟨.error failure,outcome.edition⟩
    | none => ⟨outcome.session.finish (document.commission profile settings),outcome.edition⟩ :
      Rendition)) performed

theorem result_eq_ok_iff {document : Document} {profile : Profile} {settings : Settings}
    {edition : Edition} {page : Page} :
    (document.renderAs profile settings edition).result = .ok page ↔
      (document.outcome profile settings edition).failure = none ∧
        (document.outcome profile settings edition).session.output = some page := by
  rw [renderAs_eq]
  cases failed : (document.outcome profile settings edition).failure with
  | some failure => simp
  | none =>
    unfold Session.finish
    cases composed : (document.outcome profile settings edition).session.output <;> simp

theorem renders_of_run {document : Document} {profile : Profile} {settings : Settings}
    {edition : Edition} {acts : List Act} (unfolded : document.acts profile = acts)
    (fine : (Session.run (document.commission profile settings) {} edition acts).failure = none)
    (composed : (Session.run (document.commission profile settings) {} edition acts).session.output.isSome) :
    ∃ page, (document.renderAs profile settings edition).result = .ok page := by
  subst unfolded
  obtain ⟨page,kept⟩ := Option.isSome_iff_exists.mp composed
  exact ⟨page,result_eq_ok_iff.mpr ⟨fine,kept⟩⟩

end Document
end Scriptorium
