import Scriptorium.Graft
import Scriptorium.Session

/-! Runs of a session, and the rendering of whole documents. A run performs its acts in order
up to the first that fails, and unfolds no graft beyond it. -/
namespace Scriptorium

namespace Session

def perform (commission : Commission) (session : Session) (edition : Edition) : Act → Outcome
  | .take _ event => take commission event session edition
  | .refuse failure => ⟨session,edition,some failure⟩
  | .closeNote =>
    session.edited edition (.ok {session.draft with notes := session.draft.notes.advance})

/-- After a failure nothing more is performed. -/
def step (commission : Commission) (outcome : Outcome) (act : Act) : Outcome :=
  match outcome.failure with
  | none => perform commission outcome.session outcome.edition act
  | some _ => outcome

def run (commission : Commission) (session : Session) (edition : Edition) (acts : List Act) : Outcome :=
  acts.foldl (step commission) ⟨session,edition,none⟩

theorem foldl_step_of_failure (commission : Commission) (outcome : Outcome) (failed : outcome.failure.isSome)
    (acts : List Act) : acts.foldl (step commission) outcome = outcome := by
  obtain ⟨failure,same⟩ := Option.isSome_iff_exists.mp failed
  induction acts with
  | nil => rfl
  | cons act rest ih =>
    have stays : step commission outcome act = outcome := by simp [step, same]
    rw [List.foldl_cons, stays, ih]

/-- Events performed one after the other, each with its graft, while the sequences of `path` are
being replayed. It is the run of the unfolded acts, but after a failure nothing more is unfolded. -/
def performAll (commission : Commission) (path : List String) (outcome : Outcome) :
    List Event → Outcome
  | [] => outcome
  | event :: rest =>
    if outcome.failure.isSome then outcome
    else
      let taken := step commission outcome (.take path event)
      let grafted := match Graft.ofEvent? commission.profile event with
        | none => taken
        | some graft =>
          if _fresh : graft.target ∈ path then
            step commission taken (.refuse (.recursiveSequence graft.target))
          else match _found : commission.sequences.find? graft.target with
            | none => step commission taken (.refuse (.unknownSequence graft.target))
            | some events =>
              graft.closing.foldl (step commission)
                (performAll commission (path ++ [graft.target]) taken events)
      performAll commission path grafted rest
termination_by events => ((Graft.idle commission.sequences path).length, events.length)
decreasing_by
  · exact .left _ _ (Graft.idle_shrinks _found _fresh)
  · exact .right _ (by simp)

theorem performAll_eq_foldl (commission : Commission) (path : List String) (outcome : Outcome)
    (events : List Event) :
    performAll commission path outcome events =
      (Graft.unfold commission.profile commission.sequences path events).foldl (step commission)
        outcome := by
  cases events with
  | nil => rw [performAll, Graft.unfold, List.foldl_nil]
  | cons event rest =>
    rw [performAll, Graft.unfold]
    by_cases failed : outcome.failure.isSome
    · rw [if_pos failed, foldl_step_of_failure commission outcome failed]
    · rw [if_neg failed]
      simp only [List.foldl_cons, List.foldl_append]
      rw [performAll_eq_foldl commission path _ rest]
      congr 1
      cases made : Graft.ofEvent? commission.profile event with
      | none => rfl
      | some graft =>
        by_cases inside : graft.target ∈ path
        · simp [inside]
        · simp only [dif_neg inside]
          cases found : commission.sequences.find? graft.target with
          | none => rfl
          | some events =>
            simp only [List.foldl_append]
            rw [performAll_eq_foldl commission (path ++ [graft.target]) _ events]
termination_by ((Graft.idle commission.sequences path).length, events.length)
decreasing_by
  · exact .right _ (by simp)
  · exact .left _ _ (Graft.idle_shrinks (by assumption) (by assumption))

/-- One event, with the sequences that it grafts. -/
def dispatch (commission : Commission) (event : Event) (session : Session) (edition : Edition) : Outcome :=
  performAll commission [] ⟨session,edition,none⟩ [event]

def replay (commission : Commission) (name : String) (session : Session) (edition : Edition) : Outcome :=
  match commission.sequences.find? name with
  | none => ⟨session,edition,some (.unknownSequence name)⟩
  | some events => performAll commission [name] ⟨session,edition,none⟩ events

theorem dispatch_eq_run (commission : Commission) (event : Event) (session : Session)
    (edition : Edition) :
    dispatch commission event session edition =
      run commission session edition (Graft.unfold commission.profile commission.sequences [] [event]) :=
  performAll_eq_foldl commission [] _ [event]

theorem replay_eq_run (commission : Commission) (name : String) (session : Session)
    (edition : Edition) :
    replay commission name session edition =
      run commission session edition (Graft.replay commission.profile commission.sequences name) := by
  unfold replay Graft.replay
  cases commission.sequences.find? name with
  | none => rfl
  | some events => exact performAll_eq_foldl commission [name] _ events

end Session

def Document.commission (document : Document) (profile : Profile) (settings : Settings) : Commission :=
  ⟨profile,settings,document.headers,document.sequences⟩

structure Rendition where
  result : Except Failure Page
  edition : Edition

namespace Document

/-- Render one document under a profile. -/
def renderAs (document : Document) (profile : Profile) (settings : Settings) (edition : Edition) :
    Rendition :=
  let commission := document.commission profile settings
  let outcome := Session.performAll commission [] ⟨{},edition,none⟩ document.events
  match outcome.failure with
  | some failure => ⟨.error failure,outcome.edition⟩
  | none => ⟨outcome.session.finish commission,outcome.edition⟩

/-- Render one document under its own profile. -/
def render (document : Document) (settings : Settings) (edition : Edition) : Rendition :=
  document.renderAs document.profile.profile settings edition

def renderReported (document : Document) (settings : Settings) (edition : Edition) : Rendition :=
  let rendition := document.render settings edition
  match rendition.result with
  | .ok _ => rendition
  | .error failure =>
    ⟨rendition.result,rendition.edition.report .error
      (document.headers.bookCode ++ ": rendering aborted: " ++ failure.message)⟩

/-- Render documents one after the other; one that fails does not keep the others back. -/
def renderAll (settings : Settings) :
    List Document → Edition → List (String × Except Failure Page) × Edition
  | [], edition => ([], edition)
  | document :: rest, edition =>
    let rendition := document.renderReported settings edition
    let (results, edition) := renderAll settings rest rendition.edition
    ((document.headers.bookCode, rendition.result) :: results, edition)

end Document
end Scriptorium
