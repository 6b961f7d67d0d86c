import Scriptorium.Proofs.ReplayStack
import Scriptorium.Proofs.SharedEdition

/-! A document that is started anew. Whatever was dispatched before and whatever it failed with, its
start leaves a session as if it were new; and the replays of an event that failed are all left before
the next event comes. -/
namespace Scriptorium

namespace Session
variable {commission : Commission}

/-- What an event does to a session does not depend on the edition. -/
theorem dispatch_elsewhere (commission : Commission) (event : Event) (session : Session) (edition other : Edition) :
    (dispatch commission event session edition).session = (dispatch commission event session other).session ∧
      (dispatch commission event session edition).failure =
        (dispatch commission event session other).failure := by
  have apart (place : Edition) : dispatch commission event session place =
      (dispatch commission event session {}).after place := performAll_after [] ⟨session,{},none⟩ [event]
  rw [apart edition, apart other]
  exact ⟨rfl,rfl⟩

theorem dispatch_start {start : Event} (starts : start.kind = .documentStart) (session : Session)
    (edition : Edition) : dispatch commission start session edition = Session.start commission edition := by
  have ungrafted : Graft.ofEvent? commission.profile start = none :=
    Graft.ofEvent?_eq_none (by simp [starts]) (by simp [starts])
  rw [dispatch_eq_run, Graft.unfold_cons, Graft.after_of_none ungrafted, run, List.nil_append, List.foldl_cons,
    Graft.unfold_nil, List.foldl_nil, step_of_success rfl, perform, take_start starts]

/-- What can be told of a session after an event: how the event ended, what the session holds, and
what it would finish with. -/
def shown (commission : Commission) (outcome : Outcome) : Option Failure × Session × Except Failure Page :=
  (outcome.failure, outcome.session, outcome.session.finish commission)

theorem attend_elsewhere (events : List Event) {one other : Outcome} (same : one.session = other.session) :
    (attend commission one events).map (shown commission) =
      (attend commission other events).map (shown commission) := by
  induction events generalizing one other with
  | nil => rfl
  | cons event rest ih =>
    obtain ⟨session,failure⟩ := dispatch_elsewhere commission event one.session one.edition other.edition
    rw [same] at session failure
    rw [attend, attend, List.map_cons, List.map_cons, same, ih session, shown, shown, session, failure]

theorem attend_start {start : Event} (starts : start.kind = .documentStart) (events : List Event)
    (one other : Outcome) :
    (attend commission one (start :: events)).map (shown commission) =
      (attend commission other (start :: events)).map (shown commission) := by
  have anew : (Session.start commission one.edition).session =
      (Session.start commission other.edition).session := rfl
  rw [attend, attend, dispatch_start starts, dispatch_start starts, List.map_cons, List.map_cons,
    attend_elsewhere events anew]
  rfl

end Session

namespace Moment
variable {commission : Commission} {moment last other : Moment} {event : Event} {events : List Event}

theorem opened_of_ended (ended : moment.next? commission = none) : moment.opened = [] := by
  obtain ⟨outcome,opened,events⟩ := moment
  cases opened with
  | nil => rfl
  | cons entry outer =>
    unfold next? at ended
    split at ended
    · cases ended
    · cases events with
      | nil => cases ended
      | cons event rest =>
        simp only at ended
        split at ended
        · cases ended
        · split at ended <;> cases ended

/-- A run comes to one end. -/
theorem Reaches.unique (one : moment.Reaches commission last) (ended : last.next? commission = none)
    (two : moment.Reaches commission other) (also : other.next? commission = none) : last = other := by
  have stuck {final : Moment} (final_ended : final.next? commission = none) (later : Moment) :
      ¬final.next? commission = some later := by
    rw [final_ended]
    exact nofun
  have functional : Relator.RightUnique fun earlier later : Moment => earlier.next? commission = some later :=
    fun _ _ _ first second => Option.some.inj (first.symm.trans second)
  rcases Relation.ReflTransGen.total_of_right_unique functional one two with onward | onward
  · exact ((Relation.reflTransGen_iff_eq (stuck ended)).mp onward).symm
  · exact (Relation.reflTransGen_iff_eq (stuck also)).mp onward

/-- A moment with one more event to come, whatever came of the events before. Replays that had not
been left would still be there. -/
def given (moment : Moment) (event : Event) : Moment :=
  ⟨{moment.outcome with failure := none},moment.opened,[event]⟩

/-- Events that are given one after the other, each when the one before it has come to its end, and the
moments at which they end. -/
inductive Serves (commission : Commission) : Moment → List Event → List Moment → Prop
  | nil {moment : Moment} : Serves commission moment [] []
  | cons {moment last : Moment} {event : Event} {rest : List Event} {later : List Moment}
      (reached : (moment.given event).Reaches commission last) (ended : last.next? commission = none)
      (others : Serves commission last rest later) :
      Serves commission moment (event :: rest) (last :: later)

theorem given_ends (commission : Commission) (idle : moment.opened = []) (event : Event) :
    ∃ last, (moment.given event).Reaches commission last ∧ last.next? commission = none ∧
      last.outcome = Session.dispatch commission event moment.outcome.session moment.outcome.edition := by
  obtain ⟨outcome,opened,events⟩ := moment
  subst idle
  let result := Session.dispatch commission event outcome.session outcome.edition
  obtain ⟨left,reached,ended⟩ : ∃ left, Reaches commission ⟨⟨outcome.session,outcome.edition,none⟩,[],[event]⟩
      ⟨result,[],left⟩ ∧ (result.failure = none → left = []) :=
    reaches_performAll [] [event] ⟨outcome.session,outcome.edition,none⟩ [] rfl
  exact ⟨⟨result,[],left⟩,reached,next?_at_root ended,rfl⟩

theorem exists_serves (commission : Commission) (idle : moment.opened = []) (events : List Event) :
    ∃ moments, Serves commission moment events moments := by
  induction events generalizing moment with
  | nil => exact ⟨[],.nil⟩
  | cons event rest ih =>
    obtain ⟨last,reached,ended,_⟩ := given_ends commission idle event
    obtain ⟨later,others⟩ := ih (opened_of_ended ended)
    exact ⟨_,.cons reached ended others⟩

/-- No replay is left over from one event to the next, and so each event goes as `dispatch` says. -/
theorem Serves.attended {moments : List Moment} (served : Serves commission moment events moments)
    (idle : moment.opened = []) :
    moments.map Moment.outcome = Session.attend commission moment.outcome events ∧
      ∀ last ∈ moments, last.opened = [] := by
  induction served with
  | nil => exact ⟨rfl,by simp⟩
  | @cons moment last event rest later reached ended others ih =>
    obtain ⟨final,comes,stops,outcome⟩ := given_ends commission idle event
    cases Reaches.unique reached ended comes stops
    have left := opened_of_ended ended
    obtain ⟨same,empty⟩ := ih left
    refine ⟨?_,List.forall_mem_cons.mpr ⟨left,empty⟩⟩
    rw [List.map_cons, same, Session.attend, outcome]

theorem opened_getLastD {moments : List Moment} (idle : moment.opened = [])
    (left : ∀ last ∈ moments, last.opened = []) : (moments.getLastD moment).opened = [] := by
  induction moments generalizing moment with
  | nil => exact idle
  | cons last later ih =>
    rw [List.getLastD_cons]
    exact ih (left last (by simp)) fun other member => left other (List.mem_cons_of_mem _ member)

/-- A session with nothing behind it. -/
def fresh (edition : Edition) : Moment := ⟨⟨{},edition,none⟩,[],[]⟩

end Moment

namespace Session

/-- The start of a document forgets all that came before it. Whatever has been dispatched in a session,
each event from the start on ends as it does in a new session, leaves the same session and gives the
same page; and at the end of no event a sequence is still being replayed. -/
theorem restart_forgets (commission : Commission) (history : List Event) {start : Event}
    (starts : start.kind = .documentStart) (events : List Event) (edition other : Edition) :
    let Served (ended later anew : List Moment) : Prop :=
      Moment.Serves commission (.fresh edition) history ended ∧
        Moment.Serves commission (ended.getLastD (.fresh edition)) (start :: events) later ∧
          Moment.Serves commission (.fresh other) (start :: events) anew
    (∃ ended later anew, Served ended later anew) ∧
      ∀ ended later anew, Served ended later anew →
        later.map Moment.outcome =
            attend commission (ended.getLastD (.fresh edition)).outcome (start :: events) ∧
          later.map (fun moment => shown commission moment.outcome) =
            anew.map (fun moment => shown commission moment.outcome) ∧
          ∀ moment ∈ ended ++ later, moment.path = [] := by
  intro Served
  have idle (edition : Edition) : (Moment.fresh edition).opened = [] := rfl
  constructor
  · obtain ⟨ended,before⟩ := Moment.exists_serves commission (idle edition) history
    have left := Moment.opened_getLastD (idle edition) (before.attended (idle edition)).2
    obtain ⟨later,after⟩ := Moment.exists_serves commission left (start :: events)
    obtain ⟨anew,alone⟩ := Moment.exists_serves commission (idle other) (start :: events)
    exact ⟨ended,later,anew,before,after,alone⟩
  · rintro ended later anew ⟨before,after,alone⟩
    obtain ⟨_,past⟩ := before.attended (idle edition)
    obtain ⟨outcomes,present⟩ := after.attended (Moment.opened_getLastD (idle edition) past)
    obtain ⟨apart,_⟩ := alone.attended (idle other)
    have same : (later.map Moment.outcome).map (shown commission) =
        (anew.map Moment.outcome).map (shown commission) := by
      rw [outcomes, apart]
      exact attend_start starts events _ _
    refine ⟨outcomes,by simpa only [List.map_map, Function.comp_def] using same,?_⟩
    intro moment member
    have empty : moment.opened = [] := (List.mem_append.mp member).elim (past moment) (present moment)
    rw [Moment.path, empty]
    rfl

/-- Two headings that lead to each other. -/
def tangled : Commission where
  profile := .canonical
  headers := ⟨"MRK",none,none,none,none,none⟩
  sequences := .ofList [("first", [.blockStart .heading "blockTag/s", .blockGraft .heading "heading" "second"]),
    ("second", [.blockGraft .heading "heading" "first"])]

/-- A chapter waits, a row is open, and both headings are being replayed when the last event fails. -/
def abandoned : List Event :=
  [.documentStart, .scopeStart .main "chapter/1", .blockGraft .main "heading" "first"]

theorem abandoned_fails : (attend tangled ⟨{},{},none⟩ abandoned).map Outcome.failure =
    [none, none, some (.recursiveSequence "first")] := by
  have plain := Graft.unfold_plain tangled.profile tangled.sequences
  have start := plain .documentStart (by decide)
  have chapter := plain (.scopeStart .main "chapter/1") (by decide)
  have heading : Graft.unfold tangled.profile tangled.sequences [] [.blockGraft .main "heading" "first"] =
      [.take [] (.blockGraft .main "heading" "first"), .take ["first"] (.blockStart .heading "blockTag/s"),
        .take ["first"] (.blockGraft .heading "heading" "second"),
        .take ["first", "second"] (.blockGraft .heading "heading" "first"),
        .refuse (.recursiveSequence "first")] := by
    have outer : Graft.ofEvent? tangled.profile (.blockGraft .main "heading" "first") =
        some (.block "first") := by decide
    have opening : Graft.ofEvent? tangled.profile (.blockStart .heading "blockTag/s") = none := by decide
    have middle : Graft.ofEvent? tangled.profile (.blockGraft .heading "heading" "second") =
        some (.block "second") := by decide
    have inner : Graft.ofEvent? tangled.profile (.blockGraft .heading "heading" "first") =
        some (.block "first") := by decide
    have first : tangled.sequences.find? "first" =
        some [.blockStart .heading "blockTag/s", .blockGraft .heading "heading" "second"] := rfl
    have second : tangled.sequences.find? "second" = some [.blockGraft .heading "heading" "first"] := rfl
    simp [Graft.unfold_cons, Graft.after, Graft.target, Graft.closing, outer, opening, middle, inner, first,
      second]
  simp only [abandoned, attend, dispatch_eq_run, start, chapter, heading]
  decide +kernel

theorem restart_abandoned : ∃ ended later anew,
    Moment.Serves tangled (.fresh {}) abandoned ended ∧
      Moment.Serves tangled (ended.getLastD (.fresh {})) [.documentStart, .sequenceEnd .main] later ∧
      Moment.Serves tangled (.fresh {}) [.documentStart, .sequenceEnd .main] anew ∧
      ended.map (fun moment => moment.outcome.failure) = [none, none, some (.recursiveSequence "first")] ∧
      later.map (fun moment => shown tangled moment.outcome) =
        anew.map (fun moment => shown tangled moment.outcome) := by
  obtain ⟨⟨ended,later,anew,served⟩,same⟩ :=
    restart_forgets tangled abandoned (show Event.documentStart.kind = .documentStart from rfl)
      [.sequenceEnd .main] {} {}
  obtain ⟨before,after,alone⟩ := served
  obtain ⟨_,shown,_⟩ := same ended later anew ⟨before,after,alone⟩
  have failures := (congrArg (List.map Outcome.failure) (before.attended rfl).1).trans abandoned_fails
  rw [List.map_map] at failures
  exact ⟨ended,later,anew,before,after,alone,failures,shown⟩

end Session
end Scriptorium
