import Scriptorium.Proofs.FinishedPage
import Scriptorium.Proofs.Restart

/-! Histories of a session. Events are given to a session one after the other, and it may be looked at in
any moment: between two events, within a sequence that is being replayed, or when a failure leaves it. With
each moment goes the list of all events that have been taken up to it, those of replayed sequences and those
that failed included. -/
namespace Scriptorium

namespace Session
variable {commission : Commission}

theorem entries_of_failure {outcome : Outcome} (failed : outcome.failure ≠ none) (acts : List Act) :
    entries commission outcome acts = [] := by
  induction acts with
  | nil => rfl
  | cons act rest ih =>
    have unheard : heard? commission outcome act = none := by cases act <;> simp [heard?, failed]
    have stays : step commission outcome act = outcome :=
      foldl_step_of_failure commission outcome (Option.isSome_iff_ne_none.mpr failed) [act]
    rw [entries, unheard, stays, ih]
    rfl

theorem entries_append (first second : List Act) (outcome : Outcome) :
    entries commission outcome (first ++ second) =
      entries commission outcome first ++ entries commission (first.foldl (step commission) outcome) second := by
  induction first generalizing outcome with
  | nil => rfl
  | cons act rest ih => rw [List.cons_append, entries, entries, ih, List.append_assoc, List.foldl_cons]

theorem entries_of_untaken {acts : List Act} (untaken : ∀ path event, Act.take path event ∉ acts)
    (outcome : Outcome) : entries commission outcome acts = [] := by
  induction acts generalizing outcome with
  | nil => rfl
  | cons act rest ih =>
    have others := ih (fun path event member => untaken path event (List.mem_cons_of_mem _ member))
      (step commission outcome act)
    cases act with
    | take path event => exact absurd List.mem_cons_self (untaken path event)
    | refuse failure | closeNote => exact others

end Session

/-- Whether the event is the graft of a note. -/
def Entry.graftsNote (profile : Profile) (entry : Entry) : Bool :=
  Rule.select? profile entry.event == some .noteGraft

namespace Moment

/-- The count of the notes whose sequences are being replayed. -/
def notesOpen (moment : Moment) : Nat := (moment.opened.flatMap fun replayed => replayed.1.closing).length

/-- The event that is taken in the next step. -/
def heard? (commission : Commission) (moment : Moment) : Option Entry :=
  match moment.events with
  | [] => none
  | event :: _ => Session.heard? commission moment.outcome (.take moment.path event)

/-- A session comes from one moment to another, and has taken some events in between. The next event may be
given when the one before has come to its end, however it ended. -/
inductive Onward (commission : Commission) : Moment → List Entry → Moment → Prop
  | here {first} : Onward commission first [] first
  | next {first told moment later} (past : Onward commission first told moment)
      (next : moment.next? commission = some later) :
      Onward commission first (told ++ (moment.heard? commission).toList) later
  | given {first told moment} (past : Onward commission first told moment)
      (ended : moment.next? commission = none) (event : Event) :
      Onward commission first told (moment.given event)

variable {commission : Commission} {first moment later : Moment} {told more : List Entry}

theorem Onward.trans (past : first.Onward commission told moment) (present : moment.Onward commission more later) :
    first.Onward commission (told ++ more) later := by
  induction present with
  | here => rwa [List.append_nil]
  | next _ step ih =>
    rw [← List.append_assoc]
    exact .next ih step
  | given _ ended event ih => exact .given ih ended event

/-- A graft that is entered or refused leaves the session as it is. -/
theorem enter_session {taken : Outcome} {opened : List (Graft × List Event)} {event : Event} {rest : List Event}
    {graft : Graft} (made : Graft.ofEvent? commission.profile event = some graft) (session : Session)
    (failure : Option Failure) :
    let entered := enter commission taken opened rest graft
    let entry : Entry := ⟨event,session,failure⟩
    entered.outcome.session = taken.session ∧
      entered.notesOpen ≤ notesOpen ⟨taken,opened,event :: rest⟩ +
        [entry].countP (Entry.graftsNote commission.profile) := by
  have refused (failure : Failure) : (Session.step commission taken (.refuse failure)).session = taken.session := by
    unfold Session.step
    split <;> rfl
  intro entered entry
  unfold entered enter
  split
  · exact ⟨refused _,Nat.le_add_right _ _⟩
  · split
    · exact ⟨refused _,Nat.le_add_right _ _⟩
    · refine ⟨rfl,?_⟩
      cases graft with
      | block target => simp [notesOpen, Graft.closing]
      | note target =>
        have grafts : Rule.select? commission.profile event = some .noteGraft :=
          Graft.select_noteGraft_iff.mpr ⟨target,made⟩
        simp [notesOpen, Graft.closing, entry, Entry.graftsNote, grafts]

/-- A step takes an event, or it takes none and at most closes a note. A note is opened only by the event that
grafts it. -/
theorem next_session (next : moment.next? commission = some later) :
    (∃ event, let taken := Session.take commission event moment.outcome.session moment.outcome.edition
      let entry : Entry := ⟨event,moment.outcome.session,taken.failure⟩
      moment.heard? commission = some entry ∧ later.outcome.session = taken.session ∧
        later.notesOpen ≤ moment.notesOpen + [entry].countP (Entry.graftsNote commission.profile)) ∨
      moment.heard? commission = none ∧
        (later.outcome.session = moment.outcome.session ∧ later.notesOpen ≤ moment.notesOpen ∨
          later.outcome.session =
            (Session.perform commission moment.outcome.session moment.outcome.edition .closeNote).session ∧
          later.notesOpen + 1 ≤ moment.notesOpen) := by
  obtain ⟨outcome,opened,events⟩ := moment
  unfold next? at next
  split at next
  next failed =>
    have unheard : heard? commission ⟨outcome,opened,events⟩ = none := by
      have stopped : outcome.failure ≠ none := Option.isSome_iff_ne_none.mp failed
      cases events <;> simp [heard?, Session.heard?, stopped]
    cases opened with
    | nil => cases next
    | cons entry outer =>
      cases next
      exact .inr ⟨unheard,.inl ⟨rfl,by simp [notesOpen]⟩⟩
  next going =>
    have fine : outcome.failure = none := by simpa using going
    cases events with
    | nil =>
      cases opened with
      | nil => cases next
      | cons entry outer =>
        cases next
        obtain ⟨graft,rest⟩ := entry
        cases graft with
        | block target => exact .inr ⟨rfl,.inl ⟨rfl,by simp [notesOpen]⟩⟩
        | note target =>
          refine .inr ⟨rfl,.inr ⟨?_,by simp [notesOpen, Graft.closing]⟩⟩
          simp only [Graft.closing, List.foldl_cons, List.foldl_nil, Session.step_of_success fine]
    | cons event rest =>
      refine .inl ⟨event,?_,?_⟩
      · simp [heard?, Session.heard?, fine, Session.step_of_success fine, Session.perform]
      · simp only [Session.step_of_success fine, Session.perform] at next
        split at next
        next => cases next; exact ⟨rfl,Nat.le_add_right _ _⟩
        next graft made =>
          split at next
          next => cases next; exact ⟨rfl,Nat.le_add_right _ _⟩
          next => cases next; exact enter_session made _ _

/-- What the taking of each event and the closing of notes keep is kept in all moments that come. No more notes are
closed than were open or have been grafted. -/
theorem Onward.keeps_counted (kept : Nat → List Entry → Session → Prop)
    (take : ∀ closed told session edition event, kept closed told session →
      kept closed (told ++ [⟨event,session,(Session.take commission event session edition).failure⟩])
        (Session.take commission event session edition).session)
    (close : ∀ closed told session edition, kept closed told session →
      kept (closed + 1) told (Session.perform commission session edition .closeNote).session)
    (past : List Entry) (initial : kept 0 past first.outcome.session)
    (onward : first.Onward commission told moment) :
    ∃ closed, closed + moment.notesOpen ≤ first.notesOpen + told.countP (Entry.graftsNote commission.profile) ∧
      kept closed (past ++ told) moment.outcome.session := by
  induction onward with
  | here => exact ⟨0,by simp,by rwa [List.append_nil]⟩
  | given _ _ _ ih => exact ih
  | next _ step ih =>
    obtain ⟨closed,bound,ih⟩ := ih
    rw [List.countP_append]
    rcases next_session step with ⟨event,heard,session,opened⟩ | ⟨unheard,⟨same,opened⟩ | ⟨done,opened⟩⟩
    · refine ⟨closed,?_,?_⟩
      · rw [heard, Option.toList_some]
        omega
      · rw [heard, session, Option.toList_some, ← List.append_assoc]
        exact take _ _ _ _ event ih
    · rw [unheard, Option.toList_none, List.append_nil, List.countP_nil]
      exact ⟨closed,by omega,same ▸ ih⟩
    · rw [unheard, Option.toList_none, List.append_nil, List.countP_nil]
      exact ⟨closed + 1,by omega,done ▸ close _ _ _ _ ih⟩

theorem Onward.keeps (kept : List Entry → Session → Prop)
    (take : ∀ told session edition event, kept told session →
      kept (told ++ [⟨event,session,(Session.take commission event session edition).failure⟩])
        (Session.take commission event session edition).session)
    (close : ∀ told session edition, kept told session →
      kept told (Session.perform commission session edition .closeNote).session)
    (past : List Entry) (initial : kept past first.outcome.session)
    (onward : first.Onward commission told moment) : kept (past ++ told) moment.outcome.session := by
  obtain ⟨_,_,still⟩ := onward.keeps_counted (fun _ => kept) (fun _ => take) (fun _ => close) past initial
  exact still

/-- Nothing is taken in the step in which a replay is left. -/
theorem heard?_of_replayed {outcome : Outcome} {events : List Event}
    (ended : outcome.failure = none → events = []) (opened : List (Graft × List Event)) :
    heard? commission ⟨outcome,opened,events⟩ = none := by
  cases events with
  | nil => rfl
  | cons event rest =>
    have failed : outcome.failure ≠ none := fun fine => by simp at ended; exact ended fine
    simp [heard?, Session.heard?, failed]

/-- The events that are next come to their end, and those are taken which the recursion tells. -/
theorem onward_performAll (commission : Commission) (path : List String) (events : List Event) (outcome : Outcome)
    (opened : List (Graft × List Event)) (names : Graft.names opened = path) :
    ∃ left, Onward commission ⟨outcome,opened,events⟩ (Session.entries commission outcome
        (Graft.unfold commission.profile commission.sequences path events))
        ⟨Session.performAll commission path outcome events,opened,left⟩ ∧
      ((Session.performAll commission path outcome events).failure = none → left = []) := by
  induction path, events using Graft.unfold_induction commission.profile commission.sequences
    generalizing outcome opened with
  | nil path =>
    rw [Session.performAll, Graft.unfold_nil, Session.entries]
    exact ⟨[],.here,fun _ => rfl⟩
  | cons path event rest ih within =>
    subst names
    by_cases fine : outcome.failure = none
    · let heard := (Session.heard? commission outcome (.take (Graft.names opened) event)).toList
      let taken := Session.step commission outcome (.take (Graft.names opened) event)
      let after := Graft.after commission.profile commission.sequences (Graft.names opened) event
      suffices come : Onward commission ⟨outcome,opened,event :: rest⟩
          (heard ++ Session.entries commission taken after)
          ⟨after.foldl (Session.step commission) taken,opened,rest⟩ by
        obtain ⟨left,further,whole⟩ := ih (after.foldl (Session.step commission) taken) opened rfl
        rw [Session.performAll_cons, Graft.unfold_cons, Session.entries, Session.entries_append,
          ← List.append_assoc]
        exact ⟨left,come.trans further,whole⟩
      -- the event itself is taken in the first step, and all others by the replay of its sequence
      rcases next?_of_event fine opened event rest with
        ⟨done,alone⟩ | ⟨graft,inner,made,fresh,found,entered,grafted⟩
      · have nothing : Session.entries commission taken after = [] :=
          alone.elim (Session.entries_of_failure · _) (Session.entries_of_untaken · _)
        rw [nothing, List.append_nil]
        exact .next .here done
      · obtain ⟨_,replayed,ended⟩ := within graft inner made fresh found taken ((graft, rest) :: opened) (by simp)
        have closing (outcome : Outcome) : Session.entries commission outcome graft.closing = [] := by
          cases graft <;> rfl
        have inside : Session.entries commission taken after = Session.entries commission taken
            (Graft.unfold commission.profile commission.sequences (Graft.names opened ++ [graft.target]) inner) := by
          rw [show after = _ from Graft.after_of_found made fresh found, Session.entries_append, closing,
            List.append_nil]
        have left := Onward.next ((Onward.next .here entered).trans replayed) (next?_of_replayed ended)
        rw [heard?_of_replayed ended, Option.toList_none, List.append_nil, ← inside, ← grafted] at left
        exact left
    · have failed : outcome.failure.isSome := Option.isSome_iff_ne_none.mpr fine
      rw [Session.performAll_eq_foldl, Session.foldl_step_of_failure _ _ failed, Session.entries_of_failure fine]
      exact ⟨_,.here,fun going => absurd going fine⟩

/-- Events that are dispatched one after the other leave a moment behind at which the next may be given. -/
theorem onward_attend (commission : Commission) (ended : moment.next? commission = none) (events : List Event) :
    ∃ last, moment.Onward commission (Session.chronicle commission moment.outcome events) last ∧
      last.next? commission = none ∧
      last.outcome = (Session.attend commission moment.outcome events).getLastD moment.outcome := by
  induction events generalizing moment with
  | nil => exact ⟨moment,.here,ended,rfl⟩
  | cons event events ih =>
    obtain ⟨outcome,opened,next⟩ := moment
    obtain rfl : opened = [] := opened_of_ended ended
    obtain ⟨left,dispatched,whole⟩ := onward_performAll commission [] [event]
      ⟨outcome.session,outcome.edition,none⟩ [] rfl
    obtain ⟨last,further,resting,same⟩ := ih (next?_at_root whole)
    refine ⟨last,.trans (.trans (.given .here ended event) dispatched) further,resting,?_⟩
    rw [same, Session.attend, List.getLastD_cons]
    rfl

end Moment
end Scriptorium
