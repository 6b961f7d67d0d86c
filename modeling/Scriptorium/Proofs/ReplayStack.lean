import Mathlib.Data.List.Perm.Subperm
import Scriptorium.Proofs.Runs
import Scriptorium.Proofs.Steps

/-! Replays, one small step after the other. Here nothing bounds how deep sequences are replayed
within each other but the rule that none is replayed within itself; that this is enough for every
event to come to an end, with the outcome that `dispatch` gives, is proved. -/
namespace Scriptorium

/-- A moment of a run: what has come of it so far, the grafts that are being replayed, innermost
first and each with the events that come after it, and the events that are next. -/
structure Moment where
  outcome : Outcome
  opened : List (Graft × List Event)
  events : List Event

namespace Graft

/-- The names of the sequences being replayed, outermost first. -/
def names (opened : List (Graft × List Event)) : List String :=
  (opened.map fun entry => entry.1.target).reverse

@[simp] theorem names_cons (graft : Graft) (rest : List Event) (opened : List (Graft × List Event)) :
    names ((graft, rest) :: opened) = names opened ++ [graft.target] := by
  simp [names]

/-- Each replayed sequence was grafted by an event of the list around it, while it was not being
replayed itself, and some last events of it are left. -/
inductive Nested (profile : Profile) (sequences : Index String (List Event)) :
    List (Graft × List Event) → List Event → Prop
  | flat {events} : Nested profile sequences [] events
  | within {opened event rest graft inner events} (outer : Nested profile sequences opened (event :: rest))
      (made : ofEvent? profile event = some graft) (fresh : graft.target ∉ names opened)
      (found : sequences.find? graft.target = some inner) (left : events <:+ inner) :
      Nested profile sequences ((graft, rest) :: opened) events

variable {profile : Profile} {sequences : Index String (List Event)}
variable {opened : List (Graft × List Event)} {events : List Event}

theorem Nested.later {event : Event} (nested : Nested profile sequences opened (event :: events)) :
    Nested profile sequences opened events := by
  cases nested with
  | flat => exact .flat
  | within outer made fresh found left => exact .within outer made fresh found ((List.suffix_cons _ _).trans left)

theorem Nested.outer {graft : Graft} {rest : List Event}
    (nested : Nested profile sequences ((graft, rest) :: opened) events) :
    Nested profile sequences opened rest := by
  cases nested with
  | within outer => exact outer.later

theorem Nested.names_nodup (nested : Nested profile sequences opened events) : (names opened).Nodup := by
  induction nested with
  | flat => exact List.nodup_nil
  | within _ _ fresh _ _ ih =>
    rw [names_cons]
    refine List.nodup_append.mpr ⟨ih,by simp,?_⟩
    intro name known other same
    rw [List.mem_singleton.mp same]
    rintro rfl
    exact fresh known

theorem Nested.names_known (nested : Nested profile sequences opened events) :
    ∀ name ∈ names opened, name ∈ sequences.keys := by
  induction nested with
  | flat => simp [names]
  | within _ _ _ found _ ih =>
    intro name member
    rw [names_cons, List.mem_append, List.mem_singleton] at member
    rcases member with earlier | rfl
    · exact ih name earlier
    · exact Index.mem_keys_of_find? found

/-- So a graft of a sequence that is being replayed closes a cycle. -/
theorem Nested.ahead (nested : Nested profile sequences opened events) :
    Ahead profile sequences (names opened) events := by
  induction nested with
  | flat => simp [Ahead, names]
  | within _ made _ found left ih =>
    rw [names_cons]
    intro name known next member
    exact ih.within (by simp) made found name known next (left.subset member)

end Graft

theorem Session.performAll_cons (commission : Commission) (path : List String) (outcome : Outcome)
    (event : Event) (rest : List Event) :
    performAll commission path outcome (event :: rest) =
      performAll commission path ((Graft.after commission.profile commission.sequences path event).foldl
        (step commission) (step commission outcome (.take path event))) rest := by
  simp only [performAll_eq_foldl, Graft.unfold_cons, List.foldl_cons, List.foldl_append]

theorem Session.performAll_append (commission : Commission) (path : List String) (outcome : Outcome)
    (first second : List Event) :
    performAll commission path outcome (first ++ second) =
      performAll commission path (performAll commission path outcome first) second := by
  simp only [performAll_eq_foldl, Graft.unfold_append, List.foldl_append]

namespace Moment
variable {commission : Commission} {moment later : Moment}

/-- The sequences being replayed, outermost first. -/
def path (moment : Moment) : List String := Graft.names moment.opened

/-- A followed graft is entered, or refused where its sequence is being replayed or unknown. -/
def enter (commission : Commission) (taken : Outcome) (opened : List (Graft × List Event))
    (rest : List Event) (graft : Graft) : Moment :=
  if graft.target ∈ Graft.names opened then
    ⟨Session.step commission taken (.refuse (.recursiveSequence graft.target)),opened,rest⟩
  else match commission.sequences.find? graft.target with
    | none => ⟨Session.step commission taken (.refuse (.unknownSequence graft.target)),opened,rest⟩
    | some inner => ⟨taken,(graft, rest) :: opened,inner⟩

/-- The next moment, none at the end. After a failure all replays are left one by one. -/
def next? (commission : Commission) (moment : Moment) : Option Moment :=
  if moment.outcome.failure.isSome then
    match moment.opened with
    | [] => none
    | (_, rest) :: outer => some ⟨moment.outcome,outer,rest⟩
  else match moment.events with
    | [] =>
      match moment.opened with
      | [] => none
      | (graft, rest) :: outer =>
        some ⟨graft.closing.foldl (Session.step commission) moment.outcome,outer,rest⟩
    | event :: rest =>
      let taken := Session.step commission moment.outcome (.take moment.path event)
      match Graft.ofEvent? commission.profile event with
      | none => some ⟨taken,moment.opened,rest⟩
      | some graft =>
        if taken.failure.isSome then some ⟨taken,moment.opened,rest⟩
        else some (enter commission taken moment.opened rest graft)

/-- The moments that come after one. -/
def Reaches (commission : Commission) : Moment → Moment → Prop :=
  Relation.ReflTransGen fun earlier later => earlier.next? commission = some later

section Steps
variable {outcome : Outcome} {opened : List (Graft × List Event)} {event : Event}
variable {events rest : List Event} {graft : Graft}

/-- A replay is left when its events are at an end, or when one of them has failed. -/
theorem next?_of_replayed (ended : outcome.failure = none → events = []) :
    next? commission ⟨outcome,(graft, rest) :: opened,events⟩ =
      some ⟨graft.closing.foldl (Session.step commission) outcome,opened,rest⟩ := by
  cases fine : outcome.failure with
  | none => simp [next?, fine, ended fine]
  | some failure =>
    have failed : outcome.failure.isSome := by simp [fine]
    rw [Session.foldl_step_of_failure commission outcome failed]
    simp [next?, fine]

theorem next?_at_root (ended : outcome.failure = none → events = []) :
    next? commission ⟨outcome,[],events⟩ = none := by
  cases fine : outcome.failure with
  | none => simp [next?, fine, ended fine]
  | some failure => simp [next?, fine]

theorem next?_of_plain (fine : outcome.failure = none)
    (plain : Graft.ofEvent? commission.profile event = none) :
    next? commission ⟨outcome,opened,event :: rest⟩ =
      some ⟨Session.step commission outcome (.take (Graft.names opened) event),opened,rest⟩ := by
  simp [next?, path, fine, plain]

theorem next?_of_stopped (fine : outcome.failure = none)
    (stopped : (Session.step commission outcome (.take (Graft.names opened) event)).failure.isSome) :
    next? commission ⟨outcome,opened,event :: rest⟩ =
      some ⟨Session.step commission outcome (.take (Graft.names opened) event),opened,rest⟩ := by
  cases made : Graft.ofEvent? commission.profile event <;> simp [next?, path, fine, made, stopped]

theorem next?_of_graft (fine : outcome.failure = none)
    (made : Graft.ofEvent? commission.profile event = some graft)
    (going : (Session.step commission outcome (.take (Graft.names opened) event)).failure = none) :
    next? commission ⟨outcome,opened,event :: rest⟩ =
      some (enter commission (Session.step commission outcome (.take (Graft.names opened) event)) opened
        rest graft) := by
  simp [next?, path, fine, made, going]

/-- An event is done with in one step and takes no other with it, but for a graft that is entered. -/
theorem next?_of_event (fine : outcome.failure = none) (opened : List (Graft × List Event)) (event : Event)
    (rest : List Event) :
    let taken := Session.step commission outcome (.take (Graft.names opened) event)
    let after := Graft.after commission.profile commission.sequences (Graft.names opened) event
    let grafted := after.foldl (Session.step commission) taken
    (next? commission ⟨outcome,opened,event :: rest⟩ = some ⟨grafted,opened,rest⟩ ∧
      (taken.failure ≠ none ∨ ∀ path event, Act.take path event ∉ after)) ∨
    ∃ graft inner, Graft.ofEvent? commission.profile event = some graft ∧
      graft.target ∉ Graft.names opened ∧ commission.sequences.find? graft.target = some inner ∧
      next? commission ⟨outcome,opened,event :: rest⟩ = some ⟨taken,(graft, rest) :: opened,inner⟩ ∧
      grafted = graft.closing.foldl (Session.step commission)
        (Session.performAll commission (Graft.names opened ++ [graft.target]) taken inner) := by
  intro taken after grafted
  cases made : Graft.ofEvent? commission.profile event with
  | none =>
    have nothing : after = [] := Graft.after_of_none made
    have same : grafted = taken := by simp [grafted, nothing]
    exact .inl ⟨same ▸ next?_of_plain fine made,.inr (by simp [nothing])⟩
  | some graft =>
    cases going : taken.failure with
    | some failure =>
      have stopped : taken.failure.isSome := by simp [going]
      have same : grafted = taken := Session.foldl_step_of_failure commission taken stopped _
      exact .inl ⟨same ▸ next?_of_stopped fine stopped,.inl nofun⟩
    | none =>
      have entered : next? commission ⟨outcome,opened,event :: rest⟩ =
          some (enter commission taken opened rest graft) := next?_of_graft fine made going
      by_cases inside : graft.target ∈ Graft.names opened
      · have refused : after = [.refuse (.recursiveSequence graft.target)] := Graft.after_of_cycle made inside
        have same : grafted = Session.step commission taken (.refuse (.recursiveSequence graft.target)) := by
          simp [grafted, refused]
        rw [enter, if_pos inside] at entered
        exact .inl ⟨same ▸ entered,.inr (by simp [refused])⟩
      rw [enter, if_neg inside] at entered
      cases found : commission.sequences.find? graft.target with
      | none =>
        have refused : after = [.refuse (.unknownSequence graft.target)] :=
          Graft.after_of_missing made inside found
        have same : grafted = Session.step commission taken (.refuse (.unknownSequence graft.target)) := by
          simp [grafted, refused]
        rw [found] at entered
        exact .inl ⟨same ▸ entered,.inr (by simp [refused])⟩
      | some inner =>
        rw [found] at entered
        refine .inr ⟨graft,inner,rfl,inside,found,entered,?_⟩
        simp [grafted, after, Graft.after_of_found made inside found, Session.performAll_eq_foldl]

end Steps

/-- An event comes to an end with all that it brings, if the sequence that it enters does. -/
theorem reaches_of_event {outcome : Outcome} {opened : List (Graft × List Event)} {event : Event}
    {rest : List Event} (fine : outcome.failure = none)
    (within : ∀ graft inner, Graft.ofEvent? commission.profile event = some graft →
      graft.target ∉ Graft.names opened → commission.sequences.find? graft.target = some inner →
      let taken := Session.step commission outcome (.take (Graft.names opened) event)
      let replayed := Session.performAll commission (Graft.names opened ++ [graft.target]) taken inner
      ∃ left, Reaches commission ⟨taken,(graft, rest) :: opened,inner⟩ ⟨replayed,(graft, rest) :: opened,left⟩ ∧
        (replayed.failure = none → left = [])) :
    Reaches commission ⟨outcome,opened,event :: rest⟩
      ⟨Session.performAll commission (Graft.names opened) outcome [event],opened,rest⟩ := by
  rw [Session.performAll_cons, Session.performAll]
  rcases next?_of_event fine opened event rest with
    ⟨done,_⟩ | ⟨graft,inner,made,fresh,found,entered,grafted⟩
  · exact .single done
  · obtain ⟨_,replayed,ended⟩ := within graft inner made fresh found
    rw [grafted]
    exact .head entered (.tail replayed (next?_of_replayed ended))

/-- The events that are next come to an end, with the outcome of the recursion over them. -/
theorem reaches_performAll (path : List String) (events : List Event) (outcome : Outcome)
    (opened : List (Graft × List Event)) (names : Graft.names opened = path) :
    ∃ left, Reaches commission ⟨outcome,opened,events⟩
        ⟨Session.performAll commission path outcome events,opened,left⟩ ∧
      ((Session.performAll commission path outcome events).failure = none → left = []) := by
  induction path, events using Graft.unfold_induction commission.profile commission.sequences
    generalizing outcome opened with
  | nil path =>
    rw [Session.performAll]
    exact ⟨[],.refl,fun _ => rfl⟩
  | cons path event rest ih within =>
    subst names
    cases fine : outcome.failure with
    | some failure =>
      have failed : outcome.failure.isSome := by simp [fine]
      rw [Session.performAll, if_pos failed]
      exact ⟨_,.refl,fun going => by simp [going] at fine⟩
    | none =>
      have first : Reaches commission ⟨outcome,opened,event :: rest⟩
          ⟨Session.performAll commission (Graft.names opened) outcome [event],opened,rest⟩ :=
        reaches_of_event fine fun graft inner made fresh found =>
          within graft inner made fresh found _ ((graft, rest) :: opened) (by simp)
      obtain ⟨left,later,whole⟩ :=
        ih (Session.performAll commission (Graft.names opened) outcome [event]) opened rfl
      rw [← List.singleton_append, Session.performAll_append]
      exact ⟨left,first.trans later,whole⟩

/-- A failure for a graft has its ground in the sequences: a cycle, or a name without a sequence. -/
def Grounded (commission : Commission) (outcome : Outcome) : Prop :=
  (∀ name, outcome.failure = some (.recursiveSequence name) →
    Relation.TransGen (Graft.Leads commission.profile commission.sequences) name name) ∧
  ∀ name, outcome.failure = some (.unknownSequence name) → name ∉ commission.sequences.keys

theorem Grounded.of_success {outcome : Outcome} (fine : outcome.failure = none) : Grounded commission outcome := by
  simp [Grounded, fine]

theorem Grounded.take {outcome : Outcome} (fine : outcome.failure = none) (path : List String) (event : Event) :
    Grounded commission (Session.step commission outcome (.take path event)) := by
  rw [Session.step_of_success fine]
  constructor <;> intro name failed <;> cases Session.take_failure failed

theorem Grounded.closing {outcome : Outcome} (fine : outcome.failure = none) (graft : Graft) :
    Grounded commission (graft.closing.foldl (Session.step commission) outcome) := by
  refine .of_success ?_
  cases graft with
  | block target => exact fine
  | note target => simp [Graft.closing, Session.step, fine, Session.perform, Session.edited]

/-- What holds at every moment of a run. -/
structure Sound (commission : Commission) (moment : Moment) : Prop where
  nested : Graft.Nested commission.profile commission.sequences moment.opened moment.events
  grounded : Grounded commission moment.outcome

theorem Sound.enter {taken : Outcome} {opened : List (Graft × List Event)} {event : Event}
    {rest : List Event} {graft : Graft}
    (nested : Graft.Nested commission.profile commission.sequences opened (event :: rest))
    (made : Graft.ofEvent? commission.profile event = some graft) (going : taken.failure = none) :
    Sound commission (enter commission taken opened rest graft) := by
  unfold Moment.enter
  split
  next inside =>
    refine ⟨nested.later,?_⟩
    rw [Session.step_of_success going]
    constructor <;> intro name failed <;> cases failed
    exact nested.ahead graft.target inside event (by simp) graft made
  next fresh =>
    split
    next unknown =>
      refine ⟨nested.later,?_⟩
      rw [Session.step_of_success going]
      constructor <;> intro name failed <;> cases failed
      intro known
      obtain ⟨inner,found⟩ := Index.mem_keys_iff.mp known
      rw [unknown] at found
      cases found
    next inner found => exact ⟨.within nested made fresh found List.suffix_rfl,.of_success going⟩

theorem Sound.next (sound : moment.Sound commission) (next : moment.next? commission = some later) :
    later.Sound commission := by
  obtain ⟨outcome,opened,events⟩ := moment
  obtain ⟨nested,grounded⟩ := sound
  unfold next? at next
  split at next
  next =>
    cases opened with
    | nil => cases next
    | cons entry outer => cases next; exact ⟨nested.outer,grounded⟩
  next going =>
    have fine : outcome.failure = none := by simpa using going
    cases events with
    | nil =>
      cases opened with
      | nil => cases next
      | cons entry outer => cases next; exact ⟨nested.outer,.closing fine _⟩
    | cons event rest =>
      simp only at next
      split at next
      next => cases next; exact ⟨nested.later,.take fine _ _⟩
      next graft made =>
        split at next
        next => cases next; exact ⟨nested.later,.take fine _ _⟩
        next going => cases next; exact .enter nested made (by simpa using going)

theorem Sound.reached (sound : moment.Sound commission) (reached : moment.Reaches commission later) :
    later.Sound commission := by
  induction reached with
  | refl => exact sound
  | tail _ next ih => exact ih.next next

end Moment

/-- Every event comes to an end, and while it is performed no sequence is replayed within itself:
sequences are replayed at most as deep as there are names. A failure for a graft has its ground in
the sequences. -/
theorem Session.dispatch_halts (commission : Commission) (event : Event) (session : Session)
    (edition : Edition) :
    let first : Moment := ⟨⟨session,edition,none⟩,[],[event]⟩
    let result := dispatch commission event session edition
    (∃ last, first.Reaches commission last ∧ last.next? commission = none ∧ last.outcome = result) ∧
      (∀ moment, first.Reaches commission moment → moment.path.Nodup ∧
        (∀ name ∈ moment.path, name ∈ commission.sequences.keys) ∧
        moment.path.length ≤ commission.sequences.keys.length) ∧
      (∀ name, result.failure = some (.recursiveSequence name) →
        Relation.TransGen (Graft.Leads commission.profile commission.sequences) name name) ∧
      ∀ name, result.failure = some (.unknownSequence name) → name ∉ commission.sequences.keys := by
  intro first result
  have begun : first.Sound commission := ⟨.flat,.of_success rfl⟩
  obtain ⟨left,reached,ended⟩ : ∃ left, first.Reaches commission ⟨result,[],left⟩ ∧
      (result.failure = none → left = []) :=
    Moment.reaches_performAll [] [event] ⟨session,edition,none⟩ [] rfl
  refine ⟨⟨⟨result,[],left⟩,reached,?_,rfl⟩,?_,(begun.reached reached).grounded⟩
  · cases fine : result.failure with
    | none => simp [Moment.next?, fine, show left = [] from ended fine]
    | some failure => simp [Moment.next?, fine]
  · intro moment here
    have nested := (begun.reached here).nested
    have known : ∀ name ∈ moment.path, name ∈ commission.sequences.keys := nested.names_known
    exact ⟨nested.names_nodup,known,(nested.names_nodup.subperm known).length_le⟩

end Scriptorium
