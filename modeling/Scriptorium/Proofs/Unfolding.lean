import Mathlib.Logic.Relation
import Scriptorium.Graft

/-! The unfolding of grafts, event by event. What an event brings with it is named, so that
every run is read along one induction: over the events, and within an event over the events of
the sequence that it grafts. -/
namespace Scriptorium.Graft
variable {profile : Profile} {sequences : Index String (List Event)}

/-- The acts that come after an event is taken and before the next event. -/
def after (profile : Profile) (sequences : Index String (List Event)) (path : List String)
    (event : Event) : List Act :=
  match ofEvent? profile event with
  | none => []
  | some graft =>
    if graft.target ∈ path then [.refuse (.recursiveSequence graft.target)]
    else match sequences.find? graft.target with
      | none => [.refuse (.unknownSequence graft.target)]
      | some events => unfold profile sequences (path ++ [graft.target]) events ++ graft.closing

@[simp] theorem unfold_nil (path : List String) : unfold profile sequences path [] = [] := by
  rw [unfold]

theorem unfold_cons (path : List String) (event : Event) (rest : List Event) :
    unfold profile sequences path (event :: rest) =
      .take path event :: (after profile sequences path event ++ unfold profile sequences path rest) := by
  rw [unfold, after]
  cases ofEvent? profile event with
  | none => rfl
  | some graft =>
    by_cases inside : graft.target ∈ path
    · simp [inside]
    · simp only [dif_neg inside, if_neg inside]
      cases sequences.find? graft.target <;> simp

theorem after_of_none {path : List String} {event : Event} (plain : ofEvent? profile event = none) :
    after profile sequences path event = [] := by
  simp [after, plain]

theorem after_of_found {path : List String} {event : Event} {graft : Graft} {events : List Event}
    (made : ofEvent? profile event = some graft) (fresh : graft.target ∉ path)
    (found : sequences.find? graft.target = some events) :
    after profile sequences path event =
      unfold profile sequences (path ++ [graft.target]) events ++ graft.closing := by
  simp [after, made, fresh, found]

theorem after_of_cycle {path : List String} {event : Event} {graft : Graft}
    (made : ofEvent? profile event = some graft) (inside : graft.target ∈ path) :
    after profile sequences path event = [.refuse (.recursiveSequence graft.target)] := by
  simp [after, made, inside]

theorem after_of_missing {path : List String} {event : Event} {graft : Graft}
    (made : ofEvent? profile event = some graft) (fresh : graft.target ∉ path)
    (missing : sequences.find? graft.target = none) :
    after profile sequences path event = [.refuse (.unknownSequence graft.target)] := by
  simp [after, made, fresh, missing]

theorem after_cases (profile : Profile) (sequences : Index String (List Event))
    (path : List String) (event : Event) :
    (ofEvent? profile event = none ∧ after profile sequences path event = []) ∨
    (∃ failure, after profile sequences path event = [.refuse failure]) ∨
    (∃ graft events, ofEvent? profile event = some graft ∧ graft.target ∉ path ∧
      sequences.find? graft.target = some events ∧
      after profile sequences path event =
        unfold profile sequences (path ++ [graft.target]) events ++ graft.closing) := by
  cases made : ofEvent? profile event with
  | none => exact .inl ⟨rfl,after_of_none made⟩
  | some graft =>
    refine .inr ?_
    by_cases inside : graft.target ∈ path
    · exact .inl ⟨_,after_of_cycle made inside⟩
    · cases found : sequences.find? graft.target with
      | none => exact .inl ⟨_,after_of_missing made inside found⟩
      | some events => exact .inr ⟨graft,events,rfl,inside,found,after_of_found made inside found⟩

theorem unfold_induction (profile : Profile) (sequences : Index String (List Event))
    {motive : List String → List Event → Prop}
    (nil : ∀ path, motive path [])
    (cons : ∀ path event rest, motive path rest →
      (∀ graft events, ofEvent? profile event = some graft → graft.target ∉ path →
        sequences.find? graft.target = some events → motive (path ++ [graft.target]) events) →
      motive path (event :: rest))
    (path : List String) (events : List Event) : motive path events := by
  match events with
  | [] => exact nil path
  | event :: rest =>
    refine cons path event rest (unfold_induction profile sequences nil cons path rest) ?_
    intro graft inner _ fresh found
    exact unfold_induction profile sequences nil cons (path ++ [graft.target]) inner
termination_by ((idle sequences path).length, events.length)
decreasing_by
  · exact .right _ (by simp)
  · exact .left _ _ (idle_shrinks found fresh)

/-- The events that replaying a list comes upon: those of the list, and those of the sequences
that are grafted on the way. -/
inductive Reaches (profile : Profile) (sequences : Index String (List Event)) :
    List Event → Event → Prop
  | here {events event} (member : event ∈ events) : Reaches profile sequences events event
  | within {events event graft inner last} (member : event ∈ events)
      (made : ofEvent? profile event = some graft)
      (found : sequences.find? graft.target = some inner)
      (inside : Reaches profile sequences inner last) : Reaches profile sequences events last

theorem mem_of_reaches {events : List Event} {event : Event}
    (reached : Reaches profile sequences events event) :
    event ∈ events ∨ ∃ name inner, sequences.find? name = some inner ∧ event ∈ inner := by
  induction reached with
  | here member => exact .inl member
  | within _ _ found _ ih => exact .inr (ih.elim (fun member => ⟨_,_,found,member⟩) id)

theorem Reaches.mono {events more : List Event} {event : Event}
    (reached : Reaches profile sequences events event) (subset : ∀ e ∈ events, e ∈ more) :
    Reaches profile sequences more event := by
  cases reached with
  | here member => exact .here (subset _ member)
  | within member made found inside => exact .within (subset _ member) made found inside

theorem reaches_cons {event last : Event} {rest : List Event} :
    Reaches profile sequences (event :: rest) last ↔
      last = event ∨
      (∃ graft inner, ofEvent? profile event = some graft ∧
        sequences.find? graft.target = some inner ∧ Reaches profile sequences inner last) ∨
      Reaches profile sequences rest last := by
  constructor
  · intro reached
    cases reached with
    | here member =>
      rcases List.mem_cons.mp member with same | later
      · exact .inl same
      · exact .inr (.inr (.here later))
    | within member made found inside =>
      rcases List.mem_cons.mp member with rfl | later
      · exact .inr (.inl ⟨_,_,made,found,inside⟩)
      · exact .inr (.inr (.within later made found inside))
  · rintro (rfl | ⟨graft,inner,made,found,inside⟩ | reached)
    · exact .here (by simp)
    · exact .within (by simp) made found inside
    · exact reached.mono fun e member => List.mem_cons_of_mem _ member

theorem reaches_of_take_mem (path : List String) (events : List Event) {place : List String}
    {event : Event} (member : Act.take place event ∈ unfold profile sequences path events) :
    Reaches profile sequences events event := by
  induction path, events using unfold_induction profile sequences with
  | nil path => simp at member
  | cons path first rest ih within =>
    rw [unfold_cons, List.mem_cons, List.mem_append] at member
    refine reaches_cons.mpr ?_
    rcases member with same | grafted | later
    · exact .inl (Act.take.inj same).2
    · rcases after_cases profile sequences path first with
        ⟨_,nothing⟩ | ⟨failure,refused⟩ | ⟨graft,inner,made,fresh,found,same⟩
      · simp [nothing] at grafted
      · simp [refused] at grafted
      · rw [same, List.mem_append] at grafted
        rcases grafted with inside | ended
        · exact .inr (.inl ⟨graft,inner,made,found,within graft inner made fresh found inside⟩)
        · cases graft <;> simp [closing] at ended
    · exact .inr (.inr (ih later))

theorem unfold_append (path : List String) (first second : List Event) :
    unfold profile sequences path (first ++ second) =
      unfold profile sequences path first ++ unfold profile sequences path second := by
  induction first with
  | nil => simp
  | cons event rest ih => simp [unfold_cons, ih]

theorem unfold_of_ungrafted (path : List String) {events : List Event}
    (ungrafted : ∀ event ∈ events, ofEvent? profile event = none) :
    unfold profile sequences path events = events.map (.take path) := by
  induction events with
  | nil => exact unfold_nil path
  | cons event rest ih =>
    rw [unfold_cons, after_of_none (ungrafted event (by simp)),
      ih fun other member => ungrafted other (by simp [member])]
    rfl

theorem unfold_plain (profile : Profile) (sequences : Index String (List Event)) (event : Event)
    (plain : ofEvent? profile event = none) : unfold profile sequences [] [event] = [.take [] event] :=
  unfold_of_ungrafted [] (by simpa using plain)

/-- A note whose sequence grafts nothing. -/
theorem unfold_note {event : Event} {target : String} {inner : List Event}
    (made : ofEvent? profile event = some (.note target)) (found : sequences.find? target = some inner)
    (ungrafted : ∀ event ∈ inner, ofEvent? profile event = none) :
    unfold profile sequences [] [event] = .take [] event :: (inner.map (.take [target]) ++ [.closeNote]) := by
  have inside : unfold profile sequences ([] ++ [(Graft.note target).target]) inner = inner.map (.take [target]) :=
    unfold_of_ungrafted _ ungrafted
  rw [unfold_cons, after_of_found made (by simp) found, inside, unfold_nil, List.append_nil]
  rfl

/-- Events with the acts they unfold to, where every graft that a rule follows is replayed. -/
inductive Unfolds (profile : Profile) (sequences : Index String (List Event)) :
    List String → List Event → List Act → Prop
  | nil {path} : Unfolds profile sequences path [] []
  | plain {path event rest acts} (ungrafted : ofEvent? profile event = none)
      (others : Unfolds profile sequences path rest acts) :
      Unfolds profile sequences path (event :: rest) (.take path event :: acts)
  | grafted {path event rest graft inner within acts}
      (made : ofEvent? profile event = some graft)
      (found : sequences.find? graft.target = some inner)
      (inside : Unfolds profile sequences (path ++ [graft.target]) inner within)
      (others : Unfolds profile sequences path rest acts) :
      Unfolds profile sequences path (event :: rest)
        (.take path event :: (within ++ graft.closing ++ acts))

theorem unfolds_of_unrefused (path : List String) (events : List Event)
    (whole : ∀ failure, .refuse failure ∉ unfold profile sequences path events) :
    Unfolds profile sequences path events (unfold profile sequences path events) := by
  induction path, events using unfold_induction profile sequences with
  | nil path =>
    rw [unfold_nil]
    exact .nil
  | cons path event rest ih within =>
    rw [unfold_cons] at whole ⊢
    have others := ih fun failure member => whole failure (by simp [member])
    rcases after_cases profile sequences path event with
      ⟨ungrafted,same⟩ | ⟨failure,same⟩ | ⟨graft,inner,made,fresh,found,same⟩
    · rw [same]
      exact .plain ungrafted others
    · exact absurd (by simp [same]) (whole failure)
    · rw [same] at whole ⊢
      have inside := within graft inner made fresh found fun failure member =>
        whole failure (by simp [member])
      exact .grafted made found inside others

theorem Unfolds.take_mem_of_reaches {path : List String} {events : List Event} {acts : List Act}
    (unfolded : Unfolds profile sequences path events acts) {event : Event}
    (reached : Reaches profile sequences events event) : ∃ place, .take place event ∈ acts := by
  induction unfolded with
  | nil =>
    cases reached with
    | here member => cases member
    | within member => cases member
  | @plain path first rest acts ungrafted others ih =>
    rcases reaches_cons.mp reached with rfl | ⟨graft,inner,made,_⟩ | later
    · exact ⟨path,by simp⟩
    · rw [ungrafted] at made
      cases made
    · obtain ⟨place,member⟩ := ih later
      exact ⟨place,by simp [member]⟩
  | @grafted path first rest graft inner within acts made found inside others deeper ih =>
    rcases reaches_cons.mp reached with rfl | ⟨other,second,made',found',further⟩ | later
    · exact ⟨path,by simp⟩
    · rw [made] at made'
      cases made'
      rw [found] at found'
      cases found'
      obtain ⟨place,member⟩ := deeper further
      exact ⟨place,by simp [member]⟩
    · obtain ⟨place,member⟩ := ih later
      exact ⟨place,by simp [member]⟩

/-- One sequence leads to another by a graft that a rule follows. -/
def Leads (profile : Profile) (sequences : Index String (List Event)) (name target : String) : Prop :=
  ∃ events event graft, sequences.find? name = some events ∧ event ∈ events ∧
    ofEvent? profile event = some graft ∧ graft.target = target

theorem acyclic_of_rank (rank : String → Nat)
    (descends : ∀ entry ∈ sequences.entries, ∀ event ∈ entry.2, ∀ graft ∈ ofEvent? profile event,
      rank graft.target < rank entry.1) (name : String) :
    ¬Relation.TransGen (Leads profile sequences) name name := by
  have lower : ∀ first last, Relation.TransGen (Leads profile sequences) first last →
      rank last < rank first := by
    intro first last leads
    induction leads with
    | single step =>
      obtain ⟨events,event,graft,found,member,made,rfl⟩ := step
      exact descends _ (Index.mem_of_find? found) event member graft made
    | tail _ step ih =>
      obtain ⟨events,event,graft,found,member,made,rfl⟩ := step
      exact Nat.lt_trans (descends _ (Index.mem_of_find? found) event member graft made) ih
  exact fun cycle => Nat.lt_irrefl _ (lower name name cycle)

/-- Every sequence of the path leads, over one or more grafts, to all that the events graft. -/
def Ahead (profile : Profile) (sequences : Index String (List Event)) (path : List String)
    (events : List Event) : Prop :=
  ∀ name ∈ path, ∀ event ∈ events, ∀ graft, ofEvent? profile event = some graft →
    Relation.TransGen (Leads profile sequences) name graft.target

theorem Ahead.tail {path : List String} {event : Event} {rest : List Event}
    (ahead : Ahead profile sequences path (event :: rest)) : Ahead profile sequences path rest :=
  fun name known next member => ahead name known next (List.mem_cons_of_mem _ member)

theorem Ahead.within {path : List String} {events inner : List Event} {event : Event} {graft : Graft}
    (ahead : Ahead profile sequences path events) (member : event ∈ events)
    (made : ofEvent? profile event = some graft) (found : sequences.find? graft.target = some inner) :
    Ahead profile sequences (path ++ [graft.target]) inner := by
  intro name known next inside last made'
  have leads : Leads profile sequences graft.target last.target :=
    ⟨inner,next,last,found,inside,made',rfl⟩
  rcases List.mem_append.mp known with earlier | same
  · exact (ahead name earlier event member graft made).tail leads
  · rw [List.mem_singleton.mp same]
    exact .single leads

theorem Ahead.fresh {path : List String} {events : List Event} {event : Event} {graft : Graft}
    (ahead : Ahead profile sequences path events)
    (acyclic : ∀ name, ¬Relation.TransGen (Leads profile sequences) name name)
    (member : event ∈ events) (made : ofEvent? profile event = some graft) : graft.target ∉ path :=
  fun inside => acyclic _ (ahead graft.target inside event member graft made)

/-- Nothing is refused where every graft leads to a sequence and no sequence back to itself. -/
theorem unfolds_of_acyclic
    (acyclic : ∀ name, ¬Relation.TransGen (Leads profile sequences) name name)
    (closed : ∀ name inner, sequences.find? name = some inner → ∀ event ∈ inner, ∀ graft,
      ofEvent? profile event = some graft → ∃ grafted, sequences.find? graft.target = some grafted)
    (path : List String) (events : List Event)
    (present : ∀ event ∈ events, ∀ graft, ofEvent? profile event = some graft →
      ∃ grafted, sequences.find? graft.target = some grafted)
    (ahead : Ahead profile sequences path events) :
    Unfolds profile sequences path events (unfold profile sequences path events) := by
  induction path, events using unfold_induction profile sequences with
  | nil path =>
    rw [unfold_nil]
    exact .nil
  | cons path event rest ih within =>
    have others := ih (fun e member => present e (List.mem_cons_of_mem _ member)) ahead.tail
    rw [unfold_cons]
    cases made : ofEvent? profile event with
    | none =>
      rw [after_of_none made]
      exact .plain made others
    | some graft =>
      obtain ⟨inner,found⟩ := present event (by simp) graft made
      have fresh := ahead.fresh acyclic (by simp) made
      have inside := within graft inner made fresh found (closed _ inner found)
        (ahead.within (by simp) made found)
      rw [after_of_found made fresh found]
      exact .grafted made found inside others

end Scriptorium.Graft
