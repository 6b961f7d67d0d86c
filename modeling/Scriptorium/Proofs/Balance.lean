import Mathlib.Data.List.Infix
import Scriptorium.Proofs.Runs
import Scriptorium.Proofs.Steps

/-! Balanced documents are rendered. Each event opens a row, closes one, or leaves the rows as
many as they were; a list of events that closes what it opens therefore ends where it began, also
when the sequences grafted on the way do so, and nothing else can fail. -/
namespace Scriptorium

namespace Event

def opensRow (profile : Profile) (event : Event) : Bool :=
  event.kind == .blockStart ||
    (event.kind == .scope && event.opensScope && (Rule.select? profile event).any Rule.wraps)

def closesRow (profile : Profile) (event : Event) : Bool :=
  (event.kind == .blockEnd && (Rule.select? profile event).isSome) ||
    (event.kind == .scope && !event.opensScope && (Rule.select? profile event).any Rule.wraps)

/-- Neither the start of a document nor the end of its main sequence. -/
def IsInner (event : Event) : Prop :=
  event.kind ≠ .documentStart ∧ ¬(event.kind = .sequenceEnd ∧ event.sequence = .main)

instance (event : Event) : Decidable event.IsInner :=
  inferInstanceAs (Decidable (_ ∧ _))

theorem opensRow_of_select {profile : Profile} {event : Event} {rule : Rule}
    (selected : Rule.select? profile event = some rule) :
    event.opensRow profile = (rule == .startBlock || (rule.wraps && event.opensScope)) := by
  have kind := Rule.kind_of_select selected
  cases rule <;> simp [opensRow, selected, kind, Rule.kind, Rule.wraps] <;> rfl

theorem closesRow_of_select {profile : Profile} {event : Event} {rule : Rule}
    (selected : Rule.select? profile event = some rule) :
    event.closesRow profile = (rule.kind == .blockEnd || (rule.wraps && !event.opensScope)) := by
  have kind := Rule.kind_of_select selected
  cases rule <;> simp [closesRow, selected, kind, Rule.kind, Rule.wraps]

theorem opensRow_of_unselected {profile : Profile} {event : Event}
    (unselected : Rule.select? profile event = none) : event.opensRow profile = false := by
  have notBlock : event.kind ≠ .blockStart := by
    intro block
    simp [Rule.select?, block, Rule.forKind, Rule.accepts] at unselected
  simp [opensRow, unselected, notBlock]

theorem closesRow_of_unselected {profile : Profile} {event : Event}
    (unselected : Rule.select? profile event = none) : event.closesRow profile = false := by
  simp [closesRow, unselected]

theorem opensRow_of_closesRow {profile : Profile} {event : Event}
    (closes : event.closesRow profile = true) : event.opensRow profile = false := by
  cases selected : Rule.select? profile event with
  | none => exact opensRow_of_unselected selected
  | some rule =>
    rw [closesRow_of_select selected] at closes
    rw [opensRow_of_select selected]
    cases rule <;> simp_all [Rule.kind, Rule.wraps]

/-- The blocks that a profile closes are those of the sequences that it has a rule for. -/
theorem closesRow_blockEnd (profile : Profile) (sequence : SequenceKind) (scope : String) :
    (blockEnd sequence scope).closesRow profile = true ↔
      sequence ∈ [.title, .heading, .main, .introduction, .footnote] ∨
        (profile.xrefNotes = true ∧ sequence = .xref) := by
  have ruled : (blockEnd sequence scope).closesRow profile =
      (Rule.select? profile (blockEnd sequence scope)).isSome := by
    simp [closesRow, blockEnd]
  rw [ruled, Rule.select?, List.find?_isSome]
  cases sequence <;> simp [blockEnd, Rule.forKind, Rule.accepts]

end Event

/-- No row is closed before it is opened, and none stays open. -/
structure Balanced (profile : Profile) (events : List Event) : Prop where
  within : ∀ head, head <+: events →
    head.countP (Event.closesRow profile) ≤ head.countP (Event.opensRow profile)
  settled : events.countP (Event.closesRow profile) = events.countP (Event.opensRow profile)

instance (profile : Profile) (events : List Event) : Decidable (Balanced profile events) :=
  decidable_of_iff
    ((∀ head ∈ events.inits, head.countP (Event.closesRow profile) ≤
      head.countP (Event.opensRow profile)) ∧
      events.countP (Event.closesRow profile) = events.countP (Event.opensRow profile))
    ⟨fun ⟨within,settled⟩ =>
        ⟨fun head front => within head ((List.mem_inits head events).mpr front),settled⟩,
      fun ⟨within,settled⟩ =>
        ⟨fun head member => within head ((List.mem_inits head events).mp member),settled⟩⟩

namespace Draft

theorem closing_depth {draft : Draft} {next : String → Draft → Draft} (room : 1 < draft.rows.depth)
    (level : ∀ content rest, (next content rest).rows.depth = rest.rows.depth) :
    ∃ result, draft.closing next = .ok result ∧ result.rows.depth + 1 = draft.rows.depth := by
  cases popped : draft.rows.pop with
  | error failure =>
    have bottom := ((Rows.pop_eq_error_iff draft.rows failure).mp popped).1
    omega
  | ok row =>
    refine ⟨_,closing_of_pop popped next,?_⟩
    rw [level, (Rows.depth_of_pop popped).2]

theorem token_depth (draft : Draft) (mode : FrenchSpacing) (event : Event) :
    ∃ result, draft.token mode event = .ok result ∧ result.rows.depth = draft.rows.depth := by
  let level (other : Draft) : Prop := other.rows.depth = draft.rows.depth
  have kept : level draft := rfl
  obtain ⟨flushed,placed,same⟩ :=
    flushPending_keeps (fun _ _ _ same => same) (fun _ _ _ same => same) kept event
  exact ⟨_,token_of_flushed placed mode,same⟩

end Draft

/-- A run that goes on, with so many rows. -/
structure AtDepth (outcome : Outcome) (rows : Nat) : Prop where
  fine : outcome.failure = none
  started : outcome.session.started = true
  depth : outcome.session.draft.rows.depth = rows

theorem AtDepth.going {outcome : Outcome} {rows : Nat} (level : AtDepth outcome rows) :
    AtDepth ⟨outcome.session,outcome.edition,none⟩ rows :=
  ⟨rfl,level.started,level.depth⟩

theorem AtDepth.positive {outcome : Outcome} {rows : Nat} (level : AtDepth outcome rows) : 0 < rows := by
  rw [← level.depth]
  exact Nat.succ_pos _

namespace Session
variable {commission : Commission} {session : Session} {edition : Edition} {rows : Nat}

theorem edited_depth (started : session.started = true) {draft : Draft} (depth : draft.rows.depth = rows) :
    AtDepth (session.edited edition (.ok draft)) rows :=
  ⟨rfl,started,depth⟩

theorem closing_depth (started : session.started = true) (room : 1 < session.draft.rows.depth)
    {next : String → Draft → Draft}
    (level : ∀ content rest, (next content rest).rows.depth = rest.rows.depth) :
    AtDepth (session.edited edition (session.draft.closing next)) (session.draft.rows.depth - 1) := by
  obtain ⟨result,closed,depth⟩ := Draft.closing_depth room level
  rw [closed]
  exact edited_depth started (by omega)

theorem label_depth (started : session.started = true) (event : Event) (stem : String)
    {place : Draft → String → Draft} (level : ∀ draft label, (place draft label).rows = draft.rows) :
    AtDepth (session.label edition event stem place) session.draft.rows.depth := by
  unfold label
  split
  · exact edited_depth started (by rw [level])
  · exact edited_depth started rfl

theorem endWord_depth (complete : commission.settings.Complete) (started : session.started = true)
    (room : 1 < session.draft.rows.depth) :
    AtDepth (endWord commission session edition) (session.draft.rows.depth - 1) := by
  unfold endWord
  cases popped : session.draft.rows.pop with
  | error failure =>
    have bottom := ((Rows.pop_eq_error_iff _ failure).mp popped).1
    omega
  | ok row =>
    obtain ⟨content,rest⟩ := row
    have depth : rest.depth = session.draft.rows.depth - 1 := by
      have := (Rows.depth_of_pop popped).2
      omega
    obtain ⟨marker,found⟩ := complete.marker (session.draft.headword.getD content)
    simp only [found]
    cases marker with
    | none => exact ⟨rfl,started,depth⟩
    | some marker => exact ⟨rfl,started,depth⟩

theorem wrapped_depth {event : Event} {outcome : Outcome}
    (room : (!event.opensScope) = true → 1 < rows)
    (opens : event.opensScope = true → AtDepth outcome (rows + 1))
    (closes : event.opensScope = false → 1 < rows → AtDepth outcome (rows - 1)) :
    ∃ after, AtDepth outcome after ∧
      after + (if !event.opensScope then 1 else 0) = rows + (if event.opensScope then 1 else 0) := by
  cases starts : event.opensScope with
  | true => exact ⟨_,opens starts,rfl⟩
  | false =>
    have wide := room (by simp [starts])
    exact ⟨_,closes starts wide,Nat.sub_add_cancel (Nat.le_of_lt wide)⟩

/-- One inner event moves the level by the row that it opens or closes. -/
theorem take_depth (complete : commission.settings.Complete) {event : Event} (inner : event.IsInner)
    (level : AtDepth ⟨session,edition,none⟩ rows)
    (room : event.closesRow commission.profile = true → 1 < rows) :
    ∃ after, AtDepth (take commission event session edition) after ∧
      after + (if event.closesRow commission.profile then 1 else 0) =
        rows + (if event.opensRow commission.profile then 1 else 0) := by
  obtain ⟨_,started,rfl⟩ := level
  change session.started = true at started
  cases selected : Rule.select? commission.profile event with
  | none =>
    rw [take_of_unselected started selected, Event.opensRow_of_unselected selected,
      Event.closesRow_of_unselected selected]
    exact ⟨_,⟨rfl,started,rfl⟩,rfl⟩
  | some rule =>
    have kind := Rule.kind_of_select selected
    have accepted := Rule.accepts_of_select selected
    rw [take_of_select started selected, Event.opensRow_of_select selected]
    rw [Event.closesRow_of_select selected] at room ⊢
    cases rule with
    | startDocument => exact absurd kind inner.1
    | composeDocument => exact absurd ⟨kind,by simpa [Rule.accepts] using accepted⟩ inner.2
    | startBlock => exact ⟨_,edited_depth started rfl,rfl⟩
    | endTitleBlock =>
      refine ⟨session.draft.rows.depth - 1,?_,Nat.sub_add_cancel (Nat.le_of_lt (room rfl))⟩
      simp only [follow, Draft.closeTitle]
      exact closing_depth started (room rfl) fun _ _ => rfl
    | endHeadingBlock =>
      refine ⟨session.draft.rows.depth - 1,?_,Nat.sub_add_cancel (Nat.le_of_lt (room rfl))⟩
      simp only [follow, Draft.closeHeading]
      exact closing_depth started (room rfl) fun _ _ => rfl
    | endNoteBlock | endParagraphBlock =>
      refine ⟨session.draft.rows.depth - 1,?_,Nat.sub_add_cancel (Nat.le_of_lt (room rfl))⟩
      exact closing_depth started (room rfl) fun _ _ => rfl
    | chapter | pubChapter | altChapter | verses | pubVerse =>
      refine ⟨session.draft.rows.depth,?_,rfl⟩
      simp only [follow]
      apply label_depth started event
      exact fun _ _ => rfl
    | characterSpan =>
      refine wrapped_depth room (fun opens => ?_) fun closes wide => ?_
      · simp only [follow, Draft.characterSpan, opens, if_true]
        exact edited_depth started rfl
      · simp only [follow, Draft.characterSpan, closes, Bool.false_eq_true, if_false]
        exact closing_depth started wide (by intros; rfl)
    | tableCell =>
      refine wrapped_depth room (fun opens => ?_) fun closes wide => ?_
      · simp only [follow, Draft.tableCell, opens, if_true]
        exact edited_depth started rfl
      · simp only [follow, Draft.tableCell, closes, Bool.false_eq_true, if_false]
        exact closing_depth started wide (by intros; rfl)
    | glossaryWord =>
      refine wrapped_depth room (fun opens => ?_) fun closes wide => ?_
      · simp only [follow, opens, if_true]
        exact edited_depth started rfl
      · simp only [follow, closes, Bool.false_eq_true, if_false]
        exact endWord_depth complete started wide
    | unhandledSpan =>
      refine ⟨session.draft.rows.depth,?_,rfl⟩
      simp only [follow, unhandledSpan]
      split <;> exact ⟨rfl,started,rfl⟩
    | token =>
      obtain ⟨result,placed,depth⟩ :=
        session.draft.token_depth commission.settings.layout.frenchSpacing event
      refine ⟨session.draft.rows.depth,?_,rfl⟩
      simp only [follow, placed]
      exact edited_depth started depth
    | followBlockGraft => exact ⟨_,⟨rfl,started,rfl⟩,rfl⟩
    | glossaryLemma | noteGraft | separateIntroduction => exact ⟨_,edited_depth started rfl,rfl⟩

theorem closing_keeps_depth {outcome : Outcome} (level : AtDepth outcome rows) (graft : Graft) :
    AtDepth (graft.closing.foldl (step commission) outcome) rows := by
  cases graft with
  | block target => exact level
  | note target =>
    simp only [Graft.closing, List.foldl_cons, List.foldl_nil, step_of_success level.fine]
    exact ⟨rfl,level.started,level.depth⟩

end Session

/-- Events that a document may hold between its start and its end, or in a sequence. -/
structure Replayable (profile : Profile) (sequences : Index String (List Event))
    (events : List Event) : Prop where
  inner : ∀ event ∈ events, event.IsInner
  balanced : Balanced profile events
  present : ∀ event ∈ events, ∀ graft, Graft.ofEvent? profile event = some graft →
    ∃ inner, sequences.find? graft.target = some inner

instance (profile : Profile) (sequences : Index String (List Event)) (events : List Event) :
    Decidable (Replayable profile sequences events) :=
  decidable_of_iff
    ((∀ event ∈ events, event.IsInner) ∧ Balanced profile events ∧
      ∀ event ∈ events, ∀ graft ∈ Graft.ofEvent? profile event, (sequences.find? graft.target).isSome)
    ⟨fun ⟨inner,balanced,present⟩ => ⟨inner,balanced,fun event member graft made =>
        Option.isSome_iff_exists.mp (present event member graft made)⟩,
      fun replayable => ⟨replayable.inner,replayable.balanced,fun event member graft made =>
        Option.isSome_iff_exists.mpr (replayable.present event member graft made)⟩⟩

namespace Session

/-- A step that begins a list keeps room for what the rest of the list closes. -/
theorem step_depth {commission : Commission} (complete : commission.settings.Complete)
    {path : List String} {event : Event} {rest : List Event} (inner : event.IsInner) {outcome : Outcome}
    {rows spare : Nat} (level : AtDepth outcome rows) (room : spare < rows)
    (within : ∀ head, head <+: event :: rest → head.countP (Event.closesRow commission.profile) ≤
      head.countP (Event.opensRow commission.profile) + spare) :
    ∃ middle, AtDepth (step commission outcome (.take path event)) middle ∧
      middle + (if event.closesRow commission.profile then 1 else 0) =
        rows + (if event.opensRow commission.profile then 1 else 0) ∧
      ∀ head, head <+: rest → head.countP (Event.closesRow commission.profile) ≤
        head.countP (Event.opensRow commission.profile) + (middle - 1) := by
  have first := within [event] (by simp)
  simp only [List.countP_cons, List.countP_nil, Nat.zero_add] at first
  have above : event.closesRow commission.profile = true → 1 < rows := by
    intro closes
    simp only [closes, Event.opensRow_of_closesRow closes, if_true, Bool.false_eq_true, if_false] at first
    omega
  obtain ⟨middle,taken,moved⟩ := take_depth complete inner level.going above
  refine ⟨middle,?_,moved,?_⟩
  · rw [step_of_success level.fine]
    exact taken
  · intro head front
    have whole := within (event :: head) (by simpa using front)
    simp only [List.countP_cons] at whole
    omega

/-- A list of inner events that never closes more than `spare` rows that it has not opened goes
through wherever so many rows are open above the root. -/
theorem run_depth {commission : Commission} (complete : commission.settings.Complete)
    (sound : ∀ name events, commission.sequences.find? name = some events →
      Replayable commission.profile commission.sequences events)
    {path : List String} {events : List Event} {acts : List Act}
    (unfolded : Graft.Unfolds commission.profile commission.sequences path events acts)
    (inner : ∀ event ∈ events, event.IsInner)
    {outcome : Outcome} {rows spare : Nat} (level : AtDepth outcome rows) (room : spare < rows)
    (within : ∀ head, head <+: events → head.countP (Event.closesRow commission.profile) ≤
      head.countP (Event.opensRow commission.profile) + spare) :
    ∃ after, AtDepth (acts.foldl (step commission) outcome) after ∧
      after + events.countP (Event.closesRow commission.profile) =
        rows + events.countP (Event.opensRow commission.profile) := by
  induction unfolded generalizing outcome rows spare with
  | nil => exact ⟨rows,level,rfl⟩
  | plain ungrafted others ih =>
    obtain ⟨middle,taken,moved,later⟩ := step_depth complete (inner _ (by simp)) level room within
    have deep := taken.positive
    obtain ⟨after,landed,even⟩ := ih (fun e member => inner e (List.mem_cons_of_mem _ member)) taken
      (by omega) later
    refine ⟨after,landed,?_⟩
    simp only [List.countP_cons]
    omega
  | @grafted path event rest graft grafted replay acts made found inside others deeper ih =>
    obtain ⟨middle,taken,moved,later⟩ := step_depth complete (inner event (by simp)) level room within
    have deep := taken.positive
    have replayed := sound graft.target grafted found
    have even := replayed.balanced.settled
    obtain ⟨back,returned,same⟩ := deeper replayed.inner taken deep
      (by simpa using replayed.balanced.within)
    have unmoved : back = middle := by omega
    subst unmoved
    obtain ⟨after,landed,settled⟩ := ih (fun e member => inner e (List.mem_cons_of_mem _ member))
      (closing_keeps_depth returned graft) (by omega) later
    refine ⟨after,?_,?_⟩
    · rw [List.foldl_cons, List.foldl_append, List.foldl_append]
      exact landed
    · simp only [List.countP_cons]
      omega

theorem start_depth {commission : Commission} {event : Event} (starts : event.kind = .documentStart)
    (session : Session) (edition : Edition) : AtDepth (take commission event session edition) 1 := by
  rw [take_start starts]
  exact ⟨rfl,rfl,rfl⟩

theorem compose_at_root (commission : Commission) {event : Event} (ends : event.kind = .sequenceEnd)
    (main : event.sequence = .main) {session : Session} {edition : Edition}
    (level : AtDepth ⟨session,edition,none⟩ 1) :
    (take commission event session edition).failure = none ∧
      (take commission event session edition).session.output = some (page commission session.draft) := by
  have selected := Rule.select_end commission.profile ends main
  have closed : session.draft.rows.depth = 1 := level.depth
  rw [take_of_select level.started selected]
  simp [follow, compose, closed]

end Session

namespace Document

/-- The main list is a start, a body and the end of the main sequence; what stands between and in
the sequences is balanced and only grafts what is there; no sequence leads back to itself. -/
structure WellFormed (profile : Profile) (document : Document) : Prop where
  framed : ∃ start body finish, document.events = start :: (body ++ [finish]) ∧
    start.kind = .documentStart ∧ finish.kind = .sequenceEnd ∧ finish.sequence = .main ∧
    Replayable profile document.sequences body
  sequences : ∀ name events, document.sequences.find? name = some events →
    Replayable profile document.sequences events
  acyclic : ∀ name, ¬Relation.TransGen (Graft.Leads profile document.sequences) name name

theorem acts_framed {document : Document} {profile : Profile} {start finish : Event} {body : List Event}
    (events : document.events = start :: (body ++ [finish])) (starts : start.kind = .documentStart)
    (ends : finish.kind = .sequenceEnd) :
    document.acts profile =
      .take [] start :: (Graft.unfold profile document.sequences [] body ++ [.take [] finish]) := by
  have first : Graft.ofEvent? profile start = none :=
    Graft.ofEvent?_eq_none (by simp [starts]) (by simp [starts])
  have last : Graft.ofEvent? profile finish = none :=
    Graft.ofEvent?_eq_none (by simp [ends]) (by simp [ends])
  rw [acts, events, Graft.unfold_cons, Graft.after_of_none first, Graft.unfold_append,
    Graft.unfold_cons, Graft.after_of_none last]
  simp

theorem outcome_framed {document : Document} (profile : Profile) (settings : Settings)
    (edition : Edition) {start finish : Event} {body : List Event}
    (events : document.events = start :: (body ++ [finish])) (starts : start.kind = .documentStart)
    (ends : finish.kind = .sequenceEnd) :
    document.outcome profile settings edition =
      Session.step (document.commission profile settings)
        ((Graft.unfold profile document.sequences [] body).foldl
          (Session.step (document.commission profile settings))
          (Session.take (document.commission profile settings) start {} edition))
        (.take [] finish) := by
  rw [outcome, Session.run, acts_framed events starts ends, List.foldl_cons, List.foldl_append,
    List.foldl_cons, List.foldl_nil]
  rfl

theorem renders_of_wellFormed {document : Document} {profile : Profile} {settings : Settings}
    (complete : settings.Complete) (formed : document.WellFormed profile) (edition : Edition) :
    ∃ page, (document.renderAs profile settings edition).result = .ok page := by
  obtain ⟨start,body,finish,events,starts,ends,main,replayed⟩ := formed.framed
  let commission := document.commission profile settings
  have begun : AtDepth (Session.take commission start {} edition) 1 :=
    Session.start_depth starts {} edition
  have whole : commission.settings.Complete := complete
  have unfolded : Graft.Unfolds commission.profile commission.sequences [] body _ :=
    Graft.unfolds_of_acyclic formed.acyclic
      (fun name events found => (formed.sequences name events found).present) [] body
      replayed.present (by simp [Graft.Ahead])
  obtain ⟨rows,level,even⟩ := Session.run_depth whole formed.sequences unfolded replayed.inner begun
    Nat.zero_lt_one replayed.balanced.within
  have settled : body.countP (Event.closesRow commission.profile) =
      body.countP (Event.opensRow commission.profile) := replayed.balanced.settled
  have root : rows = 1 := by omega
  subst root
  obtain ⟨fine,composed⟩ := Session.compose_at_root commission ends main level.going
  have last := (outcome_framed profile settings edition events starts ends).trans
    (Session.step_of_success level.fine _)
  have finished := (congrArg Outcome.failure last).trans fine
  have kept := (congrArg (fun outcome => outcome.session.output) last).trans composed
  exact ⟨_,result_eq_ok_iff.mpr ⟨finished,kept⟩⟩

/-- A styled word with a note, in which another note is referred to. -/
def annotated : Document where
  headers := ⟨"MRK",none,none,none,none,none⟩
  events := [.documentStart, .blockStart .main "blockTag/p", .scopeStart .main "span/em",
    .word .main "verily", .inlineGraft .main "footnote" "note", .scopeEnd .main "span/em",
    .blockEnd .main "blockTag/p", .sequenceEnd .main]
  sequences := .ofList [
    ("note", [.blockStart .footnote "blockTag/f", .word .footnote "or: truly",
      .inlineGraft .footnote "xref" "reference", .blockEnd .footnote "blockTag/f"]),
    ("reference", [.word .xref "compare"])]

theorem annotated_wellFormed : annotated.WellFormed .canonical where
  framed := ⟨.documentStart,[.blockStart .main "blockTag/p", .scopeStart .main "span/em",
      .word .main "verily", .inlineGraft .main "footnote" "note", .scopeEnd .main "span/em",
      .blockEnd .main "blockTag/p"],.sequenceEnd .main,rfl,rfl,rfl,rfl,by decide +kernel⟩
  sequences name events found := by
    have each : ∀ entry ∈ annotated.sequences.entries,
        Replayable .canonical annotated.sequences entry.2 := by decide +kernel
    exact each _ (Index.mem_of_find? found)
  acyclic := by
    refine Graft.acyclic_of_rank (fun name => if name = "note" then 1 else 0) ?_
    decide +kernel

theorem renders_annotated : ∃ page, (annotated.renderAs .canonical {} {}).result = .ok page :=
  renders_of_wellFormed (fun _ _ found => by cases found) annotated_wellFormed {}

end Document
end Scriptorium
