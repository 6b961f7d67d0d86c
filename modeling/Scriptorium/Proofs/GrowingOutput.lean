import Scriptorium.Proofs.Histories
import Scriptorium.Proofs.Respacing

/-! Output only grows. Until a document starts anew, what events do to a session adds to what is there:
the parts of the page go on from where they were, and of the rows only the top one is written to. The one
thing that is taken back is the space at the end of a row, once, before high punctuation in mode `change`.
The open number of the notes rises with each note that is closed, until its counter of 32 bits starts over. -/
namespace Scriptorium

/-- How a row of fragments goes on. New fragments come after those that are there; in mode `change` an
entity may also stand in the place of the space at the end of the last one. -/
inductive Continues (mode : FrenchSpacing) (row later : List String) : Prop
  | kept (front : row <+: later)
  | respaced (changes : mode = .change) (older : List String) (stem entity : String)
      (listed : entity ∈ ["&#8239;", "&#160;"]) (spaced : row = older ++ [stem ++ " "])
      (touched : older ++ [stem ++ entity] <+: later)

namespace Continues
variable {mode : FrenchSpacing} {row middle later : List String}

/-- No entity ends in a space that could be replaced again. -/
theorem entity_unspaced {entity : String} (listed : entity ∈ ["&#8239;", "&#160;"]) (stem other : String) :
    stem ++ entity ≠ other ++ " " := by
  intro same
  have last := congrArg (fun text : String => text.toList.getLast?) same
  simp only [List.mem_cons, List.not_mem_nil, or_false] at listed
  rcases listed with rfl | rfl <;> simp [String.toList_append, List.getLast?_append] at last

theorem trans (first : Continues mode row middle) (second : Continues mode middle later) :
    Continues mode row later := by
  cases first with
  | kept front =>
    cases second with
    | kept further => exact .kept (front.trans further)
    | respaced changes older stem entity listed spaced touched =>
      rw [spaced, List.prefix_concat_iff] at front
      rcases front with whole | front
      · exact .respaced changes older stem entity listed whole touched
      · exact .kept (front.trans ((List.prefix_append _ _).trans touched))
  | respaced changes older stem entity listed spaced touched =>
    refine .respaced changes older stem entity listed spaced ?_
    cases second with
    | kept further => exact touched.trans further
    | respaced _ others other _ _ again further =>
      rw [again, List.prefix_concat_iff] at touched
      rcases touched with whole | front
      -- a second space would have to stand where the entity is now
      · obtain ⟨_,same⟩ := List.append_inj' whole rfl
        exact absurd (List.singleton_inj.mp same) (entity_unspaced listed stem other)
      · exact front.trans ((List.prefix_append _ _).trans further)

theorem write (mode : FrenchSpacing) (row : Gathering String) (token : Spacing.Token) :
    Continues mode row.toList (Spacing.write mode row token).toList := by
  by_cases changes : mode = .change
  · rw [changes, Spacing.write_change, Gathering.toList_add]
    obtain ⟨newestFirst⟩ := row
    cases newestFirst with
    | nil => exact .kept (List.nil_prefix)
    | cons newest older =>
      have altered := Spacing.Altered.touch token newest
      have before : (Gathering.mk (newest :: older)).toList = older.reverse ++ [newest] := List.reverse_cons
      have after : ((Gathering.mk (newest :: older)).retouch (Spacing.touch token)).toList =
        older.reverse ++ [Spacing.touch token newest] := List.reverse_cons
      rw [before, after]
      generalize Spacing.touch token newest = touched at altered
      cases altered with
      | respaced stem follows demanded =>
        refine .respaced rfl older.reverse stem _ ?_ rfl (List.prefix_append _ _)
        cases demanded <;> simp
      | unspaced | plain => exact .kept (List.prefix_append _ _)
  · rw [Spacing.write_of_ne changes, Gathering.toList_add]
    exact .kept (List.prefix_append _ _)

end Continues

namespace Rows
variable {mode : FrenchSpacing} {rows middle later : Rows} {level : Nat}

/-- The rows as they lie on each other, with the root row at level zero. -/
def fromRoot (rows : Rows) : List (Gathering String) := rows.below.reverse ++ [rows.top]

@[simp] theorem length_fromRoot (rows : Rows) : rows.fromRoot.length = rows.depth := by
  simp [fromRoot, depth]

/-- The row at a level has gone on, and below it no row has changed. -/
structure Extends (mode : FrenchSpacing) (level : Nat) (rows later : Rows) : Prop where
  below : later.fromRoot.take level = rows.fromRoot.take level
  row : ∃ row next, rows.fromRoot[level]? = some row ∧ later.fromRoot[level]? = some next ∧
    Continues mode row.toList next.toList

theorem Extends.level_lt (extended : rows.Extends mode level later) : level < rows.depth := by
  obtain ⟨row,_,found,_⟩ := extended.row
  rw [← length_fromRoot]
  exact (List.getElem?_eq_some_iff.mp found).1

theorem Extends.of_take (same : later.fromRoot.take (level + 1) = rows.fromRoot.take (level + 1))
    (inside : level < rows.depth) : rows.Extends mode level later where
  below := by simpa [List.take_take] using congrArg (List.take level) same
  row := by
    have here := congrArg (fun front : List (Gathering String) => front[level]?) same
    simp only [List.getElem?_take_of_succ] at here
    rw [← length_fromRoot] at inside
    have found := List.getElem?_eq_getElem inside
    exact ⟨_,_,found,here.trans found,.kept List.prefix_rfl⟩

theorem Extends.trans (first : rows.Extends mode level middle) (second : middle.Extends mode level later) :
    rows.Extends mode level later where
  below := second.below.trans first.below
  row := by
    obtain ⟨row,next,before,between,one⟩ := first.row
    obtain ⟨_,last,also,after,two⟩ := second.row
    cases between.symm.trans also
    exact ⟨row,last,before,after,one.trans two⟩

/-- What one event does to the rows: a new one is opened, or the top one goes on, if need be after one
has been closed. -/
inductive Moves (mode : FrenchSpacing) (rows : Rows) : Rows → Prop
  | push : Moves mode rows rows.push
  | go {top : Gathering String} (on : Continues mode rows.top.toList top.toList) :
    Moves mode rows {rows with top := top}
  | pop {content : String} {rest : Rows} {top : Gathering String} (closed : rows.pop = .ok (content, rest))
      (on : Continues mode rest.top.toList top.toList) : Moves mode rows {rest with top := top}

theorem Moves.append (rows : Rows) (fragment : String) : rows.Moves mode (rows.append fragment) :=
  .go (.kept (by simp))

theorem extends_go {top : Gathering String} (on : Continues mode rows.top.toList top.toList)
    (inside : level < rows.depth) : rows.Extends mode level {rows with top := top} := by
  obtain ⟨old,below⟩ := rows
  rcases Nat.lt_or_eq_of_le (Nat.lt_succ_iff.mp inside) with lower | rfl
  · refine .of_take ?_ inside
    rw [← List.length_reverse] at lower
    simp only [fromRoot, List.take_append_of_le_length lower]
  · rw [← List.length_reverse]
    exact ⟨by simp [fromRoot],old,top,by simp [fromRoot],by simp [fromRoot],on⟩

theorem fromRoot_of_pop {content : String} {rest : Rows} (closed : rows.pop = .ok (content, rest)) :
    rows.fromRoot = rest.fromRoot ++ [rows.top] := by
  obtain ⟨top,below⟩ := rows
  cases below with
  | nil => cases closed
  | cons next below =>
    cases closed
    simp [fromRoot]

theorem Moves.extends (moved : rows.Moves mode later) (before : level < rows.depth)
    (after : level < later.depth) : rows.Extends mode level later := by
  cases moved with
  | push =>
    refine .of_take ?_ before
    rw [← length_fromRoot] at before
    simp only [fromRoot, Rows.push, List.reverse_cons]
    exact List.take_append_of_le_length before
  | go on => exact extends_go on before
  | @pop content rest top closed on =>
    have inside : level < rest.depth := after
    refine .trans (.of_take ?_ before) (extends_go on inside)
    rw [← length_fromRoot] at inside
    rw [fromRoot_of_pop closed, List.take_append_of_le_length inside]

end Rows

/-- What is added to a draft besides its rows. -/
structure Draft.Adds (draft later : Draft) : Prop where
  head : later.head = draft.head
  bodyHead : draft.bodyHead.toList <+: later.bodyHead.toList
  body : draft.body.toList <+: later.body.toList
  chapters : draft.chapters.toList <+: later.chapters.toList

structure Draft.Advances (mode : FrenchSpacing) (draft later : Draft) : Prop extends Draft.Adds draft later where
  rows : draft.rows.Moves mode later.rows

namespace Draft
variable {mode : FrenchSpacing} {draft middle later : Draft} {event : Event}

theorem Adds.refl (draft : Draft) : draft.Adds draft :=
  ⟨rfl,List.prefix_rfl,List.prefix_rfl,List.prefix_rfl⟩

theorem Adds.trans (first : draft.Adds middle) (second : middle.Adds later) : draft.Adds later where
  head := second.head.trans first.head
  bodyHead := first.bodyHead.trans second.bodyHead
  body := first.body.trans second.body
  chapters := first.chapters.trans second.chapters

theorem Adds.besides {rows : Rows} {chapter : ChapterTracker} {verses : VerseTracker}
    {headword : Option String} :
    draft.Adds {draft with rows := rows, chapter := chapter, verses := verses, headword := headword} :=
  ⟨rfl,List.prefix_rfl,List.prefix_rfl,List.prefix_rfl⟩

theorem Advances.closing {next : String → Draft → Draft}
    (adds : ∀ content rows, draft.Adds (next content {draft with rows := rows}))
    (on : ∀ content rows, ∃ top, (next content {draft with rows := rows}).rows = {rows with top := top} ∧
      rows.top.toList <+: top.toList)
    (closed : draft.closing next = .ok later) : draft.Advances mode later := by
  obtain ⟨content,rows,popped,rfl⟩ := closing_eq_ok closed
  obtain ⟨top,same,front⟩ := on content rows
  refine ⟨adds content rows,?_⟩
  rw [same]
  exact .pop popped (.kept front)

theorem Advances.closeSpan {spanClass : String} (closed : draft.closeSpan spanClass = .ok later) :
    draft.Advances mode later :=
  .closing (fun _ _ => .besides) (fun _ _ => ⟨_,rfl,by simp⟩) closed

theorem flushPending_adds (draft : Draft) (event : Event) : ∃ flushed,
    draft.flushPending event = .ok flushed ∧ draft.Adds flushed ∧
      ∃ top, flushed.rows = {draft.rows with top := top} ∧ draft.rows.top.toList <+: top.toList := by
  refine flushPending_keeps ?_ ?_ ⟨.refl draft,_,rfl,List.prefix_rfl⟩ event
  · rintro middle pending _ ⟨adds,top⟩
    exact ⟨adds.trans ⟨rfl,List.prefix_rfl,by simp,by simp⟩,top⟩
  · rintro middle label _ ⟨adds,top,same,front⟩
    refine ⟨adds.trans .besides,top.add (VerseTracker.marker label),?_,front.trans (by simp)⟩
    simp [append, Rows.append, same]

theorem Advances.token (placed : draft.token mode event = .ok later) : draft.Advances mode later := by
  obtain ⟨flushed,ready,adds,top,same,front⟩ := flushPending_adds draft event
  rw [token_writes ready, same] at placed
  cases placed
  exact ⟨adds.trans .besides,.go (.trans (.kept front) (.write mode top _))⟩

end Draft

namespace Session
variable {commission : Commission} {event : Event} {session : Session} {edition : Edition}
  {mode : FrenchSpacing}

end Session

/-- What a history of events has made of a draft. A row has stayed open if each event found it open
and it is open now. -/
structure Draft.Accrues (mode : FrenchSpacing) (told : List Entry) (draft later : Draft) : Prop extends
    Draft.Adds draft later where
  rows : ∀ level, (∀ entry ∈ told, level < entry.session.draft.rows.depth) → level < later.rows.depth →
    draft.rows.Extends mode level later.rows

namespace Draft.Accrues
variable {mode : FrenchSpacing} {told more : List Entry} {draft middle later : Draft}

theorem single (entry : Entry) (advances : entry.session.draft.Advances mode later) :
    entry.session.draft.Accrues mode [entry] later :=
  ⟨advances.toAdds,fun _ open' inside => advances.rows.extends (open' entry (by simp)) inside⟩

theorem trans (first : draft.Accrues mode told middle) (second : middle.Accrues mode more later) :
    draft.Accrues mode (told ++ more) later := by
  refine ⟨first.toAdds.trans second.toAdds,fun level stayed inside => ?_⟩
  -- that the row was open in between is told by what has become of it since
  have further := second.rows level (fun entry member => stayed entry (by simp [member])) inside
  exact (first.rows level (fun entry member => stayed entry (by simp [member])) further.level_lt).trans further

end Draft.Accrues

namespace Session
variable {commission : Commission} {outcome : Outcome}

/-- Notes that have nothing in them. -/
def silent : Commission where
  profile := .canonical
  headers := ⟨"MRK",none,none,none,none,none⟩
  sequences := .ofList [("note", [])]

/-- A page with spacing as in French, whose notes are all missing. -/
def noteless : Commission where
  profile := .canonical
  settings := ({} : Settings).withFrenchSpacing .change
  headers := ⟨"MRK",none,none,none,none,none⟩

end Session
end Scriptorium
