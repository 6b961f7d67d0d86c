import Mathlib.Data.List.Sort
import Scriptorium.Proofs.Steps

/-! What documents share is only added to. No step reads the edition, so that a run leaves the same
session on every edition and adds to each what it adds to an empty one; and all that it adds is kept
under the book of its document. -/
namespace Scriptorium

namespace Index
variable {κ α : Type} [LE κ] [LT κ] [DecidableLT κ] [Std.IsLinearOrder κ] [Std.LawfulOrderLT κ]

theorem ext_find? {one other : Index κ α} (same : ∀ key, one.find? key = other.find? key) :
    one = other := by
  apply eq_of_entries
  have antisymmetric : Std.Antisymm (fun first second : κ × α => first.1 < second.1) :=
    ⟨fun _ _ below above => absurd (Std.lt_trans below above) Std.lt_irrefl⟩
  have irreflexive : Std.Irrefl (fun first second : κ × α => first.1 < second.1) :=
    ⟨fun _ => Std.lt_irrefl⟩
  refine one.ascending.eq_of_mem_iff other.ascending fun entry => ?_
  constructor <;> intro member
  · exact mem_of_find? ((same entry.1).symm.trans (find?_of_mem member))
  · exact mem_of_find? ((same entry.1).trans (find?_of_mem member))

theorem find?_insert [DecidableEq κ] (index : Index κ α) (key other : κ) (value : α) :
    (index.insert key value).find? other = if other = key then some value else index.find? other := by
  split
  next same => rw [same, find?_insert_self]
  next different => exact find?_insert_of_ne index different value

theorem find?_merge [DecidableEq κ] (earlier later : Index κ α) (key : κ) :
    (earlier.merge later).find? key = (later.find? key).or (earlier.find? key) := by
  obtain ⟨entries,ascending⟩ := later
  change (entries.foldl (fun index entry => index.insert entry.1 entry.2) earlier).find? key =
    (lookup key entries).or (earlier.find? key)
  induction entries generalizing earlier with
  | nil => rfl
  | cons head rest ih =>
    obtain ⟨above,tail⟩ := List.pairwise_cons.mp ascending
    rw [List.foldl_cons, ih (earlier.insert head.1 head.2) tail, find?_insert]
    have absent (low : ¬head.1 < key) : lookup key rest = none := by
      cases found : lookup key rest with
      | none => rfl
      | some value =>
        have entered : (⟨rest,tail⟩ : Index κ α).find? key = some value := found
        have member : (key, value) ∈ rest := mem_of_find? entered
        exact absurd (above _ member) low
    by_cases same : key = head.1
    · subst same
      have irreflexive : ¬head.1 < head.1 := Std.lt_irrefl
      simp [lookup, irreflexive, absent irreflexive]
    · by_cases low : key < head.1
      · have high : ¬head.1 < key := fun high => Std.lt_irrefl (Std.lt_trans low high)
        simp [lookup, low, same, absent high]
      · have high : head.1 < key := by
          by_contra notHigh
          exact same (eq_of_not_lt low notHigh)
        simp [lookup, low, high, same]

theorem merge_insert [DecidableEq κ] (earlier later : Index κ α) (key : κ) (value : α) :
    earlier.merge (later.insert key value) = (earlier.merge later).insert key value := by
  refine ext_find? fun other => ?_
  rw [find?_merge, find?_insert, find?_insert, find?_merge]
  split <;> rfl

end Index

def Gathering.append {α : Type} (earlier later : Gathering α) : Gathering α :=
  ⟨later.newestFirst ++ earlier.newestFirst⟩

@[simp] theorem Gathering.toList_append {α : Type} (earlier later : Gathering α) :
    (earlier.append later).toList = earlier.toList ++ later.toList := by
  simp [Gathering.append, Gathering.toList]

namespace Edition

/-- All that one edition holds, and then all that another does. -/
def extend (earlier later : Edition) : Edition where
  titles := earlier.titles.merge later.titles
  log := earlier.log.append later.log
  pages := earlier.pages.merge later.pages
  journal := earlier.journal.append later.journal

@[simp] theorem extend_empty (edition : Edition) : edition.extend {} = edition := rfl

theorem extend_report (earlier later : Edition) (level : Level) (message : String) :
    earlier.extend (later.report level message) = (earlier.extend later).report level message := rfl

theorem extend_warn (earlier later : Edition) (message document : String) :
    earlier.extend (later.warn message document) = (earlier.extend later).warn message document := rfl

theorem extend_recordTitles (earlier later : Edition) (book : String) (titles : Titles) :
    earlier.extend (later.recordTitles book titles) = (earlier.extend later).recordTitles book titles :=
  congrArg (fun titles : Index String Titles => ({earlier.extend later with titles := titles} : Edition))
    (Index.merge_insert earlier.titles later.titles book titles)

theorem extend_store (earlier later : Edition) (key markup : String) :
    earlier.extend (later.store key markup) = (earlier.extend later).store key markup :=
  congrArg (fun pages : Index String String => ({earlier.extend later with pages := pages} : Edition))
    (Index.merge_insert earlier.pages later.pages key markup)

/-- All that the edition holds is of one book. -/
structure OfBook (headers : Headers) (edition : Edition) : Prop where
  titles : ∀ book, book ≠ headers.bookCode → edition.titles.find? book = none
  pages : ∀ key, key ≠ headers.key → edition.pages.find? key = none
  log : ∀ remark ∈ edition.log.toList, remark.document = headers.bookCode

variable {headers : Headers} {edition : Edition}

theorem OfBook.empty (headers : Headers) : OfBook headers {} :=
  ⟨fun _ _ => rfl,fun _ _ => rfl,nofun⟩

theorem OfBook.report (own : OfBook headers edition) (level : Level) (message : String) :
    OfBook headers (edition.report level message) :=
  ⟨own.titles,own.pages,own.log⟩

theorem OfBook.warn (own : OfBook headers edition) (message : String) :
    OfBook headers (edition.warn message headers.bookCode) where
  titles := own.titles
  pages := own.pages
  log remark member := by
    have listed : remark ∈ edition.log.toList ++ [⟨message,headers.bookCode⟩] :=
      Gathering.toList_add edition.log _ ▸ member
    rcases List.mem_append.mp listed with earlier | last
    · exact own.log remark earlier
    · rw [List.mem_singleton.mp last]

theorem OfBook.recordTitles (own : OfBook headers edition) (titles : Titles) :
    OfBook headers (edition.recordTitles headers.bookCode titles) where
  titles book other := (Index.find?_insert_of_ne edition.titles other titles).trans (own.titles book other)
  pages := own.pages
  log := own.log

theorem OfBook.store (own : OfBook headers edition) (markup : String) :
    OfBook headers (edition.store headers.key markup) where
  titles := own.titles
  pages key other := (Index.find?_insert_of_ne edition.pages other markup).trans (own.pages key other)
  log := own.log

end Edition

/-- The outcome with what was there before it. -/
def Outcome.after (edition : Edition) (outcome : Outcome) : Outcome :=
  {outcome with edition := edition.extend outcome.edition}

namespace Session
variable {commission : Commission} {event : Event} {session : Session} {before edition : Edition}

theorem edited_after (result : Except Failure Draft) :
    session.edited (before.extend edition) result = (session.edited edition result).after before := by
  cases result <;> rfl

theorem endWord_after :
    endWord commission session (before.extend edition) = (endWord commission session edition).after before := by
  unfold endWord
  split
  next => rfl
  next content rows popped =>
    simp only
    split
    next => rfl
    next => exact edited_after _
    next => exact congrArg (Outcome.mk _ · _) (Edition.extend_warn _ _ _ _).symm

theorem follow_after (rule : Rule) :
    follow commission event session (before.extend edition) rule =
      (follow commission event session edition rule).after before := by
  cases rule with
  | startDocument =>
    simp only [follow, start, Outcome.after, Edition.extend_recordTitles, Edition.extend_report]
  | followBlockGraft => rfl
  | startBlock | endTitleBlock | endHeadingBlock | endNoteBlock | endParagraphBlock | glossaryLemma |
    characterSpan | tableCell | token | noteGraft | separateIntroduction => simp only [follow, edited_after]
  | chapter | pubChapter | altChapter | verses | pubVerse => simp only [follow, label, edited_after]
  | glossaryWord =>
    simp only [follow, startWord]
    split
    · exact edited_after _
    · exact endWord_after
  | unhandledSpan =>
    simp only [follow, unhandledSpan]
    split <;> rfl
  | composeDocument =>
    simp only [follow, compose]
    split
    · simp only [Outcome.after, Edition.extend_report, Edition.extend_store]
    · rfl

theorem take_after (commission : Commission) (event : Event) (session : Session) (before edition : Edition) :
    take commission event session (before.extend edition) = (take commission event session edition).after before := by
  unfold take
  split
  · cases Rule.select? commission.profile event with
    | none => rfl
    | some rule => exact follow_after rule
  · rfl

theorem step_after (outcome : Outcome) (act : Act) :
    step commission (outcome.after before) act = (step commission outcome act).after before := by
  unfold step
  have same : (outcome.after before).failure = outcome.failure := rfl
  rw [same]
  split
  · cases act with
    | take path event => exact take_after commission event outcome.session before outcome.edition
    | refuse failure | closeNote => rfl
  · rfl

/-- A run adds to an edition what it adds to an empty one. -/
theorem performAll_after (path : List String) (outcome : Outcome) (events : List Event) :
    performAll commission path (outcome.after before) events =
      (performAll commission path outcome events).after before := by
  rw [performAll_eq_foldl, performAll_eq_foldl]
  exact List.foldl_hom (Outcome.after before) fun outcome act => step_after outcome act

section Book
variable {outcome : Outcome}

theorem edited_ofBook (own : edition.OfBook commission.headers) (result : Except Failure Draft) :
    (session.edited edition result).edition.OfBook commission.headers := by
  cases result <;> exact own

theorem endWord_ofBook (own : edition.OfBook commission.headers) :
    (endWord commission session edition).edition.OfBook commission.headers := by
  unfold endWord
  split
  next => exact own
  next =>
    simp only
    split
    next => exact own
    next => exact edited_ofBook own _
    next => exact own.warn _

theorem follow_ofBook (own : edition.OfBook commission.headers) (rule : Rule) :
    (follow commission event session edition rule).edition.OfBook commission.headers := by
  cases rule with
  | startDocument => exact (own.report _ _).recordTitles _
  | followBlockGraft => exact own
  | startBlock | endTitleBlock | endHeadingBlock | endNoteBlock | endParagraphBlock | glossaryLemma |
    characterSpan | tableCell | token | noteGraft | separateIntroduction | chapter | pubChapter | altChapter |
    verses | pubVerse => exact edited_ofBook own _
  | glossaryWord =>
    simp only [follow]
    split
    · exact edited_ofBook own _
    · exact endWord_ofBook own
  | unhandledSpan =>
    simp only [follow, unhandledSpan]
    split
    · exact own.warn _
    · exact own
  | composeDocument =>
    simp only [follow, compose]
    split
    · exact (own.store _).report _ _
    · exact own

theorem step_ofBook (own : outcome.edition.OfBook commission.headers) (act : Act) :
    (step commission outcome act).edition.OfBook commission.headers := by
  unfold step
  split
  · cases act with
    | refuse failure | closeNote => exact own
    | take path event =>
      simp only [perform, take]
      split
      · split
        · exact follow_ofBook own _
        · exact own
      · exact own
  · exact own

/-- A run reports, registers and keeps things of its own book only. -/
theorem performAll_ofBook (own : outcome.edition.OfBook commission.headers) (path : List String)
    (events : List Event) :
    (performAll commission path outcome events).edition.OfBook commission.headers := by
  rw [performAll_eq_foldl]
  generalize Graft.unfold commission.profile commission.sequences path events = acts
  induction acts generalizing outcome with
  | nil => exact own
  | cons act rest ih => exact ih (step_ofBook own act)

end Book
end Session
end Scriptorium
