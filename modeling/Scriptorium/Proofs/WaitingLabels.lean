import Mathlib.Data.List.DropRight
import Scriptorium.Proofs.Footprint
import Scriptorium.Proofs.NoteNumbers
import Scriptorium.Proofs.RuleOrder

/-! Labels that wait. What waits before a content token is told by the events since the last one:
the last start of a chapter or verse, with what the scopes after it publish and annotate. -/
namespace Scriptorium
namespace Event

/-- The label that a scope sets at its start. -/
def startLabel? (event : Event) (stem : String) : Option String :=
  if event.kind = .scope ∧ event.opensScope = true then event.labelAfter? stem else none

def labels (stem : String) (events : List Event) : List String :=
  events.filterMap fun event => event.startLabel? stem

/-- The events after the last content token. -/
def sinceContent (events : List Event) : List Event :=
  events.rtakeWhile fun event => !event.isContent

theorem labels_cons (stem : String) (event : Event) (events : List Event) :
    labels stem (event :: events) = (event.startLabel? stem).toList ++ labels stem events := by
  unfold labels
  cases carried : event.startLabel? stem <;> simp [carried]

theorem labels_concat (stem : String) (events : List Event) (event : Event) :
    labels stem (events ++ [event]) = labels stem events ++ (event.startLabel? stem).toList := by
  unfold labels
  rw [List.filterMap_append]
  cases carried : event.startLabel? stem <;> simp [carried]

theorem sinceContent_of_content {event : Event} (content : event.isContent = true) (events : List Event) :
    sinceContent (events ++ [event]) = [] := by
  simp [sinceContent, content]

theorem sinceContent_of_other {event : Event} (plain : event.isContent = false) (events : List Event) :
    sinceContent (events ++ [event]) = sinceContent events ++ [event] := by
  simp [sinceContent, plain]

/-- The last start of a stem among some events, by its label and the events after it. -/
def LastStart (stem : String) (events : List Event) (primary : String) (late : List Event) : Prop :=
  ∃ early start, events = early ++ start :: late ∧ start.startLabel? stem = some primary ∧
    labels stem late = []

theorem not_lastStart_nil (stem primary : String) (late : List Event) : ¬LastStart stem [] primary late := by
  rintro ⟨early,start,same,_⟩
  simp at same

theorem lastStart_concat {stem primary : String} {events late : List Event} {event : Event} :
    LastStart stem (events ++ [event]) primary late ↔
      (late = [] ∧ event.startLabel? stem = some primary) ∨
      ∃ front, late = front ++ [event] ∧ event.startLabel? stem = none ∧
        LastStart stem events primary front := by
  constructor
  · rintro ⟨early,start,same,begins,unset⟩
    rcases List.eq_nil_or_concat late with rfl | ⟨front,last,rfl⟩
    · obtain ⟨_,last⟩ := List.append_inj' same rfl
      cases last
      exact .inl ⟨rfl,begins⟩
    · rw [List.concat_eq_append, ← List.cons_append, ← List.append_assoc] at same
      obtain ⟨before,last⟩ := List.append_inj' same rfl
      cases last
      rw [List.concat_eq_append, labels_concat, List.append_eq_nil_iff, Option.toList_eq_nil_iff] at unset
      exact .inr ⟨front,List.concat_eq_append,unset.2,early,start,before,begins,unset.1⟩
  · rintro (⟨rfl,begins⟩ | ⟨front,rfl,uncarried,early,start,rfl,begins,unset⟩)
    · exact ⟨events,event,rfl,begins,rfl⟩
    · refine ⟨early,start,by simp,begins,?_⟩
      rw [labels_concat, unset, uncarried]
      rfl

theorem LastStart.unique {stem : String} {events : List Event} {first second : String} {early late : List Event}
    (one : LastStart stem events first early) (other : LastStart stem events second late) :
    first = second ∧ early = late := by
  induction events using List.reverseRecOn generalizing early late with
  | nil => exact absurd one (not_lastStart_nil stem first early)
  | append_singleton events event ih =>
    rcases lastStart_concat.mp one with ⟨rfl,begins⟩ | ⟨front,rfl,unset,one⟩ <;>
      rcases lastStart_concat.mp other with ⟨rfl,again⟩ | ⟨behind,rfl,uncarried,other⟩
    · exact ⟨Option.some.inj (begins.symm.trans again),rfl⟩
    · cases begins.symm.trans uncarried
    · cases unset.symm.trans again
    · obtain ⟨same,rest⟩ := ih one other
      exact ⟨same,congrArg (· ++ [event]) rest⟩

/-- What waits is read from the last start of a stem and from the events after it. -/
structure Awaits {α : Type} (stem : String) (read : String → List Event → α) (events : List Event)
    (pending : Option α) : Prop where
  idle : labels stem events = [] → pending = none
  waiting : ∀ primary late, LastStart stem events primary late → pending = some (read primary late)

section Awaits
variable {α : Type} {stem : String} {read : String → List Event → α} {events : List Event}
variable {pending : Option α} {event : Event}

theorem Awaits.nil : Awaits stem read [] none :=
  ⟨fun _ => rfl,fun primary late last => absurd last (not_lastStart_nil stem primary late)⟩

theorem Awaits.start {primary : String} (carried : event.startLabel? stem = some primary) :
    Awaits stem read (events ++ [event]) (some (read primary [])) := by
  constructor
  · intro unset
    simp [labels_concat, carried] at unset
  · intro other late last
    rcases lastStart_concat.mp last with ⟨rfl,begins⟩ | ⟨front,_,uncarried,_⟩
    · rw [carried] at begins
      cases begins
      rfl
    · rw [carried] at uncarried
      cases uncarried

theorem Awaits.amend {change : α → α} (kept : Awaits stem read events pending)
    (uncarried : event.startLabel? stem = none)
    (amended : ∀ primary late, change (read primary late) = read primary (late ++ [event])) :
    Awaits stem read (events ++ [event]) (pending.map change) := by
  constructor
  · intro unset
    rw [labels_concat, uncarried, Option.toList_none, List.append_nil] at unset
    rw [kept.idle unset, Option.map_none]
  · intro primary late last
    rcases lastStart_concat.mp last with ⟨_,begins⟩ | ⟨front,rfl,_,earlier⟩
    · rw [uncarried] at begins
      cases begins
    · rw [kept.waiting primary front earlier, Option.map_some, amended]

theorem Awaits.after {change : α → α} (kept : Awaits stem read events pending)
    (amended : ∀ primary late, change (read primary late) = read primary (late ++ [event])) :
    Awaits stem read (events ++ [event])
      (((event.startLabel? stem).map fun primary => read primary []).or (pending.map change)) := by
  cases carried : event.startLabel? stem with
  | none => exact kept.amend carried amended
  | some primary => exact .start carried

end Awaits
end Event

/-- The label of a chapter, as its start and the events after it tell. What is published is counted in 32 bits. -/
def ChapterLabel.read (primary : String) (later : List Event) : ChapterLabel :=
  let published := Event.labels "pubChapter" later
  let count := published.length % UInt32.size
  { id := if count = 0 then primary else primary ++ "_" ++ toString count
    display := published.getLast?.getD primary
    annotation := (Event.labels "altChapter" later).getLast? }

/-- The heading of a chapter as it stands on the page. -/
def ChapterLabel.markup (label : ChapterLabel) : String :=
  "<h3 id=\"chapter_" ++ label.id ++ "\" class=\"chapter\"><a href=\"#top\">" ++ label.display ++
    (match label.annotation with
      | some annotation => "<br/><span class=\"altChapter\">(" ++ annotation ++ ")</span>"
      | none => "") ++
    "</a></h3>\n"

def PendingChapter.read (primary : String) (later : List Event) : PendingChapter where
  primary := primary
  display := (Event.labels "pubChapter" later).getLast?.getD primary
  alternates := .ofNat (Event.labels "pubChapter" later).length
  annotation := (Event.labels "altChapter" later).getLast?

/-- The number of a verse, as its start and the events after it tell. -/
def VerseTracker.read (primary : String) (later : List Event) : String :=
  (Event.labels "pubVerse" later).getLast?.getD primary

/-- A waiting chapter after an event that does not start another. -/
def PendingChapter.heed (event : Event) (pending : PendingChapter) : PendingChapter where
  primary := pending.primary
  display := (event.startLabel? "pubChapter").getD pending.display
  alternates := pending.alternates + .ofNat (event.startLabel? "pubChapter").toList.length
  annotation := (event.startLabel? "altChapter").or pending.annotation

theorem PendingChapter.heed_read (event : Event) (primary : String) (later : List Event) :
    (PendingChapter.read primary later).heed event = .read primary (later ++ [event]) := by
  unfold heed read
  rw [Event.labels_concat, Event.labels_concat]
  cases event.startLabel? "pubChapter" <;> cases event.startLabel? "altChapter" <;> simp [UInt32.ofNat_add]

theorem PendingChapter.heed_of_none {event : Event} (unpublished : event.startLabel? "pubChapter" = none)
    (unannotated : event.startLabel? "altChapter" = none) (pending : PendingChapter) :
    pending.heed event = pending := by
  simp [heed, unpublished, unannotated]

theorem VerseTracker.heed_read (event : Event) (primary : String) (later : List Event) :
    (event.startLabel? "pubVerse").getD (VerseTracker.read primary later) =
      VerseTracker.read primary (later ++ [event]) := by
  unfold VerseTracker.read
  rw [Event.labels_concat]
  cases event.startLabel? "pubVerse" <;> simp

namespace Rule
variable {profile : Profile} {event : Event} {rule : Rule}

/-- The stems of labels, with their rules. -/
def labelling : List (String × Rule) :=
  [("chapter", .chapter), ("pubChapter", .pubChapter), ("altChapter", .altChapter),
    ("verses", .verses), ("pubVerse", .pubVerse)]

theorem startLabel?_of_select (stem : String) (selected : select? profile event = some rule)
    (listed : (stem, rule) ∈ labelling) :
    ∃ label, event.startLabel? stem = some label ∧ event.labelAfter? stem = some label := by
  have kind := kind_of_select selected
  have accepted := accepts_of_select selected
  have opens : event.kind = .scope ∧ opensLabel event stem = true := by
    simp only [labelling, List.mem_cons, Prod.mk.injEq, List.not_mem_nil, or_false] at listed
    rcases listed with ⟨rfl,rfl⟩ | ⟨rfl,rfl⟩ | ⟨rfl,rfl⟩ | ⟨rfl,rfl⟩ | ⟨rfl,rfl⟩ <;> exact ⟨kind,accepted⟩
  obtain ⟨scope,opens⟩ := opens
  rw [opensLabel, Bool.and_eq_true] at opens
  obtain ⟨label,carried⟩ := Option.isSome_iff_exists.mp opens.2
  exact ⟨label,by rw [Event.startLabel?, if_pos ⟨scope,opens.1⟩, carried],carried⟩

/-- Where chapters and verses are kept, a label is set by the rule of its stem. -/
theorem select_of_startLabel? {stem : String} (numbered : profile.chapters = true) (versed : profile.verses = true)
    (listed : (stem, rule) ∈ labelling) {label : String} (carried : event.startLabel? stem = some label) :
    select? profile event = some rule := by
  unfold Event.startLabel? at carried
  split at carried
  next scope =>
    have opens : opensLabel event stem = true := by simp [opensLabel, scope.2, carried]
    simp only [labelling, List.mem_cons, Prod.mk.injEq, List.not_mem_nil, or_false] at listed
    rcases listed with ⟨rfl,rfl⟩ | ⟨rfl,rfl⟩ | ⟨rfl,rfl⟩ | ⟨rfl,rfl⟩ | ⟨rfl,rfl⟩ <;>
      exact (select_eq_some_iff (by decide)).mpr ⟨by simp [scope.1, forKind, numbered, versed],opens⟩
  next => cases carried

end Rule

namespace Session
variable {commission : Commission} {event : Event} {session : Session} {edition : Edition}

theorem label_draft {stem label : String} (carried : event.labelAfter? stem = some label)
    (place : Draft → String → Draft) :
    (session.label edition event stem place).session.draft = place session.draft label := by
  simp [Session.label, carried, edited]

theorem take_plain_token (commission : Commission) (edition : Edition)
    (selected : Rule.select? commission.profile event = some .token) (plain : event.isContent = false)
    (started : session.started = true) :
    (take commission event session edition).session.draft.chapter = session.draft.chapter ∧
      (take commission event session edition).session.draft.verses = session.draft.verses ∧
      (take commission event session edition).session.draft.chapters = session.draft.chapters := by
  rw [take_of_select started selected, follow, Draft.token_of_flushed (Draft.flushPending_of_other plain _)]
  exact ⟨rfl,rfl,rfl⟩

theorem take_keeps_chapter (commission : Commission) (edition : Edition) (started : session.started = true)
    (later : event.kind ≠ .documentStart) (plain : event.isContent = false)
    (unlabelled : ∀ rule ∈ [Rule.chapter, .pubChapter, .altChapter],
      Rule.select? commission.profile event ≠ some rule) :
    (take commission event session edition).session.draft.chapter = session.draft.chapter := by
  by_cases token : Rule.select? commission.profile event = some .token
  · exact (take_plain_token commission edition token plain started).1
  · exact (take_retains later commission session edition).draft.chapter (by simp_all)

theorem take_keeps_verses (commission : Commission) (edition : Edition) (started : session.started = true)
    (later : event.kind ≠ .documentStart) (plain : event.isContent = false)
    (unlabelled : ∀ rule ∈ [Rule.verses, .pubVerse], Rule.select? commission.profile event ≠ some rule) :
    (take commission event session edition).session.draft.verses = session.draft.verses := by
  by_cases token : Rule.select? commission.profile event = some .token
  · exact (take_plain_token commission edition token plain started).2.1
  · exact (take_retains later commission session edition).draft.verses (by simp_all)

section Labelled
variable (numbered : commission.profile.chapters = true) (versed : commission.profile.verses = true)
include numbered versed

theorem startLabel?_eq_none (event : Event) (stem : String) (rule : Rule) (listed : (stem, rule) ∈ Rule.labelling)
    (other : Rule.select? commission.profile event ≠ some rule) : event.startLabel? stem = none := by
  cases carried : event.startLabel? stem with
  | none => rfl
  | some label => exact absurd (Rule.select_of_startLabel? numbered versed listed carried) other

theorem take_chapter (started : session.started = true) (later : event.kind ≠ .documentStart)
    (plain : event.isContent = false) :
    (take commission event session edition).session.draft.chapter.pending =
      ((event.startLabel? "chapter").map fun primary => PendingChapter.read primary []).or
        (session.draft.chapter.pending.map (PendingChapter.heed event)) := by
  have unset := startLabel?_eq_none numbered versed event
  by_cases chapter : Rule.select? commission.profile event = some .chapter
  · obtain ⟨label,carried,after⟩ := Rule.startLabel?_of_select "chapter" chapter (by decide)
    rw [take_of_select started chapter, follow, label_draft after, carried]
    rfl
  by_cases published : Rule.select? commission.profile event = some .pubChapter
  · obtain ⟨label,carried,after⟩ := Rule.startLabel?_of_select "pubChapter" published (by decide)
    rw [take_of_select started published, follow, label_draft after, unset "chapter" .chapter (by decide) chapter]
    have unannotated := unset "altChapter" .altChapter (by decide) (by simp [published])
    cases waiting : session.draft.chapter.pending <;>
      simp [ChapterTracker.startAlternate, waiting, PendingChapter.heed, carried, unannotated]
  by_cases annotated : Rule.select? commission.profile event = some .altChapter
  · obtain ⟨label,carried,after⟩ := Rule.startLabel?_of_select "altChapter" annotated (by decide)
    rw [take_of_select started annotated, follow, label_draft after, unset "chapter" .chapter (by decide) chapter]
    have unpublished := unset "pubChapter" .pubChapter (by decide) published
    cases waiting : session.draft.chapter.pending <;>
      simp [ChapterTracker.annotate, waiting, PendingChapter.heed, carried, unpublished]
  · have kept := take_keeps_chapter commission edition started later plain
      (by simp [chapter, published, annotated])
    have unpublished := unset "pubChapter" .pubChapter (by decide) published
    have unannotated := unset "altChapter" .altChapter (by decide) annotated
    rw [kept, unset "chapter" .chapter (by decide) chapter]
    cases waiting : session.draft.chapter.pending <;>
      simp [PendingChapter.heed_of_none unpublished unannotated]

theorem take_verse (started : session.started = true) (later : event.kind ≠ .documentStart)
    (plain : event.isContent = false) :
    (take commission event session edition).session.draft.verses.pending =
      ((event.startLabel? "verses").map fun primary => VerseTracker.read primary []).or
        (session.draft.verses.pending.map (event.startLabel? "pubVerse").getD) := by
  have unset := startLabel?_eq_none numbered versed event
  by_cases verse : Rule.select? commission.profile event = some .verses
  · obtain ⟨label,carried,after⟩ := Rule.startLabel?_of_select "verses" verse (by decide)
    rw [take_of_select started verse, follow, label_draft after, carried]
    rfl
  by_cases published : Rule.select? commission.profile event = some .pubVerse
  · obtain ⟨label,carried,after⟩ := Rule.startLabel?_of_select "pubVerse" published (by decide)
    rw [take_of_select started published, follow, label_draft after, unset "verses" .verses (by decide) verse]
    cases waiting : session.draft.verses.pending <;>
      simp [VerseTracker.startAlternate, waiting, carried]
  · have kept := take_keeps_verses commission edition started later plain (by simp [verse, published])
    rw [kept, unset "verses" .verses (by decide) verse, unset "pubVerse" .pubVerse (by decide) published]
    cases waiting : session.draft.verses.pending <;> rfl

end Labelled

theorem take_content (content : event.isContent = true) (started : session.started = true) :
    take commission event session edition =
      let ready := session.draft.headed.marked
      let spaced := Spacing.render commission.settings.layout.frenchSpacing event.subType event.payload
        ready.rows.top
      ⟨{session with draft := {ready with rows := {ready.rows with top := spaced.2.add spaced.1}}},
        edition,none⟩ := by
  have token : event.kind = .token := by
    simp only [Event.isContent, Bool.and_eq_true, beq_iff_eq] at content
    exact content.1.1
  have selected := Rule.select_token commission.profile token
  rw [take_of_select started selected, follow,
    Draft.token_of_flushed (Draft.flushPending_of_content content _)]
  rfl

/-- What waits in a session is told by the events since the last content token. -/
structure Reads (session : Session) (history : List Event) : Prop where
  started : session.started = true
  chapter : Event.Awaits "chapter" PendingChapter.read (Event.sinceContent history)
    session.draft.chapter.pending
  verse : Event.Awaits "verses" VerseTracker.read (Event.sinceContent history) session.draft.verses.pending

theorem Reads.take {history : List Event} (numbered : commission.profile.chapters = true)
    (versed : commission.profile.verses = true) (reads : session.Reads history)
    (later : event.kind ≠ .documentStart) :
    (take commission event session edition).session.Reads (history ++ [event]) := by
  -- a content token leaves nothing waiting and begins a new history
  refine ⟨(take_retains later commission session edition).started.trans reads.started,?_,?_⟩
  · cases content : event.isContent with
    | false =>
      rw [Event.sinceContent_of_other content, take_chapter numbered versed reads.started later content]
      exact reads.chapter.after (PendingChapter.heed_read event)
    | true =>
      have placed : (Session.take commission event session edition).session.draft.chapter.pending = none := by
        rw [take_content content reads.started]
        simp
      rw [Event.sinceContent_of_content content, placed]
      exact .nil
  · cases content : event.isContent with
    | false =>
      rw [Event.sinceContent_of_other content, take_verse numbered versed reads.started later content]
      exact reads.verse.after (VerseTracker.heed_read event)
    | true =>
      have placed : (Session.take commission event session edition).session.draft.verses.pending = none := by
        rw [take_content content reads.started]
        simp
      rw [Event.sinceContent_of_content content, placed]
      exact .nil

end Session
end Scriptorium
