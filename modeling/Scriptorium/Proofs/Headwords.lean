import Mathlib.Data.List.DropRight
import Scriptorium.Proofs.Histories
import Scriptorium.Proofs.RuleOrder
import Scriptorium.Proofs.WordLinks

/-! Headwords of glossary words. A session has one place for them, which words share that are nested, overlap
or stand in replayed sequences. What it holds when a word ends is told from the events since the last word
began, so that no headword is left over from a word before. -/
namespace Scriptorium

namespace Event

def opensWord (event : Event) : Bool :=
  event.kind == .scope && event.opensScope && event.payload == "spanWithAtts/w"

def headword? (event : Event) : Option String :=
  if event.kind == .scope && event.opensScope && Text.startsWith event.payload "attribute/spanWithAtts/w/lemma" then
    some event.lastSegment
  else none

/-- The events after the last start of a word, or after that of the document. -/
def sinceWord (events : List Event) : List Event :=
  events.rtakeWhile fun event => event.kind != .documentStart && !event.opensWord

def lastHeadword? (events : List Event) : Option String := ((sinceWord events).filterMap headword?).getLast?

variable {events : List Event} {event : Event}

theorem lastHeadword?_of_start (starts : event.kind = .documentStart) : lastHeadword? (events ++ [event]) = none := by
  rw [lastHeadword?, sinceWord, List.rtakeWhile_concat_neg _ _ _ (by simp [starts])]
  rfl

theorem lastHeadword?_of_later (later : event.kind ≠ .documentStart) :
    lastHeadword? (events ++ [event]) =
      if event.opensWord then none else event.headword?.or (lastHeadword? events) := by
  cases opens : event.opensWord with
  | true =>
    rw [lastHeadword?, sinceWord, List.rtakeWhile_concat_neg _ _ _ (by simp [opens])]
    rfl
  | false =>
    rw [lastHeadword?, sinceWord, List.rtakeWhile_concat_pos _ _ _ (by simp [later, opens]), List.filterMap_append]
    cases given : event.headword? <;> simp [given, lastHeadword?, sinceWord]

end Event

namespace Rule
variable {profile : Profile} {event : Event}

theorem select_lemma_iff (glossed : profile.glossaryLinks = true) :
    select? profile event = some .glossaryLemma ↔ event.kind = .scope ∧ event.opensScope = true ∧
      Text.startsWith event.payload "attribute/spanWithAtts/w/lemma" = true := by
  rw [select_eq_some_iff (by decide), accepts, Bool.and_eq_true]
  constructor
  · rintro ⟨member,named⟩
    exact ⟨(kind_of_mem_forKind member).symm,named⟩
  · rintro ⟨kind,named⟩
    exact ⟨by simp [kind, forKind, glossed],named⟩

theorem select_word_iff (glossed : profile.glossaryLinks = true) :
    select? profile event = some .glossaryWord ↔ event.kind = .scope ∧ event.payload = "spanWithAtts/w" := by
  constructor
  · intro selected
    exact ⟨kind_of_select selected,by simpa [accepts] using accepts_of_select selected⟩
  · rintro ⟨kind,payload⟩
    exact select_word glossed event kind payload

theorem headword?_eq (glossed : profile.glossaryLinks = true) (event : Event) : event.headword? =
    if select? profile event = some .glossaryLemma then some event.lastSegment else none := by
  simp only [Event.headword?, select_lemma_iff glossed, Bool.and_eq_true, beq_iff_eq, and_assoc]

theorem opensWord_iff (glossed : profile.glossaryLinks = true) (event : Event) : event.opensWord = true ↔
    select? profile event = some .glossaryWord ∧ event.opensScope = true := by
  simp only [Event.opensWord, select_word_iff glossed, Bool.and_eq_true, beq_iff_eq, and_right_comm]

end Rule

namespace Draft

theorem token_headword {draft later : Draft} {mode : FrenchSpacing} {event : Event}
    (placed : draft.token mode event = .ok later) : later.headword = draft.headword := by
  have flushes : ∃ flushed, draft.flushPending event = .ok flushed ∧ flushed.headword = draft.headword := by
    cases content : event.isContent with
    | true => exact ⟨_,flushPending_of_content content draft,(marked_headword _).trans (headed_headword _)⟩
    | false => exact ⟨draft,flushPending_of_other content draft,rfl⟩
  obtain ⟨flushed,ready,same⟩ := flushes
  rw [token_of_flushed ready] at placed
  cases placed
  exact same

end Draft

namespace Session
variable {commission : Commission} {event : Event} {session : Session} {edition : Edition}

theorem edited_headword {result : Except Failure Draft}
    (kept : ∀ draft, result = .ok draft → draft.headword = session.draft.headword) :
    (session.edited edition result).session.draft.headword = session.draft.headword := by
  cases result with
  | error failure => rfl
  | ok draft => exact kept draft rfl

theorem closing_headword {next : String → Draft → Draft}
    (kept : ∀ content draft, (next content draft).headword = draft.headword) :
    (session.edited edition (session.draft.closing next)).session.draft.headword = session.draft.headword := by
  refine edited_headword fun draft closed => ?_
  obtain ⟨content,rows,_,rfl⟩ := Draft.closing_eq_ok closed
  exact kept content _

theorem endWord_headword :
    (endWord commission session edition).session.draft.headword = session.draft.headword := by
  unfold endWord
  split
  · rfl
  · simp only
    split <;> rfl

theorem follow_headword {rule : Rule} (later : rule ≠ .startDocument) :
    (follow commission event session edition rule).session.draft.headword =
      if rule = .glossaryLemma then some event.lastSegment
      else if rule = .glossaryWord ∧ event.opensScope = true then none
      else session.draft.headword := by
  cases rule with
  | startDocument => exact absurd rfl later
  | followBlockGraft | startBlock | glossaryLemma | noteGraft | separateIntroduction => rfl
  | endTitleBlock | endHeadingBlock | endNoteBlock | endParagraphBlock =>
    simp only [follow, Draft.closeTitle, Draft.closeHeading, Draft.closeNote, Draft.closeParagraph]
    exact closing_headword fun _ _ => rfl
  | chapter | pubChapter | altChapter | verses | pubVerse =>
    simp only [follow, label]
    split <;> rfl
  | characterSpan | tableCell =>
    simp only [follow, Draft.characterSpan, Draft.tableCell]
    split
    · rfl
    · exact closing_headword fun _ _ => rfl
  | glossaryWord =>
    simp only [follow]
    split
    next opens => simp [startWord, edited, opens]
    next closes => simp [endWord_headword, closes]
  | unhandledSpan =>
    simp only [follow, unhandledSpan]
    split <;> rfl
  | token => exact edited_headword fun draft placed => Draft.token_headword placed
  | composeDocument =>
    simp only [follow, compose]
    split <;> rfl

theorem take_headword (glossed : commission.profile.glossaryLinks = true) (started : session.started = true)
    (later : event.kind ≠ .documentStart) :
    (take commission event session edition).session.draft.headword =
      if event.opensWord then none else event.headword?.or session.draft.headword := by
  rw [Rule.headword?_eq glossed]
  simp only [Rule.opensWord_iff glossed]
  cases selected : Rule.select? commission.profile event with
  | none => simp [take_of_unselected started selected]
  | some rule =>
    have ordinary : rule ≠ .startDocument := by
      rintro rfl
      exact later (Rule.kind_of_select selected)
    rw [take_of_select started selected, follow_headword ordinary]
    simp only [Option.some.injEq]
    by_cases given : rule = .glossaryLemma
    · simp [given]
    · simp [given]

/-- What the one place for headwords holds, and that no row is open before a document starts. -/
def Remembers (told : List Entry) (session : Session) : Prop :=
  (session.started = true → session.draft.headword = Event.lastHeadword? (told.map (·.event))) ∧
    (session.started = false → session.draft.rows.below = [])

theorem Remembers.take (glossed : commission.profile.glossaryLinks = true) {told : List Entry}
    (remembers : Remembers told session) (failure : Option Failure) :
    Remembers (told ++ [⟨event,session,failure⟩]) (take commission event session edition).session := by
  rw [Remembers, List.map_append, List.map_singleton]
  by_cases starts : event.kind = .documentStart
  · rw [take_start starts, Event.lastHeadword?_of_start starts]
    exact ⟨fun _ => rfl,fun unstarted => by cases unstarted⟩
  cases started : session.started with
  | true =>
    rw [(take_retains starts commission session edition).started, take_headword glossed started starts,
      Event.lastHeadword?_of_later starts, remembers.1 started, started]
    exact ⟨fun _ => rfl,fun unstarted => by cases unstarted⟩
  | false =>
    have refused : Session.take commission event session edition =
        ⟨session,edition,some (.documentNotStarted event.kind)⟩ := by
      simp [Session.take, started, starts]
    rw [refused]
    exact ⟨fun begun => by simp [started] at begun,remembers.2⟩

end Session

namespace Moment
variable {commission : Commission} {moment : Moment}

end Moment
end Scriptorium
