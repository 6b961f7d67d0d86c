import Scriptorium.Rendering

/-! What one event does. A rule is only selected for events of its own kind that it accepts, so
an event is read by the cases of the rule selected for it; the steps of a draft are read here
once, and later only through these statements. -/
namespace Scriptorium
namespace Rule

/-- The kind of event that a rule is for. -/
def kind : Rule → EventKind
  | startDocument => .documentStart
  | followBlockGraft => .blockGraft
  | startBlock => .blockStart
  | endTitleBlock | endHeadingBlock | endNoteBlock | endParagraphBlock => .blockEnd
  | chapter | pubChapter | verses | pubVerse | glossaryLemma | altChapter => .scope
  | characterSpan | tableCell | glossaryWord | unhandledSpan => .scope
  | token => .token
  | noteGraft => .inlineGraft
  | composeDocument | separateIntroduction => .sequenceEnd

/-- The rules for scopes that hold a row of their own. -/
def wraps : Rule → Bool
  | characterSpan | tableCell | glossaryWord => true
  | _ => false

theorem kind_of_mem_forKind {profile : Profile} {kind : EventKind} {rule : Rule}
    (member : rule ∈ forKind profile kind) : rule.kind = kind := by
  cases kind <;> cases rule <;> simp_all [forKind, Rule.kind]

theorem kind_of_select {profile : Profile} {event : Event} {rule : Rule}
    (selected : select? profile event = some rule) : event.kind = rule.kind :=
  (kind_of_mem_forKind (List.mem_of_find?_eq_some selected)).symm

theorem accepts_of_select {profile : Profile} {event : Event} {rule : Rule}
    (selected : select? profile event = some rule) : accepts profile event rule = true :=
  List.find?_some selected

theorem select_start (profile : Profile) {event : Event} (starts : event.kind = .documentStart) :
    select? profile event = some .startDocument := by
  simp [select?, starts, forKind, accepts]

theorem select_token (profile : Profile) {event : Event} (token : event.kind = .token) :
    select? profile event = some .token := by
  simp [select?, token, forKind, accepts]

theorem select_end (profile : Profile) {event : Event} (ends : event.kind = .sequenceEnd)
    (main : event.sequence = .main) : select? profile event = some .composeDocument := by
  simp [select?, ends, forKind, accepts, main]

end Rule

theorem Graft.ofEvent?_eq_none {profile : Profile} {event : Event} (block : event.kind ≠ .blockGraft)
    (inline : event.kind ≠ .inlineGraft) : Graft.ofEvent? profile event = none := by
  unfold ofEvent?
  split
  next selected => exact absurd (Rule.kind_of_select selected) block
  next selected => exact absurd (Rule.kind_of_select selected) inline
  next => rfl

/-- What the rendering of one event by itself can stop at. -/
inductive Failure.OfEvent : Failure → Prop
  | underflow : OfEvent .stackUnderflow
  | unbalanced (depth : Nat) : OfEvent (.unbalancedStack depth)
  | unlinked (entry : UInt32) : OfEvent (.missingGlossaryAside entry)
  | early (kind : EventKind) : OfEvent (.documentNotStarted kind)

namespace Draft

theorem closing_of_pop {draft : Draft} {content : String} {rows : Rows}
    (closed : draft.rows.pop = .ok (content, rows)) (next : String → Draft → Draft) :
    draft.closing next = .ok (next content {draft with rows := rows}) := by
  simp [closing, closed, bind, Except.bind, pure, Except.pure]

theorem closing_eq_ok {draft result : Draft} {next : String → Draft → Draft}
    (closed : draft.closing next = .ok result) :
    ∃ content rows, draft.rows.pop = .ok (content, rows) ∧
      result = next content {draft with rows := rows} := by
  cases popped : draft.rows.pop with
  | error failure => simp [closing, popped, bind, Except.bind] at closed
  | ok row =>
    refine ⟨row.1,row.2,rfl,?_⟩
    rw [closing_of_pop popped] at closed
    exact (Except.ok.inj closed).symm

theorem flushChapter_of_none {draft : Draft} (idle : draft.chapter.pending = none) :
    draft.flushChapter = .ok draft := by
  simp [flushChapter, ChapterTracker.isWaiting, idle]

theorem flushChapter_of_some {draft : Draft} {pending : PendingChapter}
    (waiting : draft.chapter.pending = some pending) :
    draft.flushChapter = .ok {draft with
      chapter := {draft.chapter with pending := none}
      chapters := draft.chapters.add pending.label.link
      body := draft.body.add pending.label.heading} := by
  simp [flushChapter, ChapterTracker.isWaiting, ChapterTracker.flush, waiting, bind, Except.bind,
    pure, Except.pure]

theorem flushVerse_of_none {draft : Draft} (idle : draft.verses.pending = none) :
    draft.flushVerse = .ok draft := by
  simp [flushVerse, VerseTracker.isWaiting, idle]

theorem flushVerse_of_some {draft : Draft} {label : String}
    (waiting : draft.verses.pending = some label) :
    draft.flushVerse =
      .ok (({draft with verses := {draft.verses with pending := none}} : Draft).append
        (VerseTracker.marker label)) := by
  simp [flushVerse, VerseTracker.isWaiting, VerseTracker.flush, waiting, bind, Except.bind,
    pure, Except.pure]

/-- Labels that wait can always be placed, and what placing either of them keeps is kept. -/
theorem flushPending_keeps {kept : Draft → Prop}
    (chapter : ∀ draft pending, draft.chapter.pending = some pending → kept draft →
      kept {draft with
        chapter := {draft.chapter with pending := none}
        chapters := draft.chapters.add pending.label.link
        body := draft.body.add pending.label.heading})
    (verse : ∀ draft label, draft.verses.pending = some label → kept draft →
      kept (({draft with verses := {draft.verses with pending := none}} : Draft).append
        (VerseTracker.marker label)))
    {draft : Draft} (initial : kept draft) (event : Event) :
    ∃ flushed, draft.flushPending event = .ok flushed ∧ kept flushed := by
  unfold flushPending
  split
  next =>
    have headed : ∃ middle, draft.flushChapter = .ok middle ∧ kept middle := by
      cases waiting : draft.chapter.pending with
      | none => exact ⟨_,flushChapter_of_none waiting,initial⟩
      | some pending => exact ⟨_,flushChapter_of_some waiting,chapter draft pending waiting initial⟩
    obtain ⟨middle,placed,holds⟩ := headed
    rw [placed]
    change ∃ flushed, middle.flushVerse = .ok flushed ∧ kept flushed
    cases waiting : middle.verses.pending with
    | none => exact ⟨_,flushVerse_of_none waiting,holds⟩
    | some label => exact ⟨_,flushVerse_of_some waiting,verse middle label waiting holds⟩
  next => exact ⟨_,rfl,initial⟩

/-- The heading of a waiting chapter is placed. -/
def headed (draft : Draft) : Draft :=
  match draft.chapter.pending with
  | none => draft
  | some pending => {draft with
    chapter := {draft.chapter with pending := none}
    chapters := draft.chapters.add pending.label.link
    body := draft.body.add pending.label.heading}

/-- The number of a waiting verse is placed. -/
def marked (draft : Draft) : Draft :=
  match draft.verses.pending with
  | none => draft
  | some label => ({draft with verses := {draft.verses with pending := none}} : Draft).append
      (VerseTracker.marker label)

theorem headed_of_none {draft : Draft} (idle : draft.chapter.pending = none) : draft.headed = draft := by
  simp [headed, idle]

theorem headed_of_some {draft : Draft} {pending : PendingChapter}
    (waiting : draft.chapter.pending = some pending) :
    draft.headed = {draft with
      chapter := {draft.chapter with pending := none}
      chapters := draft.chapters.add pending.label.link
      body := draft.body.add pending.label.heading} := by
  simp [headed, waiting]

@[simp] theorem headed_pending (draft : Draft) : draft.headed.chapter.pending = none := by
  unfold headed
  split
  · assumption
  · rfl

@[simp] theorem headed_verses (draft : Draft) : draft.headed.verses = draft.verses := by
  unfold headed
  split <;> rfl

@[simp] theorem headed_rows (draft : Draft) : draft.headed.rows = draft.rows := by
  unfold headed
  split <;> rfl

@[simp] theorem marked_pending (draft : Draft) : draft.marked.verses.pending = none := by
  unfold marked
  split
  · assumption
  · rfl

theorem marked_of_none {draft : Draft} (idle : draft.verses.pending = none) : draft.marked = draft := by
  simp [marked, idle]

theorem marked_of_some {draft : Draft} {label : String} (waiting : draft.verses.pending = some label) :
    draft.marked = ({draft with verses := {draft.verses with pending := none}} : Draft).append
      (VerseTracker.marker label) := by
  simp [marked, waiting]

theorem headed_headword (draft : Draft) : draft.headed.headword = draft.headword := by
  unfold headed
  split <;> rfl

theorem marked_headword (draft : Draft) : draft.marked.headword = draft.headword := by
  unfold marked
  split <;> rfl

/-- Only the rows and the verse are changed by placing a number. -/
@[simp] theorem marked_rest (draft : Draft) : draft.marked.chapter = draft.chapter ∧
    draft.marked.chapters = draft.chapters ∧ draft.marked.body = draft.body := by
  unfold marked
  split <;> exact ⟨rfl,rfl,rfl⟩

theorem flushPending_of_content {event : Event} (content : event.isContent = true) (draft : Draft) :
    draft.flushPending event = .ok draft.headed.marked := by
  have chapter : draft.flushChapter = .ok draft.headed := by
    unfold headed
    split
    next idle => exact flushChapter_of_none idle
    next waiting => exact flushChapter_of_some waiting
  have verse : draft.headed.flushVerse = .ok draft.headed.marked := by
    unfold marked
    split
    next idle => exact flushVerse_of_none idle
    next waiting => exact flushVerse_of_some waiting
  rw [flushPending, if_pos content, chapter]
  exact verse

theorem flushPending_of_other {event : Event} (plain : event.isContent = false) (draft : Draft) :
    draft.flushPending event = .ok draft := by
  simp [flushPending, plain]

theorem token_of_flushed {draft flushed : Draft} {event : Event}
    (placed : draft.flushPending event = .ok flushed) (mode : FrenchSpacing) :
    draft.token mode event =
      let spaced := Spacing.render mode event.subType event.payload flushed.rows.top
      .ok {flushed with rows := {flushed.rows with top := spaced.2.add spaced.1}} := by
  simp [token, placed, bind, Except.bind, pure, Except.pure]

theorem closing_failure {draft : Draft} {next : String → Draft → Draft} {failure : Failure}
    (failed : draft.closing next = .error failure) : failure = .stackUnderflow := by
  cases popped : draft.rows.pop with
  | ok row => rw [closing_of_pop popped] at failed; cases failed
  | error cause =>
    obtain ⟨_,rfl⟩ := (Rows.pop_eq_error_iff _ _).mp popped
    simp only [closing, popped, bind, Except.bind] at failed
    cases failed
    rfl

theorem token_succeeds (draft : Draft) (mode : FrenchSpacing) (event : Event) :
    ∃ later, draft.token mode event = .ok later := by
  have flushes : ∃ flushed, draft.flushPending event = .ok flushed ∧ True :=
    flushPending_keeps (fun _ _ _ _ => trivial) (fun _ _ _ _ => trivial) trivial event
  obtain ⟨flushed,placed,_⟩ := flushes
  exact ⟨_,token_of_flushed placed mode⟩

end Draft

theorem Glossary.link_eq (aside : String) : link aside = "<a epub:type=\"noteref\" class=\"glossaryLink\" " ++
    "href=\"../glossary_notes.xhtml#glo_" ++ aside ++ "\">*</a>" := by
  unfold link
  refine String.toList_inj.mp ?_
  simp

namespace Settings

/-- Every entry that a term leads to has its aside. -/
def Complete (settings : Settings) : Prop :=
  ∀ term entry, settings.terms.find? term = some entry → ∃ aside, settings.asides.find? entry = some aside

theorem Complete.marker {settings : Settings} (complete : settings.Complete) (key : String) :
    ∃ marker, Glossary.marker? settings key = .ok marker := by
  unfold Glossary.marker?
  cases found : settings.terms.find? key with
  | none => exact ⟨none,rfl⟩
  | some entry =>
    obtain ⟨aside,placed⟩ := complete key entry found
    exact ⟨some (Glossary.link aside),by simp [placed]⟩

end Settings

namespace Session
variable {commission : Commission} {event : Event} {session : Session} {edition : Edition}

theorem take_of_select {rule : Rule} (started : session.started = true)
    (selected : Rule.select? commission.profile event = some rule) :
    take commission event session edition = follow commission event session edition rule := by
  simp [take, started, selected]

theorem take_of_success {rule : Rule} (selected : Rule.select? commission.profile event = some rule)
    (fine : (take commission event session edition).failure = none) :
    take commission event session edition = follow commission event session edition rule := by
  unfold take at fine ⊢
  split at fine
  next accepted => rw [if_pos accepted, selected]
  next => cases fine

theorem take_start (starts : event.kind = .documentStart) :
    take commission event session edition = start commission edition := by
  simp [take, starts, Rule.select_start commission.profile starts, follow]

theorem take_of_unselected (started : session.started = true)
    (unselected : Rule.select? commission.profile event = none) :
    take commission event session edition = ⟨session,edition,none⟩ := by
  simp [take, started, unselected]

/-- What comes of the end of a word whose row is closed, by the key that it is looked up with. -/
inductive LooksUp (commission : Commission) (session : Session) (edition : Edition) (content : String) (rows : Rows)
    (key : String) : Outcome → Prop
  | linked {entry aside} (listed : commission.settings.terms.find? key = some entry)
      (explained : commission.settings.asides.find? entry = some aside) :
      LooksUp commission session edition content rows key
        ⟨{session with draft := {session.draft with
          rows := (rows.append content).append ("<a epub:type=\"noteref\" class=\"glossaryLink\" " ++
            "href=\"../glossary_notes.xhtml#glo_" ++ aside ++ "\">*</a>")}},edition,none⟩
  | unlisted (unlisted : commission.settings.terms.find? key = none) :
      LooksUp commission session edition content rows key
        ⟨{session with draft := {session.draft with rows := rows.append content}},
          edition.warn ("Unresolved glossary term '" ++ key ++ "'") commission.headers.bookCode,none⟩
  | unexplained {entry} (listed : commission.settings.terms.find? key = some entry)
      (unexplained : commission.settings.asides.find? entry = none) :
      LooksUp commission session edition content rows key
        ⟨{session with draft := {session.draft with rows := rows.append content}},edition,
          some (.missingGlossaryAside entry)⟩

theorem endWord_looksUp {content : String} {rows : Rows} (commission : Commission) (edition : Edition)
    (closed : session.draft.rows.pop = .ok (content, rows)) :
    LooksUp commission session edition content rows (session.draft.headword.getD content)
      (endWord commission session edition) := by
  unfold endWord Glossary.marker?
  simp only [closed]
  cases listed : commission.settings.terms.find? (session.draft.headword.getD content) with
  | none => exact .unlisted listed
  | some entry =>
    cases explained : commission.settings.asides.find? entry with
    | none =>
      simp only [explained]
      exact .unexplained listed explained
    | some aside =>
      simp only [explained, Glossary.link_eq]
      exact .linked listed explained

section Failures
variable {failure : Failure}

theorem edited_failure {result : Except Failure Draft}
    (failed : (session.edited edition result).failure = some failure) : result = .error failure := by
  cases result with
  | ok draft => cases failed
  | error cause => cases failed; rfl

/-- What an event by itself leaves when it fails: what it met, but for a word that is closed and whose entry
has no aside. -/
inductive Fails (event : Event) (session : Session) (edition : Edition) : Outcome → Prop
  | unchanged {cause} (own : cause.OfEvent) (other : ∀ entry, cause ≠ .missingGlossaryAside entry) :
      Fails event session edition ⟨session,edition,some cause⟩
  | unlinked {content rows entry} (scope : event.kind = .scope) (word : event.payload = "spanWithAtts/w")
      (ends : event.opensScope = false) (closed : session.draft.rows.pop = .ok (content, rows)) :
      Fails event session edition
        ⟨{session with draft := {session.draft with rows := rows.append content}},edition,
          some (.missingGlossaryAside entry)⟩

theorem Fails.underflow : Fails event session edition ⟨session,edition,some .stackUnderflow⟩ :=
  .unchanged .underflow fun entry missing => by cases missing

theorem edited_fails {result : Except Failure Draft}
    (failed : (session.edited edition result).failure = some failure)
    (only : ∀ failure, result = .error failure → failure = .stackUnderflow) :
    Fails event session edition (session.edited edition result) := by
  have error : result = .error .stackUnderflow := only failure (edited_failure failed) ▸ edited_failure failed
  rw [error]
  exact .underflow

theorem endWord_fails (scope : event.kind = .scope) (word : event.payload = "spanWithAtts/w")
    (ends : event.opensScope = false) (failed : (endWord commission session edition).failure = some failure) :
    Fails event session edition (endWord commission session edition) := by
  cases popped : session.draft.rows.pop with
  | error cause =>
    obtain ⟨_,rfl⟩ := (Rows.pop_eq_error_iff _ _).mp popped
    simp only [endWord, popped]
    exact .underflow
  | ok row =>
    have looksUp := endWord_looksUp commission edition popped
    generalize endWord commission session edition = result at failed looksUp ⊢
    cases looksUp with
    | linked | unlisted => cases failed
    | unexplained => exact .unlinked scope word ends popped

theorem follow_fails {rule : Rule} (selected : Rule.select? commission.profile event = some rule)
    (failed : (follow commission event session edition rule).failure = some failure) :
    Fails event session edition (follow commission event session edition rule) := by
  cases rule with
  | startDocument | followBlockGraft | startBlock | glossaryLemma | noteGraft | separateIntroduction => cases failed
  | chapter | pubChapter | altChapter | verses | pubVerse => cases edited_failure failed
  | endTitleBlock | endHeadingBlock | endNoteBlock | endParagraphBlock =>
    refine edited_fails failed fun failure closed => ?_
    simp only [Draft.closeTitle, Draft.closeHeading, Draft.closeNote, Draft.closeParagraph] at closed
    exact Draft.closing_failure closed
  | characterSpan | tableCell =>
    refine edited_fails failed fun failure closed => ?_
    simp only [Draft.characterSpan, Draft.tableCell, Draft.closeSpan] at closed
    split at closed
    · cases closed
    · exact Draft.closing_failure closed
  | glossaryWord =>
    simp only [follow] at failed ⊢
    split at failed
    next => cases failed
    next ends =>
      have word : event.payload = "spanWithAtts/w" := by
        simpa [Rule.accepts] using Rule.accepts_of_select selected
      rw [if_neg ends]
      exact endWord_fails (Rule.kind_of_select selected) word (by simpa using ends) failed
  | unhandledSpan =>
    simp only [follow, unhandledSpan] at failed
    split at failed <;> cases failed
  | token =>
    obtain ⟨later,placed⟩ := Draft.token_succeeds session.draft commission.settings.layout.frenchSpacing event
    cases placed.symm.trans (edited_failure failed)
  | composeDocument =>
    simp only [follow, compose] at failed ⊢
    split at failed
    next => cases failed
    next unbalanced =>
      rw [if_neg unbalanced]
      exact .unchanged (.unbalanced _) fun entry missing => by cases missing

theorem take_fails (failed : (take commission event session edition).failure = some failure) :
    Fails event session edition (take commission event session edition) := by
  unfold take at failed ⊢
  split at failed
  next accepted =>
    rw [if_pos accepted]
    cases selected : Rule.select? commission.profile event with
    | none => simp [selected] at failed
    | some rule => exact follow_fails selected (by simpa only [selected] using failed)
  next early =>
    rw [if_neg early]
    exact .unchanged (.early _) fun entry missing => by cases missing

theorem take_failure (failed : (take commission event session edition).failure = some failure) :
    failure.OfEvent := by
  have fails := take_fails failed
  generalize take commission event session edition = result at failed fails
  cases fails with
  | unchanged own =>
    cases failed
    exact own
  | unlinked =>
    cases failed
    exact .unlinked _

end Failures
end Session
end Scriptorium
