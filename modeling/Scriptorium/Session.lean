import Scriptorium.Draft
import Scriptorium.Edition
import Scriptorium.Glossary
import Scriptorium.Page
import Scriptorium.Rule

/-! The rendering of one document, and what each rule does to it. A failed event still has an
outcome: the session goes on from the state that the failure left behind. -/
namespace Scriptorium

/-- What a session is given and never changes. -/
structure Commission where
  profile : Profile
  settings : Settings := {}
  headers : Headers
  sequences : Index String (List Event) := ∅

structure Session where
  started : Bool := false
  draft : Draft := {}
  output : Option Page := none
  deriving DecidableEq

structure Outcome where
  session : Session
  edition : Edition
  failure : Option Failure := none
  deriving DecidableEq

namespace Session

def edited (session : Session) (edition : Edition) : Except Failure Draft → Outcome
  | .ok draft => ⟨{session with draft := draft},edition,none⟩
  | .error failure => ⟨session,edition,some failure⟩

def start (commission : Commission) (edition : Edition) : Outcome :=
  let headers := commission.headers
  let head := Page.head commission.profile commission.settings headers.heading
  ⟨{started := true, draft := {head := head}, output := none},
    (edition.report .debug (headers.bookCode ++ ": rendering started")).recordTitles headers.bookCode
      (headers.titles commission.profile.titleSource),
    none⟩

def composition (commission : Commission) (draft : Draft) : Composition where
  direction := Page.direction commission.profile commission.settings commission.headers
  head := draft.head
  chapters := if commission.profile.chapterNavigation then some draft.chapters.toList else none
  bodyHead := draft.bodyHead.toList
  body := draft.body.toList
  notes := draft.notes

def page (commission : Commission) (draft : Draft) : Page :=
  ⟨commission.headers.key,(composition commission draft).markup,draft.chapters.toList⟩

def storedMessage (book : String) (page : Page) : String :=
  book ++ ": stored " ++ page.key ++ " (" ++ toString page.chapters.length ++ " chapters, " ++
    toString page.markup.utf8ByteSize ++ " bytes)"

/-- Compose the page and keep it; every row above the root has to be closed by then. -/
def compose (commission : Commission) (session : Session) (edition : Edition) : Outcome :=
  let depth := session.draft.rows.depth
  if depth = 1 then
    let page := page commission session.draft
    ⟨{session with output := some page},
      (edition.store page.key page.markup).report .debug
        (storedMessage commission.headers.bookCode page),
      none⟩
  else ⟨session,edition,some (.unbalancedStack depth)⟩

def startWord (session : Session) (edition : Edition) : Outcome :=
  session.edited edition (.ok {session.draft.openRow with headword := none})

/-- The text of a closed word goes to the row below in any case; the link follows it when the
word is found in the glossary. -/
def endWord (commission : Commission) (session : Session) (edition : Edition) : Outcome :=
  match session.draft.rows.pop with
  | .error failure => ⟨session,edition,some failure⟩
  | .ok (content, rows) =>
    let key := session.draft.headword.getD content
    let closed : Session := {session with draft := ({session.draft with rows := rows}).append content}
    match Glossary.marker? commission.settings key with
    | .error failure => ⟨closed,edition,some failure⟩
    | .ok (some marker) => closed.edited edition (.ok (closed.draft.append marker))
    | .ok none =>
      ⟨closed,
        edition.warn ("Unresolved glossary term '" ++ key ++ "'") commission.headers.bookCode,none⟩

def unhandledSpan (commission : Commission) (event : Event) (session : Session) (edition : Edition) :
    Outcome :=
  if event.opensScope then
    ⟨session,
      edition.warn ("Unhandled span '" ++ event.payload ++ "'") commission.headers.bookCode,none⟩
  else ⟨session,edition,none⟩

/-- Set a label that the event carries. -/
def label (session : Session) (edition : Edition) (event : Event) (stem : String)
    (place : Draft → String → Draft) : Outcome :=
  session.edited edition (.ok (match event.labelAfter? stem with
    | some label => place session.draft label
    | none => session.draft))

/-- What a rule does for an event. A graft that is followed leaves at most its anchor here; the
grafted sequence comes after it. -/
def follow (commission : Commission) (event : Event) (session : Session) (edition : Edition) :
    Rule → Outcome
  | .startDocument => start commission edition
  | .followBlockGraft => ⟨session,edition,none⟩
  | .startBlock => session.edited edition (.ok session.draft.openRow)
  | .endTitleBlock => session.edited edition (session.draft.closeTitle event)
  | .endHeadingBlock => session.edited edition (session.draft.closeHeading event)
  | .endNoteBlock => session.edited edition session.draft.closeNote
  | .endParagraphBlock => session.edited edition (session.draft.closeParagraph event)
  | .chapter => session.label edition event "chapter" fun draft label =>
    {draft with chapter := draft.chapter.startPrimary label}
  | .pubChapter => session.label edition event "pubChapter" fun draft label =>
    {draft with chapter := draft.chapter.startAlternate label}
  | .altChapter => session.label edition event "altChapter" fun draft label =>
    {draft with chapter := draft.chapter.annotate label}
  | .verses => session.label edition event "verses" fun draft label =>
    {draft with verses := draft.verses.startPrimary label}
  | .pubVerse => session.label edition event "pubVerse" fun draft label =>
    {draft with verses := draft.verses.startAlternate label}
  | .glossaryLemma =>
    session.edited edition (.ok {session.draft with headword := some event.lastSegment})
  | .characterSpan => session.edited edition (session.draft.characterSpan event)
  | .tableCell => session.edited edition (session.draft.tableCell event)
  | .glossaryWord =>
    if event.opensScope then session.startWord edition else endWord commission session edition
  | .unhandledSpan => unhandledSpan commission event session edition
  | .token =>
    session.edited edition (session.draft.token commission.settings.layout.frenchSpacing event)
  | .noteGraft => session.edited edition (.ok (session.draft.append session.draft.notes.anchor))
  | .composeDocument => compose commission session edition
  | .separateIntroduction =>
    session.edited edition (.ok {session.draft with body := session.draft.body.add "<hr/>\n"})

/-- One event by itself. Before the document has started only its start is accepted. -/
def take (commission : Commission) (event : Event) (session : Session) (edition : Edition) : Outcome :=
  if session.started || event.kind == .documentStart then
    match Rule.select? commission.profile event with
    | some rule => follow commission event session edition rule
    | none => ⟨session,edition,none⟩
  else ⟨session,edition,some (.documentNotStarted event.kind)⟩

/-- The page that was composed last. -/
def finish (commission : Commission) (session : Session) : Except Failure Page :=
  match session.output with
  | some page => .ok page
  | none => .error (.documentIncomplete commission.headers.bookCode)

end Session
end Scriptorium
