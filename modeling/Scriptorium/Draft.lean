import Scriptorium.Chapter
import Scriptorium.Notes
import Scriptorium.Rows
import Scriptorium.Spacing
import Scriptorium.Text.Blank
import Scriptorium.Verse

/-! What has been gathered of one page so far, and the steps that events take on it. A step
either succeeds or leaves the draft as it is. -/
namespace Scriptorium

structure Draft where
  rows : Rows := {}
  head : List String := []
  bodyHead : Gathering String := {}
  body : Gathering String := {}
  notes : Notes := {}
  chapter : ChapterTracker := {}
  verses : VerseTracker := {}
  chapters : Gathering ChapterLink := {}
  /-- The dictionary form of the glossary word being read; nested words share it. -/
  headword : Option String := none
  deriving DecidableEq, Repr

namespace Draft

def openRow (draft : Draft) : Draft := {draft with rows := draft.rows.push}

def append (draft : Draft) (fragment : String) : Draft :=
  {draft with rows := draft.rows.append fragment}

/-- Close the top row and hand its text to the next step. -/
def closing (draft : Draft) (next : String → Draft → Draft) : Except Failure Draft := do
  let (content, rows) ← draft.rows.pop
  return next content {draft with rows := rows}

def blockClass (event : Event) : String := (event.segment? 1).getD event.payload

def block (tag blockClass content : String) : String :=
  Text.element tag [("class", blockClass)] (Text.trim content) ++ "\n"

def closeTitle (draft : Draft) (event : Event) : Except Failure Draft :=
  let name := blockClass event
  let tag := if name == "mt" || name == "ms" then "h1" else "h2"
  draft.closing fun content rest => {rest with bodyHead := rest.bodyHead.add (block tag name content)}

def closeHeading (draft : Draft) (event : Event) : Except Failure Draft :=
  let name := blockClass event
  let tag := if name == "s" || name == "is" then "h3" else "h4"
  draft.closing fun content rest => {rest with body := rest.body.add (block tag name content)}

def closeParagraph (draft : Draft) (event : Event) : Except Failure Draft :=
  draft.closing fun content rest =>
    {rest with body := rest.body.add (block "div" (blockClass event) content)}

def closeNote (draft : Draft) : Except Failure Draft :=
  draft.closing fun content rest => {rest with notes := rest.notes.collect content}

/-- Close the top row into a span of the row below. -/
def closeSpan (draft : Draft) (spanClass : String) : Except Failure Draft :=
  draft.closing fun content rest => rest.append (Text.element "span" [("class", spanClass)] content)

def characterSpan (draft : Draft) (event : Event) : Except Failure Draft :=
  if event.opensScope then .ok draft.openRow else draft.closeSpan ((event.segment? 1).getD "")

def cellClass (event : Event) : String :=
  (if event.segment? 1 == some "colHeading" then "cellHeading" else "cell") ++
    (if event.segment? 2 == some "left" then "Left" else "Right")

def tableCell (draft : Draft) (event : Event) : Except Failure Draft :=
  if event.opensScope then .ok draft.openRow else draft.closeSpan (cellClass event)

/-- The heading of a waiting chapter goes to the body, before the block that is open. -/
def flushChapter (draft : Draft) : Except Failure Draft :=
  if draft.chapter.isWaiting then do
    let (label, chapter) ← draft.chapter.flush
    return {draft with
      chapter := chapter
      chapters := draft.chapters.add label.link
      body := draft.body.add label.heading}
  else .ok draft

/-- The number of a waiting verse goes into the row, right before the token. -/
def flushVerse (draft : Draft) : Except Failure Draft :=
  if draft.verses.isWaiting then do
    let (marker, verses) ← draft.verses.flush
    return ({draft with verses := verses}).append marker
  else .ok draft

def flushPending (draft : Draft) (event : Event) : Except Failure Draft :=
  if event.isContent then draft.flushChapter >>= flushVerse else .ok draft

def token (draft : Draft) (mode : FrenchSpacing) (event : Event) : Except Failure Draft := do
  let draft ← draft.flushPending event
  let (text, row) := Spacing.render mode event.subType event.payload draft.rows.top
  return {draft with rows := {draft.rows with top := row.add text}}

end Draft
end Scriptorium
