import Scriptorium.Document

/-! The rules that events are handled by. A profile gives each kind of event its rules in
order, and the first rule that accepts an event is the one that is followed. -/
namespace Scriptorium

inductive Rule
  | startDocument | followBlockGraft | startBlock
  | endTitleBlock | endHeadingBlock | endNoteBlock | endParagraphBlock
  | chapter | pubChapter | verses | pubVerse | glossaryLemma | altChapter
  | characterSpan | tableCell | glossaryWord | unhandledSpan
  | token | noteGraft | composeDocument | separateIntroduction
  deriving DecidableEq, Repr

namespace Rule

def name : Rule → String
  | startDocument => "start_document"
  | followBlockGraft => "follow_block_graft"
  | startBlock => "start_block"
  | endTitleBlock => "end_title_block"
  | endHeadingBlock => "end_heading_block"
  | endNoteBlock => "end_note_block"
  | endParagraphBlock => "end_paragraph_block"
  | chapter => "chapter"
  | pubChapter => "pub_chapter"
  | verses => "verses"
  | pubVerse => "pub_verse"
  | glossaryLemma => "glossary_lemma"
  | altChapter => "alt_chapter"
  | characterSpan => "character_span"
  | tableCell => "table_cell"
  | glossaryWord => "glossary_word"
  | unhandledSpan => "unhandled_span"
  | token => "token"
  | noteGraft => "note_graft"
  | composeDocument => "compose_document"
  | separateIntroduction => "separate_introduction"

/-- Character styles that become spans of their own name. -/
def characterStyles : List String :=
  ["add", "bd", "bk", "dc", "em", "fdc", "ft", "fq", "fqa", "fr", "fv", "it", "k", "nd", "ord",
    "pn", "qac", "qs", "sc", "qt", "sls", "tl", "wj", "xdc", "xo", "xt"]

def isSpan (event : Event) : Bool := Text.startsWith event.payload "span"

def isCharacterSpan (event : Event) : Bool :=
  isSpan event && (event.segment? 1).any characterStyles.contains

def opensLabel (event : Event) (stem : String) : Bool :=
  event.opensScope && (event.labelAfter? stem).isSome

def accepts (profile : Profile) (event : Event) : Rule → Bool
  | startDocument | startBlock | token => true
  | followBlockGraft => ["title", "heading", "introduction"].contains event.subType
  | endTitleBlock => event.sequence == .title
  | endHeadingBlock => event.sequence == .heading
  | endNoteBlock =>
    event.sequence == .footnote || (profile.xrefNotes && event.sequence == .xref)
  | endParagraphBlock => event.sequence == .main || event.sequence == .introduction
  | chapter => opensLabel event "chapter"
  | pubChapter => opensLabel event "pubChapter"
  | verses => opensLabel event "verses"
  | pubVerse => opensLabel event "pubVerse"
  | glossaryLemma =>
    event.opensScope && Text.startsWith event.payload "attribute/spanWithAtts/w/lemma"
  | altChapter => opensLabel event "altChapter"
  | characterSpan => isCharacterSpan event
  | tableCell => Text.startsWith event.payload "cell/"
  | glossaryWord => event.payload == "spanWithAtts/w"
  | unhandledSpan => isSpan event
  | noteGraft => event.subType == "footnote" || (profile.xrefNotes && event.subType == "xref")
  | composeDocument => event.sequence == .main
  | separateIntroduction => event.sequence == .introduction

/-- The rules of a profile for one kind of event, the preferred ones first. -/
def forKind (profile : Profile) : EventKind → List Rule
  | .documentStart => [startDocument]
  | .blockGraft => [followBlockGraft]
  | .blockStart => [startBlock]
  | .blockEnd => [endTitleBlock, endHeadingBlock, endNoteBlock, endParagraphBlock]
  | .scope =>
    (if profile.chapters then [chapter, pubChapter] else []) ++
      (if profile.verses then [verses, pubVerse] else []) ++
      (if profile.glossaryLinks then [glossaryLemma] else []) ++
      (if profile.chapters then [altChapter] else []) ++
      [characterSpan] ++
      (if profile.tableCells then [tableCell] else []) ++
      (if profile.glossaryLinks then [glossaryWord] else []) ++
      [unhandledSpan]
  | .token => [token]
  | .inlineGraft => [noteGraft]
  | .sequenceEnd =>
    composeDocument :: (if profile.introductionSeparator then [separateIntroduction] else [])

def select? (profile : Profile) (event : Event) : Option Rule :=
  (forKind profile event.kind).find? (accepts profile event)

end Rule
end Scriptorium
