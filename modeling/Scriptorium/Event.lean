import Scriptorium.Text.Segment

/-! The events of a markup stream. Nesting is not a tree but pairs of events: blocks and
scopes are opened and closed, and a graft stands where another sequence belongs. -/
namespace Scriptorium

inductive EventKind
  | documentStart | sequenceEnd | blockGraft | inlineGraft | blockStart | blockEnd | scope | token
  deriving DecidableEq, Repr

/-- The sort of sequence that an event stands in; `other` is any sort without rules. -/
inductive SequenceKind
  | main | introduction | title | heading | footnote | xref
  | other (name : String)
  deriving DecidableEq, Repr

/-- The payload is a path of segments; of a block it is the block's scope, of a graft the
name of the grafted sequence, of a token its text. -/
structure Event where
  kind : EventKind
  subType : String := ""
  payload : String := ""
  sequence : SequenceKind := .main
  deriving DecidableEq, Repr

namespace EventKind

def all : List EventKind :=
  [.documentStart, .sequenceEnd, .blockGraft, .inlineGraft, .blockStart, .blockEnd, .scope, .token]

/-- The kind as a report names it. -/
def title : EventKind → String
  | documentStart => "DocumentStart"
  | sequenceEnd => "SequenceEnd"
  | blockGraft => "BlockGraft"
  | inlineGraft => "InlineGraft"
  | blockStart => "BlockStart"
  | blockEnd => "BlockEnd"
  | scope => "Scope"
  | token => "Token"

end EventKind

namespace Event

def documentStart : Event := ⟨.documentStart,"","",.main⟩
def sequenceEnd (sequence : SequenceKind) : Event := ⟨.sequenceEnd,"","",sequence⟩
def blockStart (sequence : SequenceKind) (scope : String) : Event := ⟨.blockStart,"",scope,sequence⟩
def blockEnd (sequence : SequenceKind) (scope : String) : Event := ⟨.blockEnd,"",scope,sequence⟩
def scopeStart (sequence : SequenceKind) (path : String) : Event := ⟨.scope,"start",path,sequence⟩
def scopeEnd (sequence : SequenceKind) (path : String) : Event := ⟨.scope,"end",path,sequence⟩
def token (sequence : SequenceKind) (subType text : String) : Event := ⟨.token,subType,text,sequence⟩
def word (sequence : SequenceKind) (text : String) : Event := token sequence "wordLike" text
def punctuation (sequence : SequenceKind) (text : String) : Event := token sequence "punctuation" text
def lineSpace (sequence : SequenceKind) : Event := token sequence "lineSpace" " "
def inlineGraft (sequence : SequenceKind) (subType target : String) : Event :=
  ⟨.inlineGraft,subType,target,sequence⟩
def blockGraft (sequence : SequenceKind) (subType target : String) : Event :=
  ⟨.blockGraft,subType,target,sequence⟩

def opensScope (event : Event) : Bool := event.subType == "start"

/-- Tokens of these two sorts are shown as one space, whatever their text. -/
def isSpaceType (subType : String) : Bool := subType == "lineSpace" || subType == "eol"

def isSpaceToken (event : Event) : Bool := event.kind == .token && isSpaceType event.subType

/-- A token that a waiting chapter or verse label is placed before. -/
def isContent (event : Event) : Bool :=
  event.kind == .token && event.sequence == .main && !isSpaceType event.subType

def segment? (event : Event) (index : Nat) : Option String := Text.segment? event.payload index
def lastSegment (event : Event) : String := Text.lastSegment event.payload
def labelAfter? (event : Event) (stem : String) : Option String := Text.labelAfter? event.payload stem
def graftTarget (event : Event) : String := event.payload

end Event
end Scriptorium
