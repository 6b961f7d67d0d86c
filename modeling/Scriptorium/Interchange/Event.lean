import Scriptorium.Datum
import Scriptorium.Event

/-! Events as data. Only the kind has to be given; a sequence of an unknown sort is kept under
the name that it is given. -/
namespace Scriptorium

def EventKind.name : EventKind → String
  | documentStart => "documentStart"
  | sequenceEnd => "sequenceEnd"
  | blockGraft => "blockGraft"
  | inlineGraft => "inlineGraft"
  | blockStart => "blockStart"
  | blockEnd => "blockEnd"
  | scope => "scope"
  | token => "token"

def EventKind.ofName? (name : String) : Option EventKind := all.find? fun kind => kind.name == name

def EventKind.read? (datum : Datum) : Option EventKind := (datum.choice? .json).bind ofName?

namespace SequenceKind

def name : SequenceKind → String
  | main => "main"
  | introduction => "introduction"
  | title => "title"
  | heading => "heading"
  | footnote => "footnote"
  | xref => "xref"
  | other name => name

def known : List SequenceKind := [main, introduction, title, heading, footnote, xref]

def known? (name : String) : Option SequenceKind := known.find? fun kind => kind.name == name

def read? (datum : Datum) : Option SequenceKind :=
  match (datum.choice? .json).bind known? with
  | some kind => some kind
  | none => datum.string?.map other

end SequenceKind

namespace Event

def fieldNames : List String := ["kind", "subType", "payload", "sequence"]

def read? (datum : Datum) : Option Event := do
  let fields ← datum.fields? .json fieldNames
  let kind ← Datum.required? fields "kind" EventKind.read?
  let subType ← Datum.defaulted? fields "subType" Datum.string? ""
  let payload ← Datum.defaulted? fields "payload" Datum.string? ""
  let sequence ← Datum.defaulted? fields "sequence" SequenceKind.read? .main
  return ⟨kind,subType,payload,sequence⟩

def datum (event : Event) : Datum :=
  .record [("kind", .text event.kind.name), ("subType", .text event.subType),
    ("payload", .text event.payload), ("sequence", .text event.sequence.name)]

end Event
end Scriptorium
