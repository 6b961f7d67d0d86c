import Scriptorium.Document
import Scriptorium.Interchange.Event

/-! Documents and their headers as data. Headers other than the book code may be missing or
null; profile and sequences may be missing. -/
namespace Scriptorium

namespace Headers

def fieldNames : List String := ["bookCode", "h", "toc", "toc2", "toc3", "periphTitle"]

def read? (datum : Datum) : Option Headers := do
  let fields ← datum.fields? .json fieldNames
  let header (name : String) := Datum.defaulted? fields name (Datum.optional? Datum.string?) none
  let bookCode ← Datum.required? fields "bookCode" Datum.string?
  let h ← header "h"
  let toc ← header "toc"
  let toc2 ← header "toc2"
  let toc3 ← header "toc3"
  let periphTitle ← header "periphTitle"
  return ⟨bookCode,h,toc,toc2,toc3,periphTitle⟩

def headerDatum : Option String → Datum
  | none => .null
  | some value => .text value

def datum (headers : Headers) : Datum :=
  .record [("bookCode", .text headers.bookCode), ("h", headerDatum headers.h),
    ("toc", headerDatum headers.toc), ("toc2", headerDatum headers.toc2),
    ("toc3", headerDatum headers.toc3), ("periphTitle", headerDatum headers.periphTitle)]

end Headers

namespace ProfileKind

def name : ProfileKind → String
  | canonical => "canonical"
  | peripheral => "peripheral"

def ofName? (name : String) : Option ProfileKind :=
  [canonical, peripheral].find? fun kind => kind.name == name

def read? (datum : Datum) : Option ProfileKind := (datum.choice? .json).bind ofName?

end ProfileKind

namespace Document

def fieldNames : List String := ["headers", "profile", "events", "sequences"]

def readSequences? (datum : Datum) : Option (Index String (List Event)) :=
  (datum.members? (Datum.list? Event.read?)).map Index.ofList

def read? (datum : Datum) : Option Document := do
  let fields ← datum.fields? .json fieldNames
  let headers ← Datum.required? fields "headers" Headers.read?
  let profile ← Datum.defaulted? fields "profile" ProfileKind.read? .canonical
  let events ← Datum.required? fields "events" (Datum.list? Event.read?)
  let sequences ← Datum.defaulted? fields "sequences" readSequences? ∅
  return ⟨headers,profile,events,sequences⟩

def eventsDatum (events : List Event) : Datum := .list (events.map Event.datum)

def datum (document : Document) : Datum :=
  .record [("headers", document.headers.datum), ("profile", .text document.profile.name),
    ("events", eventsDatum document.events),
    ("sequences", .record (document.sequences.entries.map fun (name, events) => (name, eventsDatum events)))]

end Document
end Scriptorium
