import Scriptorium.Datum
import Scriptorium.Settings
import Scriptorium.Text.Decimal

/-! Settings as data. Every member may be missing; entry numbers are words of 32 bits, and as
names of members they are decimal numerals. -/
namespace Scriptorium

def FrenchSpacing.ofName? (name : String) : Option FrenchSpacing :=
  [off, add, change].find? fun spacing => spacing.name == name

def FrenchSpacing.read? (format : Format) (datum : Datum) : Option FrenchSpacing :=
  (datum.choice? format).bind ofName?

def Direction.ofName? (name : String) : Option Direction :=
  [ltr, rtl].find? fun direction => direction.name == name

def Direction.read? (format : Format) (datum : Datum) : Option Direction :=
  (datum.choice? format).bind ofName?

namespace Datum

def word? : Datum → Option UInt32
  | natural n => Text.word? n
  | _ => none

def names? (datum : Datum) : Option (Index String Unit) :=
  (datum.list? string?).map fun names => Index.ofList (names.map fun name => (name, ()))

def terms? (datum : Datum) : Option (Index String UInt32) := (datum.members? word?).map Index.ofList

end Datum

namespace Settings

def fieldNames : List String :=
  ["glossaryTerms", "glossaryNToAside", "frenchSpacing", "textDirection", "reversedDocumentIds",
    "customCss"]

def readAsides? (datum : Datum) : Option (Index UInt32 String) := do
  let members ← datum.members? Datum.string?
  let entries ← members.mapM fun member =>
    (Text.strictWord? member.1).map fun entry => (entry, member.2)
  return Index.ofList entries

def read? (datum : Datum) : Option Settings := do
  let fields ← datum.fields? .json fieldNames
  let terms ← Datum.defaulted? fields "glossaryTerms" Datum.terms? ∅
  let asides ← Datum.defaulted? fields "glossaryNToAside" readAsides? ∅
  let frenchSpacing ← Datum.defaulted? fields "frenchSpacing" (FrenchSpacing.read? .json) .off
  let direction ← Datum.defaulted? fields "textDirection" (Direction.read? .json) .ltr
  let reversedBooks ← Datum.defaulted? fields "reversedDocumentIds" Datum.names? ∅
  let customCss ← Datum.defaulted? fields "customCss" Datum.bool? false
  return ⟨⟨frenchSpacing,direction,reversedBooks,customCss⟩,terms,asides⟩

def datum (settings : Settings) : Datum :=
  .record [
    ("glossaryTerms",
      .record (settings.terms.entries.map fun (term, entry) => (term, .natural entry.toNat))),
    ("glossaryNToAside",
      .record (settings.asides.entries.map fun (entry, aside) => (toString entry.toNat, .text aside))),
    ("frenchSpacing", .text settings.layout.frenchSpacing.name),
    ("textDirection", .text settings.layout.direction.name),
    ("reversedDocumentIds", .list (settings.layout.reversedBooks.keys.map .text)),
    ("customCss", .truth settings.layout.customCss)]

end Settings
end Scriptorium
