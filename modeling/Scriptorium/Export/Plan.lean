import Scriptorium.Export.Expansion
import Scriptorium.Interchange.Settings
import Scriptorium.Path
import Scriptorium.Text.Blank
import Scriptorium.Toml.Writing

/-! The plan of an export: where the pages go, how they are laid out, and the glossary. A plan
is kept in a TOML file, in which the asides are keyed by numerals. -/
namespace Scriptorium

structure Plan where
  outputDir : String
  layout : Layout := {}
  terms : Index String UInt32 := ∅
  asides : Index String String := ∅
  deriving DecidableEq

namespace Plan

/-- A numeral in the file with blanks around it, a plus sign or leading zeros still names its
entry; of several that name one entry the last in order counts. -/
def settingsOf? (layout : Layout) (terms : Index String UInt32) :
    List (String × String) → Index UInt32 String → Except String Settings
  | [], asides => .ok ⟨layout,terms,asides⟩
  | (key, aside) :: rest, asides => match Text.looseWord? (Text.trim key) with
    | some entry => settingsOf? layout terms rest (asides.insert entry aside)
    | none => .error key

/-- The settings of a plan, or the first aside key that is no numeral. -/
def settings? (plan : Plan) : Except String Settings :=
  settingsOf? plan.layout plan.terms plan.asides.entries ∅

def keyMessage (key : String) : String :=
  "Glossary aside key '" ++ key ++ "' is not a glossary index"

def layoutFields : List String :=
  ["french_spacing", "text_direction", "reversed_document_ids", "custom_css"]

def readLayout? (format : Format) (datum : Datum) : Option Layout := do
  let fields ← datum.fields? format layoutFields
  let frenchSpacing ← Datum.defaulted? fields "french_spacing" (FrenchSpacing.read? format) .off
  let direction ← Datum.defaulted? fields "text_direction" (Direction.read? format) .ltr
  let reversedBooks ← Datum.defaulted? fields "reversed_document_ids" Datum.names? ∅
  let customCss ← Datum.defaulted? fields "custom_css" Datum.bool? false
  return ⟨frenchSpacing,direction,reversedBooks,customCss⟩

def readGlossary? (format : Format) (datum : Datum) :
    Option (Index String UInt32 × Index String String) := do
  let fields ← datum.fields? format ["terms", "asides"]
  let terms ← Datum.defaulted? fields "terms" Datum.terms? ∅
  let asides ← Datum.defaulted? fields "asides" (fun datum => (datum.members? Datum.string?).map Index.ofList) ∅
  return (terms, asides)

def read? (format : Format) (datum : Datum) : Option Plan := do
  let fields ← datum.fields? format ["output_dir", "render", "glossary"]
  let outputDir ← Datum.required? fields "output_dir" Datum.string?
  let layout ← Datum.defaulted? fields "render" (readLayout? format) {}
  let (terms, asides) ← Datum.defaulted? fields "glossary" (readGlossary? format) (∅, ∅)
  return ⟨outputDir,layout,terms,asides⟩

def layoutDatum (layout : Layout) : Datum :=
  .record [("french_spacing", .text layout.frenchSpacing.name),
    ("text_direction", .text layout.direction.name),
    ("reversed_document_ids", .list (layout.reversedBooks.keys.map .text)),
    ("custom_css", .truth layout.customCss)]

def glossaryDatum (plan : Plan) : Datum :=
  .record [
    ("terms", .record (plan.terms.entries.map fun (term, entry) => (term, .natural entry.toNat))),
    ("asides", .record (plan.asides.entries.map fun (key, aside) => (key, .text aside)))]

def datum (plan : Plan) : Datum :=
  .record [("output_dir", .text plan.outputDir), ("render", layoutDatum plan.layout),
    ("glossary", plan.glossaryDatum)]

/-- The plan as the text of its file. -/
def write (plan : Plan) : String :=
  Toml.assignment "output_dir" (Toml.quote plan.outputDir) ++
    Toml.header "render" ++
    Toml.assignment "french_spacing" (Toml.quote plan.layout.frenchSpacing.name) ++
    Toml.assignment "text_direction" (Toml.quote plan.layout.direction.name) ++
    Toml.assignment "reversed_document_ids"
      (Toml.writeList (plan.layout.reversedBooks.keys.map Toml.quote)) ++
    Toml.assignment "custom_css" (Toml.writeTruth plan.layout.customCss) ++
    Toml.header "glossary.terms" ++
    String.join (plan.terms.entries.map fun (term, entry) =>
      Toml.assignment (Toml.writeKey term) (toString entry.toNat)) ++
    Toml.header "glossary.asides" ++
    String.join (plan.asides.entries.map fun (key, aside) =>
      Toml.assignment (Toml.writeKey key) (Toml.quote aside))

/-- What a path leads to. -/
inductive Source
  | missing
  | unreadable
  | text (content : String)
  deriving DecidableEq

inductive LoadFailure
  | unreadable | malformed
  deriving DecidableEq, Repr

def LoadFailure.message (path : String) : LoadFailure → String
  | unreadable => "Failed to read config file at " ++ path
  | malformed => "Failed to parse config file at " ++ path

/-- The bytes of a file are text only when they are UTF-8. -/
def Source.ofBytes (bytes : ByteArray) : Source :=
  match String.fromUTF8? bytes with
  | some content => .text content
  | none => .unreadable

section Loading
variable (read? : String → Option Plan) (full? : String → Option String)

/-- The plan as it stands in a file; none when there is no file. -/
def parseBy : Source → Except LoadFailure (Option Plan)
  | .missing => .ok none
  | .unreadable => .error .unreadable
  | .text content => match read? content with
    | none => .error .malformed
    | some plan => .ok (some plan)

/-- The plan with its output directory expanded. A path without an expansion stays as it is. -/
def locatedBy (plan : Plan) : Plan := {plan with outputDir := (full? plan.outputDir).getD plan.outputDir}

def loadBy (source : Source) : Except LoadFailure (Option Plan) :=
  (parseBy read? source).map fun plan => plan.map (locatedBy full?)

end Loading

/-- The plan that the text of a file says. -/
def readText? (content : String) : Option Plan := (Toml.read? content).bind (read? .toml)

def parse : Source → Except LoadFailure (Option Plan) := parseBy readText?

def located (plan : Plan) (environment : Expansion.Environment) : Plan :=
  plan.locatedBy (Expansion.full? environment)

def load (environment : Expansion.Environment) : Source → Except LoadFailure (Option Plan) :=
  loadBy readText? (Expansion.full? environment)

/-- Whether two plans say the same, their output directories compared as paths. -/
def agrees (first second : Plan) : Bool :=
  Path.parts first.outputDir == Path.parts second.outputDir &&
    first == {second with outputDir := first.outputDir}

/-- Where the plan is kept when no other file is named. -/
def homePath (environment : Expansion.Environment) : String :=
  String.ofList (Expansion.tilde environment.home "~/.config/scripture-epub".toList) ++ "/config.toml"

end Plan
end Scriptorium
