import Scriptorium.Command.Host
import Scriptorium.Command.Request
import Scriptorium.Interchange.Document
import Scriptorium.Json.Reading
import Scriptorium.Rendering

/-! The command itself: it loads the plan, renders the documents of the input, and writes the
pages below the output directory. -/
namespace Scriptorium.Command

def readDocuments? (text : String) : Option (List Document) :=
  (Json.read? text).bind (Datum.list? Document.read?)

/-- Remarks on the progress of a rendering are kept from the user. -/
def isShown : Level → Bool
  | .debug => false
  | .info | .warn | .error => true

section Steps
variable {m : Type → Type} [Monad m] (host : Host m)

def loadPlan (config : Option String) : ExceptT String m (Option Plan) := do
  let home ← host.environment ["HOME"]
  let path := config.getD (Plan.homePath home)
  let source ← host.fetch path
  match Plan.parse source with
  | .error failure => throw (failure.message path)
  | .ok none =>
    if config.isSome then throw ("Config file " ++ path ++ " not found")
    else host.tell .info ("No config at " ++ path ++ ", using defaults")
    return none
  | .ok (some plan) =>
    host.tell .info ("Config path: " ++ path)
    let environment ← host.environment ("HOME" :: Expansion.names plan.outputDir.toList)
    return some (plan.located environment)

def outputDir (plan : Option Plan) (out : Option String) : Except String String :=
  match out, plan with
  | some out, _ => .ok out
  | none, some plan => .ok plan.outputDir
  | none, none => .error "No output directory: pass --out or set output_dir in the config"

def settings (plan : Option Plan) : Except String Settings :=
  match plan with
  | none => .ok {}
  | some plan => plan.settings?.mapError Plan.keyMessage

def loadDocuments (input : String) : ExceptT String m (List Document) := do
  let source ← host.fetch input
  match source with
  | .text content => match readDocuments? content with
    | some documents => return documents
    | none => throw ("Failed to parse documents in " ++ input)
  | _ => throw ("Failed to read input " ++ input)

def writePages (folder : String) : List (String × String) → ExceptT String m Unit
  | [] => return
  | (key, markup) :: rest => do
    let path := Path.join folder key
    let made ← host.makeFolders (Path.parent path)
    if !made then throw ("Failed to create " ++ Path.parent path)
    let written ← host.write path markup
    if !written then throw ("Failed to write " ++ path)
    writePages folder rest

def reportAll : List (Level × String) → m Unit
  | [] => return
  | (level, message) :: rest => do
    if isShown level then host.tell level message
    reportAll rest

def titleMessages (edition : Edition) : List (Level × String) :=
  edition.titles.entries.map fun (book, titles) =>
    (.info, book ++ ": " ++ titles.long ++ " (" ++ titles.abbreviation ++ ")")

def countMessages (edition : Edition) (folder : String) : List (Level × String) :=
  (if edition.log.toList.isEmpty then []
    else [(.info, toString edition.log.toList.length ++ " warning(s) while rendering")]) ++
    [(.info, "Wrote " ++ toString edition.pages.entries.length ++ " file(s) to " ++ folder)]

/-- The books that could not be rendered. -/
def failedBooks (results : List (String × Except Failure Page)) : List String :=
  results.filterMap fun (book, result) => match result with
    | .ok _ => none
    | .error _ => some book

def render (config : Option String) (input : String) (out : Option String) :
    ExceptT String m (List String) := do
  let plan ← loadPlan host config
  let folder ← ExceptT.mk (pure (outputDir plan out))
  let settings ← ExceptT.mk (pure (settings plan))
  let documents ← loadDocuments host input
  host.tell .info ("Rendering " ++ toString documents.length ++ " document(s) from " ++ input)
  let (results, edition) := Document.renderAll settings documents {}
  ExceptT.lift (reportAll host edition.journal.toList)
  writePages host folder edition.pages.entries
  ExceptT.lift (reportAll host (titleMessages edition ++ countMessages edition folder))
  return failedBooks results

def versionText : String := "scripture-epub-cli 0.1.0\n"

def usage : String :=
  "Render scripture markup events to EPUB XHTML\n\n" ++
  "Usage: scripture-epub-cli render [--config TOML] --input JSON [--out DIR]\n"

/-- Run a command line and give its exit code. -/
def run (words : List String) : m UInt32 :=
  match readWords words with
  | .version => do
    host.print versionText
    return 0
  | .help => do
    host.print usage
    return 0
  | .misuse => return 2
  | .render config input out => do
    match ← (render host config input out).run with
    | .error message =>
      host.tell .error message
      return 1
    | .ok [] => return 0
    | .ok failed =>
      host.tell .error
        (toString failed.length ++ " document(s) failed: " ++ ", ".intercalate failed)
      return 1

end Steps
end Scriptorium.Command
