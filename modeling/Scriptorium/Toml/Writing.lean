import Scriptorium.Datum
import Scriptorium.Json.Writing
import Scriptorium.Toml.Reading

/-! TOML text of keys, strings and lists. A string is written in the plainest quotes that
need no escape in it; escapes are used only where none will do. -/
namespace Scriptorium.Toml

/-- Characters that cannot stand in a string but as an escape. -/
def needsEscape (c : Char) : Bool := isControl c && c != '\n'

/-- Whether so many of a quote stand next to each other. -/
def hasRun (quote : Char) (count : Nat) : List Char → Bool
  | [] => false
  | c :: rest => (List.replicate count quote).isPrefixOf (c :: rest) || hasRun quote count rest

def unicodeEscape (c : Char) : List Char :=
  ['\\', 'u', '0', '0', (Json.hexDigit (c.toNat / 16)).toUpper, (Json.hexDigit (c.toNat % 16)).toUpper]

def escapeChar (c : Char) : List Char :=
  match c with
  | '\x08' => ['\\', 'b']
  | '\t' => ['\\', 't']
  | '\x0c' => ['\\', 'f']
  | '\r' => ['\\', 'r']
  | '\n' => ['\\', 'n']
  | '\\' => ['\\', '\\']
  | '"' => ['\\', '"']
  | c => if isControl c then unicodeEscape c else [c]

/-- Inside three quotes a line end stands as it is, and only a third quote in a row needs an
escape. -/
def escapeLong : Nat → List Char → List Char
  | _, [] => []
  | quotes, '"' :: rest =>
    if quotes < 2 then '"' :: escapeLong (quotes + 1) rest else '\\' :: '"' :: escapeLong 0 rest
  | _, '\n' :: rest => '\n' :: escapeLong 0 rest
  | _, c :: rest => escapeChar c ++ escapeLong 0 rest

def between (quotes : String) (cs : List Char) : String := quotes ++ String.ofList cs ++ quotes

def lineBreak (cs : List Char) : List Char := if cs.contains '\n' then ['\n'] else []

def longBasic (cs : List Char) : String :=
  between "\"\"\"" (lineBreak cs ++ cs.flatMap fun c => if c = '\t' then ['\\', 't'] else [c])

def quote (text : String) : String :=
  let cs := text.toList
  let escaped := cs.any needsEscape
  let backslash := cs.contains '\\'
  let lines := cs.contains '\n'
  let single := cs.contains '\x27'
  let double := cs.contains '"'
  if !escaped && !backslash && !double && !lines then
    between "\"" (cs.flatMap fun c => if c = '\t' then ['\\', 't'] else [c])
  else if !escaped && !single && !lines then between "\x27" cs
  else if !escaped && !backslash && !hasRun '"' 3 cs then longBasic cs
  else if !escaped && !hasRun '\x27' 3 cs then between "\x27\x27\x27" (lineBreak cs ++ cs)
  else if lines then between "\"\"\"" ('\n' :: escapeLong 0 cs)
  else between "\"" (cs.flatMap escapeChar)

def writeKey (key : String) : String :=
  let cs := key.toList
  let escaped := cs.any isControl
  let backslash := cs.contains '\\'
  let single := cs.contains '\x27'
  let double := cs.contains '"'
  if !cs.isEmpty && cs.all isBareKey then key
  else if !escaped && !backslash && !double then
    between "\"" (cs.flatMap fun c => if c = '\t' then ['\\', 't'] else [c])
  else if !escaped && !single then between "\x27" cs
  else between "\"" (cs.flatMap escapeChar)

/-- A list of up to one value stays on its line; a longer one has a line for each value. -/
def writeList : List String → String
  | [] => "[]"
  | [value] => "[" ++ value ++ "]"
  | values => "[\n" ++ String.join (values.map fun value => "    " ++ value ++ ",\n") ++ "]"

def writeTruth : Bool → String
  | true => "true"
  | false => "false"

def assignment (key value : String) : String := key ++ " = " ++ value ++ "\n"

def header (path : String) : String := "\n[" ++ path ++ "]\n"

end Scriptorium.Toml
