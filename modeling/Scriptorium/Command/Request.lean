/-! What a command line asks for. The words are gone through from the left: help and the version
are given as soon as they are asked for, and a word that does not fit ends the reading. -/
namespace Scriptorium.Command

structure Request where
  config : Option String := none
  input : Option String := none
  out : Option String := none
  deriving DecidableEq, Repr

/-- A rendering that is asked for has its input. -/
inductive Invocation
  | version | help | misuse
  | render (config : Option String) (input : String) (out : Option String)
  deriving DecidableEq, Repr

inductive Field
  | config | input | out
  deriving DecidableEq, Repr

namespace Request

def field? (request : Request) : Field → Option String
  | .config => request.config
  | .input => request.input
  | .out => request.out

def set (request : Request) (value : String) : Field → Request
  | .config => {request with config := some value}
  | .input => {request with input := some value}
  | .out => {request with out := some value}

/-- A field is given once, and not with an empty value. -/
def give? (request : Request) (field : Field) (value : String) : Option Request :=
  if value.isEmpty || (request.field? field).isSome then none else some (request.set value field)

def invocation (request : Request) : Invocation :=
  match request.input with
  | some input => .render request.config input request.out
  | none => .misuse

end Request

def longField? (name : List Char) : Option Field :=
  if name == "config".toList then some .config
  else if name == "input".toList then some .input
  else if name == "out".toList then some .out
  else none

def shortField? : Char → Option Field
  | 'c' => some .config
  | 'i' => some .input
  | 'o' => some .out
  | _ => none

/-- How a word begins an option: its field with the value that is attached to it, or a call
for help. -/
inductive Opening
  | help
  | field (field : Field) (attached : Option (List Char))
  | unknown
  deriving DecidableEq, Repr

def opening (word : List Char) : Opening :=
  match word with
  | '-' :: '-' :: long =>
    let name := long.takeWhile (· != '=')
    let attached := match long.dropWhile (· != '=') with
      | _ :: value => some value
      | [] => none
    if name == "help".toList then (if attached.isNone then .help else .unknown)
    else match longField? name with
      | some field => .field field attached
      | none => .unknown
  | '-' :: 'h' :: _ => .help
  | '-' :: c :: value => match shortField? c, value with
    | none, _ => .unknown
    | some field, [] => .field field none
    | some field, '=' :: value => .field field (some value)
    | some field, value => .field field (some value)
  | _ => .unknown

/-- A word that can be the value of the option before it. -/
def isValue (word : String) : Bool :=
  match word.toList with
  | '-' :: _ :: _ => false
  | _ => true

def readRender : Request → List String → Invocation
  | request, [] => request.invocation
  | request, ["--"] => request.invocation
  | request, word :: rest => match opening word.toList, rest with
    | .help, _ => .help
    | .unknown, _ => .misuse
    | .field field (some value), rest => match request.give? field (String.ofList value) with
      | some request => readRender request rest
      | none => .misuse
    | .field _ none, [] => .misuse
    | .field field none, value :: rest =>
      if isValue value then
        match request.give? field value with
        | some request => readRender request rest
        | none => .misuse
      else .misuse

def readHelp : List String → Invocation
  | [] | ["render"] | ["help"] => .help
  | _ => .misuse

def readWords : List String → Invocation
  | "render" :: rest => readRender {} rest
  | "help" :: rest => readHelp rest
  | word :: _ => match word.toList with
    | '-' :: 'V' :: _ => .version
    | '-' :: 'h' :: _ => .help
    | cs =>
      if cs == "--version".toList then .version
      else if cs == "--help".toList then .help
      else .misuse
  | [] => .misuse

end Scriptorium.Command
