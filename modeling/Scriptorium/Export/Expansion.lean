import Scriptorium.Index
import Scriptorium.Text.Alphanumeric

/-! Variables and the home directory in a path. The path is gone through once, so what a
variable brings in is not expanded again; when a variable has no value and no default, the
path has no expansion. -/
namespace Scriptorium.Expansion

/-- The values of the variables, and the directory that the system keeps for the user. -/
structure Environment where
  values : Index String String
  login : Option String := none

namespace Environment

instance : Coe (Index String String) Environment := ⟨fun values => ⟨values,none⟩⟩

/-- The variable HOME names the home directory unless it is empty. -/
def home (environment : Environment) : Option String :=
  match environment.values.find? "HOME" with
  | some home => if home.isEmpty then environment.login else some home
  | none => environment.login

def merge (environment : Environment) (values : Index String String) : Environment :=
  {environment with values := environment.values.merge values}

end Environment

/-- The environment is searched for a line of the name, an equals sign and the value. So a name
with an equals sign in it is found where a value goes on as the name does. -/
def value? (values : Index String String) (name : List Char) : Option (List Char) :=
  values.entries.findSome? fun (known, value) =>
    (name ++ ['=']).isPrefixOf? (known.toList ++ '=' :: value.toList)

def isNameChar (c : Char) : Bool := Text.isAlphanumeric c || c == '_'

/-- The text before a mark and the text after it. -/
def splitAtMark? (mark : List Char) : List Char → Option (List Char × List Char)
  | [] => if mark.isEmpty then some ([], []) else none
  | c :: rest => match mark.isPrefixOf? (c :: rest) with
    | some after => some ([], after)
    | none => (splitAtMark? mark rest).map fun (before, after) => (c :: before, after)

/-- What stands between braces: a name, perhaps with a default for when it has no value. -/
def nameAndDefault (inside : List Char) : List Char × Option (List Char) :=
  match splitAtMark? [':', '-'] inside with
  | some (c :: name, default) => (c :: name, some default)
  | _ => (inside, none)

def braced? (values : Index String String) (inside : List Char) : Option (List Char) :=
  let (name, default) := nameAndDefault inside
  match value? values name with
  | some value => some value
  | none => default

/-- The names after every dollar sign, those of the variables of the path among them. -/
def names : List Char → List String
  | [] => []
  | '$' :: '\x7b' :: rest => match splitAtMark? ['\x7d'] rest with
    | some (inside, _) => String.ofList (nameAndDefault inside).1 :: names rest
    | none => names rest
  | '$' :: rest => String.ofList (rest.takeWhile isNameChar) :: names rest
  | _ :: rest => names rest

/-- The path with its variables replaced. The count bounds the steps, of which each takes at
least one character. -/
def substitute? (values : Index String String) : Nat → List Char → Option (List Char)
  | 0, cs => some cs
  | _ + 1, [] => some []
  | count + 1, '$' :: '\x7b' :: rest =>
    match splitAtMark? ['\x7d'] rest with
    | some (inside, after) => do
      let value ← braced? values inside
      return value ++ (← substitute? values count after)
    | none => (substitute? values count rest).map ('$' :: '\x7b' :: ·)
  | count + 1, '$' :: '$' :: rest => (substitute? values count rest).map ('$' :: ·)
  | count + 1, '$' :: rest =>
    let name := rest.takeWhile isNameChar
    if name.isEmpty then (substitute? values count rest).map ('$' :: ·)
    else do
      let value ← value? values name
      return value ++ (← substitute? values count (rest.dropWhile isNameChar))
  | count + 1, c :: rest => (substitute? values count rest).map (c :: ·)

/-- A tilde alone or before a slash stands for the home directory. -/
def tilde (home : Option String) (cs : List Char) : List Char :=
  match cs, home with
  | ['~'], some home => home.toList
  | '~' :: '/' :: rest, some home => home.toList ++ '/' :: rest
  | _, _ => cs

/-- The path expanded. A tilde that a variable brought to the front is no home directory. -/
def full? (environment : Environment) (path : String) : Option String :=
  let cs := path.toList
  (substitute? environment.values cs.length cs).map fun expanded =>
    String.ofList (if cs.head? = some '~' then tilde environment.home expanded else expanded)

end Scriptorium.Expansion
