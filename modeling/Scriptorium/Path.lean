import Scriptorium.Text.Segment

/-! Paths of files as text. A dot or nothing between two slashes is no step of its own, but at the
front a slash stands for the root and a dot for the place where one is. -/
namespace Scriptorium.Path

def isStep (part : String) : Bool := !part.isEmpty && part != "."

/-- The steps of a path and whether it starts at the root. -/
def parts (path : String) : Bool × List String :=
  match Text.segments path with
  | [] => (false, [])
  | first :: rest =>
    let named := rest.filter isStep
    (!path.isEmpty && first.isEmpty, if first.isEmpty then named else first :: named)

def join (folder name : String) : String :=
  match folder.toList.getLast? with
  | none => name
  | some '/' => folder ++ name
  | some _ => folder ++ "/" ++ name

/-- The front of a path that is no step, and what follows it. -/
def front : List Char → List Char × List Char
  | '/' :: rest => (['/'], rest)
  | ['.'] => (['.'], [])
  | '.' :: '/' :: rest => (['.'], '/' :: rest)
  | cs => ([], cs)

def dropIdle (parts : List String) : List String :=
  (parts.reverse.dropWhile fun part => !isStep part).reverse

/-- The path without its last step, and without what follows the step before. -/
def parent (path : String) : String :=
  let (front, rest) := front path.toList
  let above := (dropIdle (Text.segments (String.ofList rest))).dropLast
  String.ofList front ++ "/".intercalate (dropIdle above)

/-- Whether a file system takes a path: names have up to 255 bytes, the whole path up to 4095,
and the character that ends a path in memory is not in it. -/
def isAdmitted (path : String) : Bool :=
  path.utf8ByteSize ≤ 4095 && !path.toList.contains '\x00' &&
    (Text.segments path).all fun part => part.utf8ByteSize ≤ 255

end Scriptorium.Path
