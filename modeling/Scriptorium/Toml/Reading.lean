import Scriptorium.Toml.Scalar
import Scriptorium.Toml.Table

/-! TOML text read as data, in version 1.1. The statements are read first, each on its line, and
then fill the tables that they name. -/
namespace Scriptorium.Toml

def isControl (c : Char) : Bool := (c.toNat < 0x20 && c != '\t') || c.toNat == 0x7F

def isBlank (c : Char) : Bool := c == ' ' || c == '\t'

def skipBlanks (cs : List Char) : List Char := cs.dropWhile isBlank

/-- Skip blanks, line ends and comments. -/
def skipVoid? : Bool → List Char → Option (List Char)
  | _, [] => some []
  | _, '\n' :: rest => skipVoid? false rest
  | _, '\r' :: '\n' :: rest => skipVoid? false rest
  | false, c :: rest =>
    if isBlank c then skipVoid? false rest
    else if c = '#' then skipVoid? true rest
    else some (c :: rest)
  | true, c :: rest => if isControl c then none else skipVoid? true rest

/-- The end of a statement: nothing but blanks and a comment up to the end of the line. -/
def lineEnd? (cs : List Char) : Option (List Char) :=
  match skipBlanks cs with
  | [] => some []
  | '\n' :: rest => some rest
  | '\r' :: '\n' :: rest => some rest
  | '#' :: rest => skipVoid? true rest
  | _ => none

def charOf? (code : Nat) : Option Char :=
  if code < 0xD800 ∨ (0xE000 ≤ code ∧ code < 0x110000) then some (Char.ofNat code) else none

def shortEscape? : Char → Option Char
  | '"' => some '"'
  | '\\' => some '\\'
  | 'b' => some '\x08'
  | 'e' => some '\x1b'
  | 'f' => some '\x0c'
  | 'n' => some '\n'
  | 'r' => some '\r'
  | 't' => some '\t'
  | _ => none

/-- A string in double quotes, up to its closing quote. -/
def basic? : List Char → Option (List Char × List Char)
  | [] => none
  | '"' :: rest => some ([], rest)
  | '\\' :: 'x' :: a :: b :: rest => do
    let char ← (Json.hexNumber? [a, b]).bind charOf?
    let (text, rest) ← basic? rest
    return (char :: text, rest)
  | '\\' :: 'u' :: a :: b :: c :: d :: rest => do
    let char ← (Json.hexNumber? [a, b, c, d]).bind charOf?
    let (text, rest) ← basic? rest
    return (char :: text, rest)
  | '\\' :: 'U' :: a :: b :: c :: d :: e :: f :: g :: h :: rest => do
    let char ← (Json.hexNumber? [a, b, c, d, e, f, g, h]).bind charOf?
    let (text, rest) ← basic? rest
    return (char :: text, rest)
  | '\\' :: c :: rest => do
    let char ← shortEscape? c
    let (text, rest) ← basic? rest
    return (char :: text, rest)
  | c :: rest =>
    if isControl c then none else (basic? rest).map fun (text, rest) => (c :: text, rest)

/-- A string in single quotes, up to its closing quote. -/
def literal? : List Char → Option (List Char × List Char)
  | [] => none
  | '\x27' :: rest => some ([], rest)
  | c :: rest =>
    if isControl c then none else (literal? rest).map fun (text, rest) => (c :: text, rest)

def endsLine (cs : List Char) : Bool :=
  match skipBlanks cs with
  | '\n' :: _ => true
  | '\r' :: '\n' :: _ => true
  | _ => false

/-- A string in three double quotes. Up to two quotes may stand before the closing ones; after
a backslash at the end of a line all blanks and line ends are passed over. -/
def longBasic? : Bool → List Char → Option (List Char × List Char)
  | _, [] => none
  | _, '"' :: '"' :: '"' :: '"' :: '"' :: rest => some (['"', '"'], rest)
  | _, '"' :: '"' :: '"' :: '"' :: rest => some (['"'], rest)
  | _, '"' :: '"' :: '"' :: rest => some ([], rest)
  | _, '\\' :: 'x' :: a :: b :: rest => do
    let char ← (Json.hexNumber? [a, b]).bind charOf?
    let (text, rest) ← longBasic? false rest
    return (char :: text, rest)
  | _, '\\' :: 'u' :: a :: b :: c :: d :: rest => do
    let char ← (Json.hexNumber? [a, b, c, d]).bind charOf?
    let (text, rest) ← longBasic? false rest
    return (char :: text, rest)
  | _, '\\' :: 'U' :: a :: b :: c :: d :: e :: f :: g :: h :: rest => do
    let char ← (Json.hexNumber? [a, b, c, d, e, f, g, h]).bind charOf?
    let (text, rest) ← longBasic? false rest
    return (char :: text, rest)
  | _, '\\' :: c :: rest =>
    if endsLine (c :: rest) then longBasic? true rest
    else do
      let char ← shortEscape? c
      let (text, rest) ← longBasic? false rest
      return (char :: text, rest)
  | skipping, '\r' :: '\n' :: rest =>
    if skipping then longBasic? true rest
    else (longBasic? false rest).map fun (text, rest) => ('\r' :: '\n' :: text, rest)
  | skipping, c :: rest =>
    if skipping && (isBlank c || c == '\n') then longBasic? true rest
    else if isControl c && c != '\n' then none
    else (longBasic? false rest).map fun (text, rest) => (c :: text, rest)

/-- A string in three single quotes. -/
def longLiteral? : List Char → Option (List Char × List Char)
  | [] => none
  | '\x27' :: '\x27' :: '\x27' :: '\x27' :: '\x27' :: rest => some (['\x27', '\x27'], rest)
  | '\x27' :: '\x27' :: '\x27' :: '\x27' :: rest => some (['\x27'], rest)
  | '\x27' :: '\x27' :: '\x27' :: rest => some ([], rest)
  | '\r' :: '\n' :: rest => (longLiteral? rest).map fun (text, rest) => ('\r' :: '\n' :: text, rest)
  | c :: rest =>
    if isControl c && c != '\n' then none
    else (longLiteral? rest).map fun (text, rest) => (c :: text, rest)

/-- A line end right after three opening quotes does not belong to the string. -/
def dropLineEnd : List Char → List Char
  | '\n' :: rest => rest
  | '\r' :: '\n' :: rest => rest
  | cs => cs

def quoted? : List Char → Option (List Char × List Char)
  | '"' :: '"' :: '"' :: rest => longBasic? false (dropLineEnd rest)
  | '"' :: rest => basic? rest
  | '\x27' :: '\x27' :: '\x27' :: rest => longLiteral? (dropLineEnd rest)
  | '\x27' :: rest => literal? rest
  | _ => none

def isBareKey (c : Char) : Bool := c.isAlphanum || c == '_' || c == '-'

def simpleKey? : List Char → Option (String × List Char)
  | '"' :: rest => (basic? rest).map fun (text, rest) => (String.ofList text, rest)
  | '\x27' :: rest => (literal? rest).map fun (text, rest) => (String.ofList text, rest)
  | cs =>
    let key := cs.takeWhile isBareKey
    if key.isEmpty then none else some (String.ofList key, cs.dropWhile isBareKey)

/-- A key of parts between dots, with the blanks around it. -/
def key? : Nat → List Char → Option (List String × List Char)
  | 0, _ => none
  | count + 1, cs => do
    let (part, rest) ← simpleKey? (skipBlanks cs)
    match skipBlanks rest with
    | '.' :: rest => (key? count rest).map fun (parts, rest) => (part :: parts, rest)
    | rest => return ([part], rest)

/-- A key has at most so many parts, and lists and braces nest at most so deep. -/
def depthLimit : Nat := 80

mutual

/-- A value. The first count bounds how deep lists and braces may still nest, the second the
steps, which are never more than twice the characters. -/
def value? : Nat → Nat → List Char → Option (Datum × List Char)
  | _, 0, _ => none
  | depth, steps + 1, cs => match cs, depth with
    | '"' :: rest, _ =>
      (quoted? ('"' :: rest)).map fun (text, rest) => (.text (String.ofList text), rest)
    | '\x27' :: rest, _ =>
      (quoted? ('\x27' :: rest)).map fun (text, rest) => (.text (String.ofList text), rest)
    | '[' :: rest, depth + 1 =>
      (values? depth steps rest).map fun (values, rest) => (.list values, rest)
    | '\x7b' :: rest, depth + 1 => do
      let (assignments, rest) ← assignments? depth steps rest
      return (← inline? assignments, rest)
    | cs, _ =>
      let (span, rest) := scalarSpan cs
      (scalar? span).map fun datum => (datum, rest)

/-- The values of a list up to its closing bracket; a comma may follow the last. -/
def values? : Nat → Nat → List Char → Option (List Datum × List Char)
  | _, 0, _ => none
  | depth, steps + 1, cs => do
    match ← skipVoid? false cs with
    | ']' :: rest => return ([], rest)
    | cs =>
      let (value, rest) ← value? depth steps cs
      match ← skipVoid? false rest with
      | ']' :: rest => return ([value], rest)
      | ',' :: rest =>
        let (values, rest) ← values? depth steps rest
        return (value :: values, rest)
      | _ => none

/-- The assignments in braces up to the closing one; a comma may follow the last. Within braces
lines may also end before and after an equals sign. -/
def assignments? : Nat → Nat → List Char → Option (List (List String × Datum) × List Char)
  | _, 0, _ => none
  | depth, steps + 1, cs => do
    match ← skipVoid? false cs with
    | '\x7d' :: rest => return ([], rest)
    | cs =>
      let (path, rest) ← key? depthLimit cs
      match ← skipVoid? false rest with
      | '=' :: rest =>
        let (value, rest) ← value? depth steps (← skipVoid? false rest)
        match ← skipVoid? false rest with
        | '\x7d' :: rest => return ([(path, value)], rest)
        | ',' :: rest =>
          let (assignments, rest) ← assignments? depth steps rest
          return ((path, value) :: assignments, rest)
        | _ => none
      | _ => none

end

def statement? (cs : List Char) : Option (Statement × List Char) :=
  match cs with
  | '[' :: '[' :: rest => do
    match ← key? depthLimit rest with
    | (path, ']' :: ']' :: rest) => return (.listHeader path, rest)
    | _ => none
  | '[' :: rest => do
    match ← key? depthLimit rest with
    | (path, ']' :: rest) => return (.header path, rest)
    | _ => none
  | cs => do
    match ← key? depthLimit cs with
    | (path, '=' :: rest) =>
      let (value, rest) ← value? depthLimit (2 * rest.length + 2) (skipBlanks rest)
      return (.assignment path value, rest)
    | _ => none

def statements? : Nat → List Char → Option (List Statement)
  | 0, _ => none
  | count + 1, cs => do
    match ← skipVoid? false cs with
    | [] => return []
    | cs =>
      let (statement, rest) ← statement? cs
      let statements ← statements? count (← lineEnd? rest)
      return statement :: statements

/-- A mark of byte order may stand before the first line. -/
def dropMark : List Char → List Char
  | '\ufeff' :: rest => rest
  | cs => cs

def read? (text : String) : Option Datum := do
  let cs := dropMark text.toList
  let statements ← statements? (cs.length + 1) cs
  let entries ← fill? statements [] []
  return .record (Node.members entries)

end Scriptorium.Toml
