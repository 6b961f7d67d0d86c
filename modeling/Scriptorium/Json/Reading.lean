import Scriptorium.Datum
import Scriptorium.Text.Decimal

/-! JSON text read as data. Each reader takes what it reads off the front of the characters and
gives back the rest. -/
namespace Scriptorium.Json

def isSpace (c : Char) : Bool := c == ' ' || c == '\n' || c == '\t' || c == '\r'

def skip (cs : List Char) : List Char := cs.dropWhile isSpace

def hexValue? (c : Char) : Option Nat :=
  if c.isDigit then some (c.toNat - 48)
  else if 'a' ≤ c ∧ c ≤ 'f' then some (c.toNat - 87)
  else if 'A' ≤ c ∧ c ≤ 'F' then some (c.toNat - 55)
  else none

def hexNumber? (digits : List Char) : Option Nat :=
  digits.foldlM (fun n c => (hexValue? c).map (16 * n + ·)) 0

def shortEscape? : Char → Option Nat
  | '"' => some 34
  | '\\' => some 92
  | '/' => some 47
  | 'b' => some 8
  | 'f' => some 12
  | 'n' => some 10
  | 'r' => some 13
  | 't' => some 9
  | _ => none

/-- The code units of a string up to its closing quote: a character gives its code point, and
an escape of four digits the unit that it names, which may be half of a pair. -/
def units? : List Char → Option (List Nat × List Char)
  | [] => none
  | '"' :: rest => some ([], rest)
  | '\\' :: 'u' :: a :: b :: c :: d :: rest => do
    let unit ← hexNumber? [a, b, c, d]
    let (units, rest) ← units? rest
    return (unit :: units, rest)
  | '\\' :: c :: rest => do
    let unit ← shortEscape? c
    let (units, rest) ← units? rest
    return (unit :: units, rest)
  | c :: rest =>
    if c.toNat < 0x20 then none
    else (units? rest).map fun (units, rest) => (c.toNat :: units, rest)

def isHigh (unit : Nat) : Bool := 0xD800 ≤ unit && unit < 0xDC00
def isLow (unit : Nat) : Bool := 0xDC00 ≤ unit && unit < 0xE000

/-- Characters from code units; a half of a pair without the other half is no character. -/
def characters? : List Nat → Option (List Char)
  | [] => some []
  | [unit] => if isHigh unit || isLow unit then none else some [Char.ofNat unit]
  | unit :: next :: rest =>
    if isHigh unit then
      if isLow next then
        (characters? rest).map (Char.ofNat (0x10000 + (unit - 0xD800) * 0x400 + (next - 0xDC00)) :: ·)
      else none
    else if isLow unit then none
    else (characters? (next :: rest)).map (Char.ofNat unit :: ·)

def textOf (units : List Nat) : Datum :=
  match characters? units with
  | some characters => .text (String.ofList characters)
  | none => .garbled

/-- A record of named members; a name that is no text garbles it. -/
def recordOf (members : List (Option String × Datum)) : Datum :=
  match members.mapM fun member => member.1.map fun name => (name, member.2) with
  | some members => .record members
  | none => .garbled

/-- One or more digits. -/
def digits? (cs : List Char) : Option (List Char × List Char) :=
  let digits := cs.takeWhile Char.isDigit
  if digits.isEmpty then none else some (digits, cs.dropWhile Char.isDigit)

/-- The whole part of a number: no zero before other digits. -/
def whole? : List Char → Option (List Char × List Char)
  | '0' :: rest => some (['0'], rest)
  | cs => digits? cs

def fraction? : List Char → Option (List Char × List Char)
  | '.' :: rest => (digits? rest).map fun (digits, rest) => ('.' :: digits, rest)
  | cs => some ([], cs)

def sign : List Char → List Char × List Char
  | '+' :: rest => (['+'], rest)
  | '-' :: rest => (['-'], rest)
  | cs => ([], cs)

def exponent? : List Char → Option (List Char × List Char)
  | c :: rest =>
    if c = 'e' ∨ c = 'E' then
      let (sign, rest) := sign rest
      (digits? rest).map fun (digits, rest) => (c :: sign ++ digits, rest)
    else some ([], c :: rest)
  | [] => some ([], [])

def number? (cs : List Char) : Option (Datum × List Char) := do
  let (minus, cs) := match cs with
    | '-' :: rest => (['-'], rest)
    | cs => ([], cs)
  let (whole, cs) ← whole? cs
  let (fraction, cs) ← fraction? cs
  let (exponent, cs) ← exponent? cs
  let datum := match minus, fraction, exponent with
    | [], [], [] => Datum.natural (Nat.ofDigitChars 10 whole 0)
    | _, _, _ => .number (String.ofList (minus ++ whole ++ fraction ++ exponent))
  return (datum, cs)

def literal? (word : String) (datum : Datum) (cs : List Char) : Option (Datum × List Char) :=
  (word.toList.isPrefixOf? cs).map fun rest => (datum, rest)

mutual

/-- A value. The count bounds the nesting, which is never deeper than the text is long. -/
def value? : Nat → List Char → Option (Datum × List Char)
  | 0, _ => none
  | depth + 1, cs => match skip cs with
    | '"' :: rest => (units? rest).map fun (units, rest) => (textOf units, rest)
    | '[' :: rest => match skip rest with
      | ']' :: rest => some (.list [], rest)
      | rest => (values? depth rest).map fun (values, rest) => (.list values, rest)
    | '\x7b' :: rest => match skip rest with
      | '\x7d' :: rest => some (.record [], rest)
      | rest => (members? depth rest).map fun (members, rest) => (recordOf members, rest)
    | 'n' :: rest => literal? "null" .null ('n' :: rest)
    | 't' :: rest => literal? "true" (.truth true) ('t' :: rest)
    | 'f' :: rest => literal? "false" (.truth false) ('f' :: rest)
    | rest => number? rest

/-- The values of a list, up to its closing bracket. -/
def values? : Nat → List Char → Option (List Datum × List Char)
  | 0, _ => none
  | depth + 1, cs => do
    let (value, rest) ← value? depth cs
    match skip rest with
    | ']' :: rest => return ([value], rest)
    | ',' :: rest => do
      let (values, rest) ← values? depth rest
      return (value :: values, rest)
    | _ => none

/-- The members of a record, up to its closing brace. -/
def members? : Nat → List Char → Option (List (Option String × Datum) × List Char)
  | 0, _ => none
  | depth + 1, cs => match skip cs with
    | '"' :: rest => do
      let (units, rest) ← units? rest
      let name := (characters? units).map String.ofList
      match skip rest with
      | ':' :: rest => do
        let (value, rest) ← value? depth rest
        match skip rest with
        | '\x7d' :: rest => return ([(name, value)], rest)
        | ',' :: rest => do
          let (members, rest) ← members? depth rest
          return ((name, value) :: members, rest)
        | _ => none
      | _ => none
    | _ => none

end

/-- The one value that a text holds. -/
def read? (text : String) : Option Datum := do
  let cs := text.toList
  let (datum, rest) ← value? (2 * cs.length + 2) cs
  if (skip rest).isEmpty then some datum else none

end Scriptorium.Json
