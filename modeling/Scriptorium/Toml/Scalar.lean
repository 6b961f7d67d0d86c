import Scriptorium.Datum
import Scriptorium.Json.Reading

/-! Numbers, dates and times of TOML. The digits of a number may be grouped by underscores, and
integers have four bases; what is no natural number is kept as it is written. A numeral is told
by its form, and whether it stands for a number is asked only where it is read. -/
namespace Scriptorium.Toml

def digitValue? (base : Nat) (c : Char) : Option Nat :=
  (Json.hexValue? c).filter (· < base)

/-- One or more digits, with single underscores between some of them; these are left out. -/
def digits? (base : Nat) (cs : List Char) : Option (List Char) :=
  let groups := cs.splitOn '_'
  if groups.all fun group => !group.isEmpty && group.all fun c => (digitValue? base c).isSome then
    some groups.flatten
  else none

/-- Decimal digits without a leading zero. -/
def decimal? : List Char → Option (List Char)
  | ['0'] => some ['0']
  | '0' :: _ => none
  | cs => digits? 10 cs

def magnitude (base : Nat) (digits : List Char) : Nat :=
  digits.foldl (fun n c => base * n + (digitValue? base c).getD 0) 0

/-- Natural numbers have up to 128 bits. -/
def natural (n : Nat) : Datum := if n < Nat.pow 2 128 then .natural n else .unfit

/-- A negative integer fits a word of 128 bits, one of them for the sign. -/
def negative (n : Nat) : Datum :=
  if n = 0 then .natural 0
  else if n ≤ Nat.pow 2 127 then .number ("-" ++ toString n)
  else .unfit

/-- An integer of another base after its mark. A mark alone has the form of one. -/
def marked? (base : Nat) (cs : List Char) : Option Datum :=
  if cs.isEmpty then some .unfit
  else (digits? base cs).map fun digits => natural (magnitude base digits)

def isAnyDigit (c : Char) : Bool := (digitValue? 16 c).isSome

/-- Whether grouped characters have the form of an integer: decimal digits up to the first
underscore, and beside every underscore a digit of any base. -/
def isGrouped (cs : List Char) : Bool :=
  match cs.splitOn '_' with
  | first :: second :: groups =>
    first.head?.any (· != '0') && first.all Char.isDigit &&
      ((second :: groups).all fun group => group.head?.any isAnyDigit) &&
      (second :: groups).dropLast.all fun group => group.getLast?.any isAnyDigit
  | _ => false

/-- An integer that is not marked, its number made by its sign. What only has the form of one
and is no float is unfit. -/
def unmarked? (signed : Nat → Datum) (cs : List Char) : Option Datum :=
  match decimal? cs with
  | some digits => some (signed (magnitude 10 digits))
  | none =>
    if isGrouped cs && !cs.any ['.', 'e', 'E'].contains then some .unfit else none

def integer? : List Char → Option Datum
  | '0' :: 'x' :: cs => marked? 16 cs
  | '0' :: 'o' :: cs => marked? 8 cs
  | '0' :: 'b' :: cs => marked? 2 cs
  | '+' :: cs => unmarked? natural cs
  | '-' :: cs => unmarked? negative cs
  | cs => unmarked? natural cs

def isExponentMark (c : Char) : Bool := c == 'e' || c == 'E'

/-- The power of ten that an exponent with its mark stands for. -/
def exponent? : List Char → Option Int
  | [] => some 0
  | _ :: cs =>
    let (sign, cs) := Json.sign cs
    (digits? 10 cs).map fun digits =>
      if sign == ['-'] then -(magnitude 10 digits : Int) else magnitude 10 digits

/-- The digits of a fraction with its point; without an exponent there has to be one. -/
def fraction? (needed : Bool) : List Char → Option (List Char)
  | [] => if needed then none else some []
  | _ :: cs => digits? 10 cs

/-- A float is kept as it is written; what no double is near to is unfit. -/
def float? (cs : List Char) : Option Datum :=
  let kept := Datum.number (String.ofList cs)
  let cs := (Json.sign cs).2
  if cs == "inf".toList || cs == "nan".toList then some kept
  else do
    let mantissa := cs.takeWhile fun c => !isExponentMark c
    let exponent := cs.dropWhile fun c => !isExponentMark c
    let whole ← decimal? (mantissa.takeWhile (· != '.'))
    let fraction ← fraction? exponent.isEmpty (mantissa.dropWhile (· != '.'))
    let power ← exponent? exponent
    return if Text.exceedsDouble (whole ++ fraction) (power - fraction.length) then .unfit else kept

/-- A field of exactly so many digits, within its bounds. -/
def field? (width low high : Nat) (cs : List Char) : Option (List Char × List Char) :=
  let digits := cs.take width
  if digits.length = width && digits.all Char.isDigit && low ≤ magnitude 10 digits &&
      magnitude 10 digits ≤ high then
    some (digits, cs.drop width)
  else none

def mark? (marks : List Char) : List Char → Option (List Char)
  | c :: rest => if marks.contains c then some rest else none
  | [] => none

def daysIn (year month : Nat) : Nat :=
  if month = 2 then
    if year % 4 = 0 && (year % 100 != 0 || year % 400 = 0) then 29 else 28
  else if [4, 6, 9, 11].contains month then 30 else 31

def date? (cs : List Char) : Option (List Char × List Char) := do
  let (year, cs) ← field? 4 0 9999 cs
  let (month, cs) ← field? 2 1 12 (← mark? ['-'] cs)
  let days := daysIn (magnitude 10 year) (magnitude 10 month)
  let (day, cs) ← field? 2 1 days (← mark? ['-'] cs)
  return (year ++ '-' :: month ++ '-' :: day, cs)

/-- Of the parts of a second nine digits count, and no zeros at their end. -/
def parts (digits : List Char) : List Char :=
  match ((digits.take 9).reverse.dropWhile (· == '0')).reverse with
  | [] => []
  | digits => '.' :: digits

/-- Seconds after a colon; a time without any is at the full minute. -/
def seconds? : List Char → Option (List Char × List Char)
  | ':' :: cs => do
    let (second, cs) ← field? 2 0 60 cs
    match cs with
    | '.' :: cs => (Json.digits? cs).map fun (digits, cs) => (':' :: second ++ parts digits, cs)
    | cs => return (':' :: second, cs)
  | cs => some (":00".toList, cs)

def time? (cs : List Char) : Option (List Char × List Char) := do
  let (hour, cs) ← field? 2 0 23 cs
  let (minute, cs) ← field? 2 0 59 (← mark? [':'] cs)
  let (seconds, cs) ← seconds? cs
  return (hour ++ ':' :: minute ++ seconds, cs)

/-- The distance from universal time, if one is given; no distance has a plus sign. -/
def offset? : List Char → Option (List Char × List Char)
  | [] => some ([], [])
  | c :: cs =>
    if c = 'Z' ∨ c = 'z' then some (['Z'], cs)
    else if c = '+' ∨ c = '-' then do
      let (hour, cs) ← field? 2 0 23 cs
      let (minute, cs) ← field? 2 0 59 (← mark? [':'] cs)
      let distance := hour ++ ':' :: minute
      return ((if distance == "00:00".toList then '+' else c) :: distance, cs)
    else none

/-- A date, a time, or both with an optional offset, in the form that they are shown in. -/
def moment? (cs : List Char) : Option (List Char) :=
  match date? cs with
  | some (date, []) => some date
  | some (date, cs) => do
    let (time, cs) ← time? (← mark? ['T', 't', ' '] cs)
    let (offset, cs) ← offset? cs
    if cs.isEmpty then some (date ++ 'T' :: time ++ offset) else none
  | none => do
    let (time, cs) ← time? cs
    if cs.isEmpty then some time else none

/-- A moment is read as a record of its form alone, under this name. -/
def momentName : String := "$__toml_private_datetime"

def isScalarMark (c : Char) : Bool :=
  c.isAlphanum || ['+', '-', '_', '.', ':'].contains c

/-- The characters of a scalar that stands without quotes. One blank may part a date from the
time after it. -/
def scalarSpan (cs : List Char) : List Char × List Char :=
  let first := cs.takeWhile isScalarMark
  match date? first, cs.dropWhile isScalarMark with
  | some (_, []), ' ' :: c :: rest =>
    if c.isDigit then
      (first ++ ' ' :: (c :: rest).takeWhile isScalarMark, (c :: rest).dropWhile isScalarMark)
    else (first, ' ' :: c :: rest)
  | _, rest => (first, rest)

def scalar? (cs : List Char) : Option Datum :=
  if cs == "true".toList then some (.truth true)
  else if cs == "false".toList then some (.truth false)
  else match integer? cs, float? cs with
    | some datum, _ => some datum
    | none, some datum => some datum
    | none, none => (moment? cs).map fun form =>
      .record [(momentName, .text (String.ofList form))]

end Scriptorium.Toml
