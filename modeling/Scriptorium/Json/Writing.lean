import Scriptorium.Datum

/-! Data written as JSON text, on one line and without blanks. -/
namespace Scriptorium.Json

def hexDigit (n : Nat) : Char := (Nat.toDigits 16 n).headD '0'

/-- A quote, a backslash or a control character cannot stand as it is. -/
def escapeChar (c : Char) : List Char :=
  match c with
  | '"' => ['\\', '"']
  | '\\' => ['\\', '\\']
  | '\x08' => ['\\', 'b']
  | '\t' => ['\\', 't']
  | '\n' => ['\\', 'n']
  | '\x0c' => ['\\', 'f']
  | '\r' => ['\\', 'r']
  | c =>
    if c.toNat < 0x20 then ['\\', 'u', '0', '0', hexDigit (c.toNat / 16), hexDigit (c.toNat % 16)]
    else [c]

def quote (text : String) : String :=
  String.ofList ('"' :: text.toList.flatMap escapeChar ++ ['"'])

mutual

def write : Datum → String
  | .null => "null"
  | .truth true => "true"
  | .truth false => "false"
  | .natural n => toString n
  | .number numeral => numeral
  | .text value => quote value
  | .garbled => "\"\\ud800\""
  | .unfit => "1e999"
  | .list values => "[" ++ ",".intercalate (writeAll values) ++ "]"
  | .record members => "\x7b" ++ ",".intercalate (writeMembers members) ++ "\x7d"

def writeAll : List Datum → List String
  | [] => []
  | value :: rest => write value :: writeAll rest

def writeMembers : List (String × Datum) → List String
  | [] => []
  | (name, value) :: rest => (quote name ++ ":" ++ write value) :: writeMembers rest

end

end Scriptorium.Json
