/-! Structured data as read from a file, whatever its notation: scalars, lists and records.
The readers here take a datum apart; each gives nothing when the datum has another shape. -/
namespace Scriptorium

/-- The notations that data come in. Each has its own way of writing what it has no form for. -/
inductive Format
  | json | toml
  deriving DecidableEq, Repr

/-- A number other than a natural one is kept as it is written. A text whose escapes name no
characters is garbled, and so is a record with such a name in it: it may stand where nobody
reads it. An unfit numeral stands for no number of any type and may not even
stand there. -/
inductive Datum
  | null
  | truth (value : Bool)
  | natural (value : Nat)
  | number (numeral : String)
  | text (value : String)
  | garbled
  | unfit
  | list (values : List Datum)
  | record (members : List (String × Datum))
  deriving Repr

namespace Datum

def string? : Datum → Option String
  | text value => some value
  | _ => none

def bool? : Datum → Option Bool
  | truth value => some value
  | _ => none

/-- Null stands for a missing value. -/
def optional? {α : Type} (read? : Datum → Option α) : Datum → Option (Option α)
  | null => some none
  | datum => (read? datum).map some

def list? {α : Type} (read? : Datum → Option α) : Datum → Option (List α)
  | list values => values.mapM read?
  | _ => none

/-- The members of a record that is read as a map; its keys are free. -/
def members? {α : Type} (read? : Datum → Option α) : Datum → Option (List (String × α))
  | record members => members.mapM fun member => (read? member.2).map fun value => (member.1, value)
  | _ => none

/-- What a choice holds when there is nothing to say beside its name. -/
def isBare : Format → Datum → Bool
  | .json, null => true
  | .toml, list [] => true
  | .toml, record [] => true
  | _, _ => false

/-- A choice is written as its name, or as a record of that name alone that holds nothing. -/
def choice? (format : Format) : Datum → Option String
  | text name => some name
  | record [(name, datum)] => if datum.isBare format then some name else none
  | _ => none

mutual

/-- Whether every number in a datum fits some type of numbers. -/
def isSound : Datum → Bool
  | unfit => false
  | list values => areSound values
  | record members => areMembersSound members
  | _ => true

def areSound : List Datum → Bool
  | [] => true
  | value :: rest => value.isSound && areSound rest

def areMembersSound : List (String × Datum) → Bool
  | [] => true
  | (_, value) :: rest => value.isSound && areMembersSound rest

end

/-- Whether members of other names may be passed over, and no name stands twice. -/
def areFields (names : List String) (members : List (String × Datum)) : Bool :=
  (names.all fun name => (members.filter fun member => member.1 == name).length ≤ 1) &&
    members.all fun member => names.contains member.1 || member.2.isSound

/-- The fields of a structure, written as a record, or as a list of the values in the order of
the fields. A list in TOML may go on after the last field. -/
def fields? (format : Format) (names : List String) : Datum → Option (List (String × Datum))
  | record members => if areFields names members then some members else none
  | list values =>
    if format == .toml || values.length ≤ names.length then some (names.zip values) else none
  | _ => none

def required? {α : Type} (fields : List (String × Datum)) (name : String) (read? : Datum → Option α) :
    Option α :=
  (fields.lookup name).bind read?

def defaulted? {α : Type} (fields : List (String × Datum)) (name : String) (read? : Datum → Option α)
    (default : α) : Option α :=
  match fields.lookup name with
  | some datum => read? datum
  | none => some default

end Datum
end Scriptorium
