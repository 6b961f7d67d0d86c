import Scriptorium.Datum

/-! Tables filled by the statements of a TOML file. A table is defined once: by its header, or
by dotted keys inside one other table. Headers below a table may come before its own. -/
namespace Scriptorium.Toml

/-- How a table came to be: by its header, as a part of the header of a table below it, or by
a dotted key. -/
inductive Origin
  | header | implied | dotted
  deriving DecidableEq, Repr

/-- A table is open to further statements, and so is the last of a list of tables. -/
inductive Node
  | leaf (datum : Datum)
  | table (origin : Origin) (entries : List (String × Node))
  | tables (closed : List Datum) (current : List (String × Node))

abbrev Entries := List (String × Node)

mutual

def Node.datum : Node → Datum
  | .leaf datum => datum
  | .table _ entries => .record (Node.members entries)
  | .tables closed current => .list (closed ++ [.record (Node.members current)])

def Node.members : List (String × Node) → List (String × Datum)
  | [] => []
  | (key, node) :: rest => (key, node.datum) :: Node.members rest

end

namespace Entries

/-- Change what stands under a key; nothing may stand there yet. -/
def change (key : String) (next? : Option Node → Option Node) : Entries → Option Entries
  | [] => (next? none).map fun node => [(key, node)]
  | (k, node) :: rest =>
    if k = key then (next? (some node)).map fun node => (k, node) :: rest
    else (change key next? rest).map fun rest => (k, node) :: rest

/-- Go down a path, making the tables that are missing, and finish at its end. A dotted key
does not enter a table that has a header. -/
def edit (dotted : Bool) (finish? : Origin → Entries → Option Entries) :
    List String → Origin → Entries → Option Entries
  | [], origin, entries => finish? origin entries
  | key :: path, _, entries => change key (fun
    | none =>
      let origin := if dotted then .dotted else .implied
      (edit dotted finish? path origin []).map (.table origin)
    | some (.table origin inner) =>
      if dotted && origin == .header then none
      else (edit dotted finish? path origin inner).map (.table origin)
    | some (.tables closed current) =>
      (edit dotted finish? path .header current).map (.tables closed)
    | some (.leaf _) => none) entries

def addLeaf (key : String) (datum : Datum) (entries : Entries) : Option Entries :=
  change key (fun
    | none => some (.leaf datum)
    | some _ => none) entries

/-- Set a value under a dotted key. The last table on the way is one that dotted keys made, or
the table itself when the key has no dots. -/
def assign (path : List String) (datum : Datum) (entries : Entries) : Option Entries :=
  match path.getLast? with
  | none => none
  | some key =>
    let above := path.dropLast
    edit true (fun origin inner =>
      if (origin == .dotted) == above.isEmpty then none else addLeaf key datum inner)
      above .header entries

def openTable (path : List String) (entries : Entries) : Option Entries :=
  match path.getLast? with
  | none => none
  | some key =>
    edit false (fun _ inner => change key (fun
      | none => some (.table .header [])
      | some (.table .implied below) => some (.table .header below)
      | some _ => none) inner)
      path.dropLast .header entries

def addTable (path : List String) (entries : Entries) : Option Entries :=
  match path.getLast? with
  | none => none
  | some key =>
    edit false (fun _ inner => change key (fun
      | none => some (.tables [] [])
      | some (.tables closed current) => some (.tables (closed ++ [.record (Node.members current)]) [])
      | some _ => none) inner)
      path.dropLast .header entries

/-- Set a value in the table that a header opened. -/
def assignUnder (header path : List String) (datum : Datum) (entries : Entries) : Option Entries :=
  edit false (fun _ inner => assign path datum inner) header .header entries

end Entries

inductive Statement
  | header (path : List String)
  | listHeader (path : List String)
  | assignment (path : List String) (datum : Datum)

/-- The tables after a list of statements under an open header. -/
def fill? : List Statement → List String → Entries → Option Entries
  | [], _, entries => some entries
  | .header path :: rest, _, entries => (entries.openTable path).bind (fill? rest path)
  | .listHeader path :: rest, _, entries => (entries.addTable path).bind (fill? rest path)
  | .assignment path datum :: rest, header, entries =>
    (entries.assignUnder header path datum).bind (fill? rest header)

/-- The record that assignments in braces make. -/
def inline? (assignments : List (List String × Datum)) : Option Datum :=
  (assignments.foldlM (fun entries (path, datum) => Entries.assign path datum entries) []).map
    fun entries => .record (Node.members entries)

end Scriptorium.Toml
