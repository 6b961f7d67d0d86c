import Scriptorium.Command.Press

/-! The command on a real machine. -/
namespace Scriptorium.Command

/-- Whether an action went through. -/
def succeeded (action : IO Unit) : IO Bool := do
  try
    action
    return true
  catch _ => return false

/-- What a path leads to; a path that cannot be followed to its end leads nowhere. -/
def fetchFile (path : String) : IO Plan.Source := do
  if ← succeeded (discard (IO.FS.realPath path)) then
    try
      let bytes ← IO.FS.readBinFile path
      return .ofBytes bytes
    catch _ => return .unreadable
  else return .missing

def readVariables : List String → IO (Index String String)
  | [] => return ∅
  | name :: rest => do
    let values ← readVariables rest
    match ← IO.getEnv name with
    | some value => return values.insert name value
    | none => return values

def machine : Host IO where
  environment names := do return ⟨← readVariables names,none⟩
  fetch := fetchFile
  makeFolders path := succeeded (IO.FS.createDirAll path)
  write path content := succeeded (IO.FS.writeFile path content)
  report level message := IO.eprintln ("[" ++ level.name ++ "] " ++ message)
  print text := IO.print text

end Scriptorium.Command

def main (words : List String) : IO UInt32 :=
  Scriptorium.Command.run Scriptorium.Command.machine words
