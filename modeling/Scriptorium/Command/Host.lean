import Scriptorium.Command.Console
import Scriptorium.Edition
import Scriptorium.Export.Plan

/-! What the command needs of the machine that it runs on. -/
namespace Scriptorium.Command

/-- Of the environment only the variables of some names are asked for. The writing operations
tell whether they succeeded. -/
structure Host (m : Type → Type) where
  environment : List String → m Expansion.Environment
  fetch : String → m Plan.Source
  makeFolders : String → m Bool
  write : String → String → m Bool
  report : Level → String → m Unit
  print : String → m Unit

def Host.tell {m : Type → Type} (host : Host m) (level : Level) (message : String) : m Unit :=
  host.report level (Console.shown message)

end Scriptorium.Command
