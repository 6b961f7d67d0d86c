import Scriptorium.Command.Host

/-! A disk in memory, so that the command can run, and be reasoned about, without a machine.
Files and folders are kept under absolute paths without `.` and `..`. -/
namespace Scriptorium.Command

structure Disk where
  files : Index String String := ∅
  folders : Index String Unit := ∅

namespace Disk

/-- The steps of a path from the top down. -/
def steps (path : String) : List String := (Text.segments path).filter Path.isStep

def address (parts : List String) : String := String.join (parts.map fun part => "/" ++ part)

def isFile (disk : Disk) (parts : List String) : Bool := disk.files.contains (address parts)

def isFolder (disk : Disk) (parts : List String) : Bool :=
  let above := (address parts ++ "/").toList
  parts.isEmpty || disk.folders.contains (address parts) ||
    disk.files.keys.any fun key => above.isPrefixOf key.toList

/-- Where a relative path starts from. -/
def origin (home : List String) (path : String) : List String :=
  if path.toList.head? = some '/' then [] else home

/-- Follow the parts of a path. What stands before a part has to be a folder, also where the
part is no step. -/
def walk? (disk : Disk) : List String → List String → Option (List String)
  | here, [] => some here
  | here, part :: rest =>
    if !disk.isFolder here then none
    else if !Path.isStep part then walk? disk here rest
    else if part == ".." then walk? disk here.dropLast rest
    else walk? disk (here ++ [part]) rest

/-- Where a path leads, if it can be followed to its last part. -/
def find? (disk : Disk) (home : List String) (path : String) : Option (List String) :=
  if Path.isAdmitted path then disk.walk? (origin home path) (Text.segments path) else none

def fetch (disk : Disk) (home : List String) (path : String) : Plan.Source :=
  match disk.find? home path with
  | none => .missing
  | some place =>
    if disk.isFolder place then .unreadable
    else match disk.files.find? (address place) with
      | some content => .text content
      | none => .missing

/-- Make the folders of some steps that are missing. -/
def makeBelow? (disk : Disk) : List String → List String → Option Disk
  | _, [] => some disk
  | here, part :: rest =>
    if part == ".." then makeBelow? disk here.dropLast rest
    else
      let next := here ++ [part]
      if disk.isFile next then none
      else makeBelow? {disk with folders := disk.folders.insert (address next) ()} next rest

def make? (disk : Disk) (home : List String) (path : String) : Option Disk :=
  if Path.isAdmitted path then disk.makeBelow? (origin home path) (steps path) else none

def write? (disk : Disk) (home : List String) (path content : String) : Option Disk :=
  match disk.find? home path with
  | none => none
  | some place =>
    if disk.isFolder place then none
    else some {disk with files := disk.files.insert (address place) content}

end Disk

/-- What a run of the command has done so far. -/
structure Scene where
  disk : Disk
  log : List (Level × String) := []
  printed : String := ""

namespace Scene

def change (next? : Disk → Option Disk) : StateM Scene Bool := do
  let scene ← get
  match next? scene.disk with
  | some disk =>
    set {scene with disk := disk}
    return true
  | none => return false

/-- A host that works on a scene; relative paths start at `home`. -/
def host (known : Expansion.Environment) (home : List String) : Host (StateM Scene) where
  environment _ := return known
  fetch path := do return (← get).disk.fetch home path
  makeFolders path := change fun disk => disk.make? home path
  write path content := change fun disk => disk.write? home path content
  report level message := modify fun scene => {scene with log := scene.log ++ [(level, message)]}
  print text := modify fun scene => {scene with printed := scene.printed ++ text}

end Scene
end Scriptorium.Command
