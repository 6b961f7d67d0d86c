/-! Paths whose segments are parted by slashes. Every path has at least one segment,
and joining the segments by slashes gives the path back. -/
namespace Scriptorium.Text

def segments (path : String) : List String :=
  (path.toList.splitOn '/').map String.ofList

def segment? (path : String) (index : Nat) : Option String := (segments path)[index]?

theorem segments_ne_nil (path : String) : segments path ≠ [] := by
  simp [segments, List.splitOn_ne_nil]

theorem intercalate_segments (path : String) : "/".intercalate (segments path) = path := by
  apply String.toList_injective
  simp [segments, String.toList_intercalate, Function.comp_def, List.intercalate_splitOn]

/-- What follows the last slash, or the whole path when it has none. -/
def lastSegment (path : String) : String := ((segments path).getLast?).getD ""

def startsWith (path stem : String) : Bool := stem.toList.isPrefixOf path.toList

/-- The segment after `stem/` when the path begins with `stem/`. -/
def labelAfter? (path stem : String) : Option String :=
  ((stem.toList ++ ['/']).isPrefixOf? path.toList).map fun rest =>
    String.ofList (rest.takeWhile (· != '/'))

end Scriptorium.Text
