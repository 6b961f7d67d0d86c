import Scriptorium.Failure
import Scriptorium.Text.Markup

/-! Verse labels wait until the first content of their verse. A published label is shown in
the place of the verse's own. -/
namespace Scriptorium

structure VerseTracker where
  starts : UInt32 := 0
  pending : Option String := none
  deriving DecidableEq, Repr

namespace VerseTracker

/-- The verse labels started so far, published ones too. -/
def count (tracker : VerseTracker) : Nat := tracker.starts.toNat

/-- A new verse takes the place of one that is still waiting. -/
def startPrimary (tracker : VerseTracker) (label : String) : VerseTracker :=
  ⟨tracker.starts + 1,some label⟩

def startAlternate (tracker : VerseTracker) (label : String) : VerseTracker :=
  ⟨tracker.starts + 1,tracker.pending.map fun _ => label⟩

def isWaiting (tracker : VerseTracker) : Bool := tracker.pending.isSome

def marker (label : String) : String := Text.element "span" [("class", "verses")] label ++ "&#160;"

def flush (tracker : VerseTracker) : Except Failure (String × VerseTracker) :=
  match tracker.pending with
  | none => .error (.trackerNotWaiting .verse)
  | some label => .ok (marker label, {tracker with pending := none})

end VerseTracker
end Scriptorium
