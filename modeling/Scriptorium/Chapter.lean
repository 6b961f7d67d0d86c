import Scriptorium.Failure
import Scriptorium.Text.Markup

/-! Chapter labels wait until the first content of their chapter. A published label is shown
in the place of the chapter's own and numbers its anchor; an alternate label is added to the
heading. The counters have 32 bits and start over at zero. -/
namespace Scriptorium

structure ChapterLabel where
  id : String
  display : String
  annotation : Option String := none
  deriving DecidableEq, Repr

structure ChapterLink where
  id : String
  label : String
  deriving DecidableEq, Repr

namespace ChapterLabel

def heading (label : ChapterLabel) : String :=
  let shown := match label.annotation with
    | some annotation =>
      label.display ++ "<br/>" ++ Text.element "span" [("class", "altChapter")] ("(" ++ annotation ++ ")")
    | none => label.display
  Text.element "h3" [("id", "chapter_" ++ label.id), ("class", "chapter")]
    (Text.element "a" [("href", "#top")] shown) ++ "\n"

def link (label : ChapterLabel) : ChapterLink := ⟨label.id,label.display⟩

end ChapterLabel

/-- A chapter whose heading has not been placed yet. -/
structure PendingChapter where
  primary : String
  display : String
  alternates : UInt32 := 0
  annotation : Option String := none
  deriving DecidableEq, Repr

def PendingChapter.label (pending : PendingChapter) : ChapterLabel where
  id := if pending.alternates = 0 then pending.primary
    else pending.primary ++ "_" ++ toString pending.alternates.toNat
  display := pending.display
  annotation := pending.annotation

structure ChapterTracker where
  starts : UInt32 := 0
  pending : Option PendingChapter := none
  deriving DecidableEq, Repr

namespace ChapterTracker

/-- The chapters started so far. -/
def count (tracker : ChapterTracker) : Nat := tracker.starts.toNat

/-- A new chapter takes the place of one that is still waiting. -/
def startPrimary (tracker : ChapterTracker) (label : String) : ChapterTracker :=
  ⟨tracker.starts + 1,some ⟨label,label,0,none⟩⟩

def startAlternate (tracker : ChapterTracker) (label : String) : ChapterTracker :=
  {tracker with pending := tracker.pending.map fun pending =>
    {pending with display := label, alternates := pending.alternates + 1}}

def annotate (tracker : ChapterTracker) (label : String) : ChapterTracker :=
  {tracker with pending := tracker.pending.map fun pending => {pending with annotation := some label}}

def isWaiting (tracker : ChapterTracker) : Bool := tracker.pending.isSome

def flush (tracker : ChapterTracker) : Except Failure (ChapterLabel × ChapterTracker) :=
  match tracker.pending with
  | none => .error (.trackerNotWaiting .chapter)
  | some pending => .ok (pending.label, {tracker with pending := none})

end ChapterTracker
end Scriptorium
