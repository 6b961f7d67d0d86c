import Scriptorium.Failure
import Scriptorium.Gathering

/-! Rows of text fragments, one for each open span or block above the root row of the
document. Closing a row joins its fragments; the root row is never closed. -/
namespace Scriptorium

/-- The top row, and the rows below it from the nearest down to the root. -/
structure Rows where
  top : Gathering String := {}
  below : List (Gathering String) := []
  deriving DecidableEq, Repr

namespace Rows

def push (rows : Rows) : Rows := ⟨{},rows.top :: rows.below⟩

def pop (rows : Rows) : Except Failure (String × Rows) :=
  match rows.below with
  | [] => .error .stackUnderflow
  | next :: below => .ok (String.join rows.top.toList, ⟨next,below⟩)

def append (rows : Rows) (fragment : String) : Rows := {rows with top := rows.top.add fragment}

def joined (rows : Rows) : String := String.join rows.top.toList

def depth (rows : Rows) : Nat := rows.below.length + 1

@[simp] theorem depth_push (rows : Rows) : rows.push.depth = rows.depth + 1 := rfl

@[simp] theorem depth_append (rows : Rows) (fragment : String) :
    (rows.append fragment).depth = rows.depth := rfl

@[simp] theorem joined_append (rows : Rows) (fragment : String) :
    (rows.append fragment).joined = rows.joined ++ fragment := by
  simp [joined, append]

@[simp] theorem pop_push (rows : Rows) : rows.push.pop = .ok ("", rows) := rfl

/-- Only the root row cannot be closed. -/
theorem pop_eq_error_iff (rows : Rows) (failure : Failure) :
    rows.pop = .error failure ↔ rows.depth = 1 ∧ failure = .stackUnderflow := by
  obtain ⟨top,below⟩ := rows
  cases below <;> simp [pop, depth, eq_comm]

theorem depth_of_pop {rows rest : Rows} {content : String} (closed : rows.pop = .ok (content, rest)) :
    content = rows.joined ∧ rows.depth = rest.depth + 1 := by
  obtain ⟨top,below⟩ := rows
  cases below with
  | nil => cases closed
  | cons next below => cases closed; exact ⟨rfl,rfl⟩

end Rows
end Scriptorium
