import Scriptorium.Text.Markup

/-! Notes under the text, numbered from one by a counter of 32 bits. A number stays open while
the sequence of its note is rendered, so that a note of several blocks is gathered under one
number. -/
namespace Scriptorium

structure Notes where
  counter : UInt32 := 1
  collected : List (UInt32 × String) := []
  deriving DecidableEq, Repr

namespace Notes

/-- The open number. -/
def next (notes : Notes) : Nat := notes.counter.toNat

def entries (notes : Notes) : List (Nat × String) :=
  notes.collected.map fun (number, text) => (number.toNat, text)

/-- The mark in the text that leads to the note under the open number. -/
def anchor (notes : Notes) : String :=
  let number := toString notes.next
  Text.element "a"
    [("epub:type", "noteref"), ("id", "footnote_anchor_" ++ number), ("href", "#footnote_" ++ number),
      ("class", "footnote_anchor")]
    (Text.element "sup" [] number)

/-- Add text to a note; a note without text so far goes after all others. -/
def extend {κ : Type} [DecidableEq κ] (number : κ) (text : String) : List (κ × String) → List (κ × String)
  | [] => [(number, text)]
  | (n, old) :: rest =>
    if n = number then (n, old ++ text) :: rest else (n, old) :: extend number text rest

def collect (notes : Notes) (text : String) : Notes :=
  {notes with collected := extend notes.counter text notes.collected}

/-- After the greatest number of 32 bits comes zero. -/
def advance (notes : Notes) : Notes := {notes with counter := notes.counter + 1}

def numbers (notes : Notes) : List Nat := notes.entries.map (·.1)

def content? (notes : Notes) (number : Nat) : Option String :=
  (notes.entries.find? fun entry => entry.1 == number).map (·.2)

def aside (number : Nat) (text : String) : String :=
  Text.element "aside"
    [("epub:type", "footnote"), ("id", "footnote_" ++ toString number), ("class", "footnote_number")]
    (Text.element "p" [] text) ++ "\n"

def asides (notes : Notes) : String :=
  String.join (notes.entries.map fun (number, text) => aside number text)

variable (notes : Notes) (text : String)

@[simp] theorem next_start : ({} : Notes).next = 1 := rfl

@[simp] theorem entries_start : ({} : Notes).entries = [] := rfl

@[simp] theorem next_collect : (notes.collect text).next = notes.next := rfl

theorem next_advance : notes.advance.next = (notes.next + 1) % UInt32.size :=
  UInt32.toNat_add notes.counter 1

@[simp] theorem entries_advance : notes.advance.entries = notes.entries := rfl

theorem map_extend {κ ι : Type} [DecidableEq κ] [DecidableEq ι] {f : κ → ι} (distinct : f.Injective)
    (number : κ) (text : String) (entries : List (κ × String)) :
    (extend number text entries).map (fun entry => (f entry.1, entry.2)) =
      extend (f number) text (entries.map fun entry => (f entry.1, entry.2)) := by
  induction entries with
  | nil => rfl
  | cons entry rest ih =>
    by_cases same : entry.1 = number
    · simp [extend, same]
    · simp [extend, same, distinct.eq_iff, ih]

theorem entries_collect : (notes.collect text).entries = extend notes.next text notes.entries :=
  map_extend (fun _ _ => UInt32.toNat_inj.mp) notes.counter text notes.collected

end Notes
end Scriptorium
