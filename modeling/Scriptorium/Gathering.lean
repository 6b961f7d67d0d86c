/-! Things gathered one after the other. They are held newest first, so that adding one leaves
the others where they are, and are read in the order in which they came. -/
namespace Scriptorium

structure Gathering (α : Type) where
  newestFirst : List α := []
  deriving DecidableEq, Repr

namespace Gathering
variable {α : Type}

def ofList (entries : List α) : Gathering α := ⟨entries.reverse⟩

def toList (gathering : Gathering α) : List α := gathering.newestFirst.reverse

def add (gathering : Gathering α) (entry : α) : Gathering α := ⟨entry :: gathering.newestFirst⟩

def newest? (gathering : Gathering α) : Option α := gathering.newestFirst.head?

/-- All but the newest. -/
def dropNewest (gathering : Gathering α) : Gathering α := ⟨gathering.newestFirst.tail⟩

/-- Change the newest, if there is one. -/
def retouch (change : α → α) (gathering : Gathering α) : Gathering α :=
  ⟨match gathering.newestFirst with
    | [] => []
    | newest :: older => change newest :: older⟩

@[simp] theorem toList_ofList (entries : List α) : (ofList entries).toList = entries := by
  simp [ofList, toList]

@[simp] theorem ofList_toList (gathering : Gathering α) : ofList gathering.toList = gathering := by
  simp [ofList, toList]

@[simp] theorem toList_empty : (⟨[]⟩ : Gathering α).toList = [] := rfl

@[simp] theorem toList_add (gathering : Gathering α) (entry : α) :
    (gathering.add entry).toList = gathering.toList ++ [entry] := by
  simp [add, toList]

@[simp] theorem newest?_add (gathering : Gathering α) (entry : α) :
    (gathering.add entry).newest? = some entry := rfl

@[simp] theorem dropNewest_add (gathering : Gathering α) (entry : α) :
    (gathering.add entry).dropNewest = gathering := rfl

theorem toList_retouch_add (change : α → α) (gathering : Gathering α) (entry : α) :
    ((gathering.add entry).retouch change).toList = gathering.toList ++ [change entry] :=
  toList_add gathering (change entry)

/-- Two gatherings are the same when they read the same. -/
theorem toList_inj {one other : Gathering α} : one.toList = other.toList ↔ one = other :=
  ⟨fun same => by rw [← ofList_toList one, same, ofList_toList],fun same => same ▸ rfl⟩

end Gathering
end Scriptorium
