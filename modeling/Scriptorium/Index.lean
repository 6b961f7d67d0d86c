/-! An index keeps one value under each key, in the order of the keys. Equal contents are
equal indexes, so two ways of filling an index can be compared by `=`. -/
namespace Scriptorium

structure Index (κ α : Type) [LT κ] where
  entries : List (κ × α)
  ascending : entries.Pairwise (fun first second => first.1 < second.1)

namespace Index

theorem eq_of_entries {κ α : Type} [LT κ] {first second : Index κ α}
    (same : first.entries = second.entries) : first = second := by
  cases first; cases second; cases same; rfl

section Lookup
variable {κ α : Type} [LT κ] [DecidableLT κ]

def empty : Index κ α := ⟨[],.nil⟩

instance : EmptyCollection (Index κ α) := ⟨empty⟩
instance : Inhabited (Index κ α) := ⟨empty⟩

def lookup (key : κ) : List (κ × α) → Option α
  | [] => none
  | (k, value) :: rest =>
    if key < k then none else if k < key then lookup key rest else some value

def find? (index : Index κ α) (key : κ) : Option α := lookup key index.entries

def contains (index : Index κ α) (key : κ) : Bool := (index.find? key).isSome

def keys (index : Index κ α) : List κ := index.entries.map (·.1)

/-- Put a value under a key, in the place of an earlier one. -/
def place (key : κ) (value : α) : List (κ × α) → List (κ × α)
  | [] => [(key, value)]
  | (k, old) :: rest =>
    if key < k then (key, value) :: (k, old) :: rest
    else if k < key then (k, old) :: place key value rest
    else (key, value) :: rest

theorem of_mem_place (key : κ) (value : α) (entries : List (κ × α)) (entry : κ × α)
    (member : entry ∈ place key value entries) : entry = (key, value) ∨ entry ∈ entries := by
  induction entries with
  | nil => exact .inl (by simpa [place] using member)
  | cons head rest ih =>
    unfold place at member
    split at member
    next => exact (List.mem_cons.mp member)
    next =>
      split at member
      next =>
        rcases List.mem_cons.mp member with same | later
        · exact .inr (by simp [same])
        · exact (ih later).imp_right (List.mem_cons_of_mem _)
      next => exact (List.mem_cons.mp member).imp_right (List.mem_cons_of_mem _)

end Lookup

section Ordered
variable {κ α β : Type} [LE κ] [LT κ] [DecidableLT κ] [Std.IsLinearOrder κ] [Std.LawfulOrderLT κ]

omit [DecidableLT κ] in
theorem eq_of_not_lt {a b : κ} (below : ¬a < b) (above : ¬b < a) : a = b :=
  (Std.lt_trichotomy a b).elim (absurd · below) fun rest => rest.elim id (absurd · above)

theorem place_ascending (key : κ) (value : α) (entries : List (κ × α))
    (ascending : entries.Pairwise (fun first second => first.1 < second.1)) :
    (place key value entries).Pairwise (fun first second => first.1 < second.1) := by
  induction entries with
  | nil => simp [place]
  | cons head rest ih =>
    obtain ⟨k,old⟩ := head
    obtain ⟨above,tail⟩ := List.pairwise_cons.mp ascending
    unfold place
    split
    next first =>
      refine List.pairwise_cons.mpr ⟨?_,ascending⟩
      intro entry member
      rcases List.mem_cons.mp member with rfl | later
      · exact first
      · exact Std.lt_trans first (above entry later)
    next notFirst =>
      split
      next past =>
        refine List.pairwise_cons.mpr ⟨?_,ih tail⟩
        intro entry member
        rcases of_mem_place key value rest entry member with rfl | later
        · exact past
        · exact above entry later
      next notPast =>
        rw [eq_of_not_lt notFirst notPast]
        exact List.pairwise_cons.mpr ⟨above,tail⟩

def insert (index : Index κ α) (key : κ) (value : α) : Index κ α :=
  ⟨place key value index.entries,place_ascending key value index.entries index.ascending⟩

/-- Of several entries with one key the last is kept. -/
def ofList (entries : List (κ × α)) : Index κ α :=
  entries.foldl (fun index entry => index.insert entry.1 entry.2) empty

/-- Both contents; under a common key the later one stays. -/
def merge (earlier later : Index κ α) : Index κ α :=
  later.entries.foldl (fun index entry => index.insert entry.1 entry.2) earlier

def map (f : α → β) (index : Index κ α) : Index κ β where
  entries := index.entries.map fun entry => (entry.1, f entry.2)
  ascending := List.pairwise_map.mpr index.ascending

instance [DecidableEq κ] [DecidableEq α] : DecidableEq (Index κ α) := fun first second =>
  decidable_of_iff (first.entries = second.entries) ⟨eq_of_entries,fun same => by rw [same]⟩

omit [Std.IsLinearOrder κ] in
theorem lookup_place_self (key : κ) (value : α) (entries : List (κ × α)) :
    lookup key (place key value entries) = some value := by
  have irreflexive : ¬key < key := Std.lt_irrefl
  induction entries with
  | nil => simp [place, lookup, irreflexive]
  | cons head rest ih =>
    unfold place
    split
    next => simp [lookup, irreflexive]
    next notFirst =>
      split
      next past => simp [lookup, notFirst, past, ih]
      next => simp [lookup, irreflexive]

theorem lookup_place_of_ne {key other : κ} (different : other ≠ key) (value : α)
    (entries : List (κ × α)) (ascending : entries.Pairwise (fun first second => first.1 < second.1)) :
    lookup other (place key value entries) = lookup other entries := by
  induction entries with
  | nil =>
    simp only [place, lookup]
    split
    · rfl
    · split
      · rfl
      · exact absurd (eq_of_not_lt (by assumption) (by assumption)) different
  | cons head rest ih =>
    obtain ⟨k,old⟩ := head
    obtain ⟨above,tail⟩ := List.pairwise_cons.mp ascending
    unfold place
    split
    next first =>
      unfold lookup
      split
      next low => rw [if_pos (Std.lt_trans low first)]
      next notLow =>
        split
        next => rfl
        next notHigh => exact absurd (eq_of_not_lt notLow notHigh) different
    next notFirst =>
      split
      next past => simp only [lookup, ih tail]
      next notPast =>
        cases eq_of_not_lt notFirst notPast
        unfold lookup
        split
        next => rfl
        next notLow =>
          split
          next => rfl
          next notHigh => exact absurd (eq_of_not_lt notLow notHigh) different

omit [Std.IsLinearOrder κ] in
theorem place_place (key : κ) (value later : α) (entries : List (κ × α)) :
    place key later (place key value entries) = place key later entries := by
  have irreflexive : ¬key < key := Std.lt_irrefl
  induction entries with
  | nil => simp [place, irreflexive]
  | cons head rest ih =>
    by_cases first : key < head.1
    · simp [place, first, irreflexive]
    · by_cases past : head.1 < key
      · simp [place, first, past, ih]
      · simp [place, first, past, irreflexive]

/-- Only the last of several values under one key is kept. -/
theorem insert_insert (index : Index κ α) (key : κ) (value later : α) :
    (index.insert key value).insert key later = index.insert key later :=
  eq_of_entries (place_place key value later index.entries)

theorem find?_insert_self (index : Index κ α) (key : κ) (value : α) :
    (index.insert key value).find? key = some value :=
  lookup_place_self key value index.entries

theorem find?_insert_of_ne (index : Index κ α) {key other : κ} (different : other ≠ key)
    (value : α) : (index.insert key value).find? other = index.find? other :=
  lookup_place_of_ne different value index.entries index.ascending

theorem mem_of_find? {index : Index κ α} {key : κ} {value : α}
    (found : index.find? key = some value) : (key, value) ∈ index.entries := by
  obtain ⟨entries,ascending⟩ := index
  change lookup key entries = some value at found
  change (key, value) ∈ entries
  clear ascending
  induction entries with
  | nil => cases found
  | cons head rest ih =>
    unfold lookup at found
    split at found
    next => cases found
    next notLow =>
      split at found
      next => exact List.mem_cons_of_mem _ (ih found)
      next notHigh =>
        cases found
        rw [eq_of_not_lt notLow notHigh]
        exact List.mem_cons_self

theorem find?_of_mem {index : Index κ α} {key : κ} {value : α} (member : (key, value) ∈ index.entries) :
    index.find? key = some value := by
  obtain ⟨entries,ascending⟩ := index
  change lookup key entries = some value
  change (key, value) ∈ entries at member
  have irreflexive : ¬key < key := Std.lt_irrefl
  induction entries with
  | nil => cases member
  | cons head rest ih =>
    obtain ⟨above,tail⟩ := List.pairwise_cons.mp ascending
    rcases List.mem_cons.mp member with rfl | later
    · simp [lookup, irreflexive]
    · have past := above _ later
      have notBelow : ¬key < head.1 := fun below => irreflexive (Std.lt_trans below past)
      simp only [lookup, notBelow, past, if_true, if_false]
      exact ih tail later

theorem mem_keys_of_find? {index : Index κ α} {key : κ} {value : α}
    (found : index.find? key = some value) : key ∈ index.keys :=
  List.mem_map.mpr ⟨_,mem_of_find? found,rfl⟩

theorem mem_keys_iff {index : Index κ α} {key : κ} :
    key ∈ index.keys ↔ ∃ value, index.find? key = some value := by
  refine ⟨fun member => ?_,fun ⟨_,found⟩ => mem_keys_of_find? found⟩
  obtain ⟨entry,listed,rfl⟩ := List.mem_map.mp member
  exact ⟨entry.2,find?_of_mem listed⟩

end Ordered
end Index
end Scriptorium
