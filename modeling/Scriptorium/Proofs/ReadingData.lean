import Mathlib.Data.List.Induction
import Scriptorium.Datum
import Scriptorium.Proofs.SharedEdition

/-! Data taken apart by their readers. A reader that takes back each item takes back a list of them, and a map is
read the same in whatever order its members stand. Of a structure, members may be left out that say no more than
what is taken where there is none. -/
namespace Scriptorium

namespace Index
variable {κ α : Type} [LE κ] [LT κ] [DecidableLT κ] [Std.IsLinearOrder κ] [Std.LawfulOrderLT κ]

theorem ofList_concat (entries : List (κ × α)) (entry : κ × α) :
    ofList (entries ++ [entry]) = (ofList entries).insert entry.1 entry.2 :=
  List.foldl_concat ..

theorem mem_of_mem_ofList {entries : List (κ × α)} {entry : κ × α} (member : entry ∈ (ofList entries).entries) :
    entry ∈ entries := by
  induction entries using List.reverseRecOn with
  | nil => cases member
  | append_singleton entries last ih =>
    rw [ofList_concat] at member
    rcases of_mem_place _ _ _ _ member with rfl | earlier
    · simp
    · exact List.mem_append_left _ (ih earlier)

theorem find?_ofList_of_mem [DecidableEq κ] {entries : List (κ × α)} (distinct : (entries.map (·.1)).Nodup)
    {key : κ} {value : α} (member : (key, value) ∈ entries) : (ofList entries).find? key = some value := by
  induction entries using List.reverseRecOn with
  | nil => cases member
  | append_singleton entries last ih =>
    rw [List.map_append, List.nodup_append] at distinct
    rw [ofList_concat, find?_insert]
    rcases List.mem_append.mp member with earlier | same
    · have other : key ≠ last.1 :=
        distinct.2.2 key (List.mem_map_of_mem earlier) last.1 (by simp)
      rw [if_neg other, ih distinct.1 earlier]
    · rw [← List.mem_singleton.mp same]
      exact if_pos rfl

omit [DecidableLT κ] [Std.IsLinearOrder κ] in
theorem keys_nodup (index : Index κ α) : (index.entries.map (·.1)).Nodup :=
  List.pairwise_map.mpr (index.ascending.imp fun below => Std.ne_of_lt below)

/-- An index is filled with its entries in any order. -/
theorem ofList_of_perm [DecidableEq κ] {index : Index κ α} {entries : List (κ × α)}
    (order : entries.Perm index.entries) : ofList entries = index := by
  have distinct : (entries.map (·.1)).Nodup := (order.map _).nodup_iff.mpr index.keys_nodup
  refine ext_find? fun key => Option.ext fun value => ?_
  constructor
  · intro found
    exact find?_of_mem (order.mem_iff.mp (mem_of_mem_ofList (mem_of_find? found)))
  · intro found
    exact find?_ofList_of_mem distinct (order.mem_iff.mpr (mem_of_find? found))

end Index

namespace Datum
variable {α β : Type}

theorem mapM_map {write : α → β} {read? : β → Option α} {values : List α}
    (back : ∀ value ∈ values, read? (write value) = some value) : (values.map write).mapM read? = some values := by
  induction values with
  | nil => rfl
  | cons value rest ih =>
    obtain ⟨first,others⟩ := List.forall_mem_cons.mp back
    rw [List.map_cons, List.mapM_cons, first, ih others]
    rfl

theorem mapM_eq_some {read? : β → Option α} {data : List β} {values : List α} (read : data.mapM read? = some values) :
    List.Forall₂ (fun datum value => read? datum = some value) data values := by
  induction data generalizing values with
  | nil => cases read; exact .nil
  | cons datum rest ih =>
    rw [List.mapM_cons] at read
    cases first : read? datum with
    | none => simp [first] at read
    | some value =>
      cases others : rest.mapM read? with
      | none => simp [first, others] at read
      | some later =>
        simp only [first, others] at read
        cases read
        exact .cons first (ih others)

theorem exists_of_mem_mapM {read? : β → Option α} {data : List β} {values : List α}
    (read : data.mapM read? = some values) {value : α} (member : value ∈ values) :
    ∃ datum ∈ data, read? datum = some value := by
  have each := mapM_eq_some read
  clear read
  induction each with
  | nil => cases member
  | @cons datum _ _ _ first _ ih =>
    rcases List.mem_cons.mp member with rfl | later
    · exact ⟨datum,List.mem_cons_self,first⟩
    · obtain ⟨found,listed,back⟩ := ih later
      exact ⟨found,List.mem_cons_of_mem _ listed,back⟩

theorem mapM_of_forall₂ {read? : β → Option α} {data : List β} {values : List α}
    (each : List.Forall₂ (fun datum value => read? datum = some value) data values) :
    data.mapM read? = some values := by
  induction each with
  | nil => rfl
  | cons first _ ih => rw [List.mapM_cons, first, ih]; rfl

theorem list?_map {write : α → Datum} {read? : Datum → Option α} {values : List α}
    (back : ∀ value ∈ values, read? (write value) = some value) :
    (list (values.map write)).list? read? = some values :=
  mapM_map back

theorem members?_map (write : α → Datum) {read? : Datum → Option α} {entries : List (String × α)}
    (back : ∀ entry ∈ entries, read? (write entry.2) = some entry.2) :
    (record (entries.map fun entry => (entry.1, write entry.2))).members? read? = some entries :=
  mapM_map fun entry member => by simp [back entry member]

/-- A record with all the fields of a structure, each once. -/
theorem fields?_record {format : Format} {names : List String} {members : List (String × Datum)}
    (complete : members.map (·.1) = names) (distinct : names.Nodup) :
    (record members).fields? format names = some members := by
  subst complete
  have fields : areFields (members.map (·.1)) members = true := by
    rw [areFields, Bool.and_eq_true, List.all_eq_true, List.all_eq_true]
    refine ⟨fun name _ => ?_,fun member listed => ?_⟩
    · have once : ((members.map (·.1)).filter (· == name)).length ≤ 1 := by
        rw [← List.countP_eq_length_filter]
        exact List.nodup_iff_count_le_one.mp distinct name
      rw [List.filter_map, List.length_map] at once
      exact decide_eq_true once
    · rw [List.contains_iff_mem.mpr (List.mem_map_of_mem listed), Bool.true_or]
  rw [fields?, if_pos fields]

theorem fields?_record_iff {format : Format} {names : List String} {members fields : List (String × Datum)} :
    (record members).fields? format names = some fields ↔ areFields names members = true ∧ fields = members := by
  rw [fields?]
  split
  next holds => simp [holds, eq_comm]
  next fails => simp [fails]

theorem once_of_areFields {names : List String} {members : List (String × Datum)}
    (fields : areFields names members = true) {name : String} (known : name ∈ names) :
    (members.filter fun member => member.1 == name).length ≤ 1 := by
  rw [areFields, Bool.and_eq_true, List.all_eq_true] at fields
  exact of_decide_eq_true (fields.1 name known)

/-- Of the members of a record some are left out that may be; what stays in its place is as before, or may be
put for it. -/
inductive Sheds (spare : String → Datum → Prop) (kept : String → Datum → Datum → Prop) :
    List (String × Datum) → List (String × Datum) → Prop
  | nil : Sheds spare kept [] []
  | keep {name value other members fewer} (same : kept name value other) (rest : Sheds spare kept members fewer) :
      Sheds spare kept ((name, value) :: members) ((name, other) :: fewer)
  | shed {name value members fewer} (idle : spare name value) (rest : Sheds spare kept members fewer) :
      Sheds spare kept ((name, value) :: members) fewer

section Sheds
variable {spare : String → Datum → Prop} {kept : String → Datum → Datum → Prop}
variable {members fewer : List (String × Datum)} {names : List String} {name : String} {read? : Datum → Option α}
variable {value : α}

theorem Sheds.count_le (sheds : Sheds spare kept members fewer) (name : String) :
    (fewer.filter fun member => member.1 == name).length ≤
      (members.filter fun member => member.1 == name).length := by
  induction sheds with
  | nil => exact Nat.le_refl _
  | keep _ _ ih =>
    rw [List.filter_cons, List.filter_cons]
    split
    · exact Nat.succ_le_succ ih
    · exact ih
  | shed _ _ ih =>
    rw [List.filter_cons]
    split
    · exact Nat.le_succ_of_le ih
    · exact ih

theorem Sheds.areFields (sheds : Sheds spare kept members fewer)
    (unknown : ∀ name value other, kept name value other → name ∉ names → value = other)
    (fields : areFields names members = true) : areFields names fewer = true := by
  rw [Datum.areFields, Bool.and_eq_true, List.all_eq_true] at fields ⊢
  refine ⟨fun name known => ?_,?_⟩
  · exact decide_eq_true ((sheds.count_le name).trans (of_decide_eq_true (fields.1 name known)))
  · have sound := fields.2
    clear fields
    induction sheds with
    | nil => rfl
    | @keep name value other members fewer same _ ih =>
      rw [List.all_cons, Bool.and_eq_true] at sound ⊢
      refine ⟨?_,ih sound.2⟩
      by_cases known : name ∈ names
      · simp [known]
      · rw [← unknown name value other same known]
        exact sound.1
    | shed _ _ ih => exact ih (Bool.and_eq_true_iff.mp sound).2

theorem lookup_of_uncounted (absent : (members.filter fun member => member.1 == name).length = 0) :
    members.lookup name = none := by
  induction members with
  | nil => rfl
  | cons member rest ih =>
    obtain ⟨other,value⟩ := member
    rw [List.filter_cons] at absent
    split at absent
    next => cases absent
    next different =>
      have apart : (name == other) = false := by
        rw [beq_eq_false_iff_ne]
        rintro rfl
        exact different (by simp)
      rw [List.lookup_cons, apart]
      exact ih absent

/-- A member of a name that stands once is there as before, or left out. -/
theorem Sheds.lookup (sheds : Sheds spare kept members fewer)
    (once : (members.filter fun member => member.1 == name).length ≤ 1) :
    (members.lookup name = none ∧ fewer.lookup name = none) ∨
    (∃ value other, members.lookup name = some value ∧ fewer.lookup name = some other ∧ kept name value other) ∨
    (∃ value, members.lookup name = some value ∧ fewer.lookup name = none ∧ spare name value) := by
  induction sheds with
  | nil => exact .inl ⟨rfl,rfl⟩
  | @keep own value other members fewer same _ ih =>
    rw [List.filter_cons] at once
    rw [List.lookup_cons, List.lookup_cons]
    cases here : name == own with
    | true =>
      rw [beq_iff_eq] at here
      subst here
      exact .inr (.inl ⟨value,other,rfl,rfl,same⟩)
    | false =>
      have apart : (own == name) = false := beq_eq_false_iff_ne.mpr (Ne.symm (beq_eq_false_iff_ne.mp here))
      exact ih (by simpa [apart] using once)
  | @shed own value members fewer idle _ ih =>
    rw [List.filter_cons] at once
    rw [List.lookup_cons]
    cases here : name == own with
    | true =>
      rw [beq_iff_eq] at here
      subst here
      -- no other member has the name
      have absent : (members.filter fun member => member.1 == name).length = 0 := by simpa using once
      rcases ih (by omega) with ⟨_,gone⟩ | ⟨value,_,found,_⟩ | ⟨value,found,_⟩
      · exact .inr (.inr ⟨value,rfl,gone,idle⟩)
      · cases (lookup_of_uncounted absent).symm.trans found
      · cases (lookup_of_uncounted absent).symm.trans found
    | false =>
      have apart : (own == name) = false := beq_eq_false_iff_ne.mpr (Ne.symm (beq_eq_false_iff_ne.mp here))
      exact ih (by simpa [apart] using once)

theorem Sheds.required? (sheds : Sheds spare kept members fewer)
    (once : (members.filter fun member => member.1 == name).length ≤ 1) (needed : ∀ datum, ¬spare name datum)
    (reads : ∀ datum other, kept name datum other → read? datum = some value → read? other = some value)
    (read : Datum.required? members name read? = some value) : Datum.required? fewer name read? = some value := by
  rw [Datum.required?, Option.bind_eq_some_iff] at read ⊢
  obtain ⟨datum,found,read⟩ := read
  rcases sheds.lookup once with ⟨none,_⟩ | ⟨first,other,here,there,same⟩ | ⟨first,here,_,idle⟩
  · cases none.symm.trans found
  · cases here.symm.trans found
    exact ⟨other,there,reads datum other same read⟩
  · exact absurd idle (needed first)

theorem Sheds.defaulted? {default : α} (sheds : Sheds spare kept members fewer)
    (once : (members.filter fun member => member.1 == name).length ≤ 1)
    (idles : ∀ datum, spare name datum → read? datum = some default)
    (reads : ∀ datum other, kept name datum other → read? datum = some value → read? other = some value)
    (read : Datum.defaulted? members name read? default = some value) :
    Datum.defaulted? fewer name read? default = some value := by
  unfold Datum.defaulted? at read ⊢
  rcases sheds.lookup once with ⟨none,gone⟩ | ⟨datum,other,here,there,same⟩ | ⟨datum,here,gone,idle⟩
  · rw [none] at read
    rwa [gone]
  · rw [here] at read
    rw [there]
    exact reads datum other same read
  · rw [here] at read
    rw [gone, ← read]
    exact (idles datum idle).symm

end Sheds
end Datum
end Scriptorium
