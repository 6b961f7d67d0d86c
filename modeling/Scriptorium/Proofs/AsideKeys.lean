import Mathlib.Data.List.TakeWhile
import Scriptorium.Export.Plan
import Scriptorium.Proofs.SharedEdition

/-! Numerals as keys. In the file of a plan one entry may be named by many keys, which blanks around them, a plus
sign or leading zeros tell apart. They are read in the order of their characters, and each takes the place of the
ones before it: the settings know the entries that some key names, each by the aside of the last such key. -/
namespace Scriptorium
namespace Text

/-- One or more digits after an optional plus sign, and the number that they stand for. -/
def Numeral (cs : List Char) (n : Nat) : Prop :=
  ∃ digits, (cs = digits ∨ cs = '+' :: digits) ∧ digits ≠ [] ∧ (∀ c ∈ digits, c.isDigit = true) ∧
    Nat.ofDigitChars 10 digits 0 = n

/-- A numeral of an entry number, perhaps with blanks around it. -/
def Names (key : String) (entry : UInt32) : Prop :=
  ∃ lead core trail, key.toList = lead ++ (core ++ trail) ∧ (∀ c ∈ lead, isBlank c = true) ∧
    (∀ c ∈ trail, isBlank c = true) ∧ Numeral core entry.toNat

theorem natural?_eq_some_iff {digits : List Char} {n : Nat} : natural? digits = some n ↔
    digits ≠ [] ∧ (∀ c ∈ digits, c.isDigit = true) ∧ Nat.ofDigitChars 10 digits 0 = n := by
  simp [natural?, and_assoc]

theorem word?_eq_some_iff {n : Nat} {word : UInt32} : word? n = some word ↔ n = word.toNat := by
  constructor
  · intro fits
    unfold word? at fits
    split at fits
    next inside =>
      cases fits
      exact (UInt32.toNat_ofNat_of_lt' inside).symm
    next => cases fits
  · rintro rfl
    exact word?_toNat word

theorem looseWord?_eq_some_iff {text : String} {word : UInt32} :
    looseWord? text = some word ↔ Numeral text.toList word.toNat := by
  unfold looseWord? Numeral
  simp only [Option.bind_eq_some_iff, natural?_eq_some_iff, word?_eq_some_iff]
  split
  next rest signed =>
    rw [signed]
    constructor
    · rintro ⟨n,⟨some_digit,all,value⟩,rfl⟩
      exact ⟨rest,.inr rfl,some_digit,all,value⟩
    · rintro ⟨digits,rfl | spelled,some_digit,all,value⟩
      · exact absurd (all '+' List.mem_cons_self) (by decide)
      · cases spelled
        exact ⟨_,⟨some_digit,all,value⟩,rfl⟩
  next unsigned =>
    constructor
    · rintro ⟨n,⟨some_digit,all,value⟩,rfl⟩
      exact ⟨_,.inl rfl,some_digit,all,value⟩
    · rintro ⟨digits,rfl | spelled,some_digit,all,value⟩
      · exact ⟨_,⟨some_digit,all,value⟩,rfl⟩
      · exact absurd spelled (unsigned digits)

theorem isBlank_of_isDigit {c : Char} (digit : c.isDigit = true) : isBlank c = false := by
  simp only [Char.isDigit, Bool.and_eq_true, decide_eq_true_eq, ge_iff_le, UInt32.le_iff_toNat_le] at digit
  have high : 48 ≤ c.toNat := digit.1
  have low : c.toNat ≤ 57 := digit.2
  simp only [isBlank, Bool.or_eq_false_iff, Bool.and_eq_false_iff, decide_eq_false_iff_not, beq_eq_false_iff_ne]
  omega

theorem Numeral.unblank {cs : List Char} {n : Nat} (numeral : Numeral cs n) :
    cs ≠ [] ∧ ∀ c ∈ cs, isBlank c = false := by
  obtain ⟨digits,rfl | rfl,some_digit,all,_⟩ := numeral
  · exact ⟨some_digit,fun c member => isBlank_of_isDigit (all c member)⟩
  · refine ⟨List.cons_ne_nil _ _,fun c member => ?_⟩
    rcases List.mem_cons.mp member with rfl | later
    · decide
    · exact isBlank_of_isDigit (all c later)

theorem trim_split (text : String) : ∃ lead trail, text.toList = lead ++ ((trim text).toList ++ trail) ∧
    (∀ c ∈ lead, isBlank c = true) ∧ ∀ c ∈ trail, isBlank c = true := by
  let rest := text.toList.dropWhile isBlank
  refine ⟨text.toList.takeWhile isBlank,(rest.reverse.takeWhile isBlank).reverse,?_,?_,?_⟩
  · rw [trim, String.toList_ofList, trimEnd, ← List.reverse_append, List.takeWhile_append_dropWhile,
      List.reverse_reverse, List.takeWhile_append_dropWhile]
  · exact fun c member => List.mem_takeWhile_imp member
  · exact fun c member => List.mem_takeWhile_imp (List.mem_reverse.mp member)

theorem trim_of_split {text : String} {lead core trail : List Char} (split : text.toList = lead ++ (core ++ trail))
    (before : ∀ c ∈ lead, isBlank c = true) (behind : ∀ c ∈ trail, isBlank c = true) (some_char : core ≠ [])
    (unblank : ∀ c ∈ core, isBlank c = false) : (trim text).toList = core := by
  have stays {cs rest : List Char} (some_char : cs ≠ []) (unblank : ∀ c ∈ cs, isBlank c = false) :
      (cs ++ rest).dropWhile isBlank = cs ++ rest := by
    obtain ⟨c,cs,rfl⟩ := List.exists_cons_of_ne_nil some_char
    exact List.dropWhile_cons_of_neg (by simp [unblank])
  rw [trim, String.toList_ofList, split, List.dropWhile_append_of_pos before, stays some_char unblank, trimEnd,
    List.reverse_append, List.dropWhile_append_of_pos (by simpa using behind), ← List.append_nil core.reverse,
    stays (by simpa using some_char) (by simpa using unblank), List.append_nil, List.reverse_reverse]

theorem names_iff {key : String} {entry : UInt32} : Names key entry ↔ looseWord? (trim key) = some entry := by
  rw [looseWord?_eq_some_iff]
  constructor
  · rintro ⟨lead,core,trail,split,before,behind,numeral⟩
    rwa [trim_of_split split before behind numeral.unblank.1 numeral.unblank.2]
  · intro numeral
    obtain ⟨lead,trail,split,before,behind⟩ := trim_split key
    exact ⟨lead,_,trail,split,before,behind,numeral⟩

theorem Names.unique {key : String} {entry other : UInt32} (names : Names key entry) (names' : Names key other) :
    entry = other :=
  Option.some.inj ((names_iff.mp names).symm.trans (names_iff.mp names'))

/-- A key that names some entry. -/
def IsNumeral (key : String) : Prop := ∃ entry, Names key entry

end Text

namespace Plan
open Text (Names IsNumeral)
variable {layout : Layout} {terms : Index String UInt32} {entries rest : List (String × String)}
variable {key aside text : String} {entry : UInt32}

/-- What the last of the keys that name an entry gives to it. -/
def Reigns (entries : List (String × String)) (entry : UInt32) (aside : String) : Prop :=
  ∃ key, (key, aside) ∈ entries ∧ Names key entry ∧ ∀ other ∈ entries, Names other.1 entry → other.1 ≤ key

theorem reigns_cons (above : ∀ other ∈ rest, key < other.1) : Reigns ((key, text) :: rest) entry aside ↔
    Reigns rest entry aside ∨ Names key entry ∧ aside = text ∧ ∀ other ∈ rest, ¬Names other.1 entry := by
  constructor
  · rintro ⟨last,member,names,greatest⟩
    rcases List.mem_cons.mp member with same | later
    · cases same
      refine .inr ⟨names,rfl,fun other listed named => ?_⟩
      exact absurd (greatest other (List.mem_cons_of_mem _ listed) named) (Std.not_le.mpr (above other listed))
    · exact .inl ⟨last,later,names,fun other listed => greatest other (List.mem_cons_of_mem _ listed)⟩
  · rintro (⟨last,member,names,greatest⟩ | ⟨names,rfl,unnamed⟩)
    · refine ⟨last,List.mem_cons_of_mem _ member,names,fun other listed named => ?_⟩
      rcases List.mem_cons.mp listed with rfl | later
      · exact Std.le_of_lt (above _ member)
      · exact greatest other later named
    · refine ⟨key,List.mem_cons_self,names,fun other listed named => ?_⟩
      rcases List.mem_cons.mp listed with rfl | later
      · exact Std.le_refl _
      · exact absurd named (unnamed other later)

theorem settingsOf?_named (names : Names key entry) (asides : Index UInt32 String) :
    settingsOf? layout terms ((key, text) :: rest) asides =
      settingsOf? layout terms rest (asides.insert entry text) := by
  rw [settingsOf?.eq_def]
  simp only [Text.names_iff.mp names]

theorem settingsOf?_unnamed (unnamed : ¬IsNumeral key) (asides : Index UInt32 String) :
    settingsOf? layout terms ((key, text) :: rest) asides = .error key := by
  rw [settingsOf?.eq_def]
  simp only
  split
  next entry read => exact absurd ⟨entry,Text.names_iff.mpr read⟩ unnamed
  next => rfl

/-- Numerals are read to the end, and each takes the place of the ones before it that name the same entry. -/
theorem settingsOf?_of_numerals (ascending : entries.Pairwise (fun first second => first.1 < second.1))
    (numerals : ∀ member ∈ entries, IsNumeral member.1) (asides : Index UInt32 String) :
    ∃ settings, settingsOf? layout terms entries asides = .ok settings ∧
      settings.layout = layout ∧ settings.terms = terms ∧
      ∀ entry aside, settings.asides.find? entry = some aside ↔
        Reigns entries entry aside ∨
          (∀ member ∈ entries, ¬Names member.1 entry) ∧ asides.find? entry = some aside := by
  induction entries generalizing asides with
  | nil => exact ⟨_,rfl,rfl,rfl,fun entry aside => by simp [Reigns]⟩
  | cons head rest ih =>
    obtain ⟨key,text⟩ := head
    obtain ⟨above,tail⟩ := List.pairwise_cons.mp ascending
    obtain ⟨number,names⟩ := numerals _ List.mem_cons_self
    obtain ⟨settings,read,same,kept,found⟩ :=
      ih tail (fun member listed => numerals member (List.mem_cons_of_mem _ listed)) (asides.insert number text)
    refine ⟨settings,(settingsOf?_named names asides).trans read,same,kept,fun entry aside => ?_⟩
    rw [found, reigns_cons above, Index.find?_insert, List.forall_mem_cons]
    by_cases own : entry = number
    · subst own
      simp [names, eq_comm, and_comm]
    · have other : ¬Names key entry := fun named => own (named.unique names)
      simp [own, other]

theorem settingsOf?_eq_error_iff {asides : Index UInt32 String} :
    settingsOf? layout terms entries asides = .error key ↔
    ∃ before text behind, entries = before ++ (key, text) :: behind ∧ (∀ member ∈ before, IsNumeral member.1) ∧
      ¬IsNumeral key := by
  induction entries generalizing asides with
  | nil =>
    have read : settingsOf? layout terms [] asides = .ok ⟨layout,terms,asides⟩ := rfl
    simp [read]
  | cons head rest ih =>
    obtain ⟨first,value⟩ := head
    by_cases named : IsNumeral first
    · obtain ⟨number,names⟩ := named
      rw [settingsOf?_named names, ih]
      constructor
      · rintro ⟨before,text,behind,rfl,numerals,unnamed⟩
        exact ⟨(first, value) :: before,text,behind,rfl,List.forall_mem_cons.mpr ⟨⟨number,names⟩,numerals⟩,unnamed⟩
      · rintro ⟨before,text,behind,split,numerals,unnamed⟩
        cases before with
        | nil =>
          cases split
          exact absurd ⟨number,names⟩ unnamed
        | cons other before =>
          cases split
          exact ⟨before,text,behind,rfl,(List.forall_mem_cons.mp numerals).2,unnamed⟩
    · rw [settingsOf?_unnamed named]
      constructor
      · intro same
        cases same
        exact ⟨[],value,rest,rfl,by simp,named⟩
      · rintro ⟨before,text,behind,split,numerals,unnamed⟩
        cases before with
        | nil => cases split; rfl
        | cons other before =>
          cases split
          exact absurd (numerals _ List.mem_cons_self) named

theorem numerals_of_settingsOf? {asides : Index UInt32 String} {settings : Settings}
    (read : settingsOf? layout terms entries asides = .ok settings) : ∀ member ∈ entries, IsNumeral member.1 := by
  induction entries generalizing asides with
  | nil => simp
  | cons head rest ih =>
    obtain ⟨first,value⟩ := head
    by_cases named : IsNumeral first
    · obtain ⟨number,names⟩ := named
      rw [settingsOf?_named names] at read
      exact List.forall_mem_cons.mpr ⟨⟨number,names⟩,ih read⟩
    · rw [settingsOf?_unnamed named] at read
      cases read

theorem exists_reigns (ascending : entries.Pairwise (fun first second => first.1 < second.1))
    (named : ∃ member ∈ entries, Names member.1 entry) : ∃ aside, Reigns entries entry aside := by
  induction entries with
  | nil => simp at named
  | cons head rest ih =>
    obtain ⟨above,tail⟩ := List.pairwise_cons.mp ascending
    simp only [reigns_cons above]
    by_cases later : ∃ member ∈ rest, Names member.1 entry
    · obtain ⟨aside,reigns⟩ := ih tail later
      exact ⟨aside,.inl reigns⟩
    · have own : Names head.1 entry := by
        obtain ⟨member,listed,names⟩ := named
        rcases List.mem_cons.mp listed with rfl | inside
        · exact names
        · exact absurd ⟨member,inside,names⟩ later
      exact ⟨head.2,.inr ⟨own,rfl,fun member listed names => later ⟨member,listed,names⟩⟩⟩

section Keys
variable (plan : Plan)

theorem forall_keys {kept : String → Prop} : (∀ key ∈ plan.asides.keys, kept key) ↔
    ∀ member ∈ plan.asides.entries, kept member.1 :=
  List.forall_mem_map

theorem reigns_iff : Reigns plan.asides.entries entry aside ↔ ∃ key, plan.asides.find? key = some aside ∧
    Names key entry ∧ ∀ other ∈ plan.asides.keys, Names other entry → other ≤ key := by
  simp only [forall_keys, Reigns]
  constructor <;> rintro ⟨key,listed,reigns⟩
  · exact ⟨key,Index.find?_of_mem listed,reigns⟩
  · exact ⟨key,Index.mem_of_find? listed,reigns⟩

/-- The keys are gone through in order, so that the first that is no numeral is the least of these. -/
theorem settings?_eq_error_iff : plan.settings? = .error key ↔ key ∈ plan.asides.keys ∧ ¬IsNumeral key ∧
    ∀ other ∈ plan.asides.keys, ¬IsNumeral other → key ≤ other := by
  have ascending := plan.asides.ascending
  rw [settings?, settingsOf?_eq_error_iff, forall_keys, Index.keys, List.mem_map]
  constructor
  · rintro ⟨before,text,behind,split,numerals,unnamed⟩
    rw [split] at ascending ⊢
    refine ⟨⟨(key, text),by simp,rfl⟩,unnamed,fun other listed named => ?_⟩
    rcases List.mem_append.mp listed with early | late
    · exact absurd (numerals other early) named
    · rcases List.mem_cons.mp late with rfl | behind
      · exact Std.le_refl _
      · exact Std.le_of_lt ((List.pairwise_cons.mp (List.pairwise_append.mp ascending).2.1).1 other behind)
  · rintro ⟨⟨member,listed,rfl⟩,unnamed,least⟩
    obtain ⟨before,behind,split⟩ := List.append_of_mem listed
    refine ⟨before,member.2,behind,split,fun other early => ?_,unnamed⟩
    by_contra named
    rw [split] at ascending least
    have below : other.1 < member.1 := (List.pairwise_append.mp ascending).2.2 other early member List.mem_cons_self
    exact absurd (least other (List.mem_append_left _ early) named) (Std.not_le.mpr below)

theorem settings?_of_numerals (numerals : ∀ key ∈ plan.asides.keys, IsNumeral key) :
    ∃ settings, plan.settings? = .ok settings ∧ settings.layout = plan.layout ∧ settings.terms = plan.terms ∧
      ∀ entry aside, settings.asides.find? entry = some aside ↔ Reigns plan.asides.entries entry aside := by
  obtain ⟨settings,read,layout,terms,found⟩ :=
    settingsOf?_of_numerals plan.asides.ascending (plan.forall_keys.mp numerals) ∅
  refine ⟨settings,read,layout,terms,fun entry aside => ?_⟩
  have absent : (∅ : Index UInt32 String).find? entry = none := rfl
  simp [found, absent]

theorem contains_of_reigns {settings : Settings}
    (found : ∀ entry aside, settings.asides.find? entry = some aside ↔ Reigns plan.asides.entries entry aside)
    (entry : UInt32) :
    settings.asides.contains entry = true ↔ ∃ key ∈ plan.asides.keys, Names key entry := by
  simp only [Index.contains, Option.isSome_iff_exists, found]
  constructor
  · rintro ⟨aside,key,listed,names,_⟩
    exact ⟨key,List.mem_map_of_mem listed,names⟩
  · rintro ⟨key,listed,names⟩
    obtain ⟨member,inside,rfl⟩ := List.mem_map.mp listed
    exact exists_reigns plan.asides.ascending ⟨member,inside,names⟩

end Keys

/-- The settings of a plan are told by its keys: whether there are any, or for which key there are none, and which
aside each entry has. All else is carried over. -/
theorem settings_exact (plan : Plan) :
    ((∃ settings, plan.settings? = .ok settings) ↔ ∀ key ∈ plan.asides.keys, IsNumeral key) ∧
    (∀ key, plan.settings? = .error key ↔ key ∈ plan.asides.keys ∧ ¬IsNumeral key ∧
      ∀ other ∈ plan.asides.keys, ¬IsNumeral other → key ≤ other) ∧
    ∀ settings, plan.settings? = .ok settings ↔ (∀ key ∈ plan.asides.keys, IsNumeral key) ∧
      settings.layout = plan.layout ∧ settings.terms = plan.terms ∧
      (∀ entry, settings.asides.contains entry = true ↔ ∃ key ∈ plan.asides.keys, Names key entry) ∧
      ∀ entry aside, settings.asides.find? entry = some aside ↔ ∃ key, plan.asides.find? key = some aside ∧
        Names key entry ∧ ∀ other ∈ plan.asides.keys, Names other entry → other ≤ key := by
  refine ⟨⟨fun ⟨_,read⟩ => plan.forall_keys.mpr (numerals_of_settingsOf? read),fun numerals => ?_⟩,
    fun key => plan.settings?_eq_error_iff,fun settings => ?_⟩
  · obtain ⟨settings,read,_⟩ := plan.settings?_of_numerals numerals
    exact ⟨settings,read⟩
  simp only [← reigns_iff]
  constructor
  · intro settled
    have numerals : ∀ key ∈ plan.asides.keys, IsNumeral key := plan.forall_keys.mpr (numerals_of_settingsOf? settled)
    obtain ⟨same,known,layout,terms,found⟩ := plan.settings?_of_numerals numerals
    cases settled.symm.trans known
    exact ⟨numerals,layout,terms,plan.contains_of_reigns found,found⟩
  · rintro ⟨numerals,layout,terms,_,found⟩
    obtain ⟨⟨_,_,asides⟩,known,rfl,rfl,found'⟩ := plan.settings?_of_numerals numerals
    have same : settings.asides = asides :=
      Index.ext_find? fun entry => Option.ext fun aside => (found entry aside).trans (found' entry aside).symm
    obtain ⟨_,_,_⟩ := settings
    cases layout
    cases terms
    cases same
    exact known

/-- Four keys of one entry. The one with a no-break space before it is the last. -/
def spelled : Plan where
  outputDir := "out"
  asides := .ofList [("2", "bare"), ("+2", "signed"), ("\u00a02", "spaced"), ("02", "padded")]

theorem settings_exact_spelled : spelled.settings? = .ok ⟨{},∅,.ofList [(2, "spaced")]⟩ ∧
    ∃ key, spelled.asides.find? key = some "spaced" ∧ Names key 2 ∧
      ∀ other ∈ spelled.asides.keys, Names other 2 → other ≤ key := by
  have read : spelled.settings? = .ok ⟨{},∅,.ofList [(2, "spaced")]⟩ := by decide +kernel
  obtain ⟨_,_,_,_,found⟩ := ((settings_exact spelled).2.2 _).mp read
  exact ⟨read,(found 2 "spaced").mp (by decide +kernel)⟩

end Plan
end Scriptorium
