import Scriptorium.Spacing
import Scriptorium.Text.Blank

/-! Nested markup: text without angle brackets, tags that close themselves, and elements whose
end tag has the name of their start tag, one after the other and inside one another. -/
namespace Scriptorium

/-- Free of the characters that end a text or an attribute. -/
def IsPlain (text : String) : Prop := ∀ c ∈ text.toList, c ≠ '<' ∧ c ≠ '>' ∧ c ≠ '&' ∧ c ≠ '"'

/-- Free of the brackets of tags. -/
def IsText (text : String) : Prop := ∀ c ∈ text.toList, c ≠ '<' ∧ c ≠ '>'

-- The instance is written out, since one that tries every character may be in scope as well.
instance (text : String) : Decidable (IsPlain text) := List.decidableBAll _ text.toList

instance (text : String) : Decidable (IsText text) := List.decidableBAll _ text.toList

def IsName (name : String) : Prop :=
  name ≠ "" ∧ ∀ c ∈ name.toList, (c.isAlphanum || c == ':') = true

instance (name : String) : Decidable (IsName name) :=
  @instDecidableAnd _ _ _ (List.decidableBAll _ name.toList)

inductive Attributes : String → Prop
  | nil : Attributes ""
  | cons {name value rest : String} (named : IsName name) (plain : IsPlain value)
      (others : Attributes rest) : Attributes (" " ++ name ++ "=\"" ++ value ++ "\"" ++ rest)

inductive Nested : String → Prop
  | text {text : String} (free : IsText text) : Nested text
  | closed {name attributes gap : String} (named : IsName name) (listed : Attributes attributes)
      (blank : gap = "" ∨ gap = " ") : Nested ("<" ++ name ++ attributes ++ gap ++ "/>")
  | element {name attributes content : String} (named : IsName name)
      (listed : Attributes attributes) (inside : Nested content) :
      Nested ("<" ++ name ++ attributes ++ ">" ++ content ++ "</" ++ name ++ ">")
  | append {first second : String} (before : Nested first) (behind : Nested second) :
      Nested (first ++ second)

theorem IsPlain.nested {text : String} (plain : IsPlain text) : Nested text :=
  .text fun c member => ⟨(plain c member).1,(plain c member).2.1⟩

theorem IsPlain.append {first second : String} (before : IsPlain first) (behind : IsPlain second) :
    IsPlain (first ++ second) := by
  intro c member
  rw [String.toList_append, List.mem_append] at member
  rcases member with early | late
  · exact before c early
  · exact behind c late

theorem isPlain_toString (n : Nat) : IsPlain (toString n) := by
  intro c member
  have digit : c.isDigit = true := by
    have shown : c ∈ Nat.toDigits 10 n := by simpa [toString, Nat.repr] using member
    exact Nat.isDigit_of_mem_toDigits (by decide) (by decide) shown
  refine ⟨?_,?_,?_,?_⟩ <;> rintro rfl <;> simp at digit

theorem clean_cons {name value : String} {rest : List (String × String)} (named : IsName name)
    (plain : IsPlain value) (others : ∀ pair ∈ rest, IsName pair.1 ∧ IsPlain pair.2) :
    ∀ pair ∈ (name, value) :: rest, IsName pair.1 ∧ IsPlain pair.2 :=
  List.forall_mem_cons.mpr ⟨⟨named,plain⟩,others⟩

theorem attributes_of_pairs {pairs : List (String × String)}
    (clean : ∀ pair ∈ pairs, IsName pair.1 ∧ IsPlain pair.2) : Attributes (Text.attributes pairs) := by
  induction pairs with
  | nil => exact .nil
  | cons pair rest ih =>
    have first := clean pair (by simp)
    have others := ih fun other member => clean other (by simp [member])
    simpa [Text.attributes] using Attributes.cons first.1 first.2 others

namespace Nested

theorem tagged {name content : String} {pairs : List (String × String)} (named : IsName name)
    (clean : ∀ pair ∈ pairs, IsName pair.1 ∧ IsPlain pair.2) (inside : Nested content) :
    Nested (Text.element name pairs content) :=
  .element named (attributes_of_pairs clean) inside

theorem join {fragments : List String} (each : ∀ fragment ∈ fragments, Nested fragment) :
    Nested (String.join fragments) := by
  induction fragments with
  | nil => exact .text (by decide)
  | cons fragment rest ih =>
    have others := ih fun other member => each other (by simp [member])
    simpa using (each fragment (by simp)).append others

theorem escape (text : String) : Nested (Text.escape text) := by
  refine .text fun c member => ?_
  simp only [Text.escape, String.toList_ofList, List.mem_flatMap] at member
  obtain ⟨source,_,shown⟩ := member
  unfold Text.escapeChar at shown
  split at shown
  next => exact (by decide : IsText "&amp;") c shown
  next => exact (by decide : IsText "&lt;") c shown
  next => exact (by decide : IsText "&gt;") c shown
  next noAmp noLess noGreater =>
    rw [List.mem_singleton.mp shown]
    exact ⟨noLess,noGreater⟩

/-- What is not a bracket can be taken off the front of nested markup. -/
theorem tail {text : String} (nested : Nested text) {c : Char} {rest : List Char}
    (front : text.toList = c :: rest) (noLess : c ≠ '<') : Nested (String.ofList rest) := by
  induction nested generalizing rest with
  | text free =>
    refine .text fun d member => free d ?_
    rw [String.toList_ofList] at member
    rw [front]
    exact List.mem_cons_of_mem _ member
  | closed | element =>
    simp only [String.toList_append, List.append_assoc, String.reduceToList, List.cons_append,
      List.cons_eq_cons] at front
    exact absurd front.1.symm noLess
  | @append first second before behind early late =>
    rw [String.toList_append] at front
    cases shape : first.toList with
    | nil =>
      rw [shape] at front
      exact late front
    | cons d others =>
      rw [shape] at front
      obtain ⟨rfl,rfl⟩ := List.cons_eq_cons.mp front
      simpa using (early shape).append behind

theorem dropLast {text : String} (nested : Nested text) {c : Char} {rest : List Char}
    (back : text.toList = rest ++ [c]) (noGreater : c ≠ '>') : Nested (String.ofList rest) := by
  induction nested generalizing rest with
  | text free =>
    refine .text fun d member => free d ?_
    rw [String.toList_ofList] at member
    rw [back]
    exact List.mem_append_left _ member
  | closed | element =>
    have last := congrArg List.getLast? back
    rw [String.toList_append, List.getLast?_append, List.getLast?_append] at last
    have same : '>' = c := by simpa using last
    exact absurd same.symm noGreater
  | @append first second before behind early late =>
    rw [String.toList_append] at back
    rcases List.eq_nil_or_concat second.toList with shape | ⟨others,d,shape⟩
    · rw [shape, List.append_nil] at back
      exact early back
    · rw [List.concat_eq_append] at shape
      rw [shape, ← List.append_assoc] at back
      obtain ⟨rfl,same⟩ := List.append_inj' back rfl
      cases same
      simpa using before.append (late shape)

theorem dropBlank {cs : List Char} (nested : Nested (String.ofList cs)) :
    Nested (String.ofList (cs.dropWhile Text.isBlank)) := by
  induction cs with
  | nil => exact nested
  | cons c rest ih =>
    rw [List.dropWhile_cons]
    split
    next blank =>
      have noLess : c ≠ '<' := by rintro rfl; revert blank; decide
      exact ih (nested.tail String.toList_ofList noLess)
    next => exact nested

theorem trimEnd {cs : List Char} (nested : Nested (String.ofList cs)) :
    Nested (String.ofList (Text.trimEnd cs)) := by
  rw [← cs.reverse_reverse] at nested
  unfold Text.trimEnd
  generalize cs.reverse = turned at nested ⊢
  induction turned with
  | nil => exact nested
  | cons c rest ih =>
    rw [List.dropWhile_cons]
    split
    next blank =>
      have noGreater : c ≠ '>' := by rintro rfl; revert blank; decide
      refine ih (nested.dropLast ?_ noGreater)
      rw [String.toList_ofList, List.reverse_cons]
    next => exact nested

theorem trim {text : String} (nested : Nested text) : Nested (Text.trim text) := by
  rw [← text.ofList_toList] at nested
  exact nested.dropBlank.trimEnd

theorem respaceEnd {entity fragment : String} (inserted : Nested entity) (nested : Nested fragment) :
    Nested (Spacing.respaceEnd entity fragment) := by
  unfold Spacing.respaceEnd
  split
  next spaced =>
    obtain ⟨front,shape⟩ := List.getLast?_eq_some_iff.mp spaced
    rw [shape, List.dropLast_concat]
    exact (nested.dropLast shape (by decide)).append inserted
  next => exact nested

end Nested
end Scriptorium
