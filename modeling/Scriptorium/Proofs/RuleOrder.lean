import Mathlib.Data.List.Find
import Mathlib.Data.List.Infix
import Mathlib.Data.List.Perm.Subperm
import Scriptorium.Proofs.Steps

/-! The order of the rules. What a rule for scopes looks for begins in one way, and no two beginnings
agree but those of the spans, of which only the last resort is open to all; the rules of the other
kinds are told apart by the sequence. So which rule an event is handled by does not hang on their order. -/
namespace Scriptorium

namespace Text

theorem startsWith_iff {path stem : String} : startsWith path stem = true ↔ stem.toList <+: path.toList := by
  rw [startsWith, List.isPrefixOf_iff_prefix]

theorem labelAfter?_isSome (path stem : String) :
    (labelAfter? path stem).isSome = startsWith path (stem ++ "/") := by
  rw [Bool.eq_iff_iff, startsWith_iff, labelAfter?, Option.isSome_map, Option.isSome_iff_exists]
  constructor
  · rintro ⟨rest,spelled⟩
    rw [List.isPrefixOf?_eq_some_iff_append_eq] at spelled
    exact ⟨rest,by simpa using spelled⟩
  · rintro ⟨rest,spelled⟩
    exact ⟨rest,List.isPrefixOf?_eq_some_iff_append_eq.mpr (by simpa using spelled)⟩

/-- Of two beginnings of one text the shorter one begins the longer one. -/
theorem startsWith_either {path one other : String} (first : startsWith path one = true)
    (second : startsWith path other = true) : (startsWith one other || startsWith other one) = true := by
  rw [Bool.or_eq_true, startsWith_iff, startsWith_iff]
  exact (List.prefix_or_prefix_of_prefix (startsWith_iff.mp first) (startsWith_iff.mp second)).symm

end Text

namespace Rule
variable {profile : Profile} {event : Event} {rule other : Rule}

/-- How every payload begins that a rule for scopes accepts. -/
def stem : Rule → String
  | chapter => "chapter/"
  | pubChapter => "pubChapter/"
  | altChapter => "altChapter/"
  | verses => "verses/"
  | pubVerse => "pubVerse/"
  | glossaryLemma => "attribute/spanWithAtts/w/lemma"
  | tableCell => "cell/"
  | characterSpan | glossaryWord | unhandledSpan => "span"
  | _ => ""

theorem startsWith_stem (accepted : accepts profile event rule = true) :
    Text.startsWith event.payload rule.stem = true := by
  cases rule with
  | chapter | pubChapter | altChapter | verses | pubVerse =>
    simp only [accepts, opensLabel, Event.labelAfter?, Text.labelAfter?_isSome, Bool.and_eq_true] at accepted
    exact accepted.2
  | glossaryLemma =>
    rw [accepts, Bool.and_eq_true] at accepted
    exact accepted.2
  | characterSpan =>
    rw [accepts, isCharacterSpan, Bool.and_eq_true] at accepted
    exact accepted.1
  | glossaryWord =>
    rw [accepts, beq_iff_eq] at accepted
    rw [accepted]
    decide
  | tableCell | unhandledSpan => exact accepted
  | _ => rfl

/-- The sequences that a rule is for, where it is for the ends of blocks or of sequences. -/
def ends : Rule → List SequenceKind
  | endTitleBlock => [.title]
  | endHeadingBlock => [.heading]
  | endNoteBlock => [.footnote, .xref]
  | endParagraphBlock => [.main, .introduction]
  | composeDocument => [.main]
  | separateIntroduction => [.introduction]
  | _ => []

theorem sequence_mem_ends (ending : rule.kind = .blockEnd ∨ rule.kind = .sequenceEnd)
    (accepted : accepts profile event rule = true) : event.sequence ∈ rule.ends := by
  cases rule with
  | endTitleBlock | endHeadingBlock | composeDocument | separateIntroduction =>
    exact List.mem_singleton.mpr (beq_iff_eq.mp accepted)
  | endParagraphBlock =>
    rw [accepts, Bool.or_eq_true, beq_iff_eq, beq_iff_eq] at accepted
    simpa [ends] using accepted
  | endNoteBlock =>
    simp only [accepts, Bool.or_eq_true, Bool.and_eq_true, beq_iff_eq] at accepted
    simpa [ends] using accepted.imp_right And.right
  | _ => exact absurd ending (by decide)

/-- All rules for one kind of event. -/
def ofKind : EventKind → List Rule := forKind {Profile.canonical with tableCells := true}

theorem mem_ofKind (rule : Rule) : rule ∈ ofKind rule.kind := by
  cases rule <;> decide

/-- No beginning is one of another, so that one payload begins in one way. -/
theorem stem_of_accepts (scope : rule.kind = .scope) (also : other.kind = .scope)
    (one : accepts profile event rule = true) (two : accepts profile event other = true) :
    rule.stem = other.stem := by
  have apart : ∀ rule ∈ ofKind .scope, ∀ other ∈ ofKind .scope,
      (Text.startsWith rule.stem other.stem || Text.startsWith other.stem rule.stem) = true →
        rule.stem = other.stem := by decide
  exact apart rule (scope ▸ mem_ofKind rule) other (also ▸ mem_ofKind other)
    (Text.startsWith_either (startsWith_stem one) (startsWith_stem two))

theorem word_of_characterSpan (span : isCharacterSpan event = true) : event.payload ≠ "spanWithAtts/w" := by
  intro word
  rw [isCharacterSpan, isSpan, Event.segment?, word] at span
  exact absurd span (by decide)

/-- But for the last resort, no two rules of one kind accept the same event. -/
theorem eq_of_accepts (kinds : rule.kind = other.kind) (special : rule ≠ .unhandledSpan)
    (also : other ≠ .unhandledSpan) (one : accepts profile event rule = true)
    (two : accepts profile event other = true) : rule = other := by
  have here : rule ∈ ofKind rule.kind := mem_ofKind rule
  have there : other ∈ ofKind rule.kind := kinds ▸ mem_ofKind other
  have apart : ∀ kind ∈ [EventKind.blockEnd, .sequenceEnd], ∀ rule ∈ ofKind kind,
      ∀ other ∈ ofKind kind, ∀ sequence ∈ rule.ends, sequence ∈ other.ends → rule = other := by decide
  cases kind : rule.kind with
  | blockEnd =>
    rw [kind] at here there
    exact apart .blockEnd (by simp) rule here other there event.sequence
      (sequence_mem_ends (.inl kind) one) (sequence_mem_ends (.inl (kinds ▸ kind)) two)
  | sequenceEnd =>
    rw [kind] at here there
    exact apart .sequenceEnd (by simp) rule here other there event.sequence
      (sequence_mem_ends (.inr kind) one) (sequence_mem_ends (.inr (kinds ▸ kind)) two)
  | scope =>
    rw [kind] at here there
    -- a character span and a word of the glossary begin alike, but the word is no style
    have alike : ∀ rule ∈ ofKind .scope, ∀ other ∈ ofKind .scope, rule.stem = other.stem →
        rule = other ∨ rule = .unhandledSpan ∨ other = .unhandledSpan ∨
          rule = .characterSpan ∧ other = .glossaryWord ∨
          rule = .glossaryWord ∧ other = .characterSpan := by decide
    rcases alike rule here other there (stem_of_accepts kind (kinds ▸ kind) one two) with
      same | resort | resort | ⟨rfl,rfl⟩ | ⟨rfl,rfl⟩
    · exact same
    · exact absurd resort special
    · exact absurd resort also
    · exact absurd (beq_iff_eq.mp two) (word_of_characterSpan one)
    · exact absurd (beq_iff_eq.mp one) (word_of_characterSpan two)
  | documentStart | blockGraft | inlineGraft | blockStart | token =>
    rw [kind] at here there
    exact (List.mem_singleton.mp here).trans (List.mem_singleton.mp there).symm

/-- The last resort comes after all other rules. -/
def ResortLast (rules : List Rule) : Prop := .unhandledSpan ∉ rules.dropLast

theorem forKind_resortLast (profile : Profile) (kind : EventKind) : ResortLast (forKind profile kind) := by
  intro member
  have scope : kind = .scope := (kind_of_mem_forKind (List.mem_of_mem_dropLast member)).symm
  subst scope
  rw [forKind, List.dropLast_concat] at member
  simp at member

theorem forKind_nodup (profile : Profile) (kind : EventKind) : (forKind profile kind).Nodup := by
  cases kind with
  | scope =>
    simp only [forKind]
    cases profile.chapters <;> cases profile.verses <;> cases profile.glossaryLinks <;>
      cases profile.tableCells <;> decide
  | sequenceEnd =>
    simp only [forKind]
    cases profile.introductionSeparator <;> decide
  | documentStart | blockGraft | inlineGraft | blockStart | blockEnd | token => simp [forKind]

/-- An event is accepted by a rule other than the last resort. -/
def claims (profile : Profile) (event : Event) (rule : Rule) : Bool :=
  rule != .unhandledSpan && accepts profile event rule

theorem claims_iff : claims profile event rule = true ↔
    rule ≠ .unhandledSpan ∧ accepts profile event rule = true := by
  rw [claims, Bool.and_eq_true, bne_iff_ne]

section Orders
variable {rules : List Rule}

/-- The last resort is found where no other rule claims the event. -/
theorem find_resortLast (last : ResortLast rules) : rules.find? (accepts profile event) =
    (rules.find? (claims profile event)).or
      (rules.find? fun rule => rule == .unhandledSpan && accepts profile event rule) := by
  rcases List.eq_nil_or_concat rules with rfl | ⟨front,final,rfl⟩
  · rfl
  rw [List.concat_eq_append, ResortLast, List.dropLast_concat] at last
  have special : ∀ rule ∈ front, rule ≠ .unhandledSpan := fun rule member same => last (same ▸ member)
  have claimed : front.find? (accepts profile event) = front.find? (claims profile event) :=
    List.find?_congr fun rule member => by simp [claims, special rule member]
  have unresorted : (front.find? fun rule => rule == .unhandledSpan && accepts profile event rule) = none :=
    List.find?_eq_none.mpr fun rule member => by simp [special rule member]
  rw [List.concat_eq_append, List.find?_append, List.find?_append, List.find?_append, claimed, unresorted,
    Option.none_or, Option.or_assoc]
  congr 1
  by_cases resort : final = .unhandledSpan <;> simp [claims, resort]

variable (own : ∀ rule ∈ rules, rule.kind = event.kind)
include own

theorem claimed_once : {rule ∈ rules | claims profile event rule = true}.Subsingleton := by
  rintro rule ⟨member,claimed⟩ other ⟨also,too⟩
  obtain ⟨special,accepted⟩ := claims_iff.mp claimed
  obtain ⟨different,shared⟩ := claims_iff.mp too
  exact eq_of_accepts ((own rule member).trans (own other also).symm) special different accepted shared

theorem find_eq_some_iff (last : ResortLast rules) (special : rule ≠ .unhandledSpan) :
    rules.find? (accepts profile event) = some rule ↔ rule ∈ rules ∧ accepts profile event rule = true := by
  refine ⟨fun found => ⟨List.mem_of_find?_eq_some found,List.find?_some found⟩,fun ⟨member,accepted⟩ => ?_⟩
  have claimed : claims profile event rule = true := claims_iff.mpr ⟨special,accepted⟩
  obtain ⟨other,found⟩ := Option.isSome_iff_exists.mp (List.find?_isSome.mpr ⟨rule,member,claimed⟩)
  have same : other = rule :=
    claimed_once own ⟨List.mem_of_find?_eq_some found,List.find?_some found⟩ ⟨member,claimed⟩
  rw [find_resortLast last, found, same, Option.some_or]

theorem find_of_perm {others : List Rule} (perm : rules.Perm others) (last : ResortLast rules)
    (also : ResortLast others) :
    rules.find? (accepts profile event) = others.find? (accepts profile event) := by
  have resorted : {rule ∈ rules | (rule == .unhandledSpan && accepts profile event rule) = true}.Subsingleton := by
    rintro rule ⟨_,here⟩ other ⟨_,there⟩
    rw [Bool.and_eq_true, beq_iff_eq] at here there
    exact here.1.trans there.1.symm
  rw [find_resortLast last, find_resortLast also, List.find?_eq_find?_of_perm perm (claimed_once own),
    List.find?_eq_find?_of_perm perm resorted]

end Orders

theorem select_eq_some_iff (special : rule ≠ .unhandledSpan) : select? profile event = some rule ↔
    rule ∈ forKind profile event.kind ∧ accepts profile event rule = true :=
  find_eq_some_iff (fun _ member => kind_of_mem_forKind member) (forKind_resortLast profile event.kind) special

theorem accepts_of_payload (wraps : rule.wraps = true) {one two : Event} (same : one.payload = two.payload) :
    accepts profile one rule = accepts profile two rule := by
  cases rule with
  | characterSpan | tableCell | glossaryWord =>
    simp only [accepts, isCharacterSpan, isSpan, Event.segment?, same]
  | _ => cases wraps

theorem countP_claims_le (profile : Profile) (event : Event) :
    (forKind profile event.kind).countP (claims profile event) ≤ 1 := by
  have once : {rule ∈ forKind profile event.kind | claims profile event rule = true}.Subsingleton :=
    claimed_once fun _ member => kind_of_mem_forKind member
  rw [List.countP_eq_length_filter]
  cases kept : (forKind profile event.kind).filter (claims profile event) with
  | nil => exact Nat.zero_le 1
  | cons first rest =>
    have listed : ∀ rule ∈ first :: rest, rule ∈ forKind profile event.kind ∧ claims profile event rule = true :=
      fun rule member => List.mem_filter.mp (kept ▸ member)
    have alone : first :: rest ⊆ [first] := fun rule member =>
      List.mem_singleton.mpr (once (listed rule member) (listed first (by simp)))
    have distinct : (first :: rest).Nodup := kept ▸ (forKind_nodup profile event.kind).filter _
    exact (distinct.subperm alone).length_le

/-- The rule for an event is told by the set of rules. Of the rules of its kind at most one accepts it, the
last resort apart; so every order with the last resort at the end selects the same. And a scope that is
opened by a rule that holds a row is closed by the same rule. -/
theorem select_unordered (profile : Profile) (event : Event) :
    (forKind profile event.kind).countP (fun rule => rule != .unhandledSpan && accepts profile event rule) ≤ 1 ∧
    (∀ rules : List Rule, rules.Perm (forKind profile event.kind) → ResortLast rules →
      rules.find? (accepts profile event) = select? profile event) ∧
    ∀ (payload subType : String) (opened closed : SequenceKind) (rule : Rule), rule.wraps = true →
      (select? profile (.scopeStart opened payload) = some rule ↔
        select? profile ⟨.scope,subType,payload,closed⟩ = some rule) := by
  refine ⟨countP_claims_le profile event,fun rules perm last => ?_,fun payload subType opened closed rule wraps => ?_⟩
  · have own : ∀ rule ∈ rules, rule.kind = event.kind :=
      fun rule member => kind_of_mem_forKind (perm.subset member)
    exact find_of_perm own perm last (forKind_resortLast profile event.kind)
  · have special : rule ≠ .unhandledSpan := by
      rintro rfl
      cases wraps
    rw [select_eq_some_iff special, select_eq_some_iff special]
    have alike : accepts profile (.scopeStart opened payload) rule =
        accepts profile ⟨.scope,subType,payload,closed⟩ rule := accepts_of_payload wraps rfl
    exact and_congr Iff.rfl (iff_of_eq (congrArg (· = true) alike))

theorem select_unordered_reversed :
    let rules := (forKind .canonical .scope).dropLast.reverse ++ [.unhandledSpan]
    rules.Perm (forKind .canonical .scope) ∧ ResortLast rules ∧
      rules.find? (accepts .canonical (.scopeStart .main "spanWithAtts/w")) = some .glossaryWord ∧
      select? .canonical (.scopeEnd .footnote "spanWithAtts/w") = some .glossaryWord := by
  intro rules
  have perm : rules.Perm (forKind .canonical .scope) := by decide
  have last : ResortLast rules := by
    unfold ResortLast
    decide
  have selected : select? .canonical (.scopeStart .main "spanWithAtts/w") = some .glossaryWord := by decide
  obtain ⟨_,orders,pairs⟩ := select_unordered .canonical (.scopeStart .main "spanWithAtts/w")
  exact ⟨perm,last,(orders rules perm last).trans selected,
    (pairs "spanWithAtts/w" "end" .main .footnote .glossaryWord rfl).mp selected⟩

end Rule
end Scriptorium
