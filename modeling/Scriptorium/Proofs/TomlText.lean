import Mathlib.Data.List.Basic
import Scriptorium.Proofs.JsonText
import Scriptorium.Toml.Writing

/-! TOML strings, keys and numbers are read back as they were written. Whichever quotes a string is written in, its
characters come back one by one from what stands for each; only runs of quotes have to be looked at together. -/
namespace Scriptorium.Toml

theorem hexValue?_toUpper : ∀ n < 16, Json.hexValue? (Json.hexDigit n).toUpper = some n := by
  decide

theorem charOf?_toNat (c : Char) : charOf? c.toNat = some c := by
  have valid : c.toNat < 0xD800 ∨ 0xDFFF < c.toNat ∧ c.toNat < 0x110000 := c.valid
  rw [charOf?, if_pos (by omega), Char.ofNat_toNat]

theorem isControl_lt {c : Char} (control : isControl c = true) : c.toNat < 0x80 := by
  simp only [isControl, Bool.or_eq_true, Bool.and_eq_true, decide_eq_true_eq, beq_iff_eq] at control
  omega

/-- What may stand for a character between double quotes: a short escape, a long one, or itself. -/
theorem escapeChar_cases (c : Char) :
    (∃ e, escapeChar c = ['\\', e] ∧ shortEscape? e = some c) ∨
    (∃ high low, escapeChar c = ['\\', 'u', '0', '0', high, low] ∧
      (Json.hexNumber? ['0', '0', high, low]).bind charOf? = some c) ∨
    escapeChar c = [c] ∧ c ≠ '"' ∧ c ≠ '\\' ∧ isControl c = false := by
  unfold escapeChar
  split
  case h_1 | h_2 | h_3 | h_4 | h_5 | h_6 | h_7 => exact .inl ⟨_,rfl,rfl⟩
  next =>
    split
    next control =>
      refine .inr (.inl ⟨_,_,rfl,?_⟩)
      have small := isControl_lt control
      have high := hexValue?_toUpper (c.toNat / 16) (by omega)
      have low := hexValue?_toUpper (c.toNat % 16) (by omega)
      have zero : Json.hexValue? '0' = some 0 := by decide
      have number : Json.hexNumber? ['0', '0', (Json.hexDigit (c.toNat / 16)).toUpper,
          (Json.hexDigit (c.toNat % 16)).toUpper] = some c.toNat := by
        simp only [Json.hexNumber?, List.foldlM_cons, List.foldlM_nil, zero, high, low, Option.map_some, bind,
          Option.bind, pure]
        congr 1
        omega
      rw [number, Option.bind_some, charOf?_toNat]
    next visible => exact .inr (.inr ⟨rfl,by assumption,by assumption,by simpa using visible⟩)

theorem ne_of_shortEscape? {c e other : Char} (known : shortEscape? e = some c)
    (unknown : shortEscape? other = none) : e ≠ other := by
  rintro rfl
  cases known.symm.trans unknown

theorem basic?_escapeChar (c : Char) (cs : List Char) :
    basic? (escapeChar c ++ cs) = (basic? cs).map fun (text, rest) => (c :: text, rest) := by
  rcases escapeChar_cases c with ⟨e,written,known⟩ | ⟨high,low,written,known⟩ | ⟨written,quote,backslash,visible⟩
  · have x : e ≠ 'x' := ne_of_shortEscape? known rfl
    have u : e ≠ 'u' := ne_of_shortEscape? known rfl
    have U : e ≠ 'U' := ne_of_shortEscape? known rfl
    rw [written, List.cons_append, List.cons_append, List.nil_append, basic?, known]
    · cases basic? cs <;> rfl
    all_goals simp_all
  · rw [written]
    simp only [List.cons_append, List.nil_append]
    rw [basic?, known]
    cases basic? cs <;> rfl
  · rw [written, List.cons_append, List.nil_append, basic?]
    · simp [visible]
    all_goals simp_all

theorem basic?_quoted (cs rest : List Char) : basic? (cs.flatMap escapeChar ++ '"' :: rest) = some (cs, rest) := by
  induction cs with
  | nil => rfl
  | cons c cs ih => rw [List.flatMap_cons, List.append_assoc, basic?_escapeChar, ih]; rfl

theorem literal?_quoted {cs : List Char} (plain : ∀ c ∈ cs, c ≠ '\x27' ∧ isControl c = false) (rest : List Char) :
    literal? (cs ++ '\x27' :: rest) = some (cs, rest) := by
  induction cs with
  | nil => rfl
  | cons c cs ih =>
    obtain ⟨⟨single,visible⟩,others⟩ := List.forall_mem_cons.mp plain
    rw [List.cons_append, literal?]
    · simp [visible, ih others]
    · exact fun same => absurd same single

theorem isBlank_eq_false {c : Char} (space : c ≠ ' ') (tab : c ≠ '\t') : isBlank c = false := by
  simp [isBlank, space, tab]

theorem skipBlanks_cons {c : Char} (visible : isBlank c = false) (cs : List Char) : skipBlanks (c :: cs) = c :: cs :=
  List.dropWhile_cons_of_neg (by simp [visible])

theorem endsLine_cons {c e : Char} (known : shortEscape? e = some c) (cs : List Char) :
    endsLine (e :: cs) = false := by
  have space : e ≠ ' ' := ne_of_shortEscape? known rfl
  have tab : e ≠ '\t' := ne_of_shortEscape? known rfl
  have line : e ≠ '\n' := ne_of_shortEscape? known rfl
  have carriage : e ≠ '\r' := ne_of_shortEscape? known rfl
  rw [endsLine, skipBlanks_cons (isBlank_eq_false space tab)]
  simp [line, carriage]

theorem longBasic?_plain {c : Char} (double : c ≠ '"') (backslash : c ≠ '\\') (visible : needsEscape c = false)
    (cs : List Char) :
    longBasic? false (c :: cs) = (longBasic? false cs).map fun (text, rest) => (c :: text, rest) := by
  have carriage : c ≠ '\r' := by
    rintro rfl
    cases visible
  rw [longBasic?]
  · rw [needsEscape] at visible
    simp [visible]
  all_goals simp_all

theorem longBasic?_escapeChar (c : Char) (cs : List Char) :
    longBasic? false (escapeChar c ++ cs) = (longBasic? false cs).map fun (text, rest) => (c :: text, rest) := by
  rcases escapeChar_cases c with ⟨e,written,known⟩ | ⟨high,low,written,known⟩ | ⟨written,quote,backslash,visible⟩
  · have x : e ≠ 'x' := ne_of_shortEscape? known rfl
    have u : e ≠ 'u' := ne_of_shortEscape? known rfl
    have U : e ≠ 'U' := ne_of_shortEscape? known rfl
    rw [written, List.cons_append, List.cons_append, List.nil_append, longBasic?, known, endsLine_cons known]
    · cases longBasic? false cs <;> rfl
    all_goals simp_all
  · rw [written]
    simp only [List.cons_append, List.nil_append]
    rw [longBasic?, known]
    cases longBasic? false cs <;> rfl
  · rw [written, List.cons_append, List.nil_append]
    exact longBasic?_plain quote backslash (by simp [needsEscape, visible]) cs

/-- A quote that is not the first of three in a row stands for itself. -/
theorem longBasic?_quote {cs : List Char} (apart : ∀ rest, cs ≠ '"' :: '"' :: rest) :
    longBasic? false ('"' :: cs) = (longBasic? false cs).map fun (text, rest) => ('"' :: text, rest) := by
  rw [longBasic?]
  · rw [Bool.false_and, if_neg (by decide), if_neg (by decide)]
  all_goals simp_all

/-- No string goes on with a quote after its end. -/
def Ends (rest : List Char) : Prop := ∀ cs, rest ≠ '"' :: cs ∧ rest ≠ '\x27' :: cs

theorem longBasic?_close {rest : List Char} (ends : Ends rest) :
    longBasic? false ('"' :: '"' :: '"' :: rest) = some ([], rest) := by
  rw [longBasic?]
  all_goals simp_all [Ends]

theorem longBasic?_quote_close {rest : List Char} (ends : Ends rest) :
    longBasic? false ('"' :: '"' :: '"' :: '"' :: rest) = some (['"'], rest) := by
  rw [longBasic?]
  all_goals simp_all [Ends]

/-- After two quotes no quote stands by itself. -/
theorem head_escapeLong {c : Char} {quotes : Nat} (first : 2 ≤ quotes ∨ c ≠ '"') (cs : List Char) :
    ∃ d ds, escapeLong quotes (c :: cs) = d :: ds ∧ d ≠ '"' := by
  by_cases double : c = '"'
  · subst double
    have many : ¬quotes < 2 := first.elim Nat.not_lt.mpr fun other => absurd rfl other
    exact ⟨'\\',_,by rw [escapeLong, if_neg many],by decide⟩
  · by_cases line : c = '\n'
    · subst line
      exact ⟨'\n',_,rfl,by decide⟩
    · rw [escapeLong]
      · rcases escapeChar_cases c with ⟨_,written,_⟩ | ⟨_,_,written,_⟩ | ⟨written,_⟩
        · exact ⟨'\\',_,by rw [written]; rfl,by decide⟩
        · exact ⟨'\\',_,by rw [written]; rfl,by decide⟩
        · exact ⟨c,_,by rw [written]; rfl,double⟩
      all_goals assumption

/-- Of what follows a quote that stands for itself, two quotes come first only where the string ends. -/
theorem escapeLong_apart {quotes : Nat} (after : 1 ≤ quotes) {c : Char} {cs : List Char}
    (further : ¬(quotes < 2 ∧ c = '"' ∧ cs = [])) (tail rest : List Char) :
    escapeLong quotes (c :: cs) ++ tail ≠ '"' :: '"' :: rest := by
  intro same
  by_cases first : 2 ≤ quotes ∨ c ≠ '"'
  · obtain ⟨d,ds,written,other⟩ := head_escapeLong first cs
    rw [written] at same
    exact other (List.cons.inj same).1
  · obtain ⟨few,rfl⟩ : quotes < 2 ∧ c = '"' := by simpa using first
    cases cs with
    | nil => exact further ⟨few,rfl,rfl⟩
    | cons e es =>
      obtain ⟨d,ds,written,other⟩ := head_escapeLong (c := e) (.inl (by omega : 2 ≤ quotes + 1)) es
      rw [escapeLong, if_pos few, written] at same
      exact other (List.cons.inj (List.cons.inj same).2).1

theorem longBasic?_escapeLong (quotes : Nat) (cs : List Char) {rest : List Char} (ends : Ends rest) :
    longBasic? false (escapeLong quotes cs ++ '"' :: '"' :: '"' :: rest) = some (cs, rest) := by
  induction cs generalizing quotes with
  | nil => exact longBasic?_close ends
  | cons c cs ih =>
    by_cases double : c = '"'
    · subst double
      rw [escapeLong]
      by_cases few : quotes < 2
      · rw [if_pos few, List.cons_append]
        cases cs with
        | nil => exact longBasic?_quote_close ends
        | cons d ds =>
          by_cases pair : quotes + 1 < 2 ∧ d = '"' ∧ ds = []
          · obtain ⟨_,rfl,rfl⟩ := pair
            simp [escapeLong, longBasic?, *]
          · rw [longBasic?_quote (escapeLong_apart (Nat.le_add_left 1 quotes) pair _), ih]
            rfl
      · rw [if_neg few, List.cons_append, List.cons_append]
        have read := longBasic?_escapeChar '"' (escapeLong 0 cs ++ '"' :: '"' :: '"' :: rest)
        rw [ih] at read
        exact read
    · by_cases line : c = '\n'
      · subst line
        rw [escapeLong, List.cons_append, longBasic?_plain (by decide) (by decide) (by decide), ih]
        rfl
      · rw [escapeLong, List.append_assoc, longBasic?_escapeChar, ih]
        · rfl
        all_goals assumption

/-- Characters of which only tabs are escaped. -/
def tabbed (cs : List Char) : List Char := cs.flatMap fun c => if c = '\t' then ['\\', 't'] else [c]

theorem escapeChar_of_plain {c : Char} (double : c ≠ '"') (backslash : c ≠ '\\') (visible : isControl c = false) :
    escapeChar c = if c = '\t' then ['\\', 't'] else [c] := by
  unfold escapeChar
  split
  case h_8 => simp_all
  all_goals simp_all [isControl]

theorem tabbed_eq_escaped {cs : List Char} (plain : ∀ c ∈ cs, c ≠ '"' ∧ c ≠ '\\' ∧ isControl c = false) :
    tabbed cs = cs.flatMap escapeChar :=
  List.flatMap_congr fun c member =>
    (escapeChar_of_plain (plain c member).1 (plain c member).2.1 (plain c member).2.2).symm

theorem hasRun_of_cons {quote c : Char} {count : Nat} {cs : List Char} (none : hasRun quote count (c :: cs) = false) :
    hasRun quote count cs = false :=
  (Bool.or_eq_false_iff.mp none).2

theorem hasRun_of_append {quote : Char} {count : Nat} {before cs : List Char}
    (none : hasRun quote count (before ++ cs) = false) : hasRun quote count cs = false := by
  induction before with
  | nil => exact none
  | cons c before ih => exact ih (hasRun_of_cons none)

/-- Without three quotes in a row nothing but tabs is escaped. -/
theorem tabbed_eq_escapeLong {quotes : Nat} {cs : List Char}
    (plain : ∀ c ∈ cs, c ≠ '\\' ∧ needsEscape c = false)
    (apart : hasRun '"' 3 (List.replicate quotes '"' ++ cs) = false) : tabbed cs = escapeLong quotes cs := by
  induction cs generalizing quotes with
  | nil => rfl
  | cons c cs ih =>
    obtain ⟨⟨backslash,visible⟩,others⟩ := List.forall_mem_cons.mp plain
    rw [tabbed, List.flatMap_cons]
    by_cases double : c = '"'
    · subst double
      by_cases few : quotes < 2
      · have next : hasRun '"' 3 (List.replicate (quotes + 1) '"' ++ cs) = false := by
          rwa [List.replicate_succ', List.append_assoc]
        rw [escapeLong, if_pos few, ← ih others next]
        rfl
      · obtain ⟨more,rfl⟩ := Nat.exists_eq_add_of_le' (Nat.not_lt.mp few)
        rw [List.replicate_add, List.append_assoc] at apart
        have run := hasRun_of_append apart
        simp [hasRun, List.replicate] at run
    · have rest : hasRun '"' 3 (List.replicate 0 '"' ++ cs) = false := hasRun_of_cons (hasRun_of_append apart)
      by_cases line : c = '\n'
      · subst line
        rw [escapeLong, ← ih others rest]
        rfl
      · rw [escapeLong, ← ih others rest]
        · rw [escapeChar_of_plain double backslash (by simpa [needsEscape, line] using visible)]
          rfl
        all_goals assumption

theorem longLiteral?_char {c : Char} {cs : List Char} (visible : needsEscape c = false)
    (apart : ∀ rest, c :: cs ≠ '\x27' :: '\x27' :: '\x27' :: rest) :
    longLiteral? (c :: cs) = (longLiteral? cs).map fun (text, rest) => (c :: text, rest) := by
  have carriage : c ≠ '\r' := by
    rintro rfl
    cases visible
  rw [longLiteral?]
  · rw [needsEscape] at visible
    simp [visible]
  all_goals simp_all

theorem longLiteral?_quoted {cs rest : List Char} (ends : Ends rest) (plain : ∀ c ∈ cs, needsEscape c = false)
    (apart : hasRun '\x27' 3 cs = false) :
    longLiteral? (cs ++ '\x27' :: '\x27' :: '\x27' :: rest) = some (cs, rest) := by
  induction cs with
  | nil =>
    rw [List.nil_append, longLiteral?]
    all_goals simp_all [Ends]
  | cons c cs ih =>
    obtain ⟨visible,others⟩ := List.forall_mem_cons.mp plain
    by_cases last : c = '\x27' ∧ (cs = [] ∨ cs = ['\x27'])
    · obtain ⟨rfl,rfl | rfl⟩ := last
      · rw [List.cons_append, List.nil_append, longLiteral?]
        all_goals simp_all [Ends]
      · rfl
    · rw [List.cons_append, longLiteral?_char visible, ih others (hasRun_of_cons apart)]
      · rfl
      -- three quotes would begin in the text
      · intro after same
        rcases cs with _ | ⟨d,_ | ⟨e,cs⟩⟩
        · exact last ⟨(List.cons.inj same).1,.inl rfl⟩
        · obtain ⟨rfl,rfl,_⟩ : c = '\x27' ∧ d = '\x27' ∧ _ := by simpa using same
          exact last ⟨rfl,.inr rfl⟩
        · obtain ⟨rfl,rfl,rfl,_⟩ : c = '\x27' ∧ d = '\x27' ∧ e = '\x27' ∧ _ := by simpa using same
          cases apart

theorem toList_between (quotes : String) (cs rest : List Char) :
    (between quotes cs).toList ++ rest = quotes.toList ++ (cs ++ (quotes.toList ++ rest)) := by
  simp [between]

theorem head_between {quotes : String} {c : Char} {more : List Char} (first : quotes.toList = c :: more)
    (cs : List Char) : ∃ after, (between quotes cs).toList = c :: after :=
  ⟨more ++ (cs ++ quotes.toList),by simp [between, first]⟩

theorem quoted?_basic (cs : List Char) {rest : List Char} (ends : Ends rest) :
    quoted? ((between "\"" (cs.flatMap escapeChar)).toList ++ rest) = some (cs, rest) := by
  have read := basic?_quoted cs rest
  rw [toList_between]
  change quoted? ('"' :: (cs.flatMap escapeChar ++ '"' :: rest)) = some (cs, rest)
  rw [quoted?]
  · exact read
  · intro after same
    cases cs with
    | nil => exact (ends after).1 (List.cons.inj same).2
    | cons c cs =>
      rcases escapeChar_cases c with ⟨_,written,_⟩ | ⟨_,_,written,_⟩ | ⟨written,double,_⟩
      all_goals simp_all

theorem quoted?_literal {cs rest : List Char} (some_char : cs ≠ [])
    (plain : ∀ c ∈ cs, c ≠ '\x27' ∧ isControl c = false) :
    quoted? ((between "\x27" cs).toList ++ rest) = some (cs, rest) := by
  rw [toList_between]
  change quoted? ('\x27' :: (cs ++ '\x27' :: rest)) = some (cs, rest)
  rw [quoted?]
  · exact literal?_quoted plain rest
  · intro after same
    obtain ⟨c,cs,rfl⟩ := List.exists_cons_of_ne_nil some_char
    exact (plain c List.mem_cons_self).1 (List.cons.inj same).1

theorem dropLineEnd_lineBreak {cs body : List Char} (line : ∀ rest, body = '\n' :: rest → '\n' ∈ cs)
    (carriage : ∀ rest, body ≠ '\r' :: rest) : dropLineEnd (lineBreak cs ++ body) = body := by
  by_cases broken : '\n' ∈ cs
  · simp [lineBreak, broken, dropLineEnd]
  · have plain : ¬cs.contains '\n' := by simpa using broken
    rw [lineBreak, if_neg plain, List.nil_append, dropLineEnd]
    · exact fun rest same => broken (line rest same)
    · exact fun rest => by simpa using carriage ('\n' :: rest)

theorem quoted?_longLiteral {cs rest : List Char} (ends : Ends rest) (plain : ∀ c ∈ cs, needsEscape c = false)
    (apart : hasRun '\x27' 3 cs = false) :
    quoted? ((between "\x27\x27\x27" (lineBreak cs ++ cs)).toList ++ rest) = some (cs, rest) := by
  rw [toList_between, List.append_assoc]
  change longLiteral? (dropLineEnd (lineBreak cs ++ (cs ++ '\x27' :: '\x27' :: '\x27' :: rest))) = some (cs, rest)
  have head {c : Char} (other : c ≠ '\x27') {after : List Char}
      (same : cs ++ '\x27' :: '\x27' :: '\x27' :: rest = c :: after) : c ∈ cs := by
    cases cs with
    | nil => exact absurd (List.cons.inj same).1.symm other
    | cons _ cs => exact (List.cons.inj same).1 ▸ List.mem_cons_self
  rw [dropLineEnd_lineBreak (fun _ => head (by decide)), longLiteral?_quoted ends plain apart]
  intro _ same
  cases plain '\r' (head (by decide) same)

theorem quoted?_longBasic {cs rest : List Char} (ends : Ends rest)
    (plain : ∀ c ∈ cs, c ≠ '\\' ∧ needsEscape c = false) (apart : hasRun '"' 3 cs = false) :
    quoted? ((longBasic cs).toList ++ rest) = some (cs, rest) := by
  rw [longBasic, toList_between, List.append_assoc]
  change longBasic? false (dropLineEnd (lineBreak cs ++ (tabbed cs ++ '"' :: '"' :: '"' :: rest))) = some (cs, rest)
  have head {c : Char} (double : c ≠ '"') (backslash : c ≠ '\\') {after : List Char}
      (same : tabbed cs ++ '"' :: '"' :: '"' :: rest = c :: after) : c ∈ cs := by
    cases cs with
    | nil => exact absurd (List.cons.inj same).1.symm double
    | cons first cs =>
      rw [tabbed, List.flatMap_cons] at same
      split at same
      next => exact absurd (List.cons.inj same).1.symm backslash
      next => exact (List.cons.inj same).1 ▸ List.mem_cons_self
  have escaped : tabbed cs = escapeLong 0 cs := tabbed_eq_escapeLong plain apart
  rw [dropLineEnd_lineBreak (fun _ => head (by decide) (by decide)), escaped, longBasic?_escapeLong 0 cs ends]
  intro _ same
  cases (plain '\r' (head (by decide) (by decide) same)).2

theorem quoted?_escapedLong (cs : List Char) {rest : List Char} (ends : Ends rest) :
    quoted? ((between "\"\"\"" ('\n' :: escapeLong 0 cs)).toList ++ rest) = some (cs, rest) := by
  rw [toList_between]
  exact longBasic?_escapeLong 0 cs ends

theorem eq_false_of_any {kind : Char → Bool} {cs : List Char} (none : (!cs.any kind) = true) {c : Char}
    (member : c ∈ cs) : kind c = false := by
  simp only [Bool.not_eq_true', List.any_eq_false, Bool.not_eq_true] at none
  exact none c member

theorem ne_of_contains {other : Char} {cs : List Char} (none : (!cs.contains other) = true) {c : Char}
    (member : c ∈ cs) : c ≠ other := by
  simp only [Bool.not_eq_true', List.contains_eq_mem, decide_eq_false_iff_not] at none
  exact ne_of_mem_of_not_mem member none

theorem isControl_of_needsEscape {c : Char} (line : c ≠ '\n') (visible : needsEscape c = false) :
    isControl c = false := by
  simpa [needsEscape, line] using visible

/-- Whichever quotes a string is written in, it is read back. -/
theorem quoted?_quote (text : String) {rest : List Char} (ends : Ends rest) :
    quoted? ((quote text).toList ++ rest) = some (text.toList, rest) := by
  unfold quote
  generalize text.toList = cs
  simp only
  split
  next basic =>
    simp only [Bool.and_eq_true] at basic
    obtain ⟨⟨⟨visible,backslash⟩,double⟩,line⟩ := basic
    have plain : tabbed cs = cs.flatMap escapeChar := tabbed_eq_escaped fun c member =>
      ⟨ne_of_contains double member,ne_of_contains backslash member,
        isControl_of_needsEscape (ne_of_contains line member) (eq_false_of_any visible member)⟩
    have read := quoted?_basic cs ends
    rwa [← plain] at read
  next other =>
    have some_char : cs ≠ [] := by
      rintro rfl
      exact other rfl
    split
    next literal =>
      simp only [Bool.and_eq_true] at literal
      obtain ⟨⟨visible,single⟩,line⟩ := literal
      exact quoted?_literal some_char fun c member => ⟨ne_of_contains single member,
        isControl_of_needsEscape (ne_of_contains line member) (eq_false_of_any visible member)⟩
    next =>
    split
    next long =>
      simp only [Bool.and_eq_true, Bool.not_eq_true' (hasRun ..)] at long
      obtain ⟨⟨visible,backslash⟩,apart⟩ := long
      exact quoted?_longBasic ends
        (fun c member => ⟨ne_of_contains backslash member,eq_false_of_any visible member⟩) apart
    next =>
    split
    next long =>
      simp only [Bool.and_eq_true, Bool.not_eq_true' (hasRun ..)] at long
      exact quoted?_longLiteral ends (fun c => eq_false_of_any long.1) long.2
    next =>
    split
    next => exact quoted?_escapedLong cs ends
    next => exact quoted?_basic cs ends

theorem simpleKey?_basic (cs rest : List Char) :
    simpleKey? ((between "\"" (cs.flatMap escapeChar)).toList ++ rest) = some (String.ofList cs, rest) := by
  rw [toList_between]
  change (basic? (cs.flatMap escapeChar ++ '"' :: rest)).map _ = _
  rw [basic?_quoted]
  rfl

theorem simpleKey?_writeKey (key : String) (rest : List Char) :
    simpleKey? ((writeKey key).toList ++ ' ' :: rest) = some (key, ' ' :: rest) := by
  have whole : String.ofList key.toList = key := String.ofList_toList
  simp only [writeKey]
  split
  next bare =>
    simp only [Bool.and_eq_true, Bool.not_eq_true', List.isEmpty_eq_false_iff, List.all_eq_true] at bare
    obtain ⟨some_char,bare⟩ := bare
    have ends : (' ' :: rest).takeWhile isBareKey = [] ∧ (' ' :: rest).dropWhile isBareKey = ' ' :: rest := ⟨rfl,rfl⟩
    rw [simpleKey?]
    · rw [List.takeWhile_append_of_pos bare, List.dropWhile_append_of_pos bare, ends.1, ends.2, List.append_nil,
        whole]
      simp [some_char]
    all_goals
      intro after same
      obtain ⟨c,cs,split⟩ := List.exists_cons_of_ne_nil some_char
      rw [split] at same bare
      cases (List.cons.inj same).1
      cases bare _ List.mem_cons_self
  next => 
  split
  next basic =>
    simp only [Bool.and_eq_true] at basic
    obtain ⟨⟨visible,backslash⟩,double⟩ := basic
    have plain : tabbed key.toList = key.toList.flatMap escapeChar := tabbed_eq_escaped fun c member =>
      ⟨ne_of_contains double member,ne_of_contains backslash member,eq_false_of_any visible member⟩
    have read := simpleKey?_basic key.toList (' ' :: rest)
    rwa [← plain, whole] at read
  next =>
  split
  next literal =>
    simp only [Bool.and_eq_true] at literal
    rw [toList_between]
    change (literal? (key.toList ++ '\x27' :: ' ' :: rest)).map _ = _
    rw [literal?_quoted fun c member => ⟨ne_of_contains literal.2 member,eq_false_of_any literal.1 member⟩]
    exact congrArg (fun key => some (key, ' ' :: rest)) whole
  next =>
    have read := simpleKey?_basic key.toList (' ' :: rest)
    rwa [whole] at read

/-- What a statement may begin with when it is an assignment. -/
theorem head_writeKey (key : String) :
    ∃ c cs, (writeKey key).toList = c :: cs ∧ c ∉ [' ', '\t', '\n', '\r', '#', '['] := by
  simp only [writeKey]
  split
  next bare =>
    simp only [Bool.and_eq_true, Bool.not_eq_true', List.isEmpty_eq_false_iff, List.all_eq_true] at bare
    obtain ⟨c,cs,split⟩ := List.exists_cons_of_ne_nil bare.1
    have others : ∀ c ∈ [' ', '\t', '\n', '\r', '#', '['], isBareKey c = false :=
      List.forall_iff_forall_mem.mp ⟨rfl,rfl,rfl,rfl,rfl,rfl⟩
    refine ⟨c,cs,split,fun other => ?_⟩
    cases (others c other).symm.trans (bare.2 c (split ▸ List.mem_cons_self))
  next =>
    have double (cs : List Char) := head_between (show "\"".toList = ['"'] from rfl) cs
    have single (cs : List Char) := head_between (show "\x27".toList = ['\x27'] from rfl) cs
    split
    next =>
      obtain ⟨after,written⟩ := double (tabbed key.toList)
      exact ⟨_,after,written,by decide⟩
    next =>
    split
    next =>
      obtain ⟨after,written⟩ := single key.toList
      exact ⟨_,after,written,by decide⟩
    next =>
      obtain ⟨after,written⟩ := double (key.toList.flatMap escapeChar)
      exact ⟨_,after,written,by decide⟩

theorem head_quote (text : String) : ∃ c cs, (quote text).toList = c :: cs ∧ (c = '"' ∨ c = '\x27') := by
  have mark {quotes : String} {c : Char} {more : List Char} (first : quotes.toList = c :: more)
      (quote : c = '"' ∨ c = '\x27') (cs : List Char) :
      ∃ d ds, (between quotes cs).toList = d :: ds ∧ (d = '"' ∨ d = '\x27') := by
    obtain ⟨after,written⟩ := head_between first cs
    exact ⟨c,after,written,quote⟩
  simp only [quote]
  split
  next => exact mark (show "\"".toList = ['"'] from rfl) (.inl rfl) _
  next =>
  split
  next => exact mark (show "\x27".toList = ['\x27'] from rfl) (.inr rfl) _
  next =>
  split
  next => exact mark (show "\"\"\"".toList = ['"', '"', '"'] from rfl) (.inl rfl) _
  next =>
  split
  next => exact mark (show "\x27\x27\x27".toList = ['\x27', '\x27', '\x27'] from rfl) (.inr rfl) _
  next =>
  split
  next => exact mark (show "\"\"\"".toList = ['"', '"', '"'] from rfl) (.inl rfl) _
  next => exact mark (show "\"".toList = ['"'] from rfl) (.inl rfl) _

end Scriptorium.Toml
