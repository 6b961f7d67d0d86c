import Scriptorium.Json.Reading
import Scriptorium.Json.Writing

/-! JSON text is read back as the data that it was written from. Each reader stops where the writer of the same
piece stopped; only a number has to see what comes after it. -/
namespace Scriptorium

namespace Text

theorem digitChar_ne_zero : ∀ n < 10, 0 < n → Nat.digitChar n ≠ '0' := by
  decide

/-- No numeral begins with a zero but that of zero. -/
theorem head_toDigits {n : Nat} (positive : 0 < n) : ∃ c cs, Nat.toDigits 10 n = c :: cs ∧ c ≠ '0' := by
  induction n using Nat.strongRecOn with
  | ind n ih =>
    by_cases small : n < 10
    · exact ⟨Nat.digitChar n,[],Nat.toDigits_of_lt_base small,digitChar_ne_zero n small positive⟩
    · obtain ⟨c,cs,digits,other⟩ := ih (n / 10) (by omega) (by omega)
      refine ⟨c,cs ++ [Nat.digitChar (n % 10)],?_,other⟩
      rw [Nat.toDigits_of_base_le (by decide) (by omega), digits, List.cons_append]

theorem toList_toString (n : Nat) : (toString n).toList = Nat.toDigits 10 n := by
  rw [Nat.toString_eq_ofList_toDigits, String.toList_ofList]

theorem isDigit_of_mem_numeral {n : Nat} {c : Char} (member : c ∈ Nat.toDigits 10 n) : c.isDigit = true :=
  Nat.isDigit_of_mem_toDigits (by decide) (by decide) member

/-- Texts with a comma between them. -/
def joined (texts : List String) : List Char := (",".intercalate texts).toList

theorem joined_single (text : String) : joined [text] = text.toList := by
  simp [joined]

theorem joined_cons_cons (text next : String) (rest : List String) :
    joined (text :: next :: rest) = text.toList ++ ',' :: joined (next :: rest) := by
  simp [joined, String.toList_intercalate]

end Text

namespace Datum

mutual

/-- What JSON text keeps as it is: all but the numbers that are no natural ones, and what stands for no value. -/
def isKept : Datum → Bool
  | number _ | garbled | unfit => false
  | list values => areKept values
  | record members => areMembersKept members
  | null | truth _ | natural _ | text _ => true

def areKept : List Datum → Bool
  | [] => true
  | value :: rest => value.isKept && areKept rest

def areMembersKept : List (String × Datum) → Bool
  | [] => true
  | (_, value) :: rest => value.isKept && areMembersKept rest

end

mutual

/-- What any reader of JSON text can be relied on to keep: numbers of 64 bits, and nothing nested deeper than a given
number of levels. -/
def isPortable : Nat → Datum → Bool
  | _, null | _, truth _ | _, text _ => true
  | _, natural n => n < UInt64.size
  | _, number _ | _, garbled | _, unfit => false
  | 0, list _ | 0, record _ => false
  | levels + 1, list values => arePortable levels values
  | levels + 1, record members => areMembersPortable levels members

def arePortable : Nat → List Datum → Bool
  | _, [] => true
  | levels, value :: rest => value.isPortable levels && arePortable levels rest

def areMembersPortable : Nat → List (String × Datum) → Bool
  | _, [] => true
  | levels, (_, value) :: rest => value.isPortable levels && areMembersPortable levels rest

end

theorem arePortable_map {α : Type} (levels : Nat) (write : α → Datum)
    (portable : ∀ value, (write value).isPortable levels = true) (values : List α) :
    arePortable levels (values.map write) = true := by
  induction values with
  | nil => rfl
  | cons value rest ih => exact Bool.and_eq_true_iff.mpr ⟨portable value,ih⟩

theorem areMembersPortable_map {α : Type} (levels : Nat) (name : α → String) (write : α → Datum)
    (portable : ∀ value, (write value).isPortable levels = true) (values : List α) :
    areMembersPortable levels (values.map fun value => (name value, write value)) = true := by
  induction values with
  | nil => rfl
  | cons value rest ih => exact Bool.and_eq_true_iff.mpr ⟨portable value,ih⟩

mutual

theorem isKept_of_isPortable {levels : Nat} {datum : Datum} (portable : datum.isPortable levels = true) :
    datum.isKept = true := by
  cases datum with
  | list values =>
    cases levels with
    | zero => cases portable
    | succ levels => exact areKept_of_arePortable portable
  | record members =>
    cases levels with
    | zero => cases portable
    | succ levels => exact areMembersKept_of_areMembersPortable portable
  | number | garbled | unfit => cases levels <;> cases portable
  | _ => rfl

theorem areKept_of_arePortable {levels : Nat} {values : List Datum} (portable : arePortable levels values = true) :
    areKept values = true := by
  cases values with
  | nil => rfl
  | cons value rest =>
    obtain ⟨here,later⟩ := Bool.and_eq_true_iff.mp portable
    exact Bool.and_eq_true_iff.mpr ⟨isKept_of_isPortable here,areKept_of_arePortable later⟩

theorem areMembersKept_of_areMembersPortable {levels : Nat} {members : List (String × Datum)}
    (portable : areMembersPortable levels members = true) : areMembersKept members = true := by
  cases members with
  | nil => rfl
  | cons member rest =>
    obtain ⟨here,later⟩ := Bool.and_eq_true_iff.mp portable
    exact Bool.and_eq_true_iff.mpr ⟨isKept_of_isPortable here,areMembersKept_of_areMembersPortable later⟩

end

end Datum

namespace Json

theorem hexValue?_hexDigit : ∀ n < 16, hexValue? (hexDigit n) = some n := by
  decide

theorem units?_plain {c : Char} (quote : c ≠ '"') (backslash : c ≠ '\\') (visible : ¬c.toNat < 0x20)
    (cs : List Char) : units? (c :: cs) = (units? cs).map fun (units, rest) => (c.toNat :: units, rest) := by
  rw [units?]
  · rw [if_neg visible]
  all_goals simp_all

theorem units?_short {c : Char} {unit : Nat} (known : shortEscape? c = some unit) (cs : List Char) :
    units? ('\\' :: c :: cs) = (units? cs).map fun (units, rest) => (unit :: units, rest) := by
  have other : c ≠ 'u' := by
    rintro rfl
    cases known
  rw [units?, known]
  · cases units? cs <;> rfl
  · simp [other]

theorem units?_long {a b c d : Char} {unit : Nat} (known : hexNumber? [a, b, c, d] = some unit) (cs : List Char) :
    units? ('\\' :: 'u' :: a :: b :: c :: d :: cs) = (units? cs).map fun (units, rest) => (unit :: units, rest) := by
  rw [units?, known]
  cases units? cs <;> rfl

/-- A character is read back from its escape. -/
theorem units?_escapeChar (c : Char) (cs : List Char) :
    units? (escapeChar c ++ cs) = (units? cs).map fun (units, rest) => (c.toNat :: units, rest) := by
  unfold escapeChar
  split
  case h_1 | h_2 | h_3 | h_4 | h_5 | h_6 | h_7 => exact units?_short rfl cs
  case h_8 quote backslash _ _ _ _ _ =>
    split
    next control =>
      refine units?_long ?_ cs
      have high := hexValue?_hexDigit (c.toNat / 16) (by omega)
      have low := hexValue?_hexDigit (c.toNat % 16) (by omega)
      have zero : hexValue? '0' = some 0 := by decide
      simp only [hexNumber?, List.foldlM_cons, List.foldlM_nil, zero, high, low, Option.map_some, bind, Option.bind,
        pure]
      congr 1
      omega
    next visible => exact units?_plain quote backslash visible cs

theorem units?_quoted (cs rest : List Char) :
    units? (cs.flatMap escapeChar ++ '"' :: rest) = some (cs.map Char.toNat, rest) := by
  induction cs with
  | nil => simp [units?]
  | cons c cs ih => rw [List.flatMap_cons, List.append_assoc, units?_escapeChar, ih]; rfl

theorem not_surrogate (c : Char) : isHigh c.toNat = false ∧ isLow c.toNat = false := by
  have valid : c.toNat < 0xD800 ∨ 0xDFFF < c.toNat ∧ c.toNat < 0x110000 := c.valid
  simp only [isHigh, isLow, Bool.and_eq_false_iff, decide_eq_false_iff_not]
  omega

theorem characters?_toNat (cs : List Char) : characters? (cs.map Char.toNat) = some cs := by
  induction cs with
  | nil => rfl
  | cons c cs ih =>
    obtain ⟨high,low⟩ := not_surrogate c
    cases cs with
    | nil => simp [characters?, high, low]
    | cons next cs =>
      simp only [List.map_cons] at ih ⊢
      simp [characters?, high, low, ih]

theorem textOf_toNat (text : String) : textOf (text.toList.map Char.toNat) = .text text := by
  simp [textOf, characters?_toNat]

/-- What may come after a value: the end of the text, or a mark that ends a member or an item. -/
def Closes (rest : List Char) : Prop := rest = [] ∨ ∃ c cs, rest = c :: cs ∧ (c = ',' ∨ c = ']' ∨ c = '\x7d')

theorem digits?_append {digits rest : List Char} (some_digit : digits ≠ []) (all : ∀ c ∈ digits, c.isDigit = true)
    (closes : Closes rest) : digits? (digits ++ rest) = some (digits, rest) := by
  have ends : rest.takeWhile Char.isDigit = [] ∧ rest.dropWhile Char.isDigit = rest := by
    rcases closes with rfl | ⟨c,cs,rfl,rfl | rfl | rfl⟩ <;> exact ⟨rfl,rfl⟩
  simp [digits?, List.takeWhile_append_of_pos all, List.dropWhile_append_of_pos all, ends, some_digit]

theorem whole?_numeral (n : Nat) {rest : List Char} (closes : Closes rest) :
    whole? (Nat.toDigits 10 n ++ rest) = some (Nat.toDigits 10 n, rest) := by
  rcases Nat.eq_zero_or_pos n with rfl | positive
  · rfl
  · obtain ⟨c,cs,digits,other⟩ := Text.head_toDigits positive
    have all : ∀ c ∈ Nat.toDigits 10 n, c.isDigit = true := fun _ => Text.isDigit_of_mem_numeral
    rw [digits] at all ⊢
    rw [List.cons_append, whole?]
    · exact digits?_append (List.cons_ne_nil _ _) all closes
    · simpa using other

theorem number?_numeral (n : Nat) {rest : List Char} (closes : Closes rest) :
    number? (Nat.toDigits 10 n ++ rest) = some (.natural n, rest) := by
  have fraction : fraction? rest = some ([], rest) := by
    rcases closes with rfl | ⟨c,cs,rfl,rfl | rfl | rfl⟩ <;> rfl
  have exponent : exponent? rest = some ([], rest) := by
    rcases closes with rfl | ⟨c,cs,rfl,rfl | rfl | rfl⟩ <;> rfl
  have unsigned (cs : List Char) : Nat.toDigits 10 n ++ rest ≠ '-' :: cs := by
    intro signed
    obtain ⟨c,digits,same⟩ := List.exists_cons_of_ne_nil (Nat.toDigits_ne_nil (n := n) (b := 10))
    have digit : c.isDigit = true := Text.isDigit_of_mem_numeral (same ▸ List.mem_cons_self)
    rw [same] at signed
    cases signed
    cases digit
  unfold number?
  split
  next heq =>
    split at heq
    next signed => exact absurd signed (unsigned _)
    next =>
      cases heq
      simp [whole?_numeral n closes, fraction, exponent, Nat.ofDigitChars_toDigits]

theorem skip_cons {c : Char} (visible : isSpace c = false) (cs : List Char) : skip (c :: cs) = c :: cs :=
  List.dropWhile_cons_of_neg (by simp [visible])

theorem toList_quote (text : String) : (quote text).toList = '"' :: (text.toList.flatMap escapeChar ++ ['"']) :=
  String.toList_ofList

theorem toList_write_list (values : List Datum) :
    (write (.list values)).toList = '[' :: (Text.joined (writeAll values) ++ [']']) := by
  simp [write, Text.joined]

theorem toList_write_record (members : List (String × Datum)) :
    (write (.record members)).toList = '\x7b' :: (Text.joined (writeMembers members) ++ ['\x7d']) := by
  simp [write, Text.joined]

theorem joined_value (value : Datum) : Text.joined (writeAll [value]) = (write value).toList :=
  Text.joined_single _

theorem joined_values (first second : Datum) (rest : List Datum) :
    Text.joined (writeAll (first :: second :: rest)) =
      (write first).toList ++ ',' :: Text.joined (writeAll (second :: rest)) :=
  Text.joined_cons_cons _ _ _

/-- The characters of a member after its opening quote. -/
def memberText (member : String × Datum) : List Char :=
  member.1.toList.flatMap escapeChar ++ '"' :: ':' :: (write member.2).toList

theorem joined_member (member : String × Datum) :
    Text.joined (writeMembers [member]) = '"' :: memberText member := by
  rw [writeMembers, writeMembers, Text.joined_single]
  simp [toList_quote, memberText]

theorem joined_members (first second : String × Datum) (rest : List (String × Datum)) :
    Text.joined (writeMembers (first :: second :: rest)) =
      '"' :: (memberText first ++ ',' :: Text.joined (writeMembers (second :: rest))) := by
  rw [writeMembers, writeMembers, Text.joined_cons_cons]
  simp [toList_quote, memberText]

/-- The first character of a written value is no blank, and ends nothing. -/
theorem head_write {datum : Datum} (kept : datum.isKept = true) :
    ∃ c cs, (write datum).toList = c :: cs ∧ isSpace c = false ∧ c ≠ ']' := by
  cases datum with
  | null => exact ⟨'n',_,rfl,rfl,by decide⟩
  | truth value => cases value <;> exact ⟨_,_,rfl,rfl,by decide⟩
  | natural n =>
    obtain ⟨c,cs,digits⟩ := List.exists_cons_of_ne_nil (Nat.toDigits_ne_nil (n := n) (b := 10))
    have digit : c.isDigit = true := Text.isDigit_of_mem_numeral (digits ▸ List.mem_cons_self)
    refine ⟨c,cs,by rw [write, Text.toList_toString, digits],?_,?_⟩
    · cases space : isSpace c with
      | false => rfl
      | true =>
        simp only [isSpace, Bool.or_eq_true, beq_iff_eq] at space
        rcases space with ((rfl | rfl) | rfl) | rfl <;> cases digit
    · rintro rfl
      cases digit
  | text value => exact ⟨'"',_,by rw [write, toList_quote],rfl,by decide⟩
  | list values => exact ⟨'[',_,toList_write_list values,rfl,by decide⟩
  | record members => exact ⟨'\x7b',_,toList_write_record members,rfl,by decide⟩
  | number | garbled | unfit => cases kept

theorem skip_write {datum : Datum} (kept : datum.isKept = true) (rest : List Char) :
    skip ((write datum).toList ++ rest) = (write datum).toList ++ rest := by
  obtain ⟨c,cs,head,visible,_⟩ := head_write kept
  rw [head, List.cons_append, skip_cons visible]

theorem write_ne_bracket {datum : Datum} (kept : datum.isKept = true) (rest cs : List Char) :
    (write datum).toList ++ rest ≠ ']' :: cs := by
  obtain ⟨c,text,head,_,other⟩ := head_write kept
  rw [head]
  intro same
  cases same
  exact other rfl

theorem recordOf_named (members : List (String × Datum)) :
    recordOf (members.map fun member => (some member.1, member.2)) = .record members := by
  have named : (members.map fun member => ((some member.1 : Option String), member.2)).mapM
      (fun member => member.1.map fun name => (name, member.2)) = some members := by
    induction members with
    | nil => rfl
    | cons member rest ih => simp [ih]
  rw [recordOf, named]

/-- The readers with a count of at least as many steps as there are characters to read. -/
structure ReadsBack (count : Nat) : Prop where
  value : ∀ datum rest, Datum.isKept datum = true → Closes rest → (write datum).toList.length ≤ count →
    value? count ((write datum).toList ++ rest) = some (datum, rest)
  values : ∀ first values rest, Datum.areKept (first :: values) = true →
    (Text.joined (writeAll (first :: values))).length < count →
    values? count (Text.joined (writeAll (first :: values)) ++ ']' :: rest) = some (first :: values, rest)
  members : ∀ first members rest, Datum.areMembersKept (first :: members) = true →
    (Text.joined (writeMembers (first :: members))).length < count →
    members? count (Text.joined (writeMembers (first :: members)) ++ '\x7d' :: rest) =
      some ((first :: members).map fun member => (some member.1, member.2), rest)

theorem value?_of_isDigit {c : Char} (digit : c.isDigit = true) (count : Nat) (cs : List Char) :
    value? (count + 1) (c :: cs) = number? (c :: cs) := by
  have other (mark : Char) (plain : mark.isDigit = false) : c ≠ mark := by
    rintro rfl
    exact absurd digit (by simp [plain])
  have visible : isSpace c = false := by
    simp [isSpace, other ' ' rfl, other '\n' rfl, other '\t' rfl, other '\r' rfl]
  rw [value?, skip_cons visible]
  split
  case h_7 => rfl
  all_goals
    rename_i marked
    cases marked
    cases digit

theorem value?_numeral (count n : Nat) {rest : List Char} (closes : Closes rest) :
    value? (count + 1) (Nat.toDigits 10 n ++ rest) = some (.natural n, rest) := by
  obtain ⟨c,cs,digits⟩ := List.exists_cons_of_ne_nil (Nat.toDigits_ne_nil (n := n) (b := 10))
  have digit : c.isDigit = true := Text.isDigit_of_mem_numeral (digits ▸ List.mem_cons_self)
  rw [← number?_numeral n closes, digits, List.cons_append, value?_of_isDigit digit]

section Reading
variable {count : Nat} {rest : List Char}

theorem ReadsBack.succ_value (reads : ReadsBack count) (datum : Datum) (kept : datum.isKept = true)
    (closes : Closes rest) (short : (write datum).toList.length ≤ count + 1) :
    value? (count + 1) ((write datum).toList ++ rest) = some (datum, rest) := by
  cases datum with
  | number | garbled | unfit => cases kept
  | natural n =>
    rw [write, Text.toList_toString]
    exact value?_numeral count n closes
  | null =>
    rw [value?, skip_write kept]
    rfl
  | truth value =>
    rw [value?, skip_write kept]
    cases value <;> rfl
  | text value =>
    rw [value?, skip_write kept, write, toList_quote]
    simp only [List.cons_append, List.append_assoc, List.nil_append, units?_quoted, Option.map_some, textOf_toNat]
  | list values =>
    rw [toList_write_list] at short
    simp only [List.length_cons, List.length_append] at short
    rw [value?, skip_write kept, toList_write_list]
    cases values with
    | nil => rfl
    | cons first values =>
      have firstKept : first.isKept = true := (Bool.and_eq_true_iff.mp kept).1
      have read := reads.values first values rest kept (by omega)
      obtain ⟨text,written⟩ : ∃ text, Text.joined (writeAll (first :: values)) = (write first).toList ++ text := by
        cases values with
        | nil => exact ⟨[],by rw [joined_value, List.append_nil]⟩
        | cons second values => exact ⟨_,joined_values first second values⟩
      rw [written, List.append_assoc] at read
      rw [written]
      simp only [List.cons_append, List.append_assoc, List.nil_append]
      rw [skip_write firstKept]
      split
      next bracket => exact absurd bracket (write_ne_bracket firstKept _ _)
      next => rw [read, Option.map_some]
  | record members =>
    rw [toList_write_record] at short
    simp only [List.length_cons, List.length_append] at short
    rw [value?, skip_write kept, toList_write_record]
    cases members with
    | nil => rfl
    | cons first members =>
      have read := reads.members first members rest kept (by omega)
      obtain ⟨text,written⟩ : ∃ text, Text.joined (writeMembers (first :: members)) = '"' :: text := by
        cases members with
        | nil => exact ⟨_,joined_member first⟩
        | cons second members => exact ⟨_,joined_members first second members⟩
      rw [written, List.cons_append] at read
      rw [written]
      simp only [List.cons_append, List.append_assoc, List.nil_append]
      rw [skip_cons rfl]
      split
      next brace => cases brace
      next => rw [read, Option.map_some, recordOf_named]

theorem ReadsBack.succ_values (reads : ReadsBack count) (first : Datum) (values : List Datum)
    (kept : Datum.areKept (first :: values) = true)
    (short : (Text.joined (writeAll (first :: values))).length < count + 1) :
    values? (count + 1) (Text.joined (writeAll (first :: values)) ++ ']' :: rest) = some (first :: values, rest) := by
  obtain ⟨firstKept,restKept⟩ := Bool.and_eq_true_iff.mp kept
  cases values with
  | nil =>
    rw [joined_value] at short ⊢
    rw [values?, reads.value first _ firstKept (.inr ⟨']',rest,rfl,by simp⟩) (by omega)]
    rfl
  | cons second values =>
    rw [joined_values] at short ⊢
    rw [List.length_append, List.length_cons] at short
    have later := reads.values second values rest restKept (by omega)
    rw [List.append_assoc, List.cons_append, values?,
      reads.value first _ firstKept (.inr ⟨',',_,rfl,by simp⟩) (by omega)]
    simp only [bind, Option.bind, skip_cons (show isSpace ',' = false from rfl), later, pure]

theorem ReadsBack.succ_members (reads : ReadsBack count) (first : String × Datum) (members : List (String × Datum))
    (kept : Datum.areMembersKept (first :: members) = true)
    (short : (Text.joined (writeMembers (first :: members))).length < count + 1) :
    members? (count + 1) (Text.joined (writeMembers (first :: members)) ++ '\x7d' :: rest) =
      some ((first :: members).map fun member => (some member.1, member.2), rest) := by
  obtain ⟨name,value⟩ := first
  obtain ⟨valueKept,restKept⟩ := Bool.and_eq_true_iff.mp kept
  -- the name of a member is read, and then its value up to what closes it
  have named (next : List Char) (closes : Closes next) (enough : (write value).toList.length ≤ count) :
      units? (memberText (name, value) ++ next) =
          some (name.toList.map Char.toNat, ':' :: ((write value).toList ++ next)) ∧
        value? count ((write value).toList ++ next) = some (value, next) := by
    refine ⟨?_,reads.value value next valueKept closes enough⟩
    rw [memberText, List.append_assoc, List.cons_append, units?_quoted, List.cons_append]
  cases members with
  | nil =>
    rw [joined_member] at short ⊢
    simp only [memberText, List.length_cons, List.length_append] at short
    obtain ⟨units,read⟩ := named ('\x7d' :: rest) (.inr ⟨_,rest,rfl,by simp⟩) (by omega)
    rw [List.cons_append, members?, skip_cons rfl]
    simp only [units, bind, Option.bind, skip_cons (show isSpace ':' = false from rfl), read,
      skip_cons (show isSpace '\x7d' = false from rfl), characters?_toNat, pure, Option.map_some,
      String.ofList_toList, List.map_cons, List.map_nil]
  | cons second members =>
    rw [joined_members] at short ⊢
    simp only [memberText, List.length_cons, List.length_append] at short
    have later := reads.members second members rest restKept (by omega)
    obtain ⟨units,read⟩ := named
      (',' :: (Text.joined (writeMembers (second :: members)) ++ '\x7d' :: rest)) (.inr ⟨_,_,rfl,by simp⟩)
      (by omega)
    rw [List.cons_append, List.append_assoc, List.cons_append, members?, skip_cons rfl]
    simp only [units, bind, Option.bind, skip_cons (show isSpace ':' = false from rfl), read,
      skip_cons (show isSpace ',' = false from rfl), later, characters?_toNat, pure, Option.map_some,
      String.ofList_toList, List.map_cons]

end Reading

theorem readsBack (count : Nat) : ReadsBack count := by
  induction count with
  | zero =>
    refine ⟨fun datum rest kept _ short => ?_,fun _ _ _ _ short => absurd short (Nat.not_lt_zero _),
      fun _ _ _ _ short => absurd short (Nat.not_lt_zero _)⟩
    obtain ⟨c,cs,head,_⟩ := head_write kept
    rw [head] at short
    cases short
  | succ count ih =>
    exact ⟨fun datum _ => ih.succ_value datum,fun first values _ => ih.succ_values first values,
      fun first members _ => ih.succ_members first members⟩

/-- What is written as JSON text is read back from it. -/
theorem read?_write {datum : Datum} (kept : datum.isKept = true) : read? (write datum) = some datum := by
  have read := (readsBack (2 * (write datum).toList.length + 2)).value datum [] kept (.inl rfl) (by omega)
  rw [List.append_nil] at read
  rw [Json.read?, read]
  rfl

example : write (.text "To Philemon\n\x01") = "\"To Philemon\\n\\u0001\"" := by decide +kernel

end Json
end Scriptorium
