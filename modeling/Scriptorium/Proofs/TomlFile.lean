import Scriptorium.Proofs.TomlText

/-! TOML values, statements and tables are read back as they were written: a value up to the mark after it, a
statement up to the end of its line. Members of different names all come into the table that a header opened. -/
namespace Scriptorium.Toml

/-- What may come after a value. -/
def Closes (rest : List Char) : Prop := ∃ c cs, rest = c :: cs ∧ c ∈ ['\n', ',', ']']

theorem Closes.ends {rest : List Char} (closes : Closes rest) : Ends rest := by
  obtain ⟨c,cs,rfl,mark⟩ := closes
  refine fun after => ⟨?_,?_⟩
  all_goals
    rintro same
    obtain rfl := (List.cons.inj same).1
    revert mark
    decide

section Scalars
variable {span rest : List Char}

theorem scalarSpan_append (marks : ∀ c ∈ span, isScalarMark c = true) (closes : Closes rest) :
    scalarSpan (span ++ rest) = (span, rest) := by
  obtain ⟨c,cs,rfl,mark⟩ := closes
  have others : ∀ c ∈ ['\n', ',', ']'], isScalarMark c = false ∧ c ≠ ' ' :=
    List.forall_iff_forall_mem.mp ⟨⟨rfl,by decide⟩,⟨rfl,by decide⟩,rfl,by decide⟩
  obtain ⟨other,blank⟩ := others c mark
  have first : (c :: cs).takeWhile isScalarMark = [] := List.takeWhile_cons_of_neg (by simp [other])
  have after : (c :: cs).dropWhile isScalarMark = c :: cs := List.dropWhile_cons_of_neg (by simp [other])
  rw [scalarSpan, List.takeWhile_append_of_pos marks, List.dropWhile_append_of_pos marks, first, after,
    List.append_nil]
  split
  next _ same => exact absurd (List.cons.inj same).1 blank
  next => rfl

/-- A value that does not begin with a quote or a bracket is a scalar. -/
theorem value?_scalar {datum : Datum} (some_char : span ≠ []) (marks : ∀ c ∈ span, isScalarMark c = true)
    (read : scalar? span = some datum) (closes : Closes rest) (depth steps : Nat) :
    value? depth (steps + 1) (span ++ rest) = some (datum, rest) := by
  have spanned := scalarSpan_append marks closes
  obtain ⟨c,cs,rfl⟩ := List.exists_cons_of_ne_nil some_char
  have mark := marks c List.mem_cons_self
  have others : ∀ c ∈ ['"', '\x27', '[', '\x7b'], isScalarMark c = false :=
    List.forall_iff_forall_mem.mp ⟨rfl,rfl,rfl,rfl⟩
  have differs {d : Char} (listed : d ∈ ['"', '\x27', '[', '\x7b']) : c ≠ d := by
    rintro rfl
    cases (others c listed).symm.trans mark
  rw [value?]
  · rw [spanned]
    simp [read]
  all_goals
    intros
    simp_all

theorem digitValue?_of_isDigit {c : Char} (digit : c.isDigit = true) : digitValue? 10 c = some (c.toNat - 48) := by
  have low : c.toNat ≤ 57 := (Char.isDigit_iff_toNat.mp digit).2
  have small : c.toNat - 48 < 10 := by omega
  simp only [digitValue?, Json.hexValue?, digit, if_true, Option.filter, small, decide_true]

theorem decimal?_numeral (n : Nat) : decimal? (Nat.toDigits 10 n) = some (Nat.toDigits 10 n) := by
  have all : ∀ c ∈ Nat.toDigits 10 n, c.isDigit = true := fun _ => Text.isDigit_of_mem_numeral
  have ungrouped : '_' ∉ Nat.toDigits 10 n := fun member => by cases all '_' member
  have digits : digits? 10 (Nat.toDigits 10 n) = some (Nat.toDigits 10 n) := by
    have each : ∀ c ∈ Nat.toDigits 10 n, (digitValue? 10 c).isSome = true := fun c member => by
      rw [digitValue?_of_isDigit (all c member), Option.isSome_some]
    have some_digit : (Nat.toDigits 10 n).isEmpty = false := by simp
    simp only [digits?, List.splitOn_eq_singleton ungrouped, List.all_cons, List.all_nil, some_digit,
      List.all_eq_true.mpr each, Bool.not_false, Bool.and_self, if_true, List.flatten_singleton]
  rcases Nat.eq_zero_or_pos n with rfl | positive
  · rfl
  · obtain ⟨c,cs,written,other⟩ := Text.head_toDigits positive
    rw [written] at digits ⊢
    rw [decimal?]
    · exact digits
    all_goals simp [other]

theorem magnitude_numeral (n : Nat) : magnitude 10 (Nat.toDigits 10 n) = n := by
  have value := Nat.ofDigitChars_toDigits (n := n) (show 1 < 10 by decide) (show 10 ≤ 10 by decide)
  rw [Nat.ofDigitChars_eq_foldl] at value
  refine (List.foldl_ext _ _ 0 fun sum c member => ?_).trans value
  rw [digitValue?_of_isDigit (Text.isDigit_of_mem_numeral member)]
  rfl

theorem scalar?_numeral {n : Nat} (small : n < Nat.pow 2 128) :
    scalar? (Nat.toDigits 10 n) = some (.natural n) := by
  have all : ∀ c ∈ Nat.toDigits 10 n, c.isDigit = true := fun _ => Text.isDigit_of_mem_numeral
  have plain : unmarked? natural (Nat.toDigits 10 n) = some (.natural n) := by
    simp [unmarked?, decimal?_numeral, magnitude_numeral, natural, small]
  have integer : integer? (Nat.toDigits 10 n) = some (.natural n) := by
    rw [integer?]
    · exact plain
    all_goals
      intro cs same
      rw [same] at all
      simp at all
  have word {word : String} (letter : ∃ c ∈ word.toList, c.isDigit = false) :
      (Nat.toDigits 10 n == word.toList) = false := by
    obtain ⟨c,member,other⟩ := letter
    refine beq_eq_false_iff_ne.mpr fun same => ?_
    cases other.symm.trans (all c (same ▸ member))
  rw [scalar?, word ⟨'t',by decide,rfl⟩, word ⟨'f',by decide,rfl⟩, integer]
  rfl

end Scalars

theorem value?_quote (text : String) {rest : List Char} (closes : Closes rest) (depth steps : Nat) :
    value? depth (steps + 1) ((quote text).toList ++ rest) = some (.text text, rest) := by
  have read := quoted?_quote text closes.ends
  obtain ⟨c,cs,written,rfl | rfl⟩ := head_quote text
  all_goals
    rw [written, List.cons_append] at read ⊢
    rw [value?, read]
    exact congrArg (fun text => some (Datum.text text, rest)) String.ofList_toList

theorem skipVoid?_cons {c : Char} (visible : c ∉ [' ', '\t', '\n', '\r', '#']) (cs : List Char) :
    skipVoid? false (c :: cs) = some (c :: cs) := by
  simp only [List.mem_cons, List.not_mem_nil, not_or] at visible
  obtain ⟨space,tab,line,carriage,comment,_⟩ := visible
  rw [skipVoid?]
  · simp [isBlank, space, tab, comment]
  all_goals simp_all

theorem skipVoid?_quote (text : String) (rest : List Char) :
    skipVoid? false ((quote text).toList ++ rest) = some ((quote text).toList ++ rest) := by
  obtain ⟨c,cs,written,rfl | rfl⟩ := head_quote text
  all_goals
    rw [written]
    exact skipVoid?_cons (by decide) _

theorem values?_last {value : String} {cs rest : List Char}
    (void : skipVoid? false cs = some ((quote value).toList ++ ']' :: rest)) (depth steps : Nat) :
    values? depth (steps + 2) cs = some ([.text value], rest) := by
  have read : value? depth (steps + 1) ((quote value).toList ++ ']' :: rest) = some (.text value, ']' :: rest) :=
    value?_quote value ⟨_,_,rfl,by decide⟩ depth steps
  have close : skipVoid? false (']' :: rest) = some (']' :: rest) := skipVoid?_cons (by decide) _
  obtain ⟨c,after,written,rfl | rfl⟩ := head_quote value
  all_goals
    rw [written, List.cons_append] at void read
    rw [values?]
    simp only [void, bind, Option.bind, pure]
    split
    next bracket => exact absurd (List.cons.inj bracket).1 (by decide)
    next => simp only [read, close]

theorem values?_next {value : String} {cs later rest : List Char} {values : List Datum}
    (void : skipVoid? false cs = some ((quote value).toList ++ ',' :: later)) {depth steps : Nat}
    (others : values? depth (steps + 1) later = some (values, rest)) :
    values? depth (steps + 2) cs = some (.text value :: values, rest) := by
  have read : value? depth (steps + 1) ((quote value).toList ++ ',' :: later) = some (.text value, ',' :: later) :=
    value?_quote value ⟨_,_,rfl,by decide⟩ depth steps
  have comma : skipVoid? false (',' :: later) = some (',' :: later) := skipVoid?_cons (by decide) _
  obtain ⟨c,after,written,rfl | rfl⟩ := head_quote value
  all_goals
    rw [written, List.cons_append] at void read
    rw [values?]
    simp only [void, bind, Option.bind, pure]
    split
    next bracket => exact absurd (List.cons.inj bracket).1 (by decide)
    next => simp only [read, comma, others]

/-- The lines of a list that has a line for each value. -/
def lines (values : List String) : List Char :=
  (String.join ((values.map quote).map fun value => "    " ++ value ++ ",\n")).toList

theorem lines_cons (value : String) (values : List String) :
    lines (value :: values) = ' ' :: ' ' :: ' ' :: ' ' :: ((quote value).toList ++ ',' :: '\n' :: lines values) := by
  simp [lines]

theorem skipVoid?_indent (cs : List Char) :
    skipVoid? false ('\n' :: ' ' :: ' ' :: ' ' :: ' ' :: cs) = skipVoid? false cs :=
  rfl

theorem values?_lines (values : List String) (depth : Nat) {steps : Nat} (enough : values.length < steps)
    (rest : List Char) :
    values? depth steps ('\n' :: (lines values ++ ']' :: rest)) = some (values.map .text, rest) := by
  induction values generalizing steps with
  | nil =>
    obtain ⟨steps,rfl⟩ := Nat.exists_eq_add_of_lt enough
    rfl
  | cons value values ih =>
    obtain ⟨steps,rfl⟩ := Nat.exists_eq_add_of_le' enough
    have enough' : values.length < steps + (value :: values).length := by
      rw [List.length_cons]
      omega
    rw [lines_cons]
    simp only [List.cons_append, List.append_assoc]
    exact values?_next ((skipVoid?_indent _).trans (skipVoid?_quote value _)) (ih enough')

theorem value?_bracket {cs rest : List Char} {values : List Datum} {depth steps : Nat}
    (read : values? depth steps cs = some (values, rest)) :
    value? (depth + 1) (steps + 1) ('[' :: cs) = some (.list values, rest) := by
  rw [value?, read]
  rfl

theorem value?_writeList (values : List String) (depth : Nat) {steps : Nat} (enough : values.length + 1 < steps)
    (rest : List Char) :
    value? (depth + 1) steps ((writeList (values.map quote)).toList ++ rest) =
      some (.list (values.map .text), rest) := by
  obtain ⟨steps,rfl⟩ : ∃ more, steps = more + 1 := ⟨steps - 1,by omega⟩
  have read : ∃ cs, (writeList (values.map quote)).toList ++ rest = '[' :: cs ∧
      values? depth steps cs = some (values.map .text, rest) := by
    match values with
    | [] =>
      obtain ⟨steps,rfl⟩ := Nat.exists_eq_add_of_le' (Nat.le_of_lt_succ enough)
      exact ⟨']' :: rest,rfl,rfl⟩
    | [value] =>
      obtain ⟨steps,rfl⟩ := Nat.exists_eq_add_of_le' (Nat.le_of_lt_succ enough)
      refine ⟨(quote value).toList ++ ']' :: rest,by simp [writeList],?_⟩
      exact values?_last (skipVoid?_quote value _) depth steps
    | first :: second :: values =>
      refine ⟨'\n' :: (lines (first :: second :: values) ++ ']' :: rest),?_,?_⟩
      · simp [writeList, lines]
      · exact values?_lines _ depth (by omega) rest
  obtain ⟨cs,written,read⟩ := read
  rw [written]
  exact value?_bracket read

theorem length_lines (values : List String) : values.length ≤ (lines values).length := by
  induction values with
  | nil => exact Nat.zero_le _
  | cons value values ih =>
    rw [lines_cons]
    simp only [List.length_cons, List.length_append]
    omega

theorem length_writeList (values : List String) : values.length < (writeList (values.map quote)).toList.length := by
  match values with
  | [] => decide
  | [value] => simp [writeList]
  | first :: second :: values =>
    have long := length_lines (first :: second :: values)
    have whole : (writeList ((first :: second :: values).map quote)).toList =
        '[' :: '\n' :: (lines (first :: second :: values) ++ [']']) := by
      simp [writeList, lines]
    rw [whole]
    simp only [List.length_cons, List.length_append] at long ⊢
    omega

/-- The text of a value on the rest of a line. -/
def Spells (written : String) (datum : Datum) : Prop :=
  (∃ c cs, written.toList = c :: cs ∧ isBlank c = false) ∧
    ∀ steps rest, written.toList.length < steps →
      value? depthLimit steps (written.toList ++ '\n' :: rest) = some (datum, '\n' :: rest)

theorem closes_line (rest : List Char) : Closes ('\n' :: rest) :=
  ⟨_,_,rfl,by decide⟩

theorem spells_quote (text : String) : Spells (quote text) (.text text) := by
  refine ⟨?_,fun steps rest enough => ?_⟩
  · obtain ⟨c,cs,written,rfl | rfl⟩ := head_quote text
    all_goals exact ⟨_,cs,written,by decide⟩
  · obtain ⟨steps,rfl⟩ := Nat.exists_eq_add_of_lt enough
    exact value?_quote text (closes_line rest) _ _

theorem spells_scalar {written : String} {datum : Datum} (some_char : written.toList ≠ [])
    (marks : ∀ c ∈ written.toList, isScalarMark c = true) (read : scalar? written.toList = some datum) :
    Spells written datum := by
  refine ⟨?_,fun steps rest enough => ?_⟩
  · obtain ⟨c,cs,split⟩ := List.exists_cons_of_ne_nil some_char
    have mark := marks c (split ▸ List.mem_cons_self)
    refine ⟨c,cs,split,isBlank_eq_false ?_ ?_⟩
    all_goals
      rintro rfl
      cases mark
  · obtain ⟨steps,rfl⟩ := Nat.exists_eq_add_of_lt enough
    exact value?_scalar some_char marks read (closes_line rest) _ _

theorem spells_truth (value : Bool) : Spells (writeTruth value) (.truth value) := by
  cases value <;> exact spells_scalar (by decide) (List.all_eq_true.mp rfl) rfl

theorem spells_natural {n : Nat} (small : n < Nat.pow 2 128) : Spells (toString n) (.natural n) := by
  have digits := Text.toList_toString n
  refine spells_scalar ?_ ?_ ?_
  · rw [digits]
    exact Nat.toDigits_ne_nil
  · intro c member
    rw [digits] at member
    simp [isScalarMark, Char.isAlphanum, Text.isDigit_of_mem_numeral member]
  · rw [digits]
    exact scalar?_numeral small

theorem spells_writeList (values : List String) :
    Spells (writeList (values.map quote)) (.list (values.map .text)) := by
  refine ⟨?_,fun steps rest enough => ?_⟩
  · match values with
    | [] => exact ⟨'[',_,rfl,rfl⟩
    | [value] => exact ⟨'[',(quote value).toList ++ [']'],by simp [writeList],rfl⟩
    | first :: second :: values =>
      exact ⟨'[','\n' :: (lines (first :: second :: values) ++ [']']),by simp [writeList, lines],rfl⟩
  · have long := length_writeList values
    exact value?_writeList values _ (by omega) _

theorem lineEnd?_line (rest : List Char) : lineEnd? ('\n' :: rest) = some rest :=
  rfl

theorem key?_writeKey (key : String) (rest : List Char) :
    key? depthLimit ((writeKey key).toList ++ ' ' :: '=' :: rest) = some ([key], '=' :: rest) := by
  obtain ⟨c,cs,written,visible⟩ := head_writeKey key
  have blank : isBlank c = false := by
    refine isBlank_eq_false ?_ ?_
    all_goals
      rintro rfl
      exact visible (by decide)
  have skipped : skipBlanks ((writeKey key).toList ++ ' ' :: '=' :: rest) =
      (writeKey key).toList ++ ' ' :: '=' :: rest := by
    rw [written]
    exact skipBlanks_cons blank _
  rw [depthLimit, key?, skipped, simpleKey?_writeKey]
  rfl

theorem statement?_assignment (key : String) {value : String} {datum : Datum} (spells : Spells value datum)
    (rest : List Char) :
    statement? ((assignment (writeKey key) value).toList ++ rest) = some (.assignment [key] datum, '\n' :: rest) := by
  obtain ⟨⟨d,ds,begun,blank⟩,read⟩ := spells
  obtain ⟨c,cs,written,visible⟩ := head_writeKey key
  have whole : (assignment (writeKey key) value).toList ++ rest =
      (writeKey key).toList ++ ' ' :: '=' :: ' ' :: (value.toList ++ '\n' :: rest) := by
    simp [assignment]
  have keyed := key?_writeKey key (' ' :: (value.toList ++ '\n' :: rest))
  have skipped : skipBlanks (' ' :: (value.toList ++ '\n' :: rest)) = value.toList ++ '\n' :: rest := by
    rw [begun]
    exact skipBlanks_cons blank _
  rw [whole]
  rw [written] at keyed ⊢
  rw [List.cons_append, statement?]
  · rw [List.cons_append] at keyed
    have enough : value.toList.length < 2 * (' ' :: (value.toList ++ '\n' :: rest)).length + 2 := by
      simp only [List.length_cons, List.length_append]
      omega
    simp only [keyed, bind, Option.bind, skipped, read _ rest enough, pure]
  all_goals
    intro after same
    rw [(List.cons.inj same).1] at visible
    exact visible (by decide)

theorem statements?_assignment (key : String) {value : String} {datum : Datum} (spells : Spells value datum)
    (count : Nat) (rest : List Char) :
    statements? (count + 1) ((assignment (writeKey key) value).toList ++ rest) =
      (statements? count rest).map (.assignment [key] datum :: ·) := by
  have read := statement?_assignment key spells rest
  obtain ⟨c,cs,written,visible⟩ := head_writeKey key
  obtain ⟨after,begun⟩ : ∃ after, (assignment (writeKey key) value).toList ++ rest = c :: after := by
    simp [assignment, written]
  rw [begun] at read ⊢
  rw [statements?, skipVoid?_cons fun blank => visible (List.mem_append_left ['['] blank)]
  simp only [bind, Option.bind, read, lineEnd?_line, pure]
  cases statements? count rest <;> rfl

theorem statements?_header (text : String) (path : List String) {c : Char} {cs : List Char}
    (written : text.toList = c :: cs) (single : c ≠ '[')
    (key : ∀ rest, key? depthLimit (text.toList ++ ']' :: rest) = some (path, ']' :: rest)) (count : Nat)
    (rest : List Char) :
    statements? (count + 1) ((header text).toList ++ rest) = (statements? count rest).map (.header path :: ·) := by
  have whole : (header text).toList ++ rest = '\n' :: '[' :: (text.toList ++ ']' :: '\n' :: rest) := by
    simp [header]
  have line : skipVoid? false ('\n' :: '[' :: (text.toList ++ ']' :: '\n' :: rest)) =
      some ('[' :: (text.toList ++ ']' :: '\n' :: rest)) :=
    skipVoid?_cons (c := '[') (by decide) _
  have read : statement? ('[' :: (text.toList ++ ']' :: '\n' :: rest)) = some (.header path, '\n' :: rest) := by
    rw [statement?]
    · simp only [key, bind, Option.bind, pure]
    · intro after same
      rw [written] at same
      exact single (List.cons.inj same).1
  rw [whole, statements?, line]
  simp only [bind, Option.bind, read, lineEnd?_line, pure]
  cases statements? count rest <;> rfl

theorem statements?_assignments {α : Type} (key written : α → String) (datum : α → Datum)
    (spells : ∀ value, Spells (written value) (datum value)) (values : List α) (count : Nat) (rest : List Char) :
    statements? (values.length + count)
        ((String.join (values.map fun value => assignment (writeKey (key value)) (written value))).toList ++ rest) =
      (statements? count rest).map (values.map (fun value => .assignment [key value] (datum value)) ++ ·) := by
  induction values with
  | nil =>
    simp
  | cons value values ih =>
    rw [List.map_cons, String.join_cons, String.toList_append, List.append_assoc, List.length_cons, Nat.succ_add,
      statements?_assignment (key value) (spells value), ih]
    cases statements? count rest <;> rfl

theorem length_assignments {α : Type} (key written : α → String) (values : List α) :
    values.length ≤
      (String.join (values.map fun value => assignment (writeKey (key value)) (written value))).toList.length := by
  induction values with
  | nil => exact Nat.zero_le _
  | cons value values ih =>
    rw [List.map_cons, String.join_cons, String.toList_append, List.length_append, List.length_cons]
    have line : 1 ≤ (assignment (writeKey (key value)) (written value)).toList.length := by
      simp only [assignment, String.toList_append, List.length_append, show "\n".toList.length = 1 from rfl]
      omega
    omega

namespace Entries

theorem change_new {key : String} {entries : Entries} (new : key ∉ entries.map (·.1))
    (next? : Option Node → Option Node) :
    change key next? entries = (next? none).map fun node => entries ++ [(key, node)] := by
  induction entries with
  | nil => rfl
  | cons entry entries ih =>
    rw [List.map_cons, List.mem_cons, not_or] at new
    rw [change, if_neg (Ne.symm new.1), ih new.2]
    cases next? none <;> rfl

def leaves (members : List (String × Datum)) : Entries := members.map fun member => (member.1, .leaf member.2)

theorem members_leaves (members : List (String × Datum)) : Node.members (leaves members) = members := by
  induction members with
  | nil => rfl
  | cons member members ih => exact congrArg (member :: ·) ih

/-- Members of different names are put into the table that a header opened, wherever it is. -/
theorem fill?_assignments {header : List String} {frame : Entries → Entries}
    (framed : ∀ finish? inner, edit false finish? header .header (frame inner) = (finish? .header inner).map frame)
    (members : List (String × Datum)) {inner : Entries} (distinct : (inner.map (·.1) ++ members.map (·.1)).Nodup)
    (rest : List Statement) :
    fill? (members.map (fun member => .assignment [member.1] member.2) ++ rest) header (frame inner) =
      fill? rest header (frame (inner ++ leaves members)) := by
  induction members generalizing inner with
  | nil => rw [show leaves [] = [] from rfl, List.append_nil]; rfl
  | cons member members ih =>
    have new : member.1 ∉ inner.map (·.1) := fun listed =>
      (List.nodup_append.mp distinct).2.2 _ listed _ List.mem_cons_self rfl
    have assigned : assign [member.1] member.2 inner = some (inner ++ [(member.1, .leaf member.2)]) :=
      change_new new _
    have added : assignUnder header [member.1] member.2 (frame inner) =
        some (frame (inner ++ [(member.1, .leaf member.2)])) := by
      rw [assignUnder, framed, assigned]
      rfl
    rw [List.map_cons, List.cons_append, fill?, added, Option.bind_some, ih]
    · rw [List.append_assoc]
      rfl
    · simpa using distinct

end Entries
end Scriptorium.Toml
