import Scriptorium.Proofs.PlanFile

/-! A plan that is saved and loaded again. The file holds everything that the plan says, but loading expands the
output directory, and saving does not undo that: a plan is loaded as it was saved only where its directory is left
by a further expansion. This holds for any writer and reader that undo each other, and for any expansion of paths
that treats the documented forms of variables as it should. -/
namespace Scriptorium

namespace Expansion

/-- The documented forms of which a path may be made: characters, two dollars, and variables, which have a default
only in braces. -/
inductive Piece
  | char (c : Char)
  | dollar
  | named (name : List Char)
  | braced (name : List Char) (default : Option (List Char))

namespace Piece

def text : Piece → List Char
  | char c => [c]
  | dollar => ['$', '$']
  | named name => '$' :: name
  | braced name none => '$' :: '\x7b' :: (name ++ ['\x7d'])
  | braced name (some default) => '$' :: '\x7b' :: (name ++ ':' :: '-' :: (default ++ ['\x7d']))

/-- What a piece stands for, none where a variable has neither a value nor a default. -/
def value? (values : Index String String) : Piece → Option (List Char)
  | char c => some [c]
  | dollar => some ['$']
  | named name => Expansion.value? values name
  | braced name default => (Expansion.value? values name).or default

def IsProper : Piece → Prop
  | char c => c ≠ '$'
  | dollar => True
  | named name => name ≠ [] ∧ ∀ c ∈ name, isNameChar c = true
  | braced name default =>
    name ≠ [] ∧ (∀ c ∈ name, isNameChar c = true) ∧ ∀ text, default = some text → '\x7d' ∉ text

/-- A piece that brings in no dollar of its own. -/
def IsPlain : Piece → Prop
  | char _ | named _ => True
  | dollar => False
  | braced _ default => ∀ text, default = some text → '$' ∉ text

end Piece

def spell (pieces : List Piece) : List Char := pieces.flatMap Piece.text

theorem spell_cons (piece : Piece) (pieces : List Piece) : spell (piece :: pieces) = piece.text ++ spell pieces := rfl

/-- Pieces that can be told from their text: a name without braces ends where no more of a name follows. -/
inductive Spelled : List Piece → Prop
  | nil : Spelled []
  | cons {piece pieces} (proper : piece.IsProper)
      (ends : ∀ name, piece = .named name → ∀ c ∈ (spell pieces).head?, isNameChar c = false)
      (rest : Spelled pieces) : Spelled (piece :: pieces)

def meaning? (values : Index String String) : List Piece → Option (List Char)
  | [] => some []
  | piece :: rest => do
    let value ← piece.value? values
    return value ++ (← meaning? values rest)

/-- An expansion of paths that replaces every documented form by what it stands for, once, and a tilde at the front
of the path by the home directory. -/
def Documented (environment : Environment) (full? : String → Option String) : Prop :=
  ∀ (path : String) (pieces : List Piece), Spelled pieces → path.toList = spell pieces →
    full? path = (meaning? environment.values pieces).map fun expanded =>
      String.ofList (if path.toList.head? = some '~' then tilde environment.home expanded else expanded)

/-- No name of a variable, no value and no home directory has a dollar in it. -/
structure Dollarless (environment : Environment) : Prop where
  values : ∀ entry ∈ environment.values.entries, '$' ∉ entry.1.toList ∧ '$' ∉ entry.2.toList
  home : ∀ home, environment.home = some home → '$' ∉ home.toList

section Own
variable {values : Index String String} {name default cs after : List Char} {count : Nat}

theorem splitAtMark?_of_not_mem {mark : Char} (outside : mark ∉ name) :
    splitAtMark? [mark] (name ++ mark :: after) = some (name, after) := by
  induction name with
  | nil => simp [splitAtMark?, List.isPrefixOf?]
  | cons c name ih =>
    rw [List.mem_cons, not_or] at outside
    simp [splitAtMark?, List.isPrefixOf?, outside.1, ih outside.2]

theorem ne_of_isNameChar {c other : Char} (named : isNameChar c = true) (mark : isNameChar other = false) :
    other ≠ c := by
  rintro rfl
  cases named.symm.trans mark

theorem splitAtMark?_default (named : ∀ c ∈ name, isNameChar c = true) :
    splitAtMark? [':', '-'] (name ++ ':' :: '-' :: default) = some (name, default) := by
  induction name with
  | nil => simp [splitAtMark?, List.isPrefixOf?]
  | cons c name ih =>
    obtain ⟨here,others⟩ := List.forall_mem_cons.mp named
    simp [splitAtMark?, List.isPrefixOf?, ne_of_isNameChar here (by decide : isNameChar ':' = false), ih others]

theorem splitAtMark?_name (named : ∀ c ∈ name, isNameChar c = true) : splitAtMark? [':', '-'] name = none := by
  induction name with
  | nil => rfl
  | cons c name ih =>
    obtain ⟨here,others⟩ := List.forall_mem_cons.mp named
    simp [splitAtMark?, List.isPrefixOf?, ne_of_isNameChar here (by decide : isNameChar ':' = false), ih others]

theorem nameAndDefault_name (named : ∀ c ∈ name, isNameChar c = true) : nameAndDefault name = (name, none) := by
  rw [nameAndDefault, splitAtMark?_name named]

theorem nameAndDefault_default (some_char : name ≠ []) (named : ∀ c ∈ name, isNameChar c = true) :
    nameAndDefault (name ++ ':' :: '-' :: default) = (name, some default) := by
  rw [nameAndDefault, splitAtMark?_default named]
  cases name with
  | nil => exact absurd rfl some_char
  | cons c name => rfl

theorem substitute?_braced {inside : List Char} (closed : '\x7d' ∉ inside) :
    substitute? values (count + 1) ('$' :: '\x7b' :: (inside ++ '\x7d' :: after)) =
      (braced? values inside).bind fun value => (substitute? values count after).map (value ++ ·) := by
  rw [substitute?, splitAtMark?_of_not_mem closed]
  simp only
  cases braced? values inside <;> cases substitute? values count after <;> rfl

theorem substitute?_char {c : Char} (other : c ≠ '$') :
    substitute? values (count + 1) (c :: cs) = (substitute? values count cs).map (c :: ·) := by
  rw [substitute?]
  all_goals simp [other]

theorem substitute?_named (some_char : name ≠ []) (named : ∀ c ∈ name, isNameChar c = true)
    (ends : ∀ c ∈ after.head?, isNameChar c = false) :
    substitute? values (count + 1) ('$' :: (name ++ after)) =
      (value? values name).bind fun value => (substitute? values count after).map (value ++ ·) := by
  have taken : (name ++ after).takeWhile isNameChar = name := by
    rw [List.takeWhile_append_of_pos named]
    cases after with
    | nil => simp
    | cons c after => rw [List.takeWhile_cons_of_neg (by simp [ends c rfl]), List.append_nil]
  have dropped : (name ++ after).dropWhile isNameChar = after := by
    rw [List.dropWhile_append_of_pos named]
    cases after with
    | nil => rfl
    | cons c after => rw [List.dropWhile_cons_of_neg (by simp [ends c rfl])]
  have begins {mark : Char} (unnamed : isNameChar mark = false) (rest : List Char) : name ++ after ≠ mark :: rest := by
    cases name with
    | nil => exact absurd rfl some_char
    | cons c name =>
      intro same
      exact ne_of_isNameChar (named c (by simp)) unnamed (List.cons.inj same).1.symm
  rw [substitute?]
  · simp only [taken, dropped, List.isEmpty_eq_false_iff.mpr some_char]
    cases value? values name <;> cases substitute? values count after <;> rfl
  · exact begins (by decide)
  · exact begins (by decide)

/-- One piece is replaced, and then what comes after it. -/
theorem substitute?_piece {piece : Piece} (proper : piece.IsProper)
    (ends : ∀ name, piece = .named name → ∀ c ∈ after.head?, isNameChar c = false) :
    substitute? values (count + 1) (piece.text ++ after) =
      (piece.value? values).bind fun value => (substitute? values count after).map (value ++ ·) := by
  cases piece with
  | char c => exact substitute?_char proper
  | dollar => rw [Piece.text, List.cons_append, List.cons_append, substitute?]; rfl
  | named name => exact substitute?_named proper.1 proper.2 (ends name rfl)
  | braced name default =>
    obtain ⟨some_char,named,closed⟩ := proper
    have apart : '\x7d' ∉ name := fun member => ne_of_isNameChar (named _ member) (by decide) rfl
    cases default with
    | none =>
      simp only [Piece.text, List.cons_append, List.append_assoc, List.nil_append]
      rw [substitute?_braced apart, braced?, nameAndDefault_name named]
      cases found : value? values name <;> simp [Piece.value?, found]
    | some default =>
      have outside : '\x7d' ∉ name ++ ':' :: '-' :: default := by
        simp [apart, closed default rfl]
      have spelled : (Piece.braced name (some default)).text ++ after =
          '$' :: '\x7b' :: ((name ++ ':' :: '-' :: default) ++ '\x7d' :: after) := by
        simp [Piece.text]
      rw [spelled, substitute?_braced outside, braced?, nameAndDefault_default some_char named]
      cases found : value? values name <;> simp [Piece.value?, found]

theorem Piece.length_text_pos (piece : Piece) : 0 < piece.text.length := by
  cases piece with
  | braced name default => cases default <;> simp [text]
  | _ => simp [text]

theorem substitute?_spell {pieces : List Piece} (spelled : Spelled pieces) (enough : (spell pieces).length ≤ count) :
    substitute? values count (spell pieces) = meaning? values pieces := by
  induction spelled generalizing count with
  | nil => cases count <;> rfl
  | @cons piece pieces proper ends _ ih =>
    rw [spell_cons, List.length_append] at enough
    have positive := piece.length_text_pos
    obtain ⟨count,rfl⟩ : ∃ less, count = less + 1 := ⟨count - 1,by omega⟩
    rw [spell_cons, substitute?_piece proper ends, ih (by omega), meaning?]
    cases piece.value? values <;> cases meaning? values pieces <;> rfl

theorem documented_full? (environment : Environment) : Documented environment (full? environment) := by
  intro path pieces spelled same
  rw [full?]
  simp only [same, substitute?_spell spelled (Nat.le_refl _)]

end Own

section Dollars
variable {environment : Environment} {full? : String → Option String} {pieces : List Piece} {value cs expanded : List Char}

theorem not_mem_of_value? (dollarless : Dollarless environment) {name : List Char}
    (found : value? environment.values name = some value) : '$' ∉ value := by
  obtain ⟨⟨known,text⟩,listed,found⟩ := List.exists_of_findSome?_eq_some found
  have whole := List.isPrefixOf?_eq_some_iff_append_eq.mp found
  obtain ⟨clean,plain⟩ := dollarless.values _ listed
  intro member
  have inside : '$' ∈ known.toList ++ '=' :: text.toList := whole ▸ List.mem_append_right _ member
  simp_all

theorem not_mem_of_piece (dollarless : Dollarless environment) {piece : Piece} (proper : piece.IsProper)
    (plain : piece.IsPlain) (found : piece.value? environment.values = some value) : '$' ∉ value := by
  cases piece with
  | char c =>
    cases found
    simpa using Ne.symm proper
  | dollar => exact absurd plain id
  | named name => exact not_mem_of_value? dollarless found
  | braced name default =>
    rcases Option.or_eq_some_iff.mp found with known | ⟨_,default⟩
    · exact not_mem_of_value? dollarless known
    · exact plain value default

/-- A path whose dollars all stand before variables has none of its own left. -/
theorem not_mem_of_meaning? (dollarless : Dollarless environment) (spelled : Spelled pieces)
    (plain : ∀ piece ∈ pieces, piece.IsPlain) (meant : meaning? environment.values pieces = some expanded) :
    '$' ∉ expanded := by
  induction spelled generalizing expanded with
  | nil =>
    cases meant
    exact List.not_mem_nil
  | cons proper _ _ ih =>
    obtain ⟨here,others⟩ := List.forall_mem_cons.mp plain
    obtain ⟨value,found,meant⟩ := Option.bind_eq_some_iff.mp meant
    obtain ⟨rest,later,same⟩ := Option.bind_eq_some_iff.mp meant
    cases same
    exact fun member => (List.mem_append.mp member).elim (not_mem_of_piece dollarless proper here found)
      (ih others later)

theorem not_mem_tilde (dollarless : Dollarless environment) (literal : '$' ∉ cs) :
    '$' ∉ tilde environment.home cs := by
  unfold tilde
  split
  next home found => exact dollarless.home home found
  next rest home found =>
    rw [List.mem_append, not_or]
    exact ⟨dollarless.home home found,fun member => literal (List.mem_cons_of_mem _ member)⟩
  next => exact literal

theorem tilde_of_head? {home : Option String} (other : cs.head? ≠ some '~') : tilde home cs = cs := by
  unfold tilde
  split
  next => exact absurd rfl other
  next => exact absurd rfl other
  next => rfl

/-- A path without dollars is made of characters alone. -/
theorem spelled_of_not_mem (literal : '$' ∉ cs) : Spelled (cs.map .char) ∧ spell (cs.map .char) = cs ∧
    ∀ values, meaning? values (cs.map .char) = some cs := by
  induction cs with
  | nil => exact ⟨.nil,rfl,fun _ => rfl⟩
  | cons c cs ih =>
    rw [List.mem_cons, not_or] at literal
    obtain ⟨spelled,text,meant⟩ := ih literal.2
    refine ⟨.cons (Ne.symm literal.1) nofun spelled,?_,fun values => ?_⟩
    · rw [List.map_cons, spell_cons, text]
      rfl
    · rw [List.map_cons, meaning?, meant]
      rfl

/-- Without dollars only a tilde is expanded. -/
theorem Documented.of_not_mem (documented : Documented environment full?) {path : String}
    (literal : '$' ∉ path.toList) : full? path = some (String.ofList (tilde environment.home path.toList)) := by
  obtain ⟨spelled,text,meant⟩ := spelled_of_not_mem literal
  rw [documented path _ spelled text.symm, meant, Option.map_some]
  split
  next => rfl
  next other => rw [tilde_of_head? other]

/-- No dollar is left of a path whose dollars all stand before variables, if it can be expanded. -/
theorem Documented.not_mem (documented : Documented environment full?) (dollarless : Dollarless environment)
    (spelled : Spelled pieces) (plain : ∀ piece ∈ pieces, piece.IsPlain) {path result : String}
    (text : path.toList = spell pieces) (expanded : full? path = some result) : '$' ∉ result.toList := by
  rw [documented path pieces spelled text] at expanded
  obtain ⟨meant,found,rfl⟩ := Option.map_eq_some_iff.mp expanded
  have literal := not_mem_of_meaning? dollarless spelled plain found
  rw [String.toList_ofList]
  split
  · exact not_mem_tilde dollarless literal
  · exact literal

end Dollars

end Expansion

namespace Plan

section Formats
variable {plan : Plan} {write : Plan → String} {read? : String → Option Plan} {full? : String → Option String}

theorem loadBy_write (inverse : ∀ plan, read? (write plan) = some plan) (plan : Plan) :
    loadBy read? full? (.text (write plan)) = .ok (some (plan.locatedBy full?)) := by
  rw [loadBy, parseBy, inverse]
  rfl

theorem loadBy_eq_ok {source : Source} (loaded : loadBy read? full? source = .ok (some plan)) :
    ∃ written, parseBy read? source = .ok (some written) ∧ plan = written.locatedBy full? := by
  unfold loadBy at loaded
  cases parsed : parseBy read? source with
  | error failure => simp [parsed, Except.map] at loaded
  | ok found =>
    cases found with
    | none => simp [parsed, Except.map] at loaded
    | some written =>
      simp only [parsed, Except.map, Option.map_some] at loaded
      cases loaded
      exact ⟨written,rfl,rfl⟩

/-- A plan that was loaded is loaded from its own file with its directory expanded once more, and otherwise as it
was. That is the same plan where nothing is left to expand. -/
theorem reload_exact {environment : Expansion.Environment} {source : Source}
    (inverse : ∀ plan, read? (write plan) = some plan) (documented : Expansion.Documented environment full?)
    (loaded : loadBy read? full? source = .ok (some plan)) :
    loadBy read? full? (.text (write plan)) = .ok (some (plan.locatedBy full?)) ∧
    ((plan.locatedBy full?).agrees plan = true ↔
      Path.parts ((full? plan.outputDir).getD plan.outputDir) = Path.parts plan.outputDir) ∧
    ∃ written, parseBy read? source = .ok (some written) ∧ plan = written.locatedBy full? ∧
      (full? written.outputDir = none → plan.locatedBy full? = plan) ∧
      ∀ pieces, Expansion.Spelled pieces → written.outputDir.toList = Expansion.spell pieces →
        (∀ piece ∈ pieces, piece.IsPlain) → Expansion.Dollarless environment →
        Expansion.tilde environment.home plan.outputDir.toList = plan.outputDir.toList →
        plan.locatedBy full? = plan := by
  obtain ⟨written,parsed,rfl⟩ := loadBy_eq_ok loaded
  have stuck (unexpanded : full? written.outputDir = none) :
      (written.locatedBy full?).locatedBy full? = written.locatedBy full? := by
    have same : written.locatedBy full? = written := by rw [locatedBy, unexpanded, Option.getD_none]
    rw [same, same]
  refine ⟨loadBy_write inverse _,?_,written,parsed,rfl,stuck,fun pieces spelled text plain dollarless settled => ?_⟩
  · simp [agrees, locatedBy]
  · cases expanded : full? written.outputDir with
    | none => exact stuck expanded
    | some result =>
      have moved : (written.locatedBy full?).outputDir = result := by rw [locatedBy, expanded, Option.getD_some]
      have literal := documented.not_mem dollarless spelled plain text expanded
      rw [moved] at settled
      have still := documented.of_not_mem literal
      rw [settled, String.ofList_toList, ← moved] at still
      rw [locatedBy, still, Option.getD_some]

end Formats

def shelves : Expansion.Environment where
  values := .ofList [("HOME", "/home/tester"), ("SHELF", "/srv/shelf")]

theorem reload_exact_shelved :
    load shelves (.text "output_dir = \"$SHELF/en\"\n") = .ok (some { outputDir := "/srv/shelf/en" }) ∧
    load shelves (.text (write { outputDir := "/srv/shelf/en" })) = .ok (some { outputDir := "/srv/shelf/en" }) := by
  have loaded : load shelves (.text "output_dir = \"$SHELF/en\"\n") =
      .ok (some { outputDir := "/srv/shelf/en" }) := by
    decide +kernel
  have asWritten : parse (.text "output_dir = \"$SHELF/en\"\n") = .ok (some { outputDir := "$SHELF/en" }) := by
    decide +kernel
  let pieces : List Expansion.Piece := [.named "SHELF".toList, .char '/', .char 'e', .char 'n']
  have char {c : Char} {rest : List Expansion.Piece} (other : c ≠ '$') (spelled : Expansion.Spelled rest) :
      Expansion.Spelled (.char c :: rest) :=
    .cons other nofun spelled
  have named : ∀ c ∈ "SHELF".toList, Expansion.isNameChar c = true := List.all_eq_true.mp (by decide)
  have ends : ∀ c ∈ some '/', Expansion.isNameChar c = false := by
    intro c first
    cases first
    decide
  have spelled : Expansion.Spelled pieces :=
    .cons ⟨by decide,named⟩ (fun _ _ => ends) (char (by decide) (char (by decide) (char (by decide) .nil)))
  have dollarless : Expansion.Dollarless shelves := ⟨by decide +kernel,by decide +kernel⟩
  obtain ⟨again,_,written,parsed,_,_,settled⟩ :=
    reload_exact readText?_write (Expansion.documented_full? shelves) loaded
  cases asWritten.symm.trans parsed
  have same := settled pieces spelled (by decide +kernel) (by simp [pieces, Expansion.Piece.IsPlain]) dollarless
    (by decide +kernel)
  exact ⟨loaded,same ▸ again⟩

/-- A doubled dollar is a plain one once the plan is loaded, and a variable when it is loaded again. -/
theorem saved_dollar_expanded : ¬∀ (environment : Expansion.Environment) (write : Plan → String)
    (read? : String → Option Plan) (full? : String → Option String), (∀ plan, read? (write plan) = some plan) →
    Expansion.Documented environment full? → ∀ source plan, loadBy read? full? source = .ok (some plan) →
      ∃ again, loadBy read? full? (.text (write plan)) = .ok (some again) ∧ again.agrees plan = true := by
  intro kept
  obtain ⟨again,loaded,agrees⟩ := kept shelves write readText? (Expansion.full? shelves) readText?_write
    (Expansion.documented_full? shelves) (.text "output_dir = \"$$HOME\"\n") { outputDir := "$HOME" } (by
      decide +kernel)
  have located : ({ outputDir := "$HOME" } : Plan).locatedBy (Expansion.full? shelves) =
      { outputDir := "/home/tester" } := by
    decide +kernel
  rw [loadBy_write readText?_write, located] at loaded
  cases loaded
  cases agrees

end Plan
end Scriptorium
