import Scriptorium.Proofs.PlacedLabels

/-! Spacing as in French beside no spacing. A token goes to the end of its row in either mode; in mode
`change` high punctuation also takes back the space at the end of the fragment before it. That fragment
has no other one after it until then, so that it is touched once at most. -/
namespace Scriptorium

theorem Gathering.getElem?_retouch {α : Type} (change : α → α) (gathering : Gathering α) (place : Nat) :
    (gathering.retouch change).toList[place]? =
      gathering.toList[place]?.map (if place + 1 = gathering.toList.length then change else id) := by
  obtain ⟨newestFirst⟩ := gathering
  cases newestFirst with
  | nil => rfl
  | cons newest older =>
    simp only [retouch, toList, List.reverse_cons, List.length_append, List.length_singleton,
      Nat.add_right_cancel_iff]
    rcases Nat.lt_trichotomy place older.reverse.length with inside | rfl | beyond
    · rw [List.getElem?_append_left inside, List.getElem?_append_left inside, if_neg (by omega),
        Option.map_id_fun, id_eq]
    · simp
    · rw [List.getElem?_append_right (by omega), List.getElem?_append_right (by omega), if_neg (by omega),
        Option.map_id_fun, id_eq, List.getElem?_singleton, List.getElem?_singleton, if_neg (by omega),
        if_neg (by omega)]

theorem Gathering.length_retouch {α : Type} (change : α → α) (gathering : Gathering α) :
    (gathering.retouch change).toList.length = gathering.toList.length := by
  obtain ⟨newestFirst⟩ := gathering
  cases newestFirst <;> simp [retouch, toList]

theorem Gathering.retouch_id {α : Type} (gathering : Gathering α) : gathering.retouch id = gathering := by
  obtain ⟨newestFirst⟩ := gathering
  cases newestFirst <;> rfl

namespace Spacing

/-- The sub type and the text of a token. -/
abbrev Token := String × String

def write (mode : FrenchSpacing) (row : Gathering String) (token : Token) : Gathering String :=
  let spaced := render mode token.1 token.2 row
  spaced.2.add spaced.1

def writeAll (mode : FrenchSpacing) (row : Gathering String) (tokens : List Token) : Gathering String :=
  tokens.foldl (write mode) row

/-- High punctuation, and the entity that is to stand before it. -/
inductive Demands : Token → String → Prop
  | narrow {subType text : String} (shown : subType ∉ ["lineSpace", "eol"]) (high : text ∈ [";", "!", "?"]) :
    Demands (subType,text) "&#8239;"
  | wide {subType text : String} (shown : subType ∉ ["lineSpace", "eol"]) (high : text ∈ [":", "»"]) :
    Demands (subType,text) "&#160;"

/-- A fragment without spacing and the same fragment in mode `change`, by the token that comes right
after it. -/
inductive Altered (next : Option Token) : String → String → Prop
  | respaced (stem : String) {token : Token} {entity : String} (follows : next = some token)
      (demanded : Demands token entity) : Altered next (stem ++ " ") (stem ++ entity)
  | unspaced {fragment : String} (ends : ∀ stem, fragment ≠ stem ++ " ") : Altered next fragment fragment
  | plain {fragment : String} (lax : ∀ token entity, next = some token → ¬Demands token entity) :
    Altered next fragment fragment

variable {mode : FrenchSpacing} {row : Gathering String} {token : Token} {tokens : List Token}
  {entity fragment other : String} {place : Nat}

theorem isSpaceType_eq_false {subType : String} :
    Event.isSpaceType subType = false ↔ subType ∉ ["lineSpace", "eol"] := by
  simp [Event.isSpaceType]

theorem entity?_eq_some {text : String} : entity? text = some entity ↔
    text ∈ [";", "!", "?"] ∧ entity = "&#8239;" ∨ text ∈ [":", "»"] ∧ entity = "&#160;" := by
  have narrowed : (text == ";" || text == "!" || text == "?") = true ↔ text ∈ [";", "!", "?"] := by
    simp [or_assoc]
  have widened : (text == ":" || text == "»") = true ↔ text ∈ [":", "»"] := by simp
  have apart : text ∈ [":", "»"] → text ∉ [";", "!", "?"] := by
    simp only [List.mem_cons, List.not_mem_nil, or_false]
    rintro (rfl | rfl) <;> decide
  unfold entity?
  simp only [narrowed, widened]
  split
  next high =>
    have other : text ∉ [":", "»"] := fun wide => apart wide high
    simp only [high, other, narrow, Option.some.injEq, true_and, false_and, or_false, eq_comm]
  next low =>
    split
    next high => simp only [high, low, wide, Option.some.injEq, true_and, false_and, false_or, eq_comm]
    next none => simp only [low, none, reduceCtorEq, false_and, or_false]

theorem demands_iff : Demands token entity ↔
    Event.isSpaceType token.1 = false ∧ entity? token.2 = some entity := by
  rw [isSpaceType_eq_false, entity?_eq_some]
  constructor
  · rintro (⟨shown,high⟩ | ⟨shown,high⟩)
    · exact ⟨shown,.inl ⟨high,rfl⟩⟩
    · exact ⟨shown,.inr ⟨high,rfl⟩⟩
  · obtain ⟨subType,text⟩ := token
    rintro ⟨shown,⟨high,rfl⟩ | ⟨high,rfl⟩⟩
    · exact .narrow shown high
    · exact .wide shown high

theorem respaceEnd_spaced (entity stem : String) : respaceEnd entity (stem ++ " ") = stem ++ entity := by
  have spelled : (stem ++ " ").toList = stem.toList ++ [' '] := by rw [String.toList_append]; rfl
  rw [respaceEnd, spelled, List.getLast?_concat, if_pos rfl, List.dropLast_concat, String.ofList_toList]

theorem respaceEnd_unspaced (entity : String) (ends : ∀ stem, fragment ≠ stem ++ " ") :
    respaceEnd entity fragment = fragment := by
  refine if_neg fun spaced => ?_
  obtain ⟨front,spelled⟩ := List.getLast?_eq_some_iff.mp spaced
  refine ends (String.ofList front) ?_
  rw [← String.toList_inj, spelled, String.toList_append, String.toList_ofList]
  rfl

theorem Altered.respaceEnd (demanded : Demands token entity) (fragment : String) :
    Altered (some token) fragment (respaceEnd entity fragment) := by
  by_cases spaced : ∃ stem, fragment = stem ++ " "
  · obtain ⟨stem,rfl⟩ := spaced
    rw [respaceEnd_spaced]
    exact .respaced stem rfl demanded
  · have ends : ∀ stem, fragment ≠ stem ++ " " := fun stem same => spaced ⟨stem,same⟩
    rw [respaceEnd_unspaced entity ends]
    exact .unspaced ends

theorem Altered.last (altered : Altered none fragment other) : other = fragment := by
  cases altered with
  | respaced stem follows => cases follows
  | unspaced | plain => rfl

theorem escape_high {text : String} (high : (entity? text).isSome) : Text.escape text = text := by
  obtain ⟨entity,demanded⟩ := Option.isSome_iff_exists.mp high
  rcases entity?_eq_some.mp demanded with ⟨narrow,_⟩ | ⟨wide,_⟩
  · simp only [List.mem_cons, List.not_mem_nil, or_false] at narrow
    rcases narrow with rfl | rfl | rfl <;> decide
  · simp only [List.mem_cons, List.not_mem_nil, or_false] at wide
    rcases wide with rfl | rfl <;> decide

theorem shown_change (subType text : String) : shown .change subType text = shown .off subType text := by
  unfold shown render
  split
  · rfl
  · cases demanded : entity? text with
    | none => rfl
    | some entity => exact (escape_high (by rw [demanded]; rfl)).symm

theorem write_of_ne (lax : mode ≠ .change) (row : Gathering String) (token : Token) :
    write mode row token = row.add (shown mode token.1 token.2) := by
  have untouched : (render mode token.1 token.2 row).2 = row := by
    unfold render
    split
    · rfl
    · cases mode with
      | off => rfl
      | add => cases entity? token.2 <;> rfl
      | change => exact absurd rfl lax
  rw [write, render_shown, untouched]

def touch (token : Token) : String → String :=
  if Event.isSpaceType token.1 then id
  else match entity? token.2 with
    | some entity => Spacing.respaceEnd entity
    | none => id

theorem Altered.touch (token : Token) (fragment : String) :
    Altered (some token) fragment (touch token fragment) := by
  have kept (lax : ∀ entity, ¬Demands token entity) : Altered (some token) fragment fragment :=
    .plain fun next entity follows => by cases follows; exact lax entity
  unfold Spacing.touch
  split
  next space =>
    refine kept fun entity demanded => ?_
    rw [(demands_iff.mp demanded).1] at space
    cases space
  next shown =>
    cases high : entity? token.2 with
    | some entity => exact .respaceEnd (demands_iff.mpr ⟨by simpa using shown,high⟩) fragment
    | none =>
      refine kept fun entity demanded => ?_
      rw [(demands_iff.mp demanded).2] at high
      cases high

theorem write_change (row : Gathering String) (token : Token) :
    write .change row token = (row.retouch (touch token)).add (shown .change token.1 token.2) := by
  have touched : (render .change token.1 token.2 row).2 = row.retouch (touch token) := by
    unfold render touch
    split
    · exact row.retouch_id.symm
    · cases entity? token.2 with
      | none => exact row.retouch_id.symm
      | some entity => rfl
  rw [write, render_shown, touched]

@[simp] theorem length_write (mode : FrenchSpacing) (row : Gathering String) (token : Token) :
    (write mode row token).toList.length = row.toList.length + 1 := by
  by_cases lax : mode = .change
  · rw [lax, write_change, Gathering.toList_add, List.length_append, Gathering.length_retouch,
      List.length_singleton]
  · rw [write_of_ne lax, Gathering.toList_add, List.length_append, List.length_singleton]

theorem writeAll_concat (mode : FrenchSpacing) (row : Gathering String) (tokens : List Token) (token : Token) :
    writeAll mode row (tokens ++ [token]) = write mode (writeAll mode row tokens) token := by
  rw [writeAll, List.foldl_concat, writeAll]

@[simp] theorem length_writeAll (mode : FrenchSpacing) (row : Gathering String) (tokens : List Token) :
    (writeAll mode row tokens).toList.length = row.toList.length + tokens.length := by
  induction tokens using List.reverseRecOn with
  | nil => rfl
  | append_singleton tokens token ih =>
    rw [writeAll_concat, length_write, ih, List.length_append, List.length_singleton, Nat.add_assoc]

theorem writeAll_off (row : Gathering String) (tokens : List Token) :
    (writeAll .off row tokens).toList =
      row.toList ++ tokens.map fun token => shown .off token.1 token.2 := by
  induction tokens using List.reverseRecOn with
  | nil => simp [writeAll]
  | append_singleton tokens token ih =>
    rw [writeAll_concat, write_of_ne (by decide), Gathering.toList_add, ih, List.map_append,
      List.append_assoc]
    rfl

/-- The token that is written in this place of the row; what the row began with is of none of them. -/
def tokenAt (row : Gathering String) (tokens : List Token) (place : Nat) : Option Token :=
  if place < row.toList.length then none else tokens[place - row.toList.length]?

theorem tokenAt_beyond (beyond : row.toList.length + tokens.length ≤ place) :
    tokenAt row tokens place = none := by
  rw [tokenAt, if_neg (by omega), List.getElem?_eq_none (by omega)]

theorem tokenAt_last (row : Gathering String) (tokens : List Token) (token : Token) :
    tokenAt row (tokens ++ [token]) (row.toList.length + tokens.length) = some token := by
  rw [tokenAt, if_neg (by omega), Nat.add_sub_cancel_left, List.getElem?_concat_length]

theorem tokenAt_before (inside : place < row.toList.length + tokens.length) :
    tokenAt row (tokens ++ [token]) place = tokenAt row tokens place := by
  unfold tokenAt
  split
  · rfl
  · rw [List.getElem?_append_left (by omega)]

/-- The writing of the token with the number `step` changes the fragment in this place. -/
def Rewrites (row : Gathering String) (tokens : List Token) (place step : Nat) : Prop :=
  let before := (writeAll .change row (tokens.take step)).toList
  let after := (writeAll .change row (tokens.take (step + 1))).toList
  place < before.length ∧ after[place]? ≠ before[place]?

theorem getElem?_write_before (row : Gathering String) (token : Token)
    (inside : place + 1 < row.toList.length) :
    (write .change row token).toList[place]? = row.toList[place]? := by
  rw [write_change, Gathering.toList_add, List.getElem?_append_left (by rw [Gathering.length_retouch]; omega),
    Gathering.getElem?_retouch, if_neg (by omega), Option.map_id_fun, id_eq]

theorem place_of_rewrites {step : Nat} (rewrites : Rewrites row tokens place step) :
    place + 1 = row.toList.length + step := by
  obtain ⟨inside,changed⟩ := rewrites
  by_cases beyond : tokens.length ≤ step
  · rw [List.take_of_length_le beyond, List.take_of_length_le (by omega)] at changed
    exact absurd rfl changed
  · have known : step < tokens.length := by omega
    rw [List.take_succ_eq_append_getElem known, writeAll_concat] at changed
    have length : (writeAll .change row (tokens.take step)).toList.length = row.toList.length + step := by
      rw [length_writeAll, List.length_take_of_le (by omega)]
    rw [length] at inside
    by_contra apart
    exact changed (getElem?_write_before _ _ (by omega))

theorem altered_of_writeAll (row : Gathering String) (tokens : List Token)
    (found : (writeAll .off row tokens).toList[place]? = some fragment) :
    ∃ other, (writeAll .change row tokens).toList[place]? = some other ∧
      Altered (tokenAt row tokens (place + 1)) fragment other := by
  induction tokens using List.reverseRecOn generalizing place fragment with
  | nil =>
    refine ⟨fragment,found,.plain fun token entity follows => ?_⟩
    simp [tokenAt] at follows
  | append_singleton tokens token ih =>
    have off := length_writeAll .off row tokens
    have changed := length_writeAll .change row tokens
    have retouched := Gathering.length_retouch (touch token) (writeAll .change row tokens)
    rw [writeAll_concat, write_of_ne (by decide), Gathering.toList_add] at found
    rw [writeAll_concat, write_change, Gathering.toList_add]
    rcases Nat.lt_trichotomy (place + 1) (row.toList.length + tokens.length) with before | last | after
    case inl =>
      rw [List.getElem?_append_left (by omega)] at found
      obtain ⟨other,stands,same⟩ := ih found
      refine ⟨other,?_,?_⟩
      · rw [List.getElem?_append_left (by omega), Gathering.getElem?_retouch, if_neg (by omega),
          Option.map_id_fun, id_eq, stands]
      · rw [tokenAt_before before]
        exact same
    case inr.inl =>
      -- nothing came after this fragment so far, so it still reads as it does without spacing
      rw [List.getElem?_append_left (by omega)] at found
      obtain ⟨other,stands,same⟩ := ih found
      rw [tokenAt_beyond (by omega)] at same
      obtain rfl := same.last
      refine ⟨touch token other,?_,?_⟩
      · rw [List.getElem?_append_left (by omega), Gathering.getElem?_retouch, if_pos (by omega), stands]
        rfl
      · rw [last, tokenAt_last]
        exact .touch token other
    case inr.inr =>
      have inside := (List.getElem?_eq_some_iff.mp found).1
      rw [List.length_append, List.length_singleton] at inside
      have here : place = row.toList.length + tokens.length := by omega
      refine ⟨fragment,?_,.plain fun other entity follows => ?_⟩
      · rw [here, ← off, List.getElem?_concat_length] at found
        rw [here, ← changed, ← retouched, List.getElem?_concat_length, shown_change, found]
      · rw [tokenAt_beyond (by rw [List.length_append, List.length_singleton]; omega)] at follows
        cases follows

/-- Mode `change` differs from no spacing in the spaces before high punctuation and in nothing else: both
rows have a fragment for each token, fragment for fragment they are the same but for a last space whose
place an entity takes, and no fragment is changed in two steps. -/
theorem change_beside_off (row : Gathering String) (tokens : List Token) :
    let off := (writeAll .off row tokens).toList
    let changed := (writeAll .change row tokens).toList
    off.length = row.toList.length + tokens.length ∧
    changed.length = row.toList.length + tokens.length ∧
    off = row.toList ++ tokens.map (fun token => shown .off token.1 token.2) ∧
    (∀ place fragment, off[place]? = some fragment → ∃ other, changed[place]? = some other ∧
      Altered (tokenAt row tokens (place + 1)) fragment other) ∧
    ∀ place step again, Rewrites row tokens place step → Rewrites row tokens place again →
      step = again := by
  refine ⟨length_writeAll .off row tokens,length_writeAll .change row tokens,writeAll_off row tokens,
    fun place fragment found => altered_of_writeAll row tokens found,
    fun place step again first second => ?_⟩
  have one := place_of_rewrites first
  have two := place_of_rewrites second
  omega

end Spacing

theorem Draft.token_writes {draft flushed : Draft} {event : Event}
    (placed : draft.flushPending event = .ok flushed) (mode : FrenchSpacing) :
    draft.token mode event = .ok {flushed with rows := {flushed.rows with
      top := Spacing.write mode flushed.rows.top (event.subType,event.payload)}} :=
  token_of_flushed placed mode

end Scriptorium
