import Scriptorium.Proofs.NoteNumbers

/-! The text of notes. What the blocks of a note's sequence hold is gathered under the number that
its anchor carries, stays there when the number is closed, and is shown under it on the page. -/
namespace Scriptorium
namespace Notes

theorem extend_numbers (number : Nat) (text : String) (entries : List (Nat × String)) :
    (extend number text entries).map (·.1) =
      if number ∈ entries.map (·.1) then entries.map (·.1) else entries.map (·.1) ++ [number] := by
  induction entries with
  | nil => rfl
  | cons entry rest ih =>
    obtain ⟨other,old⟩ := entry
    by_cases same : other = number
    · simp [extend, same]
    · have different : number ≠ other := Ne.symm same
      rw [extend, if_neg same, List.map_cons, ih]
      by_cases later : number ∈ rest.map (·.1) <;> simp_all

theorem numbers_collect (notes : Notes) (text : String) : (notes.collect text).numbers =
    if notes.next ∈ notes.numbers then notes.numbers else notes.numbers ++ [notes.next] := by
  rw [numbers, entries_collect]
  exact extend_numbers notes.next text notes.entries

theorem mem_numbers_collect {notes : Notes} {text : String} {number : Nat} :
    number ∈ (notes.collect text).numbers ↔ number ∈ notes.numbers ∨ number = notes.next := by
  rw [numbers_collect]
  split
  next known => exact ⟨.inl,fun either => either.elim id fun same => same ▸ known⟩
  next => simp

theorem content?_collect (notes : Notes) (text : String) (number : Nat) :
    (notes.collect text).content? number =
      if number = notes.next then some ((notes.content? number).getD "" ++ text)
      else notes.content? number := by
  unfold content?
  rw [entries_collect]
  generalize notes.entries = entries
  induction entries with
  | nil =>
    by_cases here : number = notes.next
    · simp [extend, here]
    · simp [extend, here, show notes.next ≠ number from Ne.symm here]
  | cons entry rest ih =>
    obtain ⟨other,old⟩ := entry
    by_cases same : other = notes.next <;> by_cases here : number = notes.next <;>
      by_cases found : other = number <;> simp_all [extend]

theorem content?_of_mem {notes : Notes} (distinct : notes.numbers.Nodup) {number : Nat} {text : String}
    (member : (number, text) ∈ notes.entries) : notes.content? number = some text := by
  obtain ⟨before,behind,split⟩ := List.append_of_mem member
  rw [numbers, split, List.map_append, List.map_cons] at distinct
  have others : ∀ entry ∈ before, ¬(entry.1 == number) = true := by
    intro entry earlier same
    exact (List.nodup_append.mp distinct).2.2 entry.1 (List.mem_map_of_mem earlier) number (by simp)
      (beq_iff_eq.mp same)
  rw [content?, split, List.find?_append, List.find?_eq_none.mpr others]
  simp

/-- The note with a text that stands under a number at the end of the page. -/
def footnote (number : Nat) (text : String) : String :=
  "<aside epub:type=\"footnote\" id=\"footnote_" ++ toString number ++ "\" class=\"footnote_number\"><p>" ++
    text ++ "</p></aside>\n"

theorem aside_eq (number : Nat) (text : String) : aside number text = footnote number text := by
  unfold aside footnote
  generalize toString number = shown
  refine String.toList_inj.mp ?_
  simp

theorem asides_eq (notes : Notes) :
    notes.asides = String.join (notes.entries.map fun entry => footnote entry.1 entry.2) :=
  congrArg String.join (List.map_congr_left fun entry _ => aside_eq entry.1 entry.2)

/-- The entries stand under different numbers, of which so many have been opened and closed. -/
structure Kept (notes : Notes) (opened closed : Nat) : Prop where
  next : notes.next = (1 + closed) % UInt32.size
  bounded : ∀ number ∈ notes.numbers, number ≤ opened
  distinct : notes.numbers.Nodup

section Kept
variable {notes : Notes} {opened closed : Nat}

theorem Kept.initial : Kept {} 0 0 := ⟨rfl,nofun,.nil⟩

theorem Kept.raise (kept : notes.Kept opened closed) {more : Nat} (grown : opened ≤ more) :
    notes.Kept more closed :=
  ⟨kept.next,fun number member => (kept.bounded number member).trans grown,kept.distinct⟩

theorem Kept.close (kept : notes.Kept opened closed) : notes.advance.Kept opened (closed + 1) where
  next := by rw [next_advance, kept.next, Nat.mod_add_mod, Nat.add_assoc]
  bounded := kept.bounded
  distinct := kept.distinct

theorem Kept.collect (kept : notes.Kept opened closed) (held : closed < opened) (text : String) :
    (notes.collect text).Kept opened closed := by
  refine ⟨kept.next,?_,?_⟩
  · intro number member
    rcases mem_numbers_collect.mp member with earlier | rfl
    · exact kept.bounded number earlier
    · rw [kept.next]
      exact (Nat.mod_le _ _).trans (by omega)
  · rw [numbers_collect]
    split
    next => exact kept.distinct
    next fresh =>
      refine List.nodup_append.mpr ⟨kept.distinct,by simp,?_⟩
      rintro number member last here rfl
      exact fresh (List.mem_singleton.mp here ▸ member)

end Kept
end Notes

namespace Act

/-- An act that takes an event for which a rule is selected. -/
def follows (profile : Profile) (rule : Rule) : Act → Bool
  | .take _ event => Rule.select? profile event == some rule
  | .refuse _ | .closeNote => false

theorem follows_iff {profile : Profile} {rule : Rule} {act : Act} : act.follows profile rule = true ↔
    ∃ path event, act = .take path event ∧ Rule.select? profile event = some rule := by
  cases act <;> simp [follows]

end Act

namespace Session
variable {commission : Commission} {outcome : Outcome} {act : Act}

theorem take_note_block {event : Event} {session : Session} {edition : Edition}
    (selected : Rule.select? commission.profile event = some .endNoteBlock)
    (fine : (take commission event session edition).failure = none) :
    (take commission event session edition).session.draft.notes =
      session.draft.notes.collect session.draft.rows.joined := by
  have followed := take_of_success selected fine
  rw [followed, follow] at fine ⊢
  cases closed : session.draft.closeNote with
  | error failure =>
    rw [closed] at fine
    cases fine
  | ok draft =>
    obtain ⟨content,rows,popped,rfl⟩ := Draft.closing_eq_ok closed
    rw [← (Rows.depth_of_pop popped).1]
    rfl

theorem step_notes (later : act.IsLater) (fine : (step commission outcome act).failure = none) :
    (step commission outcome act).session.draft.notes =
      if act = .closeNote then outcome.session.draft.notes.advance
      else if act.follows commission.profile .endNoteBlock then
        outcome.session.draft.notes.collect outcome.session.draft.rows.joined
      else outcome.session.draft.notes := by
  have performed := step_performed fine
  rw [performed] at fine ⊢
  cases act with
  | closeNote => rfl
  | refuse failure => cases fine
  | take path event =>
    rw [if_neg (by simp), perform]
    by_cases block : Rule.select? commission.profile event = some .endNoteBlock
    · rw [if_pos (by simp [Act.follows, block])]
      exact take_note_block block fine
    · rw [if_neg (by simp [Act.follows, block])]
      exact (take_retains (later path event rfl) commission outcome.session outcome.edition).draft.notes block

theorem compose_output {event : Event} {session : Session} {edition : Edition}
    (selected : Rule.select? commission.profile event = some .composeDocument)
    (fine : (take commission event session edition).failure = none) :
    (take commission event session edition).session.output = some (page commission session.draft) := by
  have followed := take_of_success selected fine
  rw [followed, follow, compose] at fine ⊢
  split at fine
  next closed => rw [if_pos closed]
  next => cases fine

/-- A page is only composed when every row above the root is closed. -/
theorem compose_depth {event : Event} {session : Session} {edition : Edition}
    (selected : Rule.select? commission.profile event = some .composeDocument)
    (fine : (take commission event session edition).failure = none) : session.draft.rows.depth = 1 := by
  have followed := take_of_success selected fine
  rw [followed, follow, compose] at fine
  split at fine
  next closed => exact closed
  next => cases fine

theorem run_keeps_output {acts : List Act} (later : ∀ act ∈ acts, act.IsLater)
    (uncomposed : ∀ act ∈ acts, act.follows commission.profile .composeDocument = false) :
    (acts.foldl (step commission) outcome).session.output = outcome.session.output := by
  let kept (session : Session) : Prop := session.output = outcome.session.output
  have initial : kept outcome.session := rfl
  refine kept_by_run initial fun act member session edition same => ?_
  cases act with
  | refuse failure | closeNote => exact same
  | take path event =>
    have retained := take_retains (later _ member path event rfl) commission session edition
    refine (retained.output fun composes => ?_).trans same
    have other := uncomposed _ member
    simp [Act.follows, composes] at other

end Session
end Scriptorium
