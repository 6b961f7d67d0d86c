import Mathlib.Data.List.DropRight
import Scriptorium.Proofs.Histories

/-! The collected notes in every moment of a session. They are told from the blocks of notes that have been
closed since the document started, each under the number that was open then. Numbers only come up in order,
and under one that is no longer open nothing is collected any more. -/
namespace Scriptorium

namespace Entry

def sinceStart (told : List Entry) : List Entry :=
  told.rtakeWhile fun entry => entry.event.kind != .documentStart

/-- The block of a note that is closed, with its number. -/
def noteBlock? (profile : Profile) (entry : Entry) : Option (Nat × String) :=
  if Rule.select? profile entry.event = some .endNoteBlock ∧ entry.failure = none then
    some (entry.session.draft.notes.next, entry.session.draft.rows.joined)
  else none

def noteBlocks (profile : Profile) (told : List Entry) : List (Nat × String) :=
  (sinceStart told).filterMap (noteBlock? profile)

variable {profile : Profile} {told : List Entry} {last : Entry}

theorem noteBlocks_of_start (starts : last.event.kind = .documentStart) :
    noteBlocks profile (told ++ [last]) = [] := by
  rw [noteBlocks, sinceStart, List.rtakeWhile_concat_neg _ _ _ (by simp [starts]), List.filterMap_nil]

theorem noteBlocks_of_later (later : last.event.kind ≠ .documentStart) :
    noteBlocks profile (told ++ [last]) = noteBlocks profile told ++ (last.noteBlock? profile).toList := by
  rw [noteBlocks, sinceStart, List.rtakeWhile_concat_pos _ _ _ (by simp [later]), List.filterMap_append]
  cases block : last.noteBlock? profile <;> simp [noteBlocks, sinceStart, block]

end Entry

namespace Notes

/-- What the blocks held that were closed under a number. -/
def texts (blocks : List (Nat × String)) (number : Nat) : List String :=
  (blocks.filter fun block => block.1 == number).map (·.2)

/-- Notes that are collected from blocks, in the order in which these were closed. -/
structure Records (notes : Notes) (blocks : List (Nat × String)) : Prop where
  opened : 1 ≤ notes.next
  ascending : notes.numbers.Pairwise (· < ·)
  bounded : ∀ number ∈ notes.numbers, 1 ≤ number ∧ number ≤ notes.next
  listed : ∀ number, number ∈ notes.numbers ↔ number ∈ blocks.map (·.1)
  content : ∀ number, notes.content? number =
    if number ∈ blocks.map (·.1) then some (String.join (texts blocks number)) else none

variable {notes : Notes} {blocks : List (Nat × String)}

theorem Records.initial : Records {} [] where
  opened := Nat.le_refl 1
  ascending := .nil
  bounded := nofun
  listed number := by simp [numbers]
  content number := rfl

theorem next_advance_of_lt (room : notes.next + 1 < UInt32.size) : notes.advance.next = notes.next + 1 := by
  rw [next_advance, Nat.mod_eq_of_lt room]

theorem Records.advance (records : notes.Records blocks) (room : notes.next + 1 < UInt32.size) :
    notes.advance.Records blocks where
  opened := by
    rw [next_advance_of_lt room]
    exact Nat.le_add_left 1 _
  ascending := records.ascending
  bounded number member := by
    rw [next_advance_of_lt room]
    exact (records.bounded number member).imp_right Nat.le_succ_of_le
  listed := records.listed
  content := records.content

theorem Records.collect (records : notes.Records blocks) (text : String) :
    (notes.collect text).Records (blocks ++ [(notes.next, text)]) where
  opened := records.opened
  ascending := by
    rw [numbers_collect]
    split
    next => exact records.ascending
    next fresh =>
      -- the open number is the highest, and so it comes last
      refine List.pairwise_append.mpr ⟨records.ascending,List.pairwise_singleton _ _,?_⟩
      intro number member last here
      rw [List.mem_singleton.mp here]
      exact Nat.lt_of_le_of_ne (records.bounded number member).2 fun same => fresh (same ▸ member)
  bounded number member := by
    rcases mem_numbers_collect.mp member with known | rfl
    · exact records.bounded number known
    · exact ⟨records.opened,Nat.le_refl _⟩
  listed number := by
    rw [mem_numbers_collect, records.listed]
    simp
  content number := by
    rw [content?_collect, records.content]
    by_cases here : number = notes.next
    · subst here
      by_cases known : notes.next ∈ blocks.map (·.1)
      · simp [known, texts]
      · have first : blocks.filter (fun block => block.1 == notes.next) = [] := by
          rw [List.filter_eq_nil_iff]
          exact fun block member same => known (beq_iff_eq.mp same ▸ List.mem_map_of_mem member)
        simp [known, texts, first]
    · have unmoved : number ∈ (blocks ++ [(notes.next, text)]).map (·.1) ↔ number ∈ blocks.map (·.1) := by
        simp [here]
      have same : texts (blocks ++ [(notes.next, text)]) number = texts blocks number := by
        simp [texts, Ne.symm here]
      simp only [if_neg here, unmoved, same]

/-- Nothing is collected any more under the numbers that are no longer open. -/
structure Freezes (notes later : Notes) : Prop where
  next : notes.next ≤ later.next
  content : ∀ number < notes.next, later.content? number = notes.content? number

variable {later : Notes}

theorem Freezes.refl (notes : Notes) : notes.Freezes notes := ⟨Nat.le_refl _,fun _ _ => rfl⟩

theorem Freezes.collect (freezes : notes.Freezes later) (text : String) : notes.Freezes (later.collect text) where
  next := freezes.next
  content number closed := by
    have other : number ≠ later.next := Nat.ne_of_lt (closed.trans_le freezes.next)
    rw [content?_collect, if_neg other, freezes.content number closed]

theorem Freezes.advance (freezes : notes.Freezes later) (room : later.next + 1 < UInt32.size) :
    notes.Freezes later.advance where
  next := by
    rw [next_advance_of_lt room]
    exact Nat.le_succ_of_le freezes.next
  content := freezes.content

theorem asides_of_distinct (distinct : notes.numbers.Nodup) : notes.asides =
    String.join (notes.numbers.map fun number => footnote number ((notes.content? number).getD "")) := by
  rw [asides_eq, numbers, List.map_map]
  refine congrArg String.join (List.map_congr_left fun entry member => ?_)
  rw [Function.comp, content?_of_mem distinct member, Option.getD_some]

end Notes

namespace Session
variable {commission : Commission} {event : Event} {session : Session} {edition : Edition}

theorem Fails.notes_kept {result : Outcome} (fails : Fails event session edition result) :
    result.session.draft.notes = session.draft.notes := by
  cases fails <;> rfl

theorem take_notes (later : event.kind ≠ .documentStart) (commission : Commission) (session : Session)
    (edition : Edition) :
    let taken := take commission event session edition
    let block := (⟨event,session,taken.failure⟩ : Entry).noteBlock? commission.profile
    block = none ∧ taken.session.draft.notes = session.draft.notes ∨
      block = some (session.draft.notes.next, session.draft.rows.joined) ∧
        taken.session.draft.notes = session.draft.notes.collect session.draft.rows.joined := by
  intro taken block
  by_cases selected : Rule.select? commission.profile event = some .endNoteBlock
  · cases fine : taken.failure with
    | none => exact .inr ⟨if_pos ⟨selected,fine⟩,take_note_block selected fine⟩
    | some failure =>
      have stopped : taken.failure ≠ none := by simp [fine]
      exact .inl ⟨if_neg fun closed => stopped closed.2,(take_fails fine).notes_kept⟩
  · have same := (take_retains later commission session edition).draft.notes selected
    exact .inl ⟨if_neg fun closed => selected closed.1,same⟩

theorem take_records {told : List Entry}
    (records : session.draft.notes.Records (Entry.noteBlocks commission.profile told)) :
    let taken := take commission event session edition
    taken.session.draft.notes.Records
      (Entry.noteBlocks commission.profile (told ++ [⟨event,session,taken.failure⟩])) := by
  intro taken
  by_cases starts : event.kind = .documentStart
  · rw [Entry.noteBlocks_of_start starts, show taken = _ from take_start starts]
    exact .initial
  rw [Entry.noteBlocks_of_later starts]
  rcases take_notes starts commission session edition with ⟨unclosed,same⟩ | ⟨closed,collected⟩
  · rw [unclosed, same, Option.toList_none, List.append_nil]
    exact records
  · rw [closed, collected, Option.toList_some]
    exact records.collect _

end Session

namespace Moment
variable {commission : Commission} {moment later : Moment} {more : List Entry}

/-- The number is higher by the notes that have been closed, as long as the counter does not start over. -/
theorem Onward.freezes (onward : moment.Onward commission more later)
    (unstarted : ∀ entry ∈ more, entry.event.kind ≠ .documentStart)
    (room : moment.outcome.session.draft.notes.next + moment.notesOpen +
      more.countP (Entry.graftsNote commission.profile) < UInt32.size) :
    moment.outcome.session.draft.notes.Freezes later.outcome.session.draft.notes := by
  let notes := moment.outcome.session.draft.notes
  change notes.next + moment.notesOpen + _ < _ at room
  let Kept (closed : Nat) (told : List Entry) (session : Session) : Prop :=
    (∀ entry ∈ told, entry.event.kind ≠ .documentStart) → notes.next + closed < UInt32.size →
      session.draft.notes.next = notes.next + closed ∧ notes.Freezes session.draft.notes
  obtain ⟨closed,bound,kept⟩ :
      ∃ closed, closed + later.notesOpen ≤ moment.notesOpen + more.countP (Entry.graftsNote commission.profile) ∧
        Kept closed ([] ++ more) later.outcome.session := by
    refine onward.keeps_counted Kept ?_ ?_ [] fun _ _ => ⟨rfl,.refl _⟩
    · intro closed told session edition event before unstarted room
      obtain ⟨next,freezes⟩ := before (fun entry member => unstarted entry (List.mem_append_left _ member)) room
      have starts : event.kind ≠ .documentStart := unstarted _ (List.mem_append_right _ (List.mem_singleton_self _))
      rcases Session.take_notes starts commission session edition with ⟨_,same⟩ | ⟨_,collected⟩
      · rw [same]
        exact ⟨next,freezes⟩
      · rw [collected]
        exact ⟨next,freezes.collect _⟩
    · intro closed told session edition before unstarted room
      obtain ⟨next,freezes⟩ := before unstarted (by omega)
      have more : session.draft.notes.next + 1 < UInt32.size := by omega
      exact ⟨(Notes.next_advance_of_lt more).trans (by omega),freezes.advance more⟩
  exact (kept unstarted (by omega)).2

/-- What the notes are in every moment of a session in which fewer notes are grafted than there are numbers. Each of
the numbers has one aside, in their order. -/
theorem Onward.notes_recorded {edition : Edition} {told : List Entry}
    (onward : (Moment.fresh edition).Onward commission told moment)
    (few : told.countP (Entry.graftsNote commission.profile) + 1 < UInt32.size) :
    let notes := moment.outcome.session.draft.notes
    notes.Records (Entry.noteBlocks commission.profile told) ∧
      notes.asides =
        String.join (notes.numbers.map fun number => Notes.footnote number ((notes.content? number).getD "")) ∧
      ∀ more later, moment.Onward commission more later →
        (∀ entry ∈ more, entry.event.kind ≠ .documentStart) →
        (told ++ more).countP (Entry.graftsNote commission.profile) + 1 < UInt32.size →
        notes.Freezes later.outcome.session.draft.notes := by
  intro notes
  let Kept (closed : Nat) (told : List Entry) (session : Session) : Prop := closed + 1 < UInt32.size →
    session.draft.notes.next ≤ closed + 1 ∧ session.draft.notes.Records (Entry.noteBlocks commission.profile told)
  obtain ⟨closed,bound,kept⟩ :
      ∃ closed, closed + moment.notesOpen ≤ 0 + told.countP (Entry.graftsNote commission.profile) ∧
        Kept closed ([] ++ told) moment.outcome.session := by
    refine onward.keeps_counted Kept ?_ ?_ [] ?_
    · intro closed told session edition event before room
      obtain ⟨next,records⟩ := before room
      refine ⟨?_,Session.take_records records⟩
      by_cases starts : event.kind = .documentStart
      · rw [Session.take_start starts]
        exact Nat.le_add_left 1 closed
      · rw [Session.take_next starts]
        exact next
    · intro closed told session edition before room
      obtain ⟨next,records⟩ := before (by omega)
      have more : session.draft.notes.next + 1 < UInt32.size := by omega
      exact ⟨(Notes.next_advance_of_lt more).trans_le (by omega),records.advance more⟩
    · exact fun _ => ⟨Nat.le_refl 1,.initial⟩
  obtain ⟨next,records⟩ := kept (by omega)
  have distinct : notes.numbers.Nodup := records.ascending.imp Nat.ne_of_lt
  refine ⟨records,Notes.asides_of_distinct distinct,fun more later further unstarted few => ?_⟩
  rw [List.countP_append] at few
  exact further.freezes unstarted (by omega)

/-- The second note fails after its first block, and its number stays open. -/
def annotator : Commission where
  profile := .canonical
  headers := ⟨"MRK",none,none,none,none,none⟩
  sequences := .ofList [
    ("whole", [.blockStart .footnote "blockTag/f", .word .footnote "or", .blockEnd .footnote "blockTag/f"]),
    ("torn", [.blockStart .footnote "blockTag/f", .word .footnote "and", .blockEnd .footnote "blockTag/f",
      .blockEnd .footnote "blockTag/f"])]

def noted : List Event := [.documentStart, .inlineGraft .main "footnote" "whole", .inlineGraft .main "footnote" "torn"]

theorem noted_attended : let first := (Moment.fresh {}).outcome
    (Session.attend annotator first noted).map Outcome.failure = [none, none, some .stackUnderflow] ∧
      (Session.chronicle annotator first noted).countP (Entry.graftsNote annotator.profile) = 2 ∧
      Entry.noteBlocks annotator.profile (Session.chronicle annotator first noted) = [(1, "or"), (2, "and")] ∧
      ((Session.attend annotator first noted).getLastD first).session.draft.notes.numbers = [1, 2] := by
  have start := Graft.unfold_plain annotator.profile annotator.sequences .documentStart (by decide)
  have note (target : String) (inner : List Event)
      (made : Graft.ofEvent? annotator.profile (.inlineGraft .main "footnote" target) = some (.note target))
      (found : annotator.sequences.find? target = some inner)
      (plain : ∀ event ∈ inner, Graft.ofEvent? annotator.profile event = none) :
      Graft.unfold annotator.profile annotator.sequences [] [.inlineGraft .main "footnote" target] =
        .take [] (.inlineGraft .main "footnote" target) :: (inner.map (.take [target]) ++ [.closeNote]) :=
    Graft.unfold_note made found plain
  have whole := note "whole" _ (by decide) rfl (by decide)
  have torn := note "torn" _ (by decide) rfl (by decide)
  simp only [fresh, noted, Session.attend, Session.chronicle, Session.dispatch_eq_run, start, whole, torn]
  decide +kernel

theorem notes_recorded_noted : ∃ last, (Moment.fresh {}).Onward annotator
      (Session.chronicle annotator ⟨{},{},none⟩ noted) last ∧
    last.outcome.session.draft.notes.numbers = [1, 2] ∧
      last.outcome.session.draft.notes.content? 2 = some "and" ∧
      last.outcome.session.draft.notes.asides =
        "<aside epub:type=\"footnote\" id=\"footnote_1\" class=\"footnote_number\"><p>or</p></aside>\n" ++
          "<aside epub:type=\"footnote\" id=\"footnote_2\" class=\"footnote_number\"><p>and</p></aside>\n" := by
  obtain ⟨last,onward,_,same⟩ := onward_attend annotator (show (fresh {}).next? annotator = none from rfl) noted
  obtain ⟨_,grafts,blocks,numbers⟩ := noted_attended
  obtain ⟨records,asides,_⟩ := onward.notes_recorded (by rw [grafts]; decide)
  have listed : last.outcome.session.draft.notes.numbers = [1, 2] := same ▸ numbers
  have first : last.outcome.session.draft.notes.content? 1 = some "or" := by
    rw [records.content, blocks]
    rfl
  have second : last.outcome.session.draft.notes.content? 2 = some "and" := by
    rw [records.content, blocks]
    rfl
  rw [listed] at asides
  refine ⟨last,onward,listed,second,?_⟩
  rw [asides, List.map_cons, List.map_singleton, first, second]
  decide +kernel

end Moment
end Scriptorium
