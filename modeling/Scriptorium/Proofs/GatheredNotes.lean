import Scriptorium.Proofs.NoteText

/-! Notes on the page. A followed graft of a note has the number that comes after those before it,
the texts of its blocks stand under this number from its end on, and the page shows them there. -/
namespace Scriptorium

namespace Text

def Holds (whole part : String) : Prop := ∃ front back, whole = front ++ part ++ back

theorem Holds.trans {whole middle part : String} (outer : Holds whole middle) (inner : Holds middle part) :
    Holds whole part := by
  obtain ⟨before,behind,rfl⟩ := outer
  obtain ⟨front,back,rfl⟩ := inner
  exact ⟨before ++ front,back ++ behind,by simp only [String.append_assoc]⟩

theorem Holds.join {fragments : List String} {fragment : String} (member : fragment ∈ fragments) :
    Holds (String.join fragments) fragment := by
  obtain ⟨front,back,rfl⟩ := List.append_of_mem member
  exact ⟨String.join front,String.join back,by simp [String.join_append, String.append_assoc]⟩

theorem holds_element (name : String) (pairs : List (String × String)) (content : String) :
    Holds (element name pairs content) content :=
  ⟨"<" ++ name ++ attributes pairs ++ ">","</" ++ name ++ ">",by simp only [element, String.append_assoc]⟩

end Text

theorem Composition.markup_holds (parts : Composition) : Text.Holds parts.markup parts.pageBody := by
  refine .trans ⟨"<!DOCTYPE html>\n","\n",rfl⟩ (.trans (Text.holds_element _ _ _) ?_)
  exact ⟨_,"\n",rfl⟩

theorem Session.page_holds (commission : Commission) (draft : Draft) :
    Text.Holds (page commission draft).markup draft.notes.asides := by
  let parts := composition commission draft
  have body : Text.Holds parts.pageBody parts.notes.asides := by
    refine .trans (Text.holds_element _ _ _) ?_
    exact ⟨_,"",String.append_empty.symm⟩
  exact parts.markup_holds.trans body

namespace Graft
variable {profile : Profile} {sequences : Index String (List Event)} {path : List String}
variable {events : List Event} {acts : List Act}

end Graft

/-- Blocks of notes are only closed while a note is open. -/
def Act.BlocksEnclosed (profile : Profile) (acts : List Act) : Prop :=
  ∀ before act, before ++ [act] <+: acts → act.follows profile .endNoteBlock = true →
    before.count .closeNote < before.countP (Act.follows profile .noteGraft)

instance (profile : Profile) (acts : List Act) : Decidable (Act.BlocksEnclosed profile acts) :=
  decidable_of_iff (∀ head ∈ acts.inits, ∀ act ∈ head.getLast?,
      act.follows profile .endNoteBlock = true →
        head.dropLast.count .closeNote < head.dropLast.countP (Act.follows profile .noteGraft))
    ⟨fun each before act front => by
        simpa using each (before ++ [act]) ((List.mem_inits _ _).mpr front) act (by simp),
      fun enclosed head front act last => by
        obtain ⟨before,rfl⟩ := List.getLast?_eq_some_iff.mp (Option.mem_def.mp last)
        simpa using enclosed before act ((List.mem_inits _ _).mp front)⟩

theorem Session.step_kept {commission : Commission} {outcome : Outcome} {act : Act} {before : List Act}
    (later : act.IsLater) (fine : (step commission outcome act).failure = none)
    (enclosed : act.follows commission.profile .endNoteBlock = true →
      before.count .closeNote < before.countP (Act.follows commission.profile .noteGraft))
    (kept : outcome.session.draft.notes.Kept (before.countP (Act.follows commission.profile .noteGraft))
      (before.count .closeNote)) :
    (step commission outcome act).session.draft.notes.Kept
      ((before ++ [act]).countP (Act.follows commission.profile .noteGraft))
      ((before ++ [act]).count .closeNote) := by
  have stepped := step_notes later fine
  rw [stepped, List.countP_append, List.count_append]
  by_cases closes : act = .closeNote
  · subst closes
    exact kept.close
  · have unclosed : [act].count .closeNote = 0 := List.count_eq_zero.mpr (by simp [Ne.symm closes])
    rw [if_neg closes, unclosed]
    refine Notes.Kept.raise ?_ (Nat.le_add_right _ _)
    split
    next block => exact kept.collect (enclosed block) _
    next => exact kept

namespace Document
variable {document : Document} {profile : Profile} {settings : Settings} {edition : Edition}

theorem notes_kept (once : document.StartsOnce)
    (fine : (document.outcome profile settings edition).failure = none)
    (enclosed : Act.BlocksEnclosed profile (document.acts profile)) {before : List Act}
    (front : before <+: document.acts profile) :
    (Session.run (document.commission profile settings) {} edition before).session.draft.notes.Kept
      (before.countP (Act.follows profile .noteGraft)) (before.count .closeNote) := by
  obtain ⟨start,rest,begun,starts,later⟩ := once.begins profile
  cases before with
  | nil => exact .initial
  | cons first before =>
    -- the first act is the start, which forgets all notes; every further act is a later one
    induction before using List.reverseRecOn with
    | nil =>
      rw [begun, List.cons_prefix_cons] at front
      obtain ⟨rfl,_⟩ := front
      have unnoted : Act.follows profile .noteGraft (.take [] start) = false := by
        simp [Act.follows, Rule.select_start profile starts]
      rw [Session.run_start starts, List.countP_singleton, unnoted, List.count_singleton]
      exact .initial
    | append_singleton before act ih =>
      have shorter : first :: before <+: document.acts profile :=
        (List.prefix_append (first :: before) [act]).trans front
      have going : (Session.run (document.commission profile settings) {} edition
          (first :: (before ++ [act]))).failure = none := success_of_front front fine
      rw [← List.cons_append, Session.run_concat] at going ⊢
      refine Session.step_kept ?_ going (enclosed _ _ front) (ih shorter)
      rw [begun, List.cons_prefix_cons] at front
      exact later act (front.2.subset (by simp))

theorem later_of_split (once : document.StartsOnce) {before behind : List Act} {act : Act}
    (split : document.acts profile = before ++ act :: behind) (first : act.IsLater) :
    ∀ other ∈ behind, other.IsLater := by
  obtain ⟨start,rest,begun,starts,later⟩ := once.begins profile
  rw [begun] at split
  cases before with
  | nil =>
    cases split
    exact absurd starts (first [] start rfl)
  | cons _ before =>
    cases split
    intro other member
    exact later other (by simp [member])

theorem page_of_last {page : Page}
    (rendered : (document.renderAs profile settings edition).result = .ok page) {before tail : List Act}
    {place : List String} {finish : Event}
    (split : document.acts profile = before ++ .take place finish :: tail)
    (selected : Rule.select? profile finish = some .composeDocument) (later : ∀ act ∈ tail, act.IsLater)
    (uncomposed : ∀ act ∈ tail, act.follows profile .composeDocument = false) :
    page = Session.page (document.commission profile settings)
      (Session.run (document.commission profile settings) {} edition before).session.draft := by
  obtain ⟨fine,output⟩ := result_eq_ok_iff.mp rendered
  rw [outcome, split, Session.run_append, List.foldl_cons] at fine output
  have composed := Session.success_before fine
  rw [Session.run_keeps_output later uncomposed] at output
  have performed := Session.step_performed composed
  rw [performed] at composed output
  exact (Option.some.inj ((Session.compose_output selected composed).symm.trans output)).symm

section Note
variable {before : List Act} {path : List String} {event : Event} {target : String}

end Note

def explanation : List Event :=
  [.blockStart .footnote "blockTag/f", .word .footnote "or", .blockEnd .footnote "blockTag/f",
    .blockStart .footnote "blockTag/f", .word .footnote " and", .blockEnd .footnote "blockTag/f"]

def explained : Document where
  headers := ⟨"MRK",none,none,none,none,none⟩
  events := [.documentStart, .blockStart .main "blockTag/p", .inlineGraft .main "footnote" "note",
    .blockEnd .main "blockTag/p", .sequenceEnd .main]
  sequences := .ofList [("note", explanation)]

end Document
end Scriptorium
