import Mathlib.Data.List.Infix
import Scriptorium.Proofs.Runs
import Scriptorium.Proofs.Steps

/-! What an event leaves alone. Each part of a draft is changed by few of the rules, and the body
only grows; so one part can be followed through a run without a look at the others. -/
namespace Scriptorium

structure Draft.Retains (rule : Option Rule) (draft later : Draft) : Prop where
  body : draft.body.toList <+: later.body.toList
  notes : rule ≠ some .endNoteBlock → later.notes = draft.notes
  chapter : rule ∉ [some .chapter, some .pubChapter, some .altChapter, some .token] →
    later.chapter = draft.chapter
  verses : rule ∉ [some .verses, some .pubVerse, some .token] → later.verses = draft.verses
  chapters : rule ≠ some .token → later.chapters = draft.chapters

structure Session.Retains (rule : Option Rule) (session : Session) (edition : Edition) (later : Outcome) :
    Prop where
  draft : session.draft.Retains rule later.session.draft
  started : later.session.started = session.started
  output : rule ≠ some .composeDocument → later.session.output = session.output
  pages : rule ≠ some .composeDocument → later.edition.pages = edition.pages

namespace Draft
variable {rule : Option Rule} {draft later : Draft}

theorem Retains.rows (draft : Draft) (rows : Rows) (headword : Option String) :
    draft.Retains rule {draft with rows := rows, headword := headword} :=
  ⟨List.prefix_rfl,fun _ => rfl,fun _ => rfl,fun _ => rfl,fun _ => rfl⟩

theorem Retains.addBody (draft : Draft) (rows : Rows) (fragment : String) :
    draft.Retains rule {draft with rows := rows, body := draft.body.add fragment} where
  body := by simp
  notes _ := rfl
  chapter _ := rfl
  verses _ := rfl
  chapters _ := rfl

theorem Retains.closing {next : String → Draft → Draft}
    (kept : ∀ content rows, draft.Retains rule (next content {draft with rows := rows}))
    (closed : draft.closing next = .ok later) : draft.Retains rule later := by
  obtain ⟨content,rows,_,rfl⟩ := closing_eq_ok closed
  exact kept content rows

theorem headed_body (draft : Draft) : draft.body.toList <+: draft.headed.body.toList := by
  unfold headed
  split
  · exact List.prefix_rfl
  · simp

theorem marked_retains (draft : Draft) : draft.Retains (some .token) draft.marked := by
  unfold marked
  split
  · exact .rows draft draft.rows draft.headword
  · exact ⟨List.prefix_rfl,fun _ => rfl,fun _ => rfl,by simp,fun _ => rfl⟩

theorem headed_retains (draft : Draft) : draft.Retains (some .token) draft.headed where
  body := draft.headed_body
  notes _ := by unfold headed; split <;> rfl
  chapter := by simp
  verses := by simp
  chapters other := absurd rfl other

theorem Retains.trans {middle : Draft} (first : draft.Retains rule middle)
    (second : middle.Retains rule later) : draft.Retains rule later where
  body := first.body.trans second.body
  notes other := (second.notes other).trans (first.notes other)
  chapter other := (second.chapter other).trans (first.chapter other)
  verses other := (second.verses other).trans (first.verses other)
  chapters other := (second.chapters other).trans (first.chapters other)

theorem token_retains {mode : FrenchSpacing} {event : Event} (placed : draft.token mode event = .ok later) :
    draft.Retains (some .token) later := by
  have flushed : ∃ middle, draft.flushPending event = .ok middle ∧ draft.Retains (some .token) middle := by
    cases content : event.isContent with
    | true =>
      exact ⟨_,flushPending_of_content content draft,draft.headed_retains.trans draft.headed.marked_retains⟩
    | false => exact ⟨draft,flushPending_of_other content draft,.rows draft draft.rows draft.headword⟩
  obtain ⟨middle,ready,kept⟩ := flushed
  rw [token_of_flushed ready] at placed
  cases placed
  exact kept.trans (.rows middle _ middle.headword)

end Draft

namespace Session
variable {commission : Commission} {event : Event} {session : Session} {edition : Edition} {rule : Option Rule}

theorem Retains.edited {result : Except Failure Draft}
    (kept : ∀ draft, result = .ok draft → session.draft.Retains rule draft) :
    session.Retains rule edition (session.edited edition result) := by
  cases result with
  | error failure => exact ⟨.rows _ _ _,rfl,fun _ => rfl,fun _ => rfl⟩
  | ok draft => exact ⟨kept draft rfl,rfl,fun _ => rfl,fun _ => rfl⟩

theorem Retains.label {stem : String} {place : Draft → String → Draft}
    (kept : ∀ (draft : Draft) label, draft.Retains rule (place draft label)) :
    session.Retains rule edition (session.label edition event stem place) := by
  refine .edited fun draft placed => ?_
  cases carried : event.labelAfter? stem with
  | none =>
    rw [carried] at placed
    cases placed
    exact .rows session.draft _ _
  | some label =>
    rw [carried] at placed
    cases placed
    exact kept session.draft label

theorem endWord_retains :
    session.Retains (some .glossaryWord) edition (endWord commission session edition) := by
  unfold endWord
  split
  · exact ⟨.rows _ _ _,rfl,fun _ => rfl,fun _ => rfl⟩
  · simp only
    split <;> exact ⟨.rows _ _ _,rfl,fun _ => rfl,fun _ => rfl⟩

theorem follow_retains {rule : Rule} (event : Event) (session : Session) (edition : Edition)
    (later : rule ≠ .startDocument) :
    session.Retains (some rule) edition (follow commission event session edition rule) := by
  cases rule with
  | startDocument => exact absurd rfl later
  | followBlockGraft | startBlock | glossaryLemma | noteGraft =>
    exact ⟨.rows _ _ _,rfl,fun _ => rfl,fun _ => rfl⟩
  | endTitleBlock =>
    refine .edited fun draft closed => ?_
    unfold Draft.closeTitle at closed
    refine Draft.Retains.closing (fun _ _ => ?_) closed
    exact ⟨List.prefix_rfl,fun _ => rfl,fun _ => rfl,fun _ => rfl,fun _ => rfl⟩
  | endHeadingBlock =>
    refine .edited fun draft closed => ?_
    unfold Draft.closeHeading at closed
    exact Draft.Retains.closing (fun _ _ => .addBody session.draft _ _) closed
  | endNoteBlock =>
    refine .edited fun draft closed => .closing (fun _ _ => ?_) closed
    exact ⟨List.prefix_rfl,(absurd rfl ·),fun _ => rfl,fun _ => rfl,fun _ => rfl⟩
  | endParagraphBlock =>
    exact .edited fun draft closed => .closing (fun _ _ => .addBody session.draft _ _) closed
  | chapter | pubChapter | altChapter =>
    simp only [follow]
    refine Retains.label fun draft label => ?_
    exact ⟨List.prefix_rfl,fun _ => rfl,by simp,fun _ => rfl,fun _ => rfl⟩
  | verses | pubVerse =>
    simp only [follow]
    refine Retains.label fun draft label => ?_
    exact ⟨List.prefix_rfl,fun _ => rfl,fun _ => rfl,by simp,fun _ => rfl⟩
  | characterSpan =>
    simp only [follow, Draft.characterSpan]
    split
    · exact ⟨.rows _ _ _,rfl,fun _ => rfl,fun _ => rfl⟩
    · exact .edited fun draft closed => .closing (fun _ _ => .rows session.draft _ _) closed
  | tableCell =>
    simp only [follow, Draft.tableCell]
    split
    · exact ⟨.rows _ _ _,rfl,fun _ => rfl,fun _ => rfl⟩
    · exact .edited fun draft closed => .closing (fun _ _ => .rows session.draft _ _) closed
  | glossaryWord =>
    simp only [follow]
    split
    · exact ⟨.rows _ _ _,rfl,fun _ => rfl,fun _ => rfl⟩
    · exact endWord_retains
  | unhandledSpan =>
    simp only [follow, unhandledSpan]
    split <;> exact ⟨.rows _ _ _,rfl,fun _ => rfl,fun _ => rfl⟩
  | token => exact .edited fun draft placed => Draft.token_retains placed
  | composeDocument =>
    simp only [follow, compose]
    split
    · exact ⟨.rows _ _ _,rfl,(absurd rfl ·),(absurd rfl ·)⟩
    · exact ⟨.rows _ _ _,rfl,fun _ => rfl,fun _ => rfl⟩
  | separateIntroduction =>
    exact ⟨.addBody session.draft session.draft.rows _,rfl,fun _ => rfl,fun _ => rfl⟩

theorem Retains.refused (failure : Option Failure) : session.Retains rule edition ⟨session,edition,failure⟩ :=
  ⟨.rows _ _ _,rfl,fun _ => rfl,fun _ => rfl⟩

theorem take_retains (later : event.kind ≠ .documentStart) (commission : Commission) (session : Session)
    (edition : Edition) :
    session.Retains (Rule.select? commission.profile event) edition (take commission event session edition) := by
  unfold take
  split
  · cases selected : Rule.select? commission.profile event with
    | none => exact .refused none
    | some rule =>
      refine follow_retains event session edition ?_
      rintro rfl
      exact later (Rule.kind_of_select selected)
  · exact .refused _

end Session
end Scriptorium
