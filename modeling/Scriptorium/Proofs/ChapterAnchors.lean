import Mathlib.Data.List.Nodup
import Scriptorium.Proofs.FinishedPage
import Scriptorium.Proofs.PlacedLabels

/-! Anchors of chapters. An anchor is the label of its chapter, perhaps with a number after an underscore.
So chapters are told apart by what stands before the underscore, and each start of a chapter is placed
once at most: it waits until it is placed or until another takes its place. -/
namespace Scriptorium
open scoped List

namespace Text

def beforeUnderscore (text : String) : List Char := text.toList.takeWhile (· != '_')

theorem beforeUnderscore_of_plain {text : String} (plain : '_' ∉ text.toList) :
    beforeUnderscore text = text.toList := by
  rw [beforeUnderscore, List.takeWhile_eq_self_iff]
  intro char member
  rw [bne_iff_ne]
  rintro rfl
  exact plain member

theorem beforeUnderscore_numbered (text suffix : String) :
    beforeUnderscore (text ++ "_" ++ suffix) = beforeUnderscore text := by
  have stops : ("_" ++ suffix).toList.takeWhile (· != '_') = [] := by simp
  rw [beforeUnderscore, beforeUnderscore, String.append_assoc, String.toList_append, List.takeWhile_append, stops]
  split
  next whole =>
    rw [List.append_nil]
    exact ((List.takeWhile_prefix _).eq_of_length whole).symm
  next => rfl

end Text

theorem PendingChapter.beforeUnderscore_label (pending : PendingChapter) :
    Text.beforeUnderscore pending.label.id = Text.beforeUnderscore pending.primary := by
  unfold label
  split
  · rfl
  · exact Text.beforeUnderscore_numbered _ _

namespace Draft
variable {draft : Draft}

/-- The chapters that have been placed, and the one that waits. -/
def announced (draft : Draft) : List (List Char) :=
  draft.chapters.toList.map (fun link => Text.beforeUnderscore link.id) ++
    draft.chapter.pending.toList.map (fun pending => Text.beforeUnderscore pending.primary)

theorem headed_announced (draft : Draft) : draft.headed.announced = draft.announced := by
  cases waiting : draft.chapter.pending with
  | none => rw [headed_of_none waiting]
  | some pending =>
    rw [headed_of_some waiting]
    simp [announced, waiting, ChapterLabel.link, pending.beforeUnderscore_label]

end Draft

namespace Session
variable {commission : Commission} {event : Event} {session : Session} {edition : Edition}

/-- An event announces at most the chapter that it starts. -/
theorem take_announced (later : event.kind ≠ .documentStart) :
    (take commission event session edition).session.draft.announced <+
      session.draft.announced ++ (event.startLabel? "chapter").toList.map Text.beforeUnderscore := by
  have unannounced {draft : Draft} (same : draft.announced = session.draft.announced) : draft.announced <+
      session.draft.announced ++ (event.startLabel? "chapter").toList.map Text.beforeUnderscore :=
    same ▸ List.sublist_append_left _ _
  cases started : session.started with
  | false =>
    have refused : take commission event session edition =
        ⟨session,edition,some (.documentNotStarted event.kind)⟩ := by simp [take, started, later]
    rw [refused]
    exact unannounced rfl
  | true =>
    have retained := (take_retains later commission session edition).draft
    by_cases chapter : Rule.select? commission.profile event = some .chapter
    · obtain ⟨label,carried,after⟩ := Rule.startLabel?_of_select "chapter" chapter (by decide)
      rw [take_of_select started chapter, follow, label_draft after, carried]
      simp only [Draft.announced, ChapterTracker.startPrimary, Option.toList_some, List.map_cons, List.map_nil,
        List.append_assoc]
      exact (List.sublist_append_right _ _).append_left _
    refine unannounced ?_
    by_cases published : Rule.select? commission.profile event = some .pubChapter
    · obtain ⟨label,_,after⟩ := Rule.startLabel?_of_select "pubChapter" published (by decide)
      rw [take_of_select started published, follow, label_draft after]
      cases waiting : session.draft.chapter.pending <;>
        simp [Draft.announced, ChapterTracker.startAlternate, waiting]
    by_cases annotated : Rule.select? commission.profile event = some .altChapter
    · obtain ⟨label,_,after⟩ := Rule.startLabel?_of_select "altChapter" annotated (by decide)
      rw [take_of_select started annotated, follow, label_draft after]
      cases waiting : session.draft.chapter.pending <;> simp [Draft.announced, ChapterTracker.annotate, waiting]
    by_cases token : Rule.select? commission.profile event = some .token
    · cases content : event.isContent with
      | false =>
        obtain ⟨chapter,_,chapters⟩ := take_plain_token commission edition token content started
        rw [Draft.announced, chapter, chapters]
        rfl
      | true =>
        obtain ⟨chapter,chapters,_⟩ := session.draft.headed.marked_rest
        rw [take_content content started, ← session.draft.headed_announced]
        simp only [Draft.announced, chapter, chapters]
    · have kept : (take commission event session edition).session.draft.chapter = session.draft.chapter :=
        retained.chapter (by simp [chapter, published, annotated, token])
      rw [Draft.announced, kept, retained.chapters token]
      rfl

/-- All chapters of a session, those of its page included, are among the labels that were started. -/
structure Announces (labels : List String) (session : Session) : Prop where
  draft : session.draft.announced <+ labels.map Text.beforeUnderscore
  page : ∀ page, session.output = some page →
    page.chapters.map (fun link => Text.beforeUnderscore link.id) <+ labels.map Text.beforeUnderscore

variable {labels : List String}

theorem Announces.take (announces : session.Announces labels) (later : event.kind ≠ .documentStart) :
    (take commission event session edition).session.Announces
      (labels ++ (event.startLabel? "chapter").toList) where
  draft := by
    rw [List.map_append]
    exact (take_announced later).trans (announces.draft.append_right _)
  page page shown := by
    rw [List.map_append]
    refine List.Sublist.trans ?_ (List.sublist_append_left _ _)
    by_cases composes : Entry.Composes ⟨event,session,(Session.take commission event session edition).failure⟩
    · obtain ⟨ends,main,fine⟩ := composes
      rw [compose_output (Rule.select_end commission.profile ends main) fine] at shown
      cases shown
      exact (List.sublist_append_left _ _).trans announces.draft
    · exact announces.page page ((take_uncomposed later composes).1.symm.trans shown)

theorem run_announces {acts : List Act} (later : ∀ act ∈ acts, act.IsLater) {outcome : Outcome}
    (announces : outcome.session.Announces labels)
    (fine : (acts.foldl (step commission) outcome).failure = none) :
    (acts.foldl (step commission) outcome).session.Announces
      (labels ++ Event.labels "chapter" (Act.events acts)) := by
  induction acts generalizing outcome labels with
  | nil => simpa [Act.events, Event.labels] using announces
  | cons act rest ih =>
    have going : (step commission outcome act).failure = none := success_before fine
    have performed : step commission outcome act = _ := step_performed going
    have following {labels} (announces : (step commission outcome act).session.Announces labels) :=
      ih (fun other member => later other (List.mem_cons_of_mem _ member)) announces fine
    cases act with
    | refuse failure =>
      rw [performed] at going
      cases going
    | closeNote =>
      refine following ?_
      rw [performed]
      exact ⟨announces.draft,announces.page⟩
    | take path event =>
      have taken : (step commission outcome (.take path event)).session.Announces
          (labels ++ (event.startLabel? "chapter").toList) := by
        rw [performed]
        exact announces.take (later _ (by simp) path event rfl)
      have announced := following taken
      rwa [List.append_assoc, ← Event.labels_cons] at announced

theorem start_announces (commission : Commission) (edition : Edition) :
    (start commission edition).session.Announces [] where
  draft := List.Sublist.refl []
  page := nofun

end Session

namespace Document
variable {document : Document} {profile : Profile} {settings : Settings} {edition : Edition}

/-- Where the chapters that a run starts have different labels without underscores, those of the page have
different anchors. -/
theorem anchors_nodup (once : document.StartsOnce) {page : Page}
    (rendered : (document.renderAs profile settings edition).result = .ok page)
    (distinct : (Event.labels "chapter" (Act.events (document.acts profile))).Nodup)
    (plain : ∀ label ∈ Event.labels "chapter" (Act.events (document.acts profile)), '_' ∉ label.toList) :
    (page.chapters.map ChapterLink.id).Nodup := by
  obtain ⟨start,rest,begun,starts,later⟩ := once.begins profile
  obtain ⟨fine,shown⟩ := result_eq_ok_iff.mp rendered
  rw [outcome, begun, Session.run_start starts] at fine shown
  have announced := (Session.run_announces later (Session.start_announces _ edition) fine).page page shown
  rw [List.nil_append] at announced
  have unset : start.startLabel? "chapter" = none := by simp [Event.startLabel?, starts]
  have all : Event.labels "chapter" (Act.events (document.acts profile)) =
      Event.labels "chapter" (Act.events rest) := by
    rw [begun, show Act.events (.take [] start :: rest) = start :: Act.events rest from rfl, Event.labels_cons,
      unset]
    rfl
  rw [all] at distinct plain
  have spelled : (Event.labels "chapter" (Act.events rest)).map Text.beforeUnderscore =
      (Event.labels "chapter" (Act.events rest)).map String.toList :=
    List.map_congr_left fun label member => Text.beforeUnderscore_of_plain (plain label member)
  rw [spelled] at announced
  have apart : (page.chapters.map fun link => Text.beforeUnderscore link.id).Nodup :=
    announced.nodup (distinct.map fun _ _ same => String.toList_injective same)
  refine List.Nodup.of_map Text.beforeUnderscore ?_
  rwa [List.map_map]

/-- A chapter that is published twice before its first word, one that takes the place of another, and labels
that are published where no chapter waits. -/
def renumbered : Document where
  headers := ⟨"MRK",none,none,none,none,none⟩
  events := [.documentStart, .scopeStart .main "chapter/1", .scopeStart .main "pubChapter/A",
    .scopeStart .main "pubChapter/B", .word .main "In", .scopeStart .main "pubChapter/C",
    .scopeStart .main "chapter/2", .scopeStart .main "chapter/12", .scopeStart .main "pubChapter/1",
    .word .main "the", .sequenceEnd .main]

theorem renumbered_acts : renumbered.acts .canonical = renumbered.events.map (.take []) :=
  Graft.unfold_of_ungrafted [] (by decide)

theorem anchors_nodup_renumbered : ∃ page, (renumbered.renderAs .canonical {} {}).result = .ok page ∧
    page.chapters.map ChapterLink.id = ["1_2", "12_1"] ∧ (page.chapters.map ChapterLink.id).Nodup := by
  have fine : (Session.run (renumbered.commission .canonical {}) {} {}
      (renumbered.events.map (.take []))).failure = none := by decide +kernel
  have composed : (Session.run (renumbered.commission .canonical {}) {} {}
      (renumbered.events.map (.take []))).session.output.map (·.chapters.map ChapterLink.id) =
        some ["1_2", "12_1"] := by decide +kernel
  obtain ⟨page,shown,anchors⟩ := Option.map_eq_some_iff.mp composed
  rw [← renumbered_acts] at fine shown
  have rendered : (renumbered.renderAs .canonical {} {}).result = .ok page := result_eq_ok_iff.mpr ⟨fine,shown⟩
  have once : renumbered.StartsOnce := startsOnce_of_entries rfl rfl (by decide) (by decide +kernel)
  have labels : Event.labels "chapter" (Act.events (renumbered.acts .canonical)) = ["1", "2", "12"] := by
    rw [renumbered_acts]
    decide +kernel
  refine ⟨page,rendered,anchors,anchors_nodup once rendered ?_ ?_⟩
  · rw [labels]
    decide
  · rw [labels]
    decide

end Document
end Scriptorium
