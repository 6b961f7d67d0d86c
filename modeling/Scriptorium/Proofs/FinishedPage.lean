import Scriptorium.Proofs.NoteText

/-! What a session finishes with. The page is handed over twice, to the edition when the main sequence
ends and to the session's own output; the start of a document takes back only the second. So the two
are told from the events that were taken, those of replayed sequences and of failed dispatches included. -/
namespace Scriptorium

/-- An event as it was taken: the session that it met, and how it failed by itself. What goes wrong in
a grafted sequence is told of the events of the sequence. -/
structure Entry where
  event : Event
  session : Session
  failure : Option Failure

namespace Entry

/-- The main sequence has ended, and a page was composed. -/
def Composes (entry : Entry) : Prop :=
  entry.event.kind = .sequenceEnd ∧ entry.event.sequence = .main ∧ entry.failure = none

/-- The last composition, after which no document has started. -/
def Stands (told : List Entry) (entry : Entry) : Prop :=
  ∃ before behind, told = before ++ entry :: behind ∧ entry.Composes ∧
    ∀ later ∈ behind, ¬later.Composes ∧ later.event.kind ≠ .documentStart

variable {told : List Entry} {last entry : Entry}

theorem Composes.later (composes : entry.Composes) : entry.event.kind ≠ .documentStart := by
  rw [composes.1]
  exact nofun

theorem not_stands_nil (entry : Entry) : ¬Stands [] entry := by
  rintro ⟨before,behind,split,_⟩
  simp at split

theorem stands_concat : Stands (told ++ [last]) entry ↔
    last.Composes ∧ entry = last ∨
      ¬last.Composes ∧ last.event.kind ≠ .documentStart ∧ Stands told entry := by
  constructor
  · rintro ⟨before,behind,split,composes,later⟩
    rcases List.eq_nil_or_concat behind with rfl | ⟨more,final,rfl⟩
    · obtain ⟨_,same⟩ := List.append_inj' split rfl
      cases same
      exact .inl ⟨composes,rfl⟩
    · have whole : told ++ [last] = (before ++ entry :: more) ++ [final] := by simpa using split
      obtain ⟨rfl,same⟩ := List.append_inj' whole rfl
      cases same
      obtain ⟨uncomposed,unstarted⟩ := later last (by simp)
      exact .inr ⟨uncomposed,unstarted,before,more,rfl,composes,fun other member => later other (by simp [member])⟩
  · rintro (⟨composes,rfl⟩ | ⟨uncomposed,unstarted,before,behind,rfl,composes,later⟩)
    · exact ⟨told,[],rfl,composes,by simp⟩
    · refine ⟨before,behind ++ [last],by simp,composes,fun other member => ?_⟩
      rcases List.mem_append.mp member with earlier | here
      · exact later other earlier
      · rw [List.mem_singleton.mp here]
        exact ⟨uncomposed,unstarted⟩

end Entry

namespace Session
variable {commission : Commission} {event : Event} {session : Session} {edition : Edition}

/-- The entry of an act, where it is an event and the run has come to it. -/
def heard? (commission : Commission) (outcome : Outcome) : Act → Option Entry
  | .take path event =>
    if outcome.failure = none then
      some ⟨event,outcome.session,(step commission outcome (.take path event)).failure⟩
    else none
  | .refuse _ | .closeNote => none

/-- The events that a run takes, in its order. -/
def entries (commission : Commission) (outcome : Outcome) : List Act → List Entry
  | [] => []
  | act :: rest =>
    (heard? commission outcome act).toList ++ entries commission (step commission outcome act) rest

/-- The events that are taken when events are dispatched one after the other. -/
def chronicle (commission : Commission) (outcome : Outcome) : List Event → List Entry
  | [] => []
  | event :: rest =>
    entries commission ⟨outcome.session,outcome.edition,none⟩
        (Graft.unfold commission.profile commission.sequences [] [event]) ++
      chronicle commission (dispatch commission event outcome.session outcome.edition) rest

theorem compose_pages (selected : Rule.select? commission.profile event = some .composeDocument)
    (fine : (take commission event session edition).failure = none) :
    (take commission event session edition).edition.pages =
      edition.pages.insert commission.headers.key (page commission session.draft).markup := by
  have followed := take_of_success selected fine
  rw [followed, follow, compose] at fine ⊢
  split at fine
  next closed =>
    rw [if_pos closed]
    rfl
  next => cases fine

theorem take_uncomposed (later : event.kind ≠ .documentStart)
    (uncomposed : ¬Entry.Composes ⟨event,session,(take commission event session edition).failure⟩) :
    (take commission event session edition).session.output = session.output ∧
      (take commission event session edition).edition.pages = edition.pages := by
  by_cases selected : Rule.select? commission.profile event = some .composeDocument
  · have main : event.sequence = .main := by simpa [Rule.accepts] using Rule.accepts_of_select selected
    have failed : (take commission event session edition).failure ≠ none :=
      fun fine => uncomposed ⟨Rule.kind_of_select selected,main,fine⟩
    unfold take at failed ⊢
    split
    next accepted =>
      rw [if_pos accepted] at failed
      simp only [selected, follow, compose] at failed ⊢
      split
      next closed => exact absurd (by rw [if_pos closed]) failed
      next => exact ⟨rfl,rfl⟩
    next => exact ⟨rfl,rfl⟩
  · have retained := take_retains later commission session edition
    exact ⟨retained.output selected,retained.pages selected⟩

/-- What the entries of a history tell of the session and of the edition that it has left. -/
structure Tells (commission : Commission) (told : List Entry) (session : Session) (edition : Edition) :
    Prop where
  output : ∀ page, session.output = some page ↔
    ∃ entry, Entry.Stands told entry ∧ page = Session.page commission entry.session.draft
  kept : ∀ page, session.output = some page →
    edition.pages = (∅ : Index String String).insert commission.headers.key page.markup
  alone : edition.pages = ∅ ∨
    ∃ markup, edition.pages = (∅ : Index String String).insert commission.headers.key markup

theorem Tells.nothing (commission : Commission) : Tells commission [] {} {} where
  output _ := ⟨nofun,fun ⟨entry,stands,_⟩ => absurd stands (Entry.not_stands_nil entry)⟩
  kept := nofun
  alone := .inl rfl

variable {told : List Entry}

theorem Tells.take (tells : Tells commission told session edition) (event : Event) :
    Tells commission (told ++ [⟨event,session,(take commission event session edition).failure⟩])
      (take commission event session edition).session (take commission event session edition).edition := by
  by_cases starts : event.kind = .documentStart
  · have forgotten (entry : Entry) : ¬Entry.Stands
        (told ++ [⟨event,session,(Session.take commission event session edition).failure⟩]) entry := by
      rw [Entry.stands_concat]
      rintro (⟨composes,_⟩ | ⟨_,later,_⟩)
      · exact composes.later starts
      · exact later starts
    rw [take_start starts] at forgotten ⊢
    exact ⟨fun page => ⟨nofun,fun ⟨entry,stands,_⟩ => absurd stands (forgotten entry)⟩,nofun,tells.alone⟩
  by_cases composes : Entry.Composes ⟨event,session,(Session.take commission event session edition).failure⟩
  · obtain ⟨ends,main,fine⟩ := composes
    have selected : Rule.select? commission.profile event = some .composeDocument :=
      Rule.select_end commission.profile ends main
    have output := compose_output selected fine
    have stored : (Session.take commission event session edition).edition.pages =
        (∅ : Index String String).insert commission.headers.key (page commission session.draft).markup := by
      rw [compose_pages selected fine]
      rcases tells.alone with empty | ⟨markup,single⟩
      · rw [empty]
      · rw [single, Index.insert_insert]
    refine ⟨fun page => ?_,fun page kept => ?_,.inr ⟨_,stored⟩⟩
    · simp only [output, Entry.stands_concat, Option.some.injEq]
      constructor
      · rintro rfl
        exact ⟨_,.inl ⟨⟨ends,main,fine⟩,rfl⟩,rfl⟩
      · rintro ⟨entry,⟨_,rfl⟩ | ⟨uncomposed,_⟩,rfl⟩
        · rfl
        · exact absurd ⟨ends,main,fine⟩ uncomposed
    · rw [output] at kept
      cases kept
      exact stored
  · obtain ⟨output,pages⟩ := take_uncomposed starts composes
    refine ⟨fun page => ?_,fun page => ?_,?_⟩
    · rw [output, tells.output page]
      simp only [Entry.stands_concat, composes, false_and, false_or, not_false_eq_true, true_and, ne_eq,
        starts]
    · rw [output, pages]
      exact tells.kept page
    · rw [pages]
      exact tells.alone

theorem Tells.step {outcome : Outcome} (tells : Tells commission told outcome.session outcome.edition)
    (act : Act) : Tells commission (told ++ (heard? commission outcome act).toList)
      (step commission outcome act).session (step commission outcome act).edition := by
  cases going : outcome.failure with
  | some failure =>
    have stays : Session.step commission outcome act = outcome := by simp [Session.step, going]
    have unheard : heard? commission outcome act = none := by cases act <;> simp [heard?, going]
    rw [stays, unheard, Option.toList_none, List.append_nil]
    exact tells
  | none =>
    cases act with
    | take path event =>
      have told' := tells.take event
      simp only [heard?, going, if_true, step_of_success going, perform, Option.toList_some]
      exact told'
    | refuse failure | closeNote =>
      rw [step_of_success going, heard?, Option.toList_none, List.append_nil]
      exact ⟨tells.output,tells.kept,tells.alone⟩

theorem Tells.run {outcome : Outcome} (tells : Tells commission told outcome.session outcome.edition)
    (acts : List Act) : Tells commission (told ++ entries commission outcome acts)
      (acts.foldl (Session.step commission) outcome).session
      (acts.foldl (Session.step commission) outcome).edition := by
  induction acts generalizing outcome told with
  | nil =>
    rw [entries, List.append_nil]
    exact tells
  | cons act rest ih =>
    rw [entries, List.foldl_cons, ← List.append_assoc]
    exact ih (tells.step act)

theorem Tells.attend {outcome : Outcome} (tells : Tells commission told outcome.session outcome.edition)
    (events : List Event) : Tells commission (told ++ chronicle commission outcome events)
      ((attend commission outcome events).getLastD outcome).session
      ((attend commission outcome events).getLastD outcome).edition := by
  induction events generalizing outcome told with
  | nil =>
    rw [chronicle, List.append_nil]
    exact tells
  | cons event rest ih =>
    let begun : Outcome := ⟨outcome.session,outcome.edition,none⟩
    have ready : Tells commission told begun.session begun.edition := tells
    have dispatched := ready.run (Graft.unfold commission.profile commission.sequences [] [event])
    rw [chronicle, Session.attend, List.getLastD_cons, ← List.append_assoc]
    refine ih ?_
    rw [dispatch_eq_run]
    exact dispatched

end Session
end Scriptorium
