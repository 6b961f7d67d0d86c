import Scriptorium.Proofs.Footprint

/-! Pages that are kept. A page is kept when the main sequence ends, and nothing takes it back: a
document that fails afterwards leaves the last page that was composed before the failure. -/
namespace Scriptorium
namespace Session
variable {commission : Commission} {outcome : Outcome} {act : Act} {page : Page}

/-- The page that an act composes and keeps. -/
def composes? (commission : Commission) (outcome : Outcome) : Act → Option Page
  | .take _ event =>
    if outcome.failure = none ∧ outcome.session.started = true ∧ event.kind = .sequenceEnd ∧
        event.sequence = .main ∧ outcome.session.draft.rows.depth = 1 then
      some (Session.page commission outcome.session.draft)
    else none
  | .refuse _ | .closeNote => none

/-- The pages that a run composes, in its order. -/
def composed (commission : Commission) (outcome : Outcome) : List Act → List Page
  | [] => []
  | act :: rest =>
    (composes? commission outcome act).toList ++ composed commission (step commission outcome act) rest

theorem step_of_composes (composes : composes? commission outcome act = some page) :
    page.key = commission.headers.key ∧
      (step commission outcome act).edition.pages = outcome.edition.pages.insert page.key page.markup ∧
      (step commission outcome act).session.output = some page ∧
      (step commission outcome act).failure = none := by
  cases act with
  | refuse failure => cases composes
  | closeNote => cases composes
  | take path event =>
    simp only [composes?, Option.ite_none_right_eq_some, Option.some.injEq] at composes
    obtain ⟨⟨going,started,ends,main,closed⟩,rfl⟩ := composes
    have selected := Rule.select_end commission.profile ends main
    rw [step_of_success going, perform, take_of_select started selected, follow, compose, if_pos closed]
    exact ⟨rfl,rfl,rfl,rfl⟩

theorem take_of_uncomposed {path : List String} {event : Event} (going : outcome.failure = none)
    (uncomposed : composes? commission outcome (.take path event) = none) :
    (take commission event outcome.session outcome.edition).edition.pages = outcome.edition.pages ∧
      ∀ page, (take commission event outcome.session outcome.edition).session.output = some page →
        outcome.session.output = some page := by
  by_cases starts : event.kind = .documentStart
  · rw [take_start starts]
    exact ⟨rfl,nofun⟩
  by_cases composing : Rule.select? commission.profile event = some .composeDocument
  · have ends := Rule.kind_of_select composing
    have main : event.sequence = .main := by simpa [Rule.accepts] using Rule.accepts_of_select composing
    unfold take
    split
    next accepted =>
      have started : outcome.session.started = true := by simpa [starts] using accepted
      have deeper : outcome.session.draft.rows.depth ≠ 1 := by
        intro closed
        simp [composes?, going, started, ends, Rule.kind, main, closed] at uncomposed
      simp only [composing, follow, compose, if_neg deeper, true_and]
      exact fun _ kept => kept
    next => exact ⟨rfl,fun _ kept => kept⟩
  · have retained := take_retains starts commission outcome.session outcome.edition
    rw [retained.output composing, retained.pages composing]
    exact ⟨rfl,fun _ kept => kept⟩

theorem step_of_uncomposed (uncomposed : composes? commission outcome act = none) :
    (step commission outcome act).edition.pages = outcome.edition.pages ∧
      ∀ page, (step commission outcome act).session.output = some page →
        outcome.session.output = some page := by
  unfold step
  split
  next going =>
    cases act with
    | refuse failure | closeNote => exact ⟨rfl,fun _ kept => kept⟩
    | take path event => exact take_of_uncomposed going uncomposed
  next => exact ⟨rfl,fun _ kept => kept⟩

theorem composed_key (acts : List Act) (outcome : Outcome) :
    ∀ page ∈ composed commission outcome acts, page.key = commission.headers.key := by
  induction acts generalizing outcome with
  | nil => simp [composed]
  | cons act rest ih =>
    intro page member
    rcases List.mem_append.mp member with here | later
    · exact (step_of_composes (Option.mem_toList.mp here)).1
    · exact ih _ page later

/-- The pages of an edition after a run are told by the pages that the run composes. -/
theorem run_pages (acts : List Act) (outcome : Outcome) :
    (acts.foldl (step commission) outcome).edition.pages =
      (composed commission outcome acts).foldl (fun pages page => pages.insert page.key page.markup)
        outcome.edition.pages := by
  induction acts generalizing outcome with
  | nil => rfl
  | cons act rest ih =>
    rw [List.foldl_cons, ih, composed, List.foldl_append]
    cases composes : composes? commission outcome act with
    | none => rw [(step_of_uncomposed composes).1]; rfl
    | some page => rw [(step_of_composes composes).2.1]; rfl

theorem run_output (acts : List Act) (outcome : Outcome)
    (kept : (acts.foldl (step commission) outcome).session.output = some page) :
    (composed commission outcome acts).getLast?.or outcome.session.output = some page := by
  induction acts generalizing outcome with
  | nil => exact kept
  | cons act rest ih =>
    have later := ih (step commission outcome act) kept
    rw [composed]
    cases composes : composes? commission outcome act with
    | none =>
      rw [Option.or_eq_some_iff] at later
      rw [Option.toList_none, List.nil_append, Option.or_eq_some_iff]
      exact later.imp_right fun ⟨unset,output⟩ => ⟨unset,(step_of_uncomposed composes).2 page output⟩
    | some first =>
      rw [(step_of_composes composes).2.2.1] at later
      rw [Option.toList_some, List.singleton_append, List.getLast?_cons]
      cases last : (composed commission (step commission outcome act) rest).getLast? <;> simp_all

theorem composed_split {acts : List Act} (member : page ∈ composed commission outcome acts) :
    ∃ before path event behind, acts = before ++ .take path event :: behind ∧
      event.kind = .sequenceEnd ∧ event.sequence = .main ∧
      composes? commission (before.foldl (step commission) outcome) (.take path event) = some page := by
  induction acts generalizing outcome with
  | nil => cases member
  | cons act rest ih =>
    rcases List.mem_append.mp member with here | later
    · have composes := Option.mem_toList.mp here
      cases act with
      | refuse failure | closeNote => cases composes
      | take path event =>
        have meaning := composes
        simp only [composes?, Option.ite_none_right_eq_some] at meaning
        obtain ⟨⟨_,_,ends,main,_⟩,_⟩ := meaning
        exact ⟨[],path,event,rest,rfl,ends,main,composes⟩
    · obtain ⟨before,path,event,behind,rfl,ends,main,composes⟩ := ih later
      exact ⟨act :: before,path,event,behind,rfl,ends,main,composes⟩

end Session

namespace Index
variable {α : Type}

theorem insert_ne_empty (index : Index String α) (key : String) (value : α) :
    index.insert key value ≠ ∅ := by
  intro same
  have found := find?_insert_self index key value
  rw [same] at found
  cases found

theorem foldl_insert (key : String) (markup : α → String) (pages : List α) (index : Index String String) :
    pages.foldl (fun pages page => pages.insert key (markup page)) index =
      match pages.getLast? with
      | none => index
      | some page => index.insert key (markup page) := by
  induction pages using List.reverseRecOn with
  | nil => rfl
  | append_singleton pages page ih =>
    rw [List.foldl_append, ih, List.getLast?_concat, List.foldl_cons, List.foldl_nil]
    cases pages.getLast? with
    | none => rfl
    | some earlier => exact insert_insert index key (markup earlier) (markup page)

end Index

namespace Document
variable {document : Document} {profile : Profile} {settings : Settings} {edition : Edition}

/-- The pages that rendering a document composes, in their order. -/
def composed (document : Document) (profile : Profile) (settings : Settings) (edition : Edition) :
    List Page :=
  Session.composed (document.commission profile settings) ⟨{},edition,none⟩ (document.acts profile)

theorem renderAs_edition : (document.renderAs profile settings edition).edition =
    (document.outcome profile settings edition).edition := by
  rw [renderAs_eq]
  split <;> rfl

/-- The last page that was composed is kept under the key of the document. -/
theorem renderAs_pages (document : Document) (profile : Profile) (settings : Settings)
    (edition : Edition) :
    (document.renderAs profile settings edition).edition.pages =
      match (document.composed profile settings edition).getLast? with
      | none => edition.pages
      | some page => edition.pages.insert document.headers.key page.markup := by
  have keyed : ∀ page ∈ document.composed profile settings edition, page.key = document.headers.key :=
    Session.composed_key _ _
  have placed : (document.composed profile settings edition).foldl
      (fun pages page => pages.insert page.key page.markup) edition.pages =
        (document.composed profile settings edition).foldl
          (fun pages page => pages.insert document.headers.key page.markup) edition.pages :=
    List.foldl_ext _ _ _ fun pages page member => by rw [keyed page member]
  rw [renderAs_edition, outcome, Session.run, Session.run_pages]
  refine placed.trans ((Index.foldl_insert document.headers.key Page.markup _ edition.pages).trans ?_)
  cases (document.composed profile settings edition).getLast? <;> rfl

theorem composed_last {page : Page} (rendered : (document.renderAs profile settings edition).result = .ok page) :
    (document.composed profile settings edition).getLast? = some page := by
  obtain ⟨_,kept⟩ := result_eq_ok_iff.mp rendered
  have last := Session.run_output _ _ kept
  rwa [Option.or_none] at last

/-- What a document leaves behind is the page that it composed last, whether or not it was rendered. -/
theorem kept_pages (document : Document) (profile : Profile) (settings : Settings) :
    let rendition := document.renderAs profile settings {}
    let composed := document.composed profile settings {}
    (rendition.edition.pages = ∅ ↔ composed = []) ∧
      (∀ page, composed.getLast? = some page →
        rendition.edition.pages = (∅ : Index String String).insert document.headers.key page.markup) ∧
      ∀ page, rendition.result = .ok page → composed.getLast? = some page := by
  have pages := renderAs_pages document profile settings {}
  refine ⟨?_,?_,fun page rendered => composed_last rendered⟩
  · cases last : (document.composed profile settings {}).getLast? with
    | none =>
      rw [last] at pages
      exact iff_of_true pages (List.getLast?_eq_none_iff.mp last)
    | some page =>
      rw [last] at pages
      refine iff_of_false ?_ ?_
      · rw [pages]
        exact Index.insert_ne_empty _ _ _
      · intro nothing
        simp [nothing] at last
  · intro page last
    rw [pages, last]

/-- Where nothing follows the end of the main sequence, a document that fails leaves nothing. -/
theorem pages_of_failed {failure : Failure}
    (last : ∀ before path event behind, document.acts profile = before ++ .take path event :: behind →
      event.kind = .sequenceEnd → event.sequence = .main → behind = [])
    (failed : (document.renderAs profile settings edition).result = .error failure) :
    (document.renderAs profile settings edition).edition.pages = edition.pages := by
  have pages := renderAs_pages document profile settings edition
  cases composed : (document.composed profile settings edition).getLast? with
  | none => rwa [composed] at pages
  | some page =>
    obtain ⟨before,path,event,behind,split,ends,main,composes⟩ :=
      Session.composed_split (List.mem_of_getLast? composed)
    -- the act that composed was the last one, so that the run ends well and with its page
    rw [last before path event behind split ends main] at split
    obtain ⟨_,_,output,fine⟩ := Session.step_of_composes composes
    have rendered : (document.renderAs profile settings edition).result = .ok page := by
      rw [result_eq_ok_iff, outcome, split, Session.run_concat]
      exact ⟨fine,output⟩
    rw [rendered] at failed
    cases failed

/-- A block is closed that was never opened, after the end of the main sequence. -/
def overrun : Document where
  headers := ⟨"MRK",none,none,none,none,none⟩
  events := [.documentStart, .blockStart .main "blockTag/p", .word .main "verily",
    .blockEnd .main "blockTag/p", .sequenceEnd .main, .blockEnd .main "blockTag/p"]

theorem failed_leaves_page :
    ¬∀ (document : Document) (profile : Profile) (settings : Settings) (failure : Failure),
      (document.renderAs profile settings {}).result = .error failure →
        (document.renderAs profile settings {}).edition.pages = ∅ := by
  intro claimed
  have unfolded : overrun.acts .canonical = overrun.events.map (.take []) :=
    Graft.unfold_of_ungrafted [] (by decide)
  have failed : (overrun.renderAs .canonical {} {}).result = .error .stackUnderflow := by
    have fails : (overrun.outcome .canonical {} {}).failure = some .stackUnderflow := by
      rw [outcome, unfolded]
      decide +kernel
    rw [renderAs_eq, fails]
  have kept : (overrun.outcome .canonical {} {}).edition.pages ≠ ∅ := by
    rw [outcome, unfolded]
    decide +kernel
  rw [← renderAs_edition] at kept
  exact kept (claimed overrun .canonical {} .stackUnderflow failed)

end Document
end Scriptorium
