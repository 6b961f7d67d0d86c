import Mathlib.Data.List.Induction
import Scriptorium.Proofs.ReplayStack
import Scriptorium.Proofs.SharedEdition

/-! Settings made by one choice after the other. A term is never entered without the aside of its entry, and no
later choice takes an aside away, so that in no run a word is found whose entry lacks one. -/
namespace Scriptorium
namespace Settings

/-- One choice of a reader. -/
inductive Choice
  | frenchSpacing (spacing : FrenchSpacing)
  | direction (side : Direction)
  | term (name : String) (entry : UInt32) (aside : String)
  | reversedBook (book : String)
  | customCss (chosen : Bool)
  deriving DecidableEq, Repr

namespace Choice

def apply (settings : Settings) : Choice → Settings
  | frenchSpacing spacing => settings.withFrenchSpacing spacing
  | direction side => settings.withDirection side
  | term name entry aside => settings.withTerm name entry aside
  | reversedBook book => settings.withReversedBook book
  | customCss chosen => settings.withCustomCss chosen

/-- The entry that a choice gives to a term. -/
def entryOf? (key : String) : Choice → Option UInt32
  | term name entry _ => if key = name then some entry else none
  | _ => none

/-- The aside that a choice gives to an entry. -/
def asideOf? (number : UInt32) : Choice → Option String
  | term _ entry aside => if number = entry then some aside else none
  | _ => none

end Choice

/-- The settings after a list of choices. -/
def chosen (choices : List Choice) : Settings := choices.foldl Choice.apply {}

def lastNumber? (choices : List Choice) (term : String) : Option UInt32 :=
  (choices.filterMap (Choice.entryOf? term)).getLast?

def lastAside? (choices : List Choice) (entry : UInt32) : Option String :=
  (choices.filterMap (Choice.asideOf? entry)).getLast?

theorem chosen_concat (choices : List Choice) (choice : Choice) :
    chosen (choices ++ [choice]) = choice.apply (chosen choices) :=
  List.foldl_concat ..

theorem find?_apply (settings : Settings) (choice : Choice) (term : String) (entry : UInt32) :
    (choice.apply settings).terms.find? term = (choice.entryOf? term).or (settings.terms.find? term) ∧
      (choice.apply settings).asides.find? entry = (choice.asideOf? entry).or (settings.asides.find? entry) := by
  cases choice with
  | term known number aside =>
    simp only [Choice.apply, withTerm, Index.find?_insert, Choice.entryOf?, Choice.asideOf?]
    constructor <;> split <;> rfl
  | frenchSpacing | direction | reversedBook | customCss => exact ⟨rfl,rfl⟩

/-- The last choice for a term or an entry is the one that counts. -/
theorem find?_chosen (choices : List Choice) (term : String) (entry : UInt32) :
    (chosen choices).terms.find? term = lastNumber? choices term ∧
      (chosen choices).asides.find? entry = lastAside? choices entry := by
  induction choices using List.reverseRecOn with
  | nil => exact ⟨rfl,rfl⟩
  | append_singleton choices choice ih =>
    obtain ⟨terms,asides⟩ := find?_apply (chosen choices) choice term entry
    rw [chosen_concat, terms, asides, ih.1, ih.2, lastNumber?, lastNumber?, lastAside?, lastAside?]
    simp only [List.filterMap_append, List.getLast?_append]
    constructor
    · cases given : choice.entryOf? term <;> simp [given]
    · cases given : choice.asideOf? entry <;> simp [given]

theorem Complete.apply {settings : Settings} (complete : settings.Complete) (choice : Choice) :
    (choice.apply settings).Complete := by
  intro term entry listed
  cases choice with
  | term known number aside =>
    simp only [Choice.apply, withTerm, Index.find?_insert] at listed ⊢
    by_cases own : entry = number
    · exact ⟨aside,if_pos own⟩
    · rw [if_neg own]
      split at listed
      · exact absurd (Option.some.inj listed).symm own
      · exact complete term entry listed
  | frenchSpacing | direction | reversedBook | customCss => exact complete term entry listed

theorem chosen_complete (choices : List Choice) : (chosen choices).Complete := by
  induction choices using List.reverseRecOn with
  | nil => exact fun _ _ listed => by cases listed
  | append_singleton choices choice ih =>
    rw [chosen_concat]
    exact ih.apply choice

end Settings

/-- The failure for a word whose entry has no aside. -/
def Failure.IsLack (failure : Failure) : Prop := ∃ entry, failure = .missingGlossaryAside entry

namespace Session
variable {commission : Commission} {session : Session} {edition : Edition} {event : Event}

theorem endWord_explained (complete : commission.settings.Complete) {failure : Failure}
    (failed : (endWord commission session edition).failure = some failure) : ¬failure.IsLack := by
  rintro ⟨entry,rfl⟩
  cases popped : session.draft.rows.pop with
  | error cause =>
    obtain ⟨_,rfl⟩ := (Rows.pop_eq_error_iff _ _).mp popped
    simp [endWord, popped] at failed
  | ok row =>
    have looksUp := endWord_looksUp commission edition popped
    generalize endWord commission session edition = result at failed looksUp
    cases looksUp with
    | linked | unlisted => cases failed
    | unexplained listed unexplained =>
      obtain ⟨aside,placed⟩ := complete _ _ listed
      cases placed.symm.trans unexplained

theorem follow_explained (complete : commission.settings.Complete) {rule : Rule} {failure : Failure}
    (failed : (follow commission event session edition rule).failure = some failure) : ¬failure.IsLack := by
  have closing {next : String → Draft → Draft} (closed : session.draft.closing next = .error failure) :
      ¬failure.IsLack := by
    rintro ⟨entry,rfl⟩
    cases Draft.closing_failure closed
  cases rule with
  | startDocument | followBlockGraft | startBlock | glossaryLemma | noteGraft | separateIntroduction => cases failed
  | chapter | pubChapter | altChapter | verses | pubVerse => cases edited_failure failed
  | endTitleBlock | endHeadingBlock | endNoteBlock | endParagraphBlock =>
    have closed := edited_failure failed
    simp only [Draft.closeTitle, Draft.closeHeading, Draft.closeNote, Draft.closeParagraph] at closed
    exact closing closed
  | characterSpan | tableCell =>
    have closed := edited_failure failed
    simp only [Draft.characterSpan, Draft.tableCell, Draft.closeSpan] at closed
    split at closed
    · cases closed
    · exact closing closed
  | glossaryWord =>
    simp only [follow] at failed
    split at failed
    · cases failed
    · exact endWord_explained complete failed
  | unhandledSpan =>
    simp only [follow, unhandledSpan] at failed
    split at failed <;> cases failed
  | token =>
    obtain ⟨later,placed⟩ := Draft.token_succeeds session.draft commission.settings.layout.frenchSpacing event
    cases placed.symm.trans (edited_failure failed)
  | composeDocument =>
    simp only [follow, compose] at failed
    split at failed
    · cases failed
    · cases failed
      rintro ⟨entry,other⟩
      cases other

theorem take_explained (complete : commission.settings.Complete) {failure : Failure}
    (failed : (take commission event session edition).failure = some failure) : ¬failure.IsLack := by
  unfold take at failed
  split at failed
  next =>
    split at failed
    next => exact follow_explained complete failed
    next => cases failed
  next =>
    cases failed
    rintro ⟨entry,other⟩
    cases other

/-- Nothing that has failed so far has failed for want of an aside. -/
def Explained (outcome : Outcome) : Prop := ∀ failure, outcome.failure = some failure → ¬failure.IsLack

theorem Explained.step (complete : commission.settings.Complete) {outcome : Outcome} (explained : Explained outcome)
    {act : Act} (grafts : ∀ failure, act = .refuse failure → ¬failure.IsLack) :
    Explained (step commission outcome act) := by
  intro failure failed
  by_cases fine : outcome.failure = none
  · rw [step_of_success fine] at failed
    cases act with
    | take path event => exact take_explained complete failed
    | refuse cause => cases failed; exact grafts failure rfl
    | closeNote => cases failed
  · have stays : Session.step commission outcome act = outcome :=
      foldl_step_of_failure commission outcome (Option.isSome_iff_ne_none.mpr fine) [act]
    rw [stays] at failed
    exact explained failure failed

theorem Explained.refuse (complete : commission.settings.Complete) {outcome : Outcome} (explained : Explained outcome)
    {cause : Failure} (other : ∀ entry, cause ≠ .missingGlossaryAside entry) :
    Explained (Session.step commission outcome (.refuse cause)) := by
  refine explained.step complete fun failure refused => ?_
  cases refused
  rintro ⟨entry,lack⟩
  exact other entry lack

theorem Explained.performAll (complete : commission.settings.Complete) (path : List String) (events : List Event)
    {outcome : Outcome} (explained : Explained outcome) :
    Explained (performAll commission path outcome events) := by
  induction path, events using Graft.unfold_induction commission.profile commission.sequences
    generalizing outcome with
  | nil path => rwa [Session.performAll]
  | cons path event rest ih within =>
    rw [performAll_cons]
    refine ih ?_
    have taken : Explained (Session.step commission outcome (.take path event)) :=
      explained.step complete fun _ refused => by cases refused
    generalize Session.step commission outcome (.take path event) = outcome at taken
    cases made : Graft.ofEvent? commission.profile event with
    | none => rwa [Graft.after_of_none made]
    | some graft =>
      by_cases inside : graft.target ∈ path
      · rw [Graft.after_of_cycle made inside]
        exact taken.refuse complete fun _ lack => by cases lack
      cases found : commission.sequences.find? graft.target with
      | none =>
        rw [Graft.after_of_missing made inside found]
        exact taken.refuse complete fun _ lack => by cases lack
      | some inner =>
        rw [Graft.after_of_found made inside found, List.foldl_append, ← performAll_eq_foldl]
        have replayed := within graft inner made inside found taken
        cases graft with
        | block target => exact replayed
        | note target => exact replayed.step complete fun _ refused => by cases refused

end Session

/-- Whatever is chosen, no document and no event of a session fails for want of an aside; a word is linked to the
aside that was given last to the entry that was given last to it. -/
theorem Settings.chosen_never_lacks (choices : List Settings.Choice) :
    (∀ (document : Document) profile edition entry,
      (document.renderAs profile (chosen choices) edition).result ≠ .error (.missingGlossaryAside entry)) ∧
    (∀ profile headers sequences event session edition entry,
      (Session.dispatch ⟨profile,chosen choices,headers,sequences⟩ event session edition).failure ≠
        some (.missingGlossaryAside entry)) ∧
    ∀ key, Glossary.marker? (chosen choices) key =
      .ok (((lastNumber? choices key).bind (lastAside? choices)).map Glossary.link) := by
  have complete := chosen_complete choices
  refine ⟨fun document profile edition entry failed => ?_,?_,fun key => ?_⟩
  · have explained : Session.Explained
        (Session.performAll (document.commission profile (chosen choices)) [] ⟨{},edition,none⟩ document.events) :=
      .performAll complete [] document.events fun _ none => by cases none
    unfold Document.renderAs at failed
    simp only at failed
    split at failed
    next failure stopped =>
      cases failed
      exact explained _ stopped ⟨entry,rfl⟩
    next =>
      unfold Session.finish at failed
      split at failed <;> cases failed
  · intro profile headers sequences event session edition entry failed
    have explained : Session.Explained
        (Session.performAll ⟨profile,chosen choices,headers,sequences⟩ [] ⟨session,edition,none⟩ [event]) :=
      .performAll complete [] [event] fun _ none => by cases none
    exact explained _ failed ⟨entry,rfl⟩
  · obtain ⟨marker,found⟩ := complete.marker key
    rw [found]
    unfold Glossary.marker? at found
    simp only [(find?_chosen choices key 0).1, (find?_chosen choices key _).2] at found
    cases listed : lastNumber? choices key with
    | none =>
      rw [listed] at found
      cases found
      rfl
    | some entry =>
      rw [listed] at found
      cases explained : lastAside? choices entry with
      | none => simp [explained] at found
      | some aside =>
        simp only [explained] at found
        cases found
        simp [explained]

end Scriptorium
