import Mathlib.Data.List.Find
import Scriptorium.Proofs.Inlining
import Scriptorium.Proofs.RuleOrder

/-! Labels left out. A profile without chapters and verses passes over the scopes that set labels; so it
renders a document as a profile that has both would, were those scopes not in the document. -/
namespace Scriptorium

/-- A scope that sets a label of a chapter or of a verse. -/
def Event.setsLabel (event : Event) : Bool :=
  event.kind == .scope && event.opensScope &&
    ["chapter/", "pubChapter/", "altChapter/", "verses/", "pubVerse/"].any (Text.startsWith event.payload)

def Event.unlabelled (events : List Event) : List Event := events.filter fun event => !event.setsLabel

def Document.unlabelled (document : Document) : Document :=
  {document with
    events := Event.unlabelled document.events
    sequences := document.sequences.map Event.unlabelled}

def Profile.labelled (profile : Profile) : Profile := {profile with chapters := true, verses := true}

def Commission.unlabelled (commission : Commission) : Commission :=
  {commission with
    profile := commission.profile.labelled
    sequences := commission.sequences.map Event.unlabelled}

namespace Rule
variable {profile : Profile} {event : Event} {rule : Rule}

def labels : List Rule := [chapter, pubChapter, altChapter, verses, pubVerse]

theorem accepts_label (label : rule ∈ labels) :
    accepts profile event rule = (event.opensScope && Text.startsWith event.payload rule.stem) := by
  simp only [labels, List.mem_cons, List.not_mem_nil, or_false] at label
  rcases label with rfl | rfl | rfl | rfl | rfl <;>
    simp only [accepts, opensLabel, Event.labelAfter?, Text.labelAfter?_isSome] <;> rfl

theorem setsLabel_iff (profile : Profile) : event.setsLabel = true ↔
    event.kind = .scope ∧ ∃ rule ∈ labels, accepts profile event rule = true := by
  have stems : (["chapter/", "pubChapter/", "altChapter/", "verses/", "pubVerse/"] : List String) =
      labels.map stem := rfl
  simp only [Event.setsLabel, stems, List.any_map, Bool.and_eq_true, beq_iff_eq, List.any_eq_true,
    Function.comp_apply]
  constructor
  · rintro ⟨⟨scope,opens⟩,rule,label,begins⟩
    exact ⟨scope,rule,label,by rw [accepts_label label, opens, begins]; rfl⟩
  · rintro ⟨scope,rule,label,accepted⟩
    rw [accepts_label label, Bool.and_eq_true] at accepted
    exact ⟨⟨scope,accepted.1⟩,rule,label,accepted.2⟩

section Unlabelled
variable (unnumbered : profile.chapters = false) (unversed : profile.verses = false)
include unnumbered unversed

theorem forKind_unlabelled (kind : EventKind) :
    forKind profile kind = (forKind profile.labelled kind).filter fun rule => !labels.contains rule := by
  cases kind with
  | scope =>
    cases glossed : profile.glossaryLinks <;> cases celled : profile.tableCells <;>
      simp [forKind, Profile.labelled, unnumbered, unversed, glossed, celled, labels]
  | sequenceEnd =>
    cases separated : profile.introductionSeparator <;>
      simp [forKind, Profile.labelled, separated, labels]
  | documentStart | blockGraft | inlineGraft | blockStart | blockEnd | token => rfl

theorem select_of_label (sets : event.setsLabel = true) : select? profile event = none := by
  obtain ⟨scope,label,listed,accepted⟩ := (setsLabel_iff profile).mp sets
  have apart : ∀ label ∈ labels, label.kind = .scope ∧
      ∀ rule ∈ ofKind .scope, rule.stem = label.stem → rule ∈ labels := by decide
  obtain ⟨kind,stems⟩ := apart label listed
  rw [select?, List.find?_eq_none]
  intro rule member also
  have own : rule.kind = .scope := (kind_of_mem_forKind member).trans scope
  have inside : rule ∈ labels :=
    stems rule (own ▸ mem_ofKind rule) (stem_of_accepts own kind also accepted)
  rw [forKind_unlabelled unnumbered unversed, List.mem_filter] at member
  simp [inside] at member

theorem select_labelled (plain : event.setsLabel = false) :
    select? profile.labelled event = select? profile event := by
  have other : ∀ rule ∈ forKind profile.labelled event.kind, accepts profile event rule = true →
      rule ∉ labels := by
    intro rule member accepted label
    have scope : event.kind = .scope := by
      have kinds : ∀ label ∈ labels, label.kind = .scope := by decide
      exact (kind_of_mem_forKind member).symm.trans (kinds rule label)
    simp [(setsLabel_iff profile).mpr ⟨scope,rule,label,accepted⟩] at plain
  have same : accepts profile.labelled event = accepts profile event := by
    funext rule
    cases rule <;> rfl
  rw [select?, select?, forKind_unlabelled unnumbered unversed, List.find?_filter, ← same]
  refine List.find?_congr fun rule member => ?_
  cases accepted : accepts profile.labelled event rule with
  | false => simp
  | true => simp [other rule member accepted]

end Unlabelled
end Rule

theorem Index.find?_map {α β : Type} (f : α → β) (index : Index String α) (key : String) :
    (index.map f).find? key = (index.find? key).map f := by
  obtain ⟨entries,ascending⟩ := index
  change lookup key (entries.map fun entry => (entry.1, f entry.2)) = (lookup key entries).map f
  clear ascending
  induction entries with
  | nil => rfl
  | cons entry rest ih =>
    rw [List.map_cons, lookup, lookup]
    split
    · rfl
    · split
      · exact ih
      · rfl

/-- An event that sets a label is taken. -/
def Act.setsLabel : Act → Bool
  | .take _ event => event.setsLabel
  | .refuse _ | .closeNote => false

namespace Graft
variable {profile : Profile} {sequences : Index String (List Event)}
variable (unnumbered : profile.chapters = false) (unversed : profile.verses = false)
include unnumbered unversed

theorem ofEvent?_labelled (event : Event) : ofEvent? profile.labelled event = ofEvent? profile event := by
  cases sets : event.setsLabel with
  | false => rw [ofEvent?, ofEvent?, Rule.select_labelled unnumbered unversed sets]
  | true =>
    have scope := ((Rule.setsLabel_iff profile).mp sets).1
    rw [ofEvent?_eq_none (by simp [scope]) (by simp [scope]), ofEvent?_eq_none (by simp [scope]) (by simp [scope])]

/-- Without the scopes that set labels, grafts unfold to the same acts but for those that take such a scope. -/
theorem unfold_unlabelled (path : List String) (events : List Event) :
    unfold profile.labelled (sequences.map Event.unlabelled) path (Event.unlabelled events) =
      (unfold profile sequences path events).filter fun act => !act.setsLabel := by
  induction path, events using unfold_induction profile sequences with
  | nil path => simp [Event.unlabelled]
  | cons path event rest ih within =>
    have brought : after profile.labelled (sequences.map Event.unlabelled) path event =
        (after profile sequences path event).filter fun act => !act.setsLabel := by
      cases made : ofEvent? profile event with
      | none =>
        rw [after_of_none made, after_of_none ((ofEvent?_labelled unnumbered unversed event).trans made)]
        rfl
      | some graft =>
        by_cases inside : graft.target ∈ path
        · simp [after, ofEvent?_labelled unnumbered unversed, made, inside, Act.setsLabel]
        · cases found : sequences.find? graft.target with
          | none =>
            simp [after, ofEvent?_labelled unnumbered unversed, made, inside, Index.find?_map, found,
              Act.setsLabel]
          | some inner =>
            have closed : graft.closing.filter (fun act => !act.setsLabel) = graft.closing := by
              cases graft <;> rfl
            rw [after_of_found made inside found, List.filter_append, closed,
              ← within graft inner made inside found]
            exact after_of_found ((ofEvent?_labelled unnumbered unversed event).trans made) inside
              (by rw [Index.find?_map, found]; rfl)
    cases sets : event.setsLabel with
    | true =>
      have scope := ((Rule.setsLabel_iff profile).mp sets).1
      have ungrafted : ofEvent? profile event = none := ofEvent?_eq_none (by simp [scope]) (by simp [scope])
      have dropped : Event.unlabelled (event :: rest) = Event.unlabelled rest := by
        simp [Event.unlabelled, sets]
      rw [dropped, unfold_cons, after_of_none ungrafted, ih]
      simp [Act.setsLabel, sets]
    | false =>
      have kept : Event.unlabelled (event :: rest) = event :: Event.unlabelled rest := by
        simp [Event.unlabelled, sets]
      rw [kept, unfold_cons, unfold_cons, ih, brought, List.filter_cons, List.filter_append]
      simp [Act.setsLabel, sets]

end Graft

namespace Session
variable {commission : Commission} (unnumbered : commission.profile.chapters = false)
variable (unversed : commission.profile.verses = false)
include unnumbered unversed

theorem take_without_labels {event : Event} (plain : event.setsLabel = false) (session : Session)
    (edition : Edition) :
    take commission.unlabelled event session edition = take commission event session edition := by
  have selected : Rule.select? commission.unlabelled.profile event = Rule.select? commission.profile event :=
    Rule.select_labelled unnumbered unversed plain
  unfold take
  rw [selected]
  split
  · cases Rule.select? commission.profile event with
    | none => rfl
    | some rule => cases rule <;> rfl
  · rfl

theorem step_of_label {outcome : Outcome} (started : outcome.session.started = true) {act : Act}
    (sets : act.setsLabel = true) : step commission outcome act = outcome := by
  cases act with
  | refuse failure | closeNote => cases sets
  | take path event =>
    cases fine : outcome.failure with
    | some failure => simp [step, fine]
    | none =>
      rw [step_of_success fine, perform,
        take_of_unselected started (Rule.select_of_label unnumbered unversed sets), ← fine]

theorem step_without_labels (outcome : Outcome) {act : Act} (plain : act.setsLabel = false) :
    step commission.unlabelled outcome act = step commission outcome act := by
  cases fine : outcome.failure with
  | some failure => simp [step, fine]
  | none =>
    rw [step_of_success fine, step_of_success fine]
    cases act with
    | refuse failure | closeNote => rfl
    | take path event => exact take_without_labels unnumbered unversed plain _ _

theorem foldl_without_labels {outcome : Outcome} (started : outcome.session.started = true) (acts : List Act) :
    (acts.filter fun act => !act.setsLabel).foldl (step commission.unlabelled) outcome =
      acts.foldl (step commission) outcome := by
  induction acts generalizing outcome with
  | nil => rfl
  | cons act rest ih =>
    rw [List.foldl_cons]
    cases sets : act.setsLabel with
    | true =>
      rw [step_of_label unnumbered unversed started sets, ← ih started]
      simp [sets]
    | false =>
      have next : (step commission outcome act).session.started = true := by
        unfold step
        split
        · exact perform_started started _ act
        · exact started
      rw [← ih next, ← step_without_labels unnumbered unversed outcome sets]
      simp [sets]

end Session

namespace Document
variable {document : Document} {profile : Profile}

theorem outcome_unlabelled (unnumbered : profile.chapters = false) (unversed : profile.verses = false)
    {start : Event} {rest : List Event} (events : document.events = start :: rest)
    (starts : start.kind = .documentStart) (settings : Settings) (edition : Edition) :
    document.unlabelled.outcome profile.labelled settings edition =
      document.outcome profile settings edition := by
  let commission := document.commission profile settings
  have plain : Act.setsLabel (.take [] start) = false := by simp [Act.setsLabel, Event.setsLabel, starts]
  have acts : document.unlabelled.acts profile.labelled =
      (document.acts profile).filter fun act => !act.setsLabel :=
    Graft.unfold_unlabelled unnumbered unversed [] document.events
  obtain ⟨others,first⟩ : ∃ others, document.acts profile = .take [] start :: others := by
    rw [Document.acts, events, Graft.unfold_cons]
    exact ⟨_,rfl⟩
  have begun : (Session.step commission ⟨{},edition,none⟩ (.take [] start)).session.started = true := by
    rw [Session.step_of_success rfl, Session.perform, Session.take_start starts]
    rfl
  rw [outcome, outcome, acts, first, List.filter_cons_of_pos (by simp [plain]), Session.run, Session.run,
    List.foldl_cons, List.foldl_cons]
  have stepped : Session.step commission.unlabelled ⟨{},edition,none⟩ (.take [] start) =
      Session.step commission ⟨{},edition,none⟩ (.take [] start) :=
    Session.step_without_labels unnumbered unversed _ plain
  have onward : (others.filter fun act => !act.setsLabel).foldl (Session.step commission.unlabelled)
      (Session.step commission ⟨{},edition,none⟩ (.take [] start)) =
        others.foldl (Session.step commission) (Session.step commission ⟨{},edition,none⟩ (.take [] start)) :=
    Session.foldl_without_labels unnumbered unversed begun others
  exact (congrArg (List.foldl _ · _) stepped).trans onward

/-- Without chapters and verses a document is rendered as it is with them when no scope in it sets a label:
with the same result and the same edition, whatever it comes to. -/
theorem renderAs_unlabelled (unnumbered : profile.chapters = false) (unversed : profile.verses = false)
    {start : Event} {rest : List Event} (events : document.events = start :: rest)
    (starts : start.kind = .documentStart) (settings : Settings) (edition : Edition) :
    document.renderAs profile settings edition =
      document.unlabelled.renderAs profile.labelled settings edition := by
  rw [renderAs_eq, renderAs_eq, outcome_unlabelled unnumbered unversed events starts settings edition]
  rfl

/-- Chapters and verses in a text and in its note. -/
def numbered : Document where
  headers := ⟨"XXA",none,none,none,none,some "Preface"⟩
  profile := .peripheral
  events := [.documentStart, .scopeStart .main "chapter/1", .blockStart .main "blockTag/p",
    .scopeStart .main "verses/1", .word .main "verily", .inlineGraft .main "footnote" "note",
    .scopeEnd .main "verses/1", .blockEnd .main "blockTag/p", .sequenceEnd .main]
  sequences := .ofList [
    ("note", [.blockStart .footnote "blockTag/f", .scopeStart .footnote "pubVerse/1a", .word .footnote "truly",
      .blockEnd .footnote "blockTag/f"])]

theorem renderAs_numbered : numbered.unlabelled = {numbered with
      events := [.documentStart, .blockStart .main "blockTag/p", .word .main "verily",
        .inlineGraft .main "footnote" "note", .scopeEnd .main "verses/1", .blockEnd .main "blockTag/p",
        .sequenceEnd .main]
      sequences := .ofList [
        ("note", [.blockStart .footnote "blockTag/f", .word .footnote "truly",
          .blockEnd .footnote "blockTag/f"])]} ∧
    numbered.renderAs .peripheral {} {} =
      numbered.unlabelled.renderAs {Profile.peripheral with chapters := true, verses := true} {} {} := by
  have unnumbered : Profile.peripheral.chapters = false := rfl
  exact ⟨by decide +kernel,renderAs_unlabelled unnumbered rfl rfl rfl {} {}⟩

end Document
end Scriptorium
