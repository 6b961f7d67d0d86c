import Mathlib.Data.List.Infix
import Scriptorium.Proofs.Runs
import Scriptorium.Proofs.Steps

/-! Inline markup as trees. The events of a tree are rendered with rows that are opened and
closed; the text that comes of it, and what is remarked, is a recursion over the tree. -/
namespace Scriptorium

/-- The path of a span or of a table cell. -/
structure InlinePath where
  text : String
  inline : (Text.startsWith text "span" || Text.startsWith text "cell/") = true

inductive InlineTree
  | token (subType text : String)
  | scope (path : InlinePath) (children : List InlineTree)

/-- What becomes of the content of a scope: a span, a linked word, or the content alone, which
is remarked on when a span has no rule of its own. -/
inductive InlineRole
  | styled (spanClass : String)
  | word
  | silent
  | unhandled

def InlinePath.role (profile : Profile) (path : InlinePath) : InlineRole :=
  if Text.startsWith path.text "cell/" then
    if profile.tableCells then .styled (Draft.cellClass (.scopeEnd .main path.text)) else .silent
  else if (Text.segment? path.text 1).any Rule.characterStyles.contains then
    .styled ((Text.segment? path.text 1).getD "")
  else if profile.glossaryLinks && path.text == "spanWithAtts/w" then .word
  else .unhandled

namespace InlineRole

def marker (settings : Settings) (key : String) : String :=
  match Glossary.marker? settings key with
  | .ok (some marker) => marker
  | _ => ""

def enclose (settings : Settings) (content : String) : InlineRole → String
  | styled spanClass => "<span class=\"" ++ spanClass ++ "\">" ++ content ++ "</span>"
  | word => content ++ marker settings content
  | silent | unhandled => content

def openingRemarks (path : InlinePath) : InlineRole → List String
  | unhandled => ["Unhandled span '" ++ path.text ++ "'"]
  | _ => []

def closingRemarks (settings : Settings) (content : String) : InlineRole → List String
  | word => if settings.terms.contains content then [] else ["Unresolved glossary term '" ++ content ++ "'"]
  | _ => []

theorem enclose_unmarked {settings : Settings} {content : String}
    (unmarked : Glossary.marker? settings content = .ok none) :
    word.enclose settings content = content := by
  have nothing : marker settings content = "" := by
    unfold marker
    rw [unmarked]
  change content ++ marker settings content = content
  rw [nothing, String.append_empty]

theorem enclose_marked {settings : Settings} {content link : String}
    (marked : Glossary.marker? settings content = .ok (some link)) :
    word.enclose settings content = content ++ link := by
  change content ++ marker settings content = content ++ link
  unfold marker
  rw [marked]

end InlineRole

namespace InlineTree

mutual

def flatten (sequence : SequenceKind) : InlineTree → List Event
  | token subType text => [.token sequence subType text]
  | scope path children =>
    .scopeStart sequence path.text :: (flattenAll sequence children ++ [.scopeEnd sequence path.text])

def flattenAll (sequence : SequenceKind) : List InlineTree → List Event
  | [] => []
  | tree :: rest => flatten sequence tree ++ flattenAll sequence rest

end

mutual

theorem flatten_ungrafted (profile : Profile) (sequence : SequenceKind) (tree : InlineTree) :
    ∀ event ∈ flatten sequence tree, Graft.ofEvent? profile event = none := by
  intro event member
  cases tree with
  | token subType text =>
    rw [flatten, List.mem_singleton] at member
    rw [member]
    exact Graft.ofEvent?_eq_none nofun nofun
  | scope path children =>
    rw [flatten, List.mem_cons, List.mem_append, List.mem_singleton] at member
    rcases member with rfl | inside | rfl
    · exact Graft.ofEvent?_eq_none nofun nofun
    · exact flattenAll_ungrafted profile sequence children event inside
    · exact Graft.ofEvent?_eq_none nofun nofun

theorem flattenAll_ungrafted (profile : Profile) (sequence : SequenceKind) (trees : List InlineTree) :
    ∀ event ∈ flattenAll sequence trees, Graft.ofEvent? profile event = none := by
  intro event member
  cases trees with
  | nil => cases member
  | cons tree rest =>
    rw [flattenAll, List.mem_append] at member
    rcases member with first | later
    · exact flatten_ungrafted profile sequence tree event first
    · exact flattenAll_ungrafted profile sequence rest event later

end

mutual

def render (profile : Profile) (settings : Settings) : InlineTree → String
  | token subType text => (Spacing.render settings.layout.frenchSpacing subType text {}).1
  | scope path children =>
    (path.role profile).enclose settings (renderAll profile settings children)

def renderAll (profile : Profile) (settings : Settings) : List InlineTree → String
  | [] => ""
  | tree :: rest => render profile settings tree ++ renderAll profile settings rest

end

mutual

def remarks (profile : Profile) (settings : Settings) : InlineTree → List String
  | token _ _ => []
  | scope path children =>
    (path.role profile).openingRemarks path ++ remarksAll profile settings children ++
      (path.role profile).closingRemarks settings (renderAll profile settings children)

def remarksAll (profile : Profile) (settings : Settings) : List InlineTree → List String
  | [] => []
  | tree :: rest => remarks profile settings tree ++ remarksAll profile settings rest

end

end InlineTree

namespace InlinePath
variable {path : InlinePath} {sequence : SequenceKind}

theorem beginning (path : InlinePath) :
    (∃ rest, path.text.toList = 's' :: rest) ∨ ∃ rest, path.text.toList = 'c' :: 'e' :: rest := by
  have inline := path.inline
  simp only [Text.startsWith, Bool.or_eq_true, List.isPrefixOf_iff_prefix] at inline
  rcases inline with ⟨rest,whole⟩ | ⟨rest,whole⟩
  · exact .inl ⟨_,whole.symm⟩
  · exact .inr ⟨_,whole.symm⟩

/-- Neither a label nor a headword is set by the scopes of spans and cells. -/
theorem labelAfter?_eq_none (path : InlinePath) {stem : String}
    (known : stem ∈ ["chapter", "pubChapter", "altChapter", "verses", "pubVerse"]) :
    Text.labelAfter? path.text stem = none := by
  cases carried : Text.labelAfter? path.text stem with
  | none => rfl
  | some label =>
    obtain ⟨rest,spelled,_⟩ := Option.map_eq_some_iff.mp carried
    rw [List.isPrefixOf?_eq_some_iff_append_eq] at spelled
    simp only [List.mem_cons, List.not_mem_nil, or_false] at known
    rcases path.beginning with ⟨more,whole⟩ | ⟨more,whole⟩ <;>
      rcases known with rfl | rfl | rfl | rfl | rfl <;>
        simp [whole] at spelled

theorem not_startsWith_lemma (path : InlinePath) :
    Text.startsWith path.text "attribute/spanWithAtts/w/lemma" = false := by
  rcases path.beginning with ⟨rest,whole⟩ | ⟨rest,whole⟩ <;>
    simp [Text.startsWith, whole, List.isPrefixOf]

theorem startsWith_span (path : InlinePath) :
    Text.startsWith path.text "span" = !Text.startsWith path.text "cell/" := by
  have inline := path.inline
  rcases path.beginning with ⟨rest,whole⟩ | ⟨rest,whole⟩ <;>
    simp_all [Text.startsWith, List.isPrefixOf]

theorem select_eq (profile : Profile) {event : Event} (kind : event.kind = .scope)
    (payload : event.payload = path.text) :
    Rule.select? profile event =
      if Text.startsWith path.text "cell/" then if profile.tableCells then some .tableCell else none
      else if (Text.segment? path.text 1).any Rule.characterStyles.contains then some .characterSpan
      else if profile.glossaryLinks && path.text == "spanWithAtts/w" then some .glossaryWord
      else some .unhandledSpan := by
  have unlabelled : ∀ stem ∈ ["chapter", "pubChapter", "altChapter", "verses", "pubVerse"],
      Rule.opensLabel event stem = false := by
    intro stem known
    simp [Rule.opensLabel, Event.labelAfter?, payload, path.labelAfter?_eq_none known]
  simp only [List.forall_mem_cons, List.not_mem_nil, false_implies, implies_true, and_true] at unlabelled
  obtain ⟨chapter,pubChapter,altChapter,verses,pubVerse⟩ := unlabelled
  have guarded : ∀ (allowed : Bool) (rules : List Rule) (p : Rule → Bool),
      (if allowed then rules else []).find? p = if allowed then rules.find? p else none := by
    intro allowed rules p
    cases allowed <;> rfl
  simp only [Rule.select?, kind, Rule.forKind, List.find?_append, guarded, List.find?_cons, List.find?_nil,
    Rule.accepts, chapter, pubChapter, altChapter, verses, pubVerse, payload, path.not_startsWith_lemma,
    Rule.isCharacterSpan, Rule.isSpan, path.startsWith_span, Event.segment?, ite_self, Option.none_or,
    Bool.and_false]
  cases cell : Text.startsWith path.text "cell/" with
  | true =>
    have other : (path.text == "spanWithAtts/w") = false := by
      refine beq_eq_false_iff_ne.mpr fun word => ?_
      rw [word] at cell
      exact absurd cell (by decide)
    cases profile.tableCells <;> simp [other]
  | false =>
    cases (Text.segment? path.text 1).any Rule.characterStyles.contains <;>
      cases profile.tableCells <;> cases profile.glossaryLinks <;>
        cases path.text == "spanWithAtts/w" <;> rfl

end InlinePath
namespace Session

/-- A session in which no label waits to be placed. -/
structure IsIdle (session : Session) : Prop where
  started : session.started = true
  chapter : session.draft.chapter.pending = none
  verse : session.draft.verses.pending = none

/-- The session with fragments added to its top row. -/
def extended (session : Session) (fragments : List String) (headword : Option String) : Session :=
  {session with draft := {session.draft with
    rows := {session.draft.rows with top := fragments.foldl Gathering.add session.draft.rows.top}
    headword := headword}}

theorem extended_extended (session : Session) (first second : List String) (middle last : Option String) :
    (session.extended first middle).extended second last = session.extended (first ++ second) last := by
  simp [extended, List.foldl_append]

theorem IsIdle.extended {session : Session} (idle : session.IsIdle) (fragments : List String)
    (headword : Option String) : (session.extended fragments headword).IsIdle :=
  ⟨idle.started,idle.chapter,idle.verse⟩

end Session

def Edition.warnAll (edition : Edition) (document : String) (messages : List String) : Edition :=
  messages.foldl (fun edition message => edition.warn message document) edition

theorem Edition.warnAll_append (edition : Edition) (document : String) (early late : List String) :
    edition.warnAll document (early ++ late) = (edition.warnAll document early).warnAll document late :=
  List.foldl_append

namespace Session
variable {commission : Commission}

/-- Acts that, wherever no label waits, end well and do no more than add a text to the top row
and remark on it; of the headword they make at most none. -/
def Emits (commission : Commission) (acts : List Act) (text : String) (remarks : List String) : Prop :=
  ∀ session edition, session.IsIdle → ∃ fragments headword,
    run commission session edition acts =
      ⟨session.extended fragments headword,
        edition.warnAll commission.headers.bookCode remarks,none⟩ ∧
    String.join fragments = text ∧ (headword = session.draft.headword ∨ headword = none)

theorem Emits.nil : Emits commission [] "" [] :=
  fun session _ _ => ⟨[],session.draft.headword,rfl,rfl,.inl rfl⟩

theorem Emits.append {first second : List Act} {before behind : String} {early late : List String}
    (one : Emits commission first before early) (other : Emits commission second behind late) :
    Emits commission (first ++ second) (before ++ behind) (early ++ late) := by
  intro session edition idle
  obtain ⟨opening,middle,performed,read,between⟩ := one session edition idle
  obtain ⟨ending,last,continued,heard,after⟩ := other (session.extended opening middle)
    (edition.warnAll commission.headers.bookCode early) (idle.extended opening middle)
  refine ⟨opening ++ ending,last,?_,?_,?_⟩
  · unfold run at performed continued ⊢
    rw [List.foldl_append, performed, continued, extended_extended]
    rw [Edition.warnAll_append]
  · rw [String.join_append, read, heard]
  · rcases after with same | forgotten
    · rw [same]
      exact between
    · exact .inr forgotten

theorem join_single (fragment : String) : String.join [fragment] = fragment := by
  rw [String.join_cons, String.join_nil, String.append_empty]

theorem flushPending_idle {session : Session} (idle : session.IsIdle) (event : Event) :
    session.draft.flushPending event = .ok session.draft := by
  unfold Draft.flushPending
  split
  · rw [Draft.flushChapter_of_none idle.chapter]
    exact Draft.flushVerse_of_none idle.verse
  · rfl

theorem spaced_alone {mode : FrenchSpacing} (alone : mode ≠ .change) (subType text : String)
    (row : Gathering String) :
    Spacing.render mode subType text row = ((Spacing.render mode subType text {}).1, row) := by
  unfold Spacing.render
  split
  · rfl
  · cases mode with
    | off => rfl
    | add =>
      cases Spacing.entity? text <;> rfl
    | change => exact absurd rfl alone

theorem Emits.token (alone : commission.settings.layout.frenchSpacing ≠ .change) (path : List String)
    (sequence : SequenceKind) (subType text : String) :
    Emits commission [.take path (.token sequence subType text)]
      (Spacing.render commission.settings.layout.frenchSpacing subType text {}).1 [] := by
  intro session edition idle
  let event := Event.token sequence subType text
  have selected : Rule.select? commission.profile event = some .token :=
    Rule.select_token commission.profile rfl
  have placed := Draft.token_of_flushed (flushPending_idle idle event)
    commission.settings.layout.frenchSpacing
  rw [spaced_alone alone] at placed
  refine ⟨[_],session.draft.headword,?_,join_single _,.inl rfl⟩
  rw [run, List.foldl_cons, List.foldl_nil, step_of_success rfl, perform,
    take_of_select idle.started selected, follow, placed]
  rfl

/-- The text of a row is what has been added to it since it was opened. -/
theorem pop_extended (opened : Session) {rows : Rows} (pushed : opened.draft.rows = rows.push)
    (fragments : List String) (headword : Option String) :
    (opened.extended fragments headword).draft.rows.pop = .ok (String.join fragments, rows) := by
  have added : ∀ gathering : Gathering String,
      (fragments.foldl Gathering.add gathering).toList = gathering.toList ++ fragments := by
    induction fragments with
    | nil => simp
    | cons fragment rest ih =>
      intro gathering
      simp [ih]
  have read : (fragments.foldl Gathering.add {}).toList = fragments := added {}
  simp only [extended, pushed, Rows.push, Rows.pop, read]

section Scopes
variable {path : List String} {opening closing : Event} {acts : List Act} {text : String}
variable {remarks : List String}

theorem element_span (spanClass content : String) :
    Text.element "span" [("class", spanClass)] content =
      "<span class=\"" ++ spanClass ++ "\">" ++ content ++ "</span>" := by
  apply String.toList_injective
  simp [Text.element, Text.attributes]

theorem run_enclosed {session : Session} {edition : Edition} {opened : Session} {early : Edition}
    (first : take commission opening session edition = ⟨opened,early,none⟩)
    {inner : Session} {late : Edition} (inside : run commission opened early acts = ⟨inner,late,none⟩) :
    run commission session edition (.take path opening :: (acts ++ [.take path closing])) =
      take commission closing inner late := by
  unfold run at inside ⊢
  rw [List.foldl_cons, List.foldl_append, step_of_success rfl, perform, first, inside, List.foldl_cons,
    List.foldl_nil, step_of_success rfl, perform]

/-- A scope that opens a row, and closes it into a span. -/
theorem Emits.styled {spanClass : String} (inside : Emits commission acts text remarks)
    (opens : ∀ session edition, session.started = true → take commission opening session edition =
      ⟨{session with draft := session.draft.openRow},edition,none⟩)
    (closes : ∀ session edition, session.started = true → take commission closing session edition =
      session.edited edition (session.draft.closeSpan spanClass)) :
    Emits commission (.take path opening :: (acts ++ [.take path closing]))
      ("<span class=\"" ++ spanClass ++ "\">" ++ text ++ "</span>") remarks := by
  intro session edition idle
  let opened : Session := {session with draft := session.draft.openRow}
  have ready : opened.IsIdle := ⟨idle.started,idle.chapter,idle.verse⟩
  obtain ⟨fragments,headword,performed,read,word⟩ := inside opened edition ready
  have popped := pop_extended opened rfl fragments headword
  refine ⟨[_],headword,?_,(join_single _).trans (element_span spanClass text),word⟩
  rw [run_enclosed (opens _ _ idle.started) performed, closes (opened.extended _ _) _ idle.started,
    Draft.closeSpan, Draft.closing_of_pop popped, read]
  rfl

/-- A word: its text, and the link to its entry when it has one. -/
theorem Emits.word (complete : commission.settings.Complete) (inside : Emits commission acts text remarks)
    (opens : ∀ session edition, session.started = true → take commission opening session edition =
      startWord session edition)
    (closes : ∀ session edition, session.started = true → take commission closing session edition =
      endWord commission session edition) :
    Emits commission (.take path opening :: (acts ++ [.take path closing]))
      (InlineRole.word.enclose commission.settings text)
      (remarks ++ InlineRole.word.closingRemarks commission.settings text) := by
  intro session edition idle
  let opened : Session := {session with draft := {session.draft.openRow with headword := none}}
  have ready : opened.IsIdle := ⟨idle.started,idle.chapter,idle.verse⟩
  obtain ⟨fragments,headword,performed,read,word⟩ := inside opened edition ready
  have forgotten : headword = none := word.elim id id
  subst forgotten
  have popped := pop_extended opened rfl fragments none
  rw [read] at popped
  have key : (opened.extended fragments none).draft.headword.getD text = text := rfl
  rw [run_enclosed (opens _ _ idle.started) performed, closes (opened.extended _ _) _ idle.started, endWord]
  simp only [popped, key]
  cases found : commission.settings.terms.find? text with
  | none =>
    have marked : Glossary.marker? commission.settings text = .ok none := by
      simp [Glossary.marker?, found]
    refine ⟨[text],none,?_,?_,.inr rfl⟩
    · simp only [marked, InlineRole.closingRemarks, Index.contains, found, Option.isSome_none,
        Bool.false_eq_true, if_false, Edition.warnAll_append]
      rfl
    · rw [join_single, InlineRole.enclose_unmarked marked]
  | some entry =>
    obtain ⟨aside,placed⟩ := complete text entry found
    have marked : Glossary.marker? commission.settings text = .ok (some (Glossary.link aside)) := by
      simp [Glossary.marker?, found, placed]
    refine ⟨[text, Glossary.link aside],none,?_,?_,.inr rfl⟩
    · simp only [marked, InlineRole.closingRemarks, Index.contains, found, Option.isSome_some, if_true,
        List.append_nil]
      rfl
    · rw [String.join_cons, join_single, InlineRole.enclose_marked marked]

/-- An event without text of its own. -/
theorem Emits.quiet (event : Event) (taken : ∀ session edition, session.started = true →
      take commission event session edition =
        ⟨session,edition.warnAll commission.headers.bookCode remarks,none⟩) :
    Emits commission [.take path event] "" remarks := by
  intro session edition idle
  refine ⟨[],session.draft.headword,?_,rfl,.inl rfl⟩
  rw [run, List.foldl_cons, List.foldl_nil, step_of_success rfl, perform, taken _ _ idle.started]
  rfl

/-- A scope whose content stands alone. -/
theorem Emits.bare {early : List String} (inside : Emits commission acts text remarks)
    (opens : ∀ session edition, session.started = true → take commission opening session edition =
      ⟨session,edition.warnAll commission.headers.bookCode early,none⟩)
    (closes : ∀ session edition, session.started = true → take commission closing session edition =
      ⟨session,edition,none⟩) :
    Emits commission (.take path opening :: (acts ++ [.take path closing])) text
      (early ++ remarks ++ []) := by
  have ended : Emits commission [.take path closing] "" [] := .quiet closing closes
  simpa using ((Emits.quiet opening opens).append inside).append ended

theorem Emits.scope (complete : commission.settings.Complete) (sequence : SequenceKind)
    (place : InlinePath) (inside : Emits commission acts text remarks) :
    Emits commission
      (.take path (.scopeStart sequence place.text) ::
        (acts ++ [.take path (.scopeEnd sequence place.text)]))
      ((place.role commission.profile).enclose commission.settings text)
      ((place.role commission.profile).openingRemarks place ++ remarks ++
        (place.role commission.profile).closingRemarks commission.settings text) := by
  have opens : Rule.select? commission.profile (.scopeStart sequence place.text) = _ :=
    place.select_eq commission.profile rfl rfl
  have closes : Rule.select? commission.profile (.scopeEnd sequence place.text) = _ :=
    place.select_eq commission.profile rfl rfl
  unfold InlinePath.role
  by_cases cell : Text.startsWith place.text "cell/" = true
  · rw [if_pos cell] at opens closes ⊢
    by_cases tables : commission.profile.tableCells = true
    · rw [if_pos tables] at opens closes ⊢
      simp only [InlineRole.openingRemarks, InlineRole.closingRemarks, List.nil_append, List.append_nil]
      refine inside.styled (fun session edition started => ?_) fun session edition started => ?_
      · rw [take_of_select started opens]
        rfl
      · rw [take_of_select started closes]
        rfl
    · rw [if_neg tables] at opens closes ⊢
      exact inside.bare (fun session edition started => take_of_unselected started opens)
        fun session edition started => take_of_unselected started closes
  · rw [if_neg cell] at opens closes ⊢
    by_cases styled : (Text.segment? place.text 1).any Rule.characterStyles.contains = true
    · rw [if_pos styled] at opens closes ⊢
      simp only [InlineRole.openingRemarks, InlineRole.closingRemarks, List.nil_append, List.append_nil]
      refine inside.styled (fun session edition started => ?_) fun session edition started => ?_
      · rw [take_of_select started opens]
        rfl
      · rw [take_of_select started closes]
        rfl
    · rw [if_neg styled] at opens closes ⊢
      by_cases word : (commission.profile.glossaryLinks && place.text == "spanWithAtts/w") = true
      · rw [if_pos word] at opens closes ⊢
        refine inside.word complete (fun session edition started => ?_) fun session edition started => ?_
        · rw [take_of_select started opens]
          rfl
        · rw [take_of_select started closes]
          rfl
      · rw [if_neg word] at opens closes ⊢
        refine inside.bare (fun session edition started => ?_) fun session edition started => ?_
        · rw [take_of_select started opens]
          rfl
        · rw [take_of_select started closes]
          rfl

end Scopes

mutual

theorem emits_tree (complete : commission.settings.Complete)
    (alone : commission.settings.layout.frenchSpacing ≠ .change) (sequence : SequenceKind)
    (path : List String) (tree : InlineTree) :
    Emits commission ((tree.flatten sequence).map (.take path))
      (tree.render commission.profile commission.settings)
      (tree.remarks commission.profile commission.settings) := by
  cases tree with
  | token subType text => exact .token alone path sequence subType text
  | scope place children =>
    have inside := emits_trees complete alone sequence path children
    rw [InlineTree.flatten, List.map_cons, List.map_append, List.map_cons, List.map_nil,
      InlineTree.render, InlineTree.remarks]
    exact .scope complete sequence place inside

theorem emits_trees (complete : commission.settings.Complete)
    (alone : commission.settings.layout.frenchSpacing ≠ .change) (sequence : SequenceKind)
    (path : List String) (trees : List InlineTree) :
    Emits commission ((InlineTree.flattenAll sequence trees).map (.take path))
      (InlineTree.renderAll commission.profile commission.settings trees)
      (InlineTree.remarksAll commission.profile commission.settings trees) := by
  cases trees with
  | nil => exact .nil
  | cons tree rest =>
    have first := emits_tree complete alone sequence path tree
    have others := emits_trees complete alone sequence path rest
    rw [InlineTree.flattenAll, List.map_append, InlineTree.renderAll, InlineTree.remarksAll]
    exact first.append others

end

theorem performAll_flattenAll (complete : commission.settings.Complete)
    (alone : commission.settings.layout.frenchSpacing ≠ .change) (sequence : SequenceKind)
    (path : List String) (trees : List InlineTree) {session : Session} (started : session.started = true)
    (noChapter : session.draft.chapter.pending = none) (noVerse : session.draft.verses.pending = none)
    (edition : Edition) :
    ∃ fragments headword,
      performAll commission path ⟨session,edition,none⟩ (InlineTree.flattenAll sequence trees) =
        ⟨session.extended fragments headword,
          edition.warnAll commission.headers.bookCode
            (InlineTree.remarksAll commission.profile commission.settings trees),none⟩ ∧
      String.join fragments = InlineTree.renderAll commission.profile commission.settings trees ∧
      (headword = session.draft.headword ∨ headword = none) := by
  rw [performAll_eq_foldl, Graft.unfold_of_ungrafted path (InlineTree.flattenAll_ungrafted _ sequence trees)]
  exact emits_trees complete alone sequence path trees session edition ⟨started,noChapter,noVerse⟩

def glossed : Commission where
  profile := .canonical
  settings := ({} : Settings).withTerm "grace" 7 "g7"
  headers := ⟨"MRK",none,none,none,none,none⟩

/-- A linked word within an emphasis. -/
def emphasis : List InlineTree :=
  [.scope ⟨"span/em",by decide⟩
    [.token "wordLike" "by ", .scope ⟨"spanWithAtts/w",by decide⟩ [.token "wordLike" "grace"]]]

theorem glossed_complete : glossed.settings.Complete := by
  intro term entry found
  have member : (term, entry) ∈ [("grace", (7 : UInt32))] := Index.mem_of_find? found
  cases List.mem_singleton.mp member
  exact ⟨"g7",by decide⟩

theorem performAll_emphasis : ∃ fragments headword,
    performAll glossed [] ⟨{started := true},{},none⟩ (InlineTree.flattenAll .main emphasis) =
      ⟨({started := true} : Session).extended fragments headword,{},none⟩ ∧
    String.join fragments = "<span class=\"em\">by grace<a epub:type=\"noteref\" class=\"glossaryLink\" " ++
      "href=\"../glossary_notes.xhtml#glo_g7\">*</a></span>" := by
  have started : ({started := true} : Session).started = true := rfl
  obtain ⟨fragments,headword,performed,read,_⟩ := performAll_flattenAll glossed_complete (by decide)
    .main [] emphasis started rfl rfl {}
  have silent : InlineTree.remarksAll glossed.profile glossed.settings emphasis = [] := by decide +kernel
  rw [silent] at performed
  exact ⟨fragments,headword,performed,read.trans (by decide +kernel)⟩

end Session
end Scriptorium
