import Scriptorium.Proofs.Markup
import Scriptorium.Proofs.Runs
import Scriptorium.Proofs.Steps

/-! Pages are nested markup, whatever the order of the events. Each fragment of a draft is nested
by itself, so that a row gives nested markup also to an end that belongs to another start. -/
namespace Scriptorium

theorem lineBreak_nested : Nested "<br/>" := by
  have spelled : "<" ++ "br" ++ "" ++ "" ++ "/>" = "<br/>" := by decide
  exact spelled ▸ .closed (by decide) .nil (.inl rfl)

theorem ruler_nested : Nested "<hr/>\n" := by
  have spelled : "<" ++ "hr" ++ "" ++ "" ++ "/>" ++ "\n" = "<hr/>\n" := by decide
  exact spelled ▸ .append (.closed (by decide) .nil (.inl rfl)) (IsPlain.nested (by decide))

def ChapterLink.IsPlain (link : ChapterLink) : Prop :=
  Scriptorium.IsPlain link.id ∧ Scriptorium.IsPlain link.label

structure PendingChapter.IsPlain (pending : PendingChapter) : Prop where
  primary : Scriptorium.IsPlain pending.primary
  display : Scriptorium.IsPlain pending.display
  annotation : ∀ annotation ∈ pending.annotation, Scriptorium.IsPlain annotation

namespace PendingChapter
variable {pending : PendingChapter}

theorem IsPlain.link (plain : pending.IsPlain) : pending.label.link.IsPlain := by
  refine ⟨?_,plain.display⟩
  unfold ChapterLabel.link label
  split
  · exact plain.primary
  · exact (plain.primary.append (by decide)).append (isPlain_toString _)

theorem IsPlain.heading (plain : pending.IsPlain) : Nested pending.label.heading := by
  have anchored : Scriptorium.IsPlain ("chapter_" ++ pending.label.id) :=
    IsPlain.append (by decide) plain.link.1
  have headed : ∀ shown, Nested shown → Nested (Text.element "h3"
      [("id", "chapter_" ++ pending.label.id), ("class", "chapter")]
      (Text.element "a" [("href", "#top")] shown) ++ "\n") := by
    intro shown inside
    have linked : Nested (Text.element "a" [("href", "#top")] shown) :=
      .tagged (by decide) (by decide) inside
    exact .append (.tagged (by decide) (clean_cons (by decide) anchored (by decide)) linked)
      (IsPlain.nested (by decide))
  refine headed _ ?_
  cases noted : pending.annotation with
  | none =>
    simp only [label, noted]
    exact plain.display.nested
  | some annotation =>
    simp only [label, noted]
    have added := plain.annotation annotation (by simp [noted])
    have bracketed : Scriptorium.IsPlain ("(" ++ annotation ++ ")") :=
      (IsPlain.append (by decide) added).append (by decide)
    exact (plain.display.nested.append lineBreak_nested).append
      (.tagged (by decide) (by decide) bracketed.nested)

end PendingChapter

theorem VerseTracker.marker_nested {label : String} (plain : IsPlain label) :
    Nested (marker label) :=
  .append (.tagged (by decide) (by decide) plain.nested) (.text (by decide))

theorem Notes.anchor_nested (notes : Notes) : Nested notes.anchor := by
  have number := isPlain_toString notes.next
  refine .tagged (by decide) ?_ (.tagged (by decide) (by decide) number.nested)
  refine clean_cons (by decide) (by decide) ?_
  refine clean_cons (by decide) (IsPlain.append (by decide) number) ?_
  exact clean_cons (by decide) (IsPlain.append (by decide) number) (by decide)

theorem Glossary.marker_nested {settings : Settings} {key marker : String}
    (asides : ∀ entry, ∀ aside ∈ settings.asides.find? entry, IsPlain aside)
    (marked : marker? settings key = .ok (some marker)) : Nested marker := by
  unfold marker? at marked
  split at marked
  next => cases marked
  next entry _ =>
    split at marked
    next => cases marked
    next aside found =>
      cases marked
      have reference : IsPlain ("../glossary_notes.xhtml#glo_" ++ aside) :=
        IsPlain.append (by decide) (asides entry aside found)
      refine .tagged (by decide) ?_ (IsPlain.nested (by decide))
      refine clean_cons (by decide) (by decide) (clean_cons (by decide) (by decide) ?_)
      exact clean_cons (by decide) reference (by decide)

/-- A draft of nested fragments, whose waiting labels and links are plain. -/
structure Draft.IsNested (draft : Draft) : Prop where
  rows : ∀ row ∈ draft.rows.top :: draft.rows.below, ∀ fragment ∈ row.toList, Nested fragment
  head : ∀ fragment ∈ draft.head, Nested fragment
  bodyHead : ∀ fragment ∈ draft.bodyHead.toList, Nested fragment
  body : ∀ fragment ∈ draft.body.toList, Nested fragment
  notes : ∀ entry ∈ draft.notes.entries, Nested entry.2
  chapter : ∀ pending ∈ draft.chapter.pending, pending.IsPlain
  verse : ∀ label ∈ draft.verses.pending, IsPlain label
  links : ∀ link ∈ draft.chapters.toList, link.IsPlain

namespace Draft
variable {draft : Draft}

theorem nested_add {gathering : Gathering String} {fragment : String}
    (each : ∀ other ∈ gathering.toList, Nested other) (nested : Nested fragment) :
    ∀ other ∈ (gathering.add fragment).toList, Nested other := by
  intro other member
  rw [Gathering.toList_add, List.mem_append, List.mem_singleton] at member
  rcases member with earlier | rfl
  · exact each other earlier
  · exact nested

theorem nested_retouch {gathering : Gathering String} {change : String → String}
    (each : ∀ other ∈ gathering.toList, Nested other)
    (kept : ∀ fragment, Nested fragment → Nested (change fragment)) :
    ∀ other ∈ (gathering.retouch change).toList, Nested other := by
  obtain ⟨fragments⟩ := gathering
  cases fragments with
  | nil => exact each
  | cons newest older =>
    intro other member
    simp only [Gathering.retouch, Gathering.toList, List.mem_reverse, List.mem_cons] at member each
    rcases member with rfl | earlier
    · exact kept newest (each newest (.inl rfl))
    · exact each other (.inr earlier)

theorem IsNested.initial {head : List String} (each : ∀ fragment ∈ head, Nested fragment) :
    ({head := head} : Draft).IsNested where
  rows := by simp [Gathering.toList]
  head := each
  bodyHead := by simp [Gathering.toList]
  body := by simp [Gathering.toList]
  notes := by simp
  chapter := by simp
  verse := by simp
  links := by simp [Gathering.toList]

theorem IsNested.append (nested : draft.IsNested) {fragment : String} (added : Nested fragment) :
    (draft.append fragment).IsNested := by
  refine {nested with rows := ?_}
  exact List.forall_mem_cons.mpr ⟨nested_add (nested.rows _ (by simp)) added,
    fun row member => nested.rows row (List.mem_cons_of_mem _ member)⟩

theorem IsNested.openRow (nested : draft.IsNested) : draft.openRow.IsNested := by
  refine {nested with rows := ?_}
  intro row member
  rcases List.mem_cons.mp member with rfl | lower
  · exact fun _ none => by cases none
  · exact nested.rows row lower

theorem IsNested.addBody (nested : draft.IsNested) {fragment : String} (added : Nested fragment) :
    ({draft with body := draft.body.add fragment} : Draft).IsNested :=
  {nested with body := nested_add nested.body added}

/-- A row closes to nested text, and the draft below it stays nested. -/
theorem IsNested.of_pop (nested : draft.IsNested) {content : String} {rows : Rows}
    (closed : draft.rows.pop = .ok (content, rows)) :
    Nested content ∧ ({draft with rows := rows} : Draft).IsNested := by
  obtain ⟨⟨top,below⟩,_⟩ := draft
  cases below with
  | nil => cases closed
  | cons next below =>
    cases closed
    refine ⟨.join (nested.rows top (by simp)),{nested with rows := ?_}⟩
    exact fun row member => nested.rows row (List.mem_cons_of_mem _ member)

theorem IsNested.closing (nested : draft.IsNested) {next : String → Draft → Draft}
    (kept : ∀ content rest, Nested content → rest.IsNested → (next content rest).IsNested)
    {result : Draft} (closed : draft.closing next = .ok result) : result.IsNested := by
  obtain ⟨content,rows,popped,rfl⟩ := closing_eq_ok closed
  obtain ⟨inside,below⟩ := nested.of_pop popped
  exact kept content _ inside below

theorem block_nested {tag spanClass content : String} (named : IsName tag) (plain : IsPlain spanClass)
    (inside : Nested content) : Nested (block tag spanClass content) := by
  refine .append (.tagged named ?_ inside.trim) (IsPlain.nested (by decide))
  exact clean_cons (by decide) plain (by decide)

theorem IsNested.closeTitle (nested : draft.IsNested) {event : Event}
    (plain : IsPlain (blockClass event)) {result : Draft} (closed : draft.closeTitle event = .ok result) :
    result.IsNested := by
  unfold Draft.closeTitle at closed
  refine IsNested.closing nested ?_ closed
  intro content rest inside below
  have named : IsName (if blockClass event == "mt" || blockClass event == "ms" then "h1" else "h2") := by
    split <;> decide
  exact {below with bodyHead := nested_add below.bodyHead (block_nested named plain inside)}

theorem IsNested.closeHeading (nested : draft.IsNested) {event : Event}
    (plain : IsPlain (blockClass event)) {result : Draft}
    (closed : draft.closeHeading event = .ok result) : result.IsNested := by
  unfold Draft.closeHeading at closed
  refine IsNested.closing nested ?_ closed
  intro content rest inside below
  have named : IsName (if blockClass event == "s" || blockClass event == "is" then "h3" else "h4") := by
    split <;> decide
  exact below.addBody (block_nested named plain inside)

theorem IsNested.closeParagraph (nested : draft.IsNested) {event : Event}
    (plain : IsPlain (blockClass event)) {result : Draft}
    (closed : draft.closeParagraph event = .ok result) : result.IsNested :=
  nested.closing (fun _ _ inside below => below.addBody (block_nested (by decide) plain inside)) closed

theorem IsNested.closeSpan (nested : draft.IsNested) {spanClass : String} (plain : IsPlain spanClass)
    {result : Draft} (closed : draft.closeSpan spanClass = .ok result) : result.IsNested := by
  refine nested.closing (fun content rest inside below => below.append ?_) closed
  exact .tagged (by decide) (clean_cons (by decide) plain (by decide)) inside

theorem cellClass_plain (event : Event) : IsPlain (cellClass event) := by
  unfold cellClass
  refine IsPlain.append ?_ ?_ <;> split <;> decide

theorem characterStyle_plain {event : Event} (character : Rule.isCharacterSpan event = true) :
    IsPlain ((event.segment? 1).getD "") := by
  have styles : ∀ style ∈ Rule.characterStyles, IsPlain style := by decide
  simp only [Rule.isCharacterSpan, Bool.and_eq_true] at character
  cases shown : event.segment? 1 with
  | none => decide
  | some style =>
    rw [shown] at character
    exact styles style (List.contains_iff_mem.mp character.2)

theorem IsNested.characterSpan (nested : draft.IsNested) {event : Event}
    (character : Rule.isCharacterSpan event = true) {result : Draft}
    (placed : draft.characterSpan event = .ok result) : result.IsNested := by
  unfold Draft.characterSpan at placed
  split at placed
  · cases placed
    exact nested.openRow
  · exact nested.closeSpan (characterStyle_plain character) placed

theorem IsNested.tableCell (nested : draft.IsNested) {event : Event} {result : Draft}
    (placed : draft.tableCell event = .ok result) : result.IsNested := by
  unfold Draft.tableCell at placed
  split at placed
  · cases placed
    exact nested.openRow
  · exact nested.closeSpan (cellClass_plain event) placed

theorem extend_nested {entries : List (Nat × String)} {number : Nat} {text : String}
    (each : ∀ entry ∈ entries, Nested entry.2) (added : Nested text) :
    ∀ entry ∈ Notes.extend number text entries, Nested entry.2 := by
  induction entries with
  | nil => simpa [Notes.extend] using added
  | cons first others ih =>
    obtain ⟨here,later⟩ := List.forall_mem_cons.mp each
    unfold Notes.extend
    split
    · exact List.forall_mem_cons.mpr ⟨here.append added,later⟩
    · exact List.forall_mem_cons.mpr ⟨here,ih later⟩

theorem IsNested.closeNote (nested : draft.IsNested) {result : Draft}
    (closed : draft.closeNote = .ok result) : result.IsNested := by
  refine IsNested.closing nested ?_ closed
  intro content rest inside below
  have noted : ∀ entry ∈ (rest.notes.collect content).entries, Nested entry.2 := by
    rw [Notes.entries_collect]
    exact extend_nested below.notes inside
  exact {below with notes := noted}

theorem IsNested.flushPending (nested : draft.IsNested) (event : Event) :
    ∃ flushed, draft.flushPending event = .ok flushed ∧ flushed.IsNested := by
  refine flushPending_keeps ?_ ?_ nested event
  · intro other pending waiting nested
    have plain := nested.chapter pending waiting
    refine {nested with
      body := nested_add nested.body plain.heading
      chapter := fun _ none => by cases none
      links := ?_}
    intro link member
    rw [Gathering.toList_add, List.mem_append, List.mem_singleton] at member
    rcases member with earlier | rfl
    · exact nested.links link earlier
    · exact plain.link
  · intro other label waiting nested
    have idle : ({other with verses := {other.verses with pending := none}} : Draft).IsNested :=
      {nested with verse := fun _ none => by cases none}
    exact idle.append (VerseTracker.marker_nested (nested.verse label waiting))

theorem entity_nested {text entity : String} (special : Spacing.entity? text = some entity) :
    Nested entity ∧ Nested text := by
  unfold Spacing.entity? at special
  split at special
  next mark =>
    cases special
    refine ⟨.text (by decide),IsPlain.nested ?_⟩
    simp only [Bool.or_eq_true, beq_iff_eq] at mark
    rcases mark with (rfl | rfl) | rfl <;> decide
  next =>
    split at special
    next mark =>
      cases special
      refine ⟨.text (by decide),IsPlain.nested ?_⟩
      simp only [Bool.or_eq_true, beq_iff_eq] at mark
      rcases mark with rfl | rfl <;> decide
    next => cases special

theorem spaced_nested {mode : FrenchSpacing} (escaped : mode ≠ .add) (subType text : String)
    {row : Gathering String} (each : ∀ fragment ∈ row.toList, Nested fragment) :
    Nested (Spacing.render mode subType text row).1 ∧
      ∀ fragment ∈ (Spacing.render mode subType text row).2.toList, Nested fragment := by
  have space : Nested " " := IsPlain.nested (by decide)
  unfold Spacing.render
  split
  · exact ⟨space,each⟩
  · cases mode with
    | off => exact ⟨.escape text,each⟩
    | add => exact absurd rfl escaped
    | change =>
      cases special : Spacing.entity? text with
      | none => exact ⟨.escape text,each⟩
      | some entity =>
        obtain ⟨inserted,shown⟩ := entity_nested special
        exact ⟨shown,nested_retouch each fun _ nested => Nested.respaceEnd inserted nested⟩

theorem IsNested.token (nested : draft.IsNested) {mode : FrenchSpacing} (escaped : mode ≠ .add)
    {event : Event} {result : Draft} (placed : draft.token mode event = .ok result) :
    result.IsNested := by
  obtain ⟨flushed,ready,clean⟩ := nested.flushPending event
  rw [token_of_flushed ready] at placed
  cases placed
  obtain ⟨shown,kept⟩ := spaced_nested escaped event.subType event.payload
    (clean.rows flushed.rows.top (by simp))
  refine {clean with rows := ?_}
  intro row member
  rcases List.mem_cons.mp member with rfl | lower
  · exact nested_add kept shown
  · exact clean.rows row (List.mem_cons_of_mem _ lower)

end Draft

namespace Composition
variable {parts : Composition}

theorem newline_nested : Nested "\n" := IsPlain.nested (by decide)

theorem framed_nested {content : String} (inside : Nested content) :
    Nested ("\n" ++ content ++ "\n") :=
  (newline_nested.append inside).append newline_nested

theorem chapterLink_nested {href label : String} (reference : IsPlain href) (shown : IsPlain label) :
    Nested (Page.chapterLink href label) := by
  refine .tagged (by decide) (by decide) (.tagged (by decide) ?_ shown.nested)
  exact clean_cons (by decide) reference (by decide)

theorem navigation_nested (plain : ∀ links ∈ parts.chapters, ∀ link ∈ links, link.IsPlain) :
    Nested parts.navigation := by
  have nothing : Nested "" := IsPlain.nested (by decide)
  have top : Nested (Page.chapterLink "../../toc.xhtml" "^") :=
    chapterLink_nested (by decide) (by decide)
  unfold navigation
  split
  next => exact nothing
  next => exact nothing
  next chapters _ given =>
    have each : ∀ fragment ∈ chapters.map (fun chapter =>
        " " ++ Page.chapterLink ("#chapter_" ++ chapter.id) chapter.label), Nested fragment := by
      intro fragment member
      obtain ⟨link,listed,rfl⟩ := List.mem_map.mp member
      obtain ⟨id,label⟩ := plain chapters given link listed
      have space : Nested " " := IsPlain.nested (by decide)
      exact space.append (chapterLink_nested (IsPlain.append (by decide) id) label)
    exact .append (.tagged (by decide) (by decide) (top.append (.join each))) newline_nested

theorem asides_nested {notes : Notes} (each : ∀ entry ∈ notes.entries, Nested entry.2) :
    Nested notes.asides := by
  refine .join fun fragment member => ?_
  obtain ⟨⟨number,text⟩,listed,rfl⟩ := List.mem_map.mp member
  have id : IsPlain ("footnote_" ++ toString number) :=
    IsPlain.append (by decide) (isPlain_toString number)
  have paragraph : Nested (Text.element "p" [] text) :=
    .tagged (by decide) (by decide) (each _ listed)
  refine .append (.tagged (by decide) ?_ paragraph) newline_nested
  exact clean_cons (by decide) (by decide) (clean_cons (by decide) id (by decide))

end Composition

def Page.IsNested (page : Page) : Prop :=
  ∃ rest, page.markup = "<!DOCTYPE html>\n" ++ rest ∧ Nested rest

theorem Page.styleSheet_nested {href : String} (plain : IsPlain href) : Nested (styleSheet href) := by
  have listed : Attributes (Text.attributes [("type", "text/css"), ("rel", "stylesheet"), ("href", href)]) := by
    refine attributes_of_pairs (clean_cons (by decide) (by decide) ?_)
    exact clean_cons (by decide) (by decide) (clean_cons (by decide) plain (by decide))
  have tag : Nested ("<" ++ "link" ++ _ ++ " " ++ "/>") := .closed (by decide) listed (.inr rfl)
  have line := tag.append Composition.newline_nested
  have spelled : "<" ++ "link" = "<link" := by decide
  have ending : " " ++ ("/>" ++ "\n") = " />\n" := by decide
  rw [spelled, String.append_assoc, String.append_assoc, ending] at line
  exact line

theorem Page.head_nested (profile : Profile) (settings : Settings) (title : String) :
    ∀ fragment ∈ head profile settings title, Nested fragment := by
  have charset : Nested "<meta charset=\"utf-8\"/>\n" := by
    have spelled : "<" ++ "meta" ++ (" " ++ "charset" ++ "=\"" ++ "utf-8" ++ "\"" ++ "") ++ "" ++ "/>" ++ "\n" =
        "<meta charset=\"utf-8\"/>\n" := by decide
    have listed := Attributes.cons (by decide : IsName "charset") (by decide : IsPlain "utf-8") .nil
    exact spelled ▸ .append (.closed (by decide) listed (.inl rfl)) Composition.newline_nested
  have titled : Nested (Text.element "title" [] (Text.escape title)) :=
    .tagged (by decide) (by decide) (.escape title)
  intro fragment member
  simp only [head, List.mem_append, List.mem_cons, List.not_mem_nil, or_false] at member
  rcases member with ((rfl | rfl) | custom) | rfl
  · exact charset
  · exact styleSheet_nested (by decide)
  · split at custom
    · rw [List.mem_singleton.mp custom]
      exact styleSheet_nested (by decide)
    · cases custom
  · exact titled

namespace Session

theorem pageBody_nested (commission : Commission) {draft : Draft} (nested : draft.IsNested) :
    Nested (composition commission draft).pageBody := by
  have navigation : Nested (composition commission draft).navigation := by
    refine Composition.navigation_nested fun links given link listed => nested.links link ?_
    simp only [composition] at given
    split at given
    next => cases given; exact listed
    next => cases given
  have header : Nested (Text.element "header" [] ("\n" ++ String.join draft.bodyHead.toList ++ "\n")) :=
    .tagged (by decide) (by decide) (Composition.framed_nested (.join nested.bodyHead))
  have matter : Nested (Text.element "section" [("epub:type", "bodymatter")]
      ("\n" ++ String.join draft.body.toList ++ "\n")) :=
    .tagged (by decide) (by decide) (Composition.framed_nested (.join nested.body))
  have newline := Composition.newline_nested
  exact .tagged (by decide) (by decide)
    ((((((newline.append navigation).append header).append newline).append matter).append newline).append
      (Composition.asides_nested nested.notes))

theorem page_nested (commission : Commission) {draft : Draft} (nested : draft.IsNested) :
    (page commission draft).IsNested := by
  have head : Nested (Text.element "head" [] ("\n" ++ String.join draft.head ++ "\n")) :=
    .tagged (by decide) (by decide) (Composition.framed_nested (.join nested.head))
  have newline := Composition.newline_nested
  have inside := (((newline.append head).append newline).append (pageBody_nested commission nested)).append
    newline
  have direction : IsPlain (composition commission draft).direction.name := by
    cases (composition commission draft).direction <;> decide
  refine ⟨_,String.append_assoc ..,.append (.tagged (by decide) ?_ inside) newline⟩
  refine clean_cons (by decide) (by decide) (clean_cons (by decide) (by decide) ?_)
  exact clean_cons (by decide) direction (by decide)

end Session

structure Session.IsNested (session : Session) : Prop where
  draft : session.draft.IsNested
  output : ∀ page ∈ session.output, page.IsNested

/-- Labels and block classes that hold no markup. -/
structure Event.IsPlain (event : Event) : Prop where
  labels : event.kind = .scope → event.opensScope = true →
    ∀ stem ∈ ["chapter", "pubChapter", "altChapter", "verses", "pubVerse"],
      ∀ label ∈ event.labelAfter? stem, Scriptorium.IsPlain label
  blockClass : event.kind = .blockEnd → Scriptorium.IsPlain (Draft.blockClass event)

instance (event : Event) : Decidable event.IsPlain :=
  decidable_of_iff (_ ∧ _) ⟨fun ⟨labels,blockClass⟩ => ⟨labels,blockClass⟩,
    fun ⟨labels,blockClass⟩ => ⟨labels,blockClass⟩⟩

theorem Event.IsPlain.label {event : Event} (plain : event.IsPlain) (kind : event.kind = .scope)
    {stem : String} (opens : Rule.opensLabel event stem = true)
    (known : stem ∈ ["chapter", "pubChapter", "altChapter", "verses", "pubVerse"]) (label : String)
    (carried : label ∈ event.labelAfter? stem) : Scriptorium.IsPlain label := by
  rw [Rule.opensLabel, Bool.and_eq_true] at opens
  exact plain.labels kind opens.1 stem known label carried

namespace Session
variable {commission : Commission} {session : Session} {edition : Edition}

theorem IsNested.edited (nested : session.IsNested) {result : Except Failure Draft}
    (kept : ∀ draft, result = .ok draft → draft.IsNested) :
    (session.edited edition result).session.IsNested := by
  cases result with
  | error failure => exact nested
  | ok draft => exact ⟨kept draft rfl,nested.output⟩

theorem IsNested.append (nested : session.IsNested) {fragment : String} (added : Nested fragment) :
    (session.edited edition (.ok (session.draft.append fragment))).session.IsNested :=
  ⟨nested.draft.append added,nested.output⟩

theorem start_nested (commission : Commission) (edition : Edition) :
    (start commission edition).session.IsNested :=
  ⟨.initial (Page.head_nested _ _ _),fun _ none => by cases none⟩

theorem IsNested.label (nested : session.IsNested) {event : Event} {stem : String}
    {place : Draft → String → Draft}
    (kept : ∀ label ∈ event.labelAfter? stem, (place session.draft label).IsNested) :
    (session.label edition event stem place).session.IsNested := by
  unfold Session.label
  cases carried : event.labelAfter? stem with
  | none => exact nested
  | some label => exact ⟨kept label carried,nested.output⟩

theorem IsNested.endWord (nested : session.IsNested)
    (asides : ∀ entry, ∀ aside ∈ commission.settings.asides.find? entry, IsPlain aside) :
    (endWord commission session edition).session.IsNested := by
  unfold Session.endWord
  cases popped : session.draft.rows.pop with
  | error failure => exact nested
  | ok row =>
    obtain ⟨inside,below⟩ := nested.draft.of_pop popped
    have closed := below.append inside
    simp only
    cases marked : Glossary.marker? commission.settings (session.draft.headword.getD row.1) with
    | error failure => exact ⟨closed,nested.output⟩
    | ok marker =>
      cases marker with
      | none => exact ⟨closed,nested.output⟩
      | some marker => exact ⟨closed.append (Glossary.marker_nested asides marked),nested.output⟩

theorem follow_nested (asides : ∀ entry, ∀ aside ∈ commission.settings.asides.find? entry, IsPlain aside)
    (escaped : commission.settings.layout.frenchSpacing ≠ .add) {event : Event} (plain : event.IsPlain)
    {rule : Rule} (selected : Rule.select? commission.profile event = some rule)
    (nested : session.IsNested) : (follow commission event session edition rule).session.IsNested := by
  have kind := Rule.kind_of_select selected
  have accepted := Rule.accepts_of_select selected
  cases rule with
  | startDocument => exact start_nested commission edition
  | followBlockGraft => exact nested
  | startBlock => exact ⟨nested.draft.openRow,nested.output⟩
  | endTitleBlock =>
    exact nested.edited fun draft closed => nested.draft.closeTitle (plain.blockClass kind) closed
  | endHeadingBlock =>
    exact nested.edited fun draft closed => nested.draft.closeHeading (plain.blockClass kind) closed
  | endNoteBlock => exact nested.edited fun draft closed => nested.draft.closeNote closed
  | endParagraphBlock =>
    exact nested.edited fun draft closed => nested.draft.closeParagraph (plain.blockClass kind) closed
  | chapter =>
    refine nested.label fun label carried => {nested.draft with chapter := ?_}
    have shown := plain.label kind accepted (by simp) label carried
    rintro pending ⟨⟩
    exact ⟨shown,shown,fun _ none => by cases none⟩
  | pubChapter =>
    refine nested.label fun label carried => {nested.draft with chapter := ?_}
    have shown := plain.label kind accepted (by simp) label carried
    intro pending waiting
    obtain ⟨old,idle,rfl⟩ := Option.map_eq_some_iff.mp waiting
    exact {nested.draft.chapter old idle with display := shown}
  | altChapter =>
    refine nested.label fun label carried => {nested.draft with chapter := ?_}
    have shown := plain.label kind accepted (by simp) label carried
    intro pending waiting
    obtain ⟨old,idle,rfl⟩ := Option.map_eq_some_iff.mp waiting
    refine {nested.draft.chapter old idle with annotation := ?_}
    rintro annotation ⟨⟩
    exact shown
  | verses =>
    refine nested.label fun label carried => {nested.draft with verse := ?_}
    rintro waiting ⟨⟩
    exact plain.label kind accepted (by simp) label carried
  | pubVerse =>
    refine nested.label fun label carried => {nested.draft with verse := ?_}
    intro waiting changed
    obtain ⟨old,_,rfl⟩ := Option.map_eq_some_iff.mp changed
    exact plain.label kind accepted (by simp) label carried
  | glossaryLemma => exact ⟨{nested.draft with},nested.output⟩
  | characterSpan => exact nested.edited fun draft placed => nested.draft.characterSpan accepted placed
  | tableCell => exact nested.edited fun draft placed => nested.draft.tableCell placed
  | glossaryWord =>
    simp only [follow]
    split
    · exact ⟨{nested.draft.openRow with},nested.output⟩
    · exact nested.endWord asides
  | unhandledSpan =>
    simp only [follow, unhandledSpan]
    split <;> exact nested
  | token => exact nested.edited fun draft placed => nested.draft.token escaped placed
  | noteGraft => exact nested.append (Notes.anchor_nested _)
  | composeDocument =>
    simp only [follow, compose]
    split
    · refine ⟨nested.draft,?_⟩
      rintro composed ⟨⟩
      exact page_nested commission nested.draft
    · exact nested
  | separateIntroduction => exact ⟨nested.draft.addBody ruler_nested,nested.output⟩

theorem take_nested (asides : ∀ entry, ∀ aside ∈ commission.settings.asides.find? entry, IsPlain aside)
    (escaped : commission.settings.layout.frenchSpacing ≠ .add) {event : Event} (plain : event.IsPlain)
    (nested : session.IsNested) : (take commission event session edition).session.IsNested := by
  unfold take
  split
  · cases selected : Rule.select? commission.profile event with
    | none => exact nested
    | some rule => exact follow_nested asides escaped plain selected nested
  · exact nested

theorem run_nested (asides : ∀ entry, ∀ aside ∈ commission.settings.asides.find? entry, IsPlain aside)
    (escaped : commission.settings.layout.frenchSpacing ≠ .add) {acts : List Act}
    (plain : ∀ path event, .take path event ∈ acts → event.IsPlain) {outcome : Outcome}
    (nested : outcome.session.IsNested) : (acts.foldl (step commission) outcome).session.IsNested := by
  refine kept_by_run nested fun act member session edition nested => ?_
  cases act with
  | take path event => exact take_nested asides escaped (plain path event member) nested
  | refuse failure => exact nested
  | closeNote => exact ⟨{nested.draft with},nested.output⟩

end Session

namespace Document

def Holds (document : Document) (event : Event) : Prop :=
  event ∈ document.events ∨
    ∃ name events, document.sequences.find? name = some events ∧ event ∈ events

theorem markup_nested {document : Document} {settings : Settings}
    (escaped : settings.layout.frenchSpacing ≠ .add)
    (asides : ∀ entry, ∀ aside ∈ settings.asides.find? entry, IsPlain aside)
    (plain : ∀ event, document.Holds event → event.IsPlain) {profile : Profile} {edition : Edition}
    {page : Page} (rendered : (document.renderAs profile settings edition).result = .ok page) :
    ∃ rest, page.markup = "<!DOCTYPE html>\n" ++ rest ∧ Nested rest := by
  obtain ⟨_,composed⟩ := result_eq_ok_iff.mp rendered
  have initial : Session.IsNested {} := ⟨.initial (by simp),fun _ none => by cases none⟩
  have taken : ∀ path event, .take path event ∈ document.acts profile → event.IsPlain := by
    intro path event member
    exact plain event (Graft.mem_of_reaches (Graft.reaches_of_take_mem [] _ member))
  have finished : (document.outcome profile settings edition).session.IsNested :=
    Session.run_nested asides escaped taken initial
  exact finished.output page composed

/-- A block that ends within a span. -/
def crossed : Document where
  headers := ⟨"MRK",none,none,none,none,none⟩
  events := [.documentStart, .blockStart .main "blockTag/p", .scopeStart .main "span/em",
    .word .main "<b>", .blockEnd .main "blockTag/p", .scopeEnd .main "span/em", .sequenceEnd .main]

theorem crossed_renders : ∃ page, (crossed.renderAs .canonical {} {}).result = .ok page := by
  have ungrafted : ∀ event ∈ crossed.events, Graft.ofEvent? .canonical event = none := by decide
  exact renders_of_run (Graft.unfold_of_ungrafted [] ungrafted) (by decide +kernel) (by decide +kernel)

theorem markup_crossed : ∃ page, (crossed.renderAs .canonical {} {}).result = .ok page ∧
    ∃ rest, page.markup = "<!DOCTYPE html>\n" ++ rest ∧ Nested rest := by
  obtain ⟨page,rendered⟩ := crossed_renders
  have plain : ∀ event ∈ crossed.events, event.IsPlain := by decide +kernel
  refine ⟨page,rendered,markup_nested (by decide) (fun _ _ none => by cases none) ?_ rendered⟩
  rintro event (member | ⟨name,events,found,_⟩)
  · exact plain event member
  · cases found

end Document
end Scriptorium
