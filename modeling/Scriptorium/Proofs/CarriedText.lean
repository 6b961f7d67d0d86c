import Scriptorium.Proofs.Balance
import Scriptorium.Proofs.GatheredNotes

/-! The text of tokens. It stands in the row that was open, is handed down to the row below when a
span is closed around it, and is placed on the page when a block is. Only text around which a block
is closed before the page is composed comes to the page: what is left is left in the root row. -/
namespace Scriptorium

namespace Text

theorem holds_iff {whole part : String} : Holds whole part ↔ part.toList <:+: whole.toList := by
  constructor
  · rintro ⟨front,back,rfl⟩
    exact ⟨front.toList,back.toList,by simp⟩
  · rintro ⟨front,back,same⟩
    refine ⟨.ofList front,.ofList back,String.toList_injective ?_⟩
    simp [← same]

theorem Holds.rfl {text : String} : Holds text text := ⟨"","",by simp⟩

section Trimming
variable {part whole : List Char}

theorem dropBlank_mono (inside : part <:+: whole) :
    part.dropWhile isBlank <:+: whole.dropWhile isBlank := by
  obtain ⟨front,back,rfl⟩ := inside
  rw [List.append_assoc, List.dropWhile_append]
  split
  · -- the blanks reach into the part, which loses as many as by itself
    rw [List.dropWhile_append]
    split
    next none => simp [List.isEmpty_iff.mp none]
    next => exact (List.prefix_append _ _).isInfix
  · exact (List.dropWhile_suffix _).isInfix.trans ⟨_,back,List.append_assoc ..⟩

theorem trimEnd_mono (inside : part <:+: whole) : trimEnd part <:+: trimEnd whole := by
  unfold trimEnd
  rw [List.reverse_infix]
  exact dropBlank_mono (List.reverse_infix.mpr inside)

end Trimming

/-- Trimming a text trims nothing off what stands within it but what is trimmed off this by itself. -/
theorem Holds.trim {whole part : String} (holds : Holds whole part) :
    Holds (Text.trim whole) (Text.trim part) := by
  rw [holds_iff] at holds ⊢
  unfold Text.trim
  rw [String.toList_ofList, String.toList_ofList]
  exact trimEnd_mono (dropBlank_mono holds)

theorem holds_trim (text : String) : Holds text (Text.trim text) := by
  rw [holds_iff, Text.trim, String.toList_ofList, trimEnd]
  refine .trans ?_ (List.dropWhile_suffix isBlank).isInfix
  rw [← List.reverse_infix, List.reverse_reverse]
  exact (List.dropWhile_suffix isBlank).isInfix

end Text

namespace Event
variable {profile : Profile} {event : Event} {place : Option Nat}

/-- What an event does to the place of a text, which is the number of rows above its own, or none
once a block has been closed around it. A span that is closed hands its text down. -/
def carry (profile : Profile) (event : Event) (place : Option Nat) : Option Nat :=
  if event.opensRow profile then place.map (· + 1)
  else if event.closesRow profile then
    if event.kind = .blockEnd ∧ place = some 0 then none else place.map (· - 1)
  else place

theorem carry_of_opens (opens : event.opensRow profile = true) :
    event.carry profile place = place.map (· + 1) := by
  simp [carry, opens]

theorem carry_of_block (closes : event.closesRow profile = true) (block : event.kind = .blockEnd) :
    event.carry profile place = if place = some 0 then none else place.map (· - 1) := by
  simp [carry, closes, opensRow_of_closesRow closes, block]

theorem carry_of_span (closes : event.closesRow profile = true) (span : event.kind ≠ .blockEnd) :
    event.carry profile place = place.map (· - 1) := by
  simp [carry, closes, opensRow_of_closesRow closes, span]

theorem carry_of_level (opens : event.opensRow profile = false) (closes : event.closesRow profile = false) :
    event.carry profile place = place := by
  simp [carry, opens, closes]

end Event

def Act.carry (profile : Profile) (place : Option Nat) : Act → Option Nat
  | .take _ event => event.carry profile place
  | .refuse _ | .closeNote => place

/-- The row with so many rows above it holds a text. -/
def Rows.Carries (rows : Rows) (above : Nat) (text : String) : Prop :=
  ∃ row, (rows.top :: rows.below)[above]? = some row ∧ Text.Holds (String.join row.toList) text

/-- When the top row is closed, its text is handed out and the others keep theirs. -/
theorem Rows.carries_pop {rows rest : Rows} {above : Nat} {content text : String}
    (carries : rows.Carries above text) (popped : rows.pop = .ok (content, rest)) :
    match above with
    | 0 => Text.Holds content text
    | above + 1 => rest.Carries above text := by
  obtain ⟨row,here,holds⟩ := carries
  obtain ⟨top,below⟩ := rows
  cases below with
  | nil => cases popped
  | cons next below =>
    cases popped
    cases above with
    | zero =>
      cases here
      exact holds
    | succ above => exact ⟨row,here,holds⟩

namespace Draft

/-- The fragments that a page of the draft shows. -/
def shown (draft : Draft) : List String :=
  draft.bodyHead.toList ++ draft.body.toList ++ draft.notes.entries.map (·.2)

def Shows (draft : Draft) (part : String) : Prop :=
  ∃ fragment ∈ draft.shown, Text.Holds fragment part

def Carries (draft : Draft) (text : String) : Option Nat → Prop
  | some above => draft.rows.Carries above text
  | none => draft.Shows (Text.trim text)

/-- The open rows keep what they hold, and what is shown stays shown. -/
structure Grows (draft later : Draft) : Prop where
  top : draft.rows.top.toList <+: later.rows.top.toList
  below : later.rows.below = draft.rows.below
  shows : ∀ part, draft.Shows part → later.Shows part

section Carrying
variable {draft later : Draft} {text part : String} {place : Option Nat}

theorem Shows.of_subset (subset : draft.shown ⊆ later.shown) (shows : draft.Shows part) :
    later.Shows part := by
  obtain ⟨fragment,member,holds⟩ := shows
  exact ⟨fragment,subset member,holds⟩

theorem Grows.unmoved (rows : later.rows = draft.rows) (shown : later.shown = draft.shown) :
    draft.Grows later where
  top := by rw [rows]
  below := by rw [rows]
  shows part := Shows.of_subset (by simp [shown])

theorem Grows.append (draft : Draft) (fragment : String) : draft.Grows (draft.append fragment) where
  top := by simp [Draft.append, Rows.append]
  below := rfl
  shows _ shows := shows

theorem Grows.addBody (draft : Draft) (fragment : String) :
    draft.Grows {draft with body := draft.body.add fragment} where
  top := List.prefix_rfl
  below := rfl
  shows part := Shows.of_subset (by simp +contextual [shown, List.subset_def, or_imp])

theorem Grows.addHead (draft : Draft) (fragment : String) :
    draft.Grows {draft with bodyHead := draft.bodyHead.add fragment} where
  top := List.prefix_rfl
  below := rfl
  shows part := Shows.of_subset (by simp +contextual [shown, List.subset_def, or_imp])

theorem mem_addHead (draft : Draft) (fragment : String) :
    fragment ∈ shown {draft with bodyHead := draft.bodyHead.add fragment} := by
  simp [shown]

theorem mem_addBody (draft : Draft) (fragment : String) :
    fragment ∈ shown {draft with body := draft.body.add fragment} := by
  simp [shown]

theorem Grows.trans {middle : Draft} (first : draft.Grows middle) (second : middle.Grows later) :
    draft.Grows later where
  top := first.top.trans second.top
  below := second.below.trans first.below
  shows part shows := second.shows part (first.shows part shows)

theorem Carries.grow (carries : draft.Carries text place) (grows : draft.Grows later) :
    later.Carries text place := by
  match place with
  | none => exact grows.shows _ carries
  | some 0 =>
    obtain ⟨row,here,holds⟩ := carries
    cases here
    obtain ⟨more,longer⟩ := grows.top
    refine ⟨later.rows.top,rfl,.trans ⟨"",String.join more,?_⟩ holds⟩
    rw [← longer, String.join_append, String.empty_append]
  | some (above + 1) =>
    obtain ⟨row,here,holds⟩ := carries
    exact ⟨row,by simpa [grows.below] using here,holds⟩

theorem Carries.at_root {above : Nat} (carries : draft.Carries text (some above))
    (root : draft.rows.below = []) : Text.Holds draft.rows.joined text := by
  obtain ⟨row,here,holds⟩ := carries
  rw [root] at here
  cases above with
  | zero =>
    cases here
    exact holds
  | succ above => cases here

theorem Carries.open (carries : draft.Carries text place) :
    draft.openRow.Carries text (place.map (· + 1)) := by
  cases place with
  | none => exact carries
  | some above => exact carries

theorem Carries.closing {next : String → Draft → Draft} (carries : draft.Carries text place)
    (closed : draft.closing next = .ok later)
    (rows : ∀ content rest, (next content rest).rows = rest.rows)
    (shows : ∀ content rest part, rest.Shows part → (next content rest).Shows part)
    (placed : ∀ content rest, (next content rest).Shows (Text.trim content)) :
    later.Carries text (if place = some 0 then none else place.map (· - 1)) := by
  obtain ⟨content,rest,popped,rfl⟩ := closing_eq_ok closed
  match place with
  | none => exact shows _ _ _ carries
  | some 0 =>
    -- the text is in the row that is closed, of which only the blanks at both ends are lost
    have handed : Text.Holds content text := Rows.carries_pop carries popped
    obtain ⟨fragment,member,holds⟩ := placed content {draft with rows := rest}
    exact ⟨fragment,member,holds.trans handed.trim⟩
  | some (above + 1) =>
    have kept : rest.Carries above text := Rows.carries_pop carries popped
    have same : (next content {draft with rows := rest}).rows = rest := rows _ _
    rw [← same] at kept
    exact kept

theorem Carries.handDown (carries : draft.Carries text place) {content fragment : String} {rest : Rows}
    (popped : draft.rows.pop = .ok (content, rest)) (holds : Text.Holds fragment content) :
    (({draft with rows := rest} : Draft).append fragment).Carries text (place.map (· - 1)) := by
  match place with
  | none => exact carries
  | some 0 =>
    -- the row below is the top row now, so that the text is in the top row again
    have handed : Text.Holds content text := Rows.carries_pop carries popped
    have joined : Text.Holds (String.join (rest.top.add fragment).toList) fragment := .join (by simp)
    exact ⟨_,rfl,joined.trans (holds.trans handed)⟩
  | some (above + 1) =>
    have kept : ({draft with rows := rest} : Draft).Carries text (some above) :=
      Rows.carries_pop carries popped
    exact kept.grow (.append _ fragment)

end Carrying

section Closing
variable {draft later : Draft} {text : String} {place : Option Nat} {event : Event}

theorem shows_block {tag blockClass content : String} (placed : block tag blockClass content ∈ draft.shown) :
    draft.Shows (Text.trim content) := by
  refine ⟨_,placed,.trans ⟨"","\n",?_⟩ (Text.holds_element tag [("class", blockClass)] _)⟩
  rw [String.empty_append]
  rfl

theorem Carries.closeTitle (carries : draft.Carries text place) (closed : draft.closeTitle event = .ok later) :
    later.Carries text (if place = some 0 then none else place.map (· - 1)) := by
  unfold Draft.closeTitle at closed
  refine carries.closing closed (fun _ _ => rfl) (fun content rest => (Grows.addHead rest _).shows) ?_
  exact fun content rest => shows_block (mem_addHead rest _)

theorem Carries.closeHeading (carries : draft.Carries text place)
    (closed : draft.closeHeading event = .ok later) :
    later.Carries text (if place = some 0 then none else place.map (· - 1)) := by
  unfold Draft.closeHeading at closed
  refine carries.closing closed (fun _ _ => rfl) (fun content rest => (Grows.addBody rest _).shows) ?_
  exact fun content rest => shows_block (mem_addBody rest _)

theorem Carries.closeParagraph (carries : draft.Carries text place)
    (closed : draft.closeParagraph event = .ok later) :
    later.Carries text (if place = some 0 then none else place.map (· - 1)) := by
  refine carries.closing closed (fun _ _ => rfl) (fun content rest => (Grows.addBody rest _).shows) ?_
  exact fun content rest => shows_block (mem_addBody rest _)

theorem extend_holds (number : Nat) (text : String) (entries : List (Nat × String)) :
    (∃ entry ∈ Notes.extend number text entries, Text.Holds entry.2 text) ∧
      ∀ old ∈ entries, ∃ entry ∈ Notes.extend number text entries, Text.Holds entry.2 old.2 := by
  induction entries with
  | nil => exact ⟨⟨_,List.mem_singleton_self _,.rfl⟩,by simp⟩
  | cons first others ih =>
    unfold Notes.extend
    split
    · refine ⟨⟨_,List.mem_cons_self,first.2,"",by simp⟩,List.forall_mem_cons.mpr ⟨?_,?_⟩⟩
      · exact ⟨_,List.mem_cons_self,"",text,by simp⟩
      · exact fun old member => ⟨old,List.mem_cons_of_mem _ member,.rfl⟩
    · obtain ⟨⟨entry,added,holds⟩,kept⟩ := ih
      refine ⟨⟨entry,List.mem_cons_of_mem _ added,holds⟩,List.forall_mem_cons.mpr ⟨?_,?_⟩⟩
      · exact ⟨first,List.mem_cons_self,.rfl⟩
      · intro old member
        obtain ⟨entry,later,holds⟩ := kept old member
        exact ⟨entry,List.mem_cons_of_mem _ later,holds⟩

theorem Carries.closeNote (carries : draft.Carries text place) (closed : draft.closeNote = .ok later) :
    later.Carries text (if place = some 0 then none else place.map (· - 1)) := by
  refine carries.closing closed (fun _ _ => rfl) ?_ ?_
  · rintro content rest part ⟨fragment,member,holds⟩
    rcases List.mem_append.mp member with above | noted
    · exact ⟨fragment,List.mem_append_left _ above,holds⟩
    · obtain ⟨old,listed,rfl⟩ := List.mem_map.mp noted
      obtain ⟨entry,kept,longer⟩ := (extend_holds rest.notes.next content rest.notes.entries).2 old listed
      rw [← Notes.entries_collect] at kept
      exact ⟨entry.2,List.mem_append_right _ (List.mem_map_of_mem kept),longer.trans holds⟩
  · intro content rest
    obtain ⟨entry,added,holds⟩ := (extend_holds rest.notes.next content rest.notes.entries).1
    rw [← Notes.entries_collect] at added
    exact ⟨entry.2,List.mem_append_right _ (List.mem_map_of_mem added),holds.trans (Text.holds_trim content)⟩

theorem Carries.closeSpan (carries : draft.Carries text place) {spanClass : String}
    (closed : draft.closeSpan spanClass = .ok later) : later.Carries text (place.map (· - 1)) := by
  obtain ⟨content,rest,popped,rfl⟩ := closing_eq_ok closed
  exact carries.handDown popped (Text.holds_element _ _ _)

theorem headed_grows (draft : Draft) : draft.Grows draft.headed := by
  unfold headed
  split
  · exact .unmoved rfl rfl
  · exact .trans (.addBody draft _) (.unmoved rfl rfl)

theorem marked_grows (draft : Draft) : draft.Grows draft.marked := by
  unfold marked
  split
  · exact .unmoved rfl rfl
  · have idle : draft.Grows {draft with verses := {draft.verses with pending := none}} := .unmoved rfl rfl
    exact idle.trans (.append _ _)

/-- With spacing off a token only adds to the top row and to the body, and the row ends in its text. -/
theorem token_grows (placed : draft.token .off event = .ok later) :
    draft.Grows later ∧ (Event.isSpaceType event.subType = false →
      later.rows.top.newest? = some (Text.escape event.payload)) := by
  have flushed : ∃ middle, draft.flushPending event = .ok middle ∧ draft.Grows middle := by
    cases content : event.isContent with
    | true =>
      exact ⟨_,flushPending_of_content content draft,draft.headed_grows.trans draft.headed.marked_grows⟩
    | false => exact ⟨draft,flushPending_of_other content draft,.unmoved rfl rfl⟩
  obtain ⟨middle,ready,grown⟩ := flushed
  have row : ∀ subType text row, (Spacing.render .off subType text row).2 = row := by
    intro subType text row
    unfold Spacing.render
    split <;> rfl
  rw [token_of_flushed ready] at placed
  cases placed
  refine ⟨grown.trans ?_,fun shown => ?_⟩
  · rw [row]
    exact .append middle _
  · simp [Spacing.render, shown]

end Closing
end Draft

namespace Session
variable {commission : Commission} {event : Event} {session : Session} {edition : Edition}
variable {text : String} {place : Option Nat}

theorem edited_carries {result : Except Failure Draft} (fine : (session.edited edition result).failure = none)
    (each : ∀ draft, result = .ok draft → draft.Carries text place) :
    (session.edited edition result).session.draft.Carries text place := by
  cases result with
  | error failure => cases fine
  | ok draft => exact each draft rfl

theorem label_carries {stem : String} {change : Draft → String → Draft}
    (unmoved : ∀ (draft : Draft) label, draft.Grows (change draft label))
    (carries : session.draft.Carries text place) :
    (session.label edition event stem change).session.draft.Carries text place := by
  unfold label
  split
  · exact carries.grow (unmoved _ _)
  · exact carries

theorem endWord_carries (fine : (endWord commission session edition).failure = none)
    (carries : session.draft.Carries text place) :
    (endWord commission session edition).session.draft.Carries text (place.map (· - 1)) := by
  unfold endWord at fine ⊢
  cases popped : session.draft.rows.pop with
  | error failure =>
    rw [popped] at fine
    cases fine
  | ok row =>
    obtain ⟨content,rest⟩ := row
    have handed := carries.handDown popped (.rfl : Text.Holds content content)
    simp only [popped] at fine ⊢
    split at fine
    · cases fine
    · exact handed.grow (.append _ _)
    · exact handed

theorem wrapped_carries {rule : Rule} (selected : Rule.select? commission.profile event = some rule)
    (wraps : rule.wraps = true) {outcome : Outcome}
    (opens : event.opensScope = true → outcome.session.draft.Carries text (place.map (· + 1)))
    (closes : event.opensScope = false → outcome.session.draft.Carries text (place.map (· - 1))) :
    outcome.session.draft.Carries text (event.carry commission.profile place) := by
  have scope : event.kind = .scope := by
    rw [Rule.kind_of_select selected]
    cases rule <;> first | rfl | cases wraps
  cases starts : event.opensScope with
  | true =>
    rw [Event.carry_of_opens (by simp [Event.opensRow_of_select selected, wraps, starts])]
    exact opens starts
  | false =>
    have row : event.closesRow commission.profile = true := by
      simp [Event.closesRow_of_select selected, wraps, starts]
    rw [Event.carry_of_span row (by simp [scope])]
    exact closes starts

/-- What the rule of an event does to a text is what the event does to its place. -/
theorem follow_carries (off : commission.settings.layout.frenchSpacing = .off) {rule : Rule}
    (selected : Rule.select? commission.profile event = some rule) (later : event.kind ≠ .documentStart)
    (fine : (follow commission event session edition rule).failure = none)
    (carries : session.draft.Carries text place) :
    (follow commission event session edition rule).session.draft.Carries text
      (event.carry commission.profile place) := by
  have kind := Rule.kind_of_select selected
  have level : rule.kind ≠ .blockStart → rule.kind ≠ .blockEnd → rule.wraps = false →
      event.carry commission.profile place = place := by
    intro start finish unwrapped
    apply Event.carry_of_level
    · rw [Event.opensRow_of_select selected]
      cases rule <;> simp_all [Rule.kind, Rule.wraps]
    · rw [Event.closesRow_of_select selected]
      simp [finish, unwrapped]
  have block : rule.kind = .blockEnd → event.carry commission.profile place =
      if place = some 0 then none else place.map (· - 1) := by
    intro finish
    exact Event.carry_of_block (by simp [Event.closesRow_of_select selected, finish]) (kind.trans finish)
  cases rule with
  | startDocument => exact absurd kind later
  | startBlock =>
    rw [Event.carry_of_opens (by simp [Event.opensRow_of_select selected])]
    exact carries.open
  | endTitleBlock =>
    rw [block rfl]
    exact edited_carries fine fun draft closed => carries.closeTitle closed
  | endHeadingBlock =>
    rw [block rfl]
    exact edited_carries fine fun draft closed => carries.closeHeading closed
  | endNoteBlock =>
    rw [block rfl]
    exact edited_carries fine fun draft closed => carries.closeNote closed
  | endParagraphBlock =>
    rw [block rfl]
    exact edited_carries fine fun draft closed => carries.closeParagraph closed
  | chapter | pubChapter | altChapter | verses | pubVerse =>
    rw [level (by decide) (by decide) rfl]
    exact label_carries (fun draft label => .unmoved rfl rfl) carries
  | characterSpan =>
    refine wrapped_carries selected rfl (fun opens => ?_) fun closes => ?_
    · simp only [follow, Draft.characterSpan, opens, if_true]
      exact carries.open
    · simp only [follow, Draft.characterSpan, closes, Bool.false_eq_true, if_false] at fine ⊢
      exact edited_carries fine fun draft closed => carries.closeSpan closed
  | tableCell =>
    refine wrapped_carries selected rfl (fun opens => ?_) fun closes => ?_
    · simp only [follow, Draft.tableCell, opens, if_true]
      exact carries.open
    · simp only [follow, Draft.tableCell, closes, Bool.false_eq_true, if_false] at fine ⊢
      exact edited_carries fine fun draft closed => carries.closeSpan closed
  | glossaryWord =>
    refine wrapped_carries selected rfl (fun opens => ?_) fun closes => ?_
    · simp only [follow, opens, if_true]
      exact carries.open.grow (.unmoved rfl rfl)
    · simp only [follow, closes, Bool.false_eq_true, if_false] at fine ⊢
      exact endWord_carries fine carries
  | unhandledSpan =>
    rw [level (by decide) (by decide) rfl]
    simp only [follow, unhandledSpan]
    split <;> exact carries
  | token =>
    rw [level (by decide) (by decide) rfl]
    refine edited_carries fine fun draft placed => ?_
    rw [off] at placed
    exact carries.grow (Draft.token_grows placed).1
  | composeDocument =>
    rw [level (by decide) (by decide) rfl]
    simp only [follow, compose]
    split <;> exact carries
  | followBlockGraft =>
    rw [level (by decide) (by decide) rfl]
    exact carries
  | glossaryLemma =>
    rw [level (by decide) (by decide) rfl]
    exact carries.grow (.unmoved rfl rfl)
  | noteGraft =>
    rw [level (by decide) (by decide) rfl]
    exact carries.grow (.append _ _)
  | separateIntroduction =>
    rw [level (by decide) (by decide) rfl]
    exact carries.grow (.addBody _ _)

theorem step_carries (off : commission.settings.layout.frenchSpacing = .off) {outcome : Outcome} {act : Act}
    (later : act.IsLater) (fine : (step commission outcome act).failure = none)
    (carries : outcome.session.draft.Carries text place) :
    (step commission outcome act).session.draft.Carries text (act.carry commission.profile place) := by
  have performed := step_performed fine
  rw [performed] at fine ⊢
  cases act with
  | refuse failure => cases fine
  | closeNote => exact carries.grow (.unmoved rfl rfl)
  | take path event =>
    rw [perform] at fine ⊢
    cases selected : Rule.select? commission.profile event with
    | some rule =>
      have followed := take_of_success selected fine
      rw [followed] at fine ⊢
      exact follow_carries off selected (later path event rfl) fine carries
    | none =>
      rw [Act.carry, Event.carry_of_level (Event.opensRow_of_unselected selected)
        (Event.closesRow_of_unselected selected)]
      simp only [take, selected]
      split <;> exact carries

theorem run_carries (off : commission.settings.layout.frenchSpacing = .off) {acts : List Act}
    (later : ∀ act ∈ acts, act.IsLater) {outcome : Outcome}
    (fine : (acts.foldl (step commission) outcome).failure = none)
    (carries : outcome.session.draft.Carries text place) :
    (acts.foldl (step commission) outcome).session.draft.Carries text
      (acts.foldl (Act.carry commission.profile) place) := by
  induction acts generalizing outcome place with
  | nil => exact carries
  | cons act rest ih =>
    have stepped := step_carries off (later act (by simp)) (success_before fine) carries
    exact ih (fun other member => later other (List.mem_cons_of_mem _ member)) fine stepped

/-- A token begins its way in the row that is open. -/
theorem token_carried (off : commission.settings.layout.frenchSpacing = .off) {outcome : Outcome}
    {path : List String} {token : Event} (kind : token.kind = .token)
    (shown : Event.isSpaceType token.subType = false)
    (fine : (step commission outcome (.take path token)).failure = none) :
    (step commission outcome (.take path token)).session.draft.Carries (Text.escape token.payload) (some 0) := by
  have selected := Rule.select_token commission.profile kind
  have performed := step_performed fine
  rw [performed, perform] at fine ⊢
  have followed := take_of_success selected fine
  rw [followed] at fine ⊢
  refine edited_carries fine fun draft placed => ?_
  rw [off] at placed
  have newest := (Draft.token_grows placed).2 shown
  obtain ⟨older,row⟩ := List.head?_eq_some_iff.mp newest
  refine ⟨draft.rows.top,rfl,.join ?_⟩
  rw [Gathering.toList, row]
  simp

theorem page_shows (commission : Commission) {draft : Draft} {part : String} (shows : draft.Shows part) :
    Text.Holds (page commission draft).markup part := by
  obtain ⟨fragment,member,holds⟩ := shows
  let parts := composition commission draft
  have framed (name : String) (pairs : List (String × String)) (content : String) :
      Text.Holds (Text.element name pairs ("\n" ++ content ++ "\n")) content :=
    .trans (Text.holds_element _ _ _) ⟨"\n","\n",rfl⟩
  have head : Text.Holds parts.pageBody (String.join draft.bodyHead.toList) := by
    refine .trans (Text.holds_element _ _ _) (.trans ?_ (framed "header" [] _))
    rw [String.append_assoc, String.append_assoc, String.append_assoc]
    exact ⟨_,_,rfl⟩
  have body : Text.Holds parts.pageBody (String.join draft.body.toList) := by
    refine .trans (Text.holds_element _ _ _) (.trans ?_ (framed "section" [("epub:type", "bodymatter")] _))
    rw [String.append_assoc]
    exact ⟨_,_,rfl⟩
  refine .trans ?_ holds
  simp only [Draft.shown, List.mem_append] at member
  rcases member with (above | within) | noted
  · exact parts.markup_holds.trans (head.trans (.join above))
  · exact parts.markup_holds.trans (body.trans (.join within))
  · obtain ⟨entry,listed,rfl⟩ := List.mem_map.mp noted
    refine (page_holds commission draft).trans (.trans (.join (List.mem_map_of_mem listed)) ?_)
    exact .trans ⟨"","\n",rfl⟩ (.trans (Text.holds_element _ _ _) (Text.holds_element _ _ _))

end Session

theorem Act.last_follows {profile : Profile} {rule : Rule} {acts : List Act}
    (some_act : ∃ act ∈ acts, act.follows profile rule = true) :
    ∃ front path event tail, acts = front ++ .take path event :: tail ∧
      Rule.select? profile event = some rule ∧ ∀ act ∈ tail, act.follows profile rule = false := by
  induction acts with
  | nil => simp at some_act
  | cons act rest ih =>
    by_cases later : ∃ other ∈ rest, other.follows profile rule = true
    · obtain ⟨front,path,event,tail,rfl,selected,none⟩ := ih later
      exact ⟨act :: front,path,event,tail,rfl,selected,none⟩
    · simp only [not_exists, not_and, Bool.not_eq_true] at later
      obtain ⟨first,member,follows⟩ := some_act
      rcases List.mem_cons.mp member with rfl | behind
      · obtain ⟨path,event,rfl,selected⟩ := Act.follows_iff.mp follows
        exact ⟨[],path,event,rest,rfl,selected,later⟩
      · simp [later first behind] at follows

namespace Document
variable {document : Document} {profile : Profile} {settings : Settings} {edition : Edition} {page : Page}

/-- A page that is rendered was composed, and composed last by one of the acts. -/
theorem composed_by_last (once : document.StartsOnce)
    (rendered : (document.renderAs profile settings edition).result = .ok page) :
    ∃ front place finish tail, document.acts profile = front ++ .take place finish :: tail ∧
      Rule.select? profile finish = some .composeDocument ∧
      ∀ act ∈ tail, act.follows profile .composeDocument = false := by
  apply Act.last_follows
  by_contra uncomposed
  simp only [not_exists, not_and, Bool.not_eq_true] at uncomposed
  obtain ⟨start,rest,begun,starts,later⟩ := once.begins profile
  obtain ⟨_,output⟩ := result_eq_ok_iff.mp rendered
  rw [outcome, begun, Session.run_start starts, Session.run_keeps_output later] at output
  · cases output
  · intro act member
    exact uncomposed act (by simp [begun, member])

/-- A run that goes on from a token carries the text of this to where the further acts move it. -/
theorem token_carries (once : document.StartsOnce) (off : settings.layout.frenchSpacing = .off)
    (fine : (document.outcome profile settings edition).failure = none) {before middle behind : List Act}
    {path : List String} {token : Event}
    (split : document.acts profile = before ++ .take path token :: (middle ++ behind))
    (kind : token.kind = .token) (shown : Event.isSpaceType token.subType = false) :
    let commission := document.commission profile settings
    let reached := Session.run commission {} edition (before ++ .take path token :: middle)
    reached.session.draft.Carries (Text.escape token.payload) (middle.foldl (Act.carry profile) (some 0)) := by
  have unstarted : Act.IsLater (.take path token) := by
    intro _ _ taken
    cases taken
    simp [kind]
  have later : ∀ act ∈ middle, act.IsLater :=
    fun act member => later_of_split once split unstarted act (List.mem_append_left behind member)
  have front : before ++ .take path token :: middle <+: document.acts profile := ⟨behind,by simp [split]⟩
  have going := success_of_front front fine
  intro commission reached
  change reached.failure = none at going
  have onward : reached = middle.foldl (Session.step commission)
      (Session.step commission (Session.run commission {} edition before) (.take path token)) := by
    rw [← List.foldl_cons, ← Session.run_append]
  rw [onward] at going ⊢
  have begun := Session.token_carried off kind shown (Session.success_before going)
  exact Session.run_carries off later going begun

/-- The page is composed by the last end of the main sequence, from what is placed by then. Of the
text before it, what a block has been closed around is on the page; the other text is in the root
row, of which the page takes nothing. -/
theorem text_carried (once : document.StartsOnce) (off : settings.layout.frenchSpacing = .off)
    (rendered : (document.renderAs profile settings edition).result = .ok page) :
    ∃ front place finish tail, document.acts profile = front ++ .take place finish :: tail ∧
      Rule.select? profile finish = some .composeDocument ∧
      (∀ act ∈ tail, act.follows profile .composeDocument = false) ∧
      let commission := document.commission profile settings
      let draft := (Session.run commission {} edition front).session.draft
      page = Session.page commission {draft with rows := {}} ∧
      ∀ before path token middle, front = before ++ .take path token :: middle → token.kind = .token →
        Event.isSpaceType token.subType = false →
        match middle.foldl (Act.carry profile) (some 0) with
        | none => Text.Holds page.markup (Text.trim (Text.escape token.payload))
        | some _ => draft.rows.below = [] ∧ Text.Holds draft.rows.joined (Text.escape token.payload) := by
  obtain ⟨front,place,finish,tail,split,composes,uncomposed⟩ := composed_by_last once rendered
  refine ⟨front,place,finish,tail,split,composes,uncomposed,?_⟩
  intro commission draft
  have fine := (result_eq_ok_iff.mp rendered).1
  have last : page = Session.page commission draft := by
    refine page_of_last rendered split composes (later_of_split once split ?_) uncomposed
    intro _ _ taken
    cases taken
    simp [Rule.kind_of_select composes, Rule.kind]
  -- the page was composed, and so only the root row was open
  have closed : draft.rows.below = [] := by
    have running := fine
    rw [outcome, split, Session.run_append, List.foldl_cons] at running
    have composed := Session.success_before running
    rw [Session.step_performed composed] at composed
    exact List.eq_nil_of_length_eq_zero (Nat.succ.inj (Session.compose_depth composes composed))
  refine ⟨last,?_⟩
  rintro before path token middle reached kind shown
  have whole : document.acts profile = before ++ .take path token :: (middle ++ .take place finish :: tail) := by
    simp [split, reached]
  have carried := token_carries once off fine whole kind shown
  rw [← reached] at carried
  change draft.Carries _ (middle.foldl (Act.carry profile) (some 0)) at carried
  cases ends : middle.foldl (Act.carry profile) (some 0) with
  | none =>
    rw [ends] at carried
    rw [last]
    exact Session.page_shows commission carried
  | some above =>
    rw [ends] at carried
    exact ⟨closed,carried.at_root closed⟩

/-- A paragraph with a styled text that has blanks at both ends. -/
def styled : Document where
  headers := ⟨"MRK",none,none,none,none,none⟩
  events := [.documentStart, .blockStart .main "blockTag/p", .scopeStart .main "span/em",
    .word .main " verily & so ", .scopeEnd .main "span/em", .blockEnd .main "blockTag/p", .sequenceEnd .main]

theorem text_carried_styled : ∃ page, (styled.renderAs .canonical {} {}).result = .ok page ∧
    Text.Holds page.markup "verily &amp; so" := by
  have unfolded : styled.acts .canonical = styled.events.map (.take []) :=
    Graft.unfold_of_ungrafted [] (by decide)
  obtain ⟨page,rendered⟩ : ∃ page, (styled.renderAs .canonical {} {}).result = .ok page :=
    renders_of_run unfolded (by decide +kernel) (by decide +kernel)
  have once : styled.StartsOnce := startsOnce_of_entries rfl rfl (by decide) (by decide)
  obtain ⟨front,place,finish,tail,split,composes,_,_,carried⟩ := text_carried once rfl rendered
  let opening : List Act := [.take [] .documentStart, .take [] (.blockStart .main "blockTag/p"),
    .take [] (.scopeStart .main "span/em")]
  let closing : List Act := [.take [] (.scopeEnd .main "span/em"), .take [] (.blockEnd .main "blockTag/p")]
  let inner := opening ++ .take [] (.word .main " verily & so ") :: closing
  have whole : styled.acts .canonical = inner ++ .take [] (.sequenceEnd .main) :: [] := unfolded
  have uncomposed : ∀ act ∈ inner, act.follows .canonical .composeDocument = false := by decide
  have last : .take place finish ∉ inner := fun member => by
    simpa [Act.follows, composes] using uncomposed _ member
  obtain ⟨rfl,_⟩ := (List.append_cons_inj_of_notMem last List.not_mem_nil).mp (whole.symm.trans split)
  have text := carried opening [] (.word .main " verily & so ") closing rfl rfl rfl
  have placed : closing.foldl (Act.carry .canonical) (some 0) = none := by decide
  have trimmed : Text.trim (Text.escape " verily & so ") = "verily &amp; so" := by decide +kernel
  rw [placed] at text
  exact ⟨page,rendered,trimmed ▸ text⟩

/-- A word outside of every block. -/
def stray : Document where
  headers := ⟨"MRK",none,none,none,none,none⟩
  events := [.documentStart, .word .main "verily", .sequenceEnd .main]

/-- The page of a document of which nothing is placed. -/
def unplaced : Page := Session.page (stray.commission .canonical {}) {head := Page.head .canonical {} ""}

theorem absent_of_unplaced : 'v' ∉ unplaced.markup.toList := by
  delta unplaced Session.page Session.composition Composition.markup Composition.pageBody
    Composition.navigation Text.element Text.attributes Page.head Page.styleSheet
  simp only [String.toList_append, List.mem_append, not_or]
  and_intros
  all_goals decide +kernel

theorem stray_text_lost :
    ¬∀ (document : Document) (profile : Profile) (settings : Settings) (edition : Edition) (page : Page),
      document.StartsOnce → settings.layout.frenchSpacing = .off →
        (document.renderAs profile settings edition).result = .ok page →
          ∀ path token, .take path token ∈ document.acts profile → token.kind = .token →
            Event.isSpaceType token.subType = false →
              Text.Holds page.markup (Text.trim (Text.escape token.payload)) := by
  intro claimed
  have unfolded : stray.acts .canonical = stray.events.map (.take []) :=
    Graft.unfold_of_ungrafted [] (by decide)
  have once : stray.StartsOnce := startsOnce_of_entries rfl rfl (by decide) (by decide)
  have rendered : (stray.renderAs .canonical {} {}).result = .ok unplaced := by
    rw [result_eq_ok_iff, outcome, unfolded]
    exact ⟨rfl,rfl⟩
  have dispatched : .take [] (.word .main "verily") ∈ stray.acts .canonical := by
    rw [unfolded]
    exact List.mem_map_of_mem (by simp [stray])
  have shown := claimed stray .canonical {} {} unplaced once rfl rendered [] (.word .main "verily") dispatched
    rfl rfl
  exact absent_of_unplaced ((Text.holds_iff.mp shown).subset (by decide +kernel))

end Document
end Scriptorium
