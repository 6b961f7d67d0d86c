import Scriptorium.Proofs.InlineTree
import Scriptorium.Proofs.PlacedLabels

/-! Links of glossary words. A word without a headword is looked up by what its row holds at its
end, and the number of a waiting verse and the spacing of its text are part of that. -/
namespace Scriptorium

/-- A word of the glossary with one token in it. -/
def Event.glossed (subType text : String) : List Event :=
  [.scopeStart .main "spanWithAtts/w", .token .main subType text, .scopeEnd .main "spanWithAtts/w"]

namespace Spacing

theorem render_empty (mode : FrenchSpacing) (subType text : String) :
    render mode subType text {} = (shown mode subType text, {}) := by
  have kept : (render mode subType text {}).2 = {} := by
    unfold render
    split
    · rfl
    · cases mode with
      | off => rfl
      | add | change => cases entity? text <;> rfl
  exact Prod.ext rfl kept

end Spacing

namespace Rule

theorem select_word {profile : Profile} (glossed : profile.glossaryLinks = true) (event : Event)
    (kind : event.kind = .scope) (payload : event.payload = "spanWithAtts/w") :
    select? profile event = some .glossaryWord := by
  let path : InlinePath := ⟨"spanWithAtts/w",by decide⟩
  have cell : Text.startsWith path.text "cell/" = false := by decide
  have styled : (Text.segment? path.text 1).any characterStyles.contains = false := by decide
  have word : (profile.glossaryLinks && path.text == "spanWithAtts/w") = true := by simp [glossed, path]
  rw [path.select_eq profile kind payload, cell, styled, word]
  rfl

end Rule

namespace Settings

theorem contains_of_marker {settings : Settings} {key : String} {link : Option String}
    (found : Glossary.marker? settings key = .ok link) : link.isSome = settings.terms.contains key := by
  unfold Glossary.marker? at found
  unfold Index.contains
  cases entry : settings.terms.find? key with
  | none =>
    rw [entry] at found
    cases found
    rfl
  | some number =>
    simp only [entry] at found
    cases aside : settings.asides.find? number with
    | none =>
      rw [aside] at found
      cases found
    | some aside' =>
      rw [aside] at found
      cases found
      rfl

end Settings

/-- What an open word holds before the text of its first token. -/
def Draft.lead (draft : Draft) : List String := draft.verses.pending.toList.map VerseTracker.marker

theorem Draft.lead_placed {draft : Draft} (fresh : draft.rows.top = {}) (mode : FrenchSpacing)
    (subType text : String) :
    draft.headed.marked.rows.top.toList = draft.lead ∧
      draft.headed.marked.rows.below = draft.rows.below ∧
      (Spacing.render mode subType text draft.headed.marked.rows.top).2 = draft.headed.marked.rows.top := by
  have verses : draft.headed.verses = draft.verses := draft.headed_verses
  have rows : draft.headed.rows = draft.rows := draft.headed_rows
  unfold lead
  cases waiting : draft.verses.pending with
  | none =>
    rw [marked_of_none (verses.symm ▸ waiting), rows, fresh, Spacing.render_empty]
    exact ⟨rfl,rfl,rfl⟩
  | some label =>
    have placed : draft.headed.marked.rows = draft.rows.append (VerseTracker.marker label) := by
      rw [marked_of_some (verses.symm ▸ waiting), ← rows]
      rfl
    rw [placed, Rows.append, fresh, Spacing.render_after_marker]
    exact ⟨rfl,rfl,rfl⟩

namespace Session
variable {commission : Commission} {event : Event} {session : Session} {edition : Edition}

theorem take_first (commission : Commission) (edition : Edition) (content : event.isContent = true)
    (started : session.started = true) (fresh : session.draft.rows.top = {}) :
    let later := take commission event session edition
    later.session.draft.rows.top.toList = session.draft.lead ++
        [Spacing.shown commission.settings.layout.frenchSpacing event.subType event.payload] ∧
      later.session.draft.rows.below = session.draft.rows.below ∧
      later.session.draft.headword = session.draft.headword ∧
      later.session.started = true ∧ later.edition = edition ∧ later.failure = none := by
  obtain ⟨lead,below,kept⟩ := Draft.lead_placed fresh commission.settings.layout.frenchSpacing
    event.subType event.payload
  intro later
  rw [show later = _ from take_content content started]
  refine ⟨?_,below,?_,started,rfl,rfl⟩
  · simp only [kept, Gathering.toList_add, lead, Spacing.render_shown]
  · exact (Draft.marked_headword _).trans (Draft.headed_headword _)

theorem endWord_closes {content : String} {rows : Rows} {link : Option String}
    (popped : session.draft.rows.pop = .ok (content, rows)) (unset : session.draft.headword = none)
    (found : Glossary.marker? commission.settings content = .ok link) :
    let later := endWord commission session edition
    later.failure = none ∧ later.session.draft.rows.below = rows.below ∧
      later.session.draft.rows.top.toList = rows.top.toList ++ content :: link.toList ∧
      later.edition = if link.isSome then edition
        else edition.warn ("Unresolved glossary term '" ++ content ++ "'") commission.headers.bookCode := by
  unfold endWord
  simp only [popped, unset, Option.getD_none, found]
  cases link with
  | none => exact ⟨rfl,rfl,Gathering.toList_add _ _,rfl⟩
  | some marker =>
    refine ⟨rfl,rfl,?_,rfl⟩
    simp [edited, Draft.append, Rows.append]

theorem performAll_glossed (glossed : commission.profile.glossaryLinks = true)
    (started : session.started = true) (path : List String) (subType text : String) :
    performAll commission path ⟨session,edition,none⟩ (Event.glossed subType text) =
      step commission (step commission (session.startWord edition) (.take path (.token .main subType text)))
        (.take path (.scopeEnd .main "spanWithAtts/w")) := by
  have ungrafted : ∀ event ∈ Event.glossed subType text,
      Graft.ofEvent? commission.profile event = none := by
    intro event member
    simp only [Event.glossed, List.mem_cons, List.not_mem_nil, or_false] at member
    rcases member with rfl | rfl | rfl <;> exact Graft.ofEvent?_eq_none nofun nofun
  have opens : step commission ⟨session,edition,none⟩
      (.take path (.scopeStart .main "spanWithAtts/w")) = session.startWord edition := by
    rw [step_of_success rfl, perform, take_of_select started (Rule.select_word glossed _ rfl rfl)]
    rfl
  rw [performAll_eq_foldl, Graft.unfold_of_ungrafted path ungrafted]
  simp only [Event.glossed, List.map_cons, List.map_nil, List.foldl_cons, List.foldl_nil, opens]

/-- A word is linked by what is shown of it, the number of a waiting verse included. -/
theorem word_linked (complete : commission.settings.Complete)
    (glossed : commission.profile.glossaryLinks = true) (started : session.started = true)
    (edition : Edition) (path : List String) {subType : String}
    (visible : Event.isSpaceType subType = false) (text : String) :
    let word := String.join (session.draft.lead ++
      [Spacing.shown commission.settings.layout.frenchSpacing subType text])
    let later := performAll commission path ⟨session,edition,none⟩ (Event.glossed subType text)
    later.failure = none ∧ ∃ link : Option String,
      Glossary.marker? commission.settings word = .ok link ∧
      link.isSome = commission.settings.terms.contains word ∧
      later.session.draft.rows.below = session.draft.rows.below ∧
      later.session.draft.rows.top.toList = session.draft.rows.top.toList ++ word :: link.toList ∧
      later.edition = if link.isSome then edition
        else edition.warn ("Unresolved glossary term '" ++ word ++ "'") commission.headers.bookCode := by
  intro word later
  obtain ⟨link,found⟩ := complete.marker word
  let token := Event.token .main subType text
  let opened := (session.startWord edition).session
  let typed := take commission token opened edition
  have content : token.isContent = true := by simp [token, Event.isContent, Event.token, visible]
  have begun : opened.started = true := started
  -- the row of the word is opened empty and without a headword, and is read when it closes
  obtain ⟨top,below,unset,going,same,fine⟩ := take_first commission edition content begun rfl
  have popped : typed.session.draft.rows.pop = .ok (word, session.draft.rows) := by
    have under : typed.session.draft.rows.below = session.draft.rows.top :: session.draft.rows.below := below
    have read : String.join typed.session.draft.rows.top.toList = word := congrArg String.join top
    rw [Rows.pop, under]
    simp only [read]
  have last : later = endWord commission typed.session typed.edition := by
    have ends := Rule.select_word glossed (.scopeEnd .main "spanWithAtts/w") rfl rfl
    have first : step commission (session.startWord edition) (.take path token) = typed := step_of_success rfl _
    rw [show later = _ from performAll_glossed glossed started path subType text, first,
      step_of_success fine, perform, take_of_select going ends]
    rfl
  obtain ⟨closed,rest,added,remarked⟩ := endWord_closes popped unset found
  rw [last]
  refine ⟨closed,link,found,Settings.contains_of_marker found,rest,added,?_⟩
  rw [remarked, show typed.edition = edition from same]

theorem word_linked_grace :
    let later := performAll glossed [] ⟨{started := true},{},none⟩ (Event.glossed "wordLike" "grace")
    later.failure = none ∧ later.session.draft.rows.top.toList = ["grace",
      "<a epub:type=\"noteref\" class=\"glossaryLink\" href=\"../glossary_notes.xhtml#glo_g7\">*</a>"] := by
  have started : ({started := true} : Session).started = true := rfl
  have visible : Event.isSpaceType "wordLike" = false := by decide
  obtain ⟨fine,link,found,_,_,added,_⟩ :=
    word_linked glossed_complete rfl started {} [] visible "grace"
  have word : String.join (({started := true} : Session).draft.lead ++
      [Spacing.shown glossed.settings.layout.frenchSpacing "wordLike" "grace"]) = "grace" := by decide +kernel
  have linked : Glossary.marker? glossed.settings "grace" = .ok (some
      "<a epub:type=\"noteref\" class=\"glossaryLink\" href=\"../glossary_notes.xhtml#glo_g7\">*</a>") := by
    decide +kernel
  rw [word, linked] at found
  cases found
  rw [word] at added
  exact ⟨fine,added⟩

/-- A verse begins with the word. -/
theorem word_not_linked_by_text :
    ¬∀ (commission : Commission) (acts : List Act) (subType text : String),
      let before := run commission {} {} acts
      let after := performAll commission [] before (Event.glossed subType text)
      commission.settings.Complete → commission.profile.glossaryLinks = true → before.failure = none →
        before.session.started = true → before.session.draft.rows.below ≠ [] →
        Event.isSpaceType subType = false → text ≠ "" →
          ((∃ marker, Glossary.marker? commission.settings text = .ok (some marker) ∧
            after.session.draft.rows.top.newest? = some marker) ↔
              commission.settings.terms.contains text = true) := by
  intro claimed
  let acts : List Act := [.take [] .documentStart, .take [] (.blockStart .main "blockTag/p"),
    .take [] (.scopeStart .main "verses/1")]
  have fine : (run glossed {} {} acts).failure = none := by decide +kernel
  have started : (run glossed {} {} acts).session.started = true := by decide +kernel
  have open' : (run glossed {} {} acts).session.draft.rows.depth = 2 := by decide +kernel
  have above : (run glossed {} {} acts).session.draft.rows.below ≠ [] := by
    intro root
    simp [Rows.depth, root] at open'
  have known : glossed.settings.terms.contains "grace" = true := by decide +kernel
  obtain ⟨marker,found,newest⟩ := (claimed glossed acts "wordLike" "grace" glossed_complete rfl fine started above
    (by decide) (by decide)).mpr known
  have numbered : (performAll glossed [] (run glossed {} {} acts)
      (Event.glossed "wordLike" "grace")).session.draft.rows.top.newest? =
        some "<span class=\"verses\">1</span>&#160;grace" := by
    rw [performAll_eq_foldl, Graft.unfold_of_ungrafted [] (by decide)]
    decide +kernel
  cases numbered.symm.trans newest
  revert found
  decide +kernel

end Session
end Scriptorium
