import Scriptorium.Proofs.GrowingOutput
import Scriptorium.Proofs.Inlining
import Scriptorium.Proofs.Restart

/-! What a failed event leaves behind. An event without a graft changes nothing when it fails, but for a word
of the glossary whose entry has no aside: its row is closed by then. A graft leaves its anchor, and what its
sequence has done up to the event that failed. The replays of a failed event are all left. -/
namespace Scriptorium

namespace Rows

/-- What the rows hold, from the root row up. -/
def text (rows : Rows) : String := String.join (rows.fromRoot.map fun row => String.join row.toList)

theorem text_of_pop {rows rest : Rows} {content : String} (closed : rows.pop = .ok (content, rest)) :
    (rest.append content).text = rows.text := by
  have joined : content = String.join rows.top.toList := (depth_of_pop closed).1
  rw [text, text, fromRoot_of_pop closed, List.map_append, String.join_append, List.map_singleton,
    String.join_cons, String.join_nil, String.append_empty, ← joined]
  simp [fromRoot, append, String.join_append, String.append_assoc]

end Rows

namespace Session
variable {commission : Commission} {event : Event} {session : Session} {edition : Edition}

theorem Fails.text_kept {result : Outcome} (fails : Fails event session edition result) :
    result.session.draft.rows.text = session.draft.rows.text := by
  cases fails with
  | unchanged => rfl
  | unlinked _ _ _ closed => exact Rows.text_of_pop closed

/-- A session with the anchor of a graft in its text, where the graft is one of a note. -/
def anchored (session : Session) : Graft → Session
  | .block _ => session
  | .note _ => {session with draft := session.draft.append session.draft.notes.anchor}

theorem anchored_started (started : session.started = true) (graft : Graft) :
    (session.anchored graft).started = true := by
  cases graft <;> exact started

theorem take_graft {graft : Graft} (started : session.started = true)
    (made : Graft.ofEvent? commission.profile event = some graft) :
    take commission event session edition = ⟨session.anchored graft,edition,none⟩ := by
  unfold Graft.ofEvent? at made
  split at made
  next selected =>
    cases made
    exact take_of_select started selected
  next selected =>
    cases made
    exact take_of_select started selected
  next => cases made

/-- What is left of a failed event. A graft that is not followed leaves its anchor. One that is followed
leaves besides what comes of the events of its sequence up to one that fails, and what is left of that; the
closing of its note does not come. -/
inductive Residue (commission : Commission) : List String → Event → Session → Edition → Outcome → Prop
  | single {path event session edition result} (plain : Graft.ofEvent? commission.profile event = none)
      (fails : Fails event session edition result)
      (kept : result.session.draft.rows.text = session.draft.rows.text) :
      Residue commission path event session edition result
  | recursive {path event session edition graft} (made : Graft.ofEvent? commission.profile event = some graft)
      (inside : graft.target ∈ path) :
      Residue commission path event session edition
        ⟨session.anchored graft,edition,some (.recursiveSequence graft.target)⟩
  | unknown {path event session edition graft} (made : Graft.ofEvent? commission.profile event = some graft)
      (fresh : graft.target ∉ path) (missing : commission.sequences.find? graft.target = none) :
      Residue commission path event session edition
        ⟨session.anchored graft,edition,some (.unknownSequence graft.target)⟩
  | within {path event session edition graft before failing behind deeper place result}
      (made : Graft.ofEvent? commission.profile event = some graft) (fresh : graft.target ∉ path)
      (found : commission.sequences.find? graft.target = some (before ++ failing :: behind))
      (reached : performAll commission (path ++ [graft.target]) ⟨session.anchored graft,edition,none⟩ before =
        ⟨deeper,place,none⟩)
      (whole : performAll commission (path ++ [graft.target]) ⟨session.anchored graft,edition,none⟩
        (before ++ failing :: behind) = result)
      (inside : Residue commission (path ++ [graft.target]) failing deeper place result) :
      Residue commission path event session edition result

theorem performAll_started {path : List String} {outcome : Outcome} (started : outcome.session.started = true)
    (events : List Event) : (performAll commission path outcome events).session.started = true := by
  have stays : ∀ act ∈ Graft.unfold commission.profile commission.sequences path events, ∀ session edition,
      session.started = true → (perform commission session edition act).session.started = true :=
    fun act _ _ edition begun => perform_started begun edition act
  rw [performAll_eq_foldl]
  exact kept_by_run started stays

theorem failure_of_closing {graft : Graft} {outcome : Outcome}
    (failed : (graft.closing.foldl (step commission) outcome).failure ≠ none) : outcome.failure ≠ none := by
  intro fine
  cases graft with
  | block target => exact failed fine
  | note target => exact failed (by simp [Graft.closing, step, fine, perform, edited])

/-- Events that are replayed have failed in one of them. -/
def Broken (commission : Commission) (path : List String) (events : List Event) (session : Session)
    (edition : Edition) : Prop :=
  ∃ before failing behind deeper place, events = before ++ failing :: behind ∧
    performAll commission path ⟨session,edition,none⟩ before = ⟨deeper,place,none⟩ ∧
      Residue commission path failing deeper place (performAll commission path ⟨session,edition,none⟩ events)

theorem residue_of_event {path : List String} (started : session.started = true)
    (failed : (performAll commission path ⟨session,edition,none⟩ [event]).failure ≠ none)
    (within : ∀ graft inner, Graft.ofEvent? commission.profile event = some graft → graft.target ∉ path →
      commission.sequences.find? graft.target = some inner →
      (performAll commission (path ++ [graft.target]) ⟨session.anchored graft,edition,none⟩ inner).failure ≠ none →
      Broken commission (path ++ [graft.target]) inner (session.anchored graft) edition) :
    Residue commission path event session edition
      (performAll commission path ⟨session,edition,none⟩ [event]) := by
  rw [performAll_cons, performAll, step_of_success rfl, perform] at failed ⊢
  cases made : Graft.ofEvent? commission.profile event with
  | none =>
    rw [Graft.after_of_none made, List.foldl_nil] at failed ⊢
    obtain ⟨cause,failure⟩ := Option.ne_none_iff_exists'.mp failed
    have fails := take_fails failure
    exact .single made fails fails.text_kept
  | some graft =>
    rw [take_graft started made] at failed ⊢
    by_cases inside : graft.target ∈ path
    · rw [Graft.after_of_cycle made inside]
      exact .recursive made inside
    cases found : commission.sequences.find? graft.target with
    | none =>
      rw [Graft.after_of_missing made inside found]
      exact .unknown made inside found
    | some inner =>
      rw [Graft.after_of_found made inside found, List.foldl_append, ← performAll_eq_foldl] at failed ⊢
      have broken := failure_of_closing failed
      obtain ⟨before,failing,behind,deeper,place,rfl,reached,left⟩ := within graft inner made inside found broken
      -- the note is not closed after a failure
      rw [foldl_step_of_failure _ _ (Option.isSome_iff_ne_none.mpr broken)]
      exact .within made inside found reached rfl left

theorem broken_of_failure (path : List String) (events : List Event) {session : Session} {edition : Edition}
    (started : session.started = true)
    (failed : (performAll commission path ⟨session,edition,none⟩ events).failure ≠ none) :
    Broken commission path events session edition := by
  induction path, events using Graft.unfold_induction commission.profile commission.sequences
    generalizing session edition with
  | nil path =>
    rw [performAll] at failed
    exact absurd rfl failed
  | cons path event rest ih within =>
    have begun : (performAll commission path ⟨session,edition,none⟩ [event]).session.started = true :=
      performAll_started started [event]
    have onward : performAll commission path ⟨session,edition,none⟩ (event :: rest) =
        performAll commission path (performAll commission path ⟨session,edition,none⟩ [event]) rest :=
      performAll_append commission path _ [event] rest
    -- either a later event has failed, or the first one with what it grafts
    by_cases first : (performAll commission path ⟨session,edition,none⟩ [event]).failure = none
    · generalize same : performAll commission path ⟨session,edition,none⟩ [event] = outcome at *
      obtain ⟨middle,place,failure⟩ := outcome
      cases first
      rw [onward] at failed
      obtain ⟨before,failing,behind,deeper,other,rfl,reached,left⟩ := ih begun failed
      refine ⟨event :: before,failing,behind,deeper,other,rfl,?_,onward ▸ left⟩
      rw [← List.singleton_append, performAll_append, same, reached]
    · have residue := residue_of_event started first fun graft inner made fresh found inside =>
        within graft inner made fresh found (anchored_started started graft) inside
      refine ⟨[],event,rest,session,edition,rfl,by rw [performAll],?_⟩
      have stays : performAll commission path ⟨session,edition,none⟩ (event :: rest) =
          performAll commission path ⟨session,edition,none⟩ [event] := by
        rw [onward, performAll_eq_foldl, foldl_step_of_failure _ _ (Option.isSome_iff_ne_none.mpr first)]
      rwa [stays]

/-- A failed event leaves its residue, in any depth of replays; `dispatch` is the case of none. All that it has
opened is left, and from there a graft of any sequence is followed that was not being replayed before. -/
theorem failure_residue (started : session.started = true) (edition : Edition) (event : Event)
    (opened : List (Graft × List Event)) (rest : List Event)
    (failed : (performAll commission (Graft.names opened) ⟨session,edition,none⟩ [event]).failure ≠ none) :
    let result := performAll commission (Graft.names opened) ⟨session,edition,none⟩ [event]
    (opened = [] → result = dispatch commission event session edition) ∧
      Residue commission (Graft.names opened) event session edition result ∧
      Moment.Reaches commission ⟨⟨session,edition,none⟩,opened,event :: rest⟩ ⟨result,opened,rest⟩ ∧
      ∀ later graft inner, Graft.ofEvent? commission.profile later = some graft →
        graft.target ∉ Graft.names opened → commission.sequences.find? graft.target = some inner →
        ((⟨result,opened,rest⟩ : Moment).given later).next? commission =
          some ⟨⟨result.session.anchored graft,result.edition,none⟩,(graft, []) :: opened,inner⟩ := by
  intro result
  refine ⟨by rintro rfl; rfl,?_,?_,?_⟩
  · exact residue_of_event started failed fun graft inner made fresh found broken =>
      broken_of_failure _ inner (anchored_started started graft) broken
  · exact Moment.reaches_of_event rfl fun graft inner made fresh found =>
      Moment.reaches_performAll _ inner _ _ (Graft.names_cons ..)
  · intro later graft inner made fresh found
    have begun : result.session.started = true := performAll_started started [event]
    have taken : step commission ⟨result.session,result.edition,none⟩ (.take (Graft.names opened) later) =
        ⟨result.session.anchored graft,result.edition,none⟩ := take_graft begun made
    rw [Moment.given, Moment.next?_of_graft rfl made (by rw [taken]), taken, Moment.enter, if_neg fresh, found]

/-- The entry of a word has no aside. -/
def footnote : List Event :=
  [.blockStart .footnote "blockTag/f", .scopeStart .footnote "spanWithAtts/w", .word .footnote "or",
    .scopeEnd .footnote "spanWithAtts/w", .blockEnd .footnote "blockTag/f"]

def unexplained : Commission where
  profile := .canonical
  settings := {terms := .ofList [("or", 7)]}
  headers := ⟨"MRK",none,none,none,none,none⟩
  sequences := .ofList [("note", footnote)]

theorem failure_residue_unexplained :
    let session : Session := {started := true}
    let note : Event := .inlineGraft .main "footnote" "note"
    let result := dispatch unexplained note session {}
    session.started = true ∧ result.failure = some (.missingGlossaryAside 7) ∧
      result.session.draft.rows.text = Notes.anchor {} ++ "or" ∧ result.session.draft.notes.next = 1 ∧
      Residue unexplained [] note session {} result ∧
      ((⟨result,[],[]⟩ : Moment).given note).next? unexplained =
        some ⟨⟨result.session.anchored (.note "note"),result.edition,none⟩,[(.note "note", [])],footnote⟩ := by
  intro session note result
  have made : Graft.ofEvent? unexplained.profile note = some (.note "note") := by decide
  have found : unexplained.sequences.find? "note" = some footnote := by decide +kernel
  have acts : Graft.unfold unexplained.profile unexplained.sequences [] [note] =
      .take [] note :: (footnote.map (.take ["note"]) ++ [.closeNote]) := Graft.unfold_note made found (by decide)
  have shown : result.failure = some (.missingGlossaryAside 7) ∧
      result.session.draft.rows.text = Notes.anchor {} ++ "or" ∧ result.session.draft.notes.next = 1 := by
    rw [show result = _ from dispatch_eq_run .., acts]
    decide +kernel
  obtain ⟨failed,text,next⟩ := shown
  have broken : result.failure ≠ none := by simp [failed]
  obtain ⟨_,residue,_,again⟩ := failure_residue rfl {} note [] [] broken
  exact ⟨rfl,failed,text,next,residue,again note (.note "note") footnote made (by simp [Graft.names]) found⟩

end Session
end Scriptorium
