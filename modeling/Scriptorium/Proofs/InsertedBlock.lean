import Scriptorium.Proofs.Inlining
import Scriptorium.Proofs.NoteText
import Scriptorium.Proofs.Balance

/-! A block that is inserted between two others. It opens a row in every sequence, but a profile
only closes the blocks of the sequences that it has a rule for; the row of any other block stays open
under all that follows, and the main sequence cannot end above it. -/
namespace Scriptorium

/-- A block that holds nothing but tokens, each with its sort and its text. -/
def Event.block (sequence : SequenceKind) (scope : String) (tokens : List (String × String)) : List Event :=
  .blockStart sequence scope :: (tokens.map fun (subType, text) => .token sequence subType text) ++
    [.blockEnd sequence scope]

theorem Event.isInner_iff (profile : Profile) {event : Event} : event.IsInner ↔
    event.kind ≠ .documentStart ∧ Rule.select? profile event ≠ some .composeDocument := by
  refine and_congr Iff.rfl (not_congr ⟨?_,fun composes => ?_⟩)
  · rintro ⟨ends,main⟩
    exact Rule.select_end profile ends main
  · have main := Rule.accepts_of_select composes
    exact ⟨Rule.kind_of_select composes,by simpa [Rule.accepts] using main⟩

/-- Whether the main sequence ends before a document starts anew. -/
def Act.endsFirst (profile : Profile) : List Act → Bool
  | [] => false
  | act :: rest => !act.follows profile .startDocument &&
      (act.follows profile .composeDocument || endsFirst profile rest)

namespace Act
variable {profile : Profile} {acts : List Act} {act : Act}

theorem unstarted_of_later (later : act.IsLater) : act.follows profile .startDocument = false := by
  rw [Bool.eq_false_iff]
  intro follows
  obtain ⟨path,event,taken,selected⟩ := follows_iff.mp follows
  exact later path event taken (Rule.kind_of_select selected)

theorem endsFirst_of_mem (later : ∀ act ∈ acts, act.IsLater) (member : act ∈ acts)
    (composes : act.follows profile .composeDocument = true) : endsFirst profile acts = true := by
  induction acts with
  | nil => cases member
  | cons first rest ih =>
    rw [endsFirst, unstarted_of_later (later first (by simp))]
    rcases List.mem_cons.mp member with rfl | behind
    · simp [composes]
    · simp [ih (fun other inside => later other (List.mem_cons_of_mem _ inside)) behind]

end Act

/-- Two runs that go on together, the second with so many rows more. -/
structure Alongside (spare : Nat) (one other : Outcome) : Prop where
  level : AtDepth one one.session.draft.rows.depth
  raised : AtDepth other (one.session.draft.rows.depth + spare)
  output : other.session.output.isSome = one.session.output.isSome

namespace Session
variable {commission : Commission} {session : Session} {edition : Edition} {event : Event}

/-- Only a row above the root can be closed. -/
theorem room_of_success (fine : (take commission event session edition).failure = none)
    (closes : event.closesRow commission.profile = true) : 1 < session.draft.rows.depth := by
  by_contra narrow
  have flat : session.draft.rows.depth = 1 := by
    have : 0 < session.draft.rows.depth := Nat.succ_pos _
    omega
  have bottom : session.draft.rows.pop = .error .stackUnderflow :=
    (Rows.pop_eq_error_iff _ _).mpr ⟨flat,rfl⟩
  have stuck (next : String → Draft → Draft) : session.draft.closing next = .error .stackUnderflow := by
    simp [Draft.closing, bottom, bind, Except.bind]
  cases selected : Rule.select? commission.profile event with
  | none => simp [Event.closesRow_of_unselected selected] at closes
  | some rule =>
    have followed := take_of_success selected fine
    rw [followed] at fine
    rw [Event.closesRow_of_select selected] at closes
    cases rule with
    | endTitleBlock | endHeadingBlock | endNoteBlock | endParagraphBlock =>
      simp [follow, Draft.closeTitle, Draft.closeHeading, Draft.closeNote, Draft.closeParagraph, stuck,
        edited] at fine
    | characterSpan | tableCell =>
      have ends : event.opensScope = false := by simpa [Rule.kind, Rule.wraps] using closes
      simp [follow, Draft.characterSpan, Draft.tableCell, Draft.closeSpan, ends, stuck, edited] at fine
    | glossaryWord =>
      have ends : event.opensScope = false := by simpa [Rule.kind, Rule.wraps] using closes
      simp [follow, ends, endWord, bottom] at fine
    | _ => simp [Rule.kind, Rule.wraps] at closes

section Together
variable {spare : Nat} {one other : Outcome} {path : List String}

/-- What goes on in one run goes on above further rows as well. -/
theorem inner_together (complete : commission.settings.Complete) (inner : event.IsInner)
    (together : Alongside spare one other) (fine : (step commission one (.take path event)).failure = none) :
    Alongside spare (step commission one (.take path event)) (step commission other (.take path event)) := by
  rw [step_of_success together.level.fine, perform] at fine ⊢
  rw [step_of_success together.raised.fine, perform]
  have room := room_of_success fine
  obtain ⟨after,taken,moved⟩ := take_depth complete inner together.level.going room
  obtain ⟨higher,above,raised⟩ := take_depth complete inner together.raised.going fun closes =>
    Nat.lt_of_lt_of_le (room closes) (Nat.le_add_right _ _)
  have same : higher = after + spare := by omega
  subst same
  have uncomposed := ((Event.isInner_iff commission.profile).mp inner).2
  have here := (take_retains inner.1 commission one.session one.edition).output uncomposed
  have there := (take_retains inner.1 commission other.session other.edition).output uncomposed
  refine ⟨?_,?_,?_⟩
  · rwa [taken.depth]
  · rwa [taken.depth]
  · rw [here, there]
    exact together.output

theorem start_together (starts : event.kind = .documentStart) (together : Alongside spare one other) :
    Alongside 0 (step commission one (.take path event)) (step commission other (.take path event)) := by
  rw [step_of_success together.level.fine, step_of_success together.raised.fine, perform, perform,
    take_start starts, take_start starts]
  exact ⟨⟨rfl,rfl,rfl⟩,⟨rfl,rfl,rfl⟩,rfl⟩

theorem compose_together (selected : Rule.select? commission.profile event = some .composeDocument)
    (together : Alongside spare one other) (fine : (step commission one (.take path event)).failure = none) :
    if spare = 0 then
      Alongside 0 (step commission one (.take path event)) (step commission other (.take path event))
    else (step commission other (.take path event)).failure = some (.unbalancedStack (1 + spare)) := by
  rw [step_of_success together.level.fine, perform] at fine ⊢
  rw [step_of_success together.raised.fine, perform]
  have flat := compose_depth selected fine
  have above := together.raised.depth
  rw [flat] at above
  rw [take_of_select together.level.started selected, take_of_select together.raised.started selected, follow,
    follow, compose, compose, if_pos flat, above]
  split
  next none =>
    subst none
    rw [if_pos (Nat.add_zero 1)]
    refine ⟨⟨rfl,together.level.started,rfl⟩,⟨rfl,together.raised.started,above.trans flat.symm⟩,?_⟩
    rw [Option.isSome_some, Option.isSome_some]
  next => rw [if_neg (by omega)]

theorem step_together (complete : commission.settings.Complete) {act : Act}
    (together : Alongside spare one other) (fine : (step commission one act).failure = none) :
    if act.follows commission.profile .startDocument then
      Alongside 0 (step commission one act) (step commission other act)
    else if act.follows commission.profile .composeDocument ∧ spare ≠ 0 then
      (step commission other act).failure = some (.unbalancedStack (1 + spare))
    else Alongside spare (step commission one act) (step commission other act) := by
  cases act with
  | refuse failure =>
    rw [step_performed fine] at fine
    cases fine
  | closeNote =>
    obtain ⟨level,raised,output⟩ := together
    rw [if_neg (by simp [Act.follows]), if_neg (by simp [Act.follows]), step_of_success level.fine,
      step_of_success raised.fine]
    exact ⟨⟨rfl,level.started,rfl⟩,⟨rfl,raised.started,raised.depth⟩,output⟩
  | take path event =>
    by_cases starts : event.kind = .documentStart
    · rw [if_pos (by simp [Act.follows, Rule.select_start _ starts])]
      exact start_together starts together
    have later : Act.follows commission.profile .startDocument (.take path event) = false :=
      Act.unstarted_of_later fun _ _ taken => by
        cases taken
        exact starts
    rw [if_neg (by simp [later])]
    by_cases composes : Rule.select? commission.profile event = some .composeDocument
    · have composed := compose_together composes together fine
      by_cases level : spare = 0
      · subst level
        simpa [Act.follows, composes] using composed
      · simpa [Act.follows, composes, level] using composed
    · rw [if_neg (by simp [Act.follows, composes])]
      exact inner_together complete ((Event.isInner_iff _).mpr ⟨starts,composes⟩) together fine

/-- Rows that are left over do no harm until the main sequence ends above them. -/
theorem run_together (complete : commission.settings.Complete) {acts : List Act}
    (together : Alongside spare one other) (fine : (acts.foldl (step commission) one).failure = none) :
    if Act.endsFirst commission.profile acts = true ∧ spare ≠ 0 then
      (acts.foldl (step commission) other).failure = some (.unbalancedStack (1 + spare))
    else ∃ left, Alongside left (acts.foldl (step commission) one) (acts.foldl (step commission) other) := by
  induction acts generalizing spare one other with
  | nil => exact ⟨spare,together⟩
  | cons act rest ih =>
    have stepped := step_together complete together (success_before fine)
    rw [Act.endsFirst]
    split at stepped
    next starts =>
      simpa [starts] using ih stepped fine
    next later =>
      split at stepped
      next ends =>
        -- the second run fails here, and nothing that follows is performed
        rw [if_pos (by simp_all), List.foldl_cons, foldl_step_of_failure _ _ (by simp [stepped])]
        exact stepped
      next onward =>
        have same : (Act.follows commission.profile .composeDocument act = true ∨
            Act.endsFirst commission.profile rest = true) ∧ spare ≠ 0 ↔
              Act.endsFirst commission.profile rest = true ∧ spare ≠ 0 := by tauto
        simpa [later, same] using ih stepped fine

/-- Where only the second run goes on, the rows that it has more are told by what it opens and closes. -/
theorem raised_together (complete : commission.settings.Complete) (inner : event.IsInner)
    (together : Alongside spare one other) {next : Nat}
    (moved : next + (if event.closesRow commission.profile then 1 else 0) =
      spare + (if event.opensRow commission.profile then 1 else 0)) :
    Alongside next one (step commission other (.take path event)) := by
  have deep := together.level.positive
  have room : event.closesRow commission.profile = true →
      1 < one.session.draft.rows.depth + spare := by
    intro closes
    simp only [closes, Event.opensRow_of_closesRow closes, if_true, Bool.false_eq_true, if_false] at moved
    omega
  obtain ⟨after,taken,raised⟩ := take_depth complete inner together.raised.going room
  have same : after = one.session.draft.rows.depth + next := by omega
  subst same
  have uncomposed := ((Event.isInner_iff commission.profile).mp inner).2
  have kept := (take_retains inner.1 commission other.session other.edition).output uncomposed
  rw [step_of_success together.raised.fine, perform]
  exact ⟨together.level,taken,by rw [kept]; exact together.output⟩

/-- A block leaves no row over where the profile closes it, and one where it does not. -/
theorem block_together (complete : commission.settings.Complete)
    (level : AtDepth one one.session.draft.rows.depth) (path : List String) (sequence : SequenceKind)
    (scope : String) (tokens : List (String × String)) :
    Alongside (if (Event.blockEnd sequence scope).closesRow commission.profile then 0 else 1) one
      (((Event.block sequence scope tokens).map (.take path)).foldl (step commission) one) := by
  -- the block is taken by the second run alone, while the first one waits before it
  have flat : Alongside 0 one one := ⟨level,level,rfl⟩
  have opened : Alongside 1 one (step commission one (.take path (.blockStart sequence scope))) := by
    refine raised_together complete (by simp [Event.IsInner, Event.blockStart]) flat ?_
    simp [Event.opensRow, Event.closesRow, Event.blockStart]
  let texts : List Act := tokens.map fun token => .take path (.token sequence token.1 token.2)
  have held (other : Outcome) (together : Alongside 1 one other) :
      Alongside 1 one (texts.foldl (step commission) other) := by
    induction tokens generalizing other with
    | nil => exact together
    | cons token rest ih =>
      refine ih _ (raised_together complete (by simp [Event.IsInner, Event.token]) together ?_)
      simp [Event.opensRow, Event.closesRow, Event.token]
  have passed : ((Event.block sequence scope tokens).map (.take path)).foldl (step commission) one =
      step commission (texts.foldl (step commission)
        (step commission one (.take path (.blockStart sequence scope)))) (.take path (.blockEnd sequence scope)) := by
    simp [texts, Event.block, Function.comp_def]
  rw [passed]
  refine raised_together complete (by simp [Event.IsInner, Event.blockEnd]) (held _ opened) ?_
  have unopened : (Event.blockEnd sequence scope).opensRow commission.profile = false := by
    simp [Event.opensRow, Event.blockEnd]
  rw [unopened]
  split <;> rfl

end Together
end Session

theorem Graft.unfold_block (profile : Profile) (sequences : Index String (List Event)) (path : List String)
    (sequence : SequenceKind) (scope : String) (tokens : List (String × String)) :
    unfold profile sequences path (Event.block sequence scope tokens) =
      (Event.block sequence scope tokens).map (.take path) := by
  refine unfold_of_ungrafted path fun event member => ?_
  have kinds : event.kind = .blockStart ∨ event.kind = .token ∨ event.kind = .blockEnd := by
    simp only [Event.block, List.mem_append, List.mem_cons, List.mem_map, List.not_mem_nil, or_false] at member
    rcases member with (rfl | ⟨token,_,rfl⟩) | rfl
    · exact .inl rfl
    · exact .inr (.inl rfl)
    · exact .inr (.inr rfl)
  rcases kinds with kind | kind | kind <;> exact ofEvent?_eq_none (by simp [kind]) (by simp [kind])

namespace Document
variable {document : Document} {profile : Profile} {settings : Settings} {edition : Edition} {page : Page}

/-- The document with further events after so many of its own. -/
def inserting (document : Document) (place : Nat) (events : List Event) : Document :=
  {document with events := document.events.take place ++ events ++ document.events.drop place}

/-- After the one start of a document its main sequence ends before anything starts anew. -/
theorem ends_of_once (once : document.StartsOnce) {place : Nat} (begun : place ≠ 0) {finish : Event}
    (member : finish ∈ document.events.drop place) (ends : finish.kind = .sequenceEnd)
    (main : finish.sequence = .main) :
    Act.endsFirst profile (Graft.unfold profile document.sequences [] (document.events.drop place)) = true := by
  obtain ⟨start,rest,acted,_,later⟩ := once.begins profile
  have inside : Graft.unfold profile document.sequences [] (document.events.drop place) ⊆ rest := by
    obtain ⟨place,rfl⟩ := Nat.exists_eq_succ_of_ne_zero begun
    cases listed : document.events with
    | nil => simp
    | cons first events =>
      rw [acts, listed, Graft.unfold_cons, List.cons.injEq] at acted
      rw [← acted.2, List.drop_succ_cons]
      nth_rewrite 2 [← List.take_append_drop place events]
      rw [Graft.unfold_append]
      exact fun act among => List.mem_append_right _ (List.mem_append_right _ among)
  refine Act.endsFirst_of_mem (fun act among => later act (inside among)) (Graft.take_mem_unfold [] member) ?_
  simp [Act.follows, Rule.select_end profile ends main]

/-- A block that is inserted after the start leaves a document that renders, if the profile closes the
blocks of its sequence, or if the document starts anew before its main sequence ends. Else its row is still
open when the main sequence ends, and nothing is rendered. -/
theorem inserted_block (complete : settings.Complete)
    (rendered : (document.renderAs profile settings edition).result = .ok page) {place : Nat}
    (begun : ∃ start ∈ document.events.take place, start.kind = .documentStart)
    (sequence : SequenceKind) (scope : String) (tokens : List (String × String)) :
    let closed := sequence ∈ [.title, .heading, .main, .introduction, .footnote] ∨
      (profile.xrefNotes = true ∧ sequence = .xref)
    let ends := Act.endsFirst profile
      (Graft.unfold profile document.sequences [] (document.events.drop place)) = true
    let result :=
      ((document.inserting place (Event.block sequence scope tokens)).renderAs profile settings edition).result
    (closed ∨ ¬ends → ∃ page, result = .ok page) ∧
      (¬closed → ends → result = .error (.unbalancedStack 2)) := by
  intro closed ends result
  let commission := document.commission profile settings
  let before := Graft.unfold profile document.sequences [] (document.events.take place)
  let behind := Graft.unfold profile document.sequences [] (document.events.drop place)
  let block : List Act := (Event.block sequence scope tokens).map (.take [])
  let reached := Session.run commission {} edition before
  have whole : document.outcome profile settings edition = behind.foldl (Session.step commission) reached := by
    rw [outcome, acts, ← List.take_append_drop place document.events, Graft.unfold_append, Session.run_append]
  have inserted : (document.inserting place (Event.block sequence scope tokens)).outcome profile settings
      edition = behind.foldl (Session.step commission) (block.foldl (Session.step commission) reached) := by
    rw [outcome, acts, inserting, Graft.unfold_append, Graft.unfold_append, Session.run_append,
      Session.run_append, Graft.unfold_block]
    rfl
  obtain ⟨fine,output⟩ := result_eq_ok_iff.mp rendered
  rw [whole] at fine output
  have going : reached.failure = none := Session.success_before fine
  have started : reached.session.started = true := by
    obtain ⟨start,member,starts⟩ := begun
    exact Session.started_of_start (Graft.take_mem_unfold [] member) starts going
  have settled : commission.settings.Complete := complete
  have together := Session.block_together settled ⟨going,started,rfl⟩ [] sequence scope tokens
  have passed := Session.run_together settled together fine
  have closable : (Event.blockEnd sequence scope).closesRow commission.profile = true ↔ closed :=
    Event.closesRow_blockEnd profile sequence scope
  constructor
  · intro harmless
    rw [if_neg] at passed
    · obtain ⟨left,along⟩ := passed
      have composed : (behind.foldl (Session.step commission)
          (block.foldl (Session.step commission) reached)).session.output.isSome = true := by
        rw [along.output, output, Option.isSome_some]
      rw [← inserted] at composed
      obtain ⟨later,kept⟩ := Option.isSome_iff_exists.mp composed
      refine ⟨later,result_eq_ok_iff.mpr ⟨?_,kept⟩⟩
      rw [inserted]
      exact along.raised.fine
    · rintro ⟨main,further⟩
      rcases harmless with closes | onward
      · exact further (if_pos (closable.mpr closes))
      · exact onward main
  · intro unclosed main
    rw [if_neg (closable.not.mpr unclosed), if_pos ⟨main,Nat.one_ne_zero⟩] at passed
    have failed : ((document.inserting place (Event.block sequence scope tokens)).outcome profile settings
        edition).failure = some (.unbalancedStack 2) := by
      rw [inserted]
      exact passed
    change (renderAs _ profile settings edition).result = _
    rw [renderAs_eq, failed]

/-- Nothing but a start and the end of the main sequence. -/
def vacant : Document where
  headers := ⟨"MRK",none,none,none,none,none⟩
  events := [.documentStart, .sequenceEnd .main]

theorem vacant_renders : ∃ page, (vacant.renderAs .canonical {} {}).result = .ok page := by
  have unfolded : vacant.acts .canonical = vacant.events.map (.take []) :=
    Graft.unfold_of_ungrafted [] (by decide)
  exact renders_of_run unfolded rfl rfl

theorem inserted_block_vacant :
    (∃ page, ((vacant.inserting 1 (Event.block .heading "blockTag/s" [("wordLike", "verily")])).renderAs
      .canonical {} {}).result = .ok page) ∧
    ((vacant.inserting 1 (Event.block (.other "sidebar") "blockTag/sb" [("wordLike", "verily")])).renderAs
      .canonical {} {}).result = .error (.unbalancedStack 2) := by
  obtain ⟨page,rendered⟩ := vacant_renders
  have complete : ({} : Settings).Complete := fun _ _ found => by cases found
  have begun : ∃ start ∈ vacant.events.take 1, start.kind = .documentStart :=
    ⟨.documentStart,by simp [vacant],rfl⟩
  have once : vacant.StartsOnce := startsOnce_of_entries rfl rfl (by decide) (by decide)
  have ends : Act.endsFirst .canonical
      (Graft.unfold .canonical vacant.sequences [] (vacant.events.drop 1)) = true :=
    ends_of_once once Nat.one_ne_zero (show .sequenceEnd .main ∈ _ by simp [vacant]) rfl rfl
  have inserted := inserted_block complete rendered begun
  exact ⟨(inserted .heading "blockTag/s" [("wordLike", "verily")]).1 (.inl (.inl (by decide))),
    (inserted (.other "sidebar") "blockTag/sb" [("wordLike", "verily")]).2 (by simp) ends⟩

theorem unknown_block_unrendered :
    ¬∀ (document : Document) (profile : Profile) (settings : Settings) (edition : Edition) (page : Page)
      (place : Nat) (sequence : SequenceKind) (scope : String) (tokens : List (String × String)),
      settings.Complete → (document.renderAs profile settings edition).result = .ok page →
        (∃ start ∈ document.events.take place, start.kind = .documentStart) →
          (∃ finish ∈ document.events.drop place, finish.kind = .sequenceEnd ∧ finish.sequence = .main) →
            (Session.run (document.commission profile settings) {} edition (Graft.unfold profile
              document.sequences [] (document.events.take place))).session.draft.rows.depth = 1 →
                ∃ later, ((document.inserting place (Event.block sequence scope tokens)).renderAs profile
                  settings edition).result = .ok later := by
  intro claimed
  obtain ⟨page,rendered⟩ := vacant_renders
  have root : (Session.run (vacant.commission .canonical {}) {} {} (Graft.unfold .canonical vacant.sequences []
      (vacant.events.take 1))).session.draft.rows.depth = 1 := by
    rw [Graft.unfold_of_ungrafted [] (by decide)]
    rfl
  obtain ⟨later,finished⟩ := claimed vacant .canonical {} {} page 1 (.other "sidebar") "blockTag/sb" []
    (fun _ _ found => by cases found) rendered ⟨.documentStart,by simp [vacant],rfl⟩
    ⟨.sequenceEnd .main,by simp [vacant],rfl,rfl⟩ root
  have fails : ((vacant.inserting 1 (Event.block (.other "sidebar") "blockTag/sb" [])).outcome .canonical {}
      {}).failure = some (.unbalancedStack 2) := by
    rw [outcome, acts, Graft.unfold_of_ungrafted [] (by decide)]
    rfl
  rw [(result_eq_ok_iff.mp finished).1] at fails
  cases fails

end Document
end Scriptorium
