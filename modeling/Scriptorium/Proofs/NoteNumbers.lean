import Mathlib.Data.List.Nodup
import Scriptorium.Proofs.Footprint

/-! The numbers of notes. An anchor carries the number that is open, and the number is closed
after the sequence of its note; so the numbers run from one upwards, without a gap and each used
once, as long as no note is grafted within a note and the counter does not start over, and no
longer. -/
namespace Scriptorium

namespace Notes

/-- The anchor that leads to the note under a number. -/
def numbered (number : Nat) : String :=
  "<a epub:type=\"noteref\" id=\"footnote_anchor_" ++ toString number ++ "\" href=\"#footnote_" ++
    toString number ++ "\" class=\"footnote_anchor\"><sup>" ++ toString number ++ "</sup></a>"

theorem anchor_eq (notes : Notes) : notes.anchor = numbered notes.next := by
  unfold anchor numbered
  generalize toString notes.next = number
  refine String.toList_inj.mp ?_
  simp

theorem numbered_injective {first second : Nat} (same : numbered first = numbered second) :
    first = second := by
  unfold numbered at same
  have spelled := congrArg String.toList same
  rw [Nat.toString_eq_ofList_toDigits, Nat.toString_eq_ofList_toDigits] at spelled
  simp only [String.toList_append, String.reduceToList, String.toList_ofList, List.cons_append,
    List.nil_append, List.append_assoc, List.cons.injEq, true_and] at spelled
  have size := congrArg List.length spelled
  simp only [List.length_append, List.length_cons] at size
  have digits : Nat.toDigits 10 first = Nat.toDigits 10 second :=
    (List.append_inj spelled (by omega)).1
  rw [← Nat.ofDigitChars_ten_toDigits (n := first), digits, Nat.ofDigitChars_ten_toDigits]

end Notes

namespace Session
variable {commission : Commission} {session : Session} {edition : Edition} {event : Event}

theorem closeNote_next : (session.edited edition session.draft.closeNote).session.draft.notes.next =
    session.draft.notes.next := by
  cases closed : session.draft.closeNote with
  | error failure => rfl
  | ok draft =>
    obtain ⟨content,rows,_,rfl⟩ := Draft.closing_eq_ok closed
    rfl

/-- The open number is only moved by the end of a note. -/
theorem take_next (later : event.kind ≠ .documentStart) :
    (take commission event session edition).session.draft.notes.next = session.draft.notes.next := by
  by_cases block : Rule.select? commission.profile event = some .endNoteBlock
  · unfold take
    split
    · simp only [block, follow, closeNote_next]
    · rfl
  · rw [(take_retains later commission session edition).draft.notes block]

end Session

/-- The numbers under which a list of acts opens notes, from the one that is open before it and
without an end of numbers. -/
def Act.numbers (profile : Profile) (next : Nat) : List Act → List Nat
  | [] => []
  | .closeNote :: rest => numbers profile (next + 1) rest
  | .refuse _ :: rest => numbers profile next rest
  | .take _ event :: rest =>
    if Rule.select? profile event = some .noteGraft then next :: numbers profile next rest
    else numbers profile next rest

/-- The fragments that the grafts of notes leave in the top row, in the order of the run. -/
def Session.anchors (commission : Commission) (outcome : Outcome) : List Act → List String
  | [] => []
  | .closeNote :: rest => anchors commission (step commission outcome .closeNote) rest
  | .refuse failure :: rest => anchors commission (step commission outcome (.refuse failure)) rest
  | .take path event :: rest =>
    let taken := step commission outcome (.take path event)
    if Rule.select? commission.profile event = some .noteGraft then
      taken.session.draft.rows.top.newest?.toList ++ anchors commission taken rest
    else anchors commission taken rest

namespace Session
variable {commission : Commission}

theorem anchor_placed {session : Session} {edition : Edition} {event : Event}
    (selected : Rule.select? commission.profile event = some .noteGraft)
    (fine : (take commission event session edition).failure = none) :
    (take commission event session edition).session.draft.rows.top.newest? =
      some (Notes.numbered session.draft.notes.next) := by
  rw [take_of_success selected fine, ← Notes.anchor_eq]
  rfl

/-- An anchor shows its number in 32 bits. -/
theorem anchors_eq {acts : List Act} (later : ∀ act ∈ acts, act.IsLater) {outcome : Outcome} {next : Nat}
    (opened : outcome.session.draft.notes.next = next % UInt32.size)
    (fine : (acts.foldl (step commission) outcome).failure = none) :
    anchors commission outcome acts =
      (Act.numbers commission.profile next acts).map fun number => Notes.numbered (number % UInt32.size) := by
  induction acts generalizing outcome next with
  | nil => rfl
  | cons act rest ih =>
    have others : ∀ act ∈ rest, act.IsLater := fun other member => later other (List.mem_cons_of_mem _ member)
    have going : (step commission outcome act).failure = none := success_before fine
    have performed : step commission outcome act = _ := step_performed going
    cases act with
    | refuse failure =>
      rw [performed] at going
      cases going
    | closeNote =>
      have moved : (step commission outcome .closeNote).session.draft.notes.next = (next + 1) % UInt32.size := by
        rw [performed]
        change outcome.session.draft.notes.advance.next = _
        rw [Notes.next_advance, opened, Nat.mod_add_mod]
      rw [anchors, ih others moved fine, Act.numbers]
    | take path event =>
      have moved : (step commission outcome (.take path event)).session.draft.notes.next =
          next % UInt32.size := by
        rw [performed, perform, take_next (later _ (by simp) path event rfl), opened]
      rw [anchors, ih others moved fine, Act.numbers]
      split
      next selected =>
        rw [performed] at going ⊢
        rw [perform, anchor_placed selected going, opened]
        rfl
      next => rfl

/-- What came before the start of a document is forgotten. -/
theorem run_start {event : Event} (starts : event.kind = .documentStart) (path : List String)
    (session : Session) (edition : Edition) (acts : List Act) :
    run commission session edition (.take path event :: acts) =
      acts.foldl (step commission) (start commission edition) := by
  rw [run, List.foldl_cons, step_of_success rfl, perform, take_start starts]

end Session
namespace Graft
variable {profile : Profile} {sequences : Index String (List Event)}

theorem select_noteGraft_iff {event : Event} :
    Rule.select? profile event = some .noteGraft ↔
      ∃ target, ofEvent? profile event = some (.note target) := by
  unfold ofEvent?
  split
  next selected => simp [selected]
  next selected => simp [selected]
  next _ other =>
    constructor
    · exact fun selected => absurd selected other
    · rintro ⟨target,made⟩
      cases made

theorem numbers_of_ungrafted {path : List String} {event : Event} {acts : List Act} {next : Nat}
    (unnoted : ∀ target, ofEvent? profile event ≠ some (.note target)) :
    Act.numbers profile next (.take path event :: acts) = Act.numbers profile next acts := by
  rw [Act.numbers, if_neg]
  intro selected
  obtain ⟨target,made⟩ := select_noteGraft_iff.mp selected
  exact unnoted target made

theorem numbers_of_note {path : List String} {event : Event} {acts : List Act} {next : Nat} {target : String}
    (made : ofEvent? profile event = some (.note target)) :
    Act.numbers profile next (.take path event :: acts) = next :: Act.numbers profile next acts := by
  rw [Act.numbers, if_pos (select_noteGraft_iff.mpr ⟨target,made⟩)]

theorem numbers_append (first second : List Act) (next : Nat) :
    Act.numbers profile next (first ++ second) =
      Act.numbers profile next first ++ Act.numbers profile (next + first.count .closeNote) second := by
  induction first generalizing next with
  | nil => rfl
  | cons act rest ih =>
    cases act with
    | closeNote =>
      have moved : next + 1 + rest.count .closeNote = next + (rest.count .closeNote + 1) := by omega
      rw [List.cons_append, Act.numbers, Act.numbers, ih, List.count_cons_self, moved]
    | refuse failure => simpa [Act.numbers, List.count_cons] using ih next
    | take path event =>
      rw [List.cons_append, Act.numbers, Act.numbers, ih]
      split <;> simp

theorem numbers_block {path : List String} {event : Event} {target : String}
    (made : ofEvent? profile event = some (.block target)) (within acts : List Act) (next : Nat) :
    Act.numbers profile next (.take path event :: (within ++ (block target).closing ++ acts)) =
      Act.numbers profile next within ++
        Act.numbers profile (next + within.count .closeNote) acts := by
  rw [numbers_of_ungrafted (by simp [made]), closing, List.append_nil, numbers_append]

theorem numbers_note {path : List String} {event : Event} {target : String}
    (made : ofEvent? profile event = some (.note target)) (within acts : List Act) (next : Nat) :
    Act.numbers profile next (.take path event :: (within ++ (note target).closing ++ acts)) =
      next :: (Act.numbers profile next within ++
        Act.numbers profile (next + within.count .closeNote + 1) acts) := by
  rw [numbers_of_note made, closing, List.append_assoc, numbers_append]
  rfl

variable {path : List String} {events : List Event} {acts : List Act}

/-- Every note that is opened is closed. -/
theorem length_numbers (unfolded : Unfolds profile sequences path events acts) (next : Nat) :
    (Act.numbers profile next acts).length = acts.count .closeNote := by
  induction unfolded generalizing next with
  | nil => rfl
  | plain ungrafted others ih =>
    rw [numbers_of_ungrafted (by simp [ungrafted]), ih]
    simp
  | @grafted path event rest graft inner within acts made found inside others deeper ih =>
    cases graft with
    | block target =>
      rw [numbers_block made, List.length_append, deeper, ih]
      simp [closing]
    | note target =>
      rw [numbers_note made, List.length_cons, List.length_append, deeper, ih]
      simp [closing]
      omega

/-- The first number is the one that is open before. -/
theorem head_numbers (unfolded : Unfolds profile sequences path events acts) (next : Nat) :
    ∀ number ∈ (Act.numbers profile next acts).head?, number = next := by
  induction unfolded generalizing next with
  | nil => simp [Act.numbers]
  | plain ungrafted others ih =>
    rw [numbers_of_ungrafted (by simp [ungrafted])]
    exact ih next
  | @grafted path event rest graft inner within acts made found inside others deeper ih =>
    cases graft with
    | block target =>
      rw [numbers_block made]
      cases early : Act.numbers profile next within with
      | cons first others =>
        have same := deeper next
        rw [early] at same
        exact same
      | nil =>
        have none_closed := length_numbers inside next
        rw [early] at none_closed
        rw [← none_closed]
        exact ih next
    | note target =>
      rw [numbers_note made]
      simp

/-- No note is grafted, at any depth, within a note. -/
def NotesApart (profile : Profile) (sequences : Index String (List Event)) (events : List Event) : Prop :=
  ∀ event target inner, Reaches profile sequences events event →
    ofEvent? profile event = some (.note target) → sequences.find? target = some inner →
    ∀ deeper, Reaches profile sequences inner deeper →
      ∀ other, ofEvent? profile deeper ≠ some (.note other)

theorem notesApart_cons {event : Event} {rest : List Event}
    (apart : NotesApart profile sequences (event :: rest)) : NotesApart profile sequences rest :=
  fun event target inner reached => apart event target inner
    (reached.mono fun _ member => List.mem_cons_of_mem _ member)

theorem notesApart_of_ungrafted {event : Event} {rest : List Event}
    (ungrafted : ofEvent? profile event = none) (later : NotesApart profile sequences rest) :
    NotesApart profile sequences (event :: rest) := by
  intro last target inner reached made
  rcases reaches_cons.mp reached with rfl | ⟨graft,_,made',_⟩ | reached
  · simp [ungrafted] at made
  · simp [ungrafted] at made'
  · exact later last target inner reached made

theorem notesApart_of_grafted {event : Event} {rest inner : List Event} {graft : Graft}
    (made : ofEvent? profile event = some graft) (found : sequences.find? graft.target = some inner)
    (here : ∀ target, graft = .note target → ∀ deeper, Reaches profile sequences inner deeper →
      ∀ other, ofEvent? profile deeper ≠ some (.note other))
    (within : NotesApart profile sequences inner) (later : NotesApart profile sequences rest) :
    NotesApart profile sequences (event :: rest) := by
  intro last target events reached made' found'
  rcases reaches_cons.mp reached with rfl | ⟨other,grafted,same,kept,inside⟩ | reached
  · cases made.symm.trans made'
    cases found.symm.trans found'
    exact here target rfl
  · cases made.symm.trans same
    cases found.symm.trans kept
    exact within last target events inside made' found'
  · exact later last target events reached made' found'

theorem notesApart_within {event : Event} {rest inner : List Event} {graft : Graft}
    (apart : NotesApart profile sequences (event :: rest)) (made : ofEvent? profile event = some graft)
    (found : sequences.find? graft.target = some inner) : NotesApart profile sequences inner :=
  fun event target inner reached => apart event target inner (.within (by simp) made found reached)

/-- Sequences without grafts hold no notes within notes. -/
theorem notesApart_of_flat
    (flat : ∀ entry ∈ sequences.entries, ∀ event ∈ entry.2, ofEvent? profile event = none)
    (events : List Event) : NotesApart profile sequences events := by
  intro event target inner _ _ found deeper reached other made
  have plain : ∀ event ∈ inner, ofEvent? profile event = none := flat _ (Index.mem_of_find? found)
  cases reached with
  | here member =>
    rw [plain deeper member] at made
    cases made
  | within member grafted =>
    rw [plain _ member] at grafted
    cases grafted

theorem numbers_of_noteless (unfolded : Unfolds profile sequences path events acts)
    (noteless : ∀ event, Reaches profile sequences events event →
      ∀ target, ofEvent? profile event ≠ some (.note target)) (next : Nat) :
    Act.numbers profile next acts = [] := by
  induction unfolded generalizing next with
  | nil => rfl
  | plain ungrafted others ih =>
    rw [numbers_of_ungrafted (by simp [ungrafted])]
    exact ih (fun event reached => noteless event (reaches_cons.mpr (.inr (.inr reached)))) next
  | @grafted path event rest graft inner within acts made found inside others deeper ih =>
    cases graft with
    | block target =>
      rw [numbers_block made,
        deeper fun event reached => noteless event (.within (by simp) made found reached),
        ih fun event reached => noteless event (reaches_cons.mpr (.inr (.inr reached)))]
      rfl
    | note target => exact absurd made (noteless event (.here (by simp)) target)

theorem numbers_of_apart (unfolded : Unfolds profile sequences path events acts)
    (apart : NotesApart profile sequences events) (next : Nat) :
    Act.numbers profile next acts = List.range' next (acts.count .closeNote) := by
  induction unfolded generalizing next with
  | nil => rfl
  | plain ungrafted others ih =>
    rw [numbers_of_ungrafted (by simp [ungrafted]), ih (notesApart_cons apart)]
    simp
  | @grafted path event rest graft inner within acts made found inside others deeper ih =>
    cases graft with
    | block target =>
      rw [numbers_block made, deeper (notesApart_within apart made found), ih (notesApart_cons apart)]
      simp [closing, List.range'_append_1]
    | note target =>
      have noteless := numbers_of_noteless inside
        (apart event target inner (.here (by simp)) made found) next
      have unclosed := length_numbers inside next
      rw [noteless] at unclosed
      rw [numbers_note made, noteless, ← unclosed, ih (notesApart_cons apart)]
      simp [closing, ← unclosed, List.range'_succ]

theorem numbers_ne_nil {place : List String} {event : Event} {target : String}
    (made : ofEvent? profile event = some (.note target)) (member : .take place event ∈ acts)
    (next : Nat) : Act.numbers profile next acts ≠ [] := by
  obtain ⟨before,behind,rfl⟩ := List.append_of_mem member
  rw [numbers_append, numbers_of_note made]
  simp

theorem noteless_of_numbers (unfolded : Unfolds profile sequences path events acts) {next : Nat}
    (unnumbered : Act.numbers profile next acts = []) (event : Event)
    (reached : Reaches profile sequences events event) (target : String) :
    ofEvent? profile event ≠ some (.note target) := by
  intro made
  obtain ⟨place,member⟩ := unfolded.take_mem_of_reaches reached
  exact numbers_ne_nil made member next unnumbered

theorem apart_of_nodup (unfolded : Unfolds profile sequences path events acts) {next : Nat}
    (distinct : (Act.numbers profile next acts).Nodup) :
    NotesApart profile sequences events := by
  induction unfolded generalizing next with
  | nil =>
    intro event target inner reached
    cases reached with
    | here member => cases member
    | within member => cases member
  | plain ungrafted others ih =>
    rw [numbers_of_ungrafted (by simp [ungrafted])] at distinct
    exact notesApart_of_ungrafted ungrafted (ih distinct)
  | @grafted path event rest graft inner within acts made found inside others deeper ih =>
    cases graft with
    | block target =>
      rw [numbers_block made, List.nodup_append] at distinct
      obtain ⟨early,late,_⟩ := distinct
      exact notesApart_of_grafted made found nofun (deeper early) (ih late)
    | note target =>
      rw [numbers_note made, List.nodup_cons, List.nodup_append] at distinct
      obtain ⟨fresh,early,late,_⟩ := distinct
      have unnumbered : Act.numbers profile next within = [] := by
        cases numbered : Act.numbers profile next within with
        | nil => rfl
        | cons number more =>
          have first : number = next := head_numbers inside next number (by simp [numbered])
          exact absurd (by simp [numbered, first]) fresh
      exact notesApart_of_grafted made found (fun _ _ => noteless_of_numbers inside unnumbered)
        (deeper early) (ih late)

end Graft

namespace Document

/-- The document starts with its first event and never again. -/
structure StartsOnce (document : Document) : Prop where
  first : ∃ start rest, document.events = start :: rest ∧ start.kind = .documentStart ∧
    ∀ event ∈ rest, event.kind ≠ .documentStart
  sequences : ∀ name events, document.sequences.find? name = some events →
    ∀ event ∈ events, event.kind ≠ .documentStart

theorem startsOnce_of_entries {document : Document} {start : Event} {rest : List Event}
    (events : document.events = start :: rest) (starts : start.kind = .documentStart)
    (later : ∀ event ∈ rest, event.kind ≠ .documentStart)
    (inner : ∀ entry ∈ document.sequences.entries, ∀ event ∈ entry.2, event.kind ≠ .documentStart) :
    document.StartsOnce :=
  ⟨⟨start,rest,events,starts,later⟩,fun _ _ found => inner _ (Index.mem_of_find? found)⟩

theorem StartsOnce.begins {document : Document} (once : document.StartsOnce) (profile : Profile) :
    ∃ start rest, document.acts profile = .take [] start :: rest ∧ start.kind = .documentStart ∧
      ∀ act ∈ rest, act.IsLater := by
  obtain ⟨⟨start,rest,events,starts,later⟩,sequences⟩ := once
  have ungrafted : Graft.ofEvent? profile start = none :=
    Graft.ofEvent?_eq_none (by simp [starts]) (by simp [starts])
  refine ⟨start,Graft.unfold profile document.sequences [] rest,?_,starts,?_⟩
  · rw [acts, events, Graft.unfold_cons, Graft.after_of_none ungrafted, List.nil_append]
  · rintro act member path event rfl
    rcases Graft.mem_of_reaches (Graft.reaches_of_take_mem [] rest member) with
      here | ⟨name,replayed,found,inside⟩
    · exact later event here
    · exact sequences name replayed found event inside

/-- The anchors that rendering a document places, in their order. -/
def anchors (document : Document) (profile : Profile) (settings : Settings) (edition : Edition) :
    List String :=
  Session.anchors (document.commission profile settings) ⟨{},edition,none⟩ (document.acts profile)

theorem anchors_eq_numbers {document : Document} (once : document.StartsOnce) {profile : Profile}
    {settings : Settings} {edition : Edition}
    (fine : (document.outcome profile settings edition).failure = none) :
    document.anchors profile settings edition =
      (Act.numbers profile 1 (document.acts profile)).map fun number =>
        Notes.numbered (number % UInt32.size) := by
  obtain ⟨start,rest,begun,starts,later⟩ := once.begins profile
  have selected := Rule.select_start profile starts
  have unnoted : ∀ target, Graft.ofEvent? profile start ≠ some (.note target) := by
    simp [Graft.ofEvent?, selected]
  have opened : Session.step (document.commission profile settings) ⟨{},edition,none⟩ (.take [] start) =
      Session.start (document.commission profile settings) edition :=
    (Session.step_of_success rfl _).trans (Session.take_start starts)
  rw [outcome, begun, Session.run, List.foldl_cons, opened] at fine
  have unselected : Rule.select? (document.commission profile settings).profile start ≠ some .noteGraft := by
    rw [commission, selected]
    simp
  rw [anchors, begun, Session.anchors, if_neg unselected, opened, Session.anchors_eq later rfl fine,
    Graft.numbers_of_ungrafted unnoted]
  rfl

theorem anchors_consecutive_iff {document : Document} (once : document.StartsOnce) {profile : Profile}
    {settings : Settings} {edition : Edition} {page : Page}
    (rendered : (document.renderAs profile settings edition).result = .ok page) :
    (∃ count, document.anchors profile settings edition = (List.range' 1 count).map Notes.numbered) ↔
      Graft.NotesApart profile document.sequences document.events ∧
        (document.anchors profile settings edition).length < UInt32.size := by
  obtain ⟨fine,_⟩ := result_eq_ok_iff.mp rendered
  have unfolded : Graft.Unfolds profile document.sequences [] document.events (document.acts profile) :=
    Graft.unfolds_of_unrefused [] _ (Session.unrefused_of_success fine)
  rw [anchors_eq_numbers once fine]
  constructor
  · rintro ⟨count,same⟩
    have distinct : ((List.range' 1 count).map Notes.numbered).Nodup :=
      .map (fun _ _ => Notes.numbered_injective) List.nodup_range'
    rw [← same] at distinct
    refine ⟨Graft.apart_of_nodup unfolded (.of_map _ distinct),?_⟩
    rw [same, List.length_map, List.length_range']
    cases count with
    | zero => decide
    | succ count =>
      -- the last anchor has a number of 32 bits like all others
      have last : Notes.numbered (count + 1) ∈ (List.range' 1 (count + 1)).map Notes.numbered :=
        List.mem_map_of_mem (List.mem_range'_1.mpr (by omega))
      rw [← same] at last
      obtain ⟨number,_,shown⟩ := List.mem_map.mp last
      rw [← Notes.numbered_injective shown]
      exact Nat.mod_lt _ (by decide)
  · rintro ⟨apart,few⟩
    have numbers := Graft.numbers_of_apart unfolded apart 1
    rw [numbers, List.length_map, List.length_range'] at few
    rw [numbers]
    refine ⟨_,List.map_congr_left fun number member => ?_⟩
    have bounds := List.mem_range'_1.mp member
    rw [Nat.mod_eq_of_lt (by omega)]

/-- A note and a reference, one after the other. -/
def referenced : Document where
  headers := ⟨"MRK",none,none,none,none,none⟩
  events := [.documentStart, .inlineGraft .main "footnote" "note", .inlineGraft .main "xref" "reference",
    .sequenceEnd .main]
  sequences := .ofList [("note", [.word .footnote "truly"]), ("reference", [])]

theorem referenced_acts : referenced.acts .canonical =
    [.take [] .documentStart, .take [] (.inlineGraft .main "footnote" "note"),
      .take ["note"] (.word .footnote "truly"), .closeNote,
      .take [] (.inlineGraft .main "xref" "reference"), .closeNote, .take [] (.sequenceEnd .main)] := by
  have start : Graft.ofEvent? .canonical .documentStart = none := by decide
  have note : Graft.ofEvent? .canonical (.inlineGraft .main "footnote" "note") = some (.note "note") := by
    decide
  have word : Graft.ofEvent? .canonical (.word .footnote "truly") = none := by decide
  have reference : Graft.ofEvent? .canonical (.inlineGraft .main "xref" "reference") =
      some (.note "reference") := by decide
  have finish : Graft.ofEvent? .canonical (.sequenceEnd .main) = none := by decide
  have first : referenced.sequences.find? "note" = some [.word .footnote "truly"] := by decide +kernel
  have second : referenced.sequences.find? "reference" = some [] := by decide +kernel
  change Graft.unfold .canonical referenced.sequences [] [_, _, _, _] = _
  simp [Graft.unfold_cons, Graft.after, Graft.target, Graft.closing, start, note, word, reference,
    finish, first, second]

theorem referenced_renders : ∃ page, (referenced.renderAs .canonical {} {}).result = .ok page :=
  renders_of_run referenced_acts (by decide +kernel) (by decide +kernel)

theorem referenced_apart : Graft.NotesApart .canonical referenced.sequences referenced.events :=
  Graft.notesApart_of_flat (by decide +kernel) _

theorem anchors_referenced :
    ∃ count, referenced.anchors .canonical {} {} = (List.range' 1 count).map Notes.numbered := by
  obtain ⟨page,rendered⟩ := referenced_renders
  have once : referenced.StartsOnce := startsOnce_of_entries rfl rfl (by decide) (by decide +kernel)
  have few : (referenced.anchors .canonical {} {}).length < UInt32.size := by
    rw [anchors, referenced_acts]
    decide +kernel
  exact (anchors_consecutive_iff once rendered).mpr ⟨referenced_apart,few⟩

/-- A note within a note. -/
def enclosed : Document where
  headers := ⟨"MRK",none,none,none,none,none⟩
  events := [.documentStart, .blockStart .main "blockTag/p", .inlineGraft .main "footnote" "outer",
    .blockEnd .main "blockTag/p", .sequenceEnd .main]
  sequences := .ofList [("outer", [.inlineGraft .footnote "footnote" "inner"]), ("inner", [])]

theorem enclosed_acts : enclosed.acts .canonical =
    [.take [] .documentStart, .take [] (.blockStart .main "blockTag/p"),
      .take [] (.inlineGraft .main "footnote" "outer"),
      .take ["outer"] (.inlineGraft .footnote "footnote" "inner"), .closeNote, .closeNote,
      .take [] (.blockEnd .main "blockTag/p"), .take [] (.sequenceEnd .main)] := by
  have start : Graft.ofEvent? .canonical .documentStart = none := by decide
  have opening : Graft.ofEvent? .canonical (.blockStart .main "blockTag/p") = none := by decide
  have outer : Graft.ofEvent? .canonical (.inlineGraft .main "footnote" "outer") = some (.note "outer") := by
    decide
  have inner : Graft.ofEvent? .canonical (.inlineGraft .footnote "footnote" "inner") =
      some (.note "inner") := by decide
  have ending : Graft.ofEvent? .canonical (.blockEnd .main "blockTag/p") = none := by decide
  have finish : Graft.ofEvent? .canonical (.sequenceEnd .main) = none := by decide
  have first : enclosed.sequences.find? "outer" = some [.inlineGraft .footnote "footnote" "inner"] := by
    decide +kernel
  have second : enclosed.sequences.find? "inner" = some [] := by decide +kernel
  change Graft.unfold .canonical enclosed.sequences [] [_, _, _, _, _] = _
  simp [Graft.unfold_cons, Graft.after, Graft.target, Graft.closing, start, opening, outer, inner, ending,
    finish, first, second]

theorem enclosed_startsOnce : enclosed.StartsOnce :=
  startsOnce_of_entries rfl rfl (by decide) (by decide +kernel)

/-- The inner note is opened under the number of the outer one. -/
theorem anchors_enclosed :
    enclosed.anchors .canonical {} {} = [Notes.numbered 1, Notes.numbered 1] := by
  have numbers : Act.numbers .canonical 1 (enclosed.acts .canonical) = [1, 1] := by
    rw [enclosed_acts]
    decide
  have fine : (enclosed.outcome .canonical {} {}).failure = none := by
    rw [outcome, enclosed_acts]
    decide +kernel
  rw [anchors_eq_numbers enclosed_startsOnce fine, numbers]
  rfl

theorem anchors_not_consecutive :
    ¬∀ (document : Document) (profile : Profile) (settings : Settings) (edition : Edition) (page : Page),
      document.StartsOnce → (document.renderAs profile settings edition).result = .ok page →
        ∃ count, document.anchors profile settings edition = (List.range' 1 count).map Notes.numbered := by
  intro claimed
  have renders : ∃ page, (enclosed.renderAs .canonical {} {}).result = .ok page :=
    renders_of_run enclosed_acts (by decide +kernel) (by decide +kernel)
  obtain ⟨page,rendered⟩ := renders
  obtain ⟨count,same⟩ := claimed enclosed .canonical {} {} page enclosed_startsOnce rendered
  rw [anchors_enclosed] at same
  have numbers : [1, 1] = List.range' 1 count :=
    (List.map_inj_right fun _ _ => Notes.numbered_injective).mp same
  have ascending : [1, 1].Pairwise (· < ·) := numbers ▸ List.pairwise_lt_range'
  revert ascending
  decide

end Document
end Scriptorium
