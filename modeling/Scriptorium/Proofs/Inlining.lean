import Scriptorium.Proofs.Footprint

/-! Block grafts as a manner of writing. Where no sequence leads back to itself, the events of a
sequence may stand in the place of the block graft that it is followed from: nothing but the search
for cycles asks which sequences are being replayed. -/
namespace Scriptorium
namespace Graft
variable {profile : Profile} {sequences : Index String (List Event)}

theorem select_of_block {event : Event} {target : String}
    (made : ofEvent? profile event = some (.block target)) :
    Rule.select? profile event = some .followBlockGraft := by
  unfold ofEvent? at made
  split at made
  next selected => exact selected
  next => cases made
  next => cases made

/-- After the start of the document the events of a sequence are put in the place of one followed
block graft of it. -/
inductive Inlines (profile : Profile) (sequences : Index String (List Event)) :
    List Event → List Event → Prop
  | intro {before event target inner behind} (started : ∃ start ∈ before, start.kind = .documentStart)
      (made : ofEvent? profile event = some (.block target))
      (found : sequences.find? target = some inner) :
      Inlines profile sequences (before ++ event :: behind) (before ++ (inner ++ behind))

/-- The events with all followed block grafts replaced, and those of their sequences too. As in
`unfold` a sequence is not replaced within itself. -/
def inlined (profile : Profile) (sequences : Index String (List Event)) (path : List String) :
    List Event → List Event
  | [] => []
  | event :: rest =>
    let inPlace := match ofEvent? profile event with
      | some (.block target) =>
        if _fresh : target ∈ path then [event]
        else match _found : sequences.find? target with
          | none => [event]
          | some inner => inlined profile sequences (path ++ [target]) inner
      | _ => [event]
    inPlace ++ inlined profile sequences path rest
termination_by events => ((idle sequences path).length, events.length)
decreasing_by
  · exact .left _ _ (idle_shrinks _found _fresh)
  · exact .right _ (by simp)

/-- What comes before the start of the document stays as it is. -/
def expanded (profile : Profile) (sequences : Index String (List Event)) : List Event → List Event
  | [] => []
  | event :: rest =>
    event :: if event.kind = .documentStart then inlined profile sequences [] rest
      else expanded profile sequences rest

theorem inlined_nil (path : List String) : inlined profile sequences path [] = [] := by
  rw [inlined]

theorem inlined_cons (profile : Profile) (sequences : Index String (List Event)) (path : List String)
    (event : Event) (rest : List Event) :
    (inlined profile sequences path (event :: rest) = event :: inlined profile sequences path rest ∧
      ∀ target, ofEvent? profile event = some (.block target) →
        target ∈ path ∨ sequences.find? target = none) ∨
    ∃ target inner, ofEvent? profile event = some (.block target) ∧ target ∉ path ∧
      sequences.find? target = some inner ∧
      inlined profile sequences path (event :: rest) =
        inlined profile sequences (path ++ [target]) inner ++ inlined profile sequences path rest := by
  rw [inlined]
  cases made : ofEvent? profile event with
  | none => exact .inl ⟨rfl,nofun⟩
  | some graft =>
    cases graft with
    | note target => exact .inl ⟨rfl,nofun⟩
    | block target =>
      by_cases inside : target ∈ path
      · refine .inl ⟨by simp [inside],?_⟩
        rintro other ⟨⟩
        exact .inl inside
      · simp only [dif_neg inside]
        split
        next missing =>
          refine .inl ⟨rfl,?_⟩
          rintro other ⟨⟩
          exact .inr missing
        next inner found => exact .inr ⟨target,inner,rfl,inside,found,rfl⟩

theorem inlines_inlined (path : List String) (events : List Event) (before behind : List Event)
    (started : ∃ start ∈ before, start.kind = .documentStart) :
    Relation.ReflTransGen (Inlines profile sequences) (before ++ (events ++ behind))
      (before ++ (inlined profile sequences path events ++ behind)) := by
  induction path, events using unfold_induction profile sequences generalizing before behind with
  | nil path =>
    rw [inlined_nil]
  | cons path event rest ih within =>
    rcases inlined_cons profile sequences path event rest with ⟨same,_⟩ | ⟨target,inner,made,fresh,found,same⟩
    · have later := ih (before ++ [event]) behind (by
        obtain ⟨start,member,starts⟩ := started
        exact ⟨start,by simp [member],starts⟩)
      rw [same]
      simpa using later
    · have first : Inlines profile sequences (before ++ (event :: (rest ++ behind)))
          (before ++ (inner ++ (rest ++ behind))) := .intro started made found
      have inside : Relation.ReflTransGen (Inlines profile sequences) _
          (before ++ (inlined profile sequences (path ++ [target]) inner ++ (rest ++ behind))) :=
        within _ inner made fresh found before (rest ++ behind) started
      have later := ih (before ++ inlined profile sequences (path ++ [target]) inner) behind (by
        obtain ⟨start,member,starts⟩ := started
        exact ⟨start,by simp [member],starts⟩)
      rw [same, List.append_assoc]
      refine .head first (inside.trans ?_)
      simpa using later

theorem inlines_expanded (events before : List Event) :
    Relation.ReflTransGen (Inlines profile sequences) (before ++ events)
      (before ++ expanded profile sequences events) := by
  induction events generalizing before with
  | nil => exact .refl
  | cons event rest ih =>
    rw [expanded]
    split
    next starts =>
      have later : Relation.ReflTransGen (Inlines profile sequences) (before ++ [event] ++ (rest ++ []))
          (before ++ [event] ++ (inlined profile sequences [] rest ++ [])) :=
        inlines_inlined [] rest (before ++ [event]) [] ⟨event,by simp,starts⟩
      simpa using later
    next => simpa using ih (before ++ [event])

/-- Where no sequence leads back to itself, nothing is left to be put in the place of a graft. -/
theorem inlined_settled (acyclic : ∀ name, ¬Relation.TransGen (Leads profile sequences) name name)
    (path : List String) (events : List Event) (ahead : Ahead profile sequences path events) :
    ∀ event ∈ inlined profile sequences path events, ∀ target,
      ofEvent? profile event = some (.block target) → sequences.find? target = none := by
  induction path, events using unfold_induction profile sequences with
  | nil path => simp [inlined_nil]
  | cons path event rest ih within =>
    have later := ih ahead.tail
    rcases inlined_cons profile sequences path event rest with ⟨same,missing⟩ | ⟨target,inner,made,fresh,found,same⟩
    · rw [same]
      intro other member target made
      rcases List.mem_cons.mp member with rfl | further
      · exact (missing target made).resolve_left (ahead.fresh acyclic (by simp) made)
      · exact later other further target made
    · have inside := within _ inner made fresh found (ahead.within (by simp) made found)
      rw [same]
      intro other member
      exact (List.mem_append.mp member).elim (inside other) (later other)

theorem expanded_settled (acyclic : ∀ name, ¬Relation.TransGen (Leads profile sequences) name name)
    {events before behind : List Event} {event : Event}
    (whole : expanded profile sequences events = before ++ event :: behind)
    (started : ∃ start ∈ before, start.kind = .documentStart) {target : String}
    (made : ofEvent? profile event = some (.block target)) : sequences.find? target = none := by
  induction events generalizing before with
  | nil => simp [expanded] at whole
  | cons first rest ih =>
    obtain ⟨start,member,starts⟩ := started
    cases before with
    | nil => cases member
    | cons other before =>
      rw [expanded, List.cons_append] at whole
      obtain ⟨same,whole⟩ := List.cons.inj whole
      split at whole
      next => exact inlined_settled acyclic [] rest (by simp [Ahead]) event (by simp [whole]) target made
      next later =>
        refine ih whole ⟨start,(List.mem_cons.mp member).resolve_left ?_,starts⟩
        rintro rfl
        exact later (same ▸ starts)

theorem take_mem_unfold (path : List String) {events : List Event} {event : Event} (member : event ∈ events) :
    .take path event ∈ unfold profile sequences path events := by
  obtain ⟨before,behind,rfl⟩ := List.append_of_mem member
  simp [unfold_append, unfold_cons]

/-- Nothing but the search for cycles asks which sequences are being replayed. -/
theorem foldl_unfold_path {commission : Commission}
    (acyclic : ∀ name, ¬Relation.TransGen (Leads commission.profile commission.sequences) name name)
    (path : List String) (events : List Event) (other : List String)
    (ahead : Ahead commission.profile commission.sequences path events)
    (ahead' : Ahead commission.profile commission.sequences other events) (outcome : Outcome) :
    (unfold commission.profile commission.sequences path events).foldl (Session.step commission) outcome =
      (unfold commission.profile commission.sequences other events).foldl (Session.step commission)
        outcome := by
  induction path, events using unfold_induction commission.profile commission.sequences
    generalizing other outcome with
  | nil path => rw [unfold_nil, unfold_nil]
  | cons path event rest ih within =>
    have taken : Session.step commission outcome (.take path event) =
        Session.step commission outcome (.take other event) := rfl
    rw [unfold_cons, unfold_cons, List.foldl_cons, List.foldl_cons, List.foldl_append, List.foldl_append,
      ih other ahead.tail ahead'.tail, taken]
    congr 1
    cases made : ofEvent? commission.profile event with
    | none => rw [after_of_none made, after_of_none made]
    | some graft =>
      have fresh := ahead.fresh acyclic (by simp) made
      have fresh' := ahead'.fresh acyclic (by simp) made
      cases found : commission.sequences.find? graft.target with
      | none => simp [after, made, fresh, fresh', found]
      | some inner =>
        rw [after_of_found made fresh found, after_of_found made fresh' found, List.foldl_append,
          List.foldl_append, within graft inner made fresh found _ (ahead.within (by simp) made found)
            (ahead'.within (by simp) made found)]

end Graft

namespace Session
variable {commission : Commission}

theorem perform_started {session : Session} (started : session.started = true) (edition : Edition)
    (act : Act) : (perform commission session edition act).session.started = true := by
  cases act with
  | refuse failure | closeNote => exact started
  | take path event =>
    by_cases starts : event.kind = .documentStart
    · rw [perform, take_start starts]
      rfl
    · exact (take_retains starts commission session edition).started.trans started

/-- A run that has met the start of a document and has not failed is started. -/
theorem started_of_start {acts : List Act} {outcome : Outcome} {path : List String} {start : Event}
    (member : .take path start ∈ acts) (starts : start.kind = .documentStart)
    (fine : (acts.foldl (step commission) outcome).failure = none) :
    (acts.foldl (step commission) outcome).session.started = true := by
  obtain ⟨before,behind,rfl⟩ := List.append_of_mem member
  rw [List.foldl_append, List.foldl_cons] at fine ⊢
  have begun : (step commission (before.foldl (step commission) outcome) (.take path start)).session.started =
      true := by
    rw [step_performed (success_before fine), perform, take_start starts]
    rfl
  have stays : ∀ act ∈ behind, ∀ session edition, session.started = true →
      (perform commission session edition act).session.started = true :=
    fun act _ _ edition started => perform_started started edition act
  exact kept_by_run begun stays

/-- A block graft does nothing by itself. -/
theorem step_of_block {outcome : Outcome} {event : Event} {target : String} (path : List String)
    (started : outcome.failure = none → outcome.session.started = true)
    (made : Graft.ofEvent? commission.profile event = some (.block target)) :
    step commission outcome (.take path event) = outcome := by
  cases fine : outcome.failure with
  | some failure => simp [step, fine]
  | none =>
    rw [step_of_success fine, perform, take_of_select (started fine) (Graft.select_of_block made)]
    obtain ⟨session,edition,failure⟩ := outcome
    cases fine
    rfl

theorem foldl_of_inlines
    (acyclic : ∀ name, ¬Relation.TransGen (Graft.Leads commission.profile commission.sequences) name name)
    {events more : List Event} (inlines : Graft.Inlines commission.profile commission.sequences events more)
    (outcome : Outcome) :
    (Graft.unfold commission.profile commission.sequences [] more).foldl (step commission) outcome =
      (Graft.unfold commission.profile commission.sequences [] events).foldl (step commission) outcome := by
  cases inlines with
  | @intro before event target inner behind started made found =>
    let front := (Graft.unfold commission.profile commission.sequences [] before).foldl (step commission) outcome
    have begun : front.failure = none → front.session.started = true := by
      obtain ⟨start,member,starts⟩ := started
      exact started_of_start (Graft.take_mem_unfold [] member) starts
    have root (list : List Event) : Graft.Ahead commission.profile commission.sequences [] list := by
      simp [Graft.Ahead]
    have within : Graft.Ahead commission.profile commission.sequences ([] ++ [target]) inner :=
      (root [event]).within (by simp) made found
    have bare := Graft.foldl_unfold_path acyclic _ inner [] within (root inner) front
    rw [Graft.unfold_append, Graft.unfold_append, Graft.unfold_append, Graft.unfold_cons,
      Graft.after_of_found made (by simp) found]
    simp only [List.foldl_append, List.foldl_cons, Graft.closing, List.foldl_nil]
    rw [step_of_block [] begun made]
    exact congrArg (List.foldl _ · _) bare.symm

end Session

namespace Document
variable {document : Document} {profile : Profile} {settings : Settings} {edition : Edition}

theorem renderAs_of_inlines
    (acyclic : ∀ name, ¬Relation.TransGen (Graft.Leads profile document.sequences) name name)
    {events : List Event}
    (inlines : Relation.ReflTransGen (Graft.Inlines profile document.sequences) document.events events) :
    ({document with events := events} : Document).renderAs profile settings edition =
      document.renderAs profile settings edition := by
  induction inlines with
  | refl => rfl
  | @tail list more _ step ih =>
    have same : ({document with events := more} : Document).outcome profile settings edition =
        ({document with events := list} : Document).outcome profile settings edition :=
      Session.foldl_of_inlines acyclic step ⟨{},edition,none⟩
    rw [← ih, renderAs_eq, renderAs_eq, same]
    rfl

/-- A followed block graft means the events of its sequence: a document is rendered in the same way,
with the same result and the same edition, after any such replacements. They can go on until none is
left, and `expanded` is what they then come to. -/
theorem renderAs_inlined
    (acyclic : ∀ name, ¬Relation.TransGen (Graft.Leads profile document.sequences) name name)
    (settings : Settings) (edition : Edition) :
    let inlines := Relation.ReflTransGen (Graft.Inlines profile document.sequences)
    let expanded := Graft.expanded profile document.sequences document.events
    (∀ events, inlines document.events events →
      ({document with events := events} : Document).renderAs profile settings edition =
        document.renderAs profile settings edition) ∧
      inlines document.events expanded ∧
      ∀ events, ¬Graft.Inlines profile document.sequences expanded events := by
  intro inlines expanded
  refine ⟨fun events replaced => renderAs_of_inlines acyclic replaced,Graft.inlines_expanded document.events [],?_⟩
  intro events further
  generalize whole : expanded = all at further
  cases further with
  | intro started made found =>
    rw [Graft.expanded_settled acyclic whole started made] at found
    cases found

/-- A title with a motto of its own. -/
def titled : Document where
  headers := ⟨"MRK",none,none,none,none,none⟩
  events := [.documentStart, .blockGraft .main "title" "title", .blockStart .main "blockTag/p",
    .word .main "verily", .blockEnd .main "blockTag/p", .sequenceEnd .main]
  sequences := .ofList [
    ("title", [.blockStart .title "blockTag/mt", .word .title "Mark",
      .blockEnd .title "blockTag/mt", .blockGraft .title "heading" "motto"]),
    ("motto", [.blockStart .heading "blockTag/s", .word .heading "good news",
      .blockEnd .heading "blockTag/s"])]

theorem renderAs_titled :
    ({titled with events := [.documentStart, .blockStart .title "blockTag/mt", .word .title "Mark",
        .blockEnd .title "blockTag/mt", .blockStart .heading "blockTag/s", .word .heading "good news",
        .blockEnd .heading "blockTag/s", .blockStart .main "blockTag/p", .word .main "verily",
        .blockEnd .main "blockTag/p", .sequenceEnd .main]} : Document).renderAs .canonical {} {} =
      titled.renderAs .canonical {} {} := by
  have acyclic : ∀ name, ¬Relation.TransGen (Graft.Leads .canonical titled.sequences) name name := by
    refine Graft.acyclic_of_rank (fun name => if name = "title" then 1 else 0) ?_
    decide +kernel
  let front : List Event := [.documentStart, .blockStart .title "blockTag/mt", .word .title "Mark",
    .blockEnd .title "blockTag/mt"]
  let title : Event := .blockGraft .main "title" "title"
  let motto : Event := .blockGraft .title "heading" "motto"
  have titleMade : Graft.ofEvent? .canonical title = some (.block "title") := by decide +kernel
  have mottoMade : Graft.ofEvent? .canonical motto = some (.block "motto") := by decide +kernel
  have first : Graft.Inlines .canonical titled.sequences ([.documentStart] ++ title :: titled.events.drop 2) _ :=
    .intro ⟨_,.head _,rfl⟩ titleMade rfl
  have second : Graft.Inlines .canonical titled.sequences (front ++ motto :: titled.events.drop 2) _ :=
    .intro ⟨_,.head _,rfl⟩ mottoMade rfl
  exact (renderAs_inlined acyclic {} {}).1 _ (.tail (.single first) second)

end Document
end Scriptorium
