import Mathlib.Logic.Function.Basic
import Scriptorium.Proofs.WholeEditions

/-! Sessions that take turns. Any number of them may render into one edition, event by event and in
any order: where their books differ each goes as it would go alone, and the edition holds in the end
what it would hold had they come one after the other. -/
namespace Scriptorium

/-- Who drives a session, and after which failures the next event is still dispatched. -/
structure Worker where
  commission : Commission
  goesOn : Failure → Bool

/-- How far a worker has come, with the results of all dispatches so far. -/
structure Progress where
  session : Session := {}
  results : List (Option Failure) := []

namespace Worker

def rests (worker : Worker) (progress : Progress) : Bool :=
  progress.results.any fun result => result.any fun failure => !worker.goesOn failure

/-- The next event of a worker, which is passed over once the worker rests. -/
def dispatch (worker : Worker) (event : Event) (progress : Progress) (edition : Edition) :
    Progress × Edition :=
  if worker.rests progress then (progress, edition)
  else
    let outcome := Session.dispatch worker.commission event progress.session edition
    (⟨outcome.session,progress.results ++ [outcome.failure]⟩, outcome.edition)

/-- The worker by itself, on a new edition. -/
def alone (worker : Worker) (events : List Event) : Progress × Edition :=
  events.foldl (fun state event => worker.dispatch event state.1 state.2) ({}, {})

def finish (worker : Worker) (progress : Progress) : Except Failure Page :=
  progress.session.finish worker.commission

variable (worker : Worker)

theorem dispatch_after (event : Event) (progress : Progress) (edition : Edition) :
    worker.dispatch event progress edition =
      ((worker.dispatch event progress {}).1, edition.extend (worker.dispatch event progress {}).2) := by
  have apart : Session.dispatch worker.commission event progress.session edition =
      (Session.dispatch worker.commission event progress.session {}).after edition :=
    Session.performAll_after [] ⟨progress.session,{},none⟩ [event]
  unfold dispatch
  split
  · rfl
  · rw [apart]
    rfl

theorem dispatch_ofBook (event : Event) (progress : Progress) :
    (worker.dispatch event progress {}).2.OfBook worker.commission.headers := by
  unfold dispatch
  split
  · exact .empty _
  · exact Session.performAll_ofBook (.empty _) [] [event]

theorem alone_concat (events : List Event) (event : Event) :
    worker.alone (events ++ [event]) =
      worker.dispatch event (worker.alone events).1 (worker.alone events).2 := by
  rw [alone, List.foldl_append]
  rfl

end Worker

/-- All that the parts hold, each of a book of its own, is in the whole, and nothing else is. -/
structure Edition.Woven {ι : Type} (headers : ι → Headers) (parts : ι → Edition) (whole : Edition) :
    Prop where
  own : ∀ i, (parts i).OfBook (headers i)
  titles : ∀ book titles, whole.titles.find? book = some titles ↔
    ∃ i, (parts i).titles.find? book = some titles
  pages : ∀ key markup, whole.pages.find? key = some markup ↔
    ∃ i, (parts i).pages.find? key = some markup
  log : ∀ i, whole.log.toList.filter (fun remark => remark.document = (headers i).bookCode) =
    (parts i).log.toList

section
variable {ι : Type}

/-- An index stays the union of its parts, which have a key of their own each, when it gets what one
of them gets. -/
theorem Index.find?_merge_of_union {α : Type} {owned : ι → String} {contents grown : ι → Index String α}
    {whole added : Index String α} {i : ι}
    (union : ∀ key value, whole.find? key = some value ↔ ∃ j, (contents j).find? key = some value)
    (distinct : Function.Injective owned) (own : ∀ j key, key ≠ owned j → (contents j).find? key = none)
    (new : ∀ key, key ≠ owned i → added.find? key = none)
    (grows : grown i = (contents i).merge added) (stays : ∀ j, j ≠ i → grown j = contents j)
    (key : String) (value : α) :
    (whole.merge added).find? key = some value ↔ ∃ j, (grown j).find? key = some value := by
  have apart (j : ι) (different : j ≠ i) (found : (contents j).find? key = some value) :
      added.find? key = none := by
    refine new key fun same => ?_
    rw [own j key fun also => different (distinct (also.symm.trans same))] at found
    cases found
  rw [find?_merge]
  cases had : added.find? key with
  | some later =>
    rw [Option.some_or]
    constructor
    · intro same
      refine ⟨i,?_⟩
      rw [grows, find?_merge, had, Option.some_or, same]
    · rintro ⟨j,found⟩
      by_cases same : j = i
      · rwa [same, grows, find?_merge, had, Option.some_or] at found
      · rw [stays j same] at found
        rw [apart j same found] at had
        cases had
  | none =>
    rw [Option.none_or, union]
    refine exists_congr fun j => ?_
    by_cases same : j = i
    · rw [same, grows, find?_merge, had, Option.none_or]
    · rw [stays j same]

namespace Edition
variable {headers : ι → Headers} {parts grown : ι → Edition} {whole other added : Edition} {i : ι}

theorem OfBook.extend {book : Headers} (earlier : whole.OfBook book) (later : added.OfBook book) :
    (whole.extend added).OfBook book where
  titles code different := by
    rw [Edition.extend, Index.find?_merge, earlier.titles code different, later.titles code different]
    rfl
  pages key different := by
    rw [Edition.extend, Index.find?_merge, earlier.pages key different, later.pages key different]
    rfl
  log remark member := by
    rw [Edition.extend, Gathering.toList_append] at member
    exact (List.mem_append.mp member).elim (earlier.log remark) (later.log remark)

theorem Woven.empty (headers : ι → Headers) : Woven headers (fun _ => {}) {} where
  own i := .empty (headers i)
  titles _ _ := ⟨nofun,nofun⟩
  pages _ _ := ⟨nofun,nofun⟩
  log _ := rfl

/-- What is added to the whole and to the part of its book leaves them woven. -/
theorem Woven.extend (woven : Woven headers parts whole)
    (distinct : Function.Injective fun i => (headers i).bookCode) (new : added.OfBook (headers i))
    (grows : grown i = (parts i).extend added) (stays : ∀ j, j ≠ i → grown j = parts j) :
    Woven headers grown (whole.extend added) where
  own j := by
    by_cases same : j = i
    · rw [same, grows]
      exact (woven.own i).extend new
    · rw [stays j same]
      exact woven.own j
  titles :=
    Index.find?_merge_of_union woven.titles distinct (fun j => (woven.own j).titles) new.titles
      (congrArg Edition.titles grows) fun j different => congrArg Edition.titles (stays j different)
  pages := by
    have keys : Function.Injective fun i => (headers i).key :=
      fun one other same => distinct (Headers.bookCode_of_key same)
    exact Index.find?_merge_of_union woven.pages keys (fun j => (woven.own j).pages) new.pages
      (congrArg Edition.pages grows) fun j different => congrArg Edition.pages (stays j different)
  log j := by
    rw [Edition.extend, Gathering.toList_append, List.filter_append, woven.log j]
    by_cases same : j = i
    · rw [same, grows, Edition.extend, Gathering.toList_append]
      congr 1
      exact List.filter_eq_self.mpr fun remark member => decide_eq_true (new.log remark member)
    · rw [stays j same, List.filter_eq_nil_iff.mpr, List.append_nil]
      intro remark member also
      exact same (distinct ((of_decide_eq_true also).symm.trans (new.log remark member)))

theorem Woven.titles_eq (one : Woven headers parts whole) (two : Woven headers parts other) :
    whole.titles = other.titles :=
  Index.ext_find? fun book => Option.ext fun titles => (one.titles book titles).trans (two.titles book titles).symm

theorem Woven.pages_eq (one : Woven headers parts whole) (two : Woven headers parts other) :
    whole.pages = other.pages :=
  Index.ext_find? fun key => Option.ext fun markup => (one.pages key markup).trans (two.pages key markup).symm

end Edition
end

/-- Workers over one edition. -/
structure Workshop (ι : Type) where
  progress : ι → Progress := fun _ => {}
  edition : Edition := {}

namespace Workshop
variable {ι : Type} [DecidableEq ι]

def dispatch (workers : ι → Worker) (shop : Workshop ι) (turn : ι × Event) : Workshop ι :=
  let (progress, edition) := (workers turn.1).dispatch turn.2 (shop.progress turn.1) shop.edition
  ⟨Function.update shop.progress turn.1 progress,edition⟩

/-- The workers take their turns on a new edition. -/
def run (workers : ι → Worker) (schedule : List (ι × Event)) : Workshop ι :=
  schedule.foldl (dispatch workers) {}

/-- The events of one worker in a schedule. -/
def share (i : ι) (schedule : List (ι × Event)) : List Event :=
  (schedule.filter fun turn => turn.1 = i).map Prod.snd

def Interleaves (events : ι → List Event) (schedule : List (ι × Event)) : Prop :=
  ∀ i, share i schedule = events i

/-- One worker after the other, each with all its events. -/
def oneByOne (events : ι → List Event) (order : List ι) : List (ι × Event) :=
  order.flatMap fun i => (events i).map fun event => (i, event)

variable {workers : ι → Worker} {events : ι → List Event}

theorem share_concat (i : ι) (schedule : List (ι × Event)) (turn : ι × Event) :
    share i (schedule ++ [turn]) =
      if turn.1 = i then share i schedule ++ [turn.2] else share i schedule := by
  simp only [share, List.filter_append, List.map_append]
  split <;> simp [*]

theorem share_oneByOne (events : ι → List Event) (i : ι) (order : List ι) (once : order.Nodup) :
    share i (oneByOne events order) = if i ∈ order then events i else [] := by
  induction order with
  | nil => rfl
  | cons first rest ih =>
    obtain ⟨fresh,once⟩ := List.nodup_cons.mp once
    have split : share i (oneByOne events (first :: rest)) =
        (if first = i then events first else []) ++ share i (oneByOne events rest) := by
      simp only [share, oneByOne, List.flatMap_cons, List.filter_append, List.map_append]
      congr 1
      by_cases same : first = i <;> simp [List.filter_map, Function.comp_def, same]
    rw [split, ih once]
    by_cases same : first = i
    · subst same
      simp [fresh]
    · simp [same, Ne.symm same]

theorem interleaves_oneByOne {order : List ι} (once : order.Nodup)
    (all : ∀ i, events i ≠ [] → i ∈ order) : Interleaves events (oneByOne events order) := by
  intro i
  rw [share_oneByOne events i order once]
  split
  next => rfl
  next absent => exact (Decidable.not_not.mp fun some => absent (all i some)).symm

/-- After any schedule each worker is where its own events alone have brought it, and the edition is
woven of what the workers leave alone. -/
theorem run_woven (distinct : Function.Injective fun i => (workers i).commission.headers.bookCode)
    (schedule : List (ι × Event)) :
    (∀ i, (run workers schedule).progress i = ((workers i).alone (share i schedule)).1) ∧
      Edition.Woven (fun i => (workers i).commission.headers)
        (fun i => ((workers i).alone (share i schedule)).2) (run workers schedule).edition := by
  induction schedule using List.reverseRecOn with
  | nil => exact ⟨fun _ => rfl,.empty _⟩
  | append_singleton schedule turn ih =>
    obtain ⟨progress,woven⟩ := ih
    obtain ⟨i,event⟩ := turn
    have ran : run workers (schedule ++ [(i, event)]) = dispatch workers (run workers schedule) (i, event) :=
      List.foldl_concat _ _ _ _
    have grows : (workers i).alone (share i (schedule ++ [(i, event)])) =
        (workers i).dispatch event ((workers i).alone (share i schedule)).1
          ((workers i).alone (share i schedule)).2 := by
      rw [share_concat, if_pos rfl, Worker.alone_concat]
    have stays : ∀ j, j ≠ i → share j (schedule ++ [(i, event)]) = share j schedule := fun j different => by
      rw [share_concat, if_neg (Ne.symm different)]
    rw [Worker.dispatch_after] at grows
    rw [ran, dispatch, Worker.dispatch_after, progress i]
    refine ⟨fun j => ?_,?_⟩
    · by_cases same : j = i
      · subst same
        simp only [Function.update_self, grows]
      · simp only [Function.update_of_ne same, stays j same, progress j]
    · refine woven.extend distinct (Worker.dispatch_ofBook _ event _) ?_ fun j different => ?_
      · exact congrArg Prod.snd grows
      · simp only [stays j different]

/-- Sessions of different books do not notice each other. However their dispatches are interleaved,
each has the results, the state and the page that it has alone; the register and the pages are those
of the sessions one after the other, in any order; and what is logged of a book is what its session
logs alone. -/
theorem run_interleaved (distinct : Function.Injective fun i => (workers i).commission.headers.bookCode)
    {schedule : List (ι × Event)} (interleaved : Interleaves events schedule) :
    let shop := run workers schedule
    let solo i := (workers i).alone (events i)
    (∀ i, (shop.progress i).results = (solo i).1.results ∧ (shop.progress i).session = (solo i).1.session ∧
      (workers i).finish (shop.progress i) = (workers i).finish (solo i).1) ∧
      (∀ order : List ι, order.Nodup → (∀ i, events i ≠ [] → i ∈ order) →
        let inTurn := run workers (oneByOne events order)
        shop.edition.titles = inTurn.edition.titles ∧ shop.edition.pages = inTurn.edition.pages) ∧
      ∀ i, shop.edition.log.toList.filter (fun remark => remark.document = (workers i).commission.headers.bookCode) =
        (solo i).2.log.toList := by
  intro shop solo
  have after {schedule : List (ι × Event)} (interleaved : Interleaves events schedule) :
      (∀ i, (run workers schedule).progress i = (solo i).1) ∧
        Edition.Woven (fun i => (workers i).commission.headers) (fun i => (solo i).2)
          (run workers schedule).edition := by
    have ran := run_woven distinct schedule
    simp only [interleaved _] at ran
    exact ran
  obtain ⟨progress,woven⟩ := after interleaved
  refine ⟨fun i => ?_,fun order once all => ?_,woven.log⟩
  · rw [progress i]
    exact ⟨rfl,rfl,rfl⟩
  · have inTurn := (after (interleaves_oneByOne once all)).2
    exact ⟨woven.titles_eq inTurn,woven.pages_eq inTurn⟩

/-- Of two gospels the one goes on after a failure and the other does not. -/
def gospels : Bool → Worker
  | true => ⟨{profile := .canonical, headers := ⟨"MRK",none,none,none,none,none⟩},fun _ => true⟩
  | false => ⟨{profile := .peripheral, headers := ⟨"LUK",none,none,none,none,none⟩},fun _ => false⟩

/-- Both fail at the end of a block that they never began. -/
def byTurns : List (Bool × Event) :=
  [.documentStart, .blockEnd .main "blockTag/p", .sequenceEnd .main].flatMap fun event =>
    [(true, event), (false, event)]

theorem run_gospels :
    let shop := run gospels byTurns
    let events i := share i byTurns
    let inTurn := run gospels (oneByOne events [false, true])
    (shop.progress true).results = ((gospels true).alone (events true)).1.results ∧
      (shop.progress false).results = ((gospels false).alone (events false)).1.results ∧
      shop.edition.titles = inTurn.edition.titles ∧ shop.edition.pages = inTurn.edition.pages := by
  intro shop events inTurn
  have distinct : Function.Injective fun i => (gospels i).commission.headers.bookCode := by
    intro one other same
    cases one <;> cases other <;> simp [gospels] at same ⊢
  have interleaved : Interleaves events byTurns := fun _ => rfl
  obtain ⟨alone,orders,_⟩ := run_interleaved distinct interleaved
  exact ⟨(alone true).1,(alone false).1,orders [false, true] (by decide) (by decide)⟩

end Workshop
end Scriptorium
