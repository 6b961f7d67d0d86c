import Scriptorium.Failure
import Scriptorium.Rule

/-! Grafts unfolded. A followed graft is replaced by the events of its sequence, and so on
inside that sequence, so that a run is one list of acts. A sequence that is being replayed is
not replayed again inside itself: each replay uses up one more of the names, which is why the
unfolding ends. -/
namespace Scriptorium

/-- One act of a run. An event is taken while the sequences of its path are being replayed,
outermost first; a refusal stands in the place of a sequence that cannot be replayed; and a
note is closed after its sequence. -/
inductive Act
  | take (path : List String) (event : Event)
  | refuse (failure : Failure)
  | closeNote
  deriving DecidableEq, Repr

inductive Graft
  | block (target : String)
  | note (target : String)
  deriving DecidableEq, Repr

namespace Graft

def target : Graft → String
  | block target | note target => target

/-- What comes after the grafted sequence. -/
def closing : Graft → List Act
  | block _ => []
  | note _ => [.closeNote]

/-- The graft that an event makes under a profile, if a rule follows it. -/
def ofEvent? (profile : Profile) (event : Event) : Option Graft :=
  match Rule.select? profile event with
  | some .followBlockGraft => some (.block event.graftTarget)
  | some .noteGraft => some (.note event.graftTarget)
  | _ => none

/-- The names that are not being replayed. -/
def idle (sequences : Index String (List Event)) (path : List String) : List String :=
  sequences.keys.filter fun name => !path.contains name

theorem idle_shrinks {sequences : Index String (List Event)} {path : List String} {name : String}
    {events : List Event} (found : sequences.find? name = some events) (fresh : name ∉ path) :
    (idle sequences (path ++ [name])).length < (idle sequences path).length := by
  have member : name ∈ idle sequences path :=
    List.mem_filter.mpr ⟨Index.mem_keys_of_find? found,by simpa using fresh⟩
  have narrower : idle sequences (path ++ [name]) =
      (idle sequences path).filter (fun other => other != name) := by
    simp only [idle, List.filter_filter]
    apply List.filter_congr
    intro other _
    by_cases same : other = name <;> by_cases inside : other ∈ path <;> simp [same, inside]
  rw [narrower]
  exact List.length_filter_lt_length_iff_exists.mpr ⟨name,member,by simp⟩

/-- The acts of a list of events while the sequences of `path` are being replayed. -/
def unfold (profile : Profile) (sequences : Index String (List Event)) (path : List String) :
    List Event → List Act
  | [] => []
  | event :: rest =>
    let grafted := match ofEvent? profile event with
      | none => []
      | some graft =>
        if _fresh : graft.target ∈ path then [.refuse (.recursiveSequence graft.target)]
        else match _found : sequences.find? graft.target with
          | none => [.refuse (.unknownSequence graft.target)]
          | some events =>
            unfold profile sequences (path ++ [graft.target]) events ++ graft.closing
    .take path event :: grafted ++ unfold profile sequences path rest
termination_by events => ((idle sequences path).length, events.length)
decreasing_by
  · exact .left _ _ (idle_shrinks _found _fresh)
  · exact .right _ (by simp)

/-- The acts of replaying a sequence by its name. -/
def replay (profile : Profile) (sequences : Index String (List Event)) (name : String) : List Act :=
  match sequences.find? name with
  | none => [.refuse (.unknownSequence name)]
  | some events => unfold profile sequences [name] events

end Graft
end Scriptorium
