import Scriptorium.Proofs.WaitingLabels

/-! Labels in their places. A label that waits goes to the next content token and to no other
event: the heading of a chapter to the end of the body, the number of a verse into the row. -/
namespace Scriptorium

namespace Spacing

/-- The fragment for a token: the row before it has no part in it. -/
def shown (mode : FrenchSpacing) (subType text : String) : String := (render mode subType text {}).1

theorem render_shown (mode : FrenchSpacing) (subType text : String) (row : Gathering String) :
    (render mode subType text row).1 = shown mode subType text := by
  unfold shown render
  split
  · rfl
  · cases mode with
    | off => rfl
    | add | change => cases entity? text <;> rfl

theorem respaceEnd_marker (entity label : String) :
    respaceEnd entity (VerseTracker.marker label) = VerseTracker.marker label := by
  have last : (VerseTracker.marker label).toList.getLast? = some ';' := by
    rw [VerseTracker.marker, String.toList_append, List.getLast?_append]
    rfl
  rw [respaceEnd, last, if_neg (by decide)]

/-- The number of a verse ends in no space that could be replaced. -/
theorem render_after_marker (mode : FrenchSpacing) (subType text label : String) (row : Gathering String) :
    (render mode subType text (row.add (VerseTracker.marker label))).2 =
      row.add (VerseTracker.marker label) := by
  have retouched (entity : String) :
      (row.add (VerseTracker.marker label)).retouch (respaceEnd entity) =
        row.add (VerseTracker.marker label) := by
    rw [← Gathering.toList_inj, Gathering.toList_retouch_add, respaceEnd_marker, Gathering.toList_add]
  unfold render
  split
  · rfl
  · cases mode with
    | off => rfl
    | add => cases entity? text <;> rfl
    | change =>
      cases entity? text with
      | none => rfl
      | some entity => exact retouched entity

end Spacing

def Draft.unlabelled (draft : Draft) : Draft := {draft with chapter := {}, verses := {}}

def Session.unlabelled (session : Session) : Session := {session with draft := session.draft.unlabelled}

def Outcome.unlabelled (outcome : Outcome) : Outcome :=
  {outcome with session := outcome.session.unlabelled}

namespace Session
variable {commission : Commission} {event : Event} {session : Session} {edition : Edition}

end Session

namespace Act

def event? : Act → Option Event
  | .take _ event => some event
  | .refuse _ | .closeNote => none

def events (acts : List Act) : List Event := acts.filterMap event?

end Act

namespace Session
variable {commission : Commission}

end Session

namespace Document
variable {document : Document} {profile : Profile} {settings : Settings} {edition : Edition}

end Document

namespace Session
variable {event : Event} {session : Session}

end Session

namespace Document
variable {document : Document} {profile : Profile} {settings : Settings} {edition : Edition}

/-- A chapter and a verse before a paragraph, and another label of the chapter in it. -/
def opening : Document where
  headers := ⟨"MRK",none,none,none,none,none⟩
  events := [.documentStart, .scopeStart .main "chapter/1", .scopeStart .main "verses/1",
    .blockStart .main "blockTag/p", .scopeStart .main "pubChapter/A", .word .main "In",
    .blockEnd .main "blockTag/p", .sequenceEnd .main]

end Document
end Scriptorium
