import Scriptorium.Event
import Scriptorium.Gathering
import Scriptorium.Settings
import Scriptorium.Text.Markup

/-! Spacing of high punctuation as in French. In mode `add` the space comes with the
punctuation; in mode `change` the last space of the row before it is made a no-break space. -/
namespace Scriptorium.Spacing

def narrow : String := "&#8239;"
def wide : String := "&#160;"

/-- The entity that stands before high punctuation. -/
def entity? (text : String) : Option String :=
  if text == ";" || text == "!" || text == "?" then some narrow
  else if text == ":" || text == "»" then some wide
  else none

/-- Replace one space at the end of a fragment. -/
def respaceEnd (entity fragment : String) : String :=
  if fragment.toList.getLast? = some ' ' then String.ofList fragment.toList.dropLast ++ entity
  else fragment

/-- The fragment for a token, and the row as it is to stand before that fragment. -/
def render (mode : FrenchSpacing) (subType text : String) (row : Gathering String) :
    String × Gathering String :=
  if Event.isSpaceType subType then (" ", row)
  else match mode with
    | .off => (Text.escape text, row)
    | .add => match entity? text with
      | some entity => (entity ++ text, row)
      | none => (if text == "«" then text ++ wide else text, row)
    | .change => match entity? text with
      | some entity => (text, row.retouch (respaceEnd entity))
      | none => (Text.escape text, row)

end Scriptorium.Spacing
