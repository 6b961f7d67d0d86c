import Scriptorium.Failure
import Scriptorium.Settings
import Scriptorium.Text.Markup

/-! Links from marked words to the asides of the glossary page. -/
namespace Scriptorium.Glossary

def link (aside : String) : String :=
  Text.element "a"
    [("epub:type", "noteref"), ("class", "glossaryLink"),
      ("href", "../glossary_notes.xhtml#glo_" ++ aside)] "*"

/-- The link for a key, none for a key that names no entry; an entry must have an aside. -/
def marker? (settings : Settings) (key : String) : Except Failure (Option String) :=
  match settings.terms.find? key with
  | none => .ok none
  | some entry => match settings.asides.find? entry with
    | none => .error (.missingGlossaryAside entry)
    | some aside => .ok (some (link aside))

end Scriptorium.Glossary
