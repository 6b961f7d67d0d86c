import Scriptorium.Index

/-! What a reader may choose about the pages: spacing and direction, the custom style sheet,
and the glossary that marked words are linked to. -/
namespace Scriptorium

/-- How high punctuation is spaced: not at all, by adding a no-break space, or by changing
the space that is there. -/
inductive FrenchSpacing
  | off | add | change
  deriving DecidableEq, Repr

inductive Direction
  | ltr | rtl
  deriving DecidableEq, Repr

def Direction.name : Direction → String
  | ltr => "ltr"
  | rtl => "rtl"

def Direction.reversed : Direction → Direction
  | ltr => rtl
  | rtl => ltr

def FrenchSpacing.name : FrenchSpacing → String
  | off => "off"
  | add => "add"
  | change => "change"

structure Layout where
  frenchSpacing : FrenchSpacing := .off
  direction : Direction := .ltr
  /-- Books set against the chosen direction. -/
  reversedBooks : Index String Unit := ∅
  customCss : Bool := false
  deriving DecidableEq

/-- Terms lead to entry numbers, and entry numbers to the asides of the glossary page. -/
structure Settings where
  layout : Layout := {}
  terms : Index String UInt32 := ∅
  asides : Index UInt32 String := ∅
  deriving DecidableEq

namespace Settings

def withFrenchSpacing (settings : Settings) (spacing : FrenchSpacing) : Settings :=
  {settings with layout := {settings.layout with frenchSpacing := spacing}}

def withDirection (settings : Settings) (direction : Direction) : Settings :=
  {settings with layout := {settings.layout with direction := direction}}

/-- A term always comes with the aside of its entry. -/
def withTerm (settings : Settings) (term : String) (entry : UInt32) (aside : String) : Settings :=
  {settings with
    terms := settings.terms.insert term entry
    asides := settings.asides.insert entry aside}

def withReversedBook (settings : Settings) (book : String) : Settings :=
  {settings with layout := {settings.layout with
    reversedBooks := settings.layout.reversedBooks.insert book ()}}

def withCustomCss (settings : Settings) (chosen : Bool) : Settings :=
  {settings with layout := {settings.layout with customCss := chosen}}

end Settings
end Scriptorium
