import Scriptorium.Event
import Scriptorium.Index
import Scriptorium.Profile

/-! A document to be rendered: its headers, its main events and the sequences that are
grafted into them. -/
namespace Scriptorium

structure Headers where
  bookCode : String
  h : Option String := none
  toc : Option String := none
  toc2 : Option String := none
  toc3 : Option String := none
  periphTitle : Option String := none
  deriving DecidableEq, Repr

structure Titles where
  heading : String
  long : String
  short : String
  abbreviation : String
  deriving DecidableEq, Repr

def Titles.repeated (title : String) : Titles := ⟨title,title,title,title⟩

namespace Headers

def withHeading (headers : Headers) (h : String) : Headers := {headers with h := some h}

def withToc (headers : Headers) (toc toc2 toc3 : String) : Headers :=
  {headers with toc := some toc, toc2 := some toc2, toc3 := some toc3}

def withPeriphTitle (headers : Headers) (title : String) : Headers :=
  {headers with periphTitle := some title}

/-- Where the finished page is kept in the package. -/
def key (headers : Headers) : String :=
  "OEBPS/XHTML/" ++ headers.bookCode ++ "/" ++ headers.bookCode ++ ".xhtml"

def heading (headers : Headers) : String := headers.h.getD ""

def titles (headers : Headers) : TitleSource → Titles
  | .headers => ⟨headers.heading,headers.toc.getD "",headers.toc2.getD "",headers.toc3.getD ""⟩
  | .peripheral => .repeated (headers.periphTitle.getD "")

end Headers

structure Document where
  headers : Headers
  profile : ProfileKind := .canonical
  events : List Event := []
  sequences : Index String (List Event) := ∅
  deriving DecidableEq

namespace Document

def withEvents (document : Document) (events : List Event) : Document :=
  {document with events := document.events ++ events}

def withSequence (document : Document) (name : String) (events : List Event) : Document :=
  {document with sequences := document.sequences.insert name events}

end Document
end Scriptorium
