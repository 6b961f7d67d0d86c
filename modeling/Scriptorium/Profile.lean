/-! What a document of some sort may hold. A profile switches rules on and off; what a rule
does is the same under every profile. -/
namespace Scriptorium

/-- Where the entry in the register of titles is taken from. -/
inductive TitleSource
  | headers | peripheral
  deriving DecidableEq, Repr

structure Profile where
  chapters : Bool
  verses : Bool
  xrefNotes : Bool
  tableCells : Bool
  glossaryLinks : Bool
  customCss : Bool
  chapterNavigation : Bool
  introductionSeparator : Bool
  reversibleDirection : Bool
  titleSource : TitleSource
  deriving DecidableEq, Repr

inductive ProfileKind
  | canonical | peripheral
  deriving DecidableEq, Repr

namespace Profile

/-- A book with chapters and verses. -/
def canonical : Profile where
  chapters := true
  verses := true
  xrefNotes := true
  tableCells := false
  glossaryLinks := true
  customCss := true
  chapterNavigation := true
  introductionSeparator := true
  reversibleDirection := false
  titleSource := .headers

/-- Front or back matter, without chapters, perhaps with tables. -/
def peripheral : Profile where
  chapters := false
  verses := false
  xrefNotes := false
  tableCells := true
  glossaryLinks := true
  customCss := false
  chapterNavigation := false
  introductionSeparator := false
  reversibleDirection := true
  titleSource := .peripheral

end Profile

def ProfileKind.profile : ProfileKind → Profile
  | canonical => Profile.canonical
  | peripheral => Profile.peripheral

end Scriptorium
