import Scriptorium.Chapter
import Scriptorium.Document
import Scriptorium.Notes
import Scriptorium.Settings

/-! The finished page: its head, its chapter navigation, and its composition from the parts
that a rendering has gathered. -/
namespace Scriptorium

structure Page where
  key : String
  markup : String
  chapters : List ChapterLink
  deriving DecidableEq, Repr

namespace Page

def styleSheet (href : String) : String :=
  "<link" ++ Text.attributes [("type", "text/css"), ("rel", "stylesheet"), ("href", href)] ++ " />\n"

def head (profile : Profile) (settings : Settings) (title : String) : List String :=
  ["<meta charset=\"utf-8\"/>\n", styleSheet "../../CSS/styles.css"] ++
    (if profile.customCss && settings.layout.customCss then [styleSheet "../../CSS/custom.css"] else []) ++
    [Text.element "title" [] (Text.escape title)]

/-- The chosen direction, turned round for the reversed books when the profile allows it. -/
def direction (profile : Profile) (settings : Settings) (headers : Headers) : Direction :=
  if profile.reversibleDirection && settings.layout.reversedBooks.contains headers.bookCode then
    settings.layout.direction.reversed
  else settings.layout.direction

def chapterLink (href label : String) : String :=
  Text.element "span" [("class", "chapter_link")] (Text.element "a" [("href", href)] label)

def navigation (chapters : List ChapterLink) : String :=
  Text.element "div" [("class", "chapter_nav")]
    (chapterLink "../../toc.xhtml" "^" ++
      String.join (chapters.map fun chapter =>
        " " ++ chapterLink ("#chapter_" ++ chapter.id) chapter.label)) ++ "\n"

end Page

/-- The parts of a page; `chapters` is none where the profile has no navigation. -/
structure Composition where
  direction : Direction := .ltr
  head : List String := []
  chapters : Option (List ChapterLink) := none
  bodyHead : List String := []
  body : List String := []
  notes : Notes := {}

namespace Composition

def navigation (parts : Composition) : String :=
  match parts.chapters with
  | none | some [] => ""
  | some chapters => Page.navigation chapters

def pageBody (parts : Composition) : String :=
  Text.element "body" [("id", "top")]
    ("\n" ++ parts.navigation ++
      Text.element "header" [] ("\n" ++ String.join parts.bodyHead ++ "\n") ++ "\n" ++
      Text.element "section" [("epub:type", "bodymatter")]
        ("\n" ++ String.join parts.body ++ "\n") ++ "\n" ++
      parts.notes.asides)

def markup (parts : Composition) : String :=
  "<!DOCTYPE html>\n" ++
    Text.element "html"
      [("xmlns", "http://www.w3.org/1999/xhtml"), ("xmlns:epub", "http://www.idpf.org/2007/ops"),
        ("dir", parts.direction.name)]
      ("\n" ++ Text.element "head" [] ("\n" ++ String.join parts.head ++ "\n") ++ "\n" ++
        parts.pageBody ++ "\n") ++ "\n"

end Composition
end Scriptorium
