import Scriptorium.Document
import Scriptorium.Gathering

/-! What the documents of one edition share: the register of titles, the log of oddities, the
pages kept for the package, and a journal of everything reported. All of it only grows, but
for a page or a title that is put in the place of an earlier one. -/
namespace Scriptorium

inductive Level
  | debug | info | warn | error
  deriving DecidableEq, Repr

def Level.name : Level → String
  | debug => "DEBUG"
  | info => "INFO"
  | warn => "WARN"
  | error => "ERROR"

structure Remark where
  message : String
  document : String
  deriving DecidableEq, Repr

structure Edition where
  titles : Index String Titles := ∅
  log : Gathering Remark := {}
  pages : Index String String := ∅
  journal : Gathering (Level × String) := {}
  deriving DecidableEq

namespace Edition

def report (edition : Edition) (level : Level) (message : String) : Edition :=
  {edition with journal := edition.journal.add (level, message)}

def recordTitles (edition : Edition) (book : String) (titles : Titles) : Edition :=
  {edition with titles := edition.titles.insert book titles}

def store (edition : Edition) (key markup : String) : Edition :=
  {edition with pages := edition.pages.insert key markup}

def warn (edition : Edition) (message document : String) : Edition :=
  let logged : Edition := {edition with log := edition.log.add ⟨message,document⟩}
  logged.report .warn (document ++ ": " ++ message)

/-- Take all pages out. -/
def drain (edition : Edition) : Index String String × Edition :=
  (edition.pages, {edition with pages := ∅})

end Edition
end Scriptorium
