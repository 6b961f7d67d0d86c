import Scriptorium.Event

/-! Why the rendering of a document can stop. Oddities of the content are no failures: they
are reported in the log and the content passes through. -/
namespace Scriptorium

inductive Tracker
  | chapter | verse
  deriving DecidableEq, Repr

inductive Failure
  | stackUnderflow
  | unbalancedStack (depth : Nat)
  | trackerNotWaiting (tracker : Tracker)
  | missingGlossaryAside (entry : UInt32)
  | unknownSequence (name : String)
  | recursiveSequence (name : String)
  | documentNotStarted (kind : EventKind)
  | documentIncomplete (book : String)
  deriving DecidableEq, Repr

def Tracker.name : Tracker → String
  | chapter => "chapter"
  | verse => "verse"

def Failure.message : Failure → String
  | stackUnderflow => "render stack underflow: the document root row cannot be popped"
  | unbalancedStack depth =>
    "render stack unbalanced at main sequence end: " ++ toString depth ++ " rows open"
  | trackerNotWaiting tracker => tracker.name ++ " tracker flushed while idle"
  | missingGlossaryAside entry =>
    "glossary index " ++ toString entry ++ " has no aside id configured"
  | unknownSequence name => "unknown sequence: " ++ name
  | recursiveSequence name => "sequence " ++ name ++ " is grafted into itself"
  | documentNotStarted kind => kind.title ++ " event received before document start"
  | documentIncomplete book => "document " ++ book ++ " ended without a main sequence end"

end Scriptorium
