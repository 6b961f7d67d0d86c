/-! Messages as a console without colours shows them. The later lines of a message are indented,
and control characters are left out together with the sequences that they begin. -/
namespace Scriptorium.Command.Console

/-- Where in a control sequence a character stands: outside of any, after an escape, or in one of
the sequences that an escape may open. The head of a device control comes before its string. -/
inductive Place
  | outside
  | escape | escapeMark
  | sequence
  | device | deviceNumber | deviceMark
  | controlString
  | command
  deriving DecidableEq, Repr

def between (low high : Nat) (c : Char) : Bool := low ≤ c.toNat && c.toNat ≤ high

def isAscii (c : Char) : Bool := c.toNat < 0x80

/-- The control characters that are blanks. -/
def isBlankControl (c : Char) : Bool := ['\t', '\n', '\x0c', '\r'].contains c

/-- What is shown outside of control sequences. -/
def isText (c : Char) : Bool := isBlankControl c || (0x20 ≤ c.toNat && c != '\x7f')

/-- A string also ends at the byte 9C, even as a part of another character. -/
def endsString (c : Char) : Bool := !isAscii c && (String.utf8EncodeChar c).contains 0x9C

def afterEscape (c : Char) : Place :=
  match c with
  | '[' => .sequence
  | ']' => .command
  | 'P' => .device
  | 'X' | '^' | '_' => .controlString
  | c =>
    if between 0x20 0x2F c then .escapeMark
    else if between 0x30 0x7E c then .outside
    else .escape

/-- In the head of a device control: marks may follow numbers but not come before them. -/
def inDevice (place : Place) (c : Char) : Place :=
  if between 0x40 0x7E c then .controlString
  else if between 0x20 0x2F c then .deviceMark
  else if between 0x30 0x3B c then (if place == .deviceMark then .controlString else .deviceNumber)
  else if between 0x3C 0x3F c then (if place == .device then .deviceNumber else .controlString)
  else place

/-- The place after a character that is not shown. -/
def next (place : Place) (c : Char) : Place :=
  if c == '\x1b' then .escape
  else if c == '\x18' || c == '\x1a' then .outside
  else match place with
    | .outside => .outside
    | .escape => afterEscape c
    | .escapeMark => if between 0x30 0x7E c then .outside else .escapeMark
    | .sequence => if between 0x40 0x7E c then .outside else .sequence
    | .device | .deviceNumber | .deviceMark => inDevice place c
    | .controlString => if endsString c then .outside else .controlString
    | .command => if c == '\x07' then .outside else .command

/-- Whether a character begins a stretch that is shown. Within a short sequence a blank does so:
the sequence goes on after the stretch. -/
def opens (place : Place) (c : Char) : Bool :=
  match place with
  | .outside => isText c
  | .escape | .escapeMark | .sequence => isBlankControl c
  | .device | .deviceNumber | .deviceMark | .controlString | .command => false

/-- The characters that are shown, of a text whose first character stands at a place; `open` tells
whether a stretch that is shown goes on there. -/
def plain : Bool → Place → List Char → List Char
  | _, _, [] => []
  | isOpen, place, c :: rest =>
    if if isOpen then isText c else opens place c then
      c :: plain true (if isAscii c then place else .outside) rest
    else plain false (next place c) rest

def indent (cs : List Char) : List Char :=
  cs.flatMap fun c => if c = '\n' then ['\n', ' ', ' ', ' ', ' '] else [c]

def shown (message : String) : String :=
  String.ofList (plain true .outside (indent message.toList))

end Scriptorium.Command.Console
