import Bilingual.Yaml.Error

set_option autoImplicit false

/-! # Places in a YAML text

YAML gives meaning to line and column, so reading keeps both beside the rest of the text. Line breaks are
the line feed, the next-line character and the two Unicode separators; carriage returns have been replaced
before reading. -/

namespace Bilingual.Yaml

/-- A place in a text: what follows, and the index, line and column of its first code point. -/
structure Cursor where
  rest : Text
  index : Nat := 0
  line : Nat := 0
  column : Nat := 0
deriving DecidableEq, Repr

/-- A line break. -/
def isBreak (c : CodePoint) : Bool :=
  c == '\n' || c.val == 0x85 || c.val == 0x2028 || c.val == 0x2029

/-- A space or a tab. -/
def isBlank (c : CodePoint) : Bool := c == ' ' || c == '\t'

/-- Whether a line ends here: a line break or nothing follows. -/
def endsLine (c : Option CodePoint) : Bool := c.all isBreak

/-- Whether a word ends here: white space or nothing follows. -/
def endsWord (c : Option CodePoint) : Bool := c.all fun c => isBlank c || isBreak c

/-- An ASCII letter, a digit, a hyphen or an underscore. -/
def isNamePoint (c : CodePoint) : Bool :=
  c.isAsciiLetter || c.isAsciiDigit || c == '-' || c == '_'

/-- What a run of line breaks stands for inside a flowing text, given what the first one and the others
stand for: a single line feed becomes a space, and the first of several is dropped. -/
def foldBreaks (first others : Text) : Text :=
  if first ≠ "\n" then first ++ others else if others.isEmpty then " " else others

namespace Cursor

/-- The code point at a place, or one further on. -/
def peek (c : Cursor) (ahead : Nat := 0) : Option CodePoint := c.rest[ahead]?

/-- The place behind one code point. A byte order mark takes no column. -/
def next (c : Cursor) : Cursor :=
  match c.rest with
  | [] => c
  | p :: rest =>
    if isBreak p then { rest, index := c.index + 1, line := c.line + 1, column := 0 }
    else { rest, index := c.index + 1, line := c.line
           column := if p.val = 0xFEFF then c.column else c.column + 1 }

/-- The place behind a number of code points. -/
def advance : Nat → Cursor → Cursor
  | 0, c => c
  | n + 1, c => advance n c.next

/-- The longest run of code points of a class, and the place behind it. -/
def run (p : CodePoint → Bool) (c : Cursor) : Text × Cursor :=
  let taken := c.rest.takeWhile p
  (taken, advance taken.length c)

/-- The place behind the longest run of code points of a class. -/
def skip (p : CodePoint → Bool) (c : Cursor) : Cursor := (c.run p).2

/-- The place behind the spaces. -/
def skipSpaces (c : Cursor) : Cursor := c.skip (· == ' ')

/-- Whether a text follows. -/
def startsWith (c : Cursor) (t : Text) : Bool := t.isPrefixOf c.rest

/-- Whether one of the marks between documents follows. -/
def atDocumentMark (c : Cursor) : Bool :=
  (c.startsWith "---" || c.startsWith "...") && endsWord (c.peek 3)

/-- What a line break stands for, and the place behind it: a separator stands for itself and any other
break for a line feed. -/
def lineBreak? (c : Cursor) : Option (Text × Cursor) :=
  match c.rest with
  | [] => none
  | p :: _ =>
    if !isBreak p then none
    else if p == '\n' || p.val == 0x85 then some ("\n", c.next)
    else some ([p], c.next)

/-- The rest of a line that may hold nothing but a comment, with its break. -/
def skipComment (c : Cursor) : Except Error Cursor :=
  let c := c.skipSpaces
  let c := if c.peek == some ('#' : CodePoint) then c.skip (!isBreak ·) else c
  if endsLine c.peek then .ok c.next else .error .malformed

end Cursor

end Bilingual.Yaml
