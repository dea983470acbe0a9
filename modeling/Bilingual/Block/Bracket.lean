import Bilingual.Literal.Closing
import Bilingual.Text.Search

set_option autoImplicit false

/-! # Matching brackets

A line comment runs from `//` up to the next line break or the end of the text, a block comment from `/*` to the first
`*/` behind it. The closing bracket that matches an opening one in front of an offset is the first one there that is left
over when brackets are counted. Literals and comments are skipped. Single-line mode gives up at the first line break, in
literals and comments too, and at a line comment, behind which nothing more of the line counts. -/

namespace Bilingual

namespace Comment

/-- Whether a line comment begins with the code point `c`, given the text behind it. -/
def startsLine (c : CodePoint) (rest : Text) : Bool := c == '/' && rest.head? == some ('/' : CodePoint)

/-- Whether a block comment begins with the code point `c`, given the text behind it. -/
def startsBlock (c : CodePoint) (rest : Text) : Bool := c == '/' && rest.head? == some ('*' : CodePoint)

/-- How many code points of the text behind its first slash belong to a line comment. -/
def lineTail (rest : Text) : Nat := (rest.takeWhile (· ≠ ('\n' : CodePoint))).length

/-- How many code points of the text behind its first slash belong to a block comment; none when it is
not closed. -/
def blockTail? (rest : Text) : Option Nat := (Text.indexOf? "*/" (rest.drop 1)).map (· + 3)

end Comment

namespace Bracket

/-- An opening bracket of a block. -/
def isOpening (c : CodePoint) : Bool := c == '{' || c == '['

/-- A closing bracket of a block. -/
def isClosing (c : CodePoint) : Bool := c == '}' || c == ']'

/-- The closing bracket that belongs to an opening one. -/
def closerOf? (c : CodePoint) : Option CodePoint :=
  if c = '{' then some '}' else if c = '[' then some ']' else none

/-- A code point that a literal or a template begins with. -/
def isQuote (c : CodePoint) : Bool := c == '\'' || c == '"' || c == '\x60'

/-- How many code points behind the code point `c` belong to the literal or comment that `c` begins,
given the text behind `c`: none when nothing begins there. The outer option tells whether the scan goes
on: a literal or a block comment without an end stops it, and so does in single-line mode a line comment
or a line break inside. -/
def skipped? (singleLine : Bool) (c : CodePoint) (rest : Text) : Option (Option Nat) :=
  let within := fun n =>
    if singleLine && (rest.take n).contains ('\n' : CodePoint) then none else some (some n)
  if isQuote c then (Literal.closingIn? ['\\'] c [] rest).bind fun n => within (n + 1)
  else if Comment.startsLine c rest then
    if singleLine then none else some (some (Comment.lineTail rest))
  else if Comment.startsBlock c rest then (Comment.blockTail? rest).bind within
  else some none

/-- The offset of the closing bracket in a text that starts at `offset`, where `depth` brackets are open
and the first `skip` code points belong to a literal or comment. -/
def closingFrom? (singleLine : Bool) (skip depth offset : Nat) : Text → Option Nat
  | [] => none
  | c :: rest =>
    match skip with
    | skip + 1 => closingFrom? singleLine skip depth (offset + 1) rest
    | 0 =>
      if singleLine ∧ c = '\n' then none
      else match skipped? singleLine c rest with
        | none => none
        | some (some n) => closingFrom? singleLine n depth (offset + 1) rest
        | some none =>
          if isOpening c then closingFrom? singleLine 0 (depth + 1) (offset + 1) rest
          else if isClosing c then
            match depth with
            | 0 => some offset
            | depth + 1 => closingFrom? singleLine 0 depth (offset + 1) rest
          else closingFrom? singleLine 0 depth (offset + 1) rest

/-- The offset of the first closing bracket from `start` on that is left over, before `stop` if that is
given. -/
def closing? (text : Text) (start : Nat) (stop : Option Nat) (singleLine : Bool) : Option Nat :=
  closingFrom? singleLine 0 0 start (text.slice start (stop.getD text.length))

/-- Whether the scan from `start` gets to the end of the text with nothing left open that would hide what
may stand there: closing brackets put behind the text would be found. -/
def reachesEnd (text : Text) (start : Nat) (singleLine : Bool) : Bool :=
  let continued := text ++ List.replicate (text.length + 1) ('}' : CodePoint)
  (closing? continued start none singleLine).any (text.length ≤ ·)

/-- Whether the scan from `start` up to `stop` asks for more than the text holds. -/
def leavesText (text : Text) (start stop : Nat) (singleLine : Bool) : Bool :=
  text.length < stop && start < stop && (text.length ≤ start || reachesEnd text start singleLine)

end Bracket

end Bilingual
