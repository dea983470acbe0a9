import Bilingual.Literal.Escape
import Bilingual.Yaml.Cursor

set_option autoImplicit false

/-! # Quoted YAML scalars

Between single quotes only the quote itself is special, and is written twice. Between double quotes a
backslash begins an escape, also of a line break, which then stands for nothing. Line breaks of both kinds
are folded, and the blanks around them are dropped. -/

namespace Bilingual.Yaml.Quoted

/-- What the escapes of one letter stand for. -/
def letterEscapes : List (Char × Nat) :=
  [('0', 0), ('a', 7), ('b', 8), ('t', 9), ('\t', 9), ('n', 10), ('v', 11), ('f', 12), ('r', 13),
   ('e', 0x1B), (' ', 0x20), ('"', 0x22), ('\\', 0x5C), ('/', 0x2F), ('N', 0x85), ('_', 0xA0),
   ('L', 0x2028), ('P', 0x2029)]

/-- How many hexadecimal digits follow the letter of a numbered escape. -/
def numberEscapes : List (Char × Nat) := [('x', 2), ('u', 4), ('U', 8)]

/-- What is listed for a letter. -/
def listed? (table : List (Char × Nat)) (p : CodePoint) : Option Nat :=
  table.findSome? fun (letter, n) => if CodePoint.ofChar letter = p then some n else none

/-- The code point with a number that an escape names. -/
def point (n : Nat) : Except Error CodePoint := (Literal.codePoint n).mapError .escape

/-- The breaks of lines that hold nothing but blanks. A mark between documents must not begin a line of a
quoted scalar. -/
def emptyLines : Nat → Cursor → Except Error (Text × Cursor)
  | 0, c => .ok ([], c)
  | fuel + 1, c =>
    if c.atDocumentMark then .error .malformed
    else
      let c := c.skip isBlank
      match c.lineBreak? with
      | none => .ok ([], c)
      | some (text, c) => do
        let (others, c) ← emptyLines fuel c
        return (text ++ others, c)

/-- What an escape stands for, and the place behind it. The place before is that of the letter. -/
def escape (c : Cursor) : Except Error (Text × Cursor) :=
  match c.rest with
  | [] => .error .malformed
  | letter :: rest =>
    match listed? letterEscapes letter, listed? numberEscapes letter, c.lineBreak? with
    | some n, _, _ => do return ([← point n], c.next)
    | none, some width, _ =>
      match Literal.fixedHex? width rest with
      | some n => do return ([← point n], c.advance (width + 1))
      | none => .error .malformed
    | none, none, some (_, c) => emptyLines (c.rest.length + 1) c
    | none, none, none => .error .malformed

/-- What a run of blanks and line breaks stands for, and the place behind it. -/
def space (c : Cursor) : Except Error (Text × Cursor) :=
  let (blanks, c) := c.run isBlank
  match c.lineBreak? with
  | none => .ok (blanks, c)
  | some (first, c) => do
    let (others, c) ← emptyLines (c.rest.length + 1) c
    return (foldBreaks first others, c)

/-- One piece of a scalar between double quotes; none at the closing quote. -/
def doublePiece? (c : Cursor) (p : CodePoint) : Except Error (Option (Text × Cursor)) :=
  if p = '"' then return none
  else if p = '\\' then some <$> escape c.next
  else if isBlank p || isBreak p then some <$> space c
  else return some ([p], c.next)

/-- One piece of a scalar between single quotes; none at the closing quote. -/
def singlePiece? (c : Cursor) (p : CodePoint) : Except Error (Option (Text × Cursor)) :=
  if p = '\'' then
    if c.peek 1 = some ('\'' : CodePoint) then return some (['\''], c.advance 2) else return none
  else if isBlank p || isBreak p then some <$> space c
  else return some ([p], c.next)

/-- The text up to the closing quote, and the place behind that quote. -/
def body (double : Bool) : Nat → Cursor → Except Error (Text × Cursor)
  | 0, _ => .error .malformed
  | fuel + 1, c =>
    match c.rest with
    | [] => .error .malformed
    | p :: _ => do
      match ← if double then doublePiece? c p else singlePiece? c p with
      | none => return ([], c.next)
      | some (piece, c) =>
        let (others, c) ← body double fuel c
        return (piece ++ others, c)

/-- The text of a quoted scalar, and the place behind it. The place before is that of the opening
quote. -/
def read (double : Bool) (c : Cursor) : Except Error (Text × Cursor) :=
  body double (c.rest.length + 1) c.next

end Bilingual.Yaml.Quoted
