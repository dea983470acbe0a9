import Bilingual.Yaml.Cursor

set_option autoImplicit false

/-! # Block scalars

A block scalar is a run of lines that are indented more than the block around it. Its header says whether
lines are folded, how much the lines are indented (else the first line with text decides), and what
becomes of the line breaks at its end: one is kept, or all, or none. -/

namespace Bilingual.Yaml.BlockScalar

/-- What becomes of the line breaks at the end. -/
inductive Chomping where
  | clip
  | keep
  | strip
deriving DecidableEq, Repr

/-- The header of a block scalar behind its first mark. -/
structure Header where
  chomping : Chomping := .clip
  indent : Option Nat := none
deriving DecidableEq, Repr

/-- Read the sign that tells what becomes of the breaks at the end. -/
def chomping? (c : Cursor) : Option (Chomping × Cursor) :=
  if c.peek = some ('+' : CodePoint) then some (.keep, c.next)
  else if c.peek = some ('-' : CodePoint) then some (.strip, c.next)
  else none

/-- Read the digit that tells the indentation. -/
def indent? (c : Cursor) : Option (Nat × Cursor) := do
  return (← (← c.peek).digitValue?, c.next)

/-- Read a header in either order, up to the end of its line. -/
def header (c : Cursor) : Except Error (Header × Cursor) := do
  let (header, c) : Header × Cursor :=
    match chomping? c with
    | some (chomping, c) => match indent? c with
      | some (n, c) => ({ chomping, indent := some n }, c)
      | none => ({ chomping }, c)
    | none => match indent? c with
      | some (n, c) => match chomping? c with
        | some (chomping, c) => ({ chomping, indent := some n }, c)
        | none => ({ indent := some n }, c)
      | none => ({}, c)
  let spaceFollows := c.peek.all fun (p : CodePoint) => p == ' ' || isBreak p
  if header.indent = some 0 ∨ !spaceFollows then throw .malformed
  return (header, ← c.skipComment)

/-- Skip the spaces of an indentation. -/
def skipIndent (indent : Nat) (c : Cursor) : Cursor :=
  let spaces := c.rest.takeWhile fun (p : CodePoint) => p == ' '
  c.advance (min spaces.length (indent - c.column))

/-- The breaks of lines without text in front of the first one with text, the greatest indentation seen,
and the place behind. -/
def leadingLines (indent : Nat) : Nat → Cursor → Text × Nat × Cursor
  | 0, c => ([], indent, c)
  | fuel + 1, c =>
    let c := c.skipSpaces
    let indent := max indent c.column
    match c.lineBreak? with
    | none => ([], indent, c)
    | some (text, c) =>
      let (others, indent, c) := leadingLines indent fuel c
      (text ++ others, indent, c)

/-- The breaks of lines without text between lines of a given indentation, and the place behind. -/
def emptyLines (indent : Nat) : Nat → Cursor → Text × Cursor
  | 0, c => ([], c)
  | fuel + 1, c =>
    let c := skipIndent indent c
    match c.lineBreak? with
    | none => ([], c)
    | some (text, c) =>
      let (others, c) := emptyLines indent fuel c
      (text ++ others, c)

/-- What the breaks between two lines stand for. Only between two lines that both begin without a blank
are they folded. -/
def between (folded : Bool) (first : Text) (blankLine : Bool) (others : Text) (next : Option CodePoint) :
    Text :=
  if folded && first == Text.ofString "\n" && !blankLine && !next.any isBlank then
    if others.isEmpty then " " else others
  else first ++ others

/-- The lines of a block scalar from one with text on, and the place behind them. -/
def lines (folded : Bool) (chomping : Chomping) (indent : Nat) : Nat → Cursor → Text × Cursor
  | 0, c => ([], c)
  | fuel + 1, c =>
    let blankLine := c.peek.any isBlank
    let (line, c) := c.run (!isBreak ·)
    let (first, c) := c.lineBreak?.getD ([], c)
    let (others, c) := emptyLines indent (c.rest.length + 1) c
    if c.column = indent && !c.rest.isEmpty then
      let (rest, behind) := lines folded chomping indent fuel c
      (line ++ between folded first blankLine others c.peek ++ rest, behind)
    else
      let trailing := match chomping with
        | .strip => []
        | .clip => first
        | .keep => first ++ others
      (line ++ trailing, c)

/-- Read a block scalar inside a block whose lines need at least the given indentation. The place before
is that of its first mark. -/
def read (folded : Bool) (least : Nat) (c : Cursor) : Except Error (Text × Cursor) := do
  let (header, c) ← header c.next
  let (leading, indent, c) := match header.indent with
    | some n =>
      let indent := least + n - 1
      let (breaks, c) := emptyLines indent (c.rest.length + 1) c
      (breaks, indent, c)
    | none => leadingLines least (c.rest.length + 1) c
  if c.column = indent && !c.rest.isEmpty then
    let (text, c) := lines folded header.chomping indent (c.rest.length + 1) c
    return (leading ++ text, c)
  else
    return (if header.chomping = .keep then leading else [], c)

end Bilingual.Yaml.BlockScalar
