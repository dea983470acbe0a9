import Bilingual.Yaml.Cursor

set_option autoImplicit false

/-! # Plain YAML scalars

A plain scalar has no quotes. It ends at a comment, at a colon in front of white space, and inside flow
collections also at their punctuation. It may go on over line breaks, which are folded, as long as the
next line is indented more than the block it is in. -/

namespace Bilingual.Yaml.Plain

/-- Code points that end a plain scalar inside a flow collection. -/
def isFlowPunctuation (p : CodePoint) : Bool :=
  p == ',' || p == '?' || p == '[' || p == ']' || p == '\x7b' || p == '\x7d'

/-- Code points of a flow collection that end a scalar when they follow a colon. -/
def isFlowBoundary (p : CodePoint) : Bool := isFlowPunctuation p && p != '?'

/-- Code points that begin something else than a plain scalar. -/
def isIndicator (p : CodePoint) : Bool :=
  Text.ofString "-?:,[]\x7b\x7d#&*!|>'\"%@\x60" |>.contains p

/-- Whether a plain scalar begins here. -/
def starts (inFlow : Bool) (c : Cursor) : Bool :=
  match c.peek with
  | none => false
  | some p =>
    (!endsWord (some p) && !isIndicator p) ||
      (!endsWord (c.peek 1) && (p == '-' || (!inFlow && (p == '?' || p == ':'))))

/-- The length of the longest piece of a plain scalar without white space. -/
def pieceLength (inFlow : Bool) : Text → Nat
  | [] => 0
  | p :: rest =>
    let colonEnds := endsWord rest.head? || (inFlow && rest.head?.any isFlowBoundary)
    if endsWord (some p) || (p == ':' && colonEnds) || (inFlow && isFlowPunctuation p) then 0
    else pieceLength inFlow rest + 1

/-- The breaks of lines that hold nothing but spaces; none when a mark between documents follows one. -/
def emptyLines : Nat → Cursor → Option (Text × Cursor)
  | 0, c => some ([], c)
  | fuel + 1, c =>
    let c := c.skipSpaces
    match c.lineBreak? with
    | none => some ([], c)
    | some (text, c) =>
      if c.atDocumentMark then none
      else (emptyLines fuel c).map fun (others, c) => (text ++ others, c)

/-- What the white space behind a piece stands for, whether it goes over a line break, and the place
behind it. White space that ends the scalar stands for nothing. -/
def space (c : Cursor) : Text × Bool × Cursor :=
  let (spaces, c) := c.run (· == ' ')
  match c.lineBreak? with
  | none => (spaces, false, c)
  | some (first, c) =>
    if c.atDocumentMark then ([], true, c)
    else match emptyLines (c.rest.length + 1) c with
      | none => ([], true, c)
      | some (others, c) => (foldBreaks first others, true, c)

/-- A plain scalar that has been read: its text, whether it ends behind a line break, and the place where
it ends. -/
structure Result where
  text : Text
  overBreak : Bool
  behind : Cursor

/-- The pieces from a place on, with the white space in front of each. -/
def pieces (inFlow : Bool) (indent : Nat) (before : Text) (overBreak : Bool) : Nat → Cursor → Result
  | 0, c => ⟨[], overBreak, c⟩
  | fuel + 1, c =>
    let length := pieceLength inFlow c.rest
    if c.peek == some ('#' : CodePoint) || length == 0 then ⟨[], overBreak, c⟩
    else
      let piece := before ++ c.rest.take length
      let (spaces, overBreak, c) := space (c.advance length)
      if spaces.isEmpty || c.peek == some ('#' : CodePoint) || (!inFlow && c.column < indent) then
        ⟨piece, overBreak, c⟩
      else
        let others := pieces inFlow indent spaces overBreak fuel c
        { others with text := piece ++ others.text }

/-- Read a plain scalar whose lines need at least the given indentation. -/
def read (inFlow : Bool) (indent : Nat) (c : Cursor) : Result :=
  pieces inFlow indent [] false (c.rest.length + 1) c

end Bilingual.Yaml.Plain
