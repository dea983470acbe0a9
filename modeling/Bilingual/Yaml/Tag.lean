import Bilingual.Text.Utf8
import Bilingual.Yaml.Cursor

set_option autoImplicit false

/-! # Tags, anchors and directives

The marks in front of a node and of a document. A tag is a suffix behind a handle, which directives may
define, or is written in full. -/

namespace Bilingual.Yaml

/-- A tag as it is written: in full when it has no handle. -/
structure WrittenTag where
  handle : Option Text
  suffix : Text
deriving DecidableEq, Repr

/-- A line in front of a document. -/
inductive Directive where
  | version (major : Nat)
  | tag (handle start : Text)
  | other
deriving DecidableEq, Repr

/-- A code point of a tag that stands for itself. -/
def isTagPoint (p : CodePoint) : Bool :=
  p.isAsciiLetter || p.isAsciiDigit || (Text.ofString "-;/?:@&=+$,_.!~*'()[]").contains p

/-- Whether a directive or a tag may end here. -/
def endsMark (c : Option CodePoint) : Bool := c.all fun (p : CodePoint) => p == ' ' || isBreak p

namespace Cursor

/-- Succeed with the place when a condition holds there. -/
def expect (condition : Option CodePoint → Bool) (c : Cursor) : Except Error Cursor :=
  if condition c.peek then .ok c else .error .malformed

/-- The place behind a given code point, which has to follow. -/
def expectPoint (p : CodePoint) (c : Cursor) : Except Error Cursor :=
  if c.peek = some p then .ok c.next else .error .malformed

/-- The bytes that follow as hexadecimal numbers behind percent signs. -/
def percentBytes : Nat → Cursor → Except Error (List UInt8 × Cursor)
  | 0, c => .ok ([], c)
  | fuel + 1, c =>
    if c.peek = some ('%' : CodePoint) then
      match (c.peek 1).bind CodePoint.hexValue?, (c.peek 2).bind CodePoint.hexValue? with
      | some a, some b => do
        let (others, c) ← percentBytes fuel (c.advance 3)
        return (UInt8.ofNat (16 * a + b) :: others, c)
      | _, _ => .error .malformed
    else .ok ([], c)

/-- The text of a tag from a place on. -/
def tagText : Nat → Cursor → Except Error (Text × Cursor)
  | 0, c => .ok ([], c)
  | fuel + 1, c =>
    if c.peek = some ('%' : CodePoint) then do
      let (bytes, c) ← percentBytes (c.rest.length + 1) c
      match Text.Utf8.decode? bytes with
      | none => .error .malformed
      | some text =>
        let (others, c) ← tagText fuel c
        return (text ++ others, c)
    else
      match c.run isTagPoint with
      | ([], c) => .ok ([], c)
      | (text, c) => do
        let (others, c) ← tagText fuel c
        return (text ++ others, c)

/-- The text of a tag, which must not be empty. -/
def someTagText (c : Cursor) : Except Error (Text × Cursor) := do
  let (text, c) ← c.tagText (c.rest.length + 1)
  if text.isEmpty then throw .malformed
  return (text, c)

/-- A tag handle: an exclamation mark, or a name between two of them. -/
def tagHandle (c : Cursor) : Except Error (Text × Cursor) := do
  let c ← c.expectPoint '!'
  if c.peek = some (' ' : CodePoint) then return ("!", c)
  let (name, c) := c.run isNamePoint
  return ("!" ++ name ++ "!", ← c.expectPoint '!')

/-- The name of an anchor or an alias, and the place behind it. -/
def anchorName (c : Cursor) : Except Error (Text × Cursor) := do
  let (name, c) := c.run isNamePoint
  let ends := endsWord c.peek || c.peek.any fun p => (Text.ofString "?:,]\x7d%@\x60").contains p
  if name.isEmpty || !ends then throw .malformed
  return (name, c)

/-- A tag and the place behind it. The place before is that of its exclamation mark. -/
def tag (c : Cursor) : Except Error (WrittenTag × Cursor) := do
  let (tag, c) : WrittenTag × Cursor ←
    if c.peek 1 = some ('<' : CodePoint) then do
      let (text, c) ← (c.advance 2).someTagText
      pure (⟨none, text⟩, ← c.expectPoint '>')
    else if endsWord (c.peek 1) then pure (⟨none, ("!" : Text)⟩, c.next)
    else do
      let word := c.rest.tail.takeWhile fun (p : CodePoint) => !(p == ' ' || isBreak p)
      let (handle, c) ←
        if word.contains ('!' : CodePoint) then c.tagHandle else pure (("!" : Text), c.next)
      let (suffix, c) ← c.someTagText
      pure (⟨some handle, suffix⟩, c)
  return (tag, ← c.expect endsMark)

/-- A number of a version, and the place behind it. -/
def versionNumber (c : Cursor) : Except Error (Nat × Cursor) :=
  let (digits, c) := c.run CodePoint.isAsciiDigit
  match Text.decimalNumber? digits with
  | some n => .ok (n, c)
  | none => .error .malformed

/-- A directive and the place behind its line. The place before is that of its percent sign. -/
def directive (c : Cursor) : Except Error (Directive × Cursor) := do
  let (name, c) := c.next.run isNamePoint
  if name.isEmpty then throw .malformed
  let c ← c.expect endsMark
  let (directive, c) : Directive × Cursor ←
    if name = "YAML" then do
      let (major, c) ← c.skipSpaces.versionNumber
      let (_, c) ← (← c.expectPoint '.').versionNumber
      pure (.version major, ← c.expect endsMark)
    else if name = "TAG" then do
      let (handle, c) ← c.skipSpaces.tagHandle
      let c ← c.expect (· == some (' ' : CodePoint))
      let (start, c) ← c.skipSpaces.someTagText
      pure (.tag handle start, ← c.expect endsMark)
    else pure (.other, c.skip (!isBreak ·))
  return (directive, ← c.skipComment)

end Cursor

end Bilingual.Yaml
