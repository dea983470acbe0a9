import Bilingual.Text.Space

set_option autoImplicit false

/-! # Searching in a text

Offsets count from the start of the whole text. A search window is a pair of offsets; an occurrence
must lie in it as a whole, and no occurrence exists in a window whose start lies beyond its end. -/

namespace Bilingual.Text

/-- The part of a text from `start` up to `stop`. -/
def slice (t : Text) (start stop : Nat) : Text := (t.take stop).drop start

/-- The code point in front of an offset of a text. -/
def before? (t : Text) (offset : Nat) : Option CodePoint := if offset = 0 then none else t[offset - 1]?

/-- The offset of the first occurrence of `needle`. -/
def indexOf? (needle : Text) : Text → Option Nat
  | [] => if needle.isEmpty then some 0 else none
  | c :: rest =>
    if needle.isPrefixOf (c :: rest) then some 0 else (indexOf? needle rest).map (· + 1)

/-- The offset of the first occurrence of `needle` between `start` and `stop`. -/
def find? (t needle : Text) (start stop : Nat) : Option Nat :=
  if start ≤ min stop t.length then (indexOf? needle (t.slice start stop)).map (start + ·)
  else none

/-- The offset just behind the first occurrence of `needle` between `start` and `stop`. -/
def findEnd? (t needle : Text) (start stop : Nat) : Option Nat :=
  (t.find? needle start stop).map (· + needle.length)

/-- The offset behind the last of the given texts, each searched behind the one before. -/
def findAllEnd? (t : Text) (start stop : Nat) : List Text → Option Nat
  | [] => some start
  | needle :: rest => do
    let behind ← t.findEnd? needle start stop
    t.findAllEnd? behind stop rest

/-- Every occurrence of `needle` replaced, from the left and without overlap. `needle` is not empty. -/
def replace (needle replacement t : Text) : Text := go 0 t
where
  /-- `skip` code points belong to an occurrence that has been replaced. -/
  go : Nat → Text → Text
    | _, [] => []
    | skip + 1, _ :: rest => go skip rest
    | 0, c :: rest =>
      if needle.isPrefixOf (c :: rest) then replacement ++ go (needle.length - 1) rest
      else c :: go 0 rest

/-- What stands between the last line break before `offset` and `offset`. -/
def linePrefix (t : Text) (offset : Nat) : Text :=
  ((t.take offset).reverse.takeWhile (· ≠ ('\n' : CodePoint))).reverse

/-- The indentation of the line that holds `offset`: the whitespace its part before `offset` begins
with. -/
def indentAt (t : Text) (offset : Nat) : Text := (t.linePrefix offset).leadingSpace

end Bilingual.Text
