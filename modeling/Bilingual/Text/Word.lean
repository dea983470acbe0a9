import Bilingual.Text.CodePoint
import Bilingual.Text.WordRanges

set_option autoImplicit false

/-! # Digits and word code points

Every script with decimal digits has ten of them in a row, zero first. A word code point is a letter or a
number of any script, or the underscore. An identifier may also hold `$`, which is why a label never starts
right after a word code point or a `$`. -/

namespace Bilingual

/-! ## Decimal digits of any script -/

/-- The digits zero of the scripts beyond ASCII, in increasing order. This is data of Unicode 14.0. -/
def Text.decimalZeros : List Nat := [
  0x660, 0x6F0, 0x7C0, 0x966, 0x9E6, 0xA66, 0xAE6, 0xB66, 0xBE6, 0xC66, 0xCE6, 0xD66, 0xDE6, 0xE50,
  0xED0, 0xF20, 0x1040, 0x1090, 0x17E0, 0x1810, 0x1946, 0x19D0, 0x1A80, 0x1A90, 0x1B50, 0x1BB0,
  0x1C40, 0x1C50, 0xA620, 0xA8D0, 0xA900, 0xA9D0, 0xA9F0, 0xAA50, 0xABF0, 0xFF10, 0x104A0, 0x10D30,
  0x11066, 0x110F0, 0x11136, 0x111D0, 0x112F0, 0x11450, 0x114D0, 0x11650, 0x116C0, 0x11730,
  0x118E0, 0x11950, 0x11C50, 0x11D50, 0x11DA0, 0x16A60, 0x16AC0, 0x16B50, 0x1D7CE, 0x1D7D8,
  0x1D7E2, 0x1D7EC, 0x1D7F6, 0x1E140, 0x1E2F0, 0x1E950, 0x1FBF0]

/-- The value of a decimal digit of any script. -/
def CodePoint.decimalValue? (c : CodePoint) : Option Nat :=
  if c.val < 0x80 then c.digitValue?
  else Text.decimalZeros.findSome? fun first =>
    if first ≤ c.val ∧ c.val < first + 10 then some (c.val - first) else none

/-! ## Words and identifiers -/

namespace Text

/-- Whether `n` lies in one of the given ranges, which are in increasing order. -/
def inRanges (n : Nat) : List (Nat × Nat) → Bool
  | [] => false
  | (low, high) :: rest => if n < low then false else n ≤ high || inRanges n rest

end Text

namespace CodePoint

/-- A letter or a number of any script, or the underscore. -/
def isWord (c : CodePoint) : Bool :=
  if c.val < 0x80 then c.isAsciiLetter || c.isAsciiDigit || c == '_'
  else Text.inRanges c.val Text.wordRanges

/-- A word code point or `$`. -/
def isIdentifier (c : CodePoint) : Bool := c == '$' || c.isWord

/-- An ASCII letter, `_` or `$`: what an identifier starts with. -/
def isIdentifierStart (c : CodePoint) : Bool := c.isAsciiLetter || c == '_' || c == '$'

end CodePoint

/-- Whether a text is an identifier: an ASCII letter, `_` or `$`, then word code points and `$`. -/
def Text.isIdentifier : Text → Bool
  | [] => false
  | c :: rest => c.isIdentifierStart && rest.all CodePoint.isIdentifier

end Bilingual
