import Bilingual.Text.Word
import Bilingual.Text.UnprintableRanges

set_option autoImplicit false

/-! # Quoted form of a text in messages

A message shows a text between quotes: single ones, or double ones when the text holds a single quote
and no double quote. Backslashes, the quote in use, line breaks and tabs are escaped with a backslash,
every other unprintable code point by its number in hexadecimal, in the shortest of three widths. -/

namespace Bilingual

/-- Whether a code point is shown as itself: no control, format, surrogate, private, unassigned or
separator code point, the plain space apart. -/
def CodePoint.isPrintable (c : CodePoint) : Bool :=
  if c.val < 0x80 then 0x20 ≤ c.val && c.val < 0x7F
  else !Text.inRanges c.val Text.unprintableRanges

namespace Text

/-- The lower-case hexadecimal digits of `n`, padded with zeros to `width`. -/
def hexPadded (width n : Nat) : Text :=
  let digits : Text := (Nat.toDigits 16 n).map CodePoint.ofChar
  List.replicate (width - digits.length) (CodePoint.ofChar '0') ++ digits

/-- One code point of a text quoted by `quote`. -/
def quotedPoint (quote c : CodePoint) : Text :=
  if c = quote ∨ c = '\\' then ['\\', c]
  else if c = '\n' then "\\n"
  else if c = '\r' then "\\r"
  else if c = '\t' then "\\t"
  else if c.isPrintable then [c]
  else if c.val < 0x100 then "\\x" ++ hexPadded 2 c.val
  else if c.val < 0x10000 then "\\u" ++ hexPadded 4 c.val
  else "\\U" ++ hexPadded 8 c.val

/-- The quote that a text is shown in. -/
def quoteFor (t : Text) : CodePoint :=
  if t.contains ('\'' : CodePoint) && !t.contains ('"' : CodePoint) then '"' else '\''

/-- The quoted form of a text. -/
def quoted (t : Text) : Text :=
  let quote := t.quoteFor
  quote :: t.flatMap (quotedPoint quote) ++ [quote]

/-- The quoted form of a byte sequence: bytes above ASCII show by their number. -/
def quotedBytes (bytes : List UInt8) : Text :=
  let points : Text := bytes.map fun b => CodePoint.ofChar (Char.ofNat b.toNat)
  let quote := points.quoteFor
  let shown := fun c : CodePoint =>
    if c.val < 0x80 then quotedPoint quote c else "\\x" ++ hexPadded 2 c.val
  "b" ++ (quote :: points.flatMap shown ++ [quote])

/-- The quoted forms of several texts, in brackets. -/
def quotedList (ts : List Text) : Text :=
  "[" ++ joinWith ", " (ts.map quoted) ++ "]"

end Text

end Bilingual
