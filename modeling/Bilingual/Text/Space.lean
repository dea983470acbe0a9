import Bilingual.Text.CodePoint

set_option autoImplicit false

/-! # Whitespace

Whitespace is the Unicode property `White_Space` together with the four information separators
U+001C to U+001F. The zero-width space and the byte order mark are not whitespace. -/

namespace Bilingual

/-- Whether a code point has the property `White_Space`. -/
def CodePoint.isWhiteSpace (c : CodePoint) : Bool :=
  let n := c.val
  (0x09 ≤ n && n ≤ 0x0D) || n == 0x20 || n == 0x85 || n == 0xA0 || n == 0x1680 ||
    (0x2000 ≤ n && n ≤ 0x200A) || n == 0x2028 || n == 0x2029 || n == 0x202F || n == 0x205F ||
    n == 0x3000

/-- Whether a code point is whitespace. -/
def CodePoint.isSpace (c : CodePoint) : Bool := c.isWhiteSpace || (0x1C ≤ c.val && c.val ≤ 0x1F)

namespace Text

/-- The whitespace a text begins with. -/
def leadingSpace (t : Text) : Text := t.takeWhile CodePoint.isSpace

/-- The text without the whitespace it begins with. -/
def trimLeft (t : Text) : Text := t.dropWhile CodePoint.isSpace

/-- The text without the whitespace it ends with. -/
def trimRight (t : Text) : Text := (t.reverse.dropWhile CodePoint.isSpace).reverse

/-- The text without the whitespace at both ends. -/
def trim (t : Text) : Text := t.trimLeft.trimRight

/-- The text without the code points of the property `White_Space` at both ends, as it is read where a
number is expected. The information separators stay. -/
def trimWhiteSpace (t : Text) : Text :=
  ((t.dropWhile CodePoint.isWhiteSpace).reverse.dropWhile CodePoint.isWhiteSpace).reverse

/-- The maximal runs of other code points between whitespace, in order. -/
def words (t : Text) : List Text := go [] t
where
  /-- `current` is the run being read, reversed. -/
  go (current : Text) : Text → List Text
    | [] => if current.isEmpty then [] else [current.reverse]
    | c :: rest =>
      if c.isSpace then
        if current.isEmpty then go [] rest else current.reverse :: go [] rest
      else go (c :: current) rest

end Text

end Bilingual
