import Bilingual.Text.Space

set_option autoImplicit false

/-! # Integers in texts

Where a model wants an integer it also takes a text that writes one: digits with a sign in front, with
single underscores between them, zeros in front of them, and a point with nothing but zeros behind them.
Behind zeros a minus sign may still come. -/

namespace Bilingual.IntegerText

/-- Whether a digit other than zero or a minus sign begins a number here. -/
def beginsNumber (c : CodePoint) : Bool := c == '-' || (c.isAsciiDigit && c != '0')

/-- What is left of a text behind zeros and underscores. `last` is the one read last, which stays in front
of a point and at the end. -/
def behindZeros? (last : CodePoint) : Text → Option Text
  | [] => some [last]
  | c :: rest =>
    if c = '0' ∨ c = '_' then behindZeros? c rest
    else if beginsNumber c then some (c :: rest)
    else if c = '.' then some (last :: c :: rest)
    else none

/-- The text without the zeros in front of its number. -/
def withoutZeros? : Text → Option Text
  | [] => none
  | c :: rest =>
    if c = '0' then behindZeros? c rest
    else if beginsNumber c then some (c :: rest)
    else none

/-- The text without a point and the zeros behind it. -/
def withoutFraction (t : Text) : Text :=
  let whole := t.takeWhile (· ≠ ('.' : CodePoint))
  let fraction := t.drop (whole.length + 1)
  if !fraction.isEmpty && fraction.all (· == ('0' : CodePoint)) then whole else t

/-- The text without the underscores in it; none when one of them is not between two digits. `last` is
what has been read last. -/
def withoutUnderscores? (last : Option CodePoint) : Text → Option Text
  | [] => some []
  | c :: rest =>
    if c = '_' then
      if last.any CodePoint.isAsciiDigit && rest.head?.any CodePoint.isAsciiDigit then
        withoutUnderscores? (some c) rest
      else none
    else (withoutUnderscores? (some c) rest).map (c :: ·)

/-- The sign and the digits of the integer that a text writes. Digits do not begin with a zero that could
be left out. -/
def digits? (t : Text) : Option (Bool × Text) := do
  let t := t.trimWhiteSpace
  let t := if t.head? = some ('+' : CodePoint) ∧ t[1]? ≠ some ('-' : CodePoint) then t.tail else t
  let t ← withoutUnderscores? none (withoutFraction (← withoutZeros? t))
  let negative := t.head? = some ('-' : CodePoint)
  let digits := if negative then t.tail else t
  let canonical := digits.length = 1 ∨ digits.head? ≠ some ('0' : CodePoint)
  if canonical ∧ !digits.isEmpty ∧ digits.all CodePoint.isAsciiDigit then some (negative, digits) else none

/-- The most digits that are understood. -/
def mostDigits : Nat := 4300

end Bilingual.IntegerText
