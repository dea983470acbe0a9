import Bilingual.Number.Arithmetic
import Bilingual.Text.Word
import Bilingual.Text.Case
import Bilingual.Text.Space
import Bilingual.Yaml.Error

set_option autoImplicit false

/-! # Numerals

How a scalar that is an integer or a number is read. A tag may ask for that where the text is not written
as the format has it, so more is understood than plain scalars make use of: digits of any script, white
space around, and a sign of its own in every place of a sexagesimal numeral. Underscores count for
nothing. -/

namespace Bilingual.Yaml.Numeral

/-- The sign of a numeral and the rest of it. -/
def signed (t : Text) : Bool × Text :=
  if t.head? = some ('-' : CodePoint) then (true, t.tail)
  else if t.head? = some ('+' : CodePoint) then (false, t.tail)
  else (false, t)

/-- The pieces of a text between colons. -/
def colonParts : Text → List Text
  | [] => [[]]
  | c :: rest =>
    if c = ':' then [] :: colonParts rest
    else match colonParts rest with
      | [] => [[c]]
      | part :: others => (c :: part) :: others

/-- A text without the white space around it and with ASCII digits for those of other scripts. -/
def plain (t : Text) : Text :=
  t.trimWhiteSpace.map fun c => match c.decimalValue? with
    | some d => (CodePoint.ofNat? (0x30 + d)).getD c
    | none => c

/-! ## Integers -/

/-- The letter that may stand behind a zero in front of the digits of a base. -/
def baseLetter? : Nat → Option Char
  | 2 => some 'b'
  | 8 => some 'o'
  | 16 => some 'x'
  | _ => none

/-- The digits of a numeral without the mark of its base. -/
def withoutMark (base : Nat) (t : Text) : Text :=
  match baseLetter? base with
  | some letter =>
    let marked : Bool := t.head? = some ('0' : CodePoint) ∧
      (t[1]? = some (letter : CodePoint) ∨ t[1]? = some (letter.toUpper : CodePoint))
    if marked then t.drop 2 else t
  | none => t

/-- The integer that a text writes to a base. -/
def inBase? (base : Nat) (t : Text) : Option Int := do
  let (negative, t) := signed (plain t)
  let digits := withoutMark base t
  if digits.isEmpty then none
  let n ← digits.foldlM (fun n c => do
    let d ← c.hexValue?.filter (· < base)
    return n * base + d) 0
  return if negative then -(n : Int) else n

/-- The integer that a text writes to a base, or the fault that it writes none. -/
def inBase (base : Nat) (t : Text) : Except ScalarFault Int :=
  match inBase? base t with
  | some n => .ok n
  | none => .error (.integer base t)

/-- The integer that a text writes behind its sign: binary, hexadecimal, octal behind a zero,
sexagesimal, or decimal. -/
def magnitude (t : Text) : Except ScalarFault Int := do
  if t = ("0" : Text) then return 0
  else if (Text.ofString "0b").isPrefixOf t then inBase 2 (t.drop 2)
  else if (Text.ofString "0x").isPrefixOf t then inBase 16 (t.drop 2)
  else if t.isEmpty then throw .noDigits
  else if t.head? = some ('0' : CodePoint) then inBase 8 t
  else if t.contains (':' : CodePoint) then
    let places ← (colonParts t).mapM (inBase 10)
    return places.foldl (fun n place => n * 60 + place) 0
  else inBase 10 t

/-- The integer that a scalar writes. -/
def integer (t : Text) : Except ScalarFault Int := do
  let t := t.filter (· ≠ ('_' : CodePoint))
  if t.isEmpty then throw .noDigits
  let (negative, t) := signed t
  let n ← magnitude t
  return if negative then -n else n

/-! ## Numbers -/

/-- The words for numbers that are not finite, with any sign in front of them. -/
def words : List (Text × Binary64) :=
  [("inf", .infinite false), ("infinity", .infinite false), ("nan", .nan)]

/-- An exponent with its letter; none is zero. -/
def exponent? : Text → Option Int
  | [] => some 0
  | letter :: rest => do
    if letter ≠ 'e' then none
    let (negative, digits) := signed rest
    let n ← Text.decimalNumber? digits
    return if negative then -(n : Int) else n

/-- The number that digits with a point and an exponent write. -/
def decimal? (t : Text) : Option Binary64 := do
  let whole := t.takeWhile CodePoint.isAsciiDigit
  let behind := t.drop whole.length
  let fraction :=
    if behind.head? = some ('.' : CodePoint) then behind.tail.takeWhile CodePoint.isAsciiDigit else []
  let behind := if behind.head? = some ('.' : CodePoint) then behind.drop (fraction.length + 1) else behind
  let power ← exponent? behind
  let digits ← Text.decimalNumber? (whole ++ fraction)
  return Binary64.ofDecimal false digits (power - fraction.length)

/-- The number that a text in small letters writes, or the fault that it writes none. -/
def place (t : Text) : Except ScalarFault Binary64 :=
  let (negative, unsigned) := signed (plain t)
  let x? := (words.findSome? fun (word, x) => if unsigned = word then some x else none) <|> decimal? unsigned
  match x? with
  | some x => .ok (if negative then x.negate else x)
  | none => .error (.number t)

/-- Add places of weights 1, 60, 60², … to a sum, the last place first. -/
def weigh (sum : Binary64) (weight : Nat) : List Binary64 → Except ScalarFault Binary64
  | [] => .ok sum
  | x :: rest =>
    let factor := Binary64.ofNat weight
    if factor.isFinite then weigh (sum.add (x.mul factor)) (weight * 60) rest else .error .tooManyPlaces

/-- The number that a text in small letters writes behind its sign. -/
def unsignedNumber (t : Text) : Except ScalarFault Binary64 := do
  if t = (".inf" : Text) then return .infinite false
  else if t = (".nan" : Text) then return .nan
  else if t.contains (':' : CodePoint) then
    let places ← (colonParts t).mapM place
    weigh .zero 1 places.reverse
  else place t

/-- The number that a scalar writes. -/
def number (t : Text) : Except ScalarFault Binary64 := do
  let t := Text.lower (t.filter (· ≠ ('_' : CodePoint)))
  if t.isEmpty then throw .noDigits
  let (negative, t) := signed t
  let x ← unsignedNumber t
  return if negative then x.negate else x

end Bilingual.Yaml.Numeral
