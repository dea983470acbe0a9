import Bilingual.Number.Binary64
import Bilingual.Text.CodePoint

set_option autoImplicit false

/-! # The shortest decimal form of a number

A number is written with the fewest significant digits that read back as the same number, and among
those with the digits nearest to it. The form is positional for decimal exponents from -4 to 15, with at
least one digit behind the point, and has an exponent of at least two digits otherwise. -/

namespace Bilingual

namespace Binary64

/-- `num / den` divided by `10 ^ power`, rounded down, and whether something is left. -/
def scaledDown (num den : Nat) (power : Int) : Nat × Bool :=
  let num := num * Nat.pow 10 (-power).toNat
  let den := den * Nat.pow 10 power.toNat
  (num / den, num % den ≠ 0)

/-- The power of ten of the first digit of `num / den`, from a guess that is at most two too small. -/
def leadingPower (num den : Nat) : Int :=
  let guess : Int := ((Nat.toDigits 10 num).length : Int) - (Nat.toDigits 10 den).length - 1
  if 10 ≤ (scaledDown num den guess).1 then guess + 1 else guess

/-- The neighbours of `num / den` among the multiples of `10 ^ power` that read back as `x`, the nearer
one first, and of two equally near ones the even one. -/
def neighbours (x : Binary64) (num den : Nat) (power : Int) : List Nat :=
  let (low, rest) := scaledDown num den power
  let readsBack := fun d => decide (ofDecimal false d power = x)
  if !rest then [low].filter readsBack
  else
    let (twice, restOfTwice) := scaledDown (2 * num) den power
    let lowFirst := if restOfTwice then twice % 2 = 0 else low % 2 = 0
    (if lowFirst then [low, low + 1] else [low + 1, low]).filter readsBack

/-- The shortest digits of a positive magnitude with their power of ten, trying `count` digits or more. -/
def shortestFrom (x : Binary64) (num den : Nat) (leading : Int) : Nat → Nat → Nat × Int
  | 0, count => ((neighbours x num den (leading - count)).headD 0, leading - count)
  | fuel + 1, count =>
    match neighbours x num den (leading - count) with
    | d :: _ => (d, leading - count)
    | [] => shortestFrom x num den leading fuel (count + 1)

/-- The shortest digits of a positive magnitude with the power of ten of the last one. -/
def shortestDigits (significand : Nat) (exponent : Int) : Nat × Int :=
  let (num, den) := ratio significand exponent
  shortestFrom (finite false significand exponent) num den (leadingPower num den) 17 0

/-- The digits of a positive number `digits * 10 ^ power`, without trailing zeros, with the power of ten
of the first one. -/
def significantDigits (digits : Nat) (power : Int) : List Char × Int :=
  let all := Nat.toDigits 10 digits
  let kept := (all.reverse.dropWhile (· = '0')).reverse
  (kept, power + all.length - 1)

/-- Digits with the point behind the one of power zero. -/
def positional (digits : List Char) (leading : Int) : List Char :=
  if leading < 0 then
    '0' :: '.' :: List.replicate ((-leading).toNat - 1) '0' ++ digits
  else
    let whole := leading.toNat + 1
    let integral := digits.take whole ++ List.replicate (whole - digits.length) '0'
    let fraction := digits.drop whole
    integral ++ '.' :: (if fraction.isEmpty then ['0'] else fraction)

/-- Digits with the point behind the first one, and an exponent. -/
def scientific (digits : List Char) (leading : Int) : List Char :=
  let fraction := digits.drop 1
  let exponent := Nat.toDigits 10 leading.natAbs
  digits.take 1 ++ (if fraction.isEmpty then [] else '.' :: fraction) ++
    ['e', if leading < 0 then '-' else '+'] ++
    List.replicate (2 - exponent.length) '0' ++ exponent

/-- The written form of a number. -/
def toText : Binary64 → Text
  | nan => "NaN"
  | infinite negative => if negative then "-Infinity" else "Infinity"
  | finite negative significand exponent =>
    let magnitude :=
      if significand = 0 then ['0', '.', '0']
      else
        let (digits, power) := shortestDigits significand exponent
        let (digits, leading) := significantDigits digits power
        if -4 ≤ leading ∧ leading < 16 then positional digits leading
        else scientific digits leading
    ((if negative then ['-'] else []) ++ magnitude).map CodePoint.ofChar

end Binary64

end Bilingual
