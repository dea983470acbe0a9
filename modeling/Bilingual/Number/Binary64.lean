set_option autoImplicit false

/-! # Numbers of double precision

A document may hold numbers with a fraction or an exponent. They are kept as binary numbers of double
precision: a sign, a significand below 2^53 and an exponent of two, or infinity, or not a number. All
arithmetic here is exact arithmetic on natural numbers, and `Binary64.ofRatio` rounds to the nearest
number, half to the even significand. -/

namespace Bilingual

/-- A number of double precision. A finite one has the magnitude `significand * 2 ^ exponent`, where
either the significand is at least 2^52 or the exponent is -1074. -/
inductive Binary64 where
  | finite (negative : Bool) (significand : Nat) (exponent : Int)
  | infinite (negative : Bool)
  | nan
deriving DecidableEq, Repr

namespace Binary64

/-- The quotient rounded to the nearest integer, half to even. -/
def divRound (num den : Nat) : Nat :=
  let q := num / den
  let r := num % den
  if 2 * r < den then q
  else if den < 2 * r then q + 1
  else if q % 2 = 0 then q else q + 1

/-- `num / den` divided by `2 ^ exponent`, rounded. -/
def scaledRound (num den : Nat) (exponent : Int) : Nat :=
  divRound (num * Nat.pow 2 (-exponent).toNat) (den * Nat.pow 2 exponent.toNat)

/-- The number nearest to `num / den`. -/
def ofRatio (negative : Bool) (num den : Nat) : Binary64 :=
  if num = 0 then finite negative 0 (-1074)
  else
    let guess : Int := (num.log2 : Int) - (den.log2 : Int) - 53
    let exponent := max guess (-1074)
    let exponent := if Nat.pow 2 53 ≤ scaledRound num den exponent then exponent + 1 else exponent
    let exponent := if Nat.pow 2 53 ≤ scaledRound num den exponent then exponent + 1 else exponent
    let significand := scaledRound num den exponent
    if 971 < exponent then infinite negative else finite negative significand exponent

/-- The number nearest to `digits * 10 ^ power`. Powers so large or small that they decide the result
alone are not computed. -/
def ofDecimal (negative : Bool) (digits : Nat) (power : Int) : Binary64 :=
  let size : Int := (Nat.toDigits 10 digits).length + power
  if digits = 0 then finite negative 0 (-1074)
  else if 310 < size then infinite negative
  else if size < -330 then finite negative 0 (-1074)
  else ofRatio negative (digits * Nat.pow 10 power.toNat) (Nat.pow 10 (-power).toNat)

/-- The numerator and denominator of a magnitude. -/
def ratio (significand : Nat) (exponent : Int) : Nat × Nat :=
  (significand * Nat.pow 2 exponent.toNat, Nat.pow 2 (-exponent).toNat)

/-- The integer that a number is; none when it has a fraction or is not finite. -/
def toInt? : Binary64 → Option Int
  | finite negative significand exponent =>
    let den := Nat.pow 2 (-exponent).toNat
    if significand % den = 0 then
      let magnitude : Int := Int.ofNat (significand / den * Nat.pow 2 exponent.toNat)
      some (if negative then -magnitude else magnitude)
    else none
  | _ => none

end Binary64

end Bilingual
