import Bilingual.Number.Binary64

set_option autoImplicit false

/-! # Sums and products of numbers

A sum or a product of two numbers is the exact one, rounded to the nearest number. A sum that is zero is
negative only when both of its terms are. -/

namespace Bilingual.Binary64

/-- The positive zero. -/
def zero : Binary64 := finite false 0 (-1074)

/-- The number with the other sign. -/
def negate : Binary64 → Binary64
  | finite negative significand exponent => finite (!negative) significand exponent
  | infinite negative => infinite (!negative)
  | nan => nan

/-- Whether a number is finite. -/
def isFinite : Binary64 → Bool
  | finite .. => true
  | _ => false

/-- The number nearest to a natural number. -/
def ofNat (n : Nat) : Binary64 := ofRatio false n 1

/-- A magnitude with its sign. -/
def signed (negative : Bool) (magnitude : Nat) : Int := if negative then -magnitude else magnitude

/-- The sum of two numbers. -/
def add : Binary64 → Binary64 → Binary64
  | finite negative significand exponent, finite negative₁ significand₁ exponent₁ =>
    let (num, den) := ratio significand exponent
    let (num₁, den₁) := ratio significand₁ exponent₁
    let sum := signed negative (num * den₁) + signed negative₁ (num₁ * den)
    ofRatio (sum < 0 || (sum = 0 && negative && negative₁)) sum.natAbs (den * den₁)
  | nan, _ | _, nan => nan
  | infinite negative, infinite negative₁ => if negative = negative₁ then infinite negative else nan
  | infinite negative, _ | _, infinite negative => infinite negative

/-- The product of two numbers. -/
def mul : Binary64 → Binary64 → Binary64
  | finite negative significand exponent, finite negative₁ significand₁ exponent₁ =>
    let (num, den) := ratio significand exponent
    let (num₁, den₁) := ratio significand₁ exponent₁
    ofRatio (negative != negative₁) (num * num₁) (den * den₁)
  | nan, _ | _, nan => nan
  | infinite negative, infinite negative₁ => infinite (negative != negative₁)
  | infinite negative, finite negative₁ significand _ | finite negative₁ significand _, infinite negative =>
    if significand = 0 then nan else infinite (negative != negative₁)

end Bilingual.Binary64
