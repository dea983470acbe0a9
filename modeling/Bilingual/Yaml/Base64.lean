import Bilingual.Text.CodePoint

set_option autoImplicit false

/-! # Bytes in base 64

Four digits of six bits make three bytes. Code points that are no digits are passed over. A group of two or
three digits that equals signs fill up to four ends the text, and no other group may be incomplete. -/

namespace Bilingual.Yaml.Base64

/-- The value of a digit. -/
def digit? (c : CodePoint) : Option Nat :=
  if 0x41 ≤ c.val ∧ c.val ≤ 0x5A then some (c.val - 0x41)
  else if 0x61 ≤ c.val ∧ c.val ≤ 0x7A then some (c.val - 0x61 + 26)
  else if c.isAsciiDigit then some (c.val - 0x30 + 52)
  else if c = '+' then some 62
  else if c = '/' then some 63
  else none

/-- The byte that a digit completes with what is left of the one before it, if it completes one, and what
is left of the digit. `count` digits of the group come before it. -/
def complete (count left digit : Nat) : List UInt8 × Nat :=
  match count with
  | 0 => ([], digit)
  | 1 => ([UInt8.ofNat (left * 4 + digit / 16)], digit % 16)
  | 2 => ([UInt8.ofNat (left * 16 + digit / 4)], digit % 4)
  | _ => ([UInt8.ofNat (left * 64 + digit)], 0)

/-- The bytes of a text inside a group of which `count` digits and then `fill` equals signs have been read,
the last digit with `left` still to be used. -/
def decodeFrom? (count left fill : Nat) : Text → Option (List UInt8)
  | [] => if count = 0 then some [] else none
  | c :: rest =>
    if c = '=' then
      if count < 2 then decodeFrom? count left fill rest
      else if 4 ≤ count + fill + 1 then some []
      else decodeFrom? count left (fill + 1) rest
    else match digit? c with
      | none => decodeFrom? count left fill rest
      | some digit =>
        let (bytes, left) := complete count left digit
        (decodeFrom? ((count + 1) % 4) left 0 rest).map (bytes ++ ·)

/-- The bytes that a text writes. -/
def decode? (t : Text) : Option (List UInt8) := decodeFrom? 0 0 0 t

end Bilingual.Yaml.Base64
