import Bilingual.Text.CodePoint

set_option autoImplicit false

/-! # UTF-8

Encoding fails exactly on surrogates. Decoding accepts only what encoding produces: shortest forms, no
surrogates, nothing above U+10FFFF. -/

namespace Bilingual.Text.Utf8

/-- The bytes of one code point; none for a surrogate. -/
def encodePoint (c : CodePoint) : Option (List UInt8) :=
  let n := c.val
  if n < 0x80 then some [UInt8.ofNat n]
  else if n < 0x800 then some [UInt8.ofNat (0xC0 + n / 0x40), UInt8.ofNat (0x80 + n % 0x40)]
  else if c.isSurrogate then none
  else if n < 0x10000 then
    some [UInt8.ofNat (0xE0 + n / 0x1000), UInt8.ofNat (0x80 + n / 0x40 % 0x40),
      UInt8.ofNat (0x80 + n % 0x40)]
  else
    some [UInt8.ofNat (0xF0 + n / 0x40000), UInt8.ofNat (0x80 + n / 0x1000 % 0x40),
      UInt8.ofNat (0x80 + n / 0x40 % 0x40), UInt8.ofNat (0x80 + n % 0x40)]

/-- The bytes of a text; none when it holds a surrogate. -/
def encode? : Text → Option (List UInt8)
  | [] => some []
  | c :: rest => do return (← encodePoint c) ++ (← encode? rest)

/-- The text with every surrogate replaced by three replacement characters, one for each byte that a
code point of its size takes. It can always be encoded. -/
def lossy (t : Text) : Text :=
  t.flatMap fun c => if c.isSurrogate then List.replicate 3 (CodePoint.ofChar '\uFFFD') else [c]

/-- The low six bits of a continuation byte. -/
def continuation? (b : UInt8) : Option Nat :=
  if 0x80 ≤ b.toNat ∧ b.toNat < 0xC0 then some (b.toNat - 0x80) else none

/-- The code point `n` when it needs the number of bytes it was written with: it is at least `low`,
the first number of that length, and no surrogate. -/
def shortest? (low n : Nat) : Option CodePoint := do
  let c ← CodePoint.ofNat? n
  if low ≤ n ∧ !c.isSurrogate then some c else none

/-- The text of a byte sequence; none when the bytes are not UTF-8. -/
def decode? : List UInt8 → Option Text
  | [] => some []
  | a :: rest =>
    let n := a.toNat
    if n < 0x80 then do
      let c ← CodePoint.ofNat? n
      return c :: (← decode? rest)
    else if 0xC0 ≤ n ∧ n < 0xE0 then
      match rest with
      | b :: rest => do
        let c ← shortest? 0x80 ((n - 0xC0) * 0x40 + (← continuation? b))
        return c :: (← decode? rest)
      | _ => none
    else if 0xE0 ≤ n ∧ n < 0xF0 then
      match rest with
      | b :: d :: rest => do
        let c ← shortest? 0x800
          ((n - 0xE0) * 0x1000 + (← continuation? b) * 0x40 + (← continuation? d))
        return c :: (← decode? rest)
      | _ => none
    else if 0xF0 ≤ n ∧ n < 0xF8 then
      match rest with
      | b :: d :: e :: rest => do
        let c ← shortest? 0x10000 ((n - 0xF0) * 0x40000 + (← continuation? b) * 0x1000 +
          (← continuation? d) * 0x40 + (← continuation? e))
        return c :: (← decode? rest)
      | _ => none
    else none

end Bilingual.Text.Utf8
