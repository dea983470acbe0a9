import Bilingual.Literal.Quote

set_option autoImplicit false

/-! # Escaping and decoding of literal bodies

A quoted body escapes backslashes, its own quote and line breaks. A template body escapes backslashes,
backticks and the `$` of an interpolation `${`; its line breaks stay as they are. `decode` reads both:
it also knows the usual one-letter escapes, line continuations, `\xHH`, `\uHHHH` and `\u{H…}`, and an
unknown escape stands for the escaped code point itself. Decoding fails only where `\u{…}` names a
number beyond the last code point. A literal that stands in a text is known by its span
(`LiteralSpan`). -/

namespace Bilingual

/-- One code point of the body of a quoted literal. -/
def Quote.escapePoint (q : Quote) (c : CodePoint) : Text :=
  if c = '\\' then ['\\', '\\']
  else if c = q.point then ['\\', c]
  else if c = '\r' then ['\\', 'r']
  else if c = '\n' then ['\\', 'n']
  else [c]

/-- The body of a literal between quotes that decodes to `value`. -/
def Quote.escape (q : Quote) (value : Text) : Text := value.flatMap q.escapePoint

/-- The body of a template literal that decodes to `value`. -/
def escapeTemplate : Text → Text
  | [] => []
  | c :: rest =>
    if c = '\\' ∨ c = '\x60' then '\\' :: c :: escapeTemplate rest
    else if c = '$' ∧ rest.head? = some ('{' : CodePoint) then '\\' :: c :: escapeTemplate rest
    else c :: escapeTemplate rest

/-- The body of a literal with the given delimiter that decodes to `value`. -/
def Delimiter.escape : Delimiter → Text → Text
  | .quote q, value => q.escape value
  | .template, value => escapeTemplate value

namespace Literal

/-- What a one-letter escape stands for. -/
def simpleEscape? (c : CodePoint) : Option CodePoint :=
  if c = 'n' then some '\n'
  else if c = 'r' then some '\r'
  else if c = 't' then some '\t'
  else if c = 'b' then some '\x08'
  else if c = 'f' then some '\x0c'
  else if c = 'v' then some '\x0b'
  else if c = '0' then some '\x00'
  else none

/-- The number that the first `size` code points write in hexadecimal. -/
def fixedHex? (size : Nat) (t : Text) : Option Nat :=
  let digits := t.take size
  if digits.length = size then Text.hexNumber? digits else none

/-- The code point with number `n`. -/
def codePoint (n : Nat) : Except Failure CodePoint :=
  match CodePoint.ofNat? n with
  | some c => .ok c
  | none => .error (if n ≤ 0x7FFFFFFF then .codePointRange else .codePointOverflow)

/-- An escape that begins with `\u`: what it decodes to, and how much of `rest`, the text behind the
`u`, belongs to it. Without proper digits it stands for the letter. -/
def decodeUnicode (rest : Text) : Except Failure (Text × Nat) :=
  if rest.head? = some ('{' : CodePoint) then
    let digits := rest.tail.takeWhile (· ≠ ('}' : CodePoint))
    let closed := digits.length < rest.tail.length
    match if closed then Text.hexNumber? digits else none with
    | some n => return ([← codePoint n], digits.length + 2)
    | none => return (['u'], 0)
  else
    match fixedHex? 4 rest with
    | some n => return ([← codePoint n], 4)
    | none => return (['u'], 0)

/-- The escape of code point `c`: what it decodes to, and how much of `rest`, the text behind `c`,
belongs to it. -/
def decodeEscape (c : CodePoint) (rest : Text) : Except Failure (Text × Nat) :=
  match simpleEscape? c with
  | some d => return ([d], 0)
  | none =>
    if c = '\n' then return ([], 0)
    else if c = 'u' then decodeUnicode rest
    else if c = 'x' then
      match fixedHex? 2 rest with
      | some n => return ([← codePoint n], 2)
      | none => return ([c], 0)
    else return ([c], 0)

/-- Decode from behind an escape: the first `skip` code points belong to it. -/
def decodeFrom : Nat → Text → Except Failure Text
  | _, [] => .ok []
  | skip + 1, _ :: rest => decodeFrom skip rest
  | 0, c :: rest =>
    if c = '\\' then
      match rest with
      | [] => .ok [c]
      | d :: behind => do
        let (decoded, taken) ← decodeEscape d behind
        return decoded ++ (← decodeFrom (taken + 1) rest)
    else return c :: (← decodeFrom 0 rest)

/-- The text that a literal body stands for. -/
def decode (body : Text) : Except Failure Text := decodeFrom 0 body

end Literal

/-! ## Literals in a text -/

/-- A string literal found in a text: the span of its body, without the quotes, the quote, and the body
as it is written. -/
structure LiteralSpan where
  start : Nat
  stop : Nat
  quote : Quote
  raw : Text
deriving DecidableEq, Repr

/-- The text a literal stands for. -/
def LiteralSpan.value (literal : LiteralSpan) : Except Failure Text := Literal.decode literal.raw

end Bilingual
