import Bilingual.Failure

set_option autoImplicit false

/-! # Where a delimited body ends

A body ends at the first delimiter that an even number of escape code points stands right before. The
escapes are counted backwards from the delimiter and not beyond the start of the body, so that nothing
in front of the body can escape its delimiter. -/

namespace Bilingual.Literal

/-- The offset in `rest` of the delimiter that ends a body. `before` is the body read so far, last code
point first. -/
def closingIn? (escape : Text) (delimiter : CodePoint) (before : Text) : Text → Option Nat
  | [] => none
  | c :: rest =>
    let escapes := before.takeWhile fun e => decide ([e] = escape)
    if c = delimiter ∧ escapes.length % 2 = 0 then some 0
    else (closingIn? escape delimiter (c :: before) rest).map (· + 1)

/-- The offset of the delimiter that ends the body starting at `start`. Only an escape of one code
point escapes anything. -/
def closing? (text : Text) (delimiter : CodePoint) (start : Nat) (escape : Text := ['\\']) :
    Option Nat :=
  (closingIn? escape delimiter [] (text.drop start)).map (start + ·)

/-- The span of the body that starts at `start`, up to its closing delimiter. -/
def bodySpan (text : Text) (delimiter : CodePoint) (start : Nat) : Except Failure (Nat × Nat) :=
  match closing? text delimiter start with
  | some stop => .ok (start, stop)
  | none => .error (.unterminated delimiter start)

/-- The single code point of a delimiter given as a text. -/
def delimiterPoint (delimiter : Text) : Except Failure CodePoint :=
  match delimiter with
  | [c] => .ok c
  | _ => .error (.delimiterLength delimiter)

end Bilingual.Literal
