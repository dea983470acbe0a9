import Bilingual.Failure

set_option autoImplicit false

/-! # Edits

An edit replaces a span of a text. Several edits of one text are all meant against the text as it stands
before any of them, so they are carried out from the right: what lies to the left of an edit has not
moved yet. Edits that overlap, run backwards or leave the text are refused; edits that touch are not. -/

namespace Bilingual

/-- Replace the code points from `start` up to `stop`. -/
structure Edit where
  start : Int
  stop : Int
  replacement : Text
deriving DecidableEq, Repr

namespace Edit

/-- Order by start, then by end. -/
def le (a b : Edit) : Bool := decide (a.start < b.start ∨ (a.start = b.start ∧ a.stop ≤ b.stop))

/-- Insert an edit in front of the first one that does not come before it. -/
def insert (e : Edit) : List Edit → List Edit
  | [] => [e]
  | first :: rest => if e.le first then e :: first :: rest else first :: insert e rest

/-- The edits in order of their spans; edits of the same span stay as they are given. -/
def sort (edits : List Edit) : List Edit := edits.foldr insert []

/-- Check edits that are in order: each starts at `from_` or later, behind the end of the one before it,
does not end before it starts, and ends within `size`. -/
def check (size : Nat) (from_ : Int) : List Edit → Except Failure Unit
  | [] => .ok ()
  | e :: rest =>
    if e.start < from_ ∨ e.stop < e.start ∨ (size : Int) < e.stop then
      .error (.editSpan e.start e.stop)
    else check size e.stop rest

/-- Carry out one edit. -/
def apply (e : Edit) (text : Text) : Text :=
  text.take e.start.toNat ++ e.replacement ++ text.drop e.stop.toNat

/-- Carry out all edits of a text. -/
def applyAll (text : Text) (edits : List Edit) : Except Failure Text := do
  let ordered := sort edits
  check text.length 0 ordered
  return ordered.foldr apply text

end Edit

end Bilingual
