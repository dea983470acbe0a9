import Bilingual.Failure

set_option autoImplicit false

/-! # Delimiters of literals

A string literal stands between two single or two double quotes; long texts stand between two
backticks. -/

namespace Bilingual

/-- The quote around a string literal. -/
inductive Quote where
  | single
  | double
deriving DecidableEq, Repr

namespace Quote

/-- The code point of a quote. -/
def point : Quote → CodePoint
  | single => '\''
  | double => '"'

/-- The quote with the given code point. -/
def ofPoint? (c : CodePoint) : Option Quote :=
  if c = '\'' then some single else if c = '"' then some double else none

/-- The quote written by a text. -/
def ofText (t : Text) : Except Failure Quote :=
  match t with
  | [c] => match ofPoint? c with
    | some q => .ok q
    | none => .error (.unsupportedQuote t)
  | _ => .error (.unsupportedQuote t)

/-- A quote is read back from its code point. -/
@[simp] theorem ofPoint?_point (q : Quote) : ofPoint? q.point = some q := by
  cases q <;> rfl

/-- A quote is read from no code point but its own. -/
theorem point_of_ofPoint? {c : CodePoint} {q : Quote} (h : ofPoint? c = some q) : q.point = c := by
  unfold ofPoint? at h
  split at h
  · cases h; simp_all [point]
  · split at h
    · cases h; simp_all [point]
    · cases h

end Quote

/-- What stands around a literal: quotes, or the backticks of a template. -/
inductive Delimiter where
  | quote (q : Quote)
  | template
deriving DecidableEq, Repr

namespace Delimiter

/-- The code point of a delimiter. -/
def point : Delimiter → CodePoint
  | quote q => q.point
  | template => '\x60'

/-- The delimiter written by a text. -/
def ofText (t : Text) : Except Failure Delimiter :=
  if t = [('\x60' : CodePoint)] then .ok template else return quote (← Quote.ofText t)

end Delimiter

end Bilingual
