set_option autoImplicit false

/-! # Text as a list of code points

A text is a finite list of Unicode code points, and every offset and length in this library counts
code points. Surrogates are code points too: a decoded escape such as `\ud83d` stands for one of them
and may sit anywhere in a value. Such a text can be compared, searched and edited like any other, and
only writing it out as UTF-8 fails (`Bilingual.Text.Utf8`).

Characters and string literals coerce to code points and texts, so definitions compare with `'{'` and
`"//"` directly; `CodePoint.ofChar_inj` turns an equation between two such code points into one between
characters, which is decidable by computation. -/

namespace Bilingual

/-- A Unicode code point, surrogates included. -/
structure CodePoint where
  val : Nat
  isLt : val < 0x110000
deriving DecidableEq, Repr

namespace CodePoint

/-- The code point of a character. -/
def ofChar (c : Char) : CodePoint where
  val := c.toNat
  isLt := by
    have h := c.valid
    simp only [UInt32.isValidChar, Nat.isValidChar] at h
    simp only [Char.toNat]
    omega

instance : Coe Char CodePoint := ⟨ofChar⟩

instance : Inhabited CodePoint := ⟨⟨0, by decide⟩⟩

/-- Two characters have one code point only if they are the same. -/
@[simp] theorem ofChar_inj {a b : Char} : ofChar a = ofChar b ↔ a = b := by
  constructor
  · intro h
    have hval : a.toNat = b.toNat := congrArg val h
    exact Char.toNat_inj.1 hval
  · rintro rfl
    rfl

/-- The code point with number `n`, if there is one. -/
def ofNat? (n : Nat) : Option CodePoint :=
  if h : n < 0x110000 then some ⟨n, h⟩ else none

/-- Surrogates are the code points that no character has. -/
def isSurrogate (c : CodePoint) : Bool := 0xD800 ≤ c.val && c.val ≤ 0xDFFF

/-- The character of a code point; none for a surrogate. -/
def toChar? (c : CodePoint) : Option Char :=
  if c.isSurrogate then none else some (Char.ofNat c.val)

/-- An ASCII letter. -/
def isAsciiLetter (c : CodePoint) : Bool :=
  (0x41 ≤ c.val && c.val ≤ 0x5A) || (0x61 ≤ c.val && c.val ≤ 0x7A)

/-- An ASCII digit. -/
def isAsciiDigit (c : CodePoint) : Bool := 0x30 ≤ c.val && c.val ≤ 0x39

/-- The value of a hexadecimal digit, in either case. -/
def hexValue? (c : CodePoint) : Option Nat :=
  if c.isAsciiDigit then some (c.val - 0x30)
  else if 0x41 ≤ c.val && c.val ≤ 0x46 then some (c.val - 0x37)
  else if 0x61 ≤ c.val && c.val ≤ 0x66 then some (c.val - 0x57)
  else none

/-- The value of a decimal digit. -/
def digitValue? (c : CodePoint) : Option Nat :=
  if c.isAsciiDigit then some (c.val - 0x30) else none

end CodePoint

/-- A text: a list of code points. -/
abbrev Text := List CodePoint

namespace Text

/-- The text of a string. -/
def ofString (s : String) : Text := s.toList.map CodePoint.ofChar

instance : Coe String Text := ⟨ofString⟩

/-- The string of a text, for display; a surrogate shows as U+FFFD. -/
def toString (t : Text) : String :=
  String.ofList (t.map fun c => c.toChar?.getD '\uFFFD')

/-- Whether some code point of the text is a surrogate. -/
def hasSurrogate (t : Text) : Bool := t.any CodePoint.isSurrogate

/-- Lexicographic order by code point. -/
def le : Text → Text → Bool
  | [], _ => true
  | _ :: _, [] => false
  | a :: as, b :: bs => if a.val < b.val then true else if b.val < a.val then false else le as bs

/-- The decimal digits of a number, without leading zeros. -/
def ofNat (n : Nat) : Text := (Nat.toDigits 10 n).map CodePoint.ofChar

/-- The decimal form of an integer, with a minus sign when it is negative. -/
def ofInt : Int → Text
  | .ofNat n => ofNat n
  | .negSucc n => CodePoint.ofChar '-' :: ofNat (n + 1)

/-- The number written by hexadecimal digits; none when the text is empty or has another code
point. -/
def hexNumber? : Text → Option Nat
  | [] => none
  | digits => digits.foldl (fun n c => do return (← n) * 16 + (← c.hexValue?)) (some 0)

/-- The number written by decimal digits; none when the text is empty or has another code point. -/
def decimalNumber? : Text → Option Nat
  | [] => none
  | digits => digits.foldl (fun n c => do return (← n) * 10 + (← c.digitValue?)) (some 0)

/-- The texts one after the other with `separator` between them. -/
def joinWith (separator : Text) : List Text → Text
  | [] => []
  | [t] => t
  | t :: rest => t ++ separator ++ joinWith separator rest

/-- The text followed by as many spaces as it needs to reach `width` code points. -/
def padRight (width : Nat) (t : Text) : Text :=
  t ++ List.replicate (width - t.length) (CodePoint.ofChar ' ')

end Text

end Bilingual
