import Bilingual.Json.Basic
import Bilingual.Text.CodePoint

set_option autoImplicit false

/-! # Reading JSON

The whole text must be one value with blanks around it. Besides standard JSON the names `NaN`,
`Infinity` and `-Infinity` are numbers. A pair of surrogate escapes is one code point; a surrogate
escape without its partner stays a surrogate. A control code point inside a string is refused, and so is
a byte order mark. A repeated field name keeps its first place and its last value. -/

namespace Bilingual.Json.Reader

/-- The blanks between the tokens of a document. -/
def isBlank (c : CodePoint) : Bool := c == ' ' || c == '\t' || c == '\n' || c == '\r'

/-- The text behind the blanks it begins with. -/
def skipBlanks (t : Text) : Text := t.dropWhile isBlank

/-- The rest of a text behind `head`. -/
def expect (head t : Text) : Option Text :=
  if head.isPrefixOf t then some (t.drop head.length) else none

/-- The number of a `u` and four hexadecimal digits at the beginning of a text. -/
def unicodeEscape? (t : Text) : Option Nat :=
  let digits := (t.drop 1).take 4
  if t.head? = some ('u' : CodePoint) ∧ digits.length = 4 then Text.hexNumber? digits else none

/-- The code point of two surrogates that belong together. -/
def joinSurrogates? (high low : Nat) : Option Nat :=
  if 0xD800 ≤ high ∧ high ≤ 0xDBFF ∧ 0xDC00 ≤ low ∧ low ≤ 0xDFFF then
    some (0x10000 + (high - 0xD800) * 0x400 + (low - 0xDC00))
  else none

/-- What an escape stands for and how many code points it takes, given the text behind its
backslash. -/
def escape? (t : Text) : Option (CodePoint × Nat) := do
  let c ← t.head?
  if c = '"' ∨ c = '\\' ∨ c = '/' then return (c, 1)
  else if c = 'b' then return ('\x08', 1)
  else if c = 'f' then return ('\x0c', 1)
  else if c = 'n' then return ('\n', 1)
  else if c = 'r' then return ('\r', 1)
  else if c = 't' then return ('\t', 1)
  else
    let first ← unicodeEscape? t
    let behind := t.drop 5
    let second := if behind.head? = some ('\\' : CodePoint) then unicodeEscape? behind.tail else none
    match second.bind (joinSurrogates? first) with
    | some joined => return (← CodePoint.ofNat? joined, 11)
    | none => return (← CodePoint.ofNat? first, 5)

/-- The contents of a string and the text behind its closing quote, given the text behind its opening
quote. The first `skip` code points belong to an escape. -/
def string? : Nat → Text → Option (Text × Text)
  | _, [] => none
  | skip + 1, _ :: rest => string? skip rest
  | 0, c :: rest =>
    if c = '"' then some ([], rest)
    else if c = '\\' then do
      let (decoded, taken) ← escape? rest
      let (tail, behind) ← string? taken rest
      return (decoded :: tail, behind)
    else if c.val < 0x20 then none
    else do
      let (tail, behind) ← string? 0 rest
      return (c :: tail, behind)

/-- The decimal digits at the beginning of a text, and the text behind them. -/
def digits (t : Text) : Text × Text := (t.takeWhile (·.isAsciiDigit), t.dropWhile (·.isAsciiDigit))

/-- A point with the digits behind it, if there are any, and the text behind them. -/
def fraction (t : Text) : Text × Text :=
  match t with
  | c :: rest =>
    let (ds, behind) := digits rest
    if c = '.' ∧ !ds.isEmpty then (ds, behind) else ([], t)
  | [] => ([], t)

/-- An exponent, if there is one, and the text behind it. -/
def exponent (t : Text) : Option Int × Text :=
  match t with
  | c :: rest =>
    if c = 'e' ∨ c = 'E' then
      let negative := rest.head? == some ('-' : CodePoint)
      let signed := negative || rest.head? == some ('+' : CodePoint)
      let (ds, behind) := digits (if signed then rest.tail else rest)
      match Text.decimalNumber? ds with
      | some n => (some (if negative then -(n : Int) else n), behind)
      | none => (none, t)
    else (none, t)
  | [] => (none, t)

/-- A number, and the text behind it. -/
def number? (t : Text) : Option (Json × Text) := do
  let negative := t.head? == some ('-' : CodePoint)
  let unsigned := if negative then t.tail else t
  let (whole, behind) := digits unsigned
  let (whole, behind) :=
    if whole.head? = some ('0' : CodePoint) then (whole.take 1, unsigned.tail) else (whole, behind)
  let n ← Text.decimalNumber? whole
  let (fractional, behind) := fraction behind
  let (power, behind) := exponent behind
  if fractional.isEmpty ∧ power.isNone then
    return (integer (if negative then -(n : Int) else n), behind)
  else
    let all ← Text.decimalNumber? (whole ++ fractional)
    return (real (Binary64.ofDecimal negative all (power.getD 0 - fractional.length)), behind)

/-- The values that are names, and the text behind one. -/
def name? (t : Text) : Option (Json × Text) :=
  let names : List (Text × Json) := [("null", null), ("true", bool true), ("false", bool false),
    ("NaN", real .nan), ("Infinity", real (.infinite false)), ("-Infinity", real (.infinite true))]
  names.findSome? fun (written, value) => (expect written t).map ((value, ·))

mutual

/-- A value and the text behind it. `fuel` bounds the number of nested steps. -/
def value? : Nat → Text → Option (Json × Text)
  | 0, _ => none
  | fuel + 1, t =>
    match t with
    | [] => none
    | c :: rest =>
      if c = '"' then (string? 0 rest).map fun (s, behind) => (text s, behind)
      else if c = '[' then
        match expect "]" (skipBlanks rest) with
        | some behind => some (list [], behind)
        | none => (items? fuel (skipBlanks rest)).map fun (items, behind) => (list items, behind)
      else if c = '{' then
        match expect "\x7d" (skipBlanks rest) with
        | some behind => some (object [], behind)
        | none => (members? fuel (skipBlanks rest)).map fun (members, behind) =>
          (object (OrderedMap.ofPairs members), behind)
      else
        match name? t with
        | some found => some found
        | none => number? t

/-- The items of a list that is not empty, and the text behind its closing bracket. -/
def items? : Nat → Text → Option (List Json × Text)
  | 0, _ => none
  | fuel + 1, t => do
    let (item, behind) ← value? fuel t
    let behind := skipBlanks behind
    match expect "]" behind with
    | some behind => return ([item], behind)
    | none =>
      let (items, behind) ← items? fuel (skipBlanks (← expect "," behind))
      return (item :: items, behind)

/-- The fields of an object that is not empty, as they are written, and the text behind its closing
brace. -/
def members? : Nat → Text → Option (List (Text × Json) × Text)
  | 0, _ => none
  | fuel + 1, t => do
    let (name, behind) ← string? 0 (← expect "\"" t)
    let (item, behind) ← value? fuel (skipBlanks (← expect ":" (skipBlanks behind)))
    let behind := skipBlanks behind
    match expect "\x7d" behind with
    | some behind => return ([(name, item)], behind)
    | none =>
      let (members, behind) ← members? fuel (skipBlanks (← expect "," behind))
      return ((name, item) :: members, behind)

end

end Reader

/-- The value that a text holds; none when the text is no JSON document. -/
def read? (t : Text) : Option Json := do
  let (value, behind) ← Reader.value? (2 * t.length + 2) (Reader.skipBlanks t)
  if (Reader.skipBlanks behind).isEmpty then return value else none

end Bilingual.Json
