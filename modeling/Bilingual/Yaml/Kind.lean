import Bilingual.OrderedMap
import Bilingual.Yaml.Numeral
import Bilingual.Yaml.Timestamp

set_option autoImplicit false

/-! # Kinds of nodes

What a node stands for: its tag tells, or without a tag its form does. A plain scalar is null, a truth
value, a number or a timestamp when it is written like one, and a text otherwise. Integers have a sign and
are binary, octal behind a zero, decimal, hexadecimal or sexagesimal. Numbers with a fraction need a point,
and the sign of their exponent cannot be left out. Underscores in numbers count for nothing. -/

namespace Bilingual.Yaml

/-- What a node stands for. The marks of a merged map and of a default value mean something as keys
only. -/
inductive Kind where
  | null
  | truth
  | integer
  | number
  | bytes
  | moment
  | text
  | list
  | map
  | orderedPairs
  | pairs
  | set
  | mergeMark
  | defaultMark
  | unknown
deriving DecidableEq, Repr

/-- The tag of a name of the standard. -/
def standardTag (name : Text) : Text := "tag:yaml.org,2002:" ++ name

namespace Kind

/-- The names of the standard. -/
def names : List (Text × Kind) :=
  [("null", null), ("bool", truth), ("int", integer), ("float", number), ("binary", bytes),
   ("timestamp", moment), ("str", text), ("seq", list), ("map", map), ("omap", orderedPairs),
   ("pairs", pairs), ("set", set), ("merge", mergeMark), ("value", defaultMark)]

/-- The kind that a tag in its full form tells. -/
def ofTag (tag : Text) : Kind :=
  (names.findSome? fun (name, kind) => if standardTag name = tag then some kind else none).getD unknown

/-! ## Plain scalars -/

/-- The words that stand for truth values, in small letters. -/
def truthWords : List (Text × Bool) :=
  [("yes", true), ("no", false), ("true", true), ("false", false), ("on", true), ("off", false)]

/-- A word in small letters, with a capital, or in capitals. -/
def writtenLike (word t : Text) : Bool :=
  let capitals := word.map fun c => (CodePoint.ofNat? (c.val - 0x20)).getD c
  t == word || t == capitals.take 1 ++ word.drop 1 || t == capitals

/-- Whether a text holds nothing but digits of a base and underscores. -/
def hasDigits (base : Nat) (t : Text) : Bool :=
  t.all fun c => c == '_' || c.hexValue?.any (· < base)

/-- A digit, then digits and underscores. -/
def isNumeral (t : Text) : Bool := t.head?.any CodePoint.isAsciiDigit && hasDigits 10 t

/-- A number below 60 of one or two digits. -/
def isSixtieth (t : Text) : Bool :=
  (t.length = 1 || (t.length = 2 && t.head?.any (·.val < 0x36))) && t.all CodePoint.isAsciiDigit

/-- Numbers below 60, each behind a colon, behind a first numeral. -/
def isSexagesimal (t : Text) : Bool :=
  match Numeral.colonParts t with
  | first :: place :: places => isNumeral first && (place :: places).all isSixtieth
  | _ => false

/-- Whether a plain scalar is an integer. -/
def isInteger (t : Text) : Bool :=
  let (_, t) := Numeral.signed t
  match t.head? with
  | none => false
  | some c =>
    if (Text.ofString "0b").isPrefixOf t then t.length ≠ 2 && hasDigits 2 (t.drop 2)
    else if (Text.ofString "0x").isPrefixOf t then t.length ≠ 2 && hasDigits 16 (t.drop 2)
    else if c = '0' then hasDigits 8 t
    else isNumeral t || isSexagesimal t

/-- An exponent with its sign, or nothing. -/
def isExponent (t : Text) : Bool :=
  match t with
  | [] => true
  | letter :: rest =>
    let digits := rest.drop 1
    (letter == 'e' || letter == 'E') && rest.head?.any (fun (c : CodePoint) => c == '+' || c == '-') &&
      !digits.isEmpty && digits.all CodePoint.isAsciiDigit

/-- Whether a plain scalar is a number with a point. -/
def isNumber (t : Text) : Bool :=
  let (_, unsigned) := Numeral.signed t
  let whole := unsigned.takeWhile (· ≠ ('.' : CodePoint))
  let behind := unsigned.drop (whole.length + 1)
  let fraction := behind.takeWhile fun (c : CodePoint) => c == '_' || c.isAsciiDigit
  let exponent := behind.drop fraction.length
  if whole.length = unsigned.length then false
  else if whole.isEmpty then
    [Text.ofString "inf", Text.ofString "Inf", Text.ofString "INF"].contains behind ||
      (t.length = unsigned.length &&
        ([Text.ofString "nan", Text.ofString "NaN", Text.ofString "NAN"].contains behind ||
          (fraction.head?.any CodePoint.isAsciiDigit && isExponent exponent)))
  else (isNumeral whole && isExponent exponent) || (isSexagesimal whole && exponent.isEmpty)

/-- The words that stand for null. -/
def nullWords : List Text := ["~", "null", "Null", "NULL"]

/-- The marks that stand for something else than a text of their own, and that nothing reads. -/
def reservedMarks : List Text := ["!", "&", "*"]

/-- The kind of a plain scalar. One line break at its end does not count. -/
def ofPlain (t : Text) : Kind :=
  let core := if t.getLast? = some ('\n' : CodePoint) then t.dropLast else t
  if t.isEmpty then null
  else if core.isEmpty then text
  else if truthWords.any fun (word, _) => writtenLike word core then truth
  else if isNumber core then number
  else if isInteger core then integer
  else if core = ("<<" : Text) then mergeMark
  else if nullWords.contains core then null
  else if Timestamp.isPlain core then moment
  else if core = ("=" : Text) then defaultMark
  else if reservedMarks.contains core then unknown
  else text

end Kind

end Bilingual.Yaml
