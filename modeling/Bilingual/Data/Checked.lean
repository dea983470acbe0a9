import Bilingual.Data.Basic
import Bilingual.Data.IntegerText

set_option autoImplicit false

/-! # Checking data

A check turns data into a value or finds out everything that is wrong with it. Each problem has a kind
and the path of keys and indexes that leads to it. Checks of several fields go on after a problem, and
the problems come in the order of the checks: the fields of a model in the order it declares them, then
the keys that it does not know in the order of the data. -/

namespace Bilingual

/-- What is wrong with a piece of data. -/
inductive ProblemKind where
  | missing
  | unknownKey
  | invalidKey
  | notText
  | brokenText
  | emptyText
  | notInteger
  | unreadableInteger
  | fractionalInteger
  | infiniteInteger
  | oversizedInteger
  | notTruthValue
  | unreadableTruthValue
  | notList
  | emptyList
  | notMap
  | notModel
  | notAttributes
  | noTag
  | unknownTag
  | otherLiteral
  | refused (reason : Text)
deriving DecidableEq, Repr

/-- The name of a kind of problem in reports. -/
def ProblemKind.name : ProblemKind → Text
  | missing => "missing"
  | unknownKey => "extra_forbidden"
  | invalidKey => "invalid_key"
  | notText => "string_type"
  | brokenText => "string_unicode"
  | emptyText => "string_too_short"
  | notInteger => "int_type"
  | unreadableInteger => "int_parsing"
  | fractionalInteger => "int_from_float"
  | infiniteInteger => "finite_number"
  | oversizedInteger => "int_parsing_size"
  | notTruthValue => "bool_type"
  | unreadableTruthValue => "bool_parsing"
  | notList => "list_type"
  | emptyList => "too_short"
  | notMap => "dict_type"
  | notModel => "model_type"
  | notAttributes => "model_attributes_type"
  | noTag => "union_tag_not_found"
  | unknownTag => "union_tag_invalid"
  | otherLiteral => "literal_error"
  | refused _ => "value_error"

/-- The wording of a problem that has one. -/
def ProblemKind.message? : ProblemKind → Option Text
  | refused reason => some ("Value error, " ++ reason)
  | _ => none

/-- A problem and the path to it. -/
structure Problem where
  kind : ProblemKind
  path : List DataKey
deriving DecidableEq, Repr

/-- A checked value, or everything that is wrong. -/
inductive Checked (α : Type) where
  | ok (a : α)
  | bad (problems : List Problem)
deriving DecidableEq, Repr

namespace Checked

variable {α β : Type}

instance : Functor Checked where
  map f
    | ok a => ok (f a)
    | bad problems => bad problems

instance : Applicative Checked where
  pure := ok
  seq f x := match f, x () with
    | ok f, ok a => ok (f a)
    | ok _, bad problems => bad problems
    | bad problems, ok _ => bad problems
    | bad problems, bad others => bad (problems ++ others)

/-- One problem at the place that is checked. -/
def problem (kind : ProblemKind) : Checked α := bad [⟨kind, []⟩]

/-- The same result, its problems found behind one more step of the path. -/
def under (step : DataKey) : Checked α → Checked α
  | ok a => ok a
  | bad problems => bad (problems.map fun p => { p with path := step :: p.path })

/-- A further check of a value that has passed the first one. -/
def andThen (x : Checked α) (f : α → Checked β) : Checked β :=
  match x with
  | ok a => f a
  | bad problems => bad problems

/-- The result as a value or its problems. -/
def toExcept : Checked α → Except (List Problem) α
  | ok a => .ok a
  | bad problems => .error problems

/-! ## Checks of single values -/

/-- The text that bytes hold. -/
def textOfBytes (bytes : List UInt8) : Checked Text :=
  match Text.Utf8.decode? bytes with
  | some t => ok t
  | none => problem .brokenText

/-- A text, or bytes that hold one. -/
def text : Data → Checked Text
  | .text t => ok t
  | .bytes b => textOfBytes b
  | _ => problem .notText

/-- A text that is not empty; it has to be one that can be encoded. -/
def nonEmptyText (d : Data) : Checked Text :=
  (text d).andThen fun t =>
    if t.hasSurrogate then problem .brokenText
    else if t.isEmpty then problem .emptyText
    else ok t

/-- Null, or what another check accepts. -/
def nullable (check : Data → Checked α) : Data → Checked (Option α)
  | .null => ok none
  | d => some <$> check d

/-- The integer that a text writes. -/
def integerOfText (t : Text) : Checked Int :=
  match IntegerText.digits? t with
  | none => problem .unreadableInteger
  | some (negative, digits) =>
    if IntegerText.mostDigits < digits.length then problem .oversizedInteger
    else
      let n : Int := (Text.decimalNumber? digits).getD 0
      ok (if negative then -n else n)

/-- Whether an integer fits into 64 bits. -/
def isSmall (n : Int) : Bool := -(Nat.pow 2 63 : Int) ≤ n && n < Nat.pow 2 63

/-- An integer, or something that stands for one: a truth value, a number without fraction, or a text
that writes one, also as bytes. -/
def integer : Data → Checked Int
  | .integer n => ok n
  | .bool b => ok (if b then 1 else 0)
  | .real (.finite negative significand exponent) =>
    match (Binary64.finite negative significand exponent).toInt? with
    | none => problem .fractionalInteger
    | some n => if n.natAbs < Nat.pow 2 63 then ok n else problem .oversizedInteger
  | .real _ => problem .infiniteInteger
  | .text t => if t.hasSurrogate then problem .brokenText else integerOfText t
  | .bytes b => match Text.Utf8.decode? b with
    | some t => integerOfText t
    | none => problem .unreadableInteger
  | _ => problem .notInteger

/-- The words that stand for truth values, in lower case. -/
def truthWords : List (Text × Bool) :=
  [("0", false), ("off", false), ("f", false), ("false", false), ("n", false), ("no", false),
   ("1", true), ("on", true), ("t", true), ("true", true), ("y", true), ("yes", true)]

/-- A code point with ASCII capitals made small. -/
def lowerPoint (c : CodePoint) : CodePoint :=
  if 0x41 ≤ c.val ∧ c.val ≤ 0x5A then (CodePoint.ofNat? (c.val + 0x20)).getD c else c

/-- A truth value, or something that stands for one. -/
def truth : Data → Checked Bool
  | .bool b => ok b
  | .integer n => match n with
    | 0 => ok false
    | 1 => ok true
    | n => problem (if isSmall n then .unreadableTruthValue else .notTruthValue)
  | .text t =>
    if t.hasSurrogate then problem .brokenText
    else match OrderedMap.lookup? truthWords (t.map lowerPoint) with
      | some b => ok b
      | none => problem .unreadableTruthValue
  | .real x => match x.toInt? with
    | some 0 => ok false
    | some 1 => ok true
    | some n => problem (if isSmall n then .unreadableTruthValue else .notTruthValue)
    | none => problem .notTruthValue
  | _ => problem .notTruthValue

/-- One of the given texts. -/
def oneOf (values : List (Text × α)) : Data → Checked α
  | .text t =>
    if t.hasSurrogate then problem .brokenText
    else match OrderedMap.lookup? values t with
      | some a => ok a
      | none => problem .otherLiteral
  | _ => problem .otherLiteral

/-! ## Checks of lists and maps -/

/-- Check the items of a list from an index on. -/
def itemsFrom (check : Data → Checked α) (index : Nat) : List Data → Checked (List α)
  | [] => ok []
  | item :: items =>
    List.cons <$> (check item).under (.integer index) <*> itemsFrom check (index + 1) items

/-- A list, or a set, of what another check accepts. -/
def list (check : Data → Checked α) : Data → Checked (List α)
  | .list items | .set items => itemsFrom check 0 items
  | _ => problem .notList

/-- A list that is not empty. -/
def nonEmptyList (check : Data → Checked α) : Data → Checked (List α)
  | .list [] | .set [] => problem .emptyList
  | d => list check d

/-- The key of a map of texts. -/
def textKey (key : DataKey) : Checked Text :=
  (text (.ofKey key)).under (.text "[key]") |>.under key

/-- Check the entries of a map of texts. -/
def entries (check : Data → Checked α) : List (DataKey × Data) → Checked (List (Text × α))
  | [] => ok []
  | (key, value) :: rest =>
    (fun k v m => (k, v) :: m) <$> textKey key <*> (check value).under key <*> entries check rest

/-- A map from texts to what another check accepts. Bytes and a text may make one key. -/
def map (check : Data → Checked α) : Data → Checked (OrderedMap α)
  | .map fields => OrderedMap.ofPairs <$> entries check fields
  | _ => problem .notMap

/-! ## Checks of models -/

/-- A field that has to be there. -/
def required (fields : List (DataKey × Data)) (name : Text) (check : Data → Checked α) : Checked α :=
  match Data.lookup? fields name with
  | some d => (check d).under (.text name)
  | none => (problem .missing).under (.text name)

/-- A field with a value to take when it is not there. -/
def defaulted (fields : List (DataKey × Data)) (name : Text) (default : α) (check : Data → Checked α) :
    Checked α :=
  match Data.lookup? fields name with
  | some d => (check d).under (.text name)
  | none => ok default

/-- A field that may be null or left out. -/
def optional (fields : List (DataKey × Data)) (name : Text) (check : Data → Checked α) :
    Checked (Option α) :=
  defaulted fields name none (nullable check)

/-- Refuse every key that is not among the given names. -/
def only (names : List Text) : List (DataKey × Data) → Checked Unit
  | [] => ok ()
  | (key, _) :: rest =>
    let this : Checked Unit := match key with
      | .text t => if names.contains t then ok () else (problem .unknownKey).under key
      | key => (problem .invalidKey).under key
    (fun _ _ => ()) <$> this <*> only names rest

/-- Whether some key of a map is a text that cannot be encoded. -/
def hasBrokenKey (fields : List (DataKey × Data)) : Bool :=
  fields.any fun (key, _) => match key with
    | .text t => t.hasSurrogate
    | _ => false

/-- A check of fields whose keys have to be texts that can be encoded. If one is not, nothing else
counts. -/
def withSoundKeys (fields : List (DataKey × Data)) (x : Checked α) : Checked α :=
  if hasBrokenKey fields then problem .brokenText else x

/-- A model: its fields, and no others than the given names. -/
def model (names : List Text) (check : List (DataKey × Data) → Checked α) : Data → Checked α
  | .map fields => withSoundKeys fields ((fun a _ => a) <$> check fields <*> only names fields)
  | _ => problem .notModel

end Checked

end Bilingual
