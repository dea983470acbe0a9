import Bilingual.Pattern.Literal
import Bilingual.Pattern.Reader

set_option autoImplicit false

/-! # Localized patterns and their occurrences

Three patterns hold a text in both locales at one place:

* a pair, `label: { en: '…', ar: '…' }`;
* a keyed pair, a literal key field directly followed by a pair;
* a choice, `condition ? 'secondary' : 'primary'`.

Export and patching count the occurrences of a pattern with the same functions, so the i-th occurrence is
the same place for both. What has to follow a pair is written into its expression as it is (`Following`), so it may name
a group `key` of its own, or leave the group that it has been put in. -/

namespace Bilingual

/-- A localized pattern. -/
inductive Pattern where
  /-- A labelled pair; `followedBy` has to follow it when it is given and not empty. -/
  | pair (label primaryLocale secondaryLocale : Text) (followedBy : Option Text)
  /-- A literal key field and a labelled pair. -/
  | keyedPair (keyField label primaryLocale secondaryLocale : Text)
  /-- A choice between two literals. -/
  | choice (condition : Text)
deriving DecidableEq, Repr

/-- The literals of one occurrence of a pattern. -/
structure Literals where
  key : Option LiteralSpan
  primary : LiteralSpan
  secondary : LiteralSpan
deriving DecidableEq, Repr

/-- What the group `key` of what has to follow took, taken apart as a literal is, whatever it is: the first and the last
code point are left out, and the first one passes for the quote. -/
structure Captured where
  start : Nat
  stop : Nat
  quote : CodePoint
  raw : Text
deriving DecidableEq, Repr

/-- One occurrence of a pattern: its span, its literals, and what stands for the key of a pair. -/
structure Occurrence extends Literals where
  start : Nat
  stop : Nat
  captured : Option Captured := none
deriving DecidableEq, Repr

/-- The literal an occurrence goes by: its key, or its primary text when it has none. -/
def Literals.keyLiteral (literals : Literals) : LiteralSpan := literals.key.getD literals.primary

namespace Recogniser

/-- Both locales of a text in braces, with an optional comma at the end. -/
def localePair (primaryLocale secondaryLocale : Text) : Recogniser Literals := do
  point '{'
  spaces
  let primary ← labelledLiteral primaryLocale
  spaces
  point ','
  spaces
  let secondary ← labelledLiteral secondaryLocale
  spaces
  let _ ← optional (point ',')
  spaces
  point '}'
  return ⟨none, primary, secondary⟩

/-- A labelled pair. -/
def pair (name primaryLocale secondaryLocale : Text) : Recogniser Literals := do
  fieldLabel name
  localePair primaryLocale secondaryLocale

/-- A literal key field, a comma and a labelled pair. -/
def keyedPair (keyField name primaryLocale secondaryLocale : Text) : Recogniser Literals := do
  let key ← labelledLiteral keyField
  spaces
  point ','
  spaces
  let literals ← pair name primaryLocale secondaryLocale
  return { literals with key := some key }

/-- A choice between the secondary literal and the primary one. -/
def choice (condition : Text) : Recogniser Literals := do
  exactly condition
  spaces
  point '?'
  spaces
  let secondary ← literal
  spaces
  point ':'
  spaces
  let primary ← literal
  return ⟨none, primary, secondary⟩

end Recogniser

/-! ## What has to follow -/

namespace Following

open Expression

/-- The marks of the literals of a pair, which are groups with their quotes. -/
def marks (literals : Literals) : Marks := [
  (Marks.opening primaryGroup, literals.primary.start - 1), (Marks.closing primaryGroup, literals.primary.stop + 1),
  (Marks.opening secondaryGroup, literals.secondary.start - 1),
  (Marks.closing secondaryGroup, literals.secondary.stop + 1)]

/-- Read what has to follow the literals of an occurrence. -/
def behind (following : Following) (text : Text) (literals : Literals) : Recogniser Marks := ⟨fun cursor =>
  (following.next.find? text (marks literals) cursor).toList⟩

/-- Read what may stand in place of an occurrence. -/
def otherwise (following : Following) (text : Text) : Recogniser Marks := ⟨fun cursor =>
  (following.instead.bind (·.find? text [] cursor)).toList⟩

/-- What the group `key` took, if there is one. It has to have taken part, and at least one code point. -/
def captured (following : Following) (text : Text) (marks : Marks) : Except Failure (Option Captured) :=
  match following.key with
  | none => .ok none
  | some number => match marks.span? number with
    | none => .error .missingGroup
    | some (start, stop) => match text.slice start stop with
      | [] => .error .emptyGroup
      | quote :: rest => .ok (some ⟨start + 1, stop - 1, quote, rest.dropLast⟩)

end Following

/-- What comes before the first error, and that error. -/
def untilError {ε α : Type} : List (Except ε α) → List α × Option ε
  | [] => ([], none)
  | .ok a :: rest => ((a :: (untilError rest).1), (untilError rest).2)
  | .error e :: _ => ([], some e)

namespace Pattern

/-- Read the literals of a pattern. -/
def shape : Pattern → Recogniser Literals
  | pair label primary secondary _ => Recogniser.pair label primary secondary
  | keyedPair keyField label primary secondary => Recogniser.keyedPair keyField label primary secondary
  | choice condition => Recogniser.choice condition

/-- What has to follow a pattern; for a pair the expression for it may be one that cannot be read. -/
def following : Pattern → Except Failure Following
  | pair _ _ _ followedBy => Following.ofText (followedBy.getD [])
  | _ => .ok {}

/-- Read a pattern with what has to follow it. What is read in place of it has no literals. -/
def recogniser (pattern : Pattern) (following : Following) (text : Text) :
    Recogniser (Except Failure (Literals × Option Captured)) :=
  Recogniser.orElse
    (do
      let literals ← pattern.shape
      let marks ← following.behind text literals
      return (following.captured text marks).map (literals, ·))
    (do
      let marks ← following.otherwise text
      return (following.captured text marks).bind fun _ => .error .missingGroup)

/-- The occurrences of a pattern in a window, from left to right, and why the search for them ends early if it does. -/
def search (pattern : Pattern) (following : Following) (text : Text) (start stop : Nat) :
    List Occurrence × Option Failure :=
  untilError <| ((pattern.recogniser following text).places text start stop).map fun (start, found, stop) =>
    found.map fun (literals, captured) => { literals with start, stop, captured }

/-- What a step makes of the occurrences of a pattern in a window, from left to right. The step is made as soon as an
occurrence is found, so where it fails is told of before a search that ends early behind that. -/
def mapOccurrences {α : Type} (pattern : Pattern) (text : Text) (start stop : Nat)
    (step : Occurrence → Except Failure α) : Except Failure (List α) := do
  let (found, failure) := pattern.search (← pattern.following) text start stop
  let results ← found.mapM step
  match failure with
  | none => return results
  | some failure => throw failure

/-- The occurrences of a pattern in a window, from left to right. -/
def occurrences (pattern : Pattern) (text : Text) (start stop : Nat) : Except Failure (List Occurrence) :=
  pattern.mapOccurrences text start stop pure

/-- The number of occurrences of a pattern in a window. -/
def count (pattern : Pattern) (text : Text) (start stop : Nat) : Except Failure Nat := do
  return (← pattern.occurrences text start stop).length

/-- The occurrence with the given number, counted from zero. The search goes on until it is found. -/
def occurrence? (pattern : Pattern) (text : Text) (index : Int) (start stop : Nat) :
    Except Failure (Option Occurrence) := do
  if index < 0 then throw (.negativeIndex index)
  let (found, failure) := pattern.search (← pattern.following) text start stop
  match found[index.toNat]?, failure with
  | some o, _ => return some o
  | none, none => return none
  | none, some failure => throw failure

end Pattern

end Bilingual
