import Bilingual.Json.Basic
import Bilingual.Number.Shortest
import Bilingual.Text.Quoted

set_option autoImplicit false

/-! # Writing JSON

A document is laid out with two spaces per level, one item or field per line. A log line holds a value on
one line without blanks, the fields of each object in order of their names. Strings escape quotes,
backslashes and control code points, and nothing else. -/

namespace Bilingual.Json

/-- One code point of a written string. -/
def escapePoint (c : CodePoint) : Text :=
  if c = '"' ∨ c = '\\' then ['\\', c]
  else if c = '\n' then "\\n"
  else if c = '\r' then "\\r"
  else if c = '\t' then "\\t"
  else if c = '\x08' then "\\b"
  else if c = '\x0c' then "\\f"
  else if c.val < 0x20 then "\\u" ++ Text.hexPadded 4 c.val
  else [c]

/-- A written string. -/
def quote (t : Text) : Text := "\"" ++ t.flatMap escapePoint ++ "\""

/-- A line break and the indentation of a level. -/
def newLine (level : Nat) : Text := '\n' :: List.replicate (2 * level) (CodePoint.ofChar ' ')

mutual

/-- The written form of a value that starts on a line of the given level. -/
def layout (level : Nat) : Json → Text
  | null => "null"
  | bool b => if b then "true" else "false"
  | integer n => Text.ofInt n
  | real x => x.toText
  | text t => quote t
  | list [] => "[]"
  | list (item :: items) =>
    "[" ++ newLine (level + 1) ++ layout (level + 1) item ++ layoutItems (level + 1) items ++
      newLine level ++ "]"
  | object [] => "\x7b\x7d"
  | object ((name, value) :: fields) =>
    "\x7b" ++ newLine (level + 1) ++ quote name ++ ": " ++ layout (level + 1) value ++
      layoutFields (level + 1) fields ++ newLine level ++ "\x7d"

/-- The further items of a list, each behind a comma on a line of its own. -/
def layoutItems (level : Nat) : List Json → Text
  | [] => []
  | item :: items => "," ++ newLine level ++ layout level item ++ layoutItems level items

/-- The further fields of an object, each behind a comma on a line of its own. -/
def layoutFields (level : Nat) : List (Text × Json) → Text
  | [] => []
  | (name, value) :: fields =>
    "," ++ newLine level ++ quote name ++ ": " ++ layout level value ++ layoutFields level fields

end

/-- The written form of a document. -/
def pretty (value : Json) : Text := layout 0 value

/-- Insert a keyed text in front of the first key that is not smaller. -/
def insertByKey (pair : Text × Text) : List (Text × Text) → List (Text × Text)
  | [] => [pair]
  | first :: rest =>
    if Text.le pair.1 first.1 then pair :: first :: rest else first :: insertByKey pair rest

mutual

/-- The form of a value on one line, fields in order of their names. -/
def compact : Json → Text
  | null => "null"
  | bool b => if b then "true" else "false"
  | integer n => Text.ofInt n
  | real x => x.toText
  | text t => quote t
  | list items => "[" ++ Text.joinWith "," (compactItems items) ++ "]"
  | object fields =>
    let sorted := (compactFields fields).foldr insertByKey []
    "\x7b" ++ Text.joinWith "," (sorted.map fun (name, value) => quote name ++ ":" ++ value) ++ "\x7d"

/-- The compact forms of the items of a list. -/
def compactItems : List Json → List Text
  | [] => []
  | item :: items => compact item :: compactItems items

/-- The compact forms of the values of an object, each with its name. -/
def compactFields : List (Text × Json) → List (Text × Text)
  | [] => []
  | (name, value) :: fields => (name, compact value) :: compactFields fields

end

end Bilingual.Json
