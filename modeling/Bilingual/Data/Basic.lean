import Bilingual.Data.Key

set_option autoImplicit false

/-! # Untyped data

What a document holds before it is checked against a model. A JSON document gives such data, and so does
a manifest written in YAML, which may also hold bytes, sets and values that no model has a use for. -/

namespace Bilingual

/-- Data of a document. A value of `other` kind, such as a date, is of no use to any model. -/
inductive Data where
  | null
  | bool (b : Bool)
  | integer (n : Int)
  | real (x : Binary64)
  | text (t : Text)
  | bytes (b : List UInt8)
  | list (items : List Data)
  | set (items : List Data)
  | map (fields : List (DataKey × Data))
  | other
deriving Repr

namespace Data

instance : Inhabited Data := ⟨null⟩

mutual

/-- The data of a JSON value. -/
def ofJson : Json → Data
  | .null => null
  | .bool b => bool b
  | .integer n => integer n
  | .real x => real x
  | .text t => text t
  | .list items => list (ofItems items)
  | .object fields => map (ofFields fields)

/-- The items of a JSON list. -/
def ofItems : List Json → List Data
  | [] => []
  | item :: items => ofJson item :: ofItems items

/-- The fields of a JSON object, with texts as keys. -/
def ofFields : List (Text × Json) → List (DataKey × Data)
  | [] => []
  | (name, value) :: fields => (.text name, ofJson value) :: ofFields fields

end

/-- The data that a key stands for. -/
def ofKey : DataKey → Data
  | .text t => text t
  | .integer n => integer n
  | .real x => real x
  | .null => null
  | .bytes b => bytes b
  | .moment _ => other

/-- The value under a text key. -/
def lookup? (fields : List (DataKey × Data)) (name : Text) : Option Data :=
  match fields with
  | [] => none
  | (key, value) :: rest => if key = .text name then some value else lookup? rest name

end Data

end Bilingual
