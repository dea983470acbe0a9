import Bilingual.Data.Checked

set_option autoImplicit false

/-! # Contents of a category

The texts of a category in one locale have one of three shapes: a map from keys to texts, a list of
records, or a map from keys to records. A text may be missing (null), and so may a whole record. -/

namespace Bilingual

/-- The shape of a category's contents. -/
inductive Shape where
  | map
  | records
  | keyedRecords
deriving DecidableEq, Repr

/-- The name of a shape in reports. -/
def Shape.name : Shape → Text
  | map => "map"
  | records => "records"
  | keyedRecords => "keyed_records"

/-- Texts by key; a missing text is none. -/
abbrev FlatMap := OrderedMap (Option Text)

/-- The contents of a category in one locale. -/
inductive Content where
  | map (texts : FlatMap)
  | records (items : List (Option FlatMap))
  | keyedRecords (items : OrderedMap (Option FlatMap))
deriving DecidableEq, Repr

namespace Content

/-- The shape of contents. -/
def shape : Content → Shape
  | map _ => .map
  | records _ => .records
  | keyedRecords _ => .keyedRecords

/-- Contents of a shape that hold nothing. -/
def empty : Shape → Content
  | .map => map []
  | .records => records []
  | .keyedRecords => keyedRecords []

/-- How many texts or records there are. -/
def size : Content → Nat
  | map texts => texts.length
  | records items => items.length
  | keyedRecords items => items.length

/-- Whether there are none. -/
def isEmpty (content : Content) : Bool := content.size == 0

/-- A record of a document. -/
def recordToJson : Option FlatMap → Json
  | some texts => .object (texts.mapValues Json.ofOption)
  | none => .null

/-- Contents as they are written in documents. -/
def toJson : Content → Json
  | map texts => .object (texts.mapValues Json.ofOption)
  | records items => .list (items.map recordToJson)
  | keyedRecords items => .object (items.mapValues recordToJson)

/-- Check a map of texts that may be missing. -/
def checkTexts : Data → Checked FlatMap := Checked.map (Checked.nullable Checked.text)

/-- Check contents of a shape. -/
def check (shape : Shape) (d : Data) : Checked Content :=
  match shape with
  | .map => map <$> checkTexts d
  | .records => records <$> Checked.list (Checked.nullable checkTexts) d
  | .keyedRecords => keyedRecords <$> Checked.map (Checked.nullable checkTexts) d

/-- The contents that a document value holds. -/
def ofJson (shape : Shape) (value : Json) : Checked Content := check shape (Data.ofJson value)

end Content

end Bilingual
