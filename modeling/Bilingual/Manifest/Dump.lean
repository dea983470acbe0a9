import Bilingual.Manifest.Basic

set_option autoImplicit false

/-! # Writing manifests

A manifest is written with every field and every default, in the order the fields are declared. -/

namespace Bilingual

open Json (ofOption)

/-- Texts as a list. -/
def Json.ofTexts (texts : List Text) : Json := .list (texts.map .text)

/-- Texts by key. -/
def Json.ofTextMap (texts : OrderedMap Text) : Json := .object (texts.mapValues .text)

/-- Region as it is written. -/
def Region.toJson (region : Region) : Json :=
  .object [("start", ofOption region.start), ("end", ofOption region.stop)]

/-- Field as it is written. -/
def PairField.toJson (field : PairField) : Json :=
  .object [("name", .text field.name), ("label", ofOption field.label),
    ("followed_by", ofOption field.followedBy)]

/-- Field as it is written. -/
def ScalarField.toJson (field : ScalarField) : Json :=
  .object [("name", .text field.name), ("label", ofOption field.label),
    ("locale_labels", Json.ofTextMap field.localeLabels)]

/-- The fields of a block's place, in front of further fields. -/
def BlockPlace.fieldsBefore (place : BlockPlace) (others : List (Text × Json)) : List (Text × Json) :=
  ("anchors", Json.ofTexts place.anchors) :: ("opener", .text place.opener) ::
    ("locale_openers", Json.ofTextMap place.localeOpeners) :: others

namespace Placement

/-- Default records. -/
def recordsToJson (records : List (OrderedMap Text)) : Json := .list (records.map Json.ofTextMap)

/-- The fields of a placement in a written category. -/
def fields : Placement → List (Text × Json)
  | pairs fields defaults =>
    [("fields", .list (fields.map PairField.toJson)), ("defaults", recordsToJson defaults)]
  | keyedPairs keyField label defaults =>
    [("key_field", .text keyField), ("label", .text label), ("defaults", Json.ofTextMap defaults)]
  | choices condition defaults =>
    [("condition", .text condition), ("defaults", Json.ofTextMap defaults)]
  | documents keyField bodyField defaults =>
    [("key_field", .text keyField), ("body_field", .text bodyField),
      ("defaults", Json.ofTextMap defaults)]
  | scalarFields anchors fields defaults =>
    [("anchors", Json.ofTexts anchors), ("fields", .list (fields.map ScalarField.toJson)),
      ("defaults", Json.ofTextMap defaults)]
  | dictBlock place merge defaults =>
    place.fieldsBefore [("merge", Json.ofTexts merge), ("defaults", Json.ofTextMap defaults)]
  | recordBlock place fields defaults =>
    place.fieldsBefore [("fields", Json.ofTexts fields), ("defaults", recordsToJson defaults)]
  | listBlock place field defaults =>
    place.fieldsBefore [("field", .text field), ("defaults", recordsToJson defaults)]
  | keyedRecordBlock place fields defaults =>
    place.fieldsBefore [("fields", Json.ofTexts fields),
      ("defaults", .object (defaults.mapValues Json.ofTextMap))]

end Placement

/-- The region of a category; null when it has none. -/
def Region.optionToJson : Option Region → Json
  | some region => region.toJson
  | none => .null

/-- Category as it is written. -/
def Category.toJson (c : Category) : Json :=
  .object (("name", .text c.name) :: ("region", Region.optionToJson c.region) ::
    ("kind", .text c.placement.kindName) :: c.placement.fields)

/-- Category as it is written. -/
def ReferenceCategory.toJson (c : ReferenceCategory) : Json :=
  .object [("name", .text c.name), ("region", Region.optionToJson c.region), ("kind", .text "reference"),
    ("defaults", Json.ofTextMap c.defaults)]

/-- File as it is written. -/
def Artifact.toJson (a : Artifact) : Json :=
  .object [("path", .text a.path), ("categories", .list (a.categories.map Category.toJson))]

/-- Document places as they are written. -/
def DocumentPaths.toJson (paths : DocumentPaths) : Json :=
  .object [("snapshot", .text paths.snapshot), ("translated", .text paths.translated),
    ("reference", .text paths.reference)]

/-- Manifest as it is written. -/
def Manifest.toJson (m : Manifest) : Json :=
  .object [("version", .integer m.version), ("primary_locale", .text m.primaryLocale),
    ("secondary_locale", .text m.secondaryLocale), ("paths", m.paths.toJson),
    ("artifacts", .list (m.artifacts.map Artifact.toJson)),
    ("references", .list (m.references.map ReferenceCategory.toJson))]

end Bilingual
