import Bilingual.Manifest.Basic
import Bilingual.Json.Basic

set_option autoImplicit false

/-! # The bilingual reference

The reference document holds the texts of both locales: where a content has a text, it has an object with
a text for each locale. A bare text counts as one of the primary locale, and anything else as a missing
text. -/

namespace Bilingual

/-- A bilingual reference document, if there is one. -/
abbrev Reference := Option (OrderedMap Json)

namespace Reference

/-- The text of a locale at one place of the document. -/
def leaf (locale primaryLocale : Text) : Json → Option Text
  | .object texts => match OrderedMap.lookup? texts locale with
    | some (.text t) => some t
    | _ => none
  | .text t => if locale = primaryLocale then some t else none
  | _ => none

/-- The record of a locale at one place of the document. -/
def record (locale primaryLocale : Text) : Json → Option FlatMap
  | .object fields => some (OrderedMap.mapValues (leaf locale primaryLocale) fields)
  | _ => none

/-- The contents of a category in a locale; none when the document lacks them. -/
def contents? (reference : Reference) (name : Text) (shape : Shape) (locale primaryLocale : Text) :
    Option Content := do
  let raw ← OrderedMap.lookup? (← reference) name
  match shape, raw with
  | .map, .object fields => some (.map (OrderedMap.mapValues (leaf locale primaryLocale) fields))
  | .keyedRecords, .object fields =>
    some (.keyedRecords (OrderedMap.mapValues (record locale primaryLocale) fields))
  | .records, .list items => some (.records (items.map (record locale primaryLocale)))
  | _, _ => none

end Reference

end Bilingual
