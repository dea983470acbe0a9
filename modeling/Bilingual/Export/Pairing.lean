import Bilingual.Export.Basic

set_option autoImplicit false

/-! # The bilingual document of two exports

The contents of both locales side by side: at every place where a content has a text the document has an
object with the text of each locale, null where one is missing. Keys come in the order of the primary
contents, then those that only the secondary contents have; records are paired by number. This is the form
that `Reference` reads. -/

namespace Bilingual

namespace OrderedMap

variable {α : Type}

/-- The keys of one map, then those that only the other one has. -/
def unionKeys (first second : OrderedMap α) : List Text :=
  keys first ++ (keys second).filter fun key => !(keys first).contains key

end OrderedMap

namespace Pairing

/-- The texts of both locales at one place. Locales of the same name have one text, the secondary one. -/
def leaf (locales : Locales) (primary secondary : Option Text) : Json :=
  .object (OrderedMap.ofPairs
    [(locales.primary, Json.ofOption primary), (locales.secondary, Json.ofOption secondary)])

/-- Two maps key by key. -/
def byKey {α : Type} (pair : Option α → Option α → Json) (first second : OrderedMap α) : Json :=
  .object ((OrderedMap.unionKeys first second).map fun key =>
    (key, pair (first.lookup? key) (second.lookup? key)))

/-- Two maps of texts. -/
def texts (locales : Locales) (first second : FlatMap) : Json :=
  byKey (fun a b => leaf locales a.join b.join) first second

/-- Two records; a missing one has no fields. -/
def record (locales : Locales) (first second : Option (Option FlatMap)) : Json :=
  texts locales (first.join.getD []) (second.join.getD [])

/-- Two lists of records. -/
def records (locales : Locales) (first second : List (Option FlatMap)) : Json :=
  .list ((List.range (max first.length second.length)).map fun i => record locales first[i]? second[i]?)

/-- Two contents of the same shape; missing contents hold nothing. -/
def contents (locales : Locales) (shape : Shape) (first second : Option Content) : Json :=
  match first.getD (.empty shape), second.getD (.empty shape) with
  | .map first, .map second => texts locales first second
  | .records first, .records second => records locales first second
  | .keyedRecords first, .keyedRecords second => byKey (record locales) first second
  | _, _ => .null

/-- The field that tells when and in which locales the document was made. -/
def provenance (locales : Locales) (time : Text) : Json :=
  .object [("generated_at", .text time), ("primary_locale", .text locales.primary),
    ("secondary_locale", .text locales.secondary)]

/-- The document of an export in each locale. -/
def document (m : Manifest) (primary secondary : Export) (time : Text) : OrderedMap Json :=
  OrderedMap.putAll [(metaKey, provenance m.locales time)] (m.categories.map fun c =>
    (c.name, contents m.locales c.shape (primary.contents.lookup? c.name)
      (secondary.contents.lookup? c.name)))

end Pairing

end Bilingual
