import Bilingual.Content
import Bilingual.Json.Printer
import Bilingual.Json.Reader

set_option autoImplicit false

/-! # Snapshots

A snapshot holds the contents of categories in one locale by category name, as they are written in the
document, and optionally where it comes from: under the name `_meta` stand the locales, the time of
export and the number of sites of each ordinal category. Fields of `_meta` that this library does not
know are kept. -/

namespace Bilingual

/-- The name of the field that tells where a document comes from. -/
def metaKey : Text := "_meta"

/-- Where a snapshot comes from. -/
structure SnapshotMeta where
  schemaVersion : Int := 1
  generatedAt : Option Text := none
  primaryLocale : Option Text := none
  secondaryLocale : Option Text := none
  locale : Option Text := none
  occurrences : OrderedMap Int := []
  others : OrderedMap Json := []
deriving DecidableEq, Repr

/-- A snapshot. -/
structure Snapshot where
  categories : OrderedMap Json := []
  provenance : Option SnapshotMeta := none
deriving DecidableEq, Repr

namespace SnapshotMeta

/-- The fields this library knows. -/
def fieldNames : List Text :=
  ["schema_version", "generated_at", "primary_locale", "secondary_locale", "locale", "occurrences"]

/-- Check the `_meta` field of a document. -/
def check (fields : OrderedMap Json) : Checked SnapshotMeta :=
  let known := Data.ofFields fields
  let default : SnapshotMeta := {}
  Checked.withSoundKeys known <| (fun version generated primary secondary locale occurrences =>
      { schemaVersion := version, generatedAt := generated, primaryLocale := primary
        secondaryLocale := secondary, locale := locale, occurrences := occurrences
        others := fields.filter fun (name, _) => !fieldNames.contains name })
    <$> Checked.defaulted known "schema_version" default.schemaVersion Checked.integer
    <*> Checked.optional known "generated_at" Checked.text
    <*> Checked.optional known "primary_locale" Checked.text
    <*> Checked.optional known "secondary_locale" Checked.text
    <*> Checked.optional known "locale" Checked.text
    <*> Checked.defaulted known "occurrences" default.occurrences (Checked.map Checked.integer)

/-- A value as it is written among the others: a number that is not finite becomes null. -/
def finiteValue : Json → Json
  | .real (.finite negative significand exponent) => .real (.finite negative significand exponent)
  | .real _ => .null
  | .list items => .list (finiteItems items)
  | .object fields => .object (finiteFields fields)
  | value => value
where
  /-- The items of a list as they are written. -/
  finiteItems : List Json → List Json
    | [] => []
    | item :: items => finiteValue item :: finiteItems items
  /-- The fields of an object as they are written. -/
  finiteFields : List (Text × Json) → List (Text × Json)
    | [] => []
    | (name, value) :: fields => (name, finiteValue value) :: finiteFields fields

/-- A text field that is written only when it is there. -/
def textField (name : Text) : Option Text → List (Text × Json)
  | some t => [(name, .text t)]
  | none => []

/-- The numbers of sites as they are written. Surrogates in a name are replaced. -/
def occurrencesJson (m : SnapshotMeta) : Json :=
  .object (OrderedMap.ofPairs (m.occurrences.map fun (name, n) => (Text.Utf8.lossy name, .integer n)))

/-- The `_meta` field of a document; fields that are null are left out. -/
def toJson (m : SnapshotMeta) : Json :=
  .object (("schema_version", .integer m.schemaVersion) ::
    (textField "generated_at" m.generatedAt ++ textField "primary_locale" m.primaryLocale ++
      textField "secondary_locale" m.secondaryLocale ++ textField "locale" m.locale ++
      (Text.ofString "occurrences", m.occurrencesJson) ::
      OrderedMap.mapValues finiteValue (m.others.filter fun (_, value) => value ≠ .null)))

end SnapshotMeta

namespace Snapshot

/-- The snapshot in the fields of a document. A `_meta` field that is no object counts as none. -/
def check (fields : OrderedMap Json) : Checked Snapshot :=
  let categories := fields.filter fun (name, _) => name ≠ metaKey
  match fields.lookup? metaKey with
  | some (.object given) =>
    (fun provenance => { categories, provenance := some provenance }) <$> SnapshotMeta.check given
  | _ => .ok { categories }

/-- The fields of the document of a snapshot, its origin first. -/
def toFields (s : Snapshot) : OrderedMap Json :=
  match s.provenance with
  | some m => OrderedMap.putAll [(metaKey, m.toJson)] s.categories
  | none => OrderedMap.ofPairs s.categories

/-- The number of sites recorded under a name. -/
def expected? (s : Snapshot) (key : Text) : Option Int :=
  s.provenance.bind fun m => m.occurrences.lookup? key

end Snapshot

/-- Why a document cannot be read. -/
inductive DocumentError where
  | notJson
  | notObject
  | wrongMeta (problems : List Problem)
deriving DecidableEq, Repr

/-- The wording of an error in the document with the given path. -/
def DocumentError.message (path : Text) : DocumentError → Text
  | notJson => "Invalid snapshot JSON: " ++ path
  | notObject => "Snapshot must contain a JSON object: " ++ path
  | wrongMeta _ => "Invalid snapshot metadata: " ++ path

/-- The fields of the object that a document holds. -/
def readObject (text : Text) : Except DocumentError (OrderedMap Json) :=
  match Json.read? text with
  | some (.object fields) => .ok fields
  | some _ => .error .notObject
  | none => .error .notJson

/-- The snapshot that a document holds. -/
def Snapshot.read (text : Text) : Except DocumentError Snapshot := do
  match (Snapshot.check (← readObject text)) with
  | .ok snapshot => return snapshot
  | .bad problems => throw (.wrongMeta problems)

/-- The document with the given fields. -/
def writeObject (fields : OrderedMap Json) : Text := (Json.object fields).pretty ++ "\n"

/-- The document of a snapshot. -/
def Snapshot.write (s : Snapshot) : Text := writeObject s.toFields

end Bilingual
