import Bilingual.Manifest.Basic
import Bilingual.Text.Quoted

set_option autoImplicit false

/-! # Checking manifests

A manifest is checked field by field, and all problems are reported. Only when every field is right are
the categories compared with each other: no two may have the same name, and a block may merge only
categories that are maps of texts. -/

namespace Bilingual

open Checked

/-- Check a region. -/
def Region.check : Data → Checked Region :=
  model ["start", "end"] fun fields =>
    Region.mk <$> optional fields "start" text <*> optional fields "end" text

/-- Check a field of a pair category. -/
def PairField.check : Data → Checked PairField :=
  model ["name", "label", "followed_by"] fun fields =>
    PairField.mk <$> required fields "name" text <*> optional fields "label" text
      <*> optional fields "followed_by" text

/-- Check a scalar field. -/
def ScalarField.check : Data → Checked ScalarField :=
  model ["name", "label", "locale_labels"] fun fields =>
    ScalarField.mk <$> required fields "name" text <*> optional fields "label" text
      <*> defaulted fields "locale_labels" [] (map text)

namespace Category

/-- Check the fields that every category has, with those of a placement. -/
def common (fields : List (DataKey × Data)) (placement : Checked Placement) : Checked Category :=
  Category.mk <$> required fields "name" nonEmptyText <*> optional fields "region" Region.check
    <*> placement

/-- Check the place of a block category; a default opener stands in for one that is left out. -/
def blockPlace (fields : List (DataKey × Data)) (opener : Option Text) : Checked BlockPlace :=
  BlockPlace.mk <$> defaulted fields "anchors" [] (list text)
    <*> (match opener with
      | some opener => defaulted fields "opener" opener text
      | none => required fields "opener" text)
    <*> defaulted fields "locale_openers" [] (map text)

/-- Default texts of a category that is a map of texts. -/
def defaultTexts (fields : List (DataKey × Data)) : Checked (OrderedMap Text) :=
  defaulted fields "defaults" [] (map text)

/-- Default texts of a category of records. -/
def defaultRecords (fields : List (DataKey × Data)) : Checked (List (OrderedMap Text)) :=
  defaulted fields "defaults" [] (list (map text))

/-- Default texts of a category of keyed records. -/
def defaultKeyedRecords (fields : List (DataKey × Data)) : Checked (OrderedMap (OrderedMap Text)) :=
  defaulted fields "defaults" [] (map (map text))

/-- A category of a kind: the keys it may have besides its name, its region and its kind, and the check
of its placement. -/
def kinds : List (Text × List Text × (List (DataKey × Data) → Checked Placement)) := [
  ("pair", ["fields", "defaults"], fun fields =>
    .pairs <$> required fields "fields" (nonEmptyList PairField.check) <*> defaultRecords fields),
  ("keyed_pair", ["key_field", "label", "defaults"], fun fields =>
    .keyedPairs <$> required fields "key_field" text <*> required fields "label" text
      <*> defaultTexts fields),
  ("ternary", ["condition", "defaults"], fun fields =>
    .choices <$> defaulted fields "condition" "language === '\x7blocale\x7d'" text
      <*> defaultTexts fields),
  ("document", ["key_field", "body_field", "defaults"], fun fields =>
    .documents <$> defaulted fields "key_field" "slug" text
      <*> defaulted fields "body_field" "content" text <*> defaultTexts fields),
  ("scalar_fields", ["anchors", "fields", "defaults"], fun fields =>
    .scalarFields <$> required fields "anchors" (nonEmptyList text)
      <*> required fields "fields" (nonEmptyList ScalarField.check) <*> defaultTexts fields),
  ("dict_block", ["anchors", "opener", "locale_openers", "merge", "defaults"], fun fields =>
    .dictBlock <$> blockPlace fields (some "\x7blocale\x7d: \x7b")
      <*> defaulted fields "merge" [] (list text) <*> defaultTexts fields),
  ("record_block", ["anchors", "opener", "locale_openers", "fields", "defaults"], fun fields =>
    .recordBlock <$> blockPlace fields (some "\x7blocale\x7d: [")
      <*> required fields "fields" (nonEmptyList text) <*> defaultRecords fields),
  ("list_block", ["anchors", "opener", "locale_openers", "field", "defaults"], fun fields =>
    .listBlock <$> blockPlace fields none <*> defaulted fields "field" "value" text
      <*> defaultRecords fields),
  ("keyed_record_block", ["anchors", "opener", "locale_openers", "fields", "defaults"], fun fields =>
    .keyedRecordBlock <$> blockPlace fields (some "\x7blocale\x7d: \x7b")
      <*> required fields "fields" (nonEmptyList text) <*> defaultKeyedRecords fields)]

/-- Check a category; its kind decides which other keys it may have, and is a step of the path to its
problems. -/
def check : Data → Checked Category
  | .map fields =>
    match Data.lookup? fields "kind" with
    | none => problem .noTag
    | some (.text kind) => match OrderedMap.lookup? kinds kind with
      | none => problem .unknownTag
      | some (names, placement) =>
        (model ("name" :: "region" :: "kind" :: names) (fun fields => common fields (placement fields))
          (.map fields)).under (.text kind)
    | some _ => problem .unknownTag
  | _ => problem .notAttributes

end Category

/-- Check a reference category. -/
def ReferenceCategory.check : Data → Checked ReferenceCategory :=
  model ["name", "region", "kind", "defaults"] fun fields =>
    (fun name region _ defaults => ReferenceCategory.mk name region defaults)
      <$> required fields "name" nonEmptyText <*> optional fields "region" Region.check
      <*> defaulted fields "kind" () (oneOf [("reference", ())]) <*> Category.defaultTexts fields

/-- Check a file and its categories. -/
def Artifact.check : Data → Checked Artifact :=
  model ["path", "categories"] fun fields =>
    Artifact.mk <$> required fields "path" text
      <*> required fields "categories" (nonEmptyList Category.check)

/-- Check the places of the documents. -/
def DocumentPaths.check : Data → Checked DocumentPaths :=
  model ["snapshot", "translated", "reference"] fun fields =>
    let default : DocumentPaths := {}
    DocumentPaths.mk <$> defaulted fields "snapshot" default.snapshot text
      <*> defaulted fields "translated" default.translated text
      <*> defaulted fields "reference" default.reference text

namespace Manifest

/-- Check the fields of a manifest. -/
def checkFields : Data → Checked Manifest :=
  model ["version", "primary_locale", "secondary_locale", "paths", "artifacts", "references"]
    fun fields =>
      let default : Manifest := { artifacts := [] }
      Manifest.mk <$> defaulted fields "version" default.version integer
        <*> defaulted fields "primary_locale" default.primaryLocale text
        <*> defaulted fields "secondary_locale" default.secondaryLocale text
        <*> defaulted fields "paths" default.paths DocumentPaths.check
        <*> required fields "artifacts" (nonEmptyList Artifact.check)
        <*> defaulted fields "references" [] (list ReferenceCategory.check)

/-- The first name that occurs twice. -/
def repeatedName? (seen : List Text) : List AnyCategory → Option Text
  | [] => none
  | c :: rest => if seen.contains c.name then some c.name else repeatedName? (c.name :: seen) rest

/-- The names a category merges that are no categories of texts by key. -/
def wrongMerges (maps : List Text) (c : Category) : List Text :=
  match c.placement with
  | .dictBlock _ merge _ => merge.filter fun name => !maps.contains name
  | _ => []

/-- What is wrong with the categories taken together. -/
def refusal? (m : Manifest) : Option Text :=
  match repeatedName? [] m.categories with
  | some name => some ("Duplicate category name: " ++ name)
  | none =>
    let maps := (m.categories.filter fun c => c.shape = .map).map AnyCategory.name
    (m.artifacts.flatMap Artifact.categories).findSome? fun c =>
      let wrong := wrongMerges maps c
      if wrong.isEmpty then none
      else some ("Category " ++ c.name ++ " merges unknown flat-map categories: " ++
        Text.quotedList wrong)

/-- Check a manifest. -/
def check (d : Data) : Checked Manifest :=
  (checkFields d).andThen fun m => match m.refusal? with
    | some reason => problem (.refused reason)
    | none => .ok m

end Manifest

end Bilingual
