import Bilingual.Content
import Bilingual.Region

set_option autoImplicit false

/-! # The manifest

A manifest says which files of a project hold localized texts, how the texts are placed there, and where
the documents of the project are. Export and patching read places from the same manifest.

Each category of a file has a placement. Four placements stand at single sites: pairs, keyed pairs,
choices and template documents; scalar fields are single literals of one object; the four block
placements are items of one bracketed block per locale. A reference category has no file at all. -/

namespace Bilingual

/-- One field of the records of a pair category. -/
structure PairField where
  name : Text
  label : Option Text
  followedBy : Option Text
deriving DecidableEq, Repr

/-- The label under which the field stands in the file. -/
def PairField.artifactLabel (field : PairField) : Text :=
  match field.label with
  | some label => if label.isEmpty then field.name else label
  | none => field.name

/-- One literal of a category of scalar fields. -/
structure ScalarField where
  name : Text
  label : Option Text
  localeLabels : OrderedMap Text
deriving DecidableEq, Repr

/-- The label of a field in a locale: its own label there, else its label, else its name. An empty label
counts as none. -/
def ScalarField.labelFor (field : ScalarField) (locale : Text) : Text :=
  let given := [field.localeLabels.lookup? locale, field.label].filterMap id
  (given.find? (!·.isEmpty)).getD field.name

/-- Where the block of a locale is: behind the anchors and the opener of that locale. -/
structure BlockPlace where
  anchors : List Text
  opener : Text
  localeOpeners : OrderedMap Text
deriving DecidableEq, Repr

/-- The opener of a locale. -/
def BlockPlace.openerFor (place : BlockPlace) (locale : Text) : Text :=
  (place.localeOpeners.lookup? locale).getD place.opener

/-- How the texts of a category are placed in their file, and the texts to export when none are found
there. -/
inductive Placement where
  /-- Records, each field at its own ordinal occurrence. -/
  | pairs (fields : List PairField) (defaults : List (OrderedMap Text))
  /-- Texts keyed by a literal field in front of them. -/
  | keyedPairs (keyField label : Text) (defaults : OrderedMap Text)
  /-- Choices between two literals, keyed by the primary text. -/
  | choices (condition : Text) (defaults : OrderedMap Text)
  /-- Template literals keyed by a literal field in front of them. -/
  | documents (keyField bodyField : Text) (defaults : OrderedMap Text)
  /-- Single literals of the object behind the last anchor. -/
  | scalarFields (anchors : List Text) (fields : List ScalarField) (defaults : OrderedMap Text)
  /-- A block of `key: 'value'` entries; texts of the `merge` categories are put into it too. -/
  | dictBlock (place : BlockPlace) (merge : List Text) (defaults : OrderedMap Text)
  /-- A block of records. -/
  | recordBlock (place : BlockPlace) (fields : List Text) (defaults : List (OrderedMap Text))
  /-- A block of literals, each a record of one field. -/
  | listBlock (place : BlockPlace) (field : Text) (defaults : List (OrderedMap Text))
  /-- A block of keyed records. -/
  | keyedRecordBlock (place : BlockPlace) (fields : List Text) (defaults : OrderedMap (OrderedMap Text))
deriving DecidableEq, Repr

namespace Placement

/-- The name of the kind of a category in manifests. -/
def kindName : Placement → Text
  | pairs .. => "pair"
  | keyedPairs .. => "keyed_pair"
  | choices .. => "ternary"
  | documents .. => "document"
  | scalarFields .. => "scalar_fields"
  | dictBlock .. => "dict_block"
  | recordBlock .. => "record_block"
  | listBlock .. => "list_block"
  | keyedRecordBlock .. => "keyed_record_block"

/-- The shape of the contents of a category. -/
def shape : Placement → Shape
  | pairs .. | recordBlock .. | listBlock .. => .records
  | keyedRecordBlock .. => .keyedRecords
  | _ => .map

/-- Whether texts are bound to their sites by number, so that sites must not come or go between export
and patching. -/
def isOrdinal : Placement → Bool
  | pairs .. | recordBlock .. | listBlock .. => true
  | _ => false

/-- The place of a category whose block is written as a whole. -/
def blockPlace? : Placement → Option BlockPlace
  | dictBlock place .. | recordBlock place .. | listBlock place .. | keyedRecordBlock place .. =>
    some place
  | _ => none

/-- A record with all its texts. -/
def completeRecord (texts : OrderedMap Text) : FlatMap := texts.mapValues some

/-- The contents to export in the primary locale when none are found. -/
def defaults : Placement → Content
  | keyedPairs _ _ texts | choices _ texts | documents _ _ texts | scalarFields _ _ texts
  | dictBlock _ _ texts => .map (completeRecord texts)
  | pairs _ records | recordBlock _ _ records | listBlock _ _ records =>
    .records (records.map fun texts => some (completeRecord texts))
  | keyedRecordBlock _ _ records =>
    .keyedRecords (records.mapValues fun texts => some (completeRecord texts))

end Placement

/-- A category of a file. -/
structure Category where
  name : Text
  region : Option Region
  placement : Placement
deriving DecidableEq, Repr

/-- A category of texts that no file holds. -/
structure ReferenceCategory where
  name : Text
  region : Option Region
  defaults : OrderedMap Text
deriving DecidableEq, Repr

/-- A category of a manifest. -/
inductive AnyCategory where
  | artifact (category : Category)
  | reference (category : ReferenceCategory)
deriving DecidableEq, Repr

namespace AnyCategory

/-- The name of a category. -/
def name : AnyCategory → Text
  | artifact c => c.name
  | reference c => c.name

/-- The name of the kind of a category in manifests. -/
def kindName : AnyCategory → Text
  | artifact c => c.placement.kindName
  | reference _ => "reference"

/-- The shape of the contents of a category. -/
def shape : AnyCategory → Shape
  | artifact c => c.placement.shape
  | reference _ => .map

/-- The contents to export in the primary locale when none are found. -/
def defaults : AnyCategory → Content
  | artifact c => c.placement.defaults
  | reference c => .map (Placement.completeRecord c.defaults)

end AnyCategory

/-- A file that holds localized texts, and its categories in the order they are patched. -/
structure Artifact where
  path : Text
  categories : List Category
deriving DecidableEq, Repr

/-- Where the documents of a project are: the export, the snapshot to apply, and the bilingual
reference. -/
structure DocumentPaths where
  snapshot : Text := "content-snapshot.json"
  translated : Text := "translated-snapshot.json"
  reference : Text := "bilingual-reference.json"
deriving DecidableEq, Repr

/-- A manifest. -/
structure Manifest where
  version : Int := 1
  primaryLocale : Text := "en"
  secondaryLocale : Text := "ar"
  paths : DocumentPaths := {}
  artifacts : List Artifact
  references : List ReferenceCategory := []
deriving DecidableEq, Repr

/-- The two locales that texts are kept in: the one they are written in first, and the one they are
translated to. -/
structure Locales where
  primary : Text
  secondary : Text
deriving DecidableEq, Repr

namespace Manifest

/-- The locales of a manifest. -/
def locales (m : Manifest) : Locales := ⟨m.primaryLocale, m.secondaryLocale⟩

/-- The categories of all files, then the reference categories. -/
def categories (m : Manifest) : List AnyCategory :=
  m.artifacts.flatMap (fun a => a.categories.map .artifact) ++ m.references.map .reference

/-- The first category with a name. -/
def category? (m : Manifest) (name : Text) : Option AnyCategory :=
  m.categories.find? fun c => c.name == name

end Manifest

end Bilingual
