import Bilingual.Patch.Block
import Bilingual.Patch.Site
import Bilingual.Snapshot.Basic
import Bilingual.Snapshot.Reference

set_option autoImplicit false

/-! # Patching a text

The categories of a file are patched one after the other, each against the text as the one before left
it. A category that the snapshot lacks is skipped, one with contents of a wrong shape is invalid, and an
ordinal one whose number of sites has changed since the export is refused. -/

namespace Bilingual

/-- What patching works with besides the text: the manifest, the snapshot and the reference. -/
structure PatchInput where
  manifest : Manifest
  snapshot : Snapshot
  reference : Reference := none

namespace PatchInput

/-- The contents that the snapshot has for a category; null counts as none. -/
def raw? (input : PatchInput) (name : Text) : Option Json :=
  match input.snapshot.categories.lookup? name with
  | some .null => none
  | found => found

/-- The texts of a category that a block merges, as they are given: from the snapshot, else the
secondary ones of the reference. -/
def mergeSource? (input : PatchInput) (name : Text) : Option Json :=
  match input.raw? name with
  | some raw => some raw
  | none => do
    let c ← input.manifest.category? name
    let locales := input.manifest.locales
    let contents ← Reference.contents? input.reference c.name c.shape locales.secondary locales.primary
    return contents.toJson

/-- The texts that a block merges. Contents of a wrong shape are told as an event and left out. -/
def mergeSources (input : PatchInput) (c : Category) : Logged Failure (List FlatMap) :=
  match c.placement with
  | .dictBlock _ merge _ => do
    let sources ← merge.mapM fun name => do
      match input.mergeSource? name with
      | none => return none
      | some raw => match Content.checkTexts (Data.ofJson raw) with
        | .ok texts => return some texts
        | .bad _ =>
          Logged.tell ⟨.warning, .patch, "invalid_category", [("category", .text name)]⟩
          return none
    return sources.filterMap id
  | _ => return []

/-- One entry for each recorded number of sites that differs from the number found now. -/
def shifts (input : PatchInput) (c : Category) (text : Text) : Logged Failure (List PatchEntry) := do
  if !c.placement.isOrdinal then return []
  let counts ← c.ordinalCounts text input.manifest.locales
  let entries ← OrderedMap.keys counts |>.mapM fun key => do
    let current := (counts.lookup? key).getD 0
    match input.snapshot.expected? key with
    | none => return none
    | some expected =>
      if expected = current then return none
      Logged.tell ⟨.warning, .patch, "occurrences_shifted", [("category", .text c.name),
        ("key", .text key), ("expected", .integer expected), ("current", .integer current)]⟩
      let detail : Text := "expected " ++ Text.ofInt expected ++ " occurrences, found " ++
        Text.ofNat current
      return some { category := c.name, status := .shifted, key := some key, detail := some detail }
  return entries.filterMap id

/-- Plan the contents of a category against a text. -/
def plan (input : PatchInput) (c : Category) (text : Text) (content : Content)
    (merged : List FlatMap) : Logged Failure Plan :=
  let locales := input.manifest.locales
  match c.placement, content with
  | .pairs fields _, .records records => Plan.pairs c text locales fields records
  | .documents .., .map texts => Plan.documents c text locales.secondary texts
  | .scalarFields .., .map texts => Plan.scalarFields c text locales.secondary texts
  | .dictBlock .., .map texts => Plan.dictBlock c text locales.secondary texts merged
  | .recordBlock _ names _, .records records => Plan.recordBlock c text locales.secondary names records
  | .listBlock _ name _, .records records => Plan.recordBlock c text locales.secondary [name] records
  | .keyedRecordBlock _ names _, .keyedRecords records =>
    Plan.keyedRecordBlock c text locales.secondary names records
  | placement, .map texts => match placement.keyedPattern? locales with
    | some pattern => Plan.keyed c text pattern texts
    | none => return {}
  | _, _ => return {}

/-- Patch one category: the text behind it and the entries of the report. -/
def patchCategory (input : PatchInput) (c : Category) (text : Text) :
    Logged Failure (Text × List PatchEntry) := do
  let merged ← input.mergeSources c
  let raw := input.raw? c.name
  if raw.isNone && merged.isEmpty then
    return (text, [{ category := c.name, status := .skipped, detail := some "not in snapshot" }])
  match Content.ofJson c.placement.shape (raw.getD (.object [])) with
  | .bad problems =>
    Logged.tell ⟨.warning, .patch, "invalid_category",
      [("category", .text c.name), ("errors", .integer problems.length)]⟩
    return (text, [{ category := c.name, status := .invalid, detail := some "unexpected shape" }])
  | .ok content =>
    match ← input.shifts c text with
    | [] => do
      let plan ← input.plan c text content merged
      return (← Edit.applyAll text plan.edits, plan.entries)
    | shifted => return (text, shifted)

/-- Patch categories one after the other: the patched text and the entries of all. -/
def patchText (input : PatchInput) (text : Text) : List Category → Logged Failure (Text × List PatchEntry)
  | [] => return (text, [])
  | c :: rest => do
    let (text, entries) ← input.patchCategory c text
    let (text, others) ← patchText input text rest
    return (text, entries ++ others)

end PatchInput

end Bilingual
