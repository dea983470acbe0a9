import Bilingual.Export.Basic
import Bilingual.Export.Contents
import Bilingual.Log
import Bilingual.Snapshot.Reference

set_option autoImplicit false

/-! # Collecting an export

The contents of a category are those found in its file, else those of the bilingual reference, else the
defaults of the manifest, which are texts of the primary locale, else empty ones. Contents that hold
nothing count as missing. -/

namespace Bilingual

/-! ## Contents that stand in for missing ones -/

/-- The contents to export for a category that its file does not bring. -/
def AnyCategory.fallback (c : AnyCategory) (locales : Locales) (locale : Text) (reference : Reference) :
    Content × ExportSource :=
  let known := reference.contents? c.name c.shape locale locales.primary
  match known.filter (!·.isEmpty) with
  | some content => (content, .reference)
  | none =>
    if locale = locales.primary ∧ !c.defaults.isEmpty then (c.defaults, .defaults)
    else (Content.empty c.shape, .empty)

/-- The contents that a file has for a category, if it has any. A template that is not closed is told as an
event, and then the file counts as having none. -/
def Category.found? (c : Category) (artifact text : Text) (locales : Locales) (locale : Text) :
    Logged Failure (Option Content) :=
  match c.contents? text locales locale with
  | .ok contents => return contents.filter (!·.isEmpty)
  | .error (.unterminated delimiter start) => do
    Logged.tell ⟨.warning, .extract, "scan_failed", [("category", .text c.name),
      ("artifact", .text artifact), ("delimiter", .text [delimiter]), ("offset", .integer start)]⟩
    return none
  | .error failure => throw failure

/-! ## Exporting -/

namespace Export

/-- Add a category of a file. -/
def addCategory (m : Manifest) (reference : Reference) (artifact text : Text) (e : Export) (c : Category) :
    Logged Failure Export := do
  match ← c.found? artifact text m.locales e.locale with
  | some content =>
    return e.add (.artifact c) (some artifact) .artifact content (← c.ordinalCounts text m.locales)
  | none =>
    Logged.tell ⟨.info, .extract, "category_not_found",
      [("category", .text c.name), ("artifact", .text artifact)]⟩
    let (content, source) := AnyCategory.fallback (.artifact c) m.locales e.locale reference
    return e.add (.artifact c) (some artifact) source content []

/-- Add the categories of a file with the given text. -/
def addArtifact (e : Export) (m : Manifest) (reference : Reference) (text : Text) (a : Artifact) :
    Logged Failure Export :=
  a.categories.foldlM (addCategory m reference a.path text) e

/-- Add the reference categories. -/
def addReferences (e : Export) (m : Manifest) (reference : Reference) : Export :=
  m.references.foldl (fun e c =>
    let (content, source) := AnyCategory.fallback (.reference c) m.locales e.locale reference
    e.add (.reference c) none source content []) e

/-- The event at the end of an export. -/
def doneEvent (e : Export) : LogEvent :=
  ⟨.info, .extract, "export_done", [("locale", .text e.locale), ("categories", .integer e.entries.length),
    ("fallbacks", .integer (e.entries.countP fun entry => entry.source ≠ .artifact))]⟩

/-- The locale to export: the primary one when none is given. Only the locales of the manifest can be
exported. -/
def target (locales : Locales) (locale : Option Text) : Except Failure Text :=
  let target := match locale with
    | some given => if given.isEmpty then locales.primary else given
    | none => locales.primary
  if target = locales.primary ∨ target = locales.secondary then return target
  else throw (.unknownLocale target)

end Export

end Bilingual
