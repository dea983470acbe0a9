import Bilingual.Data.Checked
import Bilingual.Manifest.Basic
import Bilingual.Snapshot.Basic

set_option autoImplicit false

/-! # Exports

An export holds the contents of every category in one locale, a report of where they come from, and how
many sites each ordinal category had. -/

namespace Bilingual

/-- Where the contents of an exported category come from. -/
inductive ExportSource where
  | artifact
  | reference
  | defaults
  | empty
deriving DecidableEq, Repr

namespace ExportSource

/-- The name of a source in reports. -/
def name : ExportSource → Text
  | artifact => "artifact"
  | reference => "reference"
  | defaults => "defaults"
  | empty => "empty"

/-- All sources. -/
def all : List ExportSource := [artifact, reference, defaults, empty]

/-- The sources that stand in for a file, in the order of the summary. -/
def fallbacks : List ExportSource := [reference, defaults, empty]

end ExportSource

/-- What the report says about an exported category: its kind, its file if it has one, where its contents
come from and how many there are. -/
structure CategoryExport where
  name : Text
  kind : Text
  artifact : Option Text
  source : ExportSource
  count : Int
deriving DecidableEq, Repr

namespace CategoryExport

/-- A report entry as it is written. -/
def toJson (entry : CategoryExport) : Json :=
  .object [("name", .text entry.name), ("kind", .text entry.kind),
    ("artifact", Json.ofOption entry.artifact), ("source", .text entry.source.name),
    ("count", .integer entry.count)]

open Checked in
/-- Check a written report entry. -/
def check : Data → Checked CategoryExport :=
  model ["name", "kind", "artifact", "source", "count"] fun fields =>
    CategoryExport.mk <$> required fields "name" text <*> required fields "kind" text
      <*> required fields "artifact" (nullable text)
      <*> required fields "source" (oneOf (ExportSource.all.map fun s => (s.name, s)))
      <*> required fields "count" integer

end CategoryExport

/-- The contents of all categories in a locale, with the report and the numbers of sites. -/
structure Export where
  locale : Text
  contents : OrderedMap Content := []
  occurrences : OrderedMap Nat := []
  entries : List CategoryExport := []
deriving DecidableEq, Repr

namespace Export

/-- The first report entry with a name. -/
def entry? (entries : List CategoryExport) (name : Text) : Option CategoryExport :=
  entries.find? fun entry => entry.name = name

/-- The snapshot of an export made at a time. -/
def snapshot (e : Export) (locales : Locales) (time : Text) : Snapshot where
  categories := e.contents.mapValues Content.toJson
  provenance := some {
    generatedAt := some time
    primaryLocale := some locales.primary
    secondaryLocale := some locales.secondary
    locale := some e.locale
    occurrences := OrderedMap.mapValues Int.ofNat e.occurrences }

/-- Add an exported category. -/
def add (e : Export) (c : AnyCategory) (artifact : Option Text) (source : ExportSource)
    (content : Content) (counts : OrderedMap Nat) : Export :=
  { e with
    contents := e.contents.put c.name content
    occurrences := e.occurrences.putAll counts
    entries := e.entries ++ [{ name := c.name, kind := c.kindName, artifact, source
                               count := content.size }] }

end Export

end Bilingual
