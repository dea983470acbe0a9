import Bilingual.Export.Basic
import Bilingual.Patch.Report

set_option autoImplicit false

/-! # Summaries

What a command tells at its end: one line for each category or file of interest, and totals. -/

namespace Bilingual.Summary

/-- Lines with a line feed between them. -/
def lines (ls : List Text) : Text := Text.joinWith "\n" ls

/-- Texts with a comma between them; a word stands for none. -/
def listing (items : List Text) : Text :=
  if items.isEmpty then "none" else Text.joinWith ", " items

/-- Numbers by name, those that are not zero. -/
def tally (counts : List (Text × Nat)) : Text :=
  listing ((counts.filter (·.2 ≠ 0)).map fun (name, n) => name ++ "=" ++ Text.ofNat n)

/-! ## Exports -/

/-- The line of a category; the names of all categories are padded to one width. -/
def exportLine (width : Nat) (entry : CategoryExport) : Text :=
  let suffix : Text := if entry.source = .artifact then "" else " (" ++ entry.source.name ++ ")"
  "  " ++ entry.name.padRight width ++ "  " ++ Text.ofInt entry.count ++ suffix

/-- The summary of an export written to a target. -/
def ofExport (entries : List CategoryExport) (target : Text) : Text :=
  let width := (entries.map fun entry => entry.name.length).foldl max 0
  let fallbacks := ExportSource.fallbacks.map fun source =>
    (source.name, entries.countP fun entry => entry.source = source)
  lines (entries.map (exportLine width) ++ [
    "categories: " ++ Text.ofNat entries.length,
    "fallbacks: " ++ tally fallbacks,
    "wrote: " ++ target])

/-! ## Patched files -/

/-- The line of a file, if there is something to tell about it. -/
def artifactLine? (report : ArtifactReport) : Option Text :=
  if report.aborted then
    some ("aborted: " ++ report.path ++ " (" ++ report.error.getD "None" ++ ")")
  else if report.changed then some ("updated: " ++ report.path)
  else none

/-- Put a text in its place among sorted ones, unless it is there. -/
def insertSorted (t : Text) : List Text → List Text
  | [] => [t]
  | u :: rest =>
    if t = u then u :: rest
    else if t.le u then t :: u :: rest
    else u :: insertSorted t rest

/-- The categories that were refused because of their number of sites, in order of code points. -/
def refused (reports : List ArtifactReport) : List Text :=
  let entries := reports.flatMap ArtifactReport.entries
  ((entries.filter fun entry => entry.status = .shifted).map PatchEntry.category).foldr insertSorted []

/-- The summary of an applied snapshot. -/
def ofReports (reports : List ArtifactReport) : Text :=
  let idle := (ArtifactReport.updatedPaths reports).isEmpty && !ArtifactReport.anyAborted reports
  let entries := reports.flatMap ArtifactReport.entries
  let counts := PatchStatus.all.map fun status =>
    (status.name, entries.countP fun entry => entry.status = status)
  let refused := refused reports
  lines (reports.filterMap artifactLine? ++
    (if idle then [Text.ofString "no artifacts changed"] else []) ++
    [Text.ofString "entries: " ++ tally counts] ++
    (if refused.isEmpty then []
     else [Text.ofString "refused (occurrence count changed): " ++ Text.joinWith ", " refused]))

end Bilingual.Summary
