import Bilingual.Data.Checked
import Bilingual.Patch.Entry

set_option autoImplicit false

/-! # Reports of patched files

What patching did to each file: its entries, whether its text changed and was written, or why the file was
left alone. -/

namespace Bilingual

/-- What became of a file. -/
structure ArtifactReport where
  path : Text
  entries : List PatchEntry := []
  changed : Bool := false
  written : Bool := false
  aborted : Bool := false
  error : Option Text := none
deriving DecidableEq, Repr

open Checked in
/-- Check a written entry. -/
def PatchEntry.check : Data → Checked PatchEntry :=
  model ["category", "status", "index", "key", "field", "detail"] fun fields =>
    PatchEntry.mk <$> required fields "category" text
      <*> required fields "status" (oneOf (PatchStatus.all.map fun s => (s.name, s)))
      <*> Checked.optional fields "index" integer <*> Checked.optional fields "key" text
      <*> Checked.optional fields "field" text <*> Checked.optional fields "detail" text

namespace ArtifactReport

/-- How many entries have a status. -/
def count (report : ArtifactReport) (status : PatchStatus) : Nat :=
  report.entries.countP fun entry => entry.status = status

/-- A report as it is written. -/
def toJson (report : ArtifactReport) : Json :=
  .object [("path", .text report.path), ("entries", .list (report.entries.map PatchEntry.toJson)),
    ("changed", .bool report.changed), ("written", .bool report.written),
    ("aborted", .bool report.aborted), ("error", Json.ofOption report.error)]

open Checked in
/-- Check a written report. -/
def check : Data → Checked ArtifactReport :=
  model ["path", "entries", "changed", "written", "aborted", "error"] fun fields =>
    ArtifactReport.mk <$> required fields "path" text
      <*> defaulted fields "entries" [] (list PatchEntry.check)
      <*> defaulted fields "changed" false truth <*> defaulted fields "written" false truth
      <*> defaulted fields "aborted" false truth <*> Checked.optional fields "error" text

/-- The paths of the files whose text changed. -/
def updatedPaths (reports : List ArtifactReport) : List Text :=
  (reports.filter ArtifactReport.changed).map ArtifactReport.path

/-- Whether a file was left alone because of an error. -/
def anyAborted (reports : List ArtifactReport) : Bool := reports.any ArtifactReport.aborted

end ArtifactReport

end Bilingual
