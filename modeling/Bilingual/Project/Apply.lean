import Bilingual.Patch.Artifact
import Bilingual.Patch.Report
import Bilingual.Project.Basic

set_option autoImplicit false

/-! # Applying a snapshot to a project

Every artifact is read once, patched as a whole and written at most once, when its text has changed. A
template that is not closed makes patching leave its artifact alone and go on with the next one; any other
failure ends the work. -/

namespace Bilingual

namespace Project

/-- Patch one artifact. -/
def applyArtifact (p : Project) (input : PatchInput) (write : Bool) (a : Artifact) :
    Action ArtifactReport := do
  let current ← Action.read (p.path a.path)
  match ← Action.attempt (input.patchText current a.categories) with
  | .error (.unterminated delimiter start) =>
    Action.tell ⟨.error, .patch, "artifact_aborted", [("artifact", .text a.path),
      ("delimiter", .text [delimiter]), ("offset", .integer start)]⟩
    return { path := a.path, aborted := true, error := some (Failure.unterminated delimiter start).message }
  | .error failure => Action.fail (.text failure)
  | .ok (patched, entries) =>
    let changed := patched ≠ current
    if changed && write then Action.write (p.path a.path) patched
    let report : ArtifactReport := { path := a.path, entries, changed, written := changed && write }
    Action.tell ⟨.info, .patch, "artifact_done", [("artifact", .text a.path), ("changed", .bool changed),
      ("updated", .integer (report.count .updated)), ("not_found", .integer (report.count .notFound))]⟩
    return report

/-- Apply a snapshot to all artifacts; without `write` only find out what it would do. -/
def apply (p : Project) (snapshot : Snapshot) (reference : Reference) (write : Bool) :
    Action (List ArtifactReport) := do
  let known := p.manifest.categories.map AnyCategory.name
  let unknown := (OrderedMap.keys snapshot.categories).filter fun name => !known.contains name
  let _ ← unknown.mapM fun name =>
    Action.tell ⟨.warning, .patch, "unknown_category", [("category", .text name)]⟩
  let input : PatchInput := { manifest := p.manifest, snapshot, reference }
  p.manifest.artifacts.mapM (p.applyArtifact input write)

end Project

end Bilingual
