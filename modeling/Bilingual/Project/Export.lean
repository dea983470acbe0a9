import Bilingual.Export.Collect
import Bilingual.Export.Pairing
import Bilingual.Project.Basic

set_option autoImplicit false

/-! # Exporting a project

An export reads every artifact of the manifest. It only reads, so when it fails no document has been
written yet. -/

namespace Bilingual

namespace Project

/-- Add the categories of an artifact to an export. -/
def exportArtifact (p : Project) (reference : Reference) (e : Export) (a : Artifact) : Action Export := do
  let text ← Action.read (p.path a.path)
  Action.ofStep (e.addArtifact p.manifest reference text a)

/-- Export a project in a locale, in the primary one when none is given. -/
def collect (p : Project) (locale : Option Text) (reference : Reference) : Action Export := do
  let target ← Action.ofExcept ((Export.target p.manifest.locales locale).mapError .text)
  let found ← p.manifest.artifacts.foldlM (p.exportArtifact reference) { locale := target }
  let e := found.addReferences p.manifest reference
  Action.tell e.doneEvent
  return e

/-- Write a snapshot. -/
def writeSnapshot (path : Path) (snapshot : Snapshot) : Action Unit := Action.write path snapshot.write

/-- The fields of the bilingual document of a project: both locales exported and paired. -/
def pairLocales (p : Project) (reference : Reference) (time : Text) : Action (OrderedMap Json) := do
  let primary ← p.collect (some p.manifest.primaryLocale) reference
  let secondary ← p.collect (some p.manifest.secondaryLocale) reference
  return Pairing.document p.manifest primary secondary time

end Project

end Bilingual
