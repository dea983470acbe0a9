import Bilingual.Manifest.Default
import Bilingual.Project.Action
import Bilingual.Snapshot.Reference

set_option autoImplicit false

/-! # Projects and their documents

A project is a directory with a manifest. The manifest says where the artifacts and the documents are, as
seen from the directory. -/

namespace Bilingual

/-- A project. -/
structure Project where
  directory : Path
  manifest : Manifest

namespace Project

/-- A path as it is written in the manifest. -/
def path (p : Project) (written : Text) : Path := p.directory.join (Path.ofText written)

/-- Where exports are written. -/
def snapshotPath (p : Project) : Path := p.path p.manifest.paths.snapshot

/-- Where the translated snapshot is. -/
def translatedPath (p : Project) : Path := p.path p.manifest.paths.translated

/-- Where the bilingual reference is. -/
def referencePath (p : Project) : Path := p.path p.manifest.paths.reference

end Project

namespace Action

/-- The name of the manifest in a project directory. -/
def manifestName : Text := "bisync.yaml"

/-- The manifest in a file. -/
def readManifest (path : Path) : Action Manifest := fun files =>
  ofExcept (match files.read path with
    | .ok text => (Manifest.read text).mapError (.manifest path)
    | .error (.path .missing _) => .error (.manifest path .missing)
    | .error e => .error (.file e)) files

/-- The project in a directory; without a manifest of its own it has the default one. -/
def openProject (directory : Path) : Action Project := do
  let path := directory.join (Path.ofText manifestName)
  if ← isFile path then return { directory, manifest := ← readManifest path }
  else return { directory, manifest := Manifest.default }

/-- The snapshot in a file. -/
def readSnapshot (path : Path) : Action Snapshot := do
  ofExcept ((Snapshot.read (← read path)).mapError (.document path))

/-- The bilingual reference in a file, if there is the file. -/
def readReference (path : Path) : Action Reference := do
  if ← isFile path then
    return some (← ofExcept ((readObject (← read path)).mapError (.document path)))
  else return none

end Action

end Bilingual
