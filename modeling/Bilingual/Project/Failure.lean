import Bilingual.Failure
import Bilingual.Manifest.Load
import Bilingual.Project.Files
import Bilingual.Snapshot.Basic

set_option autoImplicit false

/-! # What can go wrong in a project

Work on a project stops at a file that cannot be read or written, at a manifest or document that is not
what it should be, or at a text that cannot be read or patched. -/

namespace Bilingual

/-- Why work on a project stops. -/
inductive ProjectFailure where
  | text (failure : Failure)
  | file (error : FileError)
  | manifest (path : Path) (error : ManifestError)
  | document (path : Path) (error : DocumentError)
deriving DecidableEq, Repr

/-- The wording of a failure that is reported to the user; any other one is a fault that ends the
program. -/
def ProjectFailure.report? : ProjectFailure → Option Text
  | .file (.path problem path) =>
    some (problem.name ++ ": " ++ problem.reason ++ ": " ++ path.toText.quoted)
  | .manifest _ (.escape _) | .manifest _ (.scalar _) => none
  | .manifest path error => some (error.message path.toText)
  | .document path error => some (error.message path.toText)
  | .file _ => none
  | .text _ => none

end Bilingual
