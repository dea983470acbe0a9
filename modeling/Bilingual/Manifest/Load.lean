import Bilingual.Manifest.Check
import Bilingual.Yaml.Value

set_option autoImplicit false

/-! # Reading manifests

A manifest file is a YAML document that holds a map. Carriage returns, alone or in front of a line feed,
end lines in it. -/

namespace Bilingual

/-- Why a manifest cannot be read. -/
inductive ManifestError where
  | missing
  | notYaml
  | notMap
  | invalid (problems : List Problem)
  | escape (failure : Failure)
  | scalar (fault : Yaml.ScalarFault)
deriving DecidableEq, Repr

/-- The wording of an error in the manifest with the given path. -/
def ManifestError.message (path : Text) : ManifestError → Text
  | missing => "Manifest file not found: " ++ path
  | notYaml => "Invalid YAML in manifest file: " ++ path
  | notMap => "Manifest file must contain a mapping: " ++ path
  | invalid _ => "Invalid manifest schema: " ++ path
  | escape failure => failure.message
  | scalar fault => fault.message?.getD []

/-- A text with a line feed for every line break that has a carriage return. -/
def Text.unifyBreaks : Text → Text
  | [] => []
  | c :: rest =>
    if c = '\r' then
      match rest with
      | d :: behind => if d = '\n' then '\n' :: unifyBreaks behind else '\n' :: unifyBreaks (d :: behind)
      | [] => ['\n']
    else c :: unifyBreaks rest

/-- The manifest that data hold. -/
def Manifest.ofData (d : Data) : Except ManifestError Manifest :=
  match d with
  | .map fields => (Manifest.check (.map fields)).toExcept.mapError .invalid
  | _ => .error .notMap

/-- The manifest that the text of a file holds. -/
def Manifest.read (text : Text) : Except ManifestError Manifest :=
  match Yaml.read text.unifyBreaks with
  | .ok d => Manifest.ofData d
  | .error .malformed => .error .notYaml
  | .error (.escape failure) => .error (.escape failure)
  | .error (.scalar fault) => .error (.scalar fault)

end Bilingual
