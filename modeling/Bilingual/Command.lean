import Bilingual.Project.Apply
import Bilingual.Project.Export
import Bilingual.Summary

set_option autoImplicit false

/-! # Commands

The three commands of the program, as functions of the files they see. A command prints a summary, or one
line that tells why it failed. A failure that is no fault of the project's files is not reported but ends
the program. -/

namespace Bilingual

/-- A command. -/
inductive Command where
  | exportTexts
  | applyTexts
  | pairTexts
deriving DecidableEq, Repr

namespace Command

/-- The commands by name. -/
def names : List (Text × Command) :=
  [("export", .exportTexts), ("apply", .applyTexts), ("sources", .pairTexts)]

/-- The arguments behind a mark that options end here. -/
def behindMark (arguments : List Text) : List Text :=
  match arguments with
  | mark :: rest => if mark = ("--" : Text) then rest else arguments
  | [] => []

/-- The command that arguments ask for: its name and nothing else. -/
def ofArguments? (arguments : List Text) : Option Command :=
  match behindMark arguments with
  | [] => none
  | name :: rest => if (behindMark rest).isEmpty then OrderedMap.lookup? names name else none

/-- The files that a command may look at in a directory, given the files known so far: the manifest, and
when that can be read what it names. -/
def reads (directory : Path) (known : Files) : List Path :=
  let manifest := directory.join (Path.ofText Action.manifestName)
  match (Action.openProject directory known).result with
  | .ok p => manifest :: p.snapshotPath :: p.translatedPath :: p.referencePath ::
      p.manifest.artifacts.map fun a => p.path a.path
  | .error _ => [manifest]

/-- What a command prints, and whether it was a success. -/
structure Report where
  lines : List Text
  success : Bool := true
deriving DecidableEq, Repr

/-- Export the primary texts. -/
def runExport (directory : Path) (time : Text) : Action Report := do
  let p ← Action.openProject directory
  let reference ← Action.readReference p.referencePath
  let e ← p.collect none reference
  Project.writeSnapshot p.snapshotPath (e.snapshot p.manifest.locales time)
  return { lines := [Summary.ofExport e.entries (p.snapshotPath.shownIn directory)] }

/-- Write the translated snapshot back into the artifacts. -/
def runApply (directory : Path) : Action Report := do
  let p ← Action.openProject directory
  let snapshot ← Action.readSnapshot p.translatedPath
  let reference ← Action.readReference p.referencePath
  let reports ← p.apply snapshot reference true
  let summary := Summary.ofReports reports
  if ArtifactReport.anyAborted reports then
    return {
      lines := [summary, "ERROR: some artifacts were left unmodified after a scan failure"]
      success := false }
  else return { lines := [summary] }

/-- Write the bilingual reference. -/
def runSources (directory : Path) (time : Text) : Action Report := do
  let p ← Action.openProject directory
  let reference ← Action.readReference p.referencePath
  let fields ← p.pairLocales reference time
  Action.write p.referencePath (writeObject fields)
  let categories := (OrderedMap.keys fields).countP fun name => name.head? ≠ some ('_' : CodePoint)
  return { lines := ["categories: " ++ Text.ofNat categories,
                     "wrote: " ++ p.referencePath.shownIn directory] }

/-- Run a command in a directory at a time. -/
def run (directory : Path) (time : Text) : Command → Action Report
  | .exportTexts => runExport directory time
  | .applyTexts => runApply directory
  | .pairTexts => runSources directory time

/-- How a command ends: its exit code, what it prints on both channels, and the failure that ended it when
that was not reported. -/
structure Ending where
  exitCode : Nat
  output : Text
  errors : Text
  raised : Option ProjectFailure := none

/-- The printed form of lines. -/
def printed (lines : List Text) : Text := lines.flatMap fun line => line ++ "\n"

/-- The line of an event. -/
def eventLine (event : LogEvent) : Text :=
  event.level.name ++ " " ++ event.source.name ++ " " ++ event.message

/-- How a command with a given outcome ends. -/
def ending (outcome : Outcome Report) : Ending :=
  let errors := printed (outcome.events.map eventLine)
  match outcome.result with
  | .ok report => { exitCode := if report.success then 0 else 1, output := printed report.lines, errors }
  | .error failure => match failure.report? with
    | some message => { exitCode := 1, output := printed ["ERROR: " ++ message], errors }
    | none => { exitCode := 1, output := [], errors, raised := some failure }

end Command

end Bilingual
