import Std.Time.DateTime.Timestamp
import Bilingual.Command
import Bilingual.Calendar

set_option autoImplicit false

/-! # The command line

The outer layer: it reads the files that a command may look at, runs the command on them, writes the files
that have changed, and prints what the command prints. -/

namespace Bilingual

/-- The name of a path for the operating system. -/
def Path.fileName (p : Path) : String := p.toText.toString

/-- Add the directories on the way to a path, as far as they are there. -/
def Files.loadDirectories (files : Files) (p : Path) : IO Files :=
  (List.range (p.parts.length + 1)).foldlM (fun files n => do
    let directory : Path := { p with parts := p.parts.take n }
    if ← ((← IO.currentDir) / directory.fileName).isDir then
      return (files.makeDirectory directory).toOption.getD files
    else return files) files

/-- Add the file at a path, if there is one. -/
def Files.load (files : Files) (p : Path) : IO Files := do
  let files ← files.loadDirectories p
  let path := (← IO.currentDir) / p.fileName
  if (← path.pathExists) && !(← path.isDir) then
    return (files.put p (← IO.FS.readBinFile path).toList).toOption.getD files
  else return files

/-- Write a file beside its place and then put it there, so that no reader sees a part of it. -/
def Path.store (path : Path) (bytes : List UInt8) : IO Unit := do
  let part := path.fileName ++ "." ++ toString (← IO.monoNanosNow) ++ ".tmp"
  IO.FS.writeBinFile part ⟨bytes.toArray⟩
  IO.FS.rename part path.fileName

end Bilingual

open Bilingual

/-- Run a command in the current directory. -/
def main (arguments : List String) : IO UInt32 := do
  match Command.ofArguments? (arguments.map Text.ofString) with
  | none =>
    IO.eprintln "Usage: bisync (export | apply | sources)"
    return 2
  | some command =>
    let directory := Path.ofText (Text.ofString (← IO.currentDir).toString)
    let seconds := (← Std.Time.Timestamp.now).toSecondsSinceUnixEpoch.val.toNat
    let known ← (Command.reads directory {}).foldlM Files.load {}
    let files ← (Command.reads directory known).foldlM Files.load known
    let outcome := command.run directory (Text.ofTime seconds) files
    for place in outcome.files.directories do
      if !files.hasDirectory place then IO.FS.createDirAll place.fileName
    for (name, bytes) in outcome.files.contents do
      if files.contents.lookup? name ≠ some bytes then (Path.ofText name).store bytes
    let ending := Command.ending outcome
    IO.print ending.output.toString
    IO.eprint ending.errors.toString
    if let some failure := ending.raised then
      IO.eprintln s!"failed: {repr failure}"
    return UInt32.ofNat ending.exitCode
