import Bilingual.OrderedMap
import Bilingual.Project.Path
import Bilingual.Text.Quoted
import Bilingual.Text.Utf8

set_option autoImplicit false

/-! # Files of a project

The directories that a command sees, and the files in them with their bytes. There are no links among them. A path is
looked up from left to right: every part but the last one has to lead into a directory, and `..` leads back out of one,
into the directory that holds it. The place that a path leads to is a path without `..`.

A file is written as a whole or not at all: when its text cannot be encoded, no file changes. The
directories on the way to it are made first and stay. -/

namespace Bilingual

/-- What is wrong with a path. -/
inductive FileProblem where
  | missing
  | isDirectory
  | notDirectory
  | isFile
  | isParent
  | tooLong
deriving DecidableEq, Repr

namespace FileProblem

/-- The name of a problem in messages. -/
def name : FileProblem → Text
  | missing => "FileNotFoundError"
  | isDirectory => "IsADirectoryError"
  | notDirectory => "NotADirectoryError"
  | isFile => "FileExistsError"
  | isParent | tooLong => "OSError"

/-- The number and the wording of a problem. -/
def reason : FileProblem → Text
  | missing => "[Errno 2] No such file or directory"
  | isDirectory => "[Errno 21] Is a directory"
  | notDirectory => "[Errno 20] Not a directory"
  | isFile => "[Errno 17] File exists"
  | isParent => "[Errno 16] Device or resource busy"
  | tooLong => "[Errno 36] File name too long"

end FileProblem

/-- Why a file cannot be read or written. A path that no file system could have is told apart. -/
inductive FileError where
  | path (problem : FileProblem) (path : Path)
  | unencodablePath (path : Path)
  | pathWithNull (path : Path)
  | undecodable (path : Path)
  | unencodable (path : Path)
deriving DecidableEq, Repr

/-! ## Names -/

/-- How many bytes a code point takes in a name. The surrogates from U+DC80 on stand for single bytes. -/
def CodePoint.nameSize (c : CodePoint) : Nat :=
  if c.isSurrogate then 1 else ((Text.Utf8.encodePoint c).getD []).length

/-- How many bytes a name takes. -/
def Text.nameSize (t : Text) : Nat := t.foldl (fun n c => n + c.nameSize) 0

namespace Path

/-- The most bytes of one part of a path. -/
def longestName : Nat := 255

/-- The most bytes of a whole path. -/
def longestPath : Nat := 4095

/-- The fault of a path that no file system could have. -/
def fault? (p : Path) : Option FileError :=
  let t := p.toText
  if t.any fun c => c.isSurrogate && !(0xDC80 ≤ c.val && c.val ≤ 0xDCFF) then some (.unencodablePath p)
  else if t.any (·.val == 0) then some (.pathWithNull p)
  else if longestPath < t.nameSize then some (.path .tooLong p)
  else none

end Path

/-! ## Looking up -/

/-- The directories and files that a command sees, by their places. -/
structure Files where
  directories : List Path := []
  contents : OrderedMap (List UInt8) := []

namespace Files

/-- No files in a directory. -/
def empty (directory : Path) : Files where directories := [directory]

/-- The key of the file at a place. -/
def key (place : Path) : Text := place.toText

/-- Whether there is a directory at a place. Where paths begin there is one. -/
def hasDirectory (files : Files) (place : Path) : Bool :=
  place.parts.isEmpty || files.directories.contains place

/-- Whether there is a file at a place. -/
def hasFile (files : Files) (place : Path) : Bool := (files.contents.lookup? (key place)).isSome

/-- The place that parts of a path lead to from a directory. Without links the parent of a directory is the one in front
of it in its path. -/
def walk (files : Files) (place : Path) : List Text → Except FileProblem Path
  | [] => .ok place
  | part :: rest =>
    let next := if part = (".." : Text) then place.parent else place.inside part
    if Path.longestName < part.nameSize then .error .tooLong
    else if rest.isEmpty then .ok next
    else if files.hasDirectory next then walk files next rest
    else .error (if files.hasFile next then .notDirectory else .missing)

/-- The place that a path leads to, where something may be or not. -/
def place (files : Files) (p : Path) : Except FileError Path :=
  match p.fault? with
  | some fault => .error fault
  | none => (files.walk ⟨p.root, []⟩ p.parts).mapError (.path · p)

/-- Whether there is a file at a path. A path that cannot be looked up leads to no file, unless it is too
long. -/
def isFile (files : Files) (p : Path) : Except FileError Bool :=
  match files.place p with
  | .ok place => .ok (files.hasFile place)
  | .error (.path .tooLong p) => .error (.path .tooLong p)
  | .error _ => .ok false

/-- The bytes of a file. -/
def bytes (files : Files) (p : Path) : Except FileError (List UInt8) := do
  let place ← files.place p
  match files.contents.lookup? (key place) with
  | some bytes => return bytes
  | none => throw (.path (if files.hasDirectory place then .isDirectory else .missing) p)

/-- The text of a file. -/
def read (files : Files) (p : Path) : Except FileError Text := do
  match Text.Utf8.decode? (← files.bytes p) with
  | some text => return text
  | none => throw (.undecodable p)

/-! ## Changing -/

/-- Make a directory where there is none. -/
def makeDirectory (files : Files) (p : Path) : Except FileError Files := do
  let place ← files.place p
  if files.hasDirectory place then return files
  else if files.hasFile place then throw (.path .isFile p)
  else return { files with directories := files.directories ++ [place] }

/-- Make a directory and those on the way to it. The parts of its path come last part first. What has been
made stays when the rest fails. -/
def makeDirectories (files : Files) (root : Text) : List Text → Files × Except FileError Unit
  | [] => (files, .ok ())
  | part :: before =>
    let p : Path := ⟨root, (part :: before).reverse⟩
    match files.makeDirectory p with
    | .ok files => (files, .ok ())
    | .error (.path .missing _) =>
      match files.makeDirectories root before with
      | (files, .error e) => (files, .error e)
      | (files, .ok ()) => match files.makeDirectory p with
        | .ok files => (files, .ok ())
        | .error e => (files, .error e)
    | .error e => (files, .error e)

/-- Put bytes at the place that a path leads to. -/
def put (files : Files) (p : Path) (bytes : List UInt8) : Except FileError Files := do
  let place ← files.place p
  if files.hasDirectory place then throw (.path .isDirectory p)
  return { files with contents := files.contents.put (key place) bytes }

/-- Put bytes at the place that a path leads to, in directories that are made. -/
def store (files : Files) (p : Path) (bytes : List UInt8) : Files × Except FileError Unit :=
  match files.makeDirectories p.root p.parts.reverse.tail with
  | (files, .error e) => (files, .error e)
  | (files, .ok ()) => match files.put p bytes with
    | .ok files => (files, .ok ())
    | .error e => (files, .error e)

/-- The same files, but for the bytes at one place. -/
def withFile (files : Files) (place : Path) (bytes : List UInt8) : Files :=
  { files with contents := files.contents.put (key place) bytes }

/-- The same files without the one at a place. -/
def withoutFile (files : Files) (place : Path) : Files :=
  { files with contents := files.contents.filter fun file => file.1 ≠ key place }

/-- Take a file away. -/
def remove (files : Files) (p : Path) : Except FileError Files := do
  let place ← files.place p
  let _ ← files.bytes p
  return files.withoutFile place

/-! ## Writing whole files

A text is written beside the file first, into a part of its own name, and then the part takes the place of the file.
When something fails on the way, the part is taken away again. -/

/-- How many bytes the name of a part has more than that of its file. -/
def partSuffixSize : Nat := 13

/-- The name of a part of the file with a name; eight digits tell the parts apart. -/
def partName (name : Text) (number : Nat) : Text := name ++ "." ++ Text.ofNat (10000000 + number) ++ ".tmp"

/-- Whether there is nothing at a place. -/
def isFree (files : Files) (place : Path) : Bool := !files.hasFile place && !files.hasDirectory place

/-- The first free place in a directory for a part of the file with a name. There is one among more places than there
are files and directories. -/
def freePart (files : Files) (directory : Path) (name : Text) : Path :=
  let numbers := List.range (files.contents.length + files.directories.length + 1)
  let places := numbers.map fun number => directory.inside (partName name number)
  (places.find? files.isFree).getD directory

/-- The place for a part of the file at a path, beside the file. -/
def partPlace (files : Files) (p : Path) : Except FileError Path :=
  match p.fault? with
  | some fault => .error fault
  | none => do
    let name := p.parts.getLastD []
    if Path.longestName < name.nameSize + partSuffixSize then throw (.path .tooLong p)
    return files.freePart (← files.place p.parent) name

/-- Put the file at a place into the place that a path leads to. -/
def replace (files : Files) (part p : Path) : Except FileError Files := do
  if p.parts.getLastD [] = (".." : Text) then throw (.path .isParent p)
  let place ← files.place p
  if files.hasDirectory place then throw (.path .isDirectory p)
  let bytes := (files.contents.lookup? (key part)).getD []
  return (files.withoutFile part).withFile place bytes

/-- Put a text into a part that is there, and the part into the place of the file at a path. -/
def fillPart (files : Files) (part p : Path) (text : Text) : Files × Except FileError Unit :=
  match Text.Utf8.encode? text with
  | none => (files, .error (.unencodable p))
  | some bytes =>
    let files := files.withFile part bytes
    match files.replace part p with
    | .ok files => (files, .ok ())
    | .error e => (files, .error e)

/-- Write the text of a file by way of a part that is made for it. -/
def writeThrough (files : Files) (part p : Path) (text : Text) : Files × Except FileError Unit :=
  match (files.withFile part []).fillPart part p text with
  | (files, .ok ()) => (files, .ok ())
  | (files, .error e) => (files.withoutFile part, .error e)

/-- Write the text of a file, and make the directories it is in. -/
def write (files : Files) (p : Path) (text : Text) : Files × Except FileError Unit :=
  match files.makeDirectories p.root p.parts.reverse.tail with
  | (files, .error e) => (files, .error e)
  | (files, .ok ()) => match files.partPlace p with
    | .error e => (files, .error e)
    | .ok part => files.writeThrough part p text

end Files

end Bilingual
