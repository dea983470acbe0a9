import Bilingual.Text.CodePoint

set_option autoImplicit false

/-! # Paths

A path is taken apart by its slashes alone, and no file is looked at. Empty parts and parts `.` are
dropped, while `..` stays where it is: where it leads is only known once the path is looked up. A path that begins
with exactly two slashes keeps both; any other number of leading slashes counts as one. -/

namespace Bilingual

/-- A path: its leading slashes and its parts. -/
structure Path where
  root : Text
  parts : List Text
deriving DecidableEq, Repr

namespace Path

/-- The pieces of a text between slashes. -/
def pieces : Text → List Text
  | [] => [[]]
  | c :: rest =>
    if c = '/' then [] :: pieces rest
    else match pieces rest with
      | [] => [[c]]
      | piece :: others => (c :: piece) :: others

/-- The leading slashes that count. -/
def rootOf (t : Text) : Text :=
  match (t.takeWhile (· = ('/' : CodePoint))).length with
  | 0 => ""
  | 2 => "//"
  | _ => "/"

/-- The path that a text writes. -/
def ofText (t : Text) : Path where
  root := rootOf t
  parts := (pieces t).filter fun piece => !(piece.isEmpty || piece == Text.ofString ".")

/-- The written form of a path; the path without parts is `.`. -/
def toText (p : Path) : Text :=
  if p.root.isEmpty && p.parts.isEmpty then "." else p.root ++ Text.joinWith "/" p.parts

/-- Whether a path does not depend on where it is looked up. -/
def isAbsolute (p : Path) : Bool := !p.root.isEmpty

/-- A path seen from a directory. -/
def join (directory p : Path) : Path :=
  if p.isAbsolute then p else { directory with parts := directory.parts ++ p.parts }

/-- The path as it is called in a directory that it goes through. -/
def relativeTo? (p directory : Path) : Option Path :=
  if p.root = directory.root ∧ directory.parts.isPrefixOf p.parts then
    some ⟨"", p.parts.drop directory.parts.length⟩
  else none

/-- How a path is shown to someone in a directory: from there on, if it goes through the directory. -/
def shownIn (p directory : Path) : Text := ((p.relativeTo? directory).getD p).toText

/-- The path without its last part. -/
def parent (p : Path) : Path := { p with parts := p.parts.dropLast }

/-- The path with one more part. -/
def inside (p : Path) (part : Text) : Path := { p with parts := p.parts ++ [part] }

end Path

end Bilingual
