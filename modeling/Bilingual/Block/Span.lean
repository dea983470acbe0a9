import Bilingual.Block.Bracket
import Bilingual.Pattern.Recogniser

set_option autoImplicit false

/-! # Locating a block

A block is found by its anchors, texts that occur one behind the other, and an opener behind them such
as `ar: {` or `features: [`, whose blanks stand for any whitespace. A block that is closed on the line
of its opener ends at the matching bracket. Otherwise it ends at the first later line that begins with
the indentation of the opener's line and the closing bracket. -/

namespace Bilingual

/-- A located block: where its opener and its body start, where the body ends, the indentation of the
opener's line, and the closing bracket. -/
structure BlockSpan where
  openerStart : Nat
  bodyStart : Nat
  bodyEnd : Nat
  indent : Text
  closer : CodePoint
deriving DecidableEq, Repr

namespace BlockSpan

/-- Words in a row with any whitespace between them. -/
def wordsInRow : List Text → Recogniser Unit
  | [] => pure ()
  | [word] => Recogniser.exactly word
  | word :: rest => do
    Recogniser.exactly word
    Recogniser.spaces
    wordsInRow rest

/-- The words of an opener and its closing bracket; an opener ends with an opening bracket. -/
def opener (written : Text) : Except Failure (Recogniser Unit × CodePoint) :=
  match written.trim.getLast?.bind Bracket.closerOf? with
  | some closer => .ok (Recogniser.atWordStart (wordsInRow written.words), closer)
  | none => .error (.blockOpener written)

/-- Where the body of a block ends that starts at `bodyStart`. -/
def bodyEnd? (text : Text) (bodyStart stop : Nat) (indent : Text) (closer : CodePoint) : Option Nat :=
  match Bracket.closing? text bodyStart (some stop) true with
  | some found => if text[found]? = some closer then some found else none
  | none => (text.find? ("\n" ++ indent ++ [closer]) bodyStart stop).map (· + indent.length + 1)

/-- Locate the block behind the given anchors and opener in a window. The window must not reach beyond the
text where the search for the closing bracket would. -/
def locate (text : Text) (anchors : List Text) (written : Text) (start stop : Nat) :
    Except Failure (Option BlockSpan) :=
  match text.findAllEnd? start stop anchors with
  | none => return none
  | some behind => do
    let (opener, closer) ← opener written
    match opener.find? text behind stop with
    | none => return none
    | some (openerStart, _, bodyStart) =>
      if Bracket.leavesText text bodyStart stop true then throw .beyondText
      let indent := text.indentAt openerStart
      return (bodyEnd? text bodyStart stop indent closer).map fun bodyEnd =>
        { openerStart, bodyStart, bodyEnd, indent, closer }

/-- The body of a block. -/
def body (block : BlockSpan) (text : Text) : Text := text.slice block.bodyStart block.bodyEnd

end BlockSpan

end Bilingual
