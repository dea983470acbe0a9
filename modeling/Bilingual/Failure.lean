import Bilingual.Text.Quoted

set_option autoImplicit false

/-! # What can go wrong in a text

The causes for which reading, searching or patching a text stops, with the wording of each. -/

namespace Bilingual

/-- Why an operation on a text stops. -/
inductive Failure where
  /-- A literal is asked for with something else than a single or a double quote around it. -/
  | unsupportedQuote (quote : Text)
  /-- A delimiter is not exactly one code point. -/
  | delimiterLength (delimiter : Text)
  /-- No closing delimiter follows a body that starts at the given offset. -/
  | unterminated (delimiter : CodePoint) (start : Nat)
  /-- An occurrence is asked for by a negative number. -/
  | negativeIndex (index : Int)
  /-- An edit reaches outside its text, ends before it starts, or overlaps the one before it. -/
  | editSpan (start stop : Int)
  /-- The scan for a closing bracket runs beyond the end of its text. -/
  | beyondText
  /-- The opener of a block does not end with an opening bracket. -/
  | blockOpener (opener : Text)
  /-- A block body is assembled from another number of items than the block has. -/
  | itemCount
  /-- An escape names a number above the last code point. -/
  | codePointRange
  /-- An escape names a number that no 32-bit signed integer holds. -/
  | codePointOverflow
  /-- The expression that has to follow an occurrence cannot be read. -/
  | lookahead (expression : Text)
  /-- The number of a repetition in that expression is too large. -/
  | repetitionRange
  /-- A group that is asked for took no part. -/
  | missingGroup
  /-- A group that is asked for took no code point. -/
  | emptyGroup
  /-- A locale is asked for that the manifest does not have. -/
  | unknownLocale (locale : Text)
deriving DecidableEq, Repr

/-- The wording of a failure. -/
def Failure.message : Failure → Text
  | .unsupportedQuote quote => "Unsupported quote character: " ++ quote.quoted
  | .delimiterLength delimiter => "Delimiter must be a single character: " ++ delimiter.quoted
  | .unterminated delimiter start =>
    "Unterminated " ++ [delimiter] ++ " block starting at offset " ++ Text.ofNat start
  | .negativeIndex index => "Occurrence index must be non-negative: " ++ Text.ofInt index
  | .editSpan start stop =>
    "Invalid or overlapping edit span: " ++ Text.ofInt start ++ ".." ++ Text.ofInt stop
  | .beyondText => "string index out of range"
  | .blockOpener opener => "Block opener must end with '\x7b' or '[': " ++ opener.quoted
  | .itemCount => "Every existing block item needs a regenerated text"
  | .codePointRange => "chr() arg not in range(0x110000)"
  | .codePointOverflow => "signed integer is greater than maximum"
  | .lookahead expression => "Not a lookahead expression: " ++ expression.quoted
  | .repetitionRange => "the repetition number is too large"
  | .missingGroup => "'NoneType' object is not subscriptable"
  | .emptyGroup => "string index out of range"
  | .unknownLocale locale => "Unknown locale for this manifest: " ++ locale

end Bilingual
