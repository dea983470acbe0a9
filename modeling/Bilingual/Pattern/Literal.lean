import Bilingual.Pattern.Recogniser

set_option autoImplicit false

/-! # Literals and labels

The pieces that all localized shapes are made of: a quoted literal on one line, and the label of an
object field, written bare or quoted. -/

namespace Bilingual.Recogniser

/-- The body of a literal up to its closing quote, and the text behind that quote. A backslash takes the
next code point along, and no line break may stand in the body. -/
def literalBody? (quote : CodePoint) : Text → Option (Text × Text)
  | [] => none
  | [c] => if c = quote then some ([], []) else none
  | c :: d :: rest =>
    if c = quote then some ([], d :: rest)
    else if c = '\n' then none
    else if c = '\\' then
      if d = '\n' then none
      else (literalBody? quote rest).map fun (body, behind) => (c :: d :: body, behind)
    else (literalBody? quote (d :: rest)).map fun (body, behind) => (c :: body, behind)

/-- A quoted literal. -/
def literal : Recogniser LiteralSpan := ⟨fun cursor =>
  match cursor.rest with
  | [] => []
  | c :: rest => match Quote.ofPoint? c with
    | none => []
    | some quote => match literalBody? c rest with
      | none => []
      | some (raw, behind) =>
        let start := cursor.offset + 1
        let stop := start + raw.length
        [(⟨start, stop, quote, raw⟩, ⟨stop + 1, some c, behind⟩)]⟩

/-- The label of an object field, bare or in quotes, where no identifier ends. -/
def label (name : Text) : Recogniser Unit :=
  atWordStart (orElse (exactly name)
    (orElse (exactly ("'" ++ name ++ "'")) (exactly ("\"" ++ name ++ "\""))))

/-- A label and the colon behind it, with whitespace around the colon. -/
def fieldLabel (name : Text) : Recogniser Unit := do
  label name
  spaces
  point ':'
  spaces

/-- A labelled literal. -/
def labelledLiteral (name : Text) : Recogniser LiteralSpan := do
  fieldLabel name
  literal

end Bilingual.Recogniser
