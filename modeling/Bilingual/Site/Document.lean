import Bilingual.Site.Basic
import Bilingual.Literal.Closing

set_option autoImplicit false

/-! # Template documents

A document is a literal key field and, before the next one, a body field that holds a template literal
for each locale. The search for the body of a locale reads over the templates of other locales, so that
text inside them is not taken for a label. -/

namespace Bilingual

namespace Recogniser

/-- The label of a locale in front of a template, up to its opening backtick. -/
def templateOpening : Recogniser Text := atWordStart do
  let c ← satisfying fun c => c.isAsciiLetter || c == '_'
  let rest ← longest fun c => c.isWord || c == '-'
  spaces
  point ':'
  spaces
  point '\x60'
  return c :: rest

/-- The body field of a document, up to its opening brace. -/
def bodyOpening (bodyField : Text) : Recogniser Unit := do
  fieldLabel bodyField
  point '{'

end Recogniser

namespace Document

/-- The span of the first template from `cursor` on that is labelled `locale`. Each step reads over one
template, so `fuel`, the length of the text, does not run out. -/
def templateFrom (text locale : Text) (stop : Nat) : Nat → Nat → Except Failure (Option (Nat × Nat))
  | 0, _ => return none
  | fuel + 1, cursor =>
    match Recogniser.templateOpening.find? text cursor stop with
    | none => return none
    | some (_, label, behind) => do
      let span ← Literal.bodySpan text '\x60' behind
      if label = locale then return some span else templateFrom text locale stop fuel (span.2 + 1)

/-- The span of the template of a locale in the body field of a document, which reaches from `start` up
to `stop`. -/
def body (text bodyField locale : Text) (start stop : Nat) : Except Failure (Option (Nat × Nat)) :=
  match (Recogniser.bodyOpening bodyField).find? text start stop with
  | none => return none
  | some (_, _, behind) => templateFrom text locale stop (text.length + 1) behind

/-- Where a document ends: at the key field of the next one, or at the end of the window. -/
def segmentEnd (stop : Nat) : List (Nat × LiteralSpan × Nat) → Nat
  | [] => stop
  | (next, _, _) :: _ => next

/-- Add the bodies of the documents with the given key fields; the first body of a key counts. -/
def bodiesFrom (text bodyField locale : Text) (stop : Nat) (found : OrderedMap (Nat × Nat)) :
    List (Nat × LiteralSpan × Nat) → Except Failure (OrderedMap (Nat × Nat))
  | [] => return found
  | (_, literal, behind) :: rest => do
    let key ← literal.value
    match ← body text bodyField locale behind (segmentEnd stop rest) with
    | some span => bodiesFrom text bodyField locale stop (found.putNew key span) rest
    | none => bodiesFrom text bodyField locale stop found rest

/-- The spans of the templates of a locale by key; none when there is no key field at all. -/
def bodies (text : Text) (window : Window) (keyField bodyField locale : Text) :
    Except Failure (Option (OrderedMap (Nat × Nat))) :=
  match (Recogniser.labelledLiteral keyField).all text window.start window.stop with
  | [] => return none
  | keys => do return some (← bodiesFrom text bodyField locale window.stop [] keys)

end Document

/-- The spans of the documents of a category in a locale. -/
def Category.documentBodies (c : Category) (text locale : Text) :
    Except Failure (Option (OrderedMap (Nat × Nat))) :=
  match c.placement, c.window? text with
  | .documents keyField bodyField _, some window => Document.bodies text window keyField bodyField locale
  | _, _ => return none

end Bilingual
