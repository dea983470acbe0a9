import Bilingual.Patch.Entry
import Bilingual.Site.Document

set_option autoImplicit false

/-! # Planning single sites

Pairs, keyed pairs, choices, scalar fields and template documents are patched site by site: the body of
the secondary literal or template is replaced where it does not already stand for the wanted text. -/

namespace Bilingual

/-- The edit that makes a literal stand for `value`, unless it does already. -/
def LiteralSpan.editTo? (literal : LiteralSpan) (value : Text) : Except Failure (Option Edit) := do
  if (← literal.value) = value then return none
  else return some ⟨literal.start, literal.stop, literal.quote.escape value⟩

namespace Plan

/-- Entries for some edits that may turn out to be unnecessary. -/
def ofEdits (entry : PatchEntry) (edits : List Edit) : Plan where
  edits := edits
  entries := [{ entry with status := if edits.isEmpty then .unchanged else .updated }]

/-- Plan one wanted text for one literal; a missing text is skipped, a missing literal is reported. -/
def literal (entry : PatchEntry) (site : Option LiteralSpan) (value : Option Text) :
    Logged Failure Plan := do
  match value, site with
  | none, _ => return report { entry with status := .skipped }
  | some _, none => notFound entry
  | some value, some literal => return ofEdits entry (← literal.editTo? value).toList

/-- Plan the records of one field of a pair category: record `i` goes to occurrence `i`. -/
def pairField (c : Category) (field : PairField) (occurrences : List Occurrence)
    (records : List (Option FlatMap)) : Logged Failure Plan :=
  forEach records.zipIdx fun (record, index) =>
    literal { category := c.name, status := .skipped, index := some index, field := some field.name }
      (occurrences[index]?.map fun o => o.secondary)
      (record.bind fun texts => (texts.lookup? field.name).join)

/-- Plan the records of a pair category, one field after the other. -/
def pairs (c : Category) (text : Text) (locales : Locales) (fields : List PairField)
    (records : List (Option FlatMap)) : Logged Failure Plan :=
  forEach fields fun field => do
    pairField c field (← c.occurrences text (field.pattern locales)) records

/-- The occurrences that go by a key. -/
def occurrencesOf (key : Text) (occurrences : List Occurrence) : Except Failure (List Occurrence) :=
  occurrences.filterM fun o => do return (← o.keyLiteral.value) = key

/-- Plan the texts of a category that is keyed at its sites; a text goes to every site of its key. -/
def keyed (c : Category) (text : Text) (pattern : Pattern) (texts : FlatMap) :
    Logged Failure Plan := do
  let occurrences ← c.occurrences text pattern
  forEach texts fun (key, value) => do
    let entry : PatchEntry := { category := c.name, status := .skipped, key := some key }
    match value with
    | none => return report entry
    | some value =>
      match ← occurrencesOf key occurrences with
      | [] => notFound entry
      | matching => do
        let edits ← matching.mapM fun o => o.secondary.editTo? value
        return ofEdits entry (edits.filterMap id)

/-- Plan the texts of template documents. -/
def documents (c : Category) (text locale : Text) (texts : FlatMap) : Logged Failure Plan := do
  let bodies := (← c.documentBodies text locale).getD []
  forEach texts fun (key, value) => do
    let entry : PatchEntry := { category := c.name, status := .skipped, key := some key }
    match value, bodies.lookup? key with
    | none, _ => return report entry
    | some _, none => notFound entry
    | some value, some (start, stop) =>
      if (← Literal.decode (text.slice start stop)) = value then return ofEdits entry []
      else return ofEdits entry [⟨start, stop, escapeTemplate value⟩]

/-- Plan the texts of scalar fields; without its anchors the whole category is missing. -/
def scalarFields (c : Category) (text locale : Text) (texts : FlatMap) : Logged Failure Plan :=
  match c.scalarLiterals? text locale with
  | none => notFound { category := c.name, status := .notFound }
  | some literals => forEach texts fun (key, value) =>
    literal { category := c.name, status := .skipped, key := some key } (literals.lookup? key) value

end Plan

end Bilingual
