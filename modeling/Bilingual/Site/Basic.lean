import Bilingual.Manifest.Basic
import Bilingual.Pattern.Occurrence
import Bilingual.Block.Item

set_option autoImplicit false

/-! # Sites of a category

Where the texts of a category stand in its file. Export and patching find sites with these functions
alone, so what one of them sees is what the other one changes. -/

namespace Bilingual

/-- A template with every `{locale}` replaced by a locale. -/
def substituteLocale (template locale : Text) : Text :=
  Text.replace "\x7blocale\x7d" locale template

/-- The window a category is searched in; none when the texts around its region are gone. -/
def Category.window? (c : Category) (text : Text) : Option Window :=
  match c.region with
  | none => some (Window.whole text)
  | some region => region.window? text

/-- The pattern of a field of a pair category. -/
def PairField.pattern (field : PairField) (locales : Locales) : Pattern :=
  .pair field.artifactLabel locales.primary locales.secondary field.followedBy

/-- The pattern of a category whose texts are keyed at their sites. -/
def Placement.keyedPattern? (locales : Locales) : Placement → Option Pattern
  | .keyedPairs keyField label _ => some (.keyedPair keyField label locales.primary locales.secondary)
  | .choices condition _ => some (.choice (substituteLocale condition locales.secondary))
  | _ => none

/-- What a step makes of the occurrences of a pattern in the window of a category; nothing without a window. -/
def Category.mapOccurrences {α : Type} (c : Category) (text : Text) (pattern : Pattern)
    (step : Occurrence → Except Failure α) : Except Failure (List α) :=
  match c.window? text with
  | none => return []
  | some window => pattern.mapOccurrences text window.start window.stop step

/-- The occurrences of a pattern in the window of a category. -/
def Category.occurrences (c : Category) (text : Text) (pattern : Pattern) : Except Failure (List Occurrence) :=
  c.mapOccurrences text pattern pure

/-! ## Blocks -/

/-- The kind of the items of a block category. -/
def Placement.itemKind? : Placement → Option ItemKind
  | .dictBlock .. => some .entry
  | .recordBlock .. => some .record
  | .listBlock .. => some .literal
  | .keyedRecordBlock .. => some .keyedRecord
  | _ => none

/-- The block of a category in a locale. -/
def Category.block (c : Category) (text locale : Text) : Except Failure (Option BlockSpan) :=
  match c.placement.blockPlace?, c.window? text with
  | some place, some window =>
    BlockSpan.locate text (place.anchors.map (substituteLocale · locale))
      (substituteLocale (place.openerFor locale) locale) window.start window.stop
  | _, _ => return none

/-- The block of a category in a locale with its items. -/
def Category.parsedBlock (c : Category) (text locale : Text) : Except Failure (Option ParsedBlock) := do
  match c.placement.itemKind?, ← c.block text locale with
  | some kind, some block => ParsedBlock.parse text block kind
  | _, _ => return none

/-! ## Scalar fields -/

/-- The literals of scalar fields in a locale: each field's first labelled literal between the last
anchor and the closing bracket of the object that the anchor is in. None when an anchor is missing. -/
def scalarLiterals? (text : Text) (window : Window) (anchors : List Text) (fields : List ScalarField)
    (locale : Text) : Option (OrderedMap LiteralSpan) := do
  let start ← text.findAllEnd? window.start window.stop (anchors.map (substituteLocale · locale))
  let stop := (Bracket.closing? text start (some window.stop) false).getD window.stop
  return fields.foldl (fun found field =>
    match (Recogniser.labelledLiteral (field.labelFor locale)).find? text start stop with
    | some (_, literal, _) => found.put field.name literal
    | none => found) []

/-- The literals of a category of scalar fields in a locale. -/
def Category.scalarLiterals? (c : Category) (text locale : Text) : Option (OrderedMap LiteralSpan) :=
  match c.placement, c.window? text with
  | .scalarFields anchors fields _, some window =>
    Bilingual.scalarLiterals? text window anchors fields locale
  | _, _ => none

/-! ## Numbers of sites

An export records how many sites each ordinal category has: for pairs one number for each field, for
blocks of records and of literals the number of items in the primary locale. Patching refuses a category
whose numbers have changed, because its texts would go to the wrong sites. -/

/-- The name under which the number of sites of a field is recorded. -/
def Category.fieldKey (c : Category) (field : Text) : Text := c.name ++ "." ++ field

/-- The numbers of sites of a category, by the names under which they are recorded. -/
def Category.ordinalCounts (c : Category) (text : Text) (locales : Locales) :
    Except Failure (OrderedMap Nat) :=
  match c.placement with
  | .pairs fields _ => do
    let counts ← fields.mapM fun field => do
      return (c.fieldKey field.name, (← c.occurrences text (field.pattern locales)).length)
    return OrderedMap.ofPairs counts
  | .recordBlock .. | .listBlock .. => do
    match ← c.parsedBlock text locales.primary with
    | some parsed => return [(c.name, parsed.items.length)]
    | none => return [(c.name, 0)]
  | _ => return []

end Bilingual
