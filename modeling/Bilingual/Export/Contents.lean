import Bilingual.Site.Document

set_option autoImplicit false

/-! # Contents found in a file

What a file holds for a category in one locale, read at the same sites that patching writes to. Records
of a category of pairs are the rows of the columns of its fields: record `i` holds occurrence `i` of each
field. Where a key comes twice its first site counts. -/

namespace Bilingual

/-- The text of an occurrence in a locale. -/
def Occurrence.textIn (o : Occurrence) (locales : Locales) (locale : Text) : Except Failure Text :=
  if locale = locales.primary then o.primary.value else o.secondary.value

/-- The rows of named columns; a column that is too short lacks a text. -/
def rowsOf (columns : OrderedMap (List Text)) : List (Option FlatMap) :=
  let height := (columns.map fun (_, texts) => texts.length).foldl max 0
  (List.range height).map fun i => some (columns.mapValues fun texts => texts[i]?)

/-- The texts of literals by field name; of repeated fields the last literal counts. -/
def BlockItem.fieldTexts (item : BlockItem) : Except Failure (OrderedMap Text) := do
  let found := item.fields.filterMap fun field => field.literal.map (field.name, ·)
  return OrderedMap.ofPairs (← found.mapM fun (name, literal) => return (name, ← literal.value))

/-- The record of an item with the fields of its category. -/
def BlockItem.recordOf (item : BlockItem) (names : List Text) : Except Failure FlatMap := do
  let texts ← item.fieldTexts
  return OrderedMap.ofPairs (names.map fun name => (name, texts.lookup? name))

namespace Category

/-- The columns of a category of pairs: the texts of each field in order. -/
def columns (c : Category) (text : Text) (locales : Locales) (locale : Text) (fields : List PairField) :
    Except Failure (OrderedMap (List Text)) := do
  let columns ← fields.mapM fun field => do
    return (field.name, ← c.mapOccurrences text (field.pattern locales) fun o => o.textIn locales locale)
  return OrderedMap.ofPairs columns

/-- The texts of a category that is keyed at its sites. -/
def keyedTexts (c : Category) (text : Text) (locales : Locales) (locale : Text) (pattern : Pattern) :
    Except Failure (OrderedMap Text) := do
  let pairs ← c.mapOccurrences text pattern fun o =>
    return (← o.keyLiteral.value, ← o.textIn locales locale)
  return pairs.foldl (fun texts (key, value) => texts.putNew key value) []

/-- The texts of the entries of a block. -/
def entryTexts (items : List BlockItem) : Except Failure (OrderedMap Text) := do
  let found := items.filterMap fun item => do return ((← item.key?).value, ← item.literal?)
  let pairs ← found.mapM fun (key, literal) => return (key, ← literal.value)
  return pairs.foldl (fun texts (key, value) => texts.putNew key value) []

/-- The records of the keyed records of a block. -/
def keyedRecords (items : List BlockItem) (names : List Text) :
    Except Failure (OrderedMap (Option FlatMap)) := do
  let found := items.filterMap fun item => item.key?.map (·.value, item)
  let pairs ← found.mapM fun (key, item) => return (key, ← item.recordOf names)
  return pairs.foldl (fun records (key, record) => records.putNew key (some record)) []

/-- The contents of a category in a locale; none when its place is not in the text. -/
def contents? (c : Category) (text : Text) (locales : Locales) (locale : Text) :
    Except Failure (Option Content) :=
  let block : (List BlockItem → Except Failure Content) → Except Failure (Option Content) :=
    fun read => do
      match ← c.parsedBlock text locale with
      | some parsed => return some (← read parsed.items)
      | none => return none
  let complete : OrderedMap Text → Content := fun texts => .map (Placement.completeRecord texts)
  match c.placement with
  | .pairs fields _ => do
    if (c.window? text).isNone then return none
    return some (.records (rowsOf (← c.columns text locales locale fields)))
  | .documents .. => do
    match ← c.documentBodies text locale with
    | none => return none
    | some bodies =>
      let texts ← bodies.mapM fun (key, start, stop) =>
        return (key, ← Literal.decode (text.slice start stop))
      return some (complete texts)
  | .scalarFields .. =>
    match c.scalarLiterals? text locale with
    | none => return none
    | some literals => do
      return some (complete (← literals.mapM fun (name, literal) => return (name, ← literal.value)))
  | .dictBlock .. => block fun items => return complete (← entryTexts items)
  | .recordBlock _ names _ => block fun items =>
    return .records (← items.mapM fun item => return some (← item.recordOf names))
  | .listBlock _ name _ => block fun items =>
    return .records (← items.mapM fun item => do
      return some [(name, ← item.literal?.mapM LiteralSpan.value)])
  | .keyedRecordBlock _ names _ => block fun items => return .keyedRecords (← keyedRecords items names)
  | placement => do
    if (c.window? text).isNone then return none
    match placement.keyedPattern? locales with
    | some pattern => return some (complete (← c.keyedTexts text locales locale pattern))
    | none => return none

end Category

end Bilingual
