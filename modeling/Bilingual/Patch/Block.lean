import Bilingual.Patch.Entry
import Bilingual.Block.Render
import Bilingual.Site.Basic

set_option autoImplicit false

/-! # Planning blocks

A block is patched as a whole: existing items get new literal bodies, texts without an item become new
items, and one edit replaces the body of the block. Nothing is replaced when nothing changes. -/

namespace Bilingual

/-- What a text or record does to a block. -/
inductive ItemChange where
  | keep
  | replace (index : Nat) (source : Text)
  | append (source : Text)
deriving DecidableEq, Repr

namespace ItemChange

/-- The new source of an item, if it gets one. -/
def replaced? (index : Nat) : ItemChange → Option Text
  | replace i source => if i = index then some source else none
  | _ => none

/-- The source of a new item. -/
def appended? : ItemChange → Option Text
  | append source => some source
  | _ => none

end ItemChange

namespace Plan

/-- The plan that carries out the changes of a block. -/
def ofChanges (parsed : ParsedBlock) (text : Text) (changes : List ItemChange)
    (entries : List PatchEntry) : Except Failure Plan := do
  if changes.all (· = .keep) then return { entries }
  let sources := parsed.items.zipIdx.map fun (item, index) =>
    (changes.findSome? (ItemChange.replaced? index)).getD (item.source text)
  let body ← parsed.renderBody sources (changes.filterMap ItemChange.appended?)
  return { edits := [⟨parsed.block.bodyStart, parsed.block.bodyEnd, body⟩], entries }

/-! ## Entries -/

/-- The texts for a block: those of the snapshot, overlaid by the texts of the merged categories, the
last one that is not missing. -/
def overlay (texts : FlatMap) (merged : List FlatMap) : FlatMap :=
  merged.foldl (fun all source =>
    source.foldl (fun all (key, value) => if value.isSome then all.put key value else all) all) texts

/-- The new source of an entry whose key has another text than it stands for. -/
def replaceEntry? (text : Text) (item : BlockItem) (texts : FlatMap) : Except Failure (Option Text) := do
  match item.key?, item.literal? with
  | some key, some literal =>
    match (texts.lookup? key.value).join with
    | none => return none
    | some value =>
      if (← literal.value) = value then return none
      else return some (← item.withLiterals text [(literal, value)])
  | _, _ => return none

/-- Plan the texts of a block of entries. -/
def dictBlock (c : Category) (text locale : Text) (given : FlatMap) (merged : List FlatMap) :
    Logged Failure Plan := do
  match ← c.parsedBlock text locale with
  | none => notFound { category := c.name, status := .notFound }
  | some parsed =>
    let texts := overlay given merged
    let replaced ← parsed.items.mapM fun item => replaceEntry? text item texts
    let replacements := replaced.zipIdx.filterMap fun (source, index) =>
      source.map (ItemChange.replace index)
    let keyOf : BlockItem → Option Text := fun item => item.key?.map ItemKey.value
    let existing := parsed.items.filterMap keyOf
    let updated := (parsed.items.zip replaced).filterMap fun (item, source) =>
      if source.isSome then keyOf item else none
    let appends := texts.filterMap fun (key, value) =>
      if existing.contains key then none
      else value.map fun value => ItemChange.append (parsed.renderEntry key value)
    let entries := texts.map fun (key, value) =>
      let isNew := value.isSome && !existing.contains key
      { category := c.name
        status :=
          if value.isNone then .skipped
          else if updated.contains key || isNew then .updated else .unchanged
        key := some key
        detail := if isNew then some "appended" else none : PatchEntry }
    ofChanges parsed text (replacements ++ appends) entries

/-! ## Records -/

/-- The literal of a field in an item; of repeated fields the last one counts. -/
def fieldLiteral? (item : BlockItem) (name : Text) : Option LiteralSpan :=
  match item.fields.reverse.find? fun field => field.name = name with
  | some field => field.literal
  | none => none

/-- The literal that a field of a record goes to: the item itself in a block of literals. -/
def siteIn? (c : Category) (item : BlockItem) (name : Text) : Option LiteralSpan :=
  match c.placement with
  | .listBlock .. => item.literal?
  | _ => fieldLiteral? item name

/-- Plan one field of a record for an existing item: the replacement, if one is needed, and the entry. -/
def recordField (entry : PatchEntry) (site : Option LiteralSpan) (value : Option Text) :
    Logged Failure (Option (LiteralSpan × Text) × List PatchEntry) := do
  match value, site with
  | none, _ => return (none, [{ entry with status := .skipped }])
  | some _, none => return (none, (← notFound entry).entries)
  | some value, some literal =>
    if (← literal.value) = value then return (none, [{ entry with status := .unchanged }])
    else return (some (literal, value), [{ entry with status := .updated }])

/-- Keep the first replacement of each literal. A field named twice would bring the same one again. -/
def distinctLiterals : List (LiteralSpan × Text) → List (LiteralSpan × Text)
  | [] => []
  | (literal, value) :: rest =>
    (literal, value) :: (distinctLiterals rest).filter fun (other, _) => other ≠ literal

/-- Plan a record for an existing item. -/
def existingRecord (c : Category) (text : Text) (entry : PatchEntry) (names : List Text)
    (record : FlatMap) (index : Nat) (item : BlockItem) :
    Logged Failure (ItemChange × List PatchEntry) := do
  let planned ← names.mapM fun name =>
    recordField { entry with field := some name } (siteIn? c item name) (record.lookup? name).join
  let entries := planned.flatMap Prod.snd
  match distinctLiterals (planned.filterMap Prod.fst) with
  | [] => return (.keep, entries)
  | replacements => return (.replace index (← item.withLiterals text replacements), entries)

/-- The named texts of a record that has them all. -/
def completeTexts? (record : FlatMap) (names : List Text) : Option (List (Text × Text)) :=
  names.mapM fun name => (record.lookup? name).join.map (name, ·)

/-- Plan a record without an item: a complete one is appended, any other is skipped. -/
def newRecord (entry : PatchEntry) (names : List Text) (record : FlatMap)
    (render : List (Text × Text) → Text) : ItemChange × List PatchEntry :=
  match completeTexts? record names with
  | none => (.keep, [{ entry with status := .skipped, detail := some "incomplete record" }])
  | some texts => (.append (render texts), [{ entry with status := .updated, detail := some "appended" }])

/-- Plan one record: a missing one is skipped, one with an item goes to it, any other is new. -/
def record (c : Category) (text : Text) (entry : PatchEntry) (names : List Text)
    (given : Option FlatMap) (site : Option (Nat × BlockItem)) (render : List (Text × Text) → Text) :
    Logged Failure (ItemChange × List PatchEntry) :=
  match given, site with
  | none, _ => return (.keep, [{ entry with status := .skipped }])
  | some record, some (index, item) => existingRecord c text entry names record index item
  | some record, none => return newRecord entry names record render

/-- Plan the records of a block of records or literals: record `i` goes to item `i`. -/
def recordBlock (c : Category) (text locale : Text) (names : List Text)
    (records : List (Option FlatMap)) : Logged Failure Plan := do
  match ← c.parsedBlock text locale with
  | none => notFound { category := c.name, status := .notFound }
  | some parsed =>
    let render : List (Text × Text) → Text := fun texts =>
      match c.placement, texts.getLast? with
      | .listBlock .., some (_, value) => parsed.quote.render value
      | _, _ => parsed.renderRecord texts
    let planned ← records.zipIdx.mapM fun (given, index) =>
      record c text { category := c.name, status := .skipped, index := some index } names given
        (parsed.items[index]?.map (index, ·)) render
    ofChanges parsed text (planned.map Prod.fst) (planned.flatMap Prod.snd)

/-- The first item with a key, with its number. -/
def itemOf? (parsed : ParsedBlock) (key : Text) : Option (Nat × BlockItem) :=
  parsed.items.zipIdx.findSome? fun (item, index) =>
    if item.key?.map ItemKey.value = some key then some (index, item) else none

/-- Plan the records of a block of keyed records: a record goes to the first item of its key. -/
def keyedRecordBlock (c : Category) (text locale : Text) (names : List Text)
    (records : OrderedMap (Option FlatMap)) : Logged Failure Plan := do
  match ← c.parsedBlock text locale with
  | none => notFound { category := c.name, status := .notFound }
  | some parsed =>
    let planned ← records.mapM fun (key, given) =>
      record c text { category := c.name, status := .skipped, key := some key } names given
        (itemOf? parsed key) (parsed.renderKeyedRecord text key)
    ofChanges parsed text (planned.map Prod.fst) (planned.flatMap Prod.snd)

end Plan

end Bilingual
