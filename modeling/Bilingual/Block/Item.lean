import Bilingual.Block.Span
import Bilingual.Pattern.Literal

set_option autoImplicit false

/-! # Items of a block

A block body is a row of items of one kind with gaps of whitespace and comments around them. An item may
have a comma right behind it, after blanks on the same line; the comma belongs to the item. Gaps are
kept as they are, so that gaps and items together are the whole body. A body that holds anything else
has no items at all. -/

namespace Bilingual

/-- The kinds of items: `key: 'value'`, `{ field: 'value', … }`, `'value'` and `key: { … }`. -/
inductive ItemKind where
  | entry
  | record
  | literal
  | keyedRecord
deriving DecidableEq, Repr

/-- A field of a record: its name, its value as it is written, and the literal the value is, if it is
one. -/
structure RecordField where
  name : Text
  raw : Text
  literal : Option LiteralSpan
deriving DecidableEq, Repr

/-- The key of an item as it is written and as it is meant. -/
structure ItemKey where
  raw : Text
  value : Text
deriving DecidableEq, Repr

/-- What an item holds. -/
inductive ItemContent where
  | entry (key : ItemKey) (literal : LiteralSpan)
  | record (fields : List RecordField)
  | literal (literal : LiteralSpan)
  | keyedRecord (key : ItemKey) (fields : List RecordField)
deriving DecidableEq, Repr

/-- An item of a block: its span with the comma behind it, the indentation of its line, whether it has
that comma, and what it holds. -/
structure BlockItem where
  start : Nat
  stop : Nat
  indent : Text
  hasComma : Bool
  content : ItemContent
deriving DecidableEq, Repr

namespace BlockItem

/-- The key of an item that has one. -/
def key? (item : BlockItem) : Option ItemKey :=
  match item.content with
  | .entry key _ | .keyedRecord key _ => some key
  | _ => none

/-- The literal of an item that is one or has one as its value. -/
def literal? (item : BlockItem) : Option LiteralSpan :=
  match item.content with
  | .entry _ literal | .literal literal => some literal
  | _ => none

/-- The fields of a record. -/
def fields (item : BlockItem) : List RecordField :=
  match item.content with
  | .record fields | .keyedRecord _ fields => fields
  | _ => []

/-- The text of an item. -/
def source (item : BlockItem) (text : Text) : Text := text.slice item.start item.stop

end BlockItem

/-- The items of a block, and the gaps in front of, between and behind them. -/
structure ParsedBlock where
  block : BlockSpan
  items : List BlockItem
  gaps : List Text
deriving DecidableEq, Repr

namespace Recogniser

/-- A key in quotes, with the quotes. -/
def quotedKey : Recogniser Text := do
  let literal ← literal
  return [literal.quote.point] ++ literal.raw ++ [literal.quote.point]

/-- A bare key: an ASCII letter, `_` or `$`, then word code points, `$`, dots and hyphens. -/
def bareKey : Recogniser Text := do
  let c ← satisfying CodePoint.isIdentifierStart
  let rest ← longest fun c => c.isIdentifier || c == '.' || c == '-'
  return c :: rest

/-- A key and the colon behind it. -/
def itemKey : Recogniser Text := do
  let raw ← orElse quotedKey bareKey
  spaces
  point ':'
  spaces
  return raw

/-- How long the body of an object is, up to its closing brace; it holds no other brace outside its
literals, and every quote begins a literal. The first `skip` code points belong to a literal. -/
def objectBody? (skip : Nat) : Text → Option Nat
  | [] => none
  | c :: rest =>
    match skip with
    | skip + 1 => (objectBody? skip rest).map (· + 1)
    | 0 =>
      if c = '}' then some 0
      else if c = '{' then none
      else match Quote.ofPoint? c with
        | none => (objectBody? 0 rest).map (· + 1)
        | some _ => match literalBody? c rest with
          | none => none
          | some (raw, _) => (objectBody? (raw.length + 1) rest).map (· + 1)

/-- An object without nested braces: the offset of its body, and the body. -/
def object : Recogniser (Nat × Text) := do
  point '{'
  ⟨fun cursor => match objectBody? 0 cursor.rest with
    | none => []
    | some n => [((cursor.offset, cursor.rest.take n), cursor.advance (n + 1))]⟩

/-- Whether a comma follows, after blanks on the same line; the comma is read. -/
def itemComma : Recogniser Bool := do
  let comma ← optional do
    let _ ← longest fun c => c == ' ' || c == '\t'
    point ','
  return comma.isSome

/-- Read nothing, where a field of a record ends: in front of a comma or at the end of the record. -/
def fieldEnd : Recogniser Unit := orElse (ahead (point ',')) atEnd

/-- A field of a record, up to a comma or the end of the record. A value that is no literal holds no quote
and no comma; only whitespace in front of it makes up for a value that is missing. -/
def recordField : Recogniser RecordField := do
  let c ← satisfying CodePoint.isIdentifierStart
  let name ← longest CodePoint.isIdentifier
  let name := c :: name
  let _ ← longest CodePoint.isSpace
  point ':'
  let space ← longest CodePoint.isSpace
  orElse
    (do
      let literal ← literal
      let _ ← longest CodePoint.isSpace
      fieldEnd
      let quote := literal.quote.point
      return ⟨name, [quote] ++ literal.raw ++ [quote], some literal⟩)
    (do
      let raw ← longest fun c => !(c == ',' || (Quote.ofPoint? c).isSome)
      if space.isEmpty && raw.isEmpty then nothing
      fieldEnd
      return ⟨name, raw.trim, none⟩)

/-- The fields in the body of a record that starts at `offset`. Text that is no field is passed over. -/
def recordFields (offset : Nat) (body : Text) : List RecordField :=
  let trimmed := body.trim
  let cursor : Cursor := ⟨offset + body.leadingSpace.length, none, trimmed⟩
  (recordField.allFrom 0 cursor trimmed).map fun (_, field, _) => field

end Recogniser

/-- The key that is written `raw`: a literal is decoded, a bare key stands for itself. -/
def ItemKey.ofRaw (raw : Text) : Except Failure ItemKey :=
  match raw.head?.bind Quote.ofPoint? with
  | some _ => return ⟨raw, ← Literal.decode raw.tail.dropLast⟩
  | none => return ⟨raw, raw⟩

/-- What an item of the given kind holds; a key that cannot be decoded is a failure. -/
def Recogniser.itemContent : ItemKind → Recogniser (Except Failure ItemContent)
  | .entry => do
    let key ← itemKey
    let literal ← literal
    return (ItemKey.ofRaw key).map fun key => .entry key literal
  | .record => do
    let (offset, body) ← object
    return .ok (.record (recordFields offset body))
  | .literal => do
    let literal ← literal
    return .ok (.literal literal)
  | .keyedRecord => do
    let key ← itemKey
    let (offset, body) ← object
    return (ItemKey.ofRaw key).map fun key => .keyedRecord key (recordFields offset body)

/-- An item of the given kind: what it holds, and whether a comma follows. -/
def Recogniser.item (kind : ItemKind) : Recogniser (Except Failure ItemContent × Bool) := do
  let content ← itemContent kind
  let comma ← itemComma
  return (content, comma)

namespace ParsedBlock

/-- How many code points at the beginning of a text are whitespace and closed comments. The first `skip`
belong to a comment. -/
def gapLength (skip : Nat) : Text → Nat
  | [] => 0
  | c :: rest =>
    match skip with
    | skip + 1 => gapLength skip rest + 1
    | 0 =>
      if c.isSpace then gapLength 0 rest + 1
      else if Comment.startsLine c rest then gapLength (Comment.lineTail rest) rest + 1
      else if Comment.startsBlock c rest then
        match Comment.blockTail? rest with
        | none => 0
        | some n => gapLength n rest + 1
      else 0

/-- Read one item at a cursor; with it comes the cursor behind. -/
def itemAt? (text : Text) (kind : ItemKind) (cursor : Cursor) :
    Except Failure (Option (BlockItem × Cursor)) :=
  match (Recogniser.item kind).first? cursor with
  | none => return none
  | some ((content, hasComma), behind) => do
    let item := {
      start := cursor.offset
      stop := behind.offset
      indent := text.indentAt cursor.offset
      hasComma
      content := ← content }
    return some (item, behind)

/-- Read gaps and items in turn up to the end of the window. An item is never empty, so `fuel`, the
length of the body, does not run out. -/
def partsFrom (text : Text) (kind : ItemKind) :
    Nat → Cursor → Except Failure (Option (List BlockItem × List Text))
  | fuel, cursor =>
    let gap := cursor.rest.take (gapLength 0 cursor.rest)
    let cursor := cursor.advance gap.length
    if cursor.rest.isEmpty then return some ([], [gap])
    else match fuel with
      | 0 => return none
      | fuel + 1 => do
        match ← itemAt? text kind cursor with
        | none => return none
        | some (item, behind) =>
          match ← partsFrom text kind fuel behind with
          | none => return none
          | some (items, gaps) => return some (item :: items, gap :: gaps)

/-- Split the body of a block into items of the given kind and gaps; none when it holds anything else. -/
def parse (text : Text) (block : BlockSpan) (kind : ItemKind) : Except Failure (Option ParsedBlock) := do
  let cursor := Cursor.ofWindow text block.bodyStart block.bodyEnd
  match ← partsFrom text kind cursor.rest.length cursor with
  | none => return none
  | some (items, gaps) => return some { block, items, gaps }

end ParsedBlock

end Bilingual
