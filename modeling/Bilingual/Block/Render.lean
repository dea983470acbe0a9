import Bilingual.Block.Item
import Bilingual.Edit

set_option autoImplicit false

/-! # Writing blocks

A block body is written again from its gaps and the sources of its items: existing items keep their
place, their indentation and their comma, and the gaps are copied. New items come behind the last
existing one, each on a line of its own when a line break follows there, in the quotes, the key style and
the indentation that the block uses. -/

namespace Bilingual

/-- A literal that stands for `value`. -/
def Quote.render (q : Quote) (value : Text) : Text := [q.point] ++ q.escape value ++ [q.point]

/-- The source of an item with the bodies of some of its literals replaced. -/
def BlockItem.withLiterals (item : BlockItem) (text : Text) (replacements : List (LiteralSpan × Text)) :
    Except Failure Text :=
  Edit.applyAll (item.source text) <| replacements.map fun (literal, value) =>
    { start := (literal.start : Int) - item.start
      stop := (literal.stop : Int) - item.start
      replacement := literal.quote.escape value }

namespace ParsedBlock

/-- The step by which an item is indented inside its block. -/
def indentStep : Text := "  "

/-- The quote of the last literal in an item. -/
def lastQuote? (item : BlockItem) : Option Quote :=
  match item.literal? with
  | some literal => some literal.quote
  | none => item.fields.reverse.findSome? fun field => field.literal.map LiteralSpan.quote

/-- The quote of the last literal in the block; a single one when there is none. -/
def quote (parsed : ParsedBlock) : Quote := (parsed.items.reverse.findSome? lastQuote?).getD .single

/-- The indentation of a new item: that of the last item, or one step inside the block. -/
def itemIndent (parsed : ParsedBlock) : Text :=
  match parsed.items.getLast? with
  | some item => if item.indent.isEmpty then parsed.block.indent ++ indentStep else item.indent
  | none => parsed.block.indent ++ indentStep

/-- A key, written the way the last key of the block is: bare if that is bare and the key is an
identifier, otherwise in its quotes or in those of the block. -/
def renderKey (parsed : ParsedBlock) (key : Text) : Text :=
  match parsed.items.getLast?.bind BlockItem.key? with
  | none => parsed.quote.render key
  | some last => match last.raw.head?.bind Quote.ofPoint? with
    | some quote => quote.render key
    | none => if key.isIdentifier then key else parsed.quote.render key

/-- A new entry. -/
def renderEntry (parsed : ParsedBlock) (key value : Text) : Text :=
  parsed.renderKey key ++ ": " ++ parsed.quote.render value

/-- The fields of a new record, each with its name. -/
def renderMembers (parsed : ParsedBlock) (values : List (Text × Text)) : List Text :=
  values.map fun (name, value) => name ++ ": " ++ parsed.quote.render value

/-- A new record. -/
def renderRecord (parsed : ParsedBlock) (values : List (Text × Text)) : Text :=
  "\x7b " ++ Text.joinWith ", " (parsed.renderMembers values) ++ " \x7d"

/-- A new keyed record, with one field per line when the last record spans lines. -/
def renderKeyedRecord (parsed : ParsedBlock) (text key : Text) (values : List (Text × Text)) : Text :=
  let members := parsed.renderMembers values
  let spansLines := match parsed.items.getLast? with
    | some item => (item.source text).contains ('\n' : CodePoint)
    | none => false
  if spansLines then
    let indent := parsed.itemIndent
    let lines := members.flatMap fun member => ("\n" ++ indent ++ indentStep ++ member ++ "," : Text)
    parsed.renderKey key ++ ": \x7b" ++ lines ++ "\n" ++ indent ++ "\x7d"
  else parsed.renderKey key ++ ": \x7b " ++ Text.joinWith ", " members ++ " \x7d"

/-- Gaps and items in turn, beginning with a gap. -/
def interleave : List Text → List Text → Text
  | gap :: gaps, item :: items => gap ++ item ++ interleave gaps items
  | gaps, [] => gaps.flatten
  | [], items => items.flatten

/-- New items with a comma behind each but the last, which has one if `trailingComma`. -/
def withCommas (trailingComma : Bool) : List Text → List Text
  | [] => []
  | [item] => [if trailingComma then item ++ "," else item]
  | item :: items => (item ++ ",") :: withCommas trailingComma items

/-- New items on lines of their own, put into a gap at the given line break. -/
def insertLines (gap indent : Text) (cut : Nat) (items : List Text) : Text :=
  gap.take cut ++ (items.flatMap fun item => ("\n" ++ indent ++ item : Text)) ++ gap.drop cut

/-- New items in a body that has none: inside its last line break, or behind its blanks on one line. -/
def renderFirst (parsed : ParsedBlock) (gap : Text) (appended : List Text) : Text :=
  if gap.contains ('\n' : CodePoint) then
    let lastLine := gap.reverse.takeWhile (· ≠ ('\n' : CodePoint))
    insertLines gap parsed.itemIndent (gap.length - lastLine.length - 1) (withCommas true appended)
  else gap ++ Text.joinWith ", " appended

/-- New items behind the last existing one, in front of the first line break of the last gap or on the
same line; the existing item gets a comma if it has none. -/
def renderAfter (parsed : ParsedBlock) (last : BlockItem) (items appended : List Text) : Text :=
  let body := interleave parsed.gaps.dropLast items ++ (if last.hasComma then [] else ",")
  let gap := parsed.gaps.getLastD []
  let added := withCommas last.hasComma appended
  if gap.contains ('\n' : CodePoint) then
    body ++ insertLines gap parsed.itemIndent (gap.takeWhile (· ≠ ('\n' : CodePoint))).length added
  else body ++ (added.flatMap fun item => (" " ++ item : Text)) ++ gap

/-- The body with new sources of all its items, each with its comma, and with new items behind them. -/
def renderBody (parsed : ParsedBlock) (items appended : List Text) : Except Failure Text :=
  if items.length ≠ parsed.items.length then .error .itemCount
  else if appended.isEmpty then .ok (interleave parsed.gaps items)
  else match parsed.items.getLast? with
    | some last => .ok (parsed.renderAfter last items appended)
    | none => .ok (parsed.renderFirst (parsed.gaps.headD []) appended)

end ParsedBlock

end Bilingual
