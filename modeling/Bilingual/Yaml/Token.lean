import Bilingual.Yaml.BlockScalar
import Bilingual.Yaml.Plain
import Bilingual.Yaml.Quoted
import Bilingual.Yaml.Tag

set_option autoImplicit false

/-! # Tokens of a YAML text

Indentation becomes tokens: a block begins where a line is indented more than the block around it and ends
in front of the first line that is indented less. That a node is a key shows only at the colon behind it.
So the place of every node that may be a key is remembered, and the colon puts a key token there. -/

namespace Bilingual.Yaml

/-- A token. -/
inductive Token where
  | directive (d : Directive)
  | documentStart
  | documentEnd
  | listStart
  | mapStart
  | blockEnd
  | flowListStart
  | flowListEnd
  | flowMapStart
  | flowMapEnd
  | item
  | comma
  | key
  | value
  | alias (name : Text)
  | anchor (name : Text)
  | tag (tag : WrittenTag)
  | scalar (plain : Bool) (text : Text)
deriving DecidableEq, Repr

/-- What is read of a text: its tokens, or those in front of a fault and the fault. -/
structure Scan where
  tokens : List Token
  fault : Option Error
deriving DecidableEq, Repr

/-- The place of a node that may turn out to be a key: the number of tokens in front of it, and whether
nothing else may stand there. -/
structure KeyPlace where
  tokens : Nat
  required : Bool
  index : Nat
  line : Nat
  column : Nat
deriving DecidableEq, Repr

/-- The tokens read so far with what decides how to go on: the indentation of the blocks around, the
innermost first, the depth of flow collections, whether a key may begin here, and the possible keys by
depth. -/
structure Lexer where
  cursor : Cursor
  tokens : Array Token := #[]
  indents : List Nat := []
  depth : Nat := 0
  keyAllowed : Bool := true
  keys : List (Nat × KeyPlace) := []

namespace Lexer

/-- Whether reading is inside a flow collection. -/
def inFlow (l : Lexer) : Bool := l.depth != 0

/-- The least indentation of lines inside the innermost block. -/
def innerIndent (l : Lexer) : Nat := match l.indents with
  | [] => 0
  | n :: _ => n + 1

/-- Add a token. -/
def push (l : Lexer) (t : Token) : Lexer := { l with tokens := l.tokens.push t }

/-! ## Blocks -/

/-- End the blocks that are indented more than `column`, or all without a column. -/
def closeBlocks (column : Option Nat) (l : Lexer) : Lexer :=
  if l.inFlow then l
  else
    let closed := l.indents.takeWhile fun indent => column.all (· < indent)
    { l with
      indents := l.indents.drop closed.length
      tokens := l.tokens ++ closed.map fun _ => Token.blockEnd }

/-- Begin a block at a column, unless there is one: its first token goes behind `tokens` others. -/
def openBlock (start : Token) (tokens column : Nat) (l : Lexer) : Lexer :=
  if column < l.innerIndent then l
  else { l with
    indents := column :: l.indents
    tokens := l.tokens.insertIdxIfInBounds tokens start }

/-! ## Possible keys -/

/-- Forget the possible key at the present depth. -/
def dropKey (l : Lexer) : Except Error Lexer :=
  match l.keys.lookup l.depth with
  | some key => if key.required then .error .malformed
    else .ok { l with keys := l.keys.filter (·.1 ≠ l.depth) }
  | none => .ok l

/-- Remember that the next token may be a key. -/
def saveKey (l : Lexer) : Except Error Lexer := do
  if !l.keyAllowed then return l
  let l ← l.dropKey
  let required := !l.inFlow && l.indents.head? == some l.cursor.column
  let c := l.cursor
  return { l with keys := (l.depth, ⟨l.tokens.size, required, c.index, c.line, c.column⟩) :: l.keys }

/-- Forget the possible keys that are out of reach: a key and its colon are on one line, and at most 1024
code points apart. -/
def dropFarKeys (l : Lexer) : Except Error Lexer :=
  let far : KeyPlace → Bool := fun key =>
    key.line ≠ l.cursor.line || 1024 < l.cursor.index - key.index
  if l.keys.any fun (_, key) => far key && key.required then .error .malformed
  else .ok { l with keys := l.keys.filter fun (_, key) => !far key }

/-! ## Single tokens -/

/-- The place of the next token. Line breaks in front of it allow a key. -/
def skipSpace : Nat → Lexer → Lexer
  | 0, l => l
  | fuel + 1, l =>
    let c := l.cursor.skipSpaces
    let c := if c.peek == some ('#' : CodePoint) then c.skip (!isBreak ·) else c
    match c.lineBreak? with
    | none => { l with cursor := c }
    | some (_, c) => skipSpace fuel { l with cursor := c, keyAllowed := l.keyAllowed || !l.inFlow }

/-- A token that begins at the margin: no block goes on behind it. -/
def atMargin (l : Lexer) : Except Error Lexer := do
  return { (← (l.closeBlocks none).dropKey) with keyAllowed := false }

/-- A mark between documents. -/
def documentMark (t : Token) (l : Lexer) : Except Error Lexer := do
  let l ← l.atMargin
  return { l.push t with cursor := l.cursor.advance 3 }

/-- The start of a flow collection, which may be a key. -/
def flowStart (t : Token) (l : Lexer) : Except Error Lexer := do
  let l ← l.saveKey
  return { l.push t with cursor := l.cursor.next, depth := l.depth + 1, keyAllowed := true }

/-- The end of a flow collection. -/
def flowEnd (t : Token) (l : Lexer) : Except Error Lexer := do
  if !l.inFlow then throw .malformed
  let l ← l.dropKey
  return { l.push t with cursor := l.cursor.next, depth := l.depth - 1, keyAllowed := false }

/-- A comma of a flow collection. -/
def comma (l : Lexer) : Except Error Lexer := do
  let l ← l.dropKey
  return { l.push .comma with cursor := l.cursor.next, keyAllowed := true }

/-- Begin a block in front of the next token where that is allowed; flow collections need none. -/
def openBlockHere (start : Token) (l : Lexer) : Except Error Lexer :=
  if l.inFlow then .ok l
  else if !l.keyAllowed then .error .malformed
  else .ok (l.openBlock start l.tokens.size l.cursor.column)

/-- The mark of an item of a block list. -/
def item (l : Lexer) : Except Error Lexer := do
  let l ← (← l.openBlockHere .listStart).dropKey
  return { l.push .item with cursor := l.cursor.next, keyAllowed := true }

/-- The mark of a key. -/
def key (l : Lexer) : Except Error Lexer := do
  let l ← (← l.openBlockHere .mapStart).dropKey
  return { l.push .key with cursor := l.cursor.next, keyAllowed := !l.inFlow }

/-- The colon behind a key, which makes the node at the remembered place a key. -/
def value (l : Lexer) : Except Error Lexer := do
  match l.keys.lookup l.depth with
  | some key =>
    let l := { l with
      keys := l.keys.filter (·.1 ≠ l.depth)
      tokens := l.tokens.insertIdxIfInBounds key.tokens .key }
    let l := if l.inFlow then l else l.openBlock .mapStart key.tokens key.column
    return { l.push .value with cursor := l.cursor.next, keyAllowed := false }
  | none =>
    let l ← (← l.openBlockHere .mapStart).dropKey
    return { l.push .value with cursor := l.cursor.next, keyAllowed := !l.inFlow }

/-- A token that may be a key. -/
def node (read : Cursor → Except Error (Token × Cursor)) (l : Lexer) : Except Error Lexer := do
  let l ← l.saveKey
  let (t, cursor) ← read l.cursor
  return { l.push t with cursor, keyAllowed := false }

/-- A scalar between quotes. -/
def quoted (double : Bool) : Lexer → Except Error Lexer :=
  node fun c => do
    let (text, c) ← Quoted.read double c
    return (.scalar false text, c)

/-- A block scalar. -/
def blockScalar (folded : Bool) (l : Lexer) : Except Error Lexer := do
  let l ← l.dropKey
  let (text, cursor) ← BlockScalar.read folded (max l.innerIndent 1) l.cursor
  return { l.push (.scalar false text) with cursor, keyAllowed := true }

/-- A plain scalar. -/
def plain (l : Lexer) : Except Error Lexer := do
  let l ← l.saveKey
  let result := Plain.read l.inFlow l.innerIndent l.cursor
  return { l.push (.scalar true result.text) with cursor := result.behind, keyAllowed := result.overBreak }

/-- A directive. -/
def directive (l : Lexer) : Except Error Lexer := do
  let l ← l.atMargin
  let (d, cursor) ← l.cursor.directive
  return { l.push (.directive d) with cursor }

/-- Read the token that begins with a code point. -/
def token (p : CodePoint) (l : Lexer) : Except Error Lexer :=
  let c := l.cursor
  let beforeSpace := endsWord (c.peek 1)
  if c.column = 0 ∧ p = '%' then l.directive
  else if c.column = 0 ∧ c.atDocumentMark then
    l.documentMark (if p = '-' then .documentStart else .documentEnd)
  else if p = '[' then l.flowStart .flowListStart
  else if p = '\x7b' then l.flowStart .flowMapStart
  else if p = ']' then l.flowEnd .flowListEnd
  else if p = '\x7d' then l.flowEnd .flowMapEnd
  else if p = ',' then l.comma
  else if p = '-' ∧ beforeSpace then if l.inFlow then .error .malformed else l.item
  else if p = '?' ∧ (l.inFlow ∨ beforeSpace) then l.key
  else if p = ':' ∧ (l.inFlow ∨ beforeSpace) then l.value
  else if p = '*' then l.node fun c => do
    let (name, c) ← c.next.anchorName
    return (.alias name, c)
  else if p = '&' then l.node fun c => do
    let (name, c) ← c.next.anchorName
    return (.anchor name, c)
  else if p = '!' then l.node fun c => do
    let (tag, c) ← c.tag
    return (.tag tag, c)
  else if p = '|' ∧ !l.inFlow then l.blockScalar false
  else if p = '>' ∧ !l.inFlow then l.blockScalar true
  else if p = '\'' then l.quoted false
  else if p = '"' then l.quoted true
  else if Plain.starts l.inFlow c then l.plain
  else .error .malformed

/-- How many tokens can be told for sure: no key token can come in front of them any more. -/
def settled (l : Lexer) : Nat := l.keys.foldl (fun n (_, key) => min n key.tokens) l.tokens.size

/-- Read the next token, or end all blocks at the end of the text, which gives nothing to go on with. -/
def step (l : Lexer) : Except Error (Array Token ⊕ Lexer) := do
  let l := l.skipSpace (l.cursor.rest.length + 1)
  let l := (← l.dropFarKeys).closeBlocks (some l.cursor.column)
  match l.cursor.peek with
  | none => return .inl (← l.atMargin).tokens
  | some p => return .inr (← l.token p)

/-- Read tokens to the end of the text, or up to a fault. Every token takes at least one code point, so
`fuel`, the length of the text, does not run out. -/
def run : Nat → Lexer → Scan
  | 0, _ => ⟨[], some .malformed⟩
  | fuel + 1, l =>
    match l.dropFarKeys with
    | .error e => ⟨[], some e⟩
    | .ok l => match l.step with
      | .error e => ⟨l.tokens.toList.take l.settled, some e⟩
      | .ok (.inl tokens) => ⟨tokens.toList, none⟩
      | .ok (.inr l) => run fuel l

end Lexer

/-- Whether a code point may stand in a YAML text. -/
def isAllowed (p : CodePoint) : Bool :=
  p == '\t' || p == '\n' || p == '\r' || (0x20 ≤ p.val && p.val ≤ 0x7E) || p.val == 0x85 ||
    (0xA0 ≤ p.val && p.val ≤ 0xD7FF) || (0xE000 ≤ p.val && p.val ≤ 0xFFFD) || 0x10000 ≤ p.val

/-- The tokens of a text. A byte order mark at its start is skipped. -/
def scan (text : Text) : Scan :=
  if !text.all isAllowed then ⟨[], some .malformed⟩
  else
    let cursor : Cursor := { rest := text }
    let cursor := if cursor.peek.any (·.val == 0xFEFF) then cursor.next else cursor
    Lexer.run (text.length + 1) { cursor }

end Bilingual.Yaml
