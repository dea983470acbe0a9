import Bilingual.Yaml.Graph
import Bilingual.Yaml.Token

set_option autoImplicit false

/-! # Documents

A document is the node that the tokens of a text make up, with all the nodes in it. The tokens are looked at
one by one from left to right, so what is wrong with the text behind them shows only when no token before is
wrong. -/

namespace Bilingual.Yaml

namespace Document

/-- The tokens to come, what is wrong behind them, the nodes made so far, and those that have a name. -/
structure Input where
  scan : Scan
  graph : Graph := #[]
  anchors : List (Text × Nat) := []

/-- A step that reads tokens. -/
abbrev Reading := StateT Input (Except Error)

/-- Stop, as at every token that may not stand where it does. -/
def malformed {α : Type} : Reading α := throw .malformed

/-- The next token; behind the last one comes what is wrong with the text, or nothing. -/
def next : Reading (Option Token) := do
  let scan := (← get).scan
  match scan.tokens.head?, scan.fault with
  | some t, _ => return some t
  | none, some fault => throw fault
  | none, none => return none

/-- Skip the next token. -/
def skip : Reading Unit :=
  modify fun input => { input with scan := { input.scan with tokens := input.scan.tokens.tail } }

/-- Skip the next token if it is a given one, and tell whether it was. -/
def skipIf (t : Token) : Reading Bool := do
  if (← next) = some t then
    skip
    return true
  else return false

/-- Skip a token that has to follow. -/
def expect (t : Token) : Reading Unit := do
  if !(← skipIf t) then malformed

/-- Whether a node is left out in front of one of the given tokens. -/
def omittedBefore (ends : List Token) : Reading Bool := return (← next).any ends.contains

/-- Make a node. -/
def make (kind : Kind) (content : Content) : Reading Nat := do
  let id := (← get).graph.size
  modify fun input => { input with graph := input.graph.push ⟨kind, content⟩ }
  return id

/-- Fill a node that has been made. -/
def fill (id : Nat) (content : Content) : Reading Unit :=
  modify fun input => { input with graph := input.graph.setContent id content }

/-- A node that is left out. -/
def omitted : Reading Nat := make .null (.scalar [])

/-- The full form of a tag; an exclamation mark alone is no tag. -/
def fullTag (handles : OrderedMap Text) (tag : WrittenTag) : Reading (Option Text) := do
  let full ← match tag.handle with
    | none => pure tag.suffix
    | some handle => match handles.lookup? handle with
      | some start => pure (start ++ tag.suffix)
      | none => malformed
  return if full = ("!" : Text) then none else some full

/-- The anchor in front of a node, if there is one. -/
def anchor : Reading (Option Text) := do
  match ← next with
  | some (.anchor name) => do
    skip
    return some name
  | _ => return none

/-- The tag in front of a node, if there is one. -/
def writtenTag : Reading (Option WrittenTag) := do
  match ← next with
  | some (.tag tag) => do
    skip
    return some tag
  | _ => return none

/-- The anchor and the tag in front of a node, in either order. -/
def properties : Reading (Option Text × Option WrittenTag) := do
  match ← anchor with
  | some name => return (some name, ← writtenTag)
  | none => match ← writtenTag with
    | some tag => return (← anchor, some tag)
    | none => return (none, none)

/-- Give a node its name. No name is given twice. -/
def register (name : Option Text) (id : Nat) : Reading Unit := do
  match name with
  | none => return ()
  | some name =>
    if ((← get).anchors.lookup name).isSome then malformed
    modify fun input => { input with anchors := (name, id) :: input.anchors }

/-- The node that an alias names. -/
def named (name : Text) : Reading Nat := do
  match (← get).anchors.lookup name with
  | some id => return id
  | none => malformed

/-- A scalar with its name. -/
def scalar (name : Option Text) (kind : Kind) (text : Text) : Reading Nat := do
  let id ← make kind (.scalar text)
  register name id
  return id

/-- A list with its name, which its items may use. -/
def list (name : Option Text) (tag : Option Text) (items : Reading (List Nat)) : Reading Nat := do
  let id ← make ((tag.map Kind.ofTag).getD .list) (.list [])
  register name id
  fill id (.list (← items))
  return id

/-- A map with its name, which its entries may use. -/
def map (name : Option Text) (tag : Option Text) (entries : Reading (List (Nat × Nat))) : Reading Nat := do
  let id ← make ((tag.map Kind.ofTag).getD .map) (.map [])
  register name id
  fill id (.map (← entries))
  return id

mutual

/-- A node. Inside block collections it may be one itself; `indentless` allows a list of items at the
indentation of the map around it. `fuel` bounds the number of nested steps. -/
def node (handles : OrderedMap Text) (block indentless : Bool) : Nat → Reading Nat
  | 0 => malformed
  | fuel + 1 => do
    match ← next with
    | some (.alias name) => do
      skip
      named name
    | _ => do
      let (name, written) ← properties
      let tag ← match written with
        | some written => fullTag handles written
        | none => pure none
      match ← next with
      | some (.scalar plain text) => do
        skip
        let kind := match tag with
          | some tag => Kind.ofTag tag
          | none => if plain || written.isSome then Kind.ofPlain text else .text
        scalar name kind text
      | some .flowListStart => do
        skip
        list name tag (flowItems handles true fuel)
      | some .flowMapStart => do
        skip
        map name tag (flowEntries handles true fuel)
      | start =>
        if indentless && start == some .item then
          list name tag (indentlessItems handles fuel)
        else if block && start == some .listStart then
          skip
          list name tag (blockItems handles fuel)
        else if block && start == some .mapStart then
          skip
          map name tag (blockEntries handles fuel)
        else if name.isSome || written.isSome then
          scalar name ((tag.map Kind.ofTag).getD .null) []
        else malformed

/-- A node, or one left out in front of the given tokens. -/
def nodeUnless (handles : OrderedMap Text) (ends : List Token) (block indentless : Bool) :
    Nat → Reading Nat
  | 0 => malformed
  | fuel + 1 => do
    if ← omittedBefore ends then omitted
    else node handles block indentless fuel

/-- The items of a block list. -/
def blockItems (handles : OrderedMap Text) : Nat → Reading (List Nat)
  | 0 => malformed
  | fuel + 1 => do
    if ← skipIf .item then
      let item ← nodeUnless handles [.item, .blockEnd] true false fuel
      return item :: (← blockItems handles fuel)
    else
      expect .blockEnd
      return []

/-- The items of a list at the indentation of the map around it. -/
def indentlessItems (handles : OrderedMap Text) : Nat → Reading (List Nat)
  | 0 => malformed
  | fuel + 1 => do
    if ← skipIf .item then
      let item ← nodeUnless handles [.item, .key, .value, .blockEnd] true false fuel
      return item :: (← indentlessItems handles fuel)
    else return []

/-- The value behind a key, which may be left out with its colon. -/
def valueUnless (handles : OrderedMap Text) (ends : List Token) (block : Bool) : Nat → Reading Nat
  | 0 => malformed
  | fuel + 1 => do
    if ← skipIf .value then nodeUnless handles ends block block fuel
    else omitted

/-- The entries of a block map. -/
def blockEntries (handles : OrderedMap Text) : Nat → Reading (List (Nat × Nat))
  | 0 => malformed
  | fuel + 1 => do
    if ← skipIf .key then
      let ends : List Token := [.key, .value, .blockEnd]
      let key ← nodeUnless handles ends true true fuel
      let value ← valueUnless handles ends true fuel
      return (key, value) :: (← blockEntries handles fuel)
    else
      expect .blockEnd
      return []

/-- The items of a flow list behind its bracket or behind an item. A key makes an item a map of one
entry. -/
def flowItems (handles : OrderedMap Text) (first : Bool) : Nat → Reading (List Nat)
  | 0 => malformed
  | fuel + 1 => do
    if ← skipIf .flowListEnd then return []
    if !first then expect .comma
    if ← skipIf .key then
      let key ← nodeUnless handles [.value, .comma, .flowListEnd] false false fuel
      let value ← valueUnless handles [.comma, .flowListEnd] false fuel
      let item ← make .map (.map [(key, value)])
      return item :: (← flowItems handles false fuel)
    else if ← skipIf .flowListEnd then return []
    else
      let item ← node handles false false fuel
      return item :: (← flowItems handles false fuel)

/-- The entries of a flow map behind its brace or behind an entry. -/
def flowEntries (handles : OrderedMap Text) (first : Bool) : Nat → Reading (List (Nat × Nat))
  | 0 => malformed
  | fuel + 1 => do
    if ← skipIf .flowMapEnd then return []
    if !first then expect .comma
    if ← skipIf .key then
      let key ← nodeUnless handles [.value, .comma, .flowMapEnd] false false fuel
      let value ← valueUnless handles [.comma, .flowMapEnd] false fuel
      return (key, value) :: (← flowEntries handles false fuel)
    else if ← skipIf .flowMapEnd then return []
    else
      let key ← node handles false false fuel
      let value ← omitted
      return (key, value) :: (← flowEntries handles false fuel)

end

/-- The tag handles that every document has. -/
def standardHandles : OrderedMap Text := [("!", "!"), ("!!", standardTag [])]

/-- The directives in front of a document: whether its version has been told, and the tag handles. No
directive comes twice, and only version 1 is understood. -/
def directives (versionTold : Bool) (handles : OrderedMap Text) : Nat → Reading (OrderedMap Text)
  | 0 => return handles
  | fuel + 1 => do
    match ← next with
    | some (.directive (.version major)) => do
      if versionTold || major != 1 then malformed
      skip
      directives true handles fuel
    | some (.directive (.tag handle start)) => do
      if (handles.lookup? handle).isSome then malformed
      skip
      directives versionTold (handles.put handle start) fuel
    | some (.directive .other) => do
      skip
      directives versionTold handles fuel
    | _ => return handles

/-- Skip the marks behind a document. -/
def skipEnds : Nat → Reading Unit
  | 0 => return ()
  | fuel + 1 => do
    if ← skipIf .documentEnd then skipEnds fuel

/-- Whether the next token belongs to the space between documents. -/
def betweenDocuments : Option Token → Bool
  | none | some (.directive _) | some .documentStart | some .documentEnd => true
  | _ => false

/-- The first document of the tokens. -/
def first (fuel : Nat) : Reading Nat := do
  match ← next with
  | some (.directive _) | some .documentStart => do
    let own ← directives false [] fuel
    expect .documentStart
    if betweenDocuments (← next) then omitted
    else node (OrderedMap.putAll standardHandles own) true false fuel
  | _ => node standardHandles true false fuel

/-- What may follow the first document: marks that end it, and nothing else. The directives of a second
document are still looked at. -/
def ending (fuel : Nat) : Reading Unit := do
  skipEnds fuel
  if (← next).isSome then
    let _ ← directives false [] fuel
    let _ ← next
    malformed

/-- The only document of the tokens, if there is one. -/
def only (fuel : Nat) : Reading (Option Nat) := do
  if (← next).isNone then return none
  let id ← first fuel
  ending fuel
  return some id

end Document

/-- The only document of a text: its nodes and the number of its outermost node, if there is one. -/
def document (scan : Scan) : Except Error (Graph × Option Nat) := do
  let (id, input) ← (Document.only (4 * scan.tokens.length + 8)).run { scan }
  return (input.graph, id)

end Bilingual.Yaml
