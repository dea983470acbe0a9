import Bilingual.Data.Basic
import Bilingual.Yaml.Document
import Bilingual.Yaml.Scalar

set_option autoImplicit false

/-! # Values of a YAML document

Every node of a document has one value, however often it is named. The outermost node gets its value first,
and collections are filled in the order in which they are met, so of several faults the one that is met
first counts. A key that comes twice keeps its first place and its last value. -/

namespace Bilingual.Yaml

/-- The value of a node. Collections hold the numbers of nodes; of a list of pairs only its length is of
use. -/
inductive Value where
  | scalar (s : Scalar)
  | list (items : List Nat)
  | map (entries : List (DataKey × Nat))
  | set (keys : List DataKey)
  | pairs (count : Nat)

/-- The nodes of a document, the values that some of them have, and the collections met so far, in
order. -/
structure Valuation where
  graph : Graph
  values : Array (Option Value)
  met : Array Nat := #[]

namespace Valuation

/-- The value of a node that has one. -/
def value? (v : Valuation) (id : Nat) : Option Value := v.values[id]?.join

/-- The valuation in which a node has a value. -/
def setValue (v : Valuation) (id : Nat) (value : Value) : Valuation :=
  { v with values := v.values.setIfInBounds id (some value) }

/-- A collection that is met gets its value later. -/
def meet (v : Valuation) (id : Nat) (empty : Value) : Valuation :=
  { v.setValue id empty with met := v.met.push id }

/-- The value of a scalar. A moment cannot be read from a map, even if it has a text. -/
def scalarOf (v : Valuation) (id : Nat) (kind : Kind) : Except Error Scalar := do
  let text ← v.graph.textOf (v.graph.size + 1) id
  match kind, v.graph.contentOf id with
  | .moment, .map _ => throw (.scalar .momentOfMap)
  | _, _ => Scalar.read kind text

/-- The valuation in which a node has a value, though a collection may still be empty. -/
def visit (v : Valuation) (id : Nat) : Except Error Valuation :=
  match v.value? id with
  | some _ => .ok v
  | none => match v.graph.kindOf id with
    | .list => .ok (v.meet id (.list []))
    | .map => .ok (v.meet id (.map []))
    | .set => .ok (v.meet id (.set []))
    | .orderedPairs | .pairs => .ok (v.meet id (.pairs 0))
    | .mergeMark | .defaultMark | .unknown => .error .malformed
    | kind => do return v.setValue id (.scalar (← v.scalarOf id kind))

/-- The key that a node makes. Collections cannot be keys. -/
def keyOf (v : Valuation) (id : Nat) : Except Error DataKey :=
  match v.value? id with
  | some (.scalar s) => .ok s.key
  | _ => .error .malformed

/-- Put a node under a key, in the key's old place if it has one. -/
def putEntry (key : DataKey) (id : Nat) : List (DataKey × Nat) → List (DataKey × Nat)
  | [] => [(key, id)]
  | (k, other) :: rest => if k.same key then (k, id) :: rest else (k, other) :: putEntry key id rest

/-- Visit the keys and values of a map, and put the values under their keys. -/
def visitEntries (v : Valuation) : List (Nat × Nat) → List (DataKey × Nat) →
    Except Error (Valuation × List (DataKey × Nat))
  | [], done => .ok (v, done)
  | (key, value) :: rest, done => do
    let v ← v.visit key
    let k ← v.keyOf key
    let v ← v.visit value
    v.visitEntries rest (putEntry k value done)

/-- Visit the entries of a map after those of merged maps have come in front. -/
def visitMap (v : Valuation) (id : Nat) : Except Error (Valuation × List (DataKey × Nat)) := do
  let graph ← v.graph.flatten (v.graph.mergeMarks + 1) id
  let entries ← graph.entriesOf id
  { v with graph }.visitEntries entries []

/-- Visit the key and the value of an item that has to be a map of one entry. -/
def visitPair (v : Valuation) (item : Nat) : Except Error Valuation := do
  match ← v.graph.entriesOf item with
  | [(key, value)] => (← v.visit key).visit value
  | _ => throw .malformed

/-- Fill a collection that has been met. -/
def fill (v : Valuation) (id : Nat) : Except Error Valuation := do
  match v.graph.kindOf id, v.graph.contentOf id with
  | .list, .list items => return (← items.foldlM visit v).setValue id (.list items)
  | .map, .map _ => do
    let (v, entries) ← v.visitMap id
    return v.setValue id (.map entries)
  | .set, .map _ => do
    let (v, entries) ← v.visitMap id
    return v.setValue id (.set (entries.map (·.1)))
  | .orderedPairs, .list items | .pairs, .list items =>
    return (← items.foldlM visitPair v).setValue id (.pairs items.length)
  | _, _ => throw .malformed

/-- Fill the collections met from the one with a given number on. No node is met twice, so `fuel`, more than
the number of nodes, does not run out. -/
def fillFrom : Nat → Nat → Valuation → Except Error Valuation
  | 0, _, v => .ok v
  | fuel + 1, number, v => match v.met[number]? with
    | none => .ok v
    | some id => do fillFrom fuel (number + 1) (← v.fill id)

/-- The values of a document with a given outermost node. -/
def ofDocument (graph : Graph) (id : Nat) : Except Error Valuation := do
  let v : Valuation := { graph, values := Array.replicate graph.size none }
  fillFrom (graph.size + 1) 0 (← v.visit id)

/-! ## Data -/

/-- The data of a value, given the data of the nodes in it. -/
def dataOf (inner : Nat → Data) : Value → Data
  | .scalar s => s.data
  | .list items => .list (items.map inner)
  | .map entries => .map (entries.map fun (key, id) => (key, inner id))
  | .set keys => .set (keys.map Data.ofKey)
  | .pairs count => .list (List.replicate count .other)

/-- The data of all nodes down to a depth. What lies deeper is left open. -/
def dataTo (v : Valuation) : Nat → Array Data
  | 0 => v.values.map fun _ => .other
  | depth + 1 =>
    let inner := v.dataTo depth
    v.values.map fun value? => (value?.map (dataOf fun id => inner[id]?.getD .other)).getD .other

/-- More levels than any model has: a node inside itself is as good as its levels down to there. -/
def deepest : Nat := 16

/-- The data of a node. -/
def data (v : Valuation) (id : Nat) : Data := (v.dataTo deepest)[id]?.getD .other

end Valuation

/-- The data that a YAML text holds; null without a document. -/
def read (text : Text) : Except Error Data := do
  let (graph, id?) ← document (scan text)
  match id? with
  | none => return .null
  | some id => return (← Valuation.ofDocument graph id).data id

end Bilingual.Yaml
