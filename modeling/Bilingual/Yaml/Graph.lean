import Bilingual.Yaml.Kind

set_option autoImplicit false

/-! # Nodes of a YAML document

The nodes of a document are numbered, and a list or a map holds the numbers of its nodes. An alias is
nothing but the number of the node that it names, so a node may be in several places, and inside itself. -/

namespace Bilingual.Yaml

/-- What a node holds. -/
inductive Content where
  | scalar (text : Text)
  | list (items : List Nat)
  | map (entries : List (Nat × Nat))
deriving DecidableEq, Repr

/-- A node: what it stands for and what it holds. -/
structure Node where
  kind : Kind
  content : Content
deriving DecidableEq, Repr

/-- Nodes by number. -/
abbrev Graph := Array Node

namespace Graph

/-- What a node stands for. -/
def kindOf (graph : Graph) (id : Nat) : Kind := (graph[id]?.map Node.kind).getD .unknown

/-- What a node holds. -/
def contentOf (graph : Graph) (id : Nat) : Content := (graph[id]?.map Node.content).getD (.scalar [])

/-- The graph with other content in a node. -/
def setContent (graph : Graph) (id : Nat) (content : Content) : Graph :=
  graph.modify id fun node => { node with content }

/-- The graph with a node that stands for something else. -/
def setKind (graph : Graph) (id : Nat) (kind : Kind) : Graph := graph.modify id fun node => { node with kind }

/-- The text of a node that stands for a scalar. A map stands for the value of its default mark, and so on;
`fuel` is more than the number of nodes, so that it runs out only where a map stands for itself. -/
def textOf (graph : Graph) : Nat → Nat → Except Error Text
  | 0, _ => .error (.scalar .endless)
  | fuel + 1, id => match graph.contentOf id with
    | .scalar text => .ok text
    | .list _ => .error .malformed
    | .map entries => match entries.find? fun (key, _) => graph.kindOf key = .defaultMark with
      | some (_, value) => textOf graph fuel value
      | none => .error .malformed

/-! ## Merged maps -/

/-- The value of the first merge mark among entries, and the other entries. -/
def takeMerge? (graph : Graph) : List (Nat × Nat) → Option (Nat × List (Nat × Nat))
  | [] => none
  | (key, value) :: rest =>
    if graph.kindOf key = .mergeMark then some (value, rest)
    else (takeMerge? graph rest).map fun (merged, others) => (merged, (key, value) :: others)

/-- The number of merge marks. -/
def mergeMarks (graph : Graph) : Nat :=
  graph.foldl (fun n node => match node.content with
    | .map entries => n + entries.countP fun (key, _) => graph.kindOf key = .mergeMark
    | _ => n) 0

/-- The entries of a map; an error for anything else. -/
def entriesOf (graph : Graph) (id : Nat) : Except Error (List (Nat × Nat)) :=
  match graph.contentOf id with
  | .map entries => .ok entries
  | _ => .error .malformed

/-- The graph in which default marks among the keys of entries are texts. -/
def plainMarks (graph : Graph) (entries : List (Nat × Nat)) : Graph :=
  entries.foldl (fun graph (key, _) =>
    if graph.kindOf key = .defaultMark then graph.setKind key .text else graph) graph

/-- The graph in which a map has its merged entries in front of its own ones and no merge marks. A merge
mark names a map or a list of maps, of which earlier ones come later. Every step takes a merge mark away, so
`fuel`, more than their number, does not run out. -/
def flatten : Nat → Nat → Graph → Except Error Graph
  | 0, _, _ => .error .malformed
  | fuel + 1, id, graph => do
    let entries ← graph.entriesOf id
    match graph.takeMerge? entries with
    | none => return graph.plainMarks entries
    | some (named, others) =>
      let graph := graph.setContent id (.map others)
      let (merged, graph) ← match graph.contentOf named with
        | .scalar _ => throw .malformed
        | .map _ => do
          let graph ← flatten fuel named graph
          pure (← graph.entriesOf named, graph)
        | .list items =>
          items.foldlM (fun (merged, graph) item => do
            let _ ← graph.entriesOf item
            let graph ← flatten fuel item graph
            pure ((← graph.entriesOf item) ++ merged, graph)) ([], graph)
      let graph ← flatten fuel id graph
      return graph.setContent id (.map (merged ++ (← graph.entriesOf id)))

end Graph

end Bilingual.Yaml
