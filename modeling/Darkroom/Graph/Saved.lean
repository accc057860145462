import Darkroom.Graph.Basic

/-!
# Saved graphs

The form in which graphs are stored.  A kind is kept by name, so that nodes of unknown kinds can be
left out when a graph is built from the stored form.

## Main definitions

* `SavedGraph` : the stored form.
* `Graph.toSaved`, `Graph.ofSaved` : storing and rebuilding a graph.
-/

namespace Darkroom

/-- A stored node. -/
structure SavedNode where
  id : String
  kind : Option String
  position : Point
  data : Option String
  deriving BEq, Repr

/-- A stored link. -/
structure SavedLink where
  id : String
  consumer : String
  producer : String
  slot : String
  anchor : String
  inputPosition : Point
  outputPosition : Point
  deriving BEq, Repr

/-- A stored graph; either section may be missing. -/
structure SavedGraph where
  nodes : Option (List SavedNode)
  links : Option (List SavedLink)
  deriving BEq, Repr

namespace Graph

/-- The stored form of a graph. -/
def toSaved (g : Graph) : SavedGraph where
  nodes := some (g.nodes.map fun node => ⟨node.id, some node.kind.name, node.position, node.data⟩)
  links := some (g.links.map fun link =>
    ⟨link.id, link.consumer, link.producer, link.slot, link.anchor, link.inputPosition,
      link.outputPosition⟩)

/-- Adds stored nodes in order; those of unknown kinds are left out. -/
def insertNodes (registry : Registry) : Graph → List SavedNode → Except Fault Graph
  | g, [] => .ok g
  | g, saved :: rest =>
    match saved.kind.bind registry.resolve? with
    | none => insertNodes registry g rest
    | some kind => do
      insertNodes registry (← g.insertNode ⟨saved.id, kind, saved.position, saved.data⟩) rest

/-- Adds an end node where there is none. -/
def ensureEndNode (g : Graph) : Except Fault Graph :=
  if g.endNodeId?.isSome then .ok g else g.insertNode endNode

/-- Adds stored links in order. -/
def insertLinks : Graph → List SavedLink → Except Fault Graph
  | g, [] => .ok g
  | g, saved :: rest => do
    insertLinks (← g.insertLink ⟨saved.id, saved.producer, saved.consumer, saved.slot, saved.anchor,
      saved.outputPosition, saved.inputPosition⟩) rest

/-- Rebuilds a graph from its stored form, with the kinds that a registry allows. -/
def ofSaved (saved : SavedGraph) (registry : Registry) : Except Fault Graph :=
  match saved.nodes, saved.links with
  | none, _ => .error (.validation "graph file has no 'nodes' section")
  | _, none => .error (.validation "graph file has no 'links' section")
  | some nodes, some links => do
    let g ← insertNodes registry empty nodes
    let g ← g.ensureEndNode
    insertLinks g links

end Graph

end Darkroom
