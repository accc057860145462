import Darkroom.Graph.Saved
import Darkroom.Job.Codec

/-!
# Graph files

Graphs are stored as JSON records with a list of nodes and a list of links.

## Main definitions

* `SavedGraph.encode`, `SavedGraph.decode` : the text of a stored graph, and the graph of a text.
* `Graph.load` : the graph that a text holds.
-/

namespace Darkroom

/-! ### Writing -/

/-- A text or `null`. -/
def Json.Document.ofText? : Option String → Json.Document
  | some s => .text s
  | none => .null

/-- A list or `null`. -/
def Json.Document.ofList? : Option (List Json.Document) → Json.Document
  | some items => .list items
  | none => .null

/-- The stored form of the position of a link's end. -/
def Point.document (p : Point) : Json.Document :=
  .record [("first", .number (Json.doubleText p.x)), ("second", .number (Json.doubleText p.y))]

/-- The stored form of a node. -/
def SavedNode.document (node : SavedNode) : Json.Document :=
  .record [("id", .text node.id), ("type", .ofText? node.kind),
    ("x", .number (Json.doubleText node.position.x)),
    ("y", .number (Json.doubleText node.position.y)), ("data", .ofText? node.data)]

/-- The stored form of a link. -/
def SavedLink.document (link : SavedLink) : Json.Document :=
  .record [("id", .text link.id), ("inputNode", .text link.consumer),
    ("outputNode", .text link.producer), ("inputAnchor", .text link.slot),
    ("outputAnchor", .text link.anchor), ("inputAnchorSize", link.inputPosition.document),
    ("outputAnchorSize", link.outputPosition.document)]

/-- The stored form of a graph. -/
def SavedGraph.document (saved : SavedGraph) : Json.Document :=
  .record [("nodes", .ofList? (saved.nodes.map (·.map SavedNode.document))),
    ("links", .ofList? (saved.links.map (·.map SavedLink.document)))]

/-- The text of a stored graph. -/
def SavedGraph.encode (saved : SavedGraph) : String := saved.document.print

/-! ### Reading -/

/-- The members of the position of a link's end read so far. -/
structure PointDraft where
  first : Option Float := none
  second : Option Float := none

/-- The members of the stored position of a link's end. -/
def PointDraft.members : List (Json.Member PointDraft) :=
  [⟨"first", fun d => d.first.isSome, false, fun depth s =>
      (Json.readDouble depth s).map fun (x, r) => (fun d => { d with first := some x }, r)⟩,
    ⟨"second", fun d => d.second.isSome, false, fun depth s =>
      (Json.readDouble depth s).map fun (x, r) => (fun d => { d with second := some x }, r)⟩]

/-- Reads the position of a link's end. -/
def readPoint : Json.Reader Point :=
  Json.readRecord PointDraft.members {} fun d => do return ⟨← d.first, ← d.second⟩

/-- The members of a node read so far. -/
structure NodeDraft where
  id : Option String := none
  kind : Option (Option String) := none
  x : Option Float := none
  y : Option Float := none
  data : Option (Option String) := none

/-- The members of a stored node. -/
def NodeDraft.members : List (Json.Member NodeDraft) :=
  [⟨"id", fun d => d.id.isSome, false, fun depth s =>
      (Json.readText depth s).map fun (x, r) => (fun d => { d with id := some x }, r)⟩,
    ⟨"type", fun d => d.kind.isSome, false, fun depth s =>
      (Json.readOptional Json.readText depth s).map fun (x, r) =>
        (fun d => { d with kind := some x }, r)⟩,
    ⟨"x", fun d => d.x.isSome, true, fun depth s =>
      (Json.readDouble depth s).map fun (x, r) => (fun d => { d with x := some x }, r)⟩,
    ⟨"y", fun d => d.y.isSome, true, fun depth s =>
      (Json.readDouble depth s).map fun (x, r) => (fun d => { d with y := some x }, r)⟩,
    ⟨"data", fun d => d.data.isSome, true, fun depth s =>
      (Json.readOptional Json.readText depth s).map fun (x, r) =>
        (fun d => { d with data := some x }, r)⟩]

/-- The node of a complete draft. -/
def NodeDraft.finish (d : NodeDraft) : Option SavedNode := do
  return ⟨← d.id, d.kind.getD none, ⟨d.x.getD 0.0, d.y.getD 0.0⟩, d.data.getD none⟩

/-- Reads a node. -/
def readSavedNode : Json.Reader SavedNode :=
  Json.readRecord NodeDraft.members {} NodeDraft.finish

/-- The members of a link read so far. -/
structure LinkDraft where
  id : Option String := none
  consumer : Option String := none
  producer : Option String := none
  slot : Option String := none
  anchor : Option String := none
  inputPosition : Option Point := none
  outputPosition : Option Point := none

/-- The members of a stored link. -/
def LinkDraft.members : List (Json.Member LinkDraft) :=
  let text (name : String) (get : LinkDraft → Option String)
      (set : String → LinkDraft → LinkDraft) : Json.Member LinkDraft :=
    ⟨name, fun d => (get d).isSome, false, fun depth s =>
      (Json.readText depth s).map fun (x, r) => (set x, r)⟩
  [text "id" LinkDraft.id fun x d => { d with id := some x },
    text "inputNode" LinkDraft.consumer fun x d => { d with consumer := some x },
    text "outputNode" LinkDraft.producer fun x d => { d with producer := some x },
    text "inputAnchor" LinkDraft.slot fun x d => { d with slot := some x },
    text "outputAnchor" LinkDraft.anchor fun x d => { d with anchor := some x },
    ⟨"inputAnchorSize", fun d => d.inputPosition.isSome, true, fun depth s =>
      (readPoint depth s).map fun (x, r) => (fun d => { d with inputPosition := some x }, r)⟩,
    ⟨"outputAnchorSize", fun d => d.outputPosition.isSome, true, fun depth s =>
      (readPoint depth s).map fun (x, r) => (fun d => { d with outputPosition := some x }, r)⟩]

/-- The link of a complete draft. -/
def LinkDraft.finish (d : LinkDraft) : Option SavedLink := do
  return ⟨← d.id, ← d.consumer, ← d.producer, ← d.slot, ← d.anchor,
    d.inputPosition.getD ⟨0.0, 0.0⟩, d.outputPosition.getD ⟨0.0, 0.0⟩⟩

/-- Reads a link. -/
def readSavedLink : Json.Reader SavedLink :=
  Json.readRecord LinkDraft.members {} LinkDraft.finish

/-- The sections of a graph read so far. -/
structure GraphDraft where
  nodes : Option (Option (List SavedNode)) := none
  links : Option (Option (List SavedLink)) := none

/-- The sections of a stored graph. -/
def GraphDraft.members : List (Json.Member GraphDraft) :=
  [⟨"nodes", fun d => d.nodes.isSome, false, fun depth s =>
      (Json.readOptional (Json.readList readSavedNode) depth s).map fun (x, r) =>
        (fun d => { d with nodes := some x }, r)⟩,
    ⟨"links", fun d => d.links.isSome, false, fun depth s =>
      (Json.readOptional (Json.readList readSavedLink) depth s).map fun (x, r) =>
        (fun d => { d with links := some x }, r)⟩]

/-- Reads a graph. -/
def readSavedGraph : Json.Reader SavedGraph :=
  Json.readRecord GraphDraft.members {} fun d => some ⟨d.nodes.getD none, d.links.getD none⟩

/-- The stored graph that a text holds. -/
def SavedGraph.decode (text : String) : Except Fault SavedGraph :=
  ofJson (Json.readWhole readSavedGraph text)

/-- The graph that a text holds, with the kinds that a registry allows. -/
def Graph.load (text : String) (registry : Registry) : Except Fault Graph := do
  Graph.ofSaved (← SavedGraph.decode text) registry

end Darkroom
