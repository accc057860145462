import Darkroom.Fault
import Darkroom.Graph.Registry

/-!
# Node graphs

A graph of nodes and typed links.  Links are checked when they are made: the producer's output has
the type of the slot, a slot takes at most one link, and no link closes a cycle.  Exactly one node
is the end node, whose input is the result of the graph.

## Main definitions

* `Node`, `Link`, `Graph` : the data.
* `Graph.addNode`, `Graph.create`, `Graph.setData`, `Graph.setPosition`, `Graph.removeNode`,
  `Graph.connect`, `Graph.disconnect` : the edits.
* `Graph.dependsOn`, `Graph.ancestors` : the searches along links.
-/

namespace Darkroom

/-- A position on the editor's canvas. -/
structure Point where
  x : Float
  y : Float
  deriving BEq, Repr, Inhabited

/-- A node of a graph. -/
structure Node where
  id : String
  kind : NodeKind
  position : Point
  data : Option String
  deriving BEq, Repr

/-- A link from the output of a node to a slot of another. -/
structure Link where
  id : String
  producer : String
  consumer : String
  slot : String
  anchor : String
  outputPosition : Point
  inputPosition : Point
  deriving BEq, Repr

/-- Nodes and links in the order in which they were added, and the number that the next identifier
is tried with. -/
structure Graph where
  nodes : List Node
  links : List Link
  nextId : Nat
  deriving BEq, Repr

namespace Graph

/-- The identifier of an end node that the program adds. -/
def endNodeName : String := "endNode"

/-- The end node that the program adds. -/
def endNode : Node := ⟨endNodeName, .endNode, ⟨950.0, 45.0⟩, none⟩

/-- The graph without nodes. -/
def empty : Graph := ⟨[], [], 1⟩

/-- The graph with only the end node. -/
def new : Graph := ⟨[endNode], [], 1⟩

/-- The node with an identifier. -/
def node? (g : Graph) (id : String) : Option Node := g.nodes.find? (·.id = id)

/-- The node with an identifier, which has to be there. -/
def require (g : Graph) (id : String) : Except Fault Node :=
  match g.node? id with
  | some node => .ok node
  | none => .error (.unknownNode id)

/-- The identifier of the end node. -/
def endNodeId? (g : Graph) : Option String := (g.nodes.find? (·.kind = .endNode)).map Node.id

/-! ### Fresh identifiers -/

/-- The identifier with a number after a stem. -/
def numbered (stem : String) (n : Nat) : String := s!"{stem}-{n}"

/-- Whether an identifier belongs to a node or a link. -/
def isTaken (g : Graph) (id : String) : Bool :=
  g.nodes.any (·.id = id) || g.links.any (·.id = id)

/-- The first number from `n` on whose identifier is free.  No more identifiers can be taken than
there are nodes and links, so that number is enough for `fuel`. -/
def firstFree (g : Graph) (stem : String) : (fuel n : Nat) → Nat
  | 0, n => n
  | fuel + 1, n => if g.isTaken (numbered stem n) then g.firstFree stem fuel (n + 1) else n

/-- A free identifier; the number after it is tried first the next time. -/
def freshId (g : Graph) (stem : String) : String × Graph :=
  let n := g.firstFree stem (g.nodes.length + g.links.length) g.nextId
  (numbered stem n, { g with nextId := n + 1 })

/-! ### Searches -/

/-- The nodes that feed a node, in the order of the links. -/
def producers (g : Graph) (id : String) : List String :=
  (g.links.filter (·.consumer = id)).map Link.producer

/-- Searches for `ancestor` from a stack of nodes, against the direction of links.  Every link is
pushed at most once, which bounds the number of steps. -/
def dependsLoop (g : Graph) (ancestor : String) : (fuel : Nat) → (stack seen : List String) → Bool
  | 0, _, _ => false
  | _ + 1, [], _ => false
  | fuel + 1, current :: stack, seen =>
    if current = ancestor then true
    else if seen.contains current then g.dependsLoop ancestor fuel stack seen
    else g.dependsLoop ancestor fuel ((g.producers current).reverse ++ stack) (current :: seen)

/-- Whether `id` is `ancestor` or reads from it through a chain of links. -/
def dependsOn (g : Graph) (id ancestor : String) : Bool :=
  g.dependsLoop ancestor (g.links.length + 2) [id] []

/-- The producers not seen before, each once, and the nodes seen with them. -/
def freshProducers (seen : List String) : List String → List String × List String
  | [] => ([], seen)
  | id :: ids =>
    if seen.contains id then freshProducers seen ids
    else
      let (found, after) := freshProducers (id :: seen) ids
      (id :: found, after)

/-- Collects the nodes that a stack of nodes reads from.  Every node is pushed at most once. -/
def ancestorLoop (g : Graph) : (fuel : Nat) → (stack seen : List String) → List String
  | 0, _, _ => []
  | _ + 1, [], _ => []
  | fuel + 1, current :: stack, seen =>
    let (found, after) := freshProducers seen (g.producers current)
    found ++ g.ancestorLoop fuel (found.reverse ++ stack) after

/-- The nodes that a node reads from, directly or through others, in the order found. -/
def ancestors (g : Graph) (id : String) : List Node :=
  (g.ancestorLoop (g.links.length + 2) [id] []).filterMap g.node?

/-- The image nodes with a file, as pairs of identifier and path. -/
def imageSources (g : Graph) : List (String × String) :=
  g.nodes.filterMap fun node =>
    match node.kind, node.data with
    | .image, some path => if path.isEmpty then none else some (node.id, path)
    | _, _ => none

/-! ### Nodes -/

/-- Where a new node is placed. -/
def newNodePosition : Point := ⟨100.0, 100.0⟩

/-- Adds a node of a kind; a second end node is refused. -/
def addNode (g : Graph) (kind : NodeKind) : Except Fault (String × Graph) :=
  match kind, g.endNodeId? with
  | .endNode, some existing => .error (.duplicateNode existing)
  | _, _ =>
    let (id, g) := g.freshId kind.name.toLower
    .ok (id, { g with nodes := g.nodes ++ [⟨id, kind, newNodePosition, kind.defaultData⟩] })

/-- Adds a given node; its identifier must be free, and it must not be a second end node. -/
def insertNode (g : Graph) (node : Node) : Except Fault Graph :=
  if (g.node? node.id).isSome then .error (.duplicateNode node.id)
  else if node.kind = .endNode ∧ g.endNodeId?.isSome then .error (.duplicateNode node.id)
  else .ok { g with nodes := g.nodes ++ [node] }

/-- Adds a node of the registered kind with a name. -/
def create (g : Graph) (registry : Registry) (name : String) : Except Fault (String × Graph) :=
  match registry.resolve? name with
  | some kind => g.addNode kind
  | none =>
    let known := ", ".intercalate (registry.palette.map NodeKind.name)
    .error (.invalidValue "kind" name s!"Unknown node kind. Known kinds: {known}")

/-- The list with the first node of an identifier changed. -/
def modifyNode (id : String) (change : Node → Node) : List Node → List Node
  | [] => []
  | node :: nodes =>
    if node.id = id then change node :: nodes else node :: modifyNode id change nodes

/-- Sets what a value or image node carries. -/
def setData (g : Graph) (id data : String) : Except Fault Graph := do
  let node ← g.require id
  if node.kind.holdsData then
    return { g with nodes := modifyNode id (fun node => { node with data := some data }) g.nodes }
  else
    let kind := node.kind.name
    .error (.invalidParameter id s!"{kind} nodes take their values from links")

/-- Places a node. -/
def setPosition (g : Graph) (id : String) (position : Point) : Except Fault Graph := do
  let _ ← g.require id
  return { g with nodes := modifyNode id (fun node => { node with position }) g.nodes }

/-- Removes a node and the links at it; the end node stays. -/
def removeNode (g : Graph) (id : String) : Except Fault (Node × Graph) := do
  let node ← g.require id
  if node.kind = .endNode then .error (.protectedNode id)
  else
    return (node, { g with
      nodes := g.nodes.eraseP (·.id = id)
      links := g.links.filter fun link => link.consumer ≠ id ∧ link.producer ≠ id })

/-! ### Links -/

/-- The link into a slot. -/
def linkInto? (g : Graph) (consumer slot : String) : Option Link :=
  g.links.find? fun link => link.consumer = consumer ∧ link.slot = slot

/-- The links without the one into a slot. -/
def withoutLinkInto (g : Graph) (consumer slot : String) : List Link :=
  g.links.eraseP fun link => link.consumer = consumer ∧ link.slot = slot

/-- Removes the link into a slot, if there is one. -/
def disconnect (g : Graph) (consumer slot : String) : Option (Link × Graph) :=
  (g.linkInto? consumer slot).map fun link =>
    (link, { g with links := g.withoutLinkInto consumer slot })

/-- Adds a given link in place of the one into the same slot, if the link is allowed. -/
def insertLink (g : Graph) (link : Link) : Except Fault Graph := do
  let producer ← g.require link.producer
  let consumer ← g.require link.consumer
  match consumer.kind.input? link.slot with
  | none => .error (.unknownSlot consumer.id link.slot)
  | some slot =>
    if producer.kind.output ≠ slot.type then
      .error (.typeMismatch consumer.id slot.name slot.type.name producer.kind.output.name)
    else if g.dependsOn link.producer link.consumer then .error (.cycle link.consumer)
    else if g.links.any (·.id = link.id) then .error (.duplicateNode link.id)
    else return { g with links := g.withoutLinkInto link.consumer link.slot ++ [link] }

/-- The name of the output end of a link. -/
def outputAnchor : String := "outputLinkHandle"

/-- Links a node to a slot of another under a fresh identifier.  The identifier is used up even if
the link is refused. -/
def connect (g : Graph) (producer consumer slot : String) : Except Fault String × Graph :=
  let (id, g) := g.freshId "link"
  match g.insertLink ⟨id, producer, consumer, slot, outputAnchor, ⟨0.0, 0.0⟩, ⟨0.0, 0.0⟩⟩ with
  | .ok linked => (.ok id, linked)
  | .error fault => (.error fault, g)

end Graph

end Darkroom
