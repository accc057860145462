import Darkroom.Graph.Value

/-!
# Evaluation

The value of a node follows from the values on its slots, which follow from the nodes linked to
them.  Values found once are kept in a table, so that a node that feeds several others is computed
once.  Evaluation without a table has the same results and is the shorter description.  An operation
that breaks off takes the whole evaluation with it.

## Main definitions

* `Graph.input` : the value on a slot of a node.
* `Graph.plainEval` : evaluation without a table.
* `Graph.eval`, `Graph.evaluate` : evaluation with a table.
* `Graph.render` : the image that arrives at the end node.
* `Graph.status` : what every node evaluates to.
-/

namespace Darkroom

open Numeric (WordFault)

/-- Values found so far, by node. -/
abbrev Memo := List (String × Value)

/-- A computation that may fail and keeps the values it found, even if it fails. -/
abbrev Evaluation (α : Type) := ExceptT Failure (StateM Memo) α

/-- What a node evaluates to, as shown next to it. -/
inductive NodeState where
  | ready (type : ValueType)
  | missing (slot : String)
  | invalid (reason : String)
  deriving DecidableEq, Repr

/-- A node with what it evaluates to. -/
structure NodeStatus where
  id : String
  kind : NodeKind
  state : NodeState
  deriving DecidableEq, Repr

namespace Graph

/-- The value on a slot of a node, given by its position among the inputs of the node's kind, where
`fetch` gives the values of linked nodes. -/
def input {m : Type → Type} [Monad m] [MonadExceptOf Failure m] (g : Graph)
    (fetch : String → m Value) (node : Node) (index : Nat) : m Value :=
  match node.kind.inputs[index]? with
  | none => throw (.fault (.unknownSlot node.id (toString index)))
  | some slot =>
    match g.linkInto? node.id slot.name with
    | none => throw (.fault (.missingInput node.id slot.name))
    | some link => do
      let value ← fetch link.producer
      if value.type = slot.type then pure value
      else throw (.fault (.typeMismatch node.id slot.name slot.type.name value.type.name))

/-- The node that is to be evaluated. -/
def evaluated (g : Graph) (id : String) : Except Failure Node := (g.require id).mapError .fault

/-- A chain of links visits no node twice, so it is never deeper than there are nodes; one more
level answers for an unknown node. -/
def maxDepth (g : Graph) : Nat := g.nodes.length + 1

section Evaluation

variable [ImageLibrary]

/-- Evaluation without a table, at most `depth` nodes deep. -/
def plainEval (g : Graph) (images : Images) : (depth : Nat) → String → Except Failure Value
  | 0, id => .error (.fault (.cycle id))
  | depth + 1, id => do
    let node ← g.evaluated id
    node.compute images (g.input (g.plainEval images depth) node)

/-- Evaluation with a table, at most `depth` nodes deep. -/
def eval (g : Graph) (images : Images) : (depth : Nat) → String → Evaluation Value
  | 0, id => throw (.fault (.cycle id))
  | depth + 1, id => do
    match (← get).lookup id with
    | some value => pure value
    | none =>
      let node ← Failure.lift (g.evaluated id)
      let value ← node.compute images (g.input (g.eval images depth) node)
      modify fun memo => (id, value) :: memo
      pure value

/-- The value of a node. -/
def evaluate (g : Graph) (id : String) (images : Images) : Except Failure Value :=
  ((g.eval images g.maxDepth id).run.run []).1

/-- The image that arrives at the end node. -/
def render (g : Graph) (images : Images) : Except Failure (Raster Rgb) :=
  match g.endNodeId? with
  | none => .error (.fault (.unknownNode endNodeName))
  | some id =>
    match g.evaluate id images with
    | .ok (.image raster) => .ok raster
    | .ok other =>
      .error (.fault (.typeMismatch id imageSlot.name imageSlot.type.name other.type.name))
    | .error failure => .error failure

/-- How a result is shown. There is nothing to show where evaluation breaks off. -/
def stateOf : Except Failure Value → Except WordFault NodeState
  | .ok value => .ok (.ready value.type)
  | .error (.fault (.missingInput _ slot)) => .ok (.missing slot)
  | .error (.fault fault) => .ok (.invalid fault.message)
  | .error (.broken cause) => .error cause

/-- The status of a node that has a result. -/
def statusOf (node : Node) (result : Except Failure Value) : Except WordFault NodeStatus :=
  (stateOf result).map fun state => ⟨node.id, node.kind, state⟩

/-- What nodes evaluate to, with one table for all of them. -/
def statusFrom (g : Graph) (images : Images) (memo : Memo) :
    List Node → Except WordFault (List NodeStatus)
  | [] => .ok []
  | node :: nodes => do
    let (result, memo) := (g.eval images g.maxDepth node.id).run.run memo
    let status ← statusOf node result
    return status :: (← g.statusFrom images memo nodes)

/-- What every node evaluates to; nothing is shown where one of them breaks off. -/
def status (g : Graph) (images : Images) : Except WordFault (List NodeStatus) :=
  g.statusFrom images [] g.nodes

end Evaluation

end Graph

end Darkroom
