import Darkroom.Graph.Eval
import Darkroom.Proofs.Graph.Compute
import Darkroom.Proofs.Graph.WellFormed
import Mathlib.Data.Finset.Card
import Mathlib.Data.Finset.Dedup

/-!
# Evaluation without a table

The plain description of evaluation is an equation for every node: its value is what its operation
makes of the values of the nodes linked to it (`Graph.Describes`). In a well-formed graph exactly
one assignment of values satisfies it, because fewer nodes feed the producer of a link than its
consumer (`Graph.height`). Evaluation without a table, to any depth above the height of a node, is
that assignment (`Graph.plainEval_eq`).

## Main definitions

* `Graph.height` : how many nodes feed a node.
* `Graph.Describes` : the equations of plain evaluation.

## Main results

* `Graph.WellFormed.induction_along_links` : induction from producers to consumers.
* `Graph.compute_related` : the value of a node follows from the nodes that feed it.
* `Graph.WellFormed.describes_plainEval`, `Graph.plainEval_eq` : the one solution of the equations.
-/

namespace Darkroom

open Relation

namespace Graph

variable {g : Graph} {images : Images}

/-! ### Heights -/

open Classical in
/-- The nodes that feed a node through a chain of links. -/
noncomputable def feeders (g : Graph) (id : String) : Finset String :=
  (g.nodes.map Node.id).toFinset.filter fun other => TransGen g.Feeds other id

theorem mem_feeders {id other : String} :
    other ∈ g.feeders id ↔ other ∈ g.nodes.map Node.id ∧ TransGen g.Feeds other id := by
  simp only [feeders, Finset.mem_filter, List.mem_toFinset]

/-- How many nodes feed a node. -/
noncomputable def height (g : Graph) (id : String) : Nat := (g.feeders id).card

theorem height_lt_maxDepth (g : Graph) (id : String) : g.height id < g.maxDepth := by
  have hsubset : g.feeders id ⊆ (g.nodes.map Node.id).toFinset :=
    fun other hother => List.mem_toFinset.mpr (mem_feeders.mp hother).1
  have hcard : g.height id ≤ _ := Finset.card_le_card hsubset
  have hlength := List.toFinset_card_le (g.nodes.map Node.id)
  rw [List.length_map] at hlength
  simp only [maxDepth]
  omega

/-- The producer of a link is fed by fewer nodes than its consumer, as it does not feed itself. -/
theorem WellFormed.height_lt (h : g.WellFormed) {producer consumer : String}
    (hfeeds : g.Feeds producer consumer) : g.height producer < g.height consumer := by
  have hsubset : g.feeders producer ⊆ g.feeders consumer := by
    intro other hother
    obtain ⟨hmem, hchain⟩ := mem_feeders.mp hother
    exact mem_feeders.mpr ⟨hmem, hchain.tail hfeeds⟩
  have hself : producer ∉ g.feeders producer := fun hmem => h.acyclic _ (mem_feeders.mp hmem).2
  apply Finset.card_lt_card
  rw [Finset.ssubset_iff_of_subset hsubset]
  exact ⟨producer, mem_feeders.mpr ⟨h.mem_nodes_of_feeds hfeeds, .single hfeeds⟩, hself⟩

/-- What holds of a node whenever it holds of the nodes that feed it, holds of every node. -/
theorem WellFormed.induction_along_links (h : g.WellFormed) {motive : Node → Prop}
    (step : ∀ node ∈ g.nodes,
      (∀ producer ∈ g.nodes, g.Feeds producer.id node.id → motive producer) → motive node)
    {node : Node} (hnode : node ∈ g.nodes) : motive node := by
  induction hheight : g.height node.id using Nat.strong_induction_on generalizing node with
  | _ height ih =>
    refine step node hnode fun producer hproducer hfeeds => ?_
    exact ih _ (hheight ▸ h.height_lt hfeeds) hproducer rfl

/-! ### Plain evaluation -/

theorem evaluated_eq_ok_iff {id : String} {node : Node} :
    g.evaluated id = .ok node ↔ g.node? id = some node := by
  rw [evaluated, ← require_eq_ok_iff]
  cases g.require id with
  | ok found => exact ⟨fun h => congrArg _ (Except.ok.inj h), fun h => congrArg _ (Except.ok.inj h)⟩
  | error fault => exact ⟨fun h => (nomatch h), fun h => (nomatch h)⟩

theorem WellFormed.evaluated_eq (h : g.WellFormed) {node : Node} (hnode : node ∈ g.nodes) :
    g.evaluated node.id = .ok node :=
  evaluated_eq_ok_iff.mpr ((node?_eq_some_iff h.nodes_nodup).mpr ⟨hnode, rfl⟩)

section Plain

variable [ImageLibrary]

/-- The equations of plain evaluation: the value of a node is what its operation makes of the
values of the nodes linked to it. -/
def Describes (g : Graph) (images : Images) (value : String → Except Failure Value) : Prop :=
  ∀ id, value id = (do
    let node ← g.evaluated id
    node.compute images (g.input value node))

theorem Describes.eq_compute {value : String → Except Failure Value}
    (hvalue : g.Describes images value) {id : String} {node : Node}
    (hnode : g.evaluated id = .ok node) :
    value id = node.compute images (g.input value node) := by
  rw [hvalue, hnode]
  rfl

section Related

variable {m m' : Type → Type} [Monad m] [MonadExceptOf Failure m] [Monad m']
  [MonadExceptOf Failure m']
variable {R : (α : Type) → m α → m' α → Prop}

omit [ImageLibrary] in
/-- A slot is read by fetching a node that feeds its node. -/
theorem input_related (h : Congruent R) {fetch : String → m Value} {fetch' : String → m' Value}
    {node : Node}
    (hfetch : ∀ producer, g.Feeds producer node.id → R _ (fetch producer) (fetch' producer))
    (index : Nat) : R _ (g.input fetch node index) (g.input fetch' node index) := by
  unfold input
  split
  · exact h.throw _
  · split
    · exact h.throw _
    · next link hlink =>
      have hmem := List.mem_of_find?_eq_some hlink
      have hends := List.find?_some hlink
      simp only [decide_eq_true_eq] at hends
      refine h.bind (hfetch _ ⟨link, hmem, rfl, hends.1⟩) fun value => ?_
      split_ifs
      · exact h.pure _
      · exact h.throw _

/-- The value of a node follows from the values of the nodes that feed it. -/
theorem compute_related (h : Congruent R) {fetch : String → m Value} {fetch' : String → m' Value}
    {id : String} {node : Node} (hnode : g.evaluated id = .ok node)
    (hfetch : ∀ producer, g.Feeds producer id → R _ (fetch producer) (fetch' producer)) :
    R _ (node.compute images (g.input fetch node)) (node.compute images (g.input fetch' node)) := by
  obtain ⟨-, hid⟩ := mem_of_node? (evaluated_eq_ok_iff.mp hnode)
  subst hid
  exact h.compute images fun index _ => input_related h hfetch index

end Related

/-- One level more makes no difference above the height of a node. -/
theorem WellFormed.plainEval_succ (h : g.WellFormed) (images : Images) {depth : Nat} {id : String}
    (hdepth : g.height id < depth) :
    g.plainEval images (depth + 1) id = g.plainEval images depth id := by
  induction depth generalizing id with
  | zero => exact absurd hdepth (Nat.not_lt_zero _)
  | succ depth ih =>
    rw [plainEval, plainEval]
    cases hnode : g.evaluated id with
    | error failure => rfl
    | ok node =>
      refine compute_related .eq hnode fun producer hfeeds => ih ?_
      have hlt := h.height_lt hfeeds
      omega

theorem WellFormed.describes_plainEval (h : g.WellFormed) (images : Images) :
    g.Describes images (g.plainEval images g.maxDepth) := by
  intro id
  rw [maxDepth, plainEval]
  cases hnode : g.evaluated id with
  | error failure => rfl
  | ok node =>
    refine compute_related .eq hnode fun producer hfeeds => (h.plainEval_succ images ?_).symm
    have hlt := h.height_lt hfeeds
    have hmax := g.height_lt_maxDepth id
    simp only [maxDepth] at hmax
    omega

/-- The equations leave no choice for the value of a node. -/
theorem plainEval_eq (h : g.WellFormed) {value : String → Except Failure Value}
    (hvalue : g.Describes images value) {depth : Nat} {id : String}
    (hdepth : g.height id < depth) : g.plainEval images depth id = value id := by
  induction depth generalizing id with
  | zero => exact absurd hdepth (Nat.not_lt_zero _)
  | succ depth ih =>
    rw [plainEval, hvalue id]
    cases hnode : g.evaluated id with
    | error failure => rfl
    | ok node =>
      refine compute_related .eq hnode fun producer hfeeds => ih ?_
      have hlt := h.height_lt hfeeds
      omega

end Plain

end Graph

end Darkroom
