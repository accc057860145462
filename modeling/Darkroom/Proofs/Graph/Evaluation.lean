import Darkroom.Proofs.Codec.Library
import Darkroom.Proofs.Graph.Reachable
import Darkroom.Proofs.Graph.Typing

/-!
# Evaluation with a table

Evaluation with a table gives the same, whatever is in the table, as long as every entry is right
(`Memo.Sound`); and it leaves such a table behind even where it fails (`Simulates`). That relation
holds of a computation when it holds of its steps, so the kinds of nodes are not told apart here.
With one table for all nodes, each therefore has the status of its own value, and what is known of
the values of well-formed graphs is known of evaluation. Where a node breaks off, no status is
shown.

## Main definitions

* `Memo.Sound`, `Simulates` : right tables, and computations that keep them right.
* `Graph.shown` : what is shown next to the nodes.

## Main results

* `Graph.eval_simulates` : evaluation with a right table gives the plain value.
* `Graph.evaluate_eq_plain` : evaluation and the status of nodes are those of plain evaluation.
-/

namespace Darkroom

/-! ### Evaluation with a table -/

/-- Whether every entry of a table is the value of its node. -/
def Memo.Sound (memo : Memo) (value : String → Except Failure Value) : Prop :=
  ∀ id found, memo.lookup id = some found → value id = .ok found

theorem Memo.Sound.nil {value : String → Except Failure Value} : Memo.Sound [] value :=
  fun _ _ hlookup => nomatch hlookup

theorem Memo.Sound.cons {value : String → Except Failure Value} {memo : Memo}
    (h : memo.Sound value) {id : String} {found : Value} (hfound : value id = .ok found) :
    Memo.Sound ((id, found) :: memo) value := by
  intro other result hlookup
  by_cases hid : other = id
  · rw [hid, List.lookup_cons_self] at hlookup
    rw [hid, hfound, Option.some.inj hlookup]
  · rw [List.lookup_cons, beq_false_of_ne hid] at hlookup
    exact h other result hlookup

theorem Evaluation.run_bind_of_ok {α β : Type} {x : Evaluation α} {f : α → Evaluation β}
    {memo after : Memo} {a : α} (hrun : x.run.run memo = (.ok a, after)) :
    (x >>= f).run.run memo = (f a).run.run after := by
  rw [ExceptT.run_bind, StateT.run_bind, hrun]
  rfl

theorem Evaluation.run_bind_of_error {α β : Type} {x : Evaluation α} {f : α → Evaluation β}
    {memo after : Memo} {failure : Failure} (hrun : x.run.run memo = (.error failure, after)) :
    (x >>= f).run.run memo = (.error failure, after) := by
  rw [ExceptT.run_bind, StateT.run_bind, hrun]
  rfl

/-- Whether a computation on right tables has a given result and leaves a right table behind, be
the result a value or a failure. -/
def Simulates (value : String → Except Failure Value) (α : Type) (x : Evaluation α)
    (result : Except Failure α) : Prop :=
  ∀ memo : Memo, memo.Sound value →
    (x.run.run memo).1 = result ∧ Memo.Sound (x.run.run memo).2 value

theorem Simulates.congruent (value : String → Except Failure Value) :
    Congruent (Simulates value) where
  pure _ _ hmemo := ⟨rfl, hmemo⟩
  throw _ _ hmemo := ⟨rfl, hmemo⟩
  bind {α β x y f f'} hx hf memo hmemo := by
    obtain ⟨hresult, hafter⟩ := hx memo hmemo
    cases hrun : x.run.run memo with
    | mk result after =>
      rw [hrun] at hresult hafter
      subst hresult
      cases result with
      | ok a =>
        rw [Evaluation.run_bind_of_ok hrun]
        exact hf a after hafter
      | error failure =>
        rw [Evaluation.run_bind_of_error hrun]
        exact ⟨rfl, hafter⟩

namespace Graph

section Evaluation

variable [ImageLibrary] {g : Graph} {images : Images} {value : String → Except Failure Value}

/-- **Evaluation with a right table gives the plain value**, and the table stays right. -/
theorem eval_simulates (h : g.WellFormed) (hvalue : g.Describes images value) {depth : Nat}
    {id : String} (hdepth : g.height id < depth) :
    Simulates value _ (g.eval images depth id) (value id) := by
  induction depth generalizing id with
  | zero => exact absurd hdepth (Nat.not_lt_zero _)
  | succ depth ih =>
    intro memo hmemo
    rw [eval, Evaluation.run_bind_of_ok (x := get) rfl]
    cases hlookup : memo.lookup id with
    | some found => exact ⟨(hmemo id found hlookup).symm, hmemo⟩
    | none =>
      have hid := hvalue id
      cases hnode : g.evaluated id with
      | error failure =>
        rw [hnode] at hid
        exact ⟨hid.symm, hmemo⟩
      | ok node =>
        rw [hnode] at hid
        have hcompute : Simulates value _ (node.compute images (g.input (g.eval images depth) node))
            (value id) := by
          rw [hid]
          refine compute_related (Simulates.congruent value) hnode fun producer hfeeds => ih ?_
          have hlt := h.height_lt hfeeds
          omega
        obtain ⟨hresult, hafter⟩ := hcompute memo hmemo
        dsimp only
        rw [Evaluation.run_bind_of_ok (x := Failure.lift (.ok node)) rfl]
        cases hrun : (node.compute images (g.input (g.eval images depth) node)).run.run memo with
        | mk result after =>
          rw [hrun] at hresult hafter
          cases result with
          | ok found =>
            rw [Evaluation.run_bind_of_ok hrun]
            exact ⟨hresult, hafter.cons hresult.symm⟩
          | error failure =>
            rw [Evaluation.run_bind_of_error hrun]
            exact ⟨hresult, hafter⟩

/-! ### The values and the status of nodes -/

theorem WellFormed.evaluate_eq (h : g.WellFormed) (hvalue : g.Describes images value)
    (id : String) : g.evaluate id images = value id :=
  (eval_simulates h hvalue (g.height_lt_maxDepth id) [] .nil).1

theorem WellFormed.describes_evaluate (h : g.WellFormed) (images : Images) :
    g.Describes images fun id => g.evaluate id images := by
  have hplain := h.describes_plainEval images
  rwa [← funext (h.evaluate_eq hplain)] at hplain

/-- The status of the nodes that are left, from any table that is right so far. -/
theorem statusFrom_eq (h : g.WellFormed) (hvalue : g.Describes images value) {memo : Memo}
    (hmemo : memo.Sound value) (nodes : List Node) :
    g.statusFrom images memo nodes = nodes.mapM fun node => statusOf node (value node.id) := by
  induction nodes generalizing memo with
  | nil => rfl
  | cons node nodes ih =>
    obtain ⟨hresult, hafter⟩ :=
      eval_simulates h hvalue (g.height_lt_maxDepth node.id) memo hmemo
    rw [statusFrom, List.mapM_cons, ← hresult, ← ih hafter]
    rfl

theorem WellFormed.status_eq (h : g.WellFormed) (images : Images) :
    g.status images = g.nodes.mapM fun node => statusOf node (g.evaluate node.id images) :=
  statusFrom_eq h (h.describes_evaluate images) .nil g.nodes

/-- The status of the nodes as far as it is shown: nothing is where one of them breaks off. -/
def shown (g : Graph) (images : Images) : List NodeStatus := (g.status images).toOption.getD []

theorem exists_of_mem_shown {entry : NodeStatus} (h : entry ∈ g.shown images) :
    ∃ statuses, g.status images = .ok statuses ∧ g.shown images = statuses := by
  rw [shown] at h ⊢
  cases hstatus : g.status images with
  | ok statuses => exact ⟨statuses, rfl, rfl⟩
  | error cause =>
    rw [hstatus] at h
    exact absurd h List.not_mem_nil

/-- What is shown next to a node is the status of its own value, and so it is for every node if it
is for one. -/
theorem WellFormed.mem_shown_iff (h : g.WellFormed) {entry : NodeStatus}
    (hentry : entry ∈ g.shown images) {other : NodeStatus} :
    other ∈ g.shown images ↔ ∃ node ∈ g.nodes, node.id = other.id ∧ node.kind = other.kind ∧
      stateOf (g.evaluate node.id images) = .ok other.state := by
  obtain ⟨statuses, hstatus, hshown⟩ := exists_of_mem_shown hentry
  rw [h.status_eq] at hstatus
  rw [hshown, mem_mapM_iff hstatus]
  refine exists_congr fun node => and_congr_right fun _ => ?_
  rw [statusOf]
  cases stateOf (g.evaluate node.id images) with
  | error cause => simp [Except.map]
  | ok state =>
    obtain ⟨id, kind, otherState⟩ := other
    simp [Except.map]

/-! ### The end node -/

/-- The image that arrives at the end node is rendered, and its failures are passed on. -/
theorem WellFormed.render_eq (h : g.WellFormed) (images : Images) {node : Node}
    (hnode : node ∈ g.nodes) (hkind : node.kind = .endNode) :
    (g.render images).map Value.image = g.evaluate node.id images := by
  have hyields := (h.describes_evaluate images).yields h hnode
  rw [hkind] at hyields
  rw [render, h.endNodeId?_eq hnode hkind]
  cases hresult : g.evaluate node.id images with
  | error failure => simp only [hresult, Except.map]
  | ok found =>
    rw [hresult] at hyields
    cases found with
    | image raster => simp only [hresult, Except.map]
    | _ => exact nomatch hyields

/-! ### Reachable graphs -/

/-- **Evaluation with a table is plain evaluation.** In a reachable graph the value of every node is
that of evaluation without a table to any depth from `maxDepth` on, and it is the one solution of
the equations of plain evaluation. With one table for all of them, every node has the status of its
own value, each once and in order, unless one of them breaks off; and the end node is ready exactly
when an image is rendered. -/
theorem evaluate_eq_plain (h : g.Reachable) (images : Images) :
    (∀ id depth, g.maxDepth ≤ depth → g.evaluate id images = g.plainEval images depth id) ∧
    (∀ value, g.Describes images value ↔ ∀ id, g.evaluate id images = value id) ∧
    g.status images =
      (g.nodes.mapM fun node => statusOf node (g.evaluate node.id images)) ∧
    (g.nodes.map Node.id).Nodup ∧
    ∀ entry ∈ g.shown images, entry.kind = .endNode →
      ((∃ type, entry.state = .ready type) ↔ ∃ raster, g.render images = .ok raster) := by
  have hg := h.wellFormed
  have hvalue := hg.describes_evaluate images
  refine ⟨fun id depth hdepth => ?_, fun value => ⟨hg.evaluate_eq, fun heq => ?_⟩,
    hg.status_eq images, hg.nodes_nodup, fun entry hentry hkind => ?_⟩
  · exact (plainEval_eq hg hvalue (Nat.lt_of_lt_of_le (g.height_lt_maxDepth id) hdepth)).symm
  · rwa [funext heq] at hvalue
  · obtain ⟨node, hnode, -, hsame, hstate⟩ := (hg.mem_shown_iff hentry).mp hentry
    rw [← hg.render_eq images hnode (hsame.trans hkind)] at hstate
    cases hrender : g.render images with
    | ok raster =>
      rw [hrender] at hstate
      exact ⟨fun _ => ⟨raster, rfl⟩, fun _ => ⟨_, (Except.ok.inj hstate).symm⟩⟩
    | error failure =>
      rw [hrender] at hstate
      refine ⟨fun ⟨type, hready⟩ => ?_, fun ⟨raster, hok⟩ => nomatch hok⟩
      rw [hready] at hstate
      rcases failure with fault | cause
      · cases fault <;> exact nomatch hstate
      · exact nomatch hstate

end Evaluation

/-- A picture of one pixel for the image node of `shiftFlow`. -/
def onePixel : Images := [("image-1", Raster.ofFn 1 1 fun _ _ => ⟨0, 0, 0⟩)]

theorem shiftFlow_renders :
    shiftFlow.evaluate "endNode" onePixel = shiftFlow.plainEval onePixel 5 "endNode" ∧
      ∃ raster, shiftFlow.render onePixel = .ok raster := by
  obtain ⟨hplain, -, -, -, hready⟩ := evaluate_eq_plain shiftFlow_reachable onePixel
  have hentry : ⟨"endNode", .endNode, .ready .image⟩ ∈ shiftFlow.shown onePixel := by
    decide +kernel
  exact ⟨hplain _ _ (by decide +kernel), (hready _ hentry rfl).mp ⟨.image, rfl⟩⟩

end Graph

end Darkroom
