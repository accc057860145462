import Darkroom.Graph.Saved
import Darkroom.Proofs.Graph.WellFormed

/-!
# Graphs that can be reached

A graph is reachable when it is the new graph or a loaded one, changed by any number of edits
(`Graph.Reachable`). An edit that fails leaves the graph as it was, except that a refused link uses
up an identifier. Loading adds the nodes of a file to the graph without nodes, then an end node
where there is none, and then the links one by one; so a loaded graph is well-formed
(`Graph.WellFormed.ofSaved`), and every edit keeps that (`Graph.WellFormed.apply`).

## Main definitions

* `Graph.Edit`, `Graph.apply` : the edits, and the graph after one of them.
* `Graph.Reachable` : the graphs that edits lead to.

## Main results

* `Graph.Reachable.wellFormed` : every reachable graph is well-formed.
* `Graph.reachable_graph_invariants` : the parts of this.
-/

namespace Darkroom.Graph

variable {g g' : Graph}

/-! ### Loading -/

/-- What holds of the nodes while the nodes of a file are added. -/
structure Loading (g : Graph) : Prop where
  nodes_nodup : (g.nodes.map Node.id).Nodup
  end_le : g.nodes.countP (·.kind = .endNode) ≤ 1
  links_nil : g.links = []

theorem Loading.empty : empty.Loading := ⟨List.nodup_nil, Nat.zero_le 1, rfl⟩

theorem Loading.insertNode (h : g.Loading) {node : Node} (hinsert : g.insertNode node = .ok g') :
    g'.Loading := by
  obtain ⟨hid, hend, rfl⟩ := insertNode_eq_ok_iff.mp hinsert
  refine ⟨?_, ?_, h.links_nil⟩
  · exact nodup_map_append_singleton h.nodes_nodup hid
  · have hle := h.end_le
    rw [List.countP_append, List.countP_singleton]
    split_ifs with hkind
    · have hnone := endNodeId?_eq_none_iff.mp (hend (of_decide_eq_true hkind))
      omega
    · exact hle

theorem Loading.insertNodes (h : g.Loading) {registry : Registry} {saved : List SavedNode}
    (hinsert : insertNodes registry g saved = .ok g') : g'.Loading := by
  induction saved generalizing g with
  | nil => exact Except.ok.inj hinsert ▸ h
  | cons node rest ih =>
    rw [Graph.insertNodes] at hinsert
    split at hinsert
    · exact ih h hinsert
    · obtain ⟨next, hnext, hrest⟩ := bind_eq_ok_iff.mp hinsert
      exact ih (h.insertNode hnext) hrest

/-- With an end node, the nodes of a file make a well-formed graph without links. -/
theorem Loading.ensureEndNode (h : g.Loading) (hensure : g.ensureEndNode = .ok g') :
    g'.WellFormed := by
  have hloading : g'.Loading ∧ g'.nodes.countP (·.kind = .endNode) ≠ 0 := by
    rw [Graph.ensureEndNode] at hensure
    split_ifs at hensure with hend
    · cases hensure
      refine ⟨h, fun hnone => ?_⟩
      rw [endNodeId?_eq_none_iff.mpr hnone] at hend
      exact Bool.false_ne_true hend
    · refine ⟨h.insertNode hensure, ?_⟩
      obtain ⟨-, -, rfl⟩ := insertNode_eq_ok_iff.mp hensure
      rw [List.countP_append, List.countP_singleton]
      exact Nat.succ_ne_zero _
  obtain ⟨⟨hnodup, hle, hnil⟩, hne⟩ := hloading
  refine ⟨hnodup, ?_, by omega, ?_, ?_, ?_⟩
  · rw [hnil]
    exact List.nodup_nil
  · rw [hnil]
    exact fun _ hmem => absurd hmem List.not_mem_nil
  · rw [hnil]
    exact List.Pairwise.nil
  · intro id hcycle
    obtain ⟨_, -, _, hmem, -⟩ := Relation.TransGen.tail'_iff.mp hcycle
    rw [hnil] at hmem
    exact List.not_mem_nil hmem

theorem WellFormed.insertLinks (h : g.WellFormed) {saved : List SavedLink}
    (hinsert : insertLinks g saved = .ok g') : g'.WellFormed := by
  induction saved generalizing g with
  | nil => exact Except.ok.inj hinsert ▸ h
  | cons link rest ih =>
    obtain ⟨next, hnext, hrest⟩ := bind_eq_ok_iff.mp hinsert
    exact ih (h.insertLink hnext) hrest

/-- A loaded graph is well-formed, whatever the file holds. -/
theorem WellFormed.ofSaved {saved : SavedGraph} {registry : Registry}
    (hload : ofSaved saved registry = .ok g) : g.WellFormed := by
  unfold Graph.ofSaved at hload
  split at hload
  · exact nomatch hload
  · exact nomatch hload
  · obtain ⟨nodes, hnodes, hload⟩ := bind_eq_ok_iff.mp hload
    obtain ⟨ended, hended, hlinks⟩ := bind_eq_ok_iff.mp hload
    exact ((Loading.empty.insertNodes hnodes).ensureEndNode hended).insertLinks hlinks

/-! ### Edits in turn -/

/-- An edit of a graph with its arguments; `reload` is storing the graph and loading it again. -/
inductive Edit where
  | addNode (kind : NodeKind)
  | create (registry : Registry) (name : String)
  | setData (id data : String)
  | setPosition (id : String) (position : Point)
  | removeNode (id : String)
  | connect (producer consumer slot : String)
  | disconnect (consumer slot : String)
  | reload (registry : Registry)

/-- The graph after an edit, whether it succeeds or fails. -/
def apply (g : Graph) : Edit → Graph
  | .addNode kind => ((g.addNode kind).toOption.map Prod.snd).getD g
  | .create registry name => ((g.create registry name).toOption.map Prod.snd).getD g
  | .setData id data => (g.setData id data).toOption.getD g
  | .setPosition id position => (g.setPosition id position).toOption.getD g
  | .removeNode id => ((g.removeNode id).toOption.map Prod.snd).getD g
  | .connect producer consumer slot => (g.connect producer consumer slot).2
  | .disconnect consumer slot => ((g.disconnect consumer slot).map Prod.snd).getD g
  | .reload registry => (Graph.ofSaved g.toSaved registry).toOption.getD g

/-- The graphs that edits lead to, from the new graph or from any loaded one. -/
inductive Reachable : Graph → Prop
  | new : Reachable new
  | load {g : Graph} {saved : SavedGraph} {registry : Registry}
      (h : ofSaved saved registry = .ok g) : Reachable g
  | edit {g : Graph} (h : Reachable g) (edit : Edit) : Reachable (g.apply edit)

theorem Reachable.edits (h : g.Reachable) (edits : List Edit) :
    (edits.foldl apply g).Reachable := by
  induction edits generalizing g with
  | nil => exact h
  | cons edit rest ih => exact ih (h.edit edit)

/-- What holds of a graph and of every graph that an edit may give holds after the edit. -/
theorem getD_of_ok {P : Graph → Prop} {x : Except Fault Graph} (hg : P g)
    (hok : ∀ g', x = .ok g' → P g') : P (x.toOption.getD g) := by
  cases x with
  | ok g' => exact hok g' rfl
  | error fault => exact hg

theorem getD_of_ok_snd {P : Graph → Prop} {α : Type} {x : Except Fault (α × Graph)}
    (hg : P g) (hok : ∀ a g', x = .ok (a, g') → P g') : P ((x.toOption.map Prod.snd).getD g) := by
  cases x with
  | ok result => exact hok result.1 result.2 rfl
  | error fault => exact hg

theorem WellFormed.new : new.WellFormed :=
  Loading.empty.ensureEndNode rfl

/-- **Every edit keeps the invariant.** -/
theorem WellFormed.apply (h : g.WellFormed) (edit : Edit) : (g.apply edit).WellFormed := by
  cases edit with
  | addNode kind => exact getD_of_ok_snd h fun _ _ hadd => h.addNode hadd
  | create registry name =>
    refine getD_of_ok_snd h fun _ _ hcreate => ?_
    obtain ⟨kind, hadd⟩ := create_eq_ok hcreate
    exact h.addNode hadd
  | setData id data =>
    refine getD_of_ok h fun _ hset => ?_
    rw [setData_eq_ok hset]
    exact h.modifyNode id fun _ => ⟨rfl, rfl⟩
  | setPosition id position =>
    refine getD_of_ok h fun _ hset => ?_
    rw [setPosition_eq_ok hset]
    exact h.modifyNode id fun _ => ⟨rfl, rfl⟩
  | removeNode id => exact getD_of_ok_snd h fun _ _ hremove => h.removeNode hremove
  | connect producer consumer slot => exact h.connect producer consumer slot
  | disconnect consumer slot =>
    rw [Graph.apply]
    cases hcut : g.disconnect consumer slot with
    | none => exact h
    | some result => exact h.disconnect hcut
  | reload registry => exact getD_of_ok h fun _ hload => .ofSaved hload

theorem Reachable.wellFormed (h : g.Reachable) : g.WellFormed := by
  induction h with
  | new => exact .new
  | load hload => exact .ofSaved hload
  | edit _ edit ih => exact ih.apply edit

/-- **The invariants of graphs.** In every reachable graph the identifiers of nodes are distinct,
and so are those of links; there is exactly one end node; both ends of every link are nodes, and
its slot is an input of its consumer's kind, of the type that its producer's kind gives; no two
links lead into one slot; and no chain of links leads from a node back to it. -/
theorem reachable_graph_invariants (h : g.Reachable) :
    (g.nodes.map Node.id).Nodup ∧ (g.links.map Link.id).Nodup ∧
    g.nodes.countP (·.kind = .endNode) = 1 ∧
    (∀ link ∈ g.links, ∃ producer ∈ g.nodes, ∃ consumer ∈ g.nodes,
      producer.id = link.producer ∧ consumer.id = link.consumer ∧
      ∃ slot, consumer.kind.input? link.slot = some slot ∧ slot.type = producer.kind.output) ∧
    (g.links.Pairwise fun a b => ¬ (a.consumer = b.consumer ∧ a.slot = b.slot)) ∧
    ∀ id, ¬ Relation.TransGen (fun producer consumer =>
      ∃ link ∈ g.links, link.producer = producer ∧ link.consumer = consumer) id id := by
  obtain ⟨hnodes, hlinks, hend, hjoins, hslots, hacyclic⟩ := h.wellFormed
  refine ⟨hnodes, hlinks, hend, fun link hmem => ?_, hslots, hacyclic⟩
  obtain ⟨producer, hproducer, consumer, hconsumer, hpid, hcid, slot, hslot, hname, htype⟩ :=
    hjoins link hmem
  exact ⟨producer, hproducer, consumer, hconsumer, hpid, hcid, slot,
    NodeKind.input?_eq_some_iff.mpr ⟨hslot, hname⟩, htype.symm⟩

/-- An image moved by a number that feeds two slots; the link from the filter to itself is
refused. -/
def shiftFlow : Graph :=
  [Edit.addNode .image, .addNode .int, .addNode .movePixel, .setData "image-1" "photo.png",
    .connect "image-1" "move_pixel-3" "firstLink", .connect "int-2" "move_pixel-3" "secondLink",
    .connect "move_pixel-3" "move_pixel-3" "firstLink",
    .connect "int-2" "move_pixel-3" "thirdLink",
    .connect "move_pixel-3" "endNode" "firstLink"].foldl apply Graph.new

theorem shiftFlow_reachable : shiftFlow.Reachable :=
  Reachable.new.edits _

theorem shiftFlow_invariants :
    shiftFlow.links.length = 4 ∧ (shiftFlow.nodes.map Node.id).Nodup ∧
    shiftFlow.nodes.countP (·.kind = .endNode) = 1 ∧
    ∀ id, ¬ Relation.TransGen (fun producer consumer =>
      ∃ link ∈ shiftFlow.links, link.producer = producer ∧ link.consumer = consumer) id id := by
  obtain ⟨hnodes, -, hend, -, -, hacyclic⟩ := reachable_graph_invariants shiftFlow_reachable
  exact ⟨by decide +kernel, hnodes, hend, hacyclic⟩

end Darkroom.Graph
