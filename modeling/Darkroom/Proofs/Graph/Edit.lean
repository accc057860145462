import Darkroom.Proofs.Fault
import Darkroom.Proofs.Graph.Fresh
import Darkroom.Proofs.Graph.Kind
import Darkroom.Proofs.Graph.Search

/-!
# What an edit of a graph does

One statement for each edit: when it succeeds, and what the graph is then. `insertLink` succeeds
exactly when both ends are nodes, the slot belongs to the consumer and has the type that the
producer gives, the producer does not depend on the consumer, and the identifier is not that of
a link (`Graph.insertLink_eq_ok_iff`).

## Main definitions

* `Graph.kinds` : the identifiers and kinds of nodes.

## Main results

* `Graph.addNode_eq_ok`, `Graph.insertNode_eq_ok_iff`, `Graph.setData_eq_ok`,
  `Graph.setPosition_eq_ok`, `Graph.removeNode_eq_ok` : edits of nodes.
* `Graph.insertLink_eq_ok_iff`, `Graph.connect_eq`, `Graph.mem_withoutLinkInto` : edits of links.
-/

namespace Darkroom.Graph

/-! ### Looking up nodes -/

theorem mem_of_node? {g : Graph} {id : String} {node : Node} (h : g.node? id = some node) :
    node ∈ g.nodes ∧ node.id = id :=
  ⟨List.mem_of_find?_eq_some h, by simpa using List.find?_some h⟩

theorem node?_eq_none_iff {g : Graph} {id : String} :
    g.node? id = none ↔ id ∉ g.nodes.map Node.id := by
  simp only [node?, List.find?_eq_none, decide_eq_true_eq, List.mem_map, not_exists, not_and]

/-- With distinct identifiers, the node with an identifier is any node that has it. -/
theorem node?_eq_some_iff {g : Graph} (hnodup : (g.nodes.map Node.id).Nodup) {id : String}
    {node : Node} : g.node? id = some node ↔ node ∈ g.nodes ∧ node.id = id :=
  find?_key_eq_some_iff Node.id hnodup

theorem require_eq_ok_iff {g : Graph} {id : String} {node : Node} :
    g.require id = .ok node ↔ g.node? id = some node := by
  rw [require]
  cases g.node? id <;> simp

theorem endNodeId?_eq_none_iff {g : Graph} :
    g.endNodeId? = none ↔ g.nodes.countP (·.kind = .endNode) = 0 := by
  simp only [endNodeId?, Option.map_eq_none_iff, List.find?_eq_none, List.countP_eq_zero]

/-! ### Edits of nodes -/

/-- A new node has a fresh identifier and stands last; it is not a second end node. -/
theorem addNode_eq_ok {g g' : Graph} {kind : NodeKind} {id : String}
    (h : g.addNode kind = .ok (id, g')) :
    g.isTaken id = false ∧ (kind = .endNode → g.endNodeId? = none) ∧ g'.links = g.links ∧
      g'.nodes = g.nodes ++ [⟨id, kind, newNodePosition, kind.defaultData⟩] := by
  unfold addNode at h
  split at h
  · exact nomatch h
  · next hend =>
    cases h
    refine ⟨g.freshId_not_taken _, fun hkind => ?_, rfl, rfl⟩
    cases hid : g.endNodeId? with
    | none => rfl
    | some existing => exact absurd hid (hend existing hkind)

theorem create_eq_ok {g g' : Graph} {registry : Registry} {name id : String}
    (h : g.create registry name = .ok (id, g')) : ∃ kind, g.addNode kind = .ok (id, g') := by
  unfold create at h
  split at h
  · next kind _ => exact ⟨kind, h⟩
  · exact nomatch h

/-- A given node is added exactly when its identifier is free and it is not a second end node. -/
theorem insertNode_eq_ok_iff {g g' : Graph} {node : Node} :
    g.insertNode node = .ok g' ↔
      node.id ∉ g.nodes.map Node.id ∧ (node.kind = .endNode → g.endNodeId? = none) ∧
        g' = { g with nodes := g.nodes ++ [node] } := by
  rw [insertNode, ← node?_eq_none_iff]
  split_ifs with hid hend
  · constructor
    · exact fun h => nomatch h
    · rintro ⟨hnone, -⟩
      rw [hnone] at hid
      exact absurd hid Bool.false_ne_true
  · constructor
    · exact fun h => nomatch h
    · rintro ⟨-, hnone, -⟩
      rw [hnone hend.1] at hend
      exact absurd hend.2 Bool.false_ne_true
  · rw [Option.not_isSome_iff_eq_none] at hid
    constructor
    · intro h
      refine ⟨hid, fun hkind => ?_, (Except.ok.inj h).symm⟩
      exact Option.not_isSome_iff_eq_none.mp fun hsome => hend ⟨hkind, hsome⟩
    · rintro ⟨-, -, rfl⟩
      rfl

/-- The identifiers and kinds of nodes, in order: all that links are checked against. -/
def kinds (g : Graph) : List (String × NodeKind) := g.nodes.map fun node => (node.id, node.kind)

/-- Changing the first node of an identifier is not seen in what the change keeps. -/
theorem map_modifyNode {β : Type} (f : Node → β) (change : Node → Node)
    (hkeep : ∀ node, f (change node) = f node) (id : String) (nodes : List Node) :
    (modifyNode id change nodes).map f = nodes.map f := by
  induction nodes with
  | nil => rfl
  | cons node nodes ih =>
    rw [modifyNode]
    split_ifs
    · rw [List.map_cons, List.map_cons, hkeep]
    · rw [List.map_cons, List.map_cons, ih]

theorem mem_modifyNode {change : Node → Node} {id : String} {nodes : List Node} {node : Node}
    (h : node ∈ modifyNode id change nodes) : node ∈ nodes ∨ ∃ old ∈ nodes, node = change old := by
  induction nodes with
  | nil => exact .inl h
  | cons first nodes ih =>
    rw [modifyNode] at h
    split_ifs at h
    · rcases List.mem_cons.mp h with hchanged | hkept
      · exact .inr ⟨first, List.mem_cons_self, hchanged⟩
      · exact .inl (List.mem_cons_of_mem _ hkept)
    · rcases List.mem_cons.mp h with hfirst | hlater
      · exact .inl (hfirst ▸ List.mem_cons_self)
      · rcases ih hlater with hold | ⟨old, hold, hchanged⟩
        · exact .inl (List.mem_cons_of_mem _ hold)
        · exact .inr ⟨old, List.mem_cons_of_mem _ hold, hchanged⟩

theorem exists_mem_modifyNode (change : Node → Node) (id : String) {nodes : List Node} {node : Node}
    (h : node ∈ nodes) : node ∈ modifyNode id change nodes ∨
      node.id = id ∧ change node ∈ modifyNode id change nodes := by
  induction nodes with
  | nil => exact absurd h List.not_mem_nil
  | cons first nodes ih =>
    rw [modifyNode]
    split_ifs with hid
    · rcases List.mem_cons.mp h with rfl | hlater
      · exact .inr ⟨hid, List.mem_cons_self⟩
      · exact .inl (List.mem_cons_of_mem _ hlater)
    · rcases List.mem_cons.mp h with rfl | hlater
      · exact .inl List.mem_cons_self
      · exact (ih hlater).imp (List.mem_cons_of_mem _) fun hchanged =>
          ⟨hchanged.1, List.mem_cons_of_mem _ hchanged.2⟩

theorem setData_eq_ok {g g' : Graph} {id data : String} (h : g.setData id data = .ok g') :
    g' = { g with
      nodes := modifyNode id (fun node => { node with data := some data }) g.nodes } := by
  obtain ⟨node, -, h⟩ := bind_eq_ok_iff.mp h
  split_ifs at h
  exact (Except.ok.inj h).symm

theorem setPosition_eq_ok {g g' : Graph} {id : String} {position : Point}
    (h : g.setPosition id position = .ok g') :
    g' = { g with nodes := modifyNode id (fun node => { node with position }) g.nodes } := by
  obtain ⟨node, -, h⟩ := bind_eq_ok_iff.mp h
  exact (Except.ok.inj h).symm

/-- A removed node is not the end node, and the links at it go with it. -/
theorem removeNode_eq_ok {g g' : Graph} {id : String} {node : Node}
    (h : g.removeNode id = .ok (node, g')) :
    g.node? id = some node ∧ node.kind ≠ .endNode ∧ g'.nodes = g.nodes.eraseP (·.id = id) ∧
      g'.links = g.links.filter fun link => link.consumer ≠ id ∧ link.producer ≠ id := by
  obtain ⟨found, hfound, h⟩ := bind_eq_ok_iff.mp h
  split_ifs at h with hend
  cases h
  exact ⟨require_eq_ok_iff.mp hfound, hend, rfl, rfl⟩

/-! ### Edits of links -/

/-- If no two links lead into one slot, the links without the one into a slot are those into
other slots. -/
theorem mem_withoutLinkInto {g : Graph}
    (hslots : g.links.Pairwise fun a b => ¬ (a.consumer = b.consumer ∧ a.slot = b.slot))
    {consumer slot : String} {link : Link} :
    link ∈ g.withoutLinkInto consumer slot ↔
      link ∈ g.links ∧ ¬ (link.consumer = consumer ∧ link.slot = slot) := by
  by_cases hlink : link.consumer = consumer ∧ link.slot = slot
  · refine ⟨fun hmem => ?_, fun h => absurd hlink h.2⟩
    let into (l : Link) : Bool := l.consumer = consumer ∧ l.slot = slot
    have hp : into link = true := decide_eq_true hlink
    obtain ⟨old, before, after, hbefore, hold, hlinks, herase⟩ :=
      List.exists_of_eraseP (List.mem_of_mem_eraseP hmem) hp
    change link ∈ g.links.eraseP into at hmem
    rw [herase, List.mem_append] at hmem
    rw [hlinks, List.pairwise_append, List.pairwise_cons] at hslots
    rcases hmem with hmem | hmem
    · exact absurd hp (hbefore link hmem)
    · obtain ⟨hconsumer, hslot⟩ := of_decide_eq_true hold
      exact absurd ⟨hconsumer.trans hlink.1.symm, hslot.trans hlink.2.symm⟩
        (hslots.2.1.1 link hmem)
  · rw [withoutLinkInto, List.mem_eraseP_of_neg (by simpa using hlink), and_iff_left hlink]

theorem withoutLinkInto_sublist (g : Graph) (consumer slot : String) :
    (g.withoutLinkInto consumer slot).Sublist g.links :=
  List.eraseP_sublist

/-- A link is added exactly when it joins two nodes at a slot that takes what its producer gives,
the producer does not depend on the consumer, and the identifier is not that of another link. -/
theorem insertLink_eq_ok_iff {g g' : Graph} {link : Link} :
    g.insertLink link = .ok g' ↔
      (∃ producer consumer slot, g.node? link.producer = some producer ∧
        g.node? link.consumer = some consumer ∧ consumer.kind.input? link.slot = some slot ∧
        producer.kind.output = slot.type) ∧
      g.dependsOn link.producer link.consumer = false ∧ link.id ∉ g.links.map Link.id ∧
      g' = { g with links := g.withoutLinkInto link.consumer link.slot ++ [link] } := by
  have hid : (g.links.any (·.id = link.id)) = true ↔ link.id ∈ g.links.map Link.id := by
    simp only [List.any_eq_true, decide_eq_true_eq, List.mem_map]
  rw [insertLink, bind_eq_ok_iff]
  constructor
  · rintro ⟨producer, hproducer, h⟩
    obtain ⟨consumer, hconsumer, h⟩ := bind_eq_ok_iff.mp h
    split at h
    · exact nomatch h
    · next slot hslot =>
      split_ifs at h with htype hcycle hdup
      refine ⟨⟨producer, consumer, slot, require_eq_ok_iff.mp hproducer,
        require_eq_ok_iff.mp hconsumer, hslot, not_not.mp htype⟩,
        Bool.eq_false_iff.mpr hcycle, fun hmem => hdup (hid.mpr hmem), (Except.ok.inj h).symm⟩
  · rintro ⟨⟨producer, consumer, slot, hproducer, hconsumer, hslot, htype⟩, hcycle, hdup, rfl⟩
    refine ⟨producer, require_eq_ok_iff.mpr hproducer, bind_eq_ok_iff.mpr
      ⟨consumer, require_eq_ok_iff.mpr hconsumer, ?_⟩⟩
    simp only [hslot]
    rw [if_neg (not_not.mpr htype), hcycle, if_neg Bool.false_ne_true,
      if_neg fun h => hdup (hid.mp h)]
    rfl

/-- An attempt to link two nodes uses up an identifier, and adds a link without positions if it
succeeds. -/
theorem connect_eq (g : Graph) (producer consumer slot : String) :
    (g.connect producer consumer slot).2 = (g.freshId "link").2 ∨
      (g.freshId "link").2.insertLink ⟨(g.freshId "link").1, producer, consumer, slot,
        outputAnchor, ⟨0.0, 0.0⟩, ⟨0.0, 0.0⟩⟩ = .ok (g.connect producer consumer slot).2 := by
  unfold connect
  dsimp only
  split
  · next linked hlink => exact .inr hlink
  · exact .inl rfl

end Darkroom.Graph
