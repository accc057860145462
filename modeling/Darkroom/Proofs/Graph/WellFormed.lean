import Darkroom.Proofs.Graph.Edit
import Mathlib.Data.List.Pairwise

/-!
# Well-formed graphs

Identifiers are distinct, there is exactly one end node, every link joins two nodes at a slot that
takes what its producer gives, no slot takes two links, and no chain of links is closed
(`Graph.WellFormed`). Each edit keeps this. The link that an edit adds closes no chain, since the
search along links finds every chain (`Graph.dependsOn_iff`).

## Main definitions

* `Graph.Joins`, `Graph.WellFormed` : the invariant of graphs.

## Main results

* `Graph.WellFormed.addNode`, `Graph.WellFormed.of_kinds_eq`, `Graph.WellFormed.removeNode`,
  `Graph.WellFormed.insertLink`, `Graph.WellFormed.disconnect` : the edits keep it.
-/

namespace Darkroom.Graph

/-- Whether a link joins two nodes of a graph, at a slot of its consumer that takes values of the
type that its producer gives. -/
def Joins (g : Graph) (link : Link) : Prop :=
  ∃ producer ∈ g.nodes, ∃ consumer ∈ g.nodes,
    producer.id = link.producer ∧ consumer.id = link.consumer ∧
      ∃ slot ∈ consumer.kind.inputs, slot.name = link.slot ∧ producer.kind.output = slot.type

/-- What holds of every graph that can be built. -/
structure WellFormed (g : Graph) : Prop where
  nodes_nodup : (g.nodes.map Node.id).Nodup
  links_nodup : (g.links.map Link.id).Nodup
  one_end : g.nodes.countP (·.kind = .endNode) = 1
  joins : ∀ link ∈ g.links, g.Joins link
  one_link : g.links.Pairwise fun a b => ¬ (a.consumer = b.consumer ∧ a.slot = b.slot)
  acyclic : g.Acyclic

variable {g g' : Graph}

theorem Joins.mono {link : Link} (h : g.Joins link)
    (hnodes : ∀ node ∈ g.nodes, node.id = link.producer ∨ node.id = link.consumer →
      ∃ node' ∈ g'.nodes, node'.id = node.id ∧ node'.kind = node.kind) : g'.Joins link := by
  obtain ⟨producer, hproducer, consumer, hconsumer, hpid, hcid, hslot⟩ := h
  obtain ⟨producer', hproducer', hpid', hpkind⟩ := hnodes producer hproducer (.inl hpid)
  obtain ⟨consumer', hconsumer', hcid', hckind⟩ := hnodes consumer hconsumer (.inr hcid)
  refine ⟨producer', hproducer', consumer', hconsumer', hpid'.trans hpid, hcid'.trans hcid, ?_⟩
  rwa [hpkind, hckind]

theorem linkInto?_eq_none_iff {consumer slot : String} :
    g.linkInto? consumer slot = none ↔
      ∀ link ∈ g.links, ¬ (link.consumer = consumer ∧ link.slot = slot) := by
  simp only [linkInto?, List.find?_eq_none, decide_eq_true_eq]

namespace WellFormed

/-! ### Nodes and the ends of links -/

/-- As no slot takes two links, the link into a slot is any link that leads there. -/
theorem linkInto?_eq_some_iff (h : g.WellFormed) {consumer slot : String} {link : Link} :
    g.linkInto? consumer slot = some link ↔
      link ∈ g.links ∧ link.consumer = consumer ∧ link.slot = slot := by
  have hends {found : Link} (hfound : g.linkInto? consumer slot = some found) :
      found ∈ g.links ∧ found.consumer = consumer ∧ found.slot = slot :=
    ⟨List.mem_of_find?_eq_some hfound, by simpa using List.find?_some hfound⟩
  refine ⟨hends, fun ⟨hlink, hinto⟩ => ?_⟩
  cases hfound : g.linkInto? consumer slot with
  | none => exact absurd hinto (linkInto?_eq_none_iff.mp hfound link hlink)
  | some found =>
    obtain ⟨hfound, hconsumer, hslot⟩ := hends hfound
    have : Std.Symm fun a b : Link => ¬ (a.consumer = b.consumer ∧ a.slot = b.slot) :=
      ⟨fun _ _ hne heq => hne ⟨heq.1.symm, heq.2.symm⟩⟩
    by_contra hne
    refine h.one_link.forall hfound hlink (fun heq => hne (congrArg some heq)) ?_
    exact ⟨hconsumer.trans hinto.1.symm, hslot.trans hinto.2.symm⟩

theorem mem_nodes_of_feeds (h : g.WellFormed) {producer consumer : String}
    (hfeeds : g.Feeds producer consumer) : producer ∈ g.nodes.map Node.id := by
  obtain ⟨link, hlink, rfl, -⟩ := hfeeds
  obtain ⟨node, hnode, -, -, hid, -⟩ := h.joins link hlink
  exact hid ▸ List.mem_map_of_mem hnode

/-! ### The end node -/

theorem exists_endNode (h : g.WellFormed) : ∃ node ∈ g.nodes, node.kind = .endNode := by
  have hpos : 0 < g.nodes.countP (·.kind = .endNode) := by
    rw [h.one_end]
    exact Nat.one_pos
  simpa using List.countP_pos_iff.mp hpos

/-- The end node is found, as there is no other. -/
theorem endNodeId?_eq (h : g.WellFormed) {node : Node} (hnode : node ∈ g.nodes)
    (hkind : node.kind = .endNode) : g.endNodeId? = some node.id := by
  have hone := h.one_end
  rw [List.countP_eq_length_filter, List.length_eq_one_iff] at hone
  obtain ⟨only, honly⟩ := hone
  have heq {other : Node} (hmem : other ∈ g.nodes) (hend : other.kind = .endNode) :
      other = only := by
    have hfilter : other ∈ g.nodes.filter (·.kind = .endNode) :=
      List.mem_filter.mpr ⟨hmem, decide_eq_true hend⟩
    rw [honly] at hfilter
    exact List.mem_singleton.mp hfilter
  cases hfound : g.nodes.find? (·.kind = .endNode) with
  | none =>
    rw [List.find?_eq_none] at hfound
    exact absurd (decide_eq_true hkind) (hfound node hnode)
  | some found =>
    have hend : found.kind = .endNode := by simpa using List.find?_some hfound
    rw [endNodeId?, hfound, heq (List.mem_of_find?_eq_some hfound) hend, heq hnode hkind]
    rfl

/-! ### Edits of nodes -/

/-- The invariant is about the identifiers and kinds of nodes and about links. -/
theorem of_kinds_eq (h : g.WellFormed) (hlinks : g'.links = g.links) (hkinds : g'.kinds = g.kinds) :
    g'.WellFormed where
  nodes_nodup := by
    have hids : g'.nodes.map Node.id = g.nodes.map Node.id := by
      simpa only [kinds, List.map_map, Function.comp_def] using
        congrArg (List.map Prod.fst) hkinds
    exact hids ▸ h.nodes_nodup
  links_nodup := hlinks ▸ h.links_nodup
  one_end := by
    have hends := congrArg (List.countP fun entry : String × NodeKind => entry.2 = .endNode) hkinds
    simp only [kinds, List.countP_map] at hends
    exact hends.trans h.one_end
  joins := by
    intro link hmem
    refine (h.joins link (hlinks ▸ hmem)).mono fun node hnode _ => ?_
    have hentry : (node.id, node.kind) ∈ g'.kinds :=
      hkinds ▸ List.mem_map_of_mem (f := fun node : Node => (node.id, node.kind)) hnode
    obtain ⟨node', hnode', heq⟩ := List.mem_map.mp hentry
    exact ⟨node', hnode', congrArg Prod.fst heq, congrArg Prod.snd heq⟩
  one_link := hlinks ▸ h.one_link
  acyclic := h.acyclic.of_links_eq hlinks

/-- Changing a node in anything but its identifier and kind. -/
theorem modifyNode (h : g.WellFormed) (id : String) {change : Node → Node}
    (hkeep : ∀ node, (change node).id = node.id ∧ (change node).kind = node.kind) :
    WellFormed { g with nodes := Graph.modifyNode id change g.nodes } := by
  refine h.of_kinds_eq rfl (map_modifyNode _ change (fun node => ?_) id g.nodes)
  rw [(hkeep node).1, (hkeep node).2]

theorem addNode (h : g.WellFormed) {kind : NodeKind} {id : String}
    (hadd : g.addNode kind = .ok (id, g')) : g'.WellFormed := by
  obtain ⟨hfree, hend, hlinks, hnodes⟩ := addNode_eq_ok hadd
  have hnotEnd : kind ≠ .endNode := by
    intro hkind
    obtain ⟨old, hold, holdKind⟩ := h.exists_endNode
    have hfound := h.endNodeId?_eq hold holdKind
    rw [hend hkind] at hfound
    exact nomatch hfound
  refine ⟨?_, hlinks ▸ h.links_nodup, ?_, fun link hmem => ?_, hlinks ▸ h.one_link,
    h.acyclic.of_links_eq hlinks⟩
  · have hfresh : id ∉ g.nodes.map Node.id := (isTaken_eq_false_iff.mp hfree).1
    rw [hnodes]
    exact nodup_map_append_singleton h.nodes_nodup hfresh
  · rw [hnodes, List.countP_append, h.one_end, List.countP_singleton, decide_eq_false hnotEnd]
    rfl
  · refine (h.joins link (hlinks ▸ hmem)).mono fun old hold _ => ⟨old, ?_, rfl, rfl⟩
    rw [hnodes]
    exact List.mem_append_left _ hold

/-- Leaving out links, and nodes that none of the other links has at its ends. -/
theorem restrict (h : g.WellFormed) (hnodes : g'.nodes.Sublist g.nodes)
    (hend : g'.nodes.countP (·.kind = .endNode) = 1) (hlinks : g'.links.Sublist g.links)
    (hkeep : ∀ link ∈ g'.links, ∀ node ∈ g.nodes,
      node.id = link.producer ∨ node.id = link.consumer → node ∈ g'.nodes) : g'.WellFormed where
  nodes_nodup := h.nodes_nodup.sublist (hnodes.map Node.id)
  links_nodup := h.links_nodup.sublist (hlinks.map Link.id)
  one_end := hend
  joins link hmem := (h.joins link (hlinks.subset hmem)).mono fun node hnode hends =>
    ⟨node, hkeep link hmem node hnode hends, rfl, rfl⟩
  one_link := h.one_link.sublist hlinks
  acyclic := h.acyclic.mono fun _ hmem => hlinks.subset hmem

theorem removeNode (h : g.WellFormed) {id : String} {node : Node}
    (hremove : g.removeNode id = .ok (node, g')) : g'.WellFormed := by
  obtain ⟨hnode, hkind, hnodes, hlinks⟩ := removeNode_eq_ok hremove
  refine h.restrict (hnodes ▸ List.eraseP_sublist) ?_ (hlinks ▸ List.filter_sublist) ?_
  · -- The node that goes is the first with its identifier, and it is not the end node.
    obtain ⟨hp, before, after, hsplit, hbefore⟩ := List.find?_eq_some_iff_append.mp hnode
    have herase : g'.nodes = before ++ after := by
      rw [hnodes, hsplit, List.eraseP_append_right _ (fun b hb => by simpa using hbefore b hb)]
      exact congrArg (before ++ ·) (List.eraseP_cons_of_pos hp)
    have hcount := h.one_end
    rwa [hsplit, List.countP_append, List.countP_cons_of_neg (by simpa using hkind),
      ← List.countP_append, ← herase] at hcount
  · intro link hmem other hother hends
    rw [hlinks, List.mem_filter, decide_eq_true_eq] at hmem
    have hne : other.id ≠ id := by
      rcases hends with hproducer | hconsumer
      · exact hproducer ▸ hmem.2.2
      · exact hconsumer ▸ hmem.2.1
    rw [hnodes, List.mem_eraseP_of_neg (by simpa using hne)]
    exact hother

/-! ### Edits of links -/

theorem disconnect (h : g.WellFormed) {consumer slot : String} {link : Link}
    (hcut : g.disconnect consumer slot = some (link, g')) : g'.WellFormed := by
  obtain ⟨found, -, heq⟩ := Option.map_eq_some_iff.mp hcut
  obtain ⟨-, rfl⟩ := Prod.mk.inj heq
  exact h.restrict (List.Sublist.refl _) h.one_end (g.withoutLinkInto_sublist consumer slot)
    fun _ _ node hnode _ => hnode

theorem insertLink (h : g.WellFormed) {link : Link} (hlink : g.insertLink link = .ok g') :
    g'.WellFormed := by
  obtain ⟨⟨producer, consumer, slot, hproducer, hconsumer, hslot, htype⟩, hindep, hid, rfl⟩ :=
    insertLink_eq_ok_iff.mp hlink
  have hsub := g.withoutLinkInto_sublist link.consumer link.slot
  refine ⟨h.nodes_nodup, ?_, h.one_end, fun l hmem => ?_, ?_, ?_⟩
  · have hfree : link.id ∉ (g.withoutLinkInto link.consumer link.slot).map Link.id := fun hmem =>
      hid ((hsub.map Link.id).subset hmem)
    exact nodup_map_append_singleton (h.links_nodup.sublist (hsub.map Link.id)) hfree
  · rcases List.mem_append.mp hmem with hold | hnew
    · exact h.joins l (hsub.subset hold)
    · rw [List.mem_singleton.mp hnew]
      obtain ⟨hproducer, hpid⟩ := mem_of_node? hproducer
      obtain ⟨hconsumer, hcid⟩ := mem_of_node? hconsumer
      obtain ⟨hslot, hname⟩ := NodeKind.input?_eq_some_iff.mp hslot
      exact ⟨producer, hproducer, consumer, hconsumer, hpid, hcid, slot, hslot, hname, htype⟩
  · rw [List.pairwise_append]
    refine ⟨h.one_link.sublist hsub, List.pairwise_singleton _ _, fun old hold new hnew => ?_⟩
    rw [List.mem_singleton.mp hnew]
    exact ((mem_withoutLinkInto h.one_link).mp hold).2
  · refine h.acyclic.insert link (fun l hmem => ?_) fun hchain => ?_
    · rcases List.mem_append.mp hmem with hold | hnew
      · exact .inl (hsub.subset hold)
      · exact .inr (List.mem_singleton.mp hnew)
    · rw [(g.dependsOn_iff link.producer link.consumer).mpr hchain] at hindep
      exact Bool.false_ne_true hindep.symm

/-- An attempt to link two nodes, whether it succeeds or only uses up an identifier. -/
theorem connect (h : g.WellFormed) (producer consumer slot : String) :
    (g.connect producer consumer slot).2.WellFormed := by
  have hfresh : (g.freshId "link").2.WellFormed := h.of_kinds_eq rfl rfl
  rcases g.connect_eq producer consumer slot with hrefused | hlink
  · rw [hrefused]
    exact hfresh
  · exact hfresh.insertLink hlink

end WellFormed

end Darkroom.Graph
