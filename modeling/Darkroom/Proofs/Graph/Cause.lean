import Darkroom.Proofs.Graph.Ancestors
import Darkroom.Proofs.Graph.Evaluation

/-!
# Where failures of evaluation come from

A node reads all its slots before it fails by itself (`Node.compute_awaits`). So a node with a value
has a link into every slot, from a node with a value (`Graph.Describes.supplied_of_ok`); and a
failure of a node is one of three: that of a slot of its own without a link, that of a node linked
to it, or that of its own operation when all its slots have values
(`Graph.Describes.failure_cases`). Failures are handed on unchanged, so by induction along the links
each arose at a node among the node evaluated and its ancestors (`Graph.Describes.exists_cause`),
and a fault names that node; and where there is no failure, there is none among all these nodes
(`Graph.Describes.ok_of_chain`).

The status of a node shows the slot of such a fault and leaves its node out. What is shown as a
missing input may therefore be a slot of an ancestor, even one that the node does not have
(`Graph.dimFlow_endNode_status`).

## Main definitions

* `Graph.Unlinked` : a slot of a node that no link leads into.
* `Graph.Supplied` : a node that gets values on all its slots.
* `Graph.Causes` : the failures that arise at a node.

## Main results

* `Graph.Describes.supplied_of_ok`, `Graph.Describes.failure_cases` : one node.
* `Graph.Describes.ok_of_chain`, `Graph.Describes.exists_cause` : all nodes that feed a node.
* `Graph.evaluate_names_cause` : evaluation in reachable graphs.
* `Graph.missing_slot_of_cone` : what a missing input says, and when it is one of the node itself.
-/

namespace Darkroom.Graph

open Relation

variable {g : Graph} {images : Images} {value : String → Except Failure Value} {node : Node}

/-- Whether a slot is an input of a node's kind that no link leads into. -/
def Unlinked (g : Graph) (id : String) (kind : NodeKind) (slot : String) : Prop :=
  (∃ input ∈ kind.inputs, input.name = slot) ∧
    ∀ link ∈ g.links, ¬ (link.consumer = id ∧ link.slot = slot)

/-- Whether every input of a node has a link, from a node that has a value. -/
def Supplied (g : Graph) (value : String → Except Failure Value) (node : Node) : Prop :=
  ∀ input ∈ node.kind.inputs, ∃ link ∈ g.links, link.consumer = node.id ∧ link.slot = input.name ∧
    ∃ found, value link.producer = .ok found

/-- Whether a failure arises at a node: at one of its slots without a link, or in its own operation
when its slots have values. -/
def Causes (g : Graph) (value : String → Except Failure Value) (node : Node) (failure : Failure) :
    Prop :=
  (∃ slot, g.Unlinked node.id node.kind slot ∧ failure = .fault (.missingInput node.id slot)) ∨
    node.OwnFailure (g.input value node) failure ∧ g.Supplied value node

/-! ### One node -/

namespace Describes

variable [ImageLibrary] (hvalue : g.Describes images value) (h : g.WellFormed)

include hvalue

/-- A node reads its slots in turn. -/
theorem awaits (hevaluated : g.evaluated node.id = .ok node) :
    Awaits (fun found => found.type = node.kind.valueType) (node.OwnFailure (g.input value node))
      ((List.range node.kind.inputs.length).map (g.input value node)) (value node.id) := by
  rw [hvalue.eq_compute hevaluated]
  refine Node.compute_awaits images fun index type htype => ?_
  obtain ⟨slot, hslot, rfl⟩ := Option.map_eq_some_iff.mp htype
  rw [input, hslot]
  dsimp only
  split
  · trivial
  · next link _ =>
    have hany : Yields (fun _ => True) (fun _ => True) (value link.producer) := by
      cases value link.producer <;> trivial
    refine hany.bind fun found _ => ?_
    split_ifs with htype
    · exact htype
    · trivial

include h

/-- A slot without a link has that failure, and any other has what the node linked to it has. -/
theorem input_cases (hnode : node ∈ g.nodes) {index : Nat} {slot : Slot}
    (hslot : node.kind.inputs[index]? = some slot) :
    (g.Unlinked node.id node.kind slot.name ∧
      g.input value node index = .error (.fault (.missingInput node.id slot.name))) ∨
    ∃ link ∈ g.links, link.consumer = node.id ∧ link.slot = slot.name ∧
      g.input value node index = value link.producer := by
  have hmem : slot ∈ node.kind.inputs := List.mem_of_getElem? hslot
  rw [input, hslot]
  dsimp only
  split
  · next hnone => exact .inl ⟨⟨⟨slot, hmem, rfl⟩, linkInto?_eq_none_iff.mp hnone⟩, rfl⟩
  · next link hlink =>
    obtain ⟨hlinks, hends⟩ := h.linkInto?_eq_some_iff.mp hlink
    obtain ⟨-, producer, hproducer, hpid, hgives⟩ := h.producer_of_link hnode hmem hlink
    have hyields := hvalue.yields h hproducer
    rw [hpid, hgives] at hyields
    refine .inr ⟨link, hlinks, hends.1, hends.2, ?_⟩
    cases hfound : value link.producer with
    | error failure => rfl
    | ok found =>
      rw [hfound] at hyields
      exact if_pos hyields

theorem supplied_of_slots (hnode : node ∈ g.nodes)
    (hslots : ∀ slot ∈ (List.range node.kind.inputs.length).map (g.input value node),
      ∃ found, slot = .ok found) : g.Supplied value node := by
  intro input hinput
  obtain ⟨index, hindex⟩ := List.getElem?_of_mem hinput
  obtain ⟨hlt, -⟩ := List.getElem?_eq_some_iff.mp hindex
  obtain ⟨found, hfound⟩ := hslots _ (List.mem_map_of_mem (List.mem_range.mpr hlt))
  rcases hvalue.input_cases h hnode hindex with ⟨-, hfault⟩ | ⟨link, hlink, hid, hslot, heq⟩
  · rw [hfault] at hfound
    exact nomatch hfound
  · exact ⟨link, hlink, hid, hslot, found, heq ▸ hfound⟩

/-- A node with a value gets values on all its slots. -/
theorem supplied_of_ok (hnode : node ∈ g.nodes) {found : Value} (hok : value node.id = .ok found) :
    g.Supplied value node := by
  have hawaits := hvalue.awaits (h.evaluated_eq hnode)
  rw [hok] at hawaits
  exact hvalue.supplied_of_slots h hnode hawaits.of_ok.2

/-- A failure of a node arises there, or is that of a node linked to it. -/
theorem failure_cases (hnode : node ∈ g.nodes) {failure : Failure}
    (herror : value node.id = .error failure) :
    g.Causes value node failure ∨
      ∃ producer ∈ g.nodes, g.Feeds producer.id node.id ∧ value producer.id = .error failure := by
  have hawaits := hvalue.awaits (h.evaluated_eq hnode)
  rw [herror] at hawaits
  rcases hawaits.of_error with hslot | ⟨hown, hslots⟩
  · obtain ⟨index, hindex, hfault⟩ := List.mem_map.mp hslot
    have hinput := List.getElem?_eq_getElem (List.mem_range.mp hindex)
    rcases hvalue.input_cases h hnode hinput with ⟨hunlinked, heq⟩ | ⟨link, hlink, hid, -, heq⟩
    · rw [heq] at hfault
      exact .inl (.inl ⟨_, hunlinked, (Except.error.inj hfault).symm⟩)
    · have hfeeds : g.Feeds link.producer node.id := ⟨link, hlink, rfl, hid⟩
      obtain ⟨producer, hproducer, hpid⟩ := List.mem_map.mp (h.mem_nodes_of_feeds hfeeds)
      refine .inr ⟨producer, hproducer, hpid ▸ hfeeds, ?_⟩
      rw [hpid, ← heq, hfault]
  · exact .inl (.inr ⟨hown, hvalue.supplied_of_slots h hnode hslots⟩)

/-! ### All nodes that feed a node -/

/-- **Every failure arises at a node that feeds the node evaluated**, or at that node. -/
theorem exists_cause (hnode : node ∈ g.nodes) {failure : Failure}
    (herror : value node.id = .error failure) :
    ∃ culprit ∈ g.nodes, ReflTransGen g.Feeds culprit.id node.id ∧
      g.Causes value culprit failure := by
  revert herror
  refine h.induction_along_links (motive := fun node => value node.id = .error failure →
    ∃ culprit ∈ g.nodes, ReflTransGen g.Feeds culprit.id node.id ∧ g.Causes value culprit failure)
    (fun node hnode ih herror => ?_) hnode
  rcases hvalue.failure_cases h hnode herror with hcause | ⟨producer, hproducer, hfeeds, hpassed⟩
  · exact ⟨node, hnode, .refl, hcause⟩
  · obtain ⟨culprit, hculprit, hchain, hcause⟩ := ih producer hproducer hfeeds hpassed
    exact ⟨culprit, hculprit, hchain.tail hfeeds, hcause⟩

/-- **With a value at a node there is one at every node that feeds it.** -/
theorem ok_of_chain {id other : String} (hchain : ReflTransGen g.Feeds other id)
    (hok : ∃ found, value id = .ok found) : ∃ found, value other = .ok found := by
  induction hchain using ReflTransGen.head_induction_on with
  | refl => exact hok
  | head hfeeds _ ih =>
    obtain ⟨link, hlink, rfl, rfl⟩ := hfeeds
    obtain ⟨-, -, consumer, hconsumer, -, hcid, input, hinput, hslot, -⟩ := h.joins link hlink
    obtain ⟨found, hfound⟩ := ih
    obtain ⟨supply, hsupply, hid, hname, hgiven⟩ :=
      hvalue.supplied_of_ok h hconsumer (hcid ▸ hfound) input hinput
    -- No slot takes two links, so the value on the slot is that of this link's producer.
    have hfirst := h.linkInto?_eq_some_iff.mpr ⟨hlink, rfl, rfl⟩
    rw [h.linkInto?_eq_some_iff.mpr ⟨hsupply, hid.trans hcid, hname.trans hslot⟩] at hfirst
    rwa [← Option.some.inj hfirst]

omit h in
/-- Only nodes have values; any other identifier is unknown. -/
theorem mem_nodes_or_unknown (id : String) :
    (∃ node ∈ g.nodes, node.id = id) ∨ value id = .error (.fault (.unknownNode id)) := by
  cases hnode : g.node? id with
  | some node => exact .inl ⟨node, mem_of_node? hnode⟩
  | none =>
    rw [hvalue, evaluated, require, hnode]
    exact .inr rfl

end Describes

/-! ### Evaluation in reachable graphs -/

section Reachable

variable [ImageLibrary]

theorem WellFormed.exists_cause (h : g.WellFormed) {id : String} {failure : Failure}
    (herror : g.evaluate id images = .error failure)
    (hknown : failure ≠ .fault (.unknownNode id)) :
    ∃ culprit ∈ g.nodes, culprit.id ∈ g.cone id ∧
      g.Causes (fun other => g.evaluate other images) culprit failure := by
  have hvalue := h.describes_evaluate images
  rcases hvalue.mem_nodes_or_unknown id with ⟨node, hnode, rfl⟩ | hunknown
  · obtain ⟨culprit, hculprit, hchain, hcause⟩ := hvalue.exists_cause h hnode herror
    exact ⟨culprit, hculprit, h.mem_cone.mpr hchain, hcause⟩
  · rw [hunknown] at herror
    exact absurd (Except.error.inj herror).symm hknown

theorem WellFormed.unlinked_of_missingInput (h : g.WellFormed) {id culprit slot : String}
    (herror : g.evaluate id images = .error (.fault (.missingInput culprit slot))) :
    culprit ∈ g.cone id ∧
      ∃ node ∈ g.nodes, node.id = culprit ∧ g.Unlinked culprit node.kind slot := by
  obtain ⟨node, hnode, hcone, ⟨_, hunlinked, heq⟩ | ⟨⟨_, heq⟩ | ⟨heq, -⟩, -⟩⟩ :=
    h.exists_cause herror (by simp)
  · obtain ⟨rfl, rfl⟩ := Fault.missingInput.inj (Failure.fault.inj heq)
    exact ⟨hcone, node, hnode, rfl, hunlinked⟩
  · exact nomatch heq
  · exact nomatch heq

/-- **Faults name their causes, and success means a complete cone.** In every reachable graph a
missing input is a slot without a link of a node of the cone evaluated, and a parameter that cannot
be used is that of a node of the cone all of whose slots have values. With a value, every node of
the cone has a link into each of its slots, and has a value itself. -/
theorem evaluate_names_cause (h : g.Reachable) (images : Images) (id : String) :
    (∀ culprit slot, g.evaluate id images = .error (.fault (.missingInput culprit slot)) →
      culprit ∈ g.cone id ∧
        ∃ node ∈ g.nodes, node.id = culprit ∧ g.Unlinked culprit node.kind slot) ∧
    (∀ culprit reason, g.evaluate id images = .error (.fault (.invalidParameter culprit reason)) →
      culprit ∈ g.cone id ∧
        ∃ node ∈ g.nodes, node.id = culprit ∧
          g.Supplied (fun other => g.evaluate other images) node) ∧
    ∀ found, g.evaluate id images = .ok found → ∀ other ∈ g.cone id,
      (∃ node ∈ g.nodes, node.id = other ∧
        g.Supplied (fun other => g.evaluate other images) node) ∧
      ∃ given, g.evaluate other images = .ok given := by
  have hg := h.wellFormed
  have hvalue := hg.describes_evaluate images
  refine ⟨fun culprit slot herror => hg.unlinked_of_missingInput herror,
    fun culprit reason herror => ?_, fun found hok other hother => ?_⟩
  · obtain ⟨node, hnode, hcone, ⟨_, -, heq⟩ | ⟨⟨_, heq⟩ | ⟨heq, -⟩, hsupplied⟩⟩ :=
      hg.exists_cause herror (by simp)
    · exact nomatch heq
    · obtain ⟨rfl, rfl⟩ := Fault.invalidParameter.inj (Failure.fault.inj heq)
      exact ⟨hcone, node, hnode, rfl, hsupplied⟩
    · exact nomatch heq
  · obtain ⟨given, hgiven⟩ := hvalue.ok_of_chain hg (hg.mem_cone.mp hother) ⟨found, hok⟩
    rcases hvalue.mem_nodes_or_unknown other with ⟨node, hnode, rfl⟩ | hunknown
    · exact ⟨⟨node, hnode, rfl, hvalue.supplied_of_ok hg hnode hgiven⟩, given, hgiven⟩
    · rw [hgiven] at hunknown
      exact nomatch hunknown

omit [ImageLibrary] in
theorem stateOf_eq_missing_iff {result : Except Failure Value} {slot : String} :
    stateOf result = .ok (.missing slot) ↔
      ∃ culprit, result = .error (.fault (.missingInput culprit slot)) := by
  constructor
  · intro h
    rcases result with (fault | cause) | found
    · cases fault with
      | missingInput culprit other =>
        obtain rfl := NodeState.missing.inj (Except.ok.inj h)
        exact ⟨culprit, rfl⟩
      | _ => exact nomatch h
    · exact nomatch h
    · exact nomatch h
  · rintro ⟨culprit, rfl⟩
    rfl

/-! ### The status of nodes -/

/-- **A slot shown as missing is one of the cone**: in every reachable graph it is a slot without a
link of the node shown or of one of its ancestors. It is one of the node itself unless a node linked
to it is shown with the same slot. -/
theorem missing_slot_of_cone (h : g.Reachable) (images : Images) {entry : NodeStatus}
    (hentry : entry ∈ g.shown images) {slot : String} (hmissing : entry.state = .missing slot) :
    (∃ node ∈ g.nodes, node.id ∈ g.cone entry.id ∧ g.Unlinked node.id node.kind slot) ∧
    ((∀ link ∈ g.links, link.consumer = entry.id → ∀ source ∈ g.shown images,
        source.id = link.producer → source.state ≠ .missing slot) →
      g.Unlinked entry.id entry.kind slot) := by
  have hg := h.wellFormed
  have hvalue := hg.describes_evaluate images
  obtain ⟨node, hnode, hid, hkind, hstate⟩ := (hg.mem_shown_iff hentry).mp hentry
  rw [hmissing] at hstate
  obtain ⟨culprit, herror⟩ := stateOf_eq_missing_iff.mp hstate
  rw [← hid, ← hkind]
  refine ⟨?_, fun hsources => ?_⟩
  · obtain ⟨hcone, owner, howner, rfl, hunlinked⟩ :=
      hg.unlinked_of_missingInput herror
    exact ⟨owner, howner, hcone, hunlinked⟩
  · rcases hvalue.failure_cases hg hnode herror with hcause | ⟨producer, hproducer, hfeeds, hpassed⟩
    · rcases hcause with ⟨_, hunlinked, heq⟩ | ⟨⟨_, heq⟩ | ⟨heq, -⟩, -⟩
      · obtain ⟨-, rfl⟩ := Fault.missingInput.inj (Failure.fault.inj heq)
        exact hunlinked
      · exact nomatch heq
      · exact nomatch heq
    · obtain ⟨link, hlink, hpid, hcid⟩ := hfeeds
      have hsource : ⟨producer.id, producer.kind, .missing slot⟩ ∈ g.shown images :=
        (hg.mem_shown_iff hentry).mpr
          ⟨producer, hproducer, rfl, rfl, stateOf_eq_missing_iff.mpr ⟨culprit, hpassed⟩⟩
      exact absurd rfl (hsources link hlink hcid _ hsource hpid.symm)

end Reachable

/-- A picture made brighter by nothing: the second slot of the filter has no link. -/
def dimFlow : Graph :=
  [Edit.addNode .image, .setData "image-1" "photo.png", .addNode .bright,
    .connect "image-1" "bright-2" "firstLink",
    .connect "bright-2" "endNode" "firstLink"].foldl apply Graph.new

theorem dimFlow_reachable : dimFlow.Reachable :=
  Reachable.new.edits _

theorem dimFlow_names_culprit :
    (∃ culprit ∈ dimFlow.cone "endNode",
      dimFlow.evaluate "endNode" onePixel = .error (.fault (.missingInput culprit "secondLink")) ∧
      ∃ node ∈ dimFlow.nodes, node.id = culprit ∧
        dimFlow.Unlinked culprit node.kind "secondLink") ∧
    ∃ given, shiftFlow.evaluate "int-2" onePixel = .ok given := by
  constructor
  · have hstate : stateOf (dimFlow.evaluate "endNode" onePixel) = .ok (.missing "secondLink") := by
      decide +kernel
    obtain ⟨culprit, herror⟩ := stateOf_eq_missing_iff.mp hstate
    obtain ⟨hcone, hunlinked⟩ :=
      (evaluate_names_cause dimFlow_reachable onePixel "endNode").1 culprit "secondLink" herror
    exact ⟨culprit, hcone, herror, hunlinked⟩
  · obtain ⟨found, hok⟩ :=
      exists_of_isOk (x := shiftFlow.evaluate "endNode" onePixel) (by decide +kernel)
    exact ((evaluate_names_cause shiftFlow_reachable onePixel "endNode").2.2 found hok "int-2"
      (by decide +kernel)).2

theorem dimFlow_filter_status :
    ⟨"bright-2", .bright, .missing "secondLink"⟩ ∈ dimFlow.shown onePixel ∧
    dimFlow.Unlinked "bright-2" .bright "secondLink" := by
  have hentry : ⟨"bright-2", .bright, .missing "secondLink"⟩ ∈ dimFlow.shown onePixel := by
    decide +kernel
  exact ⟨hentry, (missing_slot_of_cone dimFlow_reachable onePixel hentry rfl).2 (by decide +kernel)⟩

/-- The end node is shown to miss the second slot of the filter. It has no second slot, and its only
slot has a link. -/
theorem dimFlow_endNode_status :
    dimFlow.Reachable ∧
    ⟨"endNode", .endNode, .missing "secondLink"⟩ ∈ dimFlow.shown onePixel ∧
    ¬ dimFlow.Unlinked "endNode" .endNode "secondLink" := by
  refine ⟨dimFlow_reachable, by decide +kernel, fun hunlinked => ?_⟩
  obtain ⟨input, hinput, hname⟩ := hunlinked.1
  rw [List.mem_singleton.mp hinput] at hname
  exact absurd hname (by decide)

end Darkroom.Graph
