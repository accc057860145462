import Darkroom.Proofs.Graph.Plain

/-!
# Values of well-formed graphs

In a well-formed graph every node evaluates to a value of the type of its kind, fails on a slot
without a link or on a parameter, or breaks off at a number that is no machine word
(`Graph.Describes.yields`). The proof goes along the links, from
producers to consumers: a link brings a value of the type of its slot because the producer's kind
gives that type, and an operation on such values gives one of its own type
(`Node.compute_yields`).

## Main definitions

* `Failure.Expected` : the failures that a well-formed graph may evaluate to.

## Main results

* `Graph.Describes.yields` : every node evaluates to the type of its kind, or to such a failure.
-/

namespace Darkroom

/-- Whether a failure is that of a slot without a link, of a parameter that cannot be used, or of a
number that is no machine word. -/
def Failure.Expected : Failure → Prop
  | fault (.missingInput ..) | fault (.invalidParameter ..) | broken .overflow => True
  | _ => False

theorem Failure.Expected.cases {failure : Failure} (h : failure.Expected) :
    (∃ id slot, failure = .fault (.missingInput id slot)) ∨
      (∃ id reason, failure = .fault (.invalidParameter id reason)) ∨
      failure = .broken .overflow := by
  cases failure with
  | fault reported =>
    cases reported with
    | missingInput id slot => exact .inl ⟨id, slot, rfl⟩
    | invalidParameter id reason => exact .inr (.inl ⟨id, reason, rfl⟩)
    | _ => exact h.elim
  | broken cause =>
    cases cause with
    | overflow => exact .inr (.inr rfl)
    | outside => exact h.elim

namespace Graph

variable {g : Graph} {images : Images} {value : String → Except Failure Value}

/-- The link into a slot of a node starts at a node that gives values of the slot's type. -/
theorem WellFormed.producer_of_link (h : g.WellFormed) {node : Node} (hnode : node ∈ g.nodes)
    {slot : Slot} (hslot : slot ∈ node.kind.inputs) {link : Link}
    (hlink : g.linkInto? node.id slot.name = some link) :
    g.Feeds link.producer node.id ∧ ∃ producer ∈ g.nodes, producer.id = link.producer ∧
      producer.kind.valueType = slot.type := by
  obtain ⟨hmem, hends⟩ := h.linkInto?_eq_some_iff.mp hlink
  refine ⟨⟨link, hmem, rfl, hends.1⟩, ?_⟩
  obtain ⟨producer, hproducer, consumer, hconsumer, hpid, hcid, taken, htaken, hname, htype⟩ :=
    h.joins link hmem
  have hsame : consumer = node :=
    List.inj_on_of_nodup_map h.nodes_nodup hconsumer hnode (hcid.trans hends.1)
  subst hsame
  have hslots : taken = slot :=
    List.inj_on_of_nodup_map consumer.kind.nodup_inputs htaken hslot (hname.trans hends.2)
  subst hslots
  exact ⟨producer, hproducer, hpid, NodeKind.valueType_eq_of_output_eq htaken htype⟩

/-- **Every node of a well-formed graph evaluates to a value of the type of its kind**, fails on a
slot without a link or on a parameter, or breaks off. -/
theorem Describes.yields [ImageLibrary] (hvalue : g.Describes images value) (h : g.WellFormed)
    {node : Node} (hnode : node ∈ g.nodes) :
    Yields (fun v => v.type = node.kind.valueType) Failure.Expected (value node.id) := by
  refine h.induction_along_links (motive := fun node =>
    Yields (fun v => v.type = node.kind.valueType) Failure.Expected (value node.id))
    (fun node hnode ih => ?_) hnode
  rw [hvalue.eq_compute (h.evaluated_eq hnode)]
  refine Node.compute_yields (fun _ => trivial) trivial images fun index type htype => ?_
  obtain ⟨slot, hslot, rfl⟩ := Option.map_eq_some_iff.mp htype
  rw [input, hslot]
  dsimp only
  split
  · trivial
  · next link hlink =>
    obtain ⟨hfeeds, producer, hproducer, hpid, hgives⟩ :=
      h.producer_of_link hnode (List.mem_of_getElem? hslot) hlink
    have hfetched := ih producer hproducer (hpid ▸ hfeeds)
    rw [hpid, hgives] at hfetched
    refine hfetched.bind fun found hfound => ?_
    rw [if_pos hfound]
    exact hfound

end Graph

end Darkroom
