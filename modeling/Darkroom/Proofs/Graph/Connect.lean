import Darkroom.Proofs.Graph.Reachable

/-!
# Linking two nodes

The search for a cycle runs before the link into the slot is taken away, so it also follows the
link that is about to be replaced. This makes no difference: that link leads into the consumer,
and in a graph without cycles no chain that starts at the consumer comes back to it
(`Graph.Acyclic.chain_beside`). So a new link is accepted exactly when the graph with it in place
of the old one has no cycle (`Graph.Acyclic.replace_iff`).

## Main definitions

* `Graph.linksBeside` : the links into other slots, in their order.
* `Graph.newLink` : the link that an edit adds.

## Main results

* `Graph.withoutLinkInto_eq_linksBeside` : taking away the link into a slot leaves the others.
* `Graph.WellFormed.insertLink_replacing_iff` : when a link is added in place of another.
* `Graph.WellFormed.connect_cases` : the two ends of an attempt to link two nodes.
* `Graph.connect_replaces_or_refuses` : when two nodes can be linked, and what the graph is then.
-/

namespace Darkroom.Graph

open Relation

variable {g g' : Graph}

/-! ### Replacing a link in a graph without cycles -/

/-- No chain that starts at a node uses a link into it. -/
theorem Acyclic.chain_beside (hg : g.Acyclic) {start id : String}
    (hkeep : ∀ link ∈ g.links, link.consumer ≠ start → link ∈ g'.links)
    (hchain : ReflTransGen g.Feeds start id) : ReflTransGen g'.Feeds start id := by
  induction hchain with
  | refl => exact .refl
  | tail hbefore hfeeds ih =>
    obtain ⟨link, hmem, rfl, rfl⟩ := hfeeds
    have hother : link.consumer ≠ start := by
      rintro rfl
      exact hg _ (.tail' hbefore ⟨link, hmem, rfl, rfl⟩)
    exact ih.tail ⟨link, hkeep link hmem hother, rfl, rfl⟩

/-- A link in place of links into its consumer closes a cycle exactly when its producer depended on
its consumer before. -/
theorem Acyclic.replace_iff (hg : g.Acyclic) {link : Link}
    (hsub : ∀ l ∈ g'.links, l ∈ g.links ∨ l = link)
    (hkeep : ∀ l ∈ g.links, l.consumer ≠ link.consumer → l ∈ g'.links) (hnew : link ∈ g'.links) :
    g'.Acyclic ↔ ¬ ReflTransGen g.Feeds link.consumer link.producer := by
  refine ⟨fun hacyclic hchain => ?_, hg.insert link hsub⟩
  exact hacyclic _ (.head' ⟨link, hnew, rfl, rfl⟩ (hg.chain_beside hkeep hchain))

/-! ### The links after a replacement -/

/-- The links that lead elsewhere than into a slot. -/
def linksBeside (g : Graph) (consumer slot : String) : List Link :=
  g.links.filter fun link => ¬ (link.consumer = consumer ∧ link.slot = slot)

theorem mem_linksBeside {consumer slot : String} {link : Link} :
    link ∈ g.linksBeside consumer slot ↔
      link ∈ g.links ∧ ¬ (link.consumer = consumer ∧ link.slot = slot) := by
  rw [linksBeside, List.mem_filter, decide_eq_true_eq]

/-- Where no slot takes two links, the first link into a slot is the only one. -/
theorem withoutLinkInto_eq_linksBeside
    (hslots : g.links.Pairwise fun a b => ¬ (a.consumer = b.consumer ∧ a.slot = b.slot))
    (consumer slot : String) : g.withoutLinkInto consumer slot = g.linksBeside consumer slot := by
  rw [withoutLinkInto, linksBeside]
  generalize g.links = links at hslots
  induction hslots with
  | nil => rfl
  | @cons link links hfirst _ ih =>
    by_cases hinto : link.consumer = consumer ∧ link.slot = slot
    · have hrest : ∀ l ∈ links, ¬ (l.consumer = consumer ∧ l.slot = slot) := by
        rintro l hmem ⟨hconsumer, hslot⟩
        exact hfirst l hmem ⟨hinto.1.trans hconsumer.symm, hinto.2.trans hslot.symm⟩
      rw [List.eraseP_cons_of_pos (by simpa using hinto), List.filter_cons,
        if_neg (by simpa using hinto),
        List.filter_eq_self.mpr fun l hmem => decide_eq_true (hrest l hmem)]
    · rw [List.eraseP_cons_of_neg (by simpa using hinto), List.filter_cons,
        if_pos (decide_eq_true hinto), ih]

/-! ### Linking -/

/-- The link that an edit adds between two nodes, not yet drawn. -/
def newLink (id producer consumer slot : String) : Link :=
  ⟨id, producer, consumer, slot, outputAnchor, ⟨0.0, 0.0⟩, ⟨0.0, 0.0⟩⟩

/-- A link under a new identifier is added exactly when it fits and the graph with it in place of
the one into its slot has no cycle. -/
theorem WellFormed.insertLink_replacing_iff (h : g.WellFormed) {link : Link}
    (hid : link.id ∉ g.links.map Link.id) :
    g.insertLink link = .ok g' ↔
      g' = { g with links := g.linksBeside link.consumer link.slot ++ [link] } ∧
        g.Joins link ∧ g'.Acyclic := by
  have hacyclic : Acyclic { g with links := g.linksBeside link.consumer link.slot ++ [link] } ↔
      g.dependsOn link.producer link.consumer = false := by
    rw [← Bool.not_eq_true, dependsOn_iff]
    refine h.acyclic.replace_iff (fun l hmem => ?_) (fun l hmem hother => ?_) ?_
    · rcases List.mem_append.mp hmem with hold | hnew
      · exact .inl (mem_linksBeside.mp hold).1
      · exact .inr (List.mem_singleton.mp hnew)
    · exact List.mem_append_left _ (mem_linksBeside.mpr ⟨hmem, fun hinto => hother hinto.1⟩)
    · exact List.mem_append_right _ List.mem_cons_self
  rw [insertLink_eq_ok_iff, withoutLinkInto_eq_linksBeside h.one_link]
  constructor
  · rintro ⟨⟨producer, consumer, slot, hproducer, hconsumer, hslot, htype⟩, hindep, -, rfl⟩
    obtain ⟨hproducer, hpid⟩ := mem_of_node? hproducer
    obtain ⟨hconsumer, hcid⟩ := mem_of_node? hconsumer
    obtain ⟨hslot, hname⟩ := NodeKind.input?_eq_some_iff.mp hslot
    exact ⟨rfl, ⟨producer, hproducer, consumer, hconsumer, hpid, hcid, slot, hslot, hname, htype⟩,
      hacyclic.mpr hindep⟩
  · rintro ⟨rfl, ⟨producer, hproducer, consumer, hconsumer, hpid, hcid, slot, hslot, hname,
      htype⟩, hnocycle⟩
    exact ⟨⟨producer, consumer, slot, (node?_eq_some_iff h.nodes_nodup).mpr ⟨hproducer, hpid⟩,
      (node?_eq_some_iff h.nodes_nodup).mpr ⟨hconsumer, hcid⟩,
      NodeKind.input?_eq_some_iff.mpr ⟨hslot, hname⟩, htype⟩, hacyclic.mp hnocycle, hid, rfl⟩

theorem connect_of_ok {producer consumer slot : String} {linked : Graph}
    (h : (g.freshId "link").2.insertLink (newLink (g.freshId "link").1 producer consumer slot) =
      .ok linked) :
    g.connect producer consumer slot = (.ok (g.freshId "link").1, linked) := by
  rw [newLink] at h
  simp only [connect, h]

theorem connect_of_error {producer consumer slot : String} {fault : Fault}
    (h : (g.freshId "link").2.insertLink (newLink (g.freshId "link").1 producer consumer slot) =
      .error fault) :
    g.connect producer consumer slot = (.error fault, (g.freshId "link").2) := by
  rw [newLink] at h
  simp only [connect, h]

/-- An attempt to link two nodes either replaces the link into the slot, or uses up an identifier
and changes nothing else. -/
theorem WellFormed.connect_cases (h : g.WellFormed) (producer consumer slot : String) :
    let link := newLink (g.freshId "link").1 producer consumer slot
    let links := g.linksBeside consumer slot ++ [link]
    (g.Joins link ∧ Acyclic { g with links }) ∧
        g.connect producer consumer slot = (.ok link.id, { (g.freshId "link").2 with links }) ∨
      ¬ (g.Joins link ∧ Acyclic { g with links }) ∧
        ∃ fault, g.connect producer consumer slot = (.error fault, (g.freshId "link").2) := by
  intro link links
  have hfresh : (g.freshId "link").2.WellFormed := h.of_kinds_eq rfl rfl
  have hid : link.id ∉ (g.freshId "link").2.links.map Link.id :=
    (isTaken_eq_false_iff.mp (g.freshId_not_taken "link")).2
  have hinsert (linked : Graph) :=
    @WellFormed.insertLink_replacing_iff (g.freshId "link").2 linked hfresh link hid
  cases hresult : (g.freshId "link").2.insertLink link with
  | ok linked =>
    obtain ⟨rfl, hjoins, hacyclic⟩ := (hinsert linked).mp hresult
    exact .inl ⟨⟨hjoins, hacyclic⟩, connect_of_ok hresult⟩
  | error fault =>
    refine .inr ⟨fun hallowed => ?_, fault, connect_of_error hresult⟩
    have hok := (hinsert { (g.freshId "link").2 with links }).mpr ⟨rfl, hallowed⟩
    rw [hresult] at hok
    exact nomatch hok

/-- What feeds what once a link is added to those beside a slot. -/
theorem feeds_linksBeside_append (consumer slot : String) (link : Link) (a b : String) :
    Feeds { g with links := g.linksBeside consumer slot ++ [link] } a b ↔
      a = link.producer ∧ b = link.consumer ∨
        ∃ old ∈ g.linksBeside consumer slot, old.producer = a ∧ old.consumer = b := by
  constructor
  · rintro ⟨l, hmem, rfl, rfl⟩
    rcases List.mem_append.mp hmem with hold | hnew
    · exact .inr ⟨l, hold, rfl, rfl⟩
    · rw [List.mem_singleton.mp hnew]
      exact .inl ⟨rfl, rfl⟩
  · rintro (⟨rfl, rfl⟩ | ⟨old, hold, hends⟩)
    · exact ⟨link, List.mem_append_right _ List.mem_cons_self, rfl, rfl⟩
    · exact ⟨old, List.mem_append_left _ hold, hends⟩

/-- **Linking two nodes replaces one link or changes nothing.** In every reachable graph it succeeds
exactly when both ends are nodes, the slot is an input of the consumer's kind, of the type that the
producer's kind gives, and the links without the one into the slot and with one from the producer to
the consumer have no cycle. The links are then the old ones without the one into the slot, in their
order, and after them the new one, whose identifier no node and no link had; the nodes stay. If it
fails, nodes and links stay as they are. -/
theorem connect_replaces_or_refuses (h : g.Reachable) (producer consumer slot : String) :
    ((∃ id, (g.connect producer consumer slot).1 = .ok id) ↔
      (∃ source ∈ g.nodes, ∃ target ∈ g.nodes, source.id = producer ∧ target.id = consumer ∧
        ∃ input, target.kind.input? slot = some input ∧ source.kind.output = input.type) ∧
      ∀ node, ¬ TransGen (fun a b => a = producer ∧ b = consumer ∨
        ∃ link ∈ g.linksBeside consumer slot, link.producer = a ∧ link.consumer = b) node node) ∧
    (∀ id, (g.connect producer consumer slot).1 = .ok id →
      (id ∉ g.nodes.map Node.id ∧ id ∉ g.links.map Link.id) ∧
      (g.connect producer consumer slot).2.nodes = g.nodes ∧
      (g.connect producer consumer slot).2.links =
        g.linksBeside consumer slot ++ [newLink id producer consumer slot]) ∧
    ∀ fault, (g.connect producer consumer slot).1 = .error fault →
      (g.connect producer consumer slot).2.nodes = g.nodes ∧
      (g.connect producer consumer slot).2.links = g.links := by
  let link := newLink (g.freshId "link").1 producer consumer slot
  have hjoins : g.Joins link ↔
      ∃ source ∈ g.nodes, ∃ target ∈ g.nodes, source.id = producer ∧ target.id = consumer ∧
        ∃ input, target.kind.input? slot = some input ∧ source.kind.output = input.type := by
    simp only [Joins, NodeKind.input?_eq_some_iff, and_assoc]
    rfl
  have hacyclic : Acyclic { g with links := g.linksBeside consumer slot ++ [link] } ↔
      ∀ node, ¬ TransGen (fun a b => a = producer ∧ b = consumer ∨
        ∃ old ∈ g.linksBeside consumer slot, old.producer = a ∧ old.consumer = b) node node := by
    have hfeeds : Feeds { g with links := g.linksBeside consumer slot ++ [link] } = fun a b =>
        a = producer ∧ b = consumer ∨
          ∃ old ∈ g.linksBeside consumer slot, old.producer = a ∧ old.consumer = b := by
      funext a b
      exact propext (feeds_linksBeside_append consumer slot link a b)
    rw [Acyclic, hfeeds]
  rw [← hjoins, ← hacyclic]
  rcases h.wellFormed.connect_cases producer consumer slot with
    ⟨hallowed, heq⟩ | ⟨hrefused, fault, heq⟩
  · rw [heq]
    refine ⟨⟨fun _ => hallowed, fun _ => ⟨link.id, rfl⟩⟩, fun id hid => ?_, fun fault hfault => ?_⟩
    · obtain rfl := Except.ok.inj hid
      exact ⟨isTaken_eq_false_iff.mp (g.freshId_not_taken "link"), rfl, rfl⟩
    · exact nomatch hfault
  · rw [heq]
    refine ⟨⟨fun ⟨id, hid⟩ => ?_, fun hallowed => ?_⟩, fun id hid => ?_, fun _ _ => ⟨rfl, rfl⟩⟩
    · exact nomatch hid
    · exact absurd hallowed hrefused
    · exact nomatch hid

/-- The image is linked to the end node directly, past the filter; and a link from the filter to
itself is refused, with the slot that it asks for as it was. -/
theorem shiftFlow_relinked :
    (shiftFlow.connect "image-1" "endNode" "firstLink").1 = .ok "link-9" ∧
    (shiftFlow.connect "image-1" "endNode" "firstLink").2.links =
      shiftFlow.linksBeside "endNode" "firstLink" ++
        [newLink "link-9" "image-1" "endNode" "firstLink"] ∧
    (shiftFlow.connect "move_pixel-3" "move_pixel-3" "firstLink").2.links = shiftFlow.links := by
  have hlinked : (shiftFlow.connect "image-1" "endNode" "firstLink").1 = .ok "link-9" := by
    decide +kernel
  obtain ⟨-, hdone, -⟩ := connect_replaces_or_refuses shiftFlow_reachable "image-1" "endNode"
    "firstLink"
  obtain ⟨hallowed, -, hrefused⟩ := connect_replaces_or_refuses shiftFlow_reachable "move_pixel-3"
    "move_pixel-3" "firstLink"
  refine ⟨hlinked, (hdone _ hlinked).2.2, ?_⟩
  cases hself : (shiftFlow.connect "move_pixel-3" "move_pixel-3" "firstLink").1 with
  | ok id => exact absurd (.single (.inl ⟨rfl, rfl⟩)) ((hallowed.mp ⟨id, hself⟩).2 "move_pixel-3")
  | error fault => exact (hrefused fault hself).2

end Darkroom.Graph
