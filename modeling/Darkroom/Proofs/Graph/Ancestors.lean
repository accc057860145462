import Darkroom.Codec.Library
import Darkroom.Proofs.Graph.Reachable
import Darkroom.Task

/-!
# The nodes that a node reads from

The collection of ancestors (`Graph.ancestors`) goes along links from a stack of nodes, like the
search for a certain node, but marks a node as seen when it is put on the stack and not when it is
taken from there. Its rounds are described without a bound on their number (`Graph.Gathers`), and
its bound is enough for them, as every producer is met for the first time once (`Graph.unseen`).

What is found is read off the rounds: each node once, with a chain of links to the stack, and when
the stack is empty nothing feeds a node that was seen without being seen too. In a well-formed
graph the ancestors of a node are therefore exactly the nodes with a chain of links to it
(`Graph.WellFormed.mem_ancestors`), and the node is not among them, as there are no cycles.

## Main definitions

* `Graph.Gathers`, `Graph.unseen` : the rounds of the collection, and the links that bound them.
* `Graph.cone` : a node and its ancestors.

## Main results

* `Graph.exists_gathers` : the collection comes to an end.
* `Graph.WellFormed.mem_ancestors`, `Graph.WellFormed.mem_cone` : the ancestors are the nodes with a
  chain of links to the node.
* `Graph.searches_agree` : both searches in every reachable graph.
-/

namespace Darkroom.Graph

open Relation

variable {g : Graph}

/-! ### The rounds of the collection -/

/-- The collection of nodes ends after a number of rounds, having found some, where `seen` were put
on the stack before. -/
inductive Gathers (g : Graph) : (rounds : Nat) → (stack seen found : List String) → Prop
  | exhausted {seen : List String} : Gathers g 0 [] seen []
  | expand {rounds : Nat} {current : String} {stack seen new after found : List String}
      (hnew : freshProducers seen (g.producers current) = (new, after))
      (h : Gathers g rounds (new.reverse ++ stack) after found) :
      Gathers g (rounds + 1) (current :: stack) seen (new ++ found)

/-! ### Producers not seen before -/

theorem freshProducers_snd (seen ids : List String) :
    (freshProducers seen ids).2 = (freshProducers seen ids).1.reverse ++ seen := by
  induction ids generalizing seen with
  | nil => rfl
  | cons id ids ih =>
    rw [freshProducers]
    split_ifs
    · exact ih seen
    · dsimp only
      rw [ih, List.reverse_cons, List.append_assoc, List.singleton_append]

theorem mem_freshProducers {seen ids : List String} {other : String} :
    other ∈ (freshProducers seen ids).1 ↔ other ∈ ids ∧ other ∉ seen := by
  induction ids generalizing seen with
  | nil => simp only [freshProducers, List.not_mem_nil, false_and]
  | cons id ids ih =>
    rw [freshProducers]
    split_ifs with hseen
    · have hid : id ∈ seen := List.contains_iff_mem.mp hseen
      rw [ih, List.mem_cons]
      constructor
      · exact fun h => ⟨.inr h.1, h.2⟩
      · rintro ⟨rfl | hmem, hnot⟩
        · exact absurd hid hnot
        · exact ⟨hmem, hnot⟩
    · have hid : id ∉ seen := fun hmem => hseen (List.contains_iff_mem.mpr hmem)
      dsimp only
      rw [List.mem_cons, ih, List.mem_cons, List.mem_cons]
      by_cases hother : other = id
      · subst hother
        simp only [true_or, hid, not_false_eq_true, and_self]
      · simp only [hother, false_or]

theorem nodup_freshProducers (seen ids : List String) : (freshProducers seen ids).1.Nodup := by
  induction ids generalizing seen with
  | nil => exact List.nodup_nil
  | cons id ids ih =>
    rw [freshProducers]
    split_ifs
    · exact ih seen
    · refine List.nodup_cons.mpr ⟨fun hmem => ?_, ih _⟩
      exact (mem_freshProducers.mp hmem).2 List.mem_cons_self

/-- The number of links from nodes that are not seen yet. -/
def unseen (g : Graph) (seen : List String) : Nat :=
  g.links.countP fun link => link.producer ∉ seen

/-- Every producer that is seen for the first time uses up a link. -/
theorem unseen_freshProducers (seen : List String) {ids : List String}
    (hids : ∀ id ∈ ids, ∃ link ∈ g.links, link.producer = id) :
    (freshProducers seen ids).1.length + g.unseen (freshProducers seen ids).2 ≤ g.unseen seen := by
  induction ids generalizing seen with
  | nil => exact Nat.le_of_eq (Nat.zero_add _)
  | cons id ids ih =>
    obtain ⟨hid, hids⟩ := List.forall_mem_cons.mp hids
    rw [freshProducers]
    split_ifs with hseen
    · exact ih seen hids
    · have hnew : id ∉ seen := fun hmem => hseen (List.contains_iff_mem.mpr hmem)
      have hcount : g.unseen seen = _ + g.unseen (id :: seen) :=
        countP_notMem_cons Link.producer g.links hnew
      have hpos : 0 < (g.links.filter fun link => link.producer = id).length := by
        obtain ⟨link, hlink, rfl⟩ := hid
        exact List.length_pos_of_mem (List.mem_filter.mpr ⟨hlink, decide_eq_true rfl⟩)
      have hrest := ih (id :: seen) hids
      dsimp only
      rw [List.length_cons]
      omega

/-- With steps enough, the collection of nodes comes to its end. -/
theorem gathers_ancestorLoop {fuel : Nat} {stack seen : List String}
    (hfuel : stack.length + g.unseen seen < fuel) :
    ∃ rounds ≤ stack.length + g.unseen seen,
      g.Gathers rounds stack seen (g.ancestorLoop fuel stack seen) := by
  fun_induction ancestorLoop g fuel stack seen with
  | case1 => exact absurd hfuel (Nat.not_lt_zero _)
  | case2 => exact ⟨0, Nat.zero_le _, .exhausted⟩
  | case3 fuel current stack seen new after hnew ih =>
    have hproducers : ∀ id ∈ g.producers current, ∃ link ∈ g.links, link.producer = id := by
      intro id hid
      obtain ⟨link, hlink, hproducer, -⟩ := mem_producers.mp hid
      exact ⟨link, hlink, hproducer⟩
    have hcount := unseen_freshProducers seen hproducers
    simp only [hnew] at hcount
    rw [List.length_append, List.length_reverse] at ih
    rw [List.length_cons] at hfuel ⊢
    obtain ⟨rounds, hrounds, h⟩ := ih (by omega)
    exact ⟨rounds + 1, by omega, .expand hnew h⟩

/-! ### What the collection finds -/

namespace Gathers

variable {rounds : Nat} {stack seen found : List String}

/-- Every node found has a chain of links to a node on the stack. -/
theorem exists_chain (h : g.Gathers rounds stack seen found) {id : String} (hid : id ∈ found) :
    ∃ start ∈ stack, TransGen g.Feeds id start := by
  induction h with
  | exhausted => exact absurd hid List.not_mem_nil
  | @expand _ current stack seen new after found hnew _ ih =>
    have hfresh := @mem_freshProducers seen (g.producers current)
    simp only [hnew] at hfresh
    have hfeeds {other : String} (hother : other ∈ new) : g.Feeds other current :=
      mem_producers.mp (hfresh.mp hother).1
    rcases List.mem_append.mp hid with hid | hid
    · exact ⟨current, List.mem_cons_self, .single (hfeeds hid)⟩
    · obtain ⟨start, hstart, hchain⟩ := ih hid
      rcases List.mem_append.mp hstart with hstart | hstart
      · exact ⟨current, List.mem_cons_self, hchain.tail (hfeeds (List.mem_reverse.mp hstart))⟩
      · exact ⟨start, List.mem_cons_of_mem _ hstart, hchain⟩

/-- No node is found twice, and none that was seen before. -/
theorem nodup (h : g.Gathers rounds stack seen found) :
    found.Nodup ∧ ∀ id ∈ found, id ∉ seen := by
  induction h with
  | exhausted => exact ⟨List.nodup_nil, fun _ hmem => absurd hmem List.not_mem_nil⟩
  | @expand _ current stack seen new after found hnew _ ih =>
    have hafter := freshProducers_snd seen (g.producers current)
    have hnodup := nodup_freshProducers seen (g.producers current)
    have hfresh := @mem_freshProducers seen (g.producers current)
    simp only [hnew] at hafter hnodup hfresh
    simp only [hafter, List.mem_append, List.mem_reverse, not_or] at ih
    refine ⟨List.nodup_append'.mpr ⟨hnodup, ih.1, fun id hid hfound => ?_⟩, fun id hid => ?_⟩
    · exact (ih.2 id hfound).1 hid
    · rcases List.mem_append.mp hid with hid | hid
      · exact (hfresh.mp hid).2
      · exact (ih.2 id hid).2

/-- What feeds a node that is on the stack or seen is seen in the end, if it was seen or on the
stack for every node seen before. -/
theorem closed (h : g.Gathers rounds stack seen found)
    (hpending : ∀ consumer ∈ seen, consumer ∈ stack ∨
      ∀ producer, g.Feeds producer consumer → producer ∈ seen) {consumer : String}
    (hconsumer : consumer ∈ stack ∨ consumer ∈ seen ∨ consumer ∈ found) {producer : String}
    (hfeeds : g.Feeds producer consumer) : producer ∈ seen ∨ producer ∈ found := by
  induction h generalizing consumer producer with
  | exhausted =>
    rcases hconsumer with hconsumer | hconsumer | hconsumer
    · exact absurd hconsumer List.not_mem_nil
    · rcases hpending consumer hconsumer with hstack | hclosed
      · exact absurd hstack List.not_mem_nil
      · exact .inl (hclosed producer hfeeds)
    · exact absurd hconsumer List.not_mem_nil
  | @expand _ current stack seen new after found hnew _ ih =>
    have hafter := freshProducers_snd seen (g.producers current)
    have hfresh := @mem_freshProducers seen (g.producers current)
    simp only [hnew] at hafter hfresh
    subst hafter
    simp only [List.mem_append, List.mem_reverse] at ih hconsumer ⊢
    -- The producers of the top of the stack are seen now, whether they are new or not.
    have hcurrent {other : String} (hother : g.Feeds other current) :
        other ∈ new ∨ other ∈ seen := by
      by_cases hseen : other ∈ seen
      · exact .inr hseen
      · exact .inl (hfresh.mpr ⟨mem_producers.mpr hother, hseen⟩)
    have hpending' : ∀ consumer, consumer ∈ new ∨ consumer ∈ seen →
        (consumer ∈ new ∨ consumer ∈ stack) ∨
          ∀ producer, g.Feeds producer consumer → producer ∈ new ∨ producer ∈ seen := by
      rintro consumer (hconsumer | hconsumer)
      · exact .inl (.inl hconsumer)
      · rcases hpending consumer hconsumer with hstack | hclosed
        · rcases List.mem_cons.mp hstack with rfl | hstack
          · exact .inr fun producer => hcurrent
          · exact .inl (.inr hstack)
        · exact .inr fun producer hfeeds => .inr (hclosed producer hfeeds)
    have hrest (hother : (consumer ∈ new ∨ consumer ∈ stack) ∨
        (consumer ∈ new ∨ consumer ∈ seen) ∨ consumer ∈ found) :
        producer ∈ seen ∨ producer ∈ new ∨ producer ∈ found := by
      rcases ih hpending' hother hfeeds with (hnew | hseen) | hfound
      · exact .inr (.inl hnew)
      · exact .inl hseen
      · exact .inr (.inr hfound)
    rcases hconsumer with hconsumer | hconsumer | hconsumer | hconsumer
    · rcases List.mem_cons.mp hconsumer with rfl | hconsumer
      · rcases hcurrent hfeeds with hnew | hseen
        · exact .inr (.inl hnew)
        · exact .inl hseen
      · exact hrest (.inl (.inr hconsumer))
    · exact hrest (.inr (.inl (.inr hconsumer)))
    · exact hrest (.inl (.inl hconsumer))
    · exact hrest (.inr (.inr hconsumer))

/-- From one node, exactly the nodes with a chain of links to it are found. -/
theorem mem_iff {id : String} (h : g.Gathers rounds [id] [] found) {other : String} :
    other ∈ found ↔ TransGen g.Feeds other id := by
  constructor
  · intro hother
    obtain ⟨start, hstart, hchain⟩ := h.exists_chain hother
    rwa [List.mem_singleton.mp hstart] at hchain
  · have hclosed {consumer producer : String} (hconsumer : consumer = id ∨ consumer ∈ found)
        (hfeeds : g.Feeds producer consumer) : producer ∈ found := by
      refine (h.closed (fun _ hmem => absurd hmem List.not_mem_nil) ?_ hfeeds).resolve_left
        List.not_mem_nil
      exact hconsumer.imp List.mem_singleton.mpr .inr
    intro hchain
    induction hchain using TransGen.head_induction_on with
    | single hfeeds => exact hclosed (.inl rfl) hfeeds
    | head hfeeds _ ih => exact hclosed (.inr ih) hfeeds

end Gathers

/-! ### Ancestors -/

/-- The collection from a node ends after at most one round for each link, and one more. -/
theorem exists_gathers (g : Graph) (id : String) :
    ∃ rounds ≤ g.links.length + 1, ∃ found, g.Gathers rounds [id] [] found ∧
      g.ancestors id = found.filterMap g.node? := by
  have hcount : g.unseen [] ≤ g.links.length := List.countP_le_length
  have hlength : [id].length = 1 := rfl
  have hfuel : [id].length + g.unseen [] < g.links.length + 2 := by omega
  obtain ⟨rounds, hrounds, h⟩ := gathers_ancestorLoop hfuel
  exact ⟨rounds, by omega, _, h, rfl⟩

theorem map_id_filterMap_node? {ids : List String} (hids : ∀ id ∈ ids, id ∈ g.nodes.map Node.id) :
    (ids.filterMap g.node?).map Node.id = ids := by
  induction ids with
  | nil => rfl
  | cons id ids ih =>
    obtain ⟨hid, hids⟩ := List.forall_mem_cons.mp hids
    cases hnode : g.node? id with
    | none => exact absurd hid (node?_eq_none_iff.mp hnode)
    | some node =>
      rw [List.filterMap_cons_some hnode, List.map_cons, ih hids, (mem_of_node? hnode).2]

/-- A node and all nodes that it reads from, directly or through others. -/
def cone (g : Graph) (id : String) : List String := id :: (g.ancestors id).map Node.id

namespace WellFormed

variable (h : g.WellFormed) {id : String}

include h

theorem ancestors_spec (id : String) :
    ((g.ancestors id).map Node.id).Nodup ∧
      ∀ other, other ∈ (g.ancestors id).map Node.id ↔ TransGen g.Feeds other id := by
  obtain ⟨_, -, found, hfound, heq⟩ := g.exists_gathers id
  have hids : ∀ other ∈ found, other ∈ g.nodes.map Node.id := by
    intro other hother
    obtain ⟨consumer, hfeeds, -⟩ := TransGen.head'_iff.mp (hfound.mem_iff.mp hother)
    exact h.mem_nodes_of_feeds hfeeds
  rw [heq, map_id_filterMap_node? hids]
  exact ⟨hfound.nodup.1, fun other => hfound.mem_iff⟩

theorem mem_map_ancestors {other : String} :
    other ∈ (g.ancestors id).map Node.id ↔ TransGen g.Feeds other id :=
  (h.ancestors_spec id).2 other

theorem nodup_ancestors (id : String) : (g.ancestors id).Nodup :=
  .of_map Node.id (h.ancestors_spec id).1

/-- **The ancestors of a node are the nodes with a chain of links to it.** -/
theorem mem_ancestors {node : Node} :
    node ∈ g.ancestors id ↔ node ∈ g.nodes ∧ TransGen g.Feeds node.id id := by
  have hnodes {other : Node} (hother : other ∈ g.ancestors id) : other ∈ g.nodes := by
    obtain ⟨_, -, hfound⟩ := List.mem_filterMap.mp hother
    exact (mem_of_node? hfound).1
  constructor
  · intro hnode
    exact ⟨hnodes hnode, h.mem_map_ancestors.mp (List.mem_map_of_mem hnode)⟩
  · rintro ⟨hnode, hchain⟩
    obtain ⟨other, hother, hid⟩ := List.mem_map.mp (h.mem_map_ancestors.mpr hchain)
    rwa [← List.inj_on_of_nodup_map h.nodes_nodup (hnodes hother) hnode hid]

theorem mem_cone {other : String} : other ∈ g.cone id ↔ ReflTransGen g.Feeds other id := by
  rw [cone, List.mem_cons, h.mem_map_ancestors, reflTransGen_iff_eq_or_transGen, eq_comm]

/-- The search for a node finds it exactly among the node itself and its ancestors. -/
theorem dependsOn_iff_mem_cone {ancestor : String} :
    g.dependsOn id ancestor = true ↔ ancestor ∈ g.cone id := by
  rw [dependsOn_iff, h.mem_cone]

open Classical in
/-- What is counted of the ancestors of a node is counted of all nodes with a chain of links
to it. -/
theorem length_filter_ancestors (p : Node → Bool) (id : String) :
    ((g.ancestors id).filter p).length =
      (g.nodes.filter fun node => TransGen g.Feeds node.id id ∧ p node).length := by
  refine List.Perm.length_eq ((List.perm_ext_iff_of_nodup ?_ ?_).mpr fun node => ?_)
  · exact (h.nodup_ancestors id).filter _
  · exact (List.Nodup.of_map Node.id h.nodes_nodup).filter _
  · rw [List.mem_filter, List.mem_filter, h.mem_ancestors, decide_eq_true_eq, and_assoc]

end WellFormed

open Classical in
/-- **The two searches along links agree.** In every reachable graph, the collection of the
ancestors of a node ends after at most one round for each link and one more, and finds exactly the
nodes from which a chain of one or more links leads to the node, each once and never the node
itself. The search for a node ends within as many rounds and finds exactly the node itself and its
ancestors. So a rendered image counts each filter node that feeds the end node once. -/
theorem searches_agree [ImageLibrary] (h : g.Reachable) :
    (∀ id, (∃ rounds ≤ g.links.length + 1, ∃ found, g.Gathers rounds [id] [] found ∧
        g.ancestors id = found.filterMap g.node?) ∧
      (∀ node, node ∈ g.ancestors id ↔ node ∈ g.nodes ∧ TransGen g.Feeds node.id id) ∧
      ((g.ancestors id).map Node.id).Nodup ∧ id ∉ (g.ancestors id).map Node.id) ∧
    (∀ id ancestor, (∃ rounds ≤ g.links.length + 1,
        g.Answers ancestor rounds [id] [] (g.dependsOn id ancestor)) ∧
      (g.dependsOn id ancestor = true ↔
        id = ancestor ∨ ancestor ∈ (g.ancestors id).map Node.id)) ∧
    ∀ last ∈ g.nodes, last.kind = .endNode → ∀ name sources result,
      (Task.render g name).transform sources = .ok result →
        result.operations = (g.nodes.filter fun node => TransGen g.Feeds node.id last.id ∧
          node.kind ≠ .image ∧ node.kind.output = .image).length := by
  have hg := h.wellFormed
  refine ⟨fun id => ⟨g.exists_gathers id, fun node => hg.mem_ancestors, ?_, fun hid => ?_⟩,
    fun id ancestor => ⟨g.exists_answers id ancestor, ?_⟩, ?_⟩
  · exact (hg.ancestors_spec id).1
  · exact hg.acyclic id (hg.mem_map_ancestors.mp hid)
  · rw [hg.dependsOn_iff_mem_cone, cone, List.mem_cons, eq_comm]
  · intro last hlast hkind name sources result hresult
    obtain ⟨images, -, hresult⟩ := bind_eq_ok_iff.mp hresult
    obtain ⟨image, -, hresult⟩ := bind_eq_ok_iff.mp hresult
    obtain rfl := Except.ok.inj hresult
    simp only [Task.operationCount, hg.endNodeId?_eq hlast hkind, hg.length_filter_ancestors,
      decide_eq_true_eq]

open Classical in
/-- The number that is linked to two slots is found once; and the picture is counted as moved by
the nodes that work on images and feed the end node. -/
theorem shiftFlow_found_once :
    ((shiftFlow.ancestors "endNode").map Node.id).Nodup ∧
    shiftFlow.dependsOn "endNode" "int-2" = true ∧
    ∃ result, (Task.render shiftFlow "out.png").transform
        [⟨"image-1", "photo.png", Bmp.encode (.rgb (Raster.solid 1 1 ⟨10, 20, 30⟩))⟩] = .ok result ∧
      result.operations = (shiftFlow.nodes.filter fun node =>
        TransGen shiftFlow.Feeds node.id "endNode" ∧ node.kind ≠ .image ∧
          node.kind.output = .image).length := by
  obtain ⟨hancestors, hsearch, hcount⟩ := searches_agree shiftFlow_reachable
  have hfound : "int-2" ∈ (shiftFlow.ancestors "endNode").map Node.id := by decide +kernel
  have hlast : ∃ last ∈ shiftFlow.nodes, last.id = "endNode" ∧ last.kind = .endNode := by
    decide +kernel
  obtain ⟨last, hlast, hid, hkind⟩ := hlast
  obtain ⟨result, hresult⟩ := exists_of_isOk (x := (Task.render shiftFlow "out.png").transform
    [⟨"image-1", "photo.png", Bmp.encode (.rgb (Raster.solid 1 1 ⟨10, 20, 30⟩))⟩])
    (by decide +kernel)
  refine ⟨(hancestors "endNode").2.2.1, (hsearch "endNode" "int-2").2.mpr (.inr hfound), result,
    hresult, ?_⟩
  rw [← hid]
  exact hcount last hlast hkind _ _ _ hresult

end Darkroom.Graph
