import Darkroom.Proofs.Graph.Connect
import Darkroom.Proofs.Graph.Evaluation

/-!
# Stored graphs and the graphs built from them

A file describes a graph: its nodes of registered kinds, with an end node added where they have
none, and its links, both in order (`Graph.described`). Building it one entry at a time succeeds
exactly when the whole is well-formed (`Graph.ofSaved_eq_ok_iff`), as long as no two links of the
file lead into one slot. Such a link never replaces another, so every graph on the way is the
described one with fewer nodes or links, and the invariant goes down to those: an early link is
refused only for a reason that the whole file has too.

Storing a graph gives a file that describes the same graph, up to the number that new identifiers
are tried with. So a well-formed graph is stored and built again without loss.

## Main definitions

* `SavedNode.node?`, `SavedLink.link` : the entries of a file as nodes and links.
* `Graph.fileNodes`, `Graph.described` : the graph that a file describes, well-formed or not.

## Main results

* `Registry.resolve?_eq_some_iff` : the kind of a name.
* `Graph.ofSaved_eq_ok_iff` : what building a graph from a file does.
* `Graph.ofSaved_succeeds_iff` : the files that are accepted, in terms of their entries.
* `Graph.ofSaved_toSaved` : a stored graph is built again.
-/

namespace Darkroom

/-! ### Names of kinds -/

/-- Whether two names are the same but for the case of their ASCII letters. -/
def SameName (a b : String) : Prop := a.toList.map Char.toLower = b.toList.map Char.toLower

instance (a b : String) : Decidable (SameName a b) :=
  inferInstanceAs (Decidable (a.toList.map Char.toLower = b.toList.map Char.toLower))

theorem sameName_iff {a b : String} : SameName a b ↔ a.toLower = b.toLower := by
  have hlower (s : String) : s.toLower.toList = s.toList.map Char.toLower := String.toList_map
  rw [SameName, ← String.toList_inj, hlower, hlower]

theorem NodeKind.mem_all (kind : NodeKind) : kind ∈ all := by
  cases kind <;> decide

theorem NodeKind.eq_of_sameName {kind other : NodeKind} (h : SameName kind.name other.name) :
    kind = other := by
  have hnodup : (all.map fun kind => kind.name.toList.map Char.toLower).Nodup := by
    decide +kernel
  exact List.inj_on_of_nodup_map hnodup kind.mem_all other.mem_all h

theorem Registry.resolve?_eq_find? (registry : Registry) (name : String) :
    registry.resolve? name = registry.kinds.find? fun kind => SameName kind.name name := by
  simp only [resolve?, sameName_iff]

/-- A name is that of the one registered kind whose name differs from it in case only. -/
theorem Registry.resolve?_eq_some_iff {registry : Registry} {name : String} {kind : NodeKind} :
    registry.resolve? name = some kind ↔
      registry.isRegistered kind ∧ SameName kind.name name := by
  rw [resolve?_eq_find?, isRegistered, List.contains_iff_mem]
  constructor
  · intro h
    exact ⟨List.mem_of_find?_eq_some h, by simpa using List.find?_some h⟩
  · rintro ⟨hmem, hname⟩
    cases hfound : registry.kinds.find? fun kind => SameName kind.name name with
    | none =>
      rw [List.find?_eq_none] at hfound
      exact absurd (decide_eq_true hname) (hfound kind hmem)
    | some found =>
      have hfoundName : SameName found.name name := by simpa using List.find?_some hfound
      rw [NodeKind.eq_of_sameName (hfoundName.trans hname.symm)]

/-! ### The graph that a file describes -/

/-- The node of a stored node, if its type is the name of a registered kind in any case. -/
def SavedNode.node? (registry : Registry) (saved : SavedNode) : Option Node := do
  let name ← saved.kind
  let kind ← registry.kinds.find? fun kind => SameName kind.name name
  return ⟨saved.id, kind, saved.position, saved.data⟩

theorem SavedNode.node?_eq (registry : Registry) (saved : SavedNode) :
    saved.node? registry = (saved.kind.bind registry.resolve?).map fun kind =>
      ⟨saved.id, kind, saved.position, saved.data⟩ := by
  cases hname : saved.kind with
  | none => rw [node?, hname]; rfl
  | some name =>
    rw [node?, hname, Option.bind_some, Registry.resolve?_eq_find?, Option.map_eq_bind]
    rfl

/-- The node of a stored node whose type is the name of a registered kind. -/
theorem SavedNode.node?_of_name {registry : Registry} {saved : SavedNode} {kind : NodeKind}
    (hname : saved.kind = some kind.name) (hkind : registry.isRegistered kind) :
    saved.node? registry = some ⟨saved.id, kind, saved.position, saved.data⟩ := by
  rw [node?_eq, hname, Option.bind_some, Registry.resolve?_eq_some_iff.mpr ⟨hkind, rfl⟩]
  rfl

/-- The link of a stored link. -/
def SavedLink.link (saved : SavedLink) : Link :=
  ⟨saved.id, saved.producer, saved.consumer, saved.slot, saved.anchor, saved.outputPosition,
    saved.inputPosition⟩

namespace Graph

/-- Nodes with an end node after them, where they have none. -/
def withEndNode (nodes : List Node) : List Node :=
  if nodes.any (·.kind = .endNode) then nodes else nodes ++ [endNode]

/-- The nodes of a file: those of registered kinds in order, and an end node. -/
def fileNodes (registry : Registry) (saved : List SavedNode) : List Node :=
  withEndNode (saved.filterMap (SavedNode.node? registry))

/-- The graph that a file describes, well-formed or not. -/
def described (registry : Registry) (nodes : List SavedNode) (links : List SavedLink) : Graph :=
  ⟨fileNodes registry nodes, links.map SavedLink.link, 1⟩

variable {g g' : Graph} {registry : Registry}

/-! ### Adding the nodes of a file -/

/-- Leaving out the last nodes. -/
theorem Loading.of_prefix {before after : List Node}
    (h : Loading { g with nodes := before ++ after }) : Loading { g with nodes := before } where
  nodes_nodup := h.nodes_nodup.sublist ((List.sublist_append_left before after).map Node.id)
  end_le := by
    have hle : List.countP (·.kind = .endNode) (before ++ after) ≤ 1 := h.end_le
    rw [List.countP_append] at hle
    exact (Nat.le_add_right _ _).trans hle
  links_nil := h.links_nil

/-- A node is added exactly when the nodes with it are as they have to be. -/
theorem Loading.insertNode_eq_ok_iff (h : g.Loading) {node : Node} :
    g.insertNode node = .ok g' ↔ g' = { g with nodes := g.nodes ++ [node] } ∧ g'.Loading := by
  constructor
  · intro hinsert
    exact ⟨(Graph.insertNode_eq_ok_iff.mp hinsert).2.2, h.insertNode hinsert⟩
  · rintro ⟨rfl, hnext⟩
    refine Graph.insertNode_eq_ok_iff.mpr ⟨?_, fun hkind => ?_, rfl⟩
    · have hnodup : ((g.nodes ++ [node]).map Node.id).Nodup := hnext.nodes_nodup
      rw [List.map_append, List.nodup_append] at hnodup
      intro hmem
      exact hnodup.2.2 node.id hmem node.id (by simp) rfl
    · have hle : (g.nodes ++ [node]).countP (·.kind = .endNode) ≤ 1 := hnext.end_le
      rw [List.countP_append, List.countP_singleton, if_pos (decide_eq_true hkind)] at hle
      exact endNodeId?_eq_none_iff.mpr (by omega)

/-- The nodes of a file are added exactly when all of them together are as they have to be. -/
theorem Loading.insertNodes_eq_ok_iff (h : g.Loading) {saved : List SavedNode} :
    Graph.insertNodes registry g saved = .ok g' ↔
      g' = { g with nodes := g.nodes ++ saved.filterMap (SavedNode.node? registry) } ∧
        g'.Loading := by
  induction saved generalizing g with
  | nil =>
    rw [Graph.insertNodes, List.filterMap_nil, List.append_nil]
    constructor
    · intro heq
      cases heq
      exact ⟨rfl, h⟩
    · rintro ⟨rfl, -⟩
      rfl
  | cons saved rest ih =>
    rw [Graph.insertNodes]
    cases hkind : saved.kind.bind registry.resolve? with
    | none =>
      have hnode : saved.node? registry = none := by rw [saved.node?_eq, hkind]; rfl
      rw [List.filterMap_cons_none hnode]
      exact ih h
    | some kind =>
      let node : Node := ⟨saved.id, kind, saved.position, saved.data⟩
      have hnode : saved.node? registry = some node := by rw [saved.node?_eq, hkind]; rfl
      rw [List.filterMap_cons_some hnode, List.append_cons]
      dsimp only
      rw [bind_eq_ok_iff]
      constructor
      · rintro ⟨next, hinsert, hrest⟩
        obtain ⟨rfl, hnext⟩ := h.insertNode_eq_ok_iff.mp hinsert
        exact (ih hnext).mp hrest
      · rintro ⟨rfl, hlast⟩
        have hnext : Loading { g with nodes := g.nodes ++ [node] } := hlast.of_prefix
        exact ⟨_, h.insertNode_eq_ok_iff.mpr ⟨rfl, hnext⟩, (ih hnext).mpr ⟨rfl, hlast⟩⟩

/-- An end node is added exactly when the nodes with it make a well-formed graph. -/
theorem Loading.ensureEndNode_eq_ok_iff (h : g.Loading) :
    g.ensureEndNode = .ok g' ↔ g' = { g with nodes := withEndNode g.nodes } ∧ g'.WellFormed := by
  have hany : g.endNodeId?.isSome = g.nodes.any (·.kind = .endNode) := by
    rw [endNodeId?, Option.isSome_map, List.isSome_find?]
  have hshape : g.ensureEndNode = .ok g' → g' = { g with nodes := withEndNode g.nodes } := by
    rw [Graph.ensureEndNode, withEndNode, hany]
    split_ifs
    · exact fun heq => (Except.ok.inj heq).symm
    · exact fun hinsert => (h.insertNode_eq_ok_iff.mp hinsert).1
  constructor
  · exact fun hensure => ⟨hshape hensure, h.ensureEndNode hensure⟩
  · rintro ⟨rfl, hended⟩
    rw [Graph.ensureEndNode, hany]
    split_ifs with hend
    · rw [withEndNode, if_pos hend]
    · refine h.insertNode_eq_ok_iff.mpr ⟨?_, ?_⟩
      · rw [withEndNode, if_neg hend]
      · exact ⟨hended.nodes_nodup, hended.one_end.le, h.links_nil⟩

/-! ### Adding the links of a file -/

/-- A link into a slot that is free is added exactly when the graph with it is well-formed. -/
theorem WellFormed.insertLink_eq_ok_iff (h : g.WellFormed) (link : Link)
    (hfree : ∀ l ∈ g.links, ¬ (l.consumer = link.consumer ∧ l.slot = link.slot)) :
    g.insertLink link = .ok g' ↔ g' = { g with links := g.links ++ [link] } ∧ g'.WellFormed := by
  have hkeep : g.withoutLinkInto link.consumer link.slot = g.links :=
    List.eraseP_of_forall_not fun l hmem => by simpa using hfree l hmem
  constructor
  · intro hinsert
    have hshape := (Graph.insertLink_eq_ok_iff.mp hinsert).2.2.2
    rw [hkeep] at hshape
    exact ⟨hshape, h.insertLink hinsert⟩
  · rintro ⟨rfl, hnext⟩
    have hmem : link ∈ g.links ++ [link] := List.mem_append_right _ List.mem_cons_self
    have hid : link.id ∉ g.links.map Link.id := by
      have hnodup : ((g.links ++ [link]).map Link.id).Nodup := hnext.links_nodup
      rw [List.map_append, List.nodup_append] at hnodup
      exact fun hid => hnodup.2.2 link.id hid link.id (by simp) rfl
    refine (h.insertLink_replacing_iff hid).mpr ⟨?_, hnext.joins link hmem, hnext.acyclic⟩
    rw [← withoutLinkInto_eq_linksBeside h.one_link, hkeep]

/-- Leaving out the last links. -/
theorem WellFormed.of_prefix {before after : List Link}
    (h : WellFormed { g with links := before ++ after }) :
    WellFormed { g with links := before } :=
  h.restrict (List.Sublist.refl _) h.one_end (List.sublist_append_left before after)
    fun _ _ _ hnode _ => hnode

/-- The links of a file are added exactly when the graph with all of them is well-formed. -/
theorem WellFormed.insertLinks_eq_ok_iff (h : g.WellFormed) {saved : List SavedLink}
    (hslots : (g.links ++ saved.map SavedLink.link).Pairwise fun a b =>
      ¬ (a.consumer = b.consumer ∧ a.slot = b.slot)) :
    Graph.insertLinks g saved = .ok g' ↔
      g' = { g with links := g.links ++ saved.map SavedLink.link } ∧ g'.WellFormed := by
  induction saved generalizing g with
  | nil =>
    rw [Graph.insertLinks, List.map_nil, List.append_nil]
    constructor
    · intro heq
      cases heq
      exact ⟨rfl, h⟩
    · rintro ⟨rfl, -⟩
      rfl
  | cons saved rest ih =>
    have hfree : ∀ l ∈ g.links,
        ¬ (l.consumer = saved.link.consumer ∧ l.slot = saved.link.slot) := by
      rw [List.pairwise_append] at hslots
      exact fun l hmem => hslots.2.2 l hmem saved.link List.mem_cons_self
    rw [List.map_cons, List.append_cons] at hslots ⊢
    rw [Graph.insertLinks, bind_eq_ok_iff]
    constructor
    · rintro ⟨next, hinsert, hrest⟩
      obtain ⟨rfl, hnext⟩ := (h.insertLink_eq_ok_iff saved.link hfree).mp hinsert
      exact (ih hnext hslots).mp hrest
    · rintro ⟨rfl, hlast⟩
      have hnext : WellFormed { g with links := g.links ++ [saved.link] } := hlast.of_prefix
      exact ⟨_, (h.insertLink_eq_ok_iff saved.link hfree).mpr ⟨rfl, hnext⟩,
        (ih hnext hslots).mpr ⟨rfl, hlast⟩⟩

/-! ### Building a graph from a file -/

/-- **A graph is built from a file exactly when the file describes a well-formed one**, and then
it is that graph. -/
theorem ofSaved_eq_ok_iff {nodes : List SavedNode} {links : List SavedLink}
    (hslots : links.Pairwise fun a b => ¬ (a.consumer = b.consumer ∧ a.slot = b.slot)) :
    ofSaved ⟨some nodes, some links⟩ registry = .ok g ↔
      g = described registry nodes links ∧ g.WellFormed := by
  have hslots' : (links.map SavedLink.link).Pairwise fun a b =>
      ¬ (a.consumer = b.consumer ∧ a.slot = b.slot) := List.pairwise_map.mpr hslots
  rw [ofSaved, bind_eq_ok_iff]
  constructor
  · rintro ⟨loaded, hnodes, hrest⟩
    obtain ⟨ended, hended, hlinks⟩ := bind_eq_ok_iff.mp hrest
    obtain ⟨rfl, hloaded⟩ := Loading.empty.insertNodes_eq_ok_iff.mp hnodes
    obtain ⟨rfl, hended⟩ := hloaded.ensureEndNode_eq_ok_iff.mp hended
    exact (hended.insertLinks_eq_ok_iff hslots').mp hlinks
  · rintro ⟨rfl, hwf⟩
    have hended : WellFormed ⟨fileNodes registry nodes, [], 1⟩ :=
      @WellFormed.of_prefix ⟨fileNodes registry nodes, [], 1⟩ [] _ hwf
    have hloaded : Loading ⟨nodes.filterMap (SavedNode.node? registry), [], 1⟩ := by
      have hloading : Loading ⟨fileNodes registry nodes, [], 1⟩ :=
        ⟨hended.nodes_nodup, hended.one_end.le, rfl⟩
      rw [fileNodes, withEndNode] at hloading
      split_ifs at hloading
      · exact hloading
      · exact hloading.of_prefix (g := ⟨[], [], 1⟩)
    refine ⟨_, Loading.empty.insertNodes_eq_ok_iff.mpr ⟨rfl, hloaded⟩, bind_eq_ok_iff.mpr ?_⟩
    exact ⟨_, hloaded.ensureEndNode_eq_ok_iff.mpr ⟨rfl, hended⟩,
      (hended.insertLinks_eq_ok_iff hslots').mpr ⟨rfl, hwf⟩⟩

/-! ### The files that are accepted -/

/-- What nodes and stored links have to satisfy together, whatever the order of the links. -/
structure Acceptable (nodes : List Node) (links : List SavedLink) : Prop where
  nodes_nodup : (nodes.map Node.id).Nodup
  one_end : nodes.countP (·.kind = .endNode) = 1
  links_nodup : (links.map SavedLink.id).Nodup
  joins : ∀ link ∈ links, ∃ producer ∈ nodes, ∃ consumer ∈ nodes,
    producer.id = link.producer ∧ consumer.id = link.consumer ∧
      ∃ slot ∈ consumer.kind.inputs, slot.name = link.slot ∧ slot.type = producer.kind.output
  acyclic : ∀ id, ¬ Relation.TransGen (fun producer consumer =>
    ∃ link ∈ links, link.producer = producer ∧ link.consumer = consumer) id id

theorem Acceptable.perm {nodes : List Node} {links other : List SavedLink}
    (h : Acceptable nodes links) (hperm : other.Perm links) : Acceptable nodes other where
  nodes_nodup := h.nodes_nodup
  one_end := h.one_end
  links_nodup := (hperm.map SavedLink.id).nodup_iff.mpr h.links_nodup
  joins link hmem := h.joins link (hperm.mem_iff.mp hmem)
  acyclic := by simpa only [hperm.mem_iff] using h.acyclic

/-- If no two links lead into one slot, the described graph is well-formed exactly when the entries
of the file are acceptable. -/
theorem described_wellFormed_iff {nodes : List SavedNode} {links : List SavedLink}
    (hslots : links.Pairwise fun a b => ¬ (a.consumer = b.consumer ∧ a.slot = b.slot)) :
    (described registry nodes links).WellFormed ↔ Acceptable (fileNodes registry nodes) links := by
  have hids : (links.map SavedLink.link).map Link.id = links.map SavedLink.id := by
    simp only [List.map_map, Function.comp_def, SavedLink.link]
  have hfeeds : (described registry nodes links).Feeds = fun producer consumer =>
      ∃ link ∈ links, link.producer = producer ∧ link.consumer = consumer := by
    funext producer consumer
    simp only [Feeds, described, List.mem_map, exists_exists_and_eq_and, SavedLink.link]
  constructor
  · intro h
    refine ⟨h.nodes_nodup, h.one_end, hids ▸ h.links_nodup, fun link hmem => ?_, ?_⟩
    · obtain ⟨producer, hproducer, consumer, hconsumer, hpid, hcid, slot, hslot, hname, htype⟩ :=
        h.joins link.link (List.mem_map_of_mem hmem)
      exact ⟨producer, hproducer, consumer, hconsumer, hpid, hcid, slot, hslot, hname, htype.symm⟩
    · exact hfeeds ▸ h.acyclic
  · intro h
    refine ⟨h.nodes_nodup, hids ▸ h.links_nodup, h.one_end, fun link hmem => ?_,
      List.pairwise_map.mpr hslots, ?_⟩
    · obtain ⟨saved, hsaved, rfl⟩ := List.mem_map.mp hmem
      obtain ⟨producer, hproducer, consumer, hconsumer, hpid, hcid, slot, hslot, hname, htype⟩ :=
        h.joins saved hsaved
      exact ⟨producer, hproducer, consumer, hconsumer, hpid, hcid, slot, hslot, hname, htype.symm⟩
    · rw [Acyclic, hfeeds]
      exact h.acyclic

theorem exists_ofSaved_iff {nodes : List SavedNode} {links : List SavedLink}
    (hslots : links.Pairwise fun a b => ¬ (a.consumer = b.consumer ∧ a.slot = b.slot)) :
    (∃ g, ofSaved ⟨some nodes, some links⟩ registry = .ok g) ↔
      Acceptable (fileNodes registry nodes) links := by
  rw [← described_wellFormed_iff hslots]
  constructor
  · rintro ⟨g, hload⟩
    obtain ⟨rfl, hwf⟩ := (ofSaved_eq_ok_iff hslots).mp hload
    exact hwf
  · exact fun hwf => ⟨_, (ofSaved_eq_ok_iff hslots).mpr ⟨rfl, hwf⟩⟩

/-- **The files that are accepted.** If no two links of a file lead into one slot, a graph is built
from it exactly when its entries are acceptable; then the nodes and links of the graph are those of
the file, in order. The order of the links makes no difference to whether the file is accepted. -/
theorem ofSaved_succeeds_iff (registry : Registry) (nodes : List SavedNode)
    (links : List SavedLink)
    (hslots : links.Pairwise fun a b => ¬ (a.consumer = b.consumer ∧ a.slot = b.slot)) :
    ((∃ g, ofSaved ⟨some nodes, some links⟩ registry = .ok g) ↔
      Acceptable (fileNodes registry nodes) links) ∧
    (∀ g, ofSaved ⟨some nodes, some links⟩ registry = .ok g →
      g.nodes = fileNodes registry nodes ∧ g.links = links.map SavedLink.link) ∧
    ∀ other : List SavedLink, other.Perm links →
      ((∃ g, ofSaved ⟨some nodes, some other⟩ registry = .ok g) ↔
        ∃ g, ofSaved ⟨some nodes, some links⟩ registry = .ok g) := by
  refine ⟨exists_ofSaved_iff hslots, fun g hload => ?_, fun other hperm => ?_⟩
  · obtain ⟨rfl, -⟩ := (ofSaved_eq_ok_iff hslots).mp hload
    exact ⟨rfl, rfl⟩
  · have hother : other.Pairwise fun a b => ¬ (a.consumer = b.consumer ∧ a.slot = b.slot) :=
      hperm.pairwise_iff (fun hab hba => hab ⟨hba.1.symm, hba.2.symm⟩) |>.mpr hslots
    rw [exists_ofSaved_iff hother, exists_ofSaved_iff hslots]
    exact ⟨fun h => h.perm hperm.symm, fun h => h.perm hperm⟩

/-- Nodes of a sketch: two are of no known kind, and none is an end node. -/
def sketchNodes : List SavedNode :=
  [⟨"size", some "int", ⟨0.0, 0.0⟩, some "2"⟩, ⟨"kettle", some "TEAPOT", ⟨0.0, 0.0⟩, none⟩,
    ⟨"photo", some "Image", ⟨0.0, 90.0⟩, some "photo.png"⟩, ⟨"note", none, ⟨0.0, 0.0⟩, none⟩,
    ⟨"scaled", some "Scale_Pixel", ⟨90.0, 45.0⟩, none⟩]

/-- Links of the sketch, from the end back. -/
def sketchLinks : List SavedLink :=
  [("out", "scaled", "endNode", "firstLink"), ("height", "size", "scaled", "thirdLink"),
    ("width", "size", "scaled", "secondLink"), ("in", "photo", "scaled", "firstLink")].map
    fun (id, producer, consumer, slot) =>
      ⟨id, consumer, producer, slot, outputAnchor, ⟨0.0, 0.0⟩, ⟨0.0, 0.0⟩⟩

theorem sketch_acceptable : Acceptable (fileNodes .full sketchNodes) sketchLinks where
  nodes_nodup := by decide +kernel
  one_end := by decide +kernel
  links_nodup := by decide +kernel
  joins := by decide +kernel
  acyclic id hcycle := by
    let rank (id : String) : Nat := ["size", "photo", "scaled", "endNode"].idxOf id
    have hlinks : ∀ link ∈ sketchLinks, rank link.producer < rank link.consumer := by
      decide +kernel
    have hrank := hcycle.lift (p := (· < ·)) rank <| by
      rintro _ _ ⟨link, hmem, rfl, rfl⟩
      exact hlinks link hmem
    rw [Relation.transGen_eq_self] at hrank
    exact lt_irrefl _ hrank

theorem sketch_loads_either_way :
    (∃ g, ofSaved ⟨some sketchNodes, some sketchLinks⟩ .full = .ok g ∧
      g.nodes.map Node.id = ["size", "photo", "scaled", "endNode"] ∧
      g.links.map Link.id = ["out", "height", "width", "in"]) ∧
    ∃ g, ofSaved ⟨some sketchNodes, some sketchLinks.reverse⟩ .full = .ok g := by
  have hslots : sketchLinks.Pairwise fun a b => ¬ (a.consumer = b.consumer ∧ a.slot = b.slot) := by
    decide +kernel
  obtain ⟨haccepted, hentries, horder⟩ :=
    ofSaved_succeeds_iff .full sketchNodes sketchLinks hslots
  obtain ⟨g, hload⟩ := haccepted.mpr sketch_acceptable
  obtain ⟨hnodes, hlinks⟩ := hentries g hload
  refine ⟨⟨g, hload, ?_, ?_⟩, (horder _ sketchLinks.reverse_perm).mpr ⟨g, hload⟩⟩
  · rw [hnodes]
    decide +kernel
  · rw [hlinks]
    decide +kernel

/-! ### Storing a graph -/

/-- If the kinds of its nodes are registered, a stored graph describes itself, up to the number that
the next identifier is tried with. -/
theorem described_toSaved (h : g.WellFormed)
    (hkinds : ∀ node ∈ g.nodes, registry.isRegistered node.kind) :
    ∃ nodes links, g.toSaved = ⟨some nodes, some links⟩ ∧ links.map SavedLink.link = g.links ∧
      described registry nodes links = { g with nextId := 1 } := by
  have hnodes : (g.nodes.map fun node => SavedNode.mk node.id (some node.kind.name) node.position
      node.data).filterMap (SavedNode.node? registry) = g.nodes := by
    rw [List.filterMap_map]
    refine (List.filterMap_congr fun node hmem => ?_).trans List.filterMap_some
    exact SavedNode.node?_of_name rfl (hkinds node hmem)
  have hend : g.nodes.any (·.kind = .endNode) = true := by
    obtain ⟨node, hmem, hkind⟩ := h.exists_endNode
    exact List.any_eq_true.mpr ⟨node, hmem, decide_eq_true hkind⟩
  have hlinks : (g.links.map fun link => SavedLink.mk link.id link.consumer link.producer link.slot
      link.anchor link.inputPosition link.outputPosition).map SavedLink.link = g.links := by
    rw [List.map_map]
    exact List.map_id _
  refine ⟨_, _, rfl, hlinks, ?_⟩
  rw [described, fileNodes, hnodes, hlinks, withEndNode, if_pos hend]

/-- The number that new identifiers are tried with has no part in evaluation. -/
theorem WellFormed.evaluate_nextId [ImageLibrary] (h : g.WellFormed) (n : Nat) (id : String)
    (images : Images) :
    evaluate { g with nextId := n } id images = g.evaluate id images := by
  have hn : WellFormed { g with nextId := n } := h.of_kinds_eq rfl rfl
  have hvalue : Describes { g with nextId := n } images fun id => g.evaluate id images :=
    h.describes_evaluate images
  exact hn.evaluate_eq hvalue id

/-- **A stored graph is built again without loss**: with a registry of all kinds in it, a reachable
graph is built from its stored form, with the same nodes and links in the same order, so that every
node evaluates to the same. -/
theorem ofSaved_toSaved [ImageLibrary] (h : g.Reachable)
    (hkinds : ∀ node ∈ g.nodes, registry.isRegistered node.kind) :
    ∃ g', ofSaved g.toSaved registry = .ok g' ∧ g'.nodes = g.nodes ∧ g'.links = g.links ∧
      ∀ id images, g'.evaluate id images = g.evaluate id images := by
  have hg := h.wellFormed
  obtain ⟨nodes, links, hsaved, hlinks, hdescribed⟩ := described_toSaved hg hkinds
  have hslots : links.Pairwise fun a b => ¬ (a.consumer = b.consumer ∧ a.slot = b.slot) := by
    have hone := hg.one_link
    rw [← hlinks, List.pairwise_map] at hone
    exact hone
  have hagain : WellFormed { g with nextId := 1 } := hg.of_kinds_eq rfl rfl
  refine ⟨{ g with nextId := 1 }, ?_, rfl, rfl, fun id images => hg.evaluate_nextId 1 id images⟩
  rw [hsaved]
  exact (ofSaved_eq_ok_iff hslots).mpr ⟨hdescribed.symm, hagain⟩

theorem shiftFlow_stored_and_built :
    ∃ g, ofSaved shiftFlow.toSaved (.ofKinds [.movePixel, .int, .image]) = .ok g ∧
      g.links = shiftFlow.links ∧
      g.evaluate "endNode" onePixel = shiftFlow.evaluate "endNode" onePixel := by
  have hkinds : ∀ node ∈ shiftFlow.nodes,
      (Registry.ofKinds [.movePixel, .int, .image]).isRegistered node.kind := by
    decide +kernel
  obtain ⟨g, hload, -, hlinks, hsame⟩ := ofSaved_toSaved shiftFlow_reachable hkinds
  exact ⟨g, hload, hlinks, hsame "endNode" onePixel⟩

end Graph

end Darkroom
