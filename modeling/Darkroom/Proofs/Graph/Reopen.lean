import Darkroom.Proofs.Graph.Codec
import Darkroom.Proofs.Graph.Saved
import Darkroom.Proofs.Json.Double
import Darkroom.Proofs.Json.Refusal

/-!
# Saved graphs that are opened again

The only part of a graph that its file may not be able to hold is a coordinate. One that is not
finite is written as `null`, and the file is then refused as a whole; finite coordinates are all
read, each perhaps as another double near it (`SavedGraph.decode_encode_eq`).

The links of a graph that edits lead to from the new graph have no positions of their own, and its
nodes stand where edits have placed them (`Graph.WellFormed.places_apply`). So its file is opened
again exactly if every node has been left at finite coordinates, and then the graph is the same but
for what those are read as (`Graph.edits_reopen`).

## Main definitions

* `Point.IsFinite`, `Point.reread` : positions that a file can hold, and what they are read as.
* `Graph.Edit.places`, `Graph.Places` : where an edit may place nodes, and what it may change.
* `Graph.Drawn`, `Graph.HasFiniteNodes` : what edits keep.
* `Graph.reread` : a graph with its nodes where its file places them.

## Main results

* `SavedGraph.reads_reread`, `SavedGraph.refuses_document`, `SavedGraph.decode_encode_eq` : the file
  of any stored graph.
* `Graph.WellFormed.places_apply` : what one edit may change.
* `Graph.Drawn.edits`, `Graph.HasFiniteNodes.edits` : what holds after any edits.
* `Graph.Drawn.load_encode`, `Graph.edits_reopen` : the file of an edited graph.
-/

namespace Darkroom

open Json (Reads Refuses)
open Numeric (BinaryFormat)

/-! ### Positions -/

/-- Whether both coordinates are finite. -/
def Point.IsFinite (p : Point) : Prop :=
  Numeric.magnitude p.x < BinaryFormat.double.infinity ∧
    Numeric.magnitude p.y < BinaryFormat.double.infinity

instance (p : Point) : Decidable p.IsFinite := inferInstanceAs (Decidable (_ ∧ _))

/-- What a position is read as once it has been written. -/
def Point.reread (p : Point) : Point := ⟨Json.reread p.x, Json.reread p.y⟩

/-- Whether the two positions of a link are those of a link that has just been made. -/
def Link.IsUnplaced (link : Link) : Prop :=
  link.outputPosition = ⟨0.0, 0.0⟩ ∧ link.inputPosition = ⟨0.0, 0.0⟩

theorem Point.IsFinite.readAs_reread {p : Point} (h : p.IsFinite) : p.ReadAs p.reread :=
  ⟨Json.reads_reread h.1, Json.reads_reread h.2⟩

theorem Point.refuses_document {p : Point} (h : ¬ p.IsFinite) :
    Refuses readPoint 1 p.document .mistyped := by
  refine Json.refuses_record fun depth hdepth => ?_
  by_cases hx : Numeric.magnitude p.x < BinaryFormat.double.infinity
  · refine .store (Json.reads_reread hx) hdepth ?_
    exact .refuse (Json.refuses_double fun hy => h ⟨hx, hy⟩) hdepth
  · exact .refuse (Json.refuses_double hx) hdepth

/-! ### Files of stored graphs -/

/-- A list of records that may be missing, not all of which are read. -/
theorem Json.refuses_ofList? {α β : Type} {item : Json.Reader α} {document : β → Json.Document}
    {value : β → α} {good : β → Prop} {levels : Nat} {p : JsonProblem} {xs : Option (List β)}
    (hitem : ∀ x, (document x).IsItem)
    (hread : ∀ x ∈ xs.getD [], good x → Reads item levels (document x) (value x))
    (hrefuse : ∀ x ∈ xs.getD [], ¬ good x → Refuses item levels (document x) p)
    (hbad : ¬ ∀ x ∈ xs.getD [], good x) :
    Refuses (Json.readOptional (Json.readList item)) (levels + 1)
      (.ofList? (xs.map (·.map document))) p := by
  cases xs with
  | none => exact absurd (fun _ hmem => absurd hmem List.not_mem_nil) hbad
  | some xs =>
    exact Json.refuses_optional (Json.refuses_list_map hitem hread hrefuse hbad) rfl rfl
      (by decide)

theorem SavedNode.refuses_document {node : SavedNode} (h : ¬ node.position.IsFinite) :
    Refuses readSavedNode 1 node.document .mistyped := by
  refine Json.refuses_record fun depth hdepth => ?_
  refine .store (Json.reads_text node.id) hdepth ?_
  refine .store (Json.reads_ofText? node.kind) hdepth ?_
  by_cases hx : Numeric.magnitude node.position.x < BinaryFormat.double.infinity
  · refine .store (Json.reads_reread hx) hdepth ?_
    exact .refuse (Json.refuses_double fun hy => h ⟨hx, hy⟩) hdepth
  · exact .refuse (Json.refuses_double hx) hdepth

theorem SavedLink.refuses_document {link : SavedLink}
    (h : ¬ (link.inputPosition.IsFinite ∧ link.outputPosition.IsFinite)) :
    Refuses readSavedLink 2 link.document .mistyped := by
  refine Json.refuses_record fun depth hdepth => ?_
  have hscalar : 0 < depth := by omega
  refine .store (Json.reads_text link.id) hscalar ?_
  refine .store (Json.reads_text link.consumer) hscalar ?_
  refine .store (Json.reads_text link.producer) hscalar ?_
  refine .store (Json.reads_text link.slot) hscalar ?_
  refine .store (Json.reads_text link.anchor) hscalar ?_
  by_cases hinput : link.inputPosition.IsFinite
  · refine .store hinput.readAs_reread.reads_document hdepth ?_
    exact .refuse (Point.refuses_document fun houtput => h ⟨hinput, houtput⟩) hdepth
  · exact .refuse (Point.refuses_document hinput) hdepth

namespace SavedGraph

variable {saved : SavedGraph}

theorem reads_reread (h : ∀ p ∈ saved.positions, p.IsFinite) :
    Reads readSavedGraph 4 saved.document (saved.mapPositions Point.reread) :=
  reads_mapPositions fun p hp => (h p hp).readAs_reread

theorem forall_positions_iff {P : Point → Prop} : (∀ p ∈ saved.positions, P p) ↔
    (∀ node ∈ saved.nodes.getD [], P node.position) ∧
      ∀ link ∈ saved.links.getD [], P link.inputPosition ∧ P link.outputPosition := by
  rw [positions, List.forall_mem_append, List.forall_mem_map, List.forall_mem_flatMap]
  simp only [List.forall_mem_cons, List.not_mem_nil, false_imp_iff, implies_true, and_true]

/-- A stored graph is refused at the first of its positions that is not finite. -/
theorem refuses_document (h : ¬ ∀ p ∈ saved.positions, p.IsFinite) :
    Refuses readSavedGraph 4 saved.document .mistyped := by
  rw [forall_positions_iff] at h
  have hnode (node : SavedNode) (hfinite : node.position.IsFinite) :
      Reads readSavedNode 1 node.document (node.mapPosition Point.reread) :=
    SavedNode.reads_document hfinite.readAs_reread
  have hlink (link : SavedLink)
      (hfinite : link.inputPosition.IsFinite ∧ link.outputPosition.IsFinite) :
      Reads readSavedLink 2 link.document (link.mapPositions Point.reread) :=
    SavedLink.reads_document hfinite.1.readAs_reread hfinite.2.readAs_reread
  refine Json.refuses_record fun depth hdepth => ?_
  by_cases hnodes : ∀ node ∈ saved.nodes.getD [], node.position.IsFinite
  · refine .store (Json.reads_ofList? (fun _ => Json.Document.isItem_record _)
      fun node hmem => hnode node (hnodes node hmem)) (by omega) ?_
    refine .refuse (Json.refuses_ofList? (fun _ => Json.Document.isItem_record _)
      (fun link _ => hlink link) (fun _ _ => SavedLink.refuses_document) ?_) hdepth
    exact fun hlinks => h ⟨hnodes, hlinks⟩
  · exact .refuse (Json.refuses_ofList? (fun _ => Json.Document.isItem_record _)
      (fun node _ => hnode node) (fun _ _ => SavedNode.refuses_document) hnodes) (by omega)

/-- The file of a stored graph. -/
theorem decode_encode_eq (saved : SavedGraph) :
    decode saved.encode = if ∀ p ∈ saved.positions, p.IsFinite then
      .ok (saved.mapPositions Point.reread) else .error (.json .mistyped) := by
  rw [decode, encode]
  split_ifs with hfinite
  · rw [Json.readWhole_print (reads_reread hfinite) (by decide)]
    rfl
  · rw [Json.readWhole_refused (refuses_document hfinite) (by decide)]
    rfl

end SavedGraph

namespace Graph

variable {g g' : Graph} {registry : Registry}

/-! ### What edits place -/

theorem WellFormed.ofSaved_toSaved_iff (h : g.WellFormed) :
    Graph.ofSaved g.toSaved registry = .ok g' ↔
      g' = described registry (g.toSaved.nodes.getD []) (g.toSaved.links.getD []) ∧
        g'.WellFormed := by
  refine ofSaved_eq_ok_iff ?_
  exact List.pairwise_map.mpr h.one_link

theorem links_toSaved (g : Graph) : (g.toSaved.links.getD []).map SavedLink.link = g.links := by
  show (g.links.map _).map SavedLink.link = g.links
  rw [List.map_map]
  exact List.map_id _

/-- A node of a file stands where its entry says, unless it is an end node that was missing. -/
theorem position_of_mem_fileNodes {saved : List SavedNode} {node : Node}
    (h : node ∈ fileNodes registry saved) :
    (∃ entry ∈ saved, entry.position = node.position) ∨ node = endNode := by
  have hentry (hmem : node ∈ saved.filterMap (SavedNode.node? registry)) :
      ∃ entry ∈ saved, entry.position = node.position := by
    obtain ⟨entry, hentry, hnode⟩ := List.mem_filterMap.mp hmem
    rw [SavedNode.node?_eq, Option.map_eq_some_iff] at hnode
    obtain ⟨kind, -, rfl⟩ := hnode
    exact ⟨entry, hentry, rfl⟩
  rw [fileNodes, withEndNode] at h
  split_ifs at h
  · exact .inl (hentry h)
  · rcases List.mem_append.mp h with hfile | hadded
    · exact .inl (hentry hfile)
    · exact .inr (List.mem_singleton.mp hadded)

/-- Where an edit may place nodes. -/
def Edit.places : Edit → List Point
  | .setPosition _ position => [position]
  | .addNode _ | .create _ _ => [newNodePosition]
  | .reload _ => [endNode.position]
  | _ => []

/-- A graph after another in which links are those of before or new, and nodes stand where nodes
stood before or at one of some places. -/
structure Places (places : List Point) (g g' : Graph) : Prop where
  links : ∀ link ∈ g'.links, link ∈ g.links ∨ link.IsUnplaced
  nodes : ∀ node ∈ g'.nodes, (∃ old ∈ g.nodes, old.position = node.position) ∨
    node.position ∈ places

theorem Places.of_subset {places : List Point} (hlinks : g'.links ⊆ g.links)
    (hnodes : g'.nodes ⊆ g.nodes) : Places places g g' :=
  ⟨fun _ hmem => .inl (hlinks hmem), fun node hmem => .inl ⟨node, hnodes hmem, rfl⟩⟩

theorem Places.refl (places : List Point) (g : Graph) : Places places g g :=
  .of_subset (List.Subset.refl _) (List.Subset.refl _)

theorem Places.addNode {kind : NodeKind} {id : String} (hadd : g.addNode kind = .ok (id, g')) :
    Places [newNodePosition] g g' := by
  obtain ⟨-, -, hlinks, hnodes⟩ := addNode_eq_ok hadd
  refine ⟨fun link hmem => .inl (hlinks ▸ hmem), fun node hmem => ?_⟩
  rw [hnodes, List.mem_append, List.mem_singleton] at hmem
  rcases hmem with hold | rfl
  · exact .inl ⟨node, hold, rfl⟩
  · exact .inr (List.mem_singleton.mpr rfl)

theorem Places.modifyNode {places : List Point} {id : String} {change : Node → Node}
    (hchange : ∀ node, (change node).position = node.position ∨
      (change node).position ∈ places) :
    Places places g { g with nodes := Graph.modifyNode id change g.nodes } := by
  refine ⟨fun _ hmem => .inl hmem, fun node hmem => ?_⟩
  rcases mem_modifyNode hmem with hold | ⟨old, hold, rfl⟩
  · exact .inl ⟨node, hold, rfl⟩
  · rcases hchange old with hkept | hplaced
    · exact .inl ⟨old, hold, hkept.symm⟩
    · exact .inr hplaced

theorem Places.connect (g : Graph) (producer consumer slot : String) :
    Places [] g (g.connect producer consumer slot).2 := by
  rcases g.connect_eq producer consumer slot with hrefused | hlink
  · rw [hrefused]
    exact .of_subset (List.Subset.refl _) (List.Subset.refl _)
  · obtain ⟨-, -, -, hlinked⟩ := insertLink_eq_ok_iff.mp hlink
    rw [hlinked]
    refine ⟨fun link hmem => ?_, fun node hmem => .inl ⟨node, hmem, rfl⟩⟩
    rcases List.mem_append.mp hmem with hold | hnew
    · exact .inl ((withoutLinkInto_sublist _ _ _).subset hold)
    · rw [List.mem_singleton.mp hnew]
      exact .inr ⟨rfl, rfl⟩

/-- A graph that is stored and built again, perhaps with other kinds, keeps its links; a missing
kind may cost it its end node, which is then placed anew. -/
theorem WellFormed.places_ofSaved (h : g.WellFormed)
    (hload : Graph.ofSaved g.toSaved registry = .ok g') : Places [endNode.position] g g' := by
  obtain ⟨rfl, -⟩ := h.ofSaved_toSaved_iff.mp hload
  refine ⟨fun link hmem => .inl (g.links_toSaved ▸ hmem), fun node hmem => ?_⟩
  rcases position_of_mem_fileNodes hmem with ⟨entry, hentry, hposition⟩ | rfl
  · obtain ⟨old, hold, rfl⟩ := List.mem_map.mp hentry
    exact .inl ⟨old, hold, hposition⟩
  · exact .inr (List.mem_singleton.mpr rfl)

/-- **What an edit places**: new links without positions, and at most one node. -/
theorem WellFormed.places_apply (h : g.WellFormed) (edit : Edit) :
    Places edit.places g (g.apply edit) := by
  cases edit with
  | addNode kind => exact getD_of_ok_snd (.refl _ g) fun _ _ hadd => .addNode hadd
  | create registry name =>
    refine getD_of_ok_snd (.refl _ g) fun _ _ hcreate => ?_
    obtain ⟨kind, hadd⟩ := create_eq_ok hcreate
    exact .addNode hadd
  | setData id data =>
    refine getD_of_ok (.refl _ g) fun _ hset => ?_
    rw [setData_eq_ok hset]
    exact .modifyNode fun _ => .inl rfl
  | setPosition id position =>
    refine getD_of_ok (.refl _ g) fun _ hset => ?_
    rw [setPosition_eq_ok hset]
    exact .modifyNode fun _ => .inr (List.mem_singleton.mpr rfl)
  | removeNode id =>
    refine getD_of_ok_snd (.refl _ g) fun _ _ hremove => ?_
    obtain ⟨-, -, hnodes, hlinks⟩ := removeNode_eq_ok hremove
    refine .of_subset ?_ ?_
    · rw [hlinks]
      exact List.filter_subset_self _
    · rw [hnodes]
      exact List.eraseP_subset
  | connect producer consumer slot =>
    exact .connect g producer consumer slot
  | disconnect consumer slot =>
    rw [Graph.apply]
    cases hcut : g.disconnect consumer slot with
    | none => exact .refl _ g
    | some result =>
      obtain ⟨found, -, rfl⟩ := Option.map_eq_some_iff.mp hcut
      exact .of_subset (g.withoutLinkInto_sublist consumer slot).subset (List.Subset.refl _)
  | reload registry =>
    exact getD_of_ok (.refl _ g) fun _ hload => h.places_ofSaved hload

/-! ### What edits keep -/

/-- What holds of every graph that edits lead to from the new graph: it is well-formed, and its
links are as they were made. -/
structure Drawn (g : Graph) : Prop where
  wellFormed : g.WellFormed
  unplaced : ∀ link ∈ g.links, link.IsUnplaced

theorem Drawn.new : Graph.new.Drawn := ⟨.new, fun _ hmem => absurd hmem List.not_mem_nil⟩

theorem Drawn.apply (h : g.Drawn) (edit : Edit) : (g.apply edit).Drawn := by
  refine ⟨h.wellFormed.apply edit, fun link hmem => ?_⟩
  rcases (h.wellFormed.places_apply edit).links link hmem with hold | hnew
  · exact h.unplaced link hold
  · exact hnew

theorem Drawn.edits (h : g.Drawn) (edits : List Edit) : (edits.foldl Graph.apply g).Drawn := by
  induction edits generalizing g with
  | nil => exact h
  | cons edit rest ih => exact ih (h.apply edit)

/-- Whether every node stands at finite coordinates. -/
def HasFiniteNodes (g : Graph) : Prop := ∀ node ∈ g.nodes, node.position.IsFinite

instance (g : Graph) : Decidable g.HasFiniteNodes :=
  inferInstanceAs (Decidable (∀ node ∈ g.nodes, node.position.IsFinite))

theorem HasFiniteNodes.new : Graph.new.HasFiniteNodes := by decide

/-- Only placing a node may take it to coordinates that are not finite. -/
theorem HasFiniteNodes.apply (hfinite : g.HasFiniteNodes) (h : g.WellFormed) {edit : Edit}
    (hedit : ∀ id position, edit = .setPosition id position → position.IsFinite) :
    (g.apply edit).HasFiniteNodes := by
  have hplaces : ∀ p ∈ edit.places, p.IsFinite := by
    cases edit with
    | setPosition id position => exact List.forall_mem_singleton.mpr (hedit id position rfl)
    | addNode | create | reload => exact List.forall_mem_singleton.mpr (by decide)
    | _ => exact List.forall_mem_nil _
  intro node hmem
  rcases (h.places_apply edit).nodes node hmem with ⟨old, hold, hposition⟩ | hplaced
  · exact hposition ▸ hfinite old hold
  · exact hplaces _ hplaced

theorem HasFiniteNodes.edits (hfinite : g.HasFiniteNodes) (h : g.WellFormed) {edits : List Edit}
    (hedits : ∀ id position, Edit.setPosition id position ∈ edits → position.IsFinite) :
    (edits.foldl Graph.apply g).HasFiniteNodes := by
  induction edits generalizing g with
  | nil => exact hfinite
  | cons edit rest ih =>
    refine ih (hfinite.apply h fun id position hedit => ?_) (h.apply edit)
      fun id position hmem => hedits id position (List.mem_cons_of_mem _ hmem)
    exact hedits id position (hedit ▸ List.mem_cons_self)

/-! ### Files of edited graphs -/

/-- A graph with its nodes where its file places them, as it is when it has just been opened. -/
def reread (g : Graph) : Graph where
  nodes := g.nodes.map fun node => { node with position := node.position.reread }
  links := g.links
  nextId := 1

/-- The stored form of a graph is read as that of the graph with its nodes where its file places
them. -/
theorem Drawn.mapPositions_toSaved (h : g.Drawn) :
    g.toSaved.mapPositions Point.reread = g.reread.toSaved := by
  have hzero : Point.reread ⟨0.0, 0.0⟩ = ⟨0.0, 0.0⟩ := by rfl
  have hlinks : (g.toSaved.links.getD []).map (SavedLink.mapPositions Point.reread) =
      g.toSaved.links.getD [] := by
    refine (List.map_congr_left fun saved hsaved => ?_).trans (List.map_id _)
    obtain ⟨link, hlink, rfl⟩ := List.mem_map.mp hsaved
    obtain ⟨houtput, hinput⟩ := h.unplaced link hlink
    simp only [SavedLink.mapPositions, houtput, hinput, hzero, id_eq]
  have hnodes : (g.toSaved.nodes.getD []).map (SavedNode.mapPosition Point.reread) =
      g.reread.toSaved.nodes.getD [] := by
    simp only [toSaved, reread, Option.getD_some, List.map_map]
    rfl
  exact congrArg₂ SavedGraph.mk (congrArg some hnodes) (congrArg some hlinks)

theorem Drawn.positions_finite_iff (h : g.Drawn) :
    (∀ p ∈ g.toSaved.positions, p.IsFinite) ↔ g.HasFiniteNodes := by
  have hzero : Point.IsFinite ⟨0.0, 0.0⟩ := by decide
  have hlinks : ∀ saved ∈ g.toSaved.links.getD [],
      saved.inputPosition.IsFinite ∧ saved.outputPosition.IsFinite := by
    intro saved hsaved
    obtain ⟨link, hlink, rfl⟩ := List.mem_map.mp hsaved
    obtain ⟨houtput, hinput⟩ := h.unplaced link hlink
    exact ⟨hinput ▸ hzero, houtput ▸ hzero⟩
  rw [SavedGraph.forall_positions_iff, and_iff_left hlinks]
  exact List.forall_mem_map

theorem WellFormed.reread (h : g.WellFormed) : g.reread.WellFormed :=
  h.of_kinds_eq rfl (List.map_map ..)

/-- The file of a graph that edits have led to is opened if its nodes stand at finite coordinates,
and is refused otherwise. -/
theorem Drawn.load_encode (h : g.Drawn) :
    load g.toSaved.encode .full =
      if g.HasFiniteNodes then .ok g.reread else .error (.json .mistyped) := by
  rw [load, SavedGraph.decode_encode_eq, if_congr h.positions_finite_iff rfl rfl]
  split_ifs with hfinite
  · have hkinds : ∀ node ∈ g.reread.nodes, Registry.full.isRegistered node.kind := fun node _ =>
      List.contains_iff_mem.mpr node.kind.mem_all
    obtain ⟨nodes, links, hsaved, -, hdescribed⟩ := described_toSaved h.wellFormed.reread hkinds
    rw [ok_bind, h.mapPositions_toSaved, h.wellFormed.reread.ofSaved_toSaved_iff, hsaved]
    exact ⟨hdescribed.symm, h.wellFormed.reread⟩
  · rw [error_bind]

/-- **What edits lead to is opened again from its file if they place nodes at finite coordinates
only.** In general the file of a graph is opened exactly if no node has been left at others, with
nothing changed but what the coordinates are read as; otherwise it is refused. -/
theorem edits_reopen (edits : List Edit) :
    ((∀ id position, Edit.setPosition id position ∈ edits → position.IsFinite) →
      ∃ g, load (edits.foldl apply new).toSaved.encode .full = .ok g) ∧
    ∀ g, edits.foldl apply new = g → load g.toSaved.encode .full =
      if g.HasFiniteNodes then .ok g.reread else .error (.json .mistyped) := by
  have hdrawn := Drawn.new.edits edits
  refine ⟨fun hplaced => ?_, fun g hg => ?_⟩
  · have hfinite := HasFiniteNodes.new.edits .new hplaced
    exact ⟨_, hdrawn.load_encode.trans (if_pos hfinite)⟩
  · exact (hg ▸ hdrawn).load_encode

/-- A tinted photo, with one node at coordinates that are not whole. -/
def tintedPhoto : List Edit :=
  [.addNode .image, .addNode .sepia, .setData "image-1" "photo.png",
    .setPosition "image-1" ⟨-12.5, 0.1⟩, .connect "image-1" "sepia-2" "firstLink",
    .connect "sepia-2" "endNode" "firstLink"]

theorem tintedPhoto_reopens :
    ∃ g, load (tintedPhoto.foldl apply new).toSaved.encode .full = .ok g := by
  refine (edits_reopen tintedPhoto).1 fun id position hmem => ?_
  obtain ⟨-, hposition⟩ : id = "image-1" ∧ position = ⟨-12.5, 0.1⟩ := by
    simpa [tintedPhoto] using hmem
  rw [hposition]
  decide

/-- An edit that places the end node at an abscissa that is no number. -/
def strayEnd : List Edit := [.setPosition "endNode" ⟨0.0 / 0.0, 45.0⟩]

theorem strayEnd_refused :
    load (strayEnd.foldl apply new).toSaved.encode .full = .error (.json .mistyped) := by
  have hstray : ¬ HasFiniteNodes (strayEnd.foldl apply new) := by decide +kernel
  rw [(Drawn.new.edits strayEnd).load_encode, if_neg hstray]

end Graph

end Darkroom
