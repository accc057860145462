import Darkroom.Graph.Codec
import Darkroom.Proofs.Json.Reader

/-!
# Graph files are read back

The text of a stored graph holds that graph again, whatever its texts hold and whichever of its
optional parts are missing. Only of its coordinates something is asked: that each of them survives
being written as a number and read again. A coordinate that is not finite does not, as it is
written as `null`.

## Main definitions

* `Point.ReadAs` : positions whose written coordinates are read as those of others.
* `SavedGraph.positions`, `SavedGraph.mapPositions` : the positions in a stored graph.

## Main results

* `SavedGraph.reads_mapPositions`, `SavedGraph.reads_document` : the readers of graph files take the
  stored form of a graph.
* `SavedGraph.decode_encode` : a graph file is read back as what was written.
-/

namespace Darkroom

open Json (Reads RereadsDouble)

/-! ### Optional parts -/

theorem Json.reads_ofText? (t : Option String) :
    Reads (Json.readOptional Json.readText) 0 (.ofText? t) t := by
  cases t with
  | none => exact Json.reads_optional_none _ _
  | some t => exact Json.reads_optional_some (Json.reads_text t) rfl rfl (by decide)

/-- A list of records that may be missing. -/
theorem Json.reads_ofList? {α β : Type} {item : Json.Reader α} {document : β → Json.Document}
    {value : β → α} {levels : Nat} {xs : Option (List β)} (hitem : ∀ x, (document x).IsItem)
    (h : ∀ x ∈ xs.getD [], Reads item levels (document x) (value x)) :
    Reads (Json.readOptional (Json.readList item)) (levels + 1)
      (.ofList? (xs.map (·.map document))) (xs.map (·.map value)) := by
  cases xs with
  | none => exact Json.reads_optional_none _ _
  | some xs => exact Json.reads_optional_some (Json.reads_list_map_map hitem h) rfl rfl (by decide)

/-! ### Nodes and links -/

/-- Whether the written coordinates of a position are read as those of another. -/
def Point.ReadAs (p q : Point) : Prop :=
  Reads Json.readDouble 0 (.number (Json.doubleText p.x)) q.x ∧
    Reads Json.readDouble 0 (.number (Json.doubleText p.y)) q.y

theorem Point.ReadAs.reads_document {p q : Point} (h : p.ReadAs q) :
    Reads readPoint 1 p.document q := by
  refine Json.reads_record ⟨some q.x, some q.y⟩ (fun depth hdepth => ?_) rfl
  refine .store h.1 hdepth ?_
  refine .store h.2 hdepth ?_
  exact .nil _

theorem SavedNode.reads_document {node : SavedNode} {p : Point} (h : node.position.ReadAs p) :
    Reads readSavedNode 1 node.document { node with position := p } := by
  refine Json.reads_record ⟨some node.id, some node.kind, some p.x, some p.y, some node.data⟩
    (fun depth hdepth => ?_) rfl
  refine .store (Json.reads_text node.id) hdepth ?_
  refine .store (Json.reads_ofText? node.kind) hdepth ?_
  refine .store h.1 hdepth ?_
  refine .store h.2 hdepth ?_
  refine .store (Json.reads_ofText? node.data) hdepth ?_
  exact .nil _

/-- The stored form of a link goes one level deeper than that of a node, for its positions. -/
theorem SavedLink.reads_document {link : SavedLink} {p q : Point}
    (hinput : link.inputPosition.ReadAs p) (houtput : link.outputPosition.ReadAs q) :
    Reads readSavedLink 2 link.document { link with inputPosition := p, outputPosition := q } := by
  refine Json.reads_record ⟨some link.id, some link.consumer, some link.producer, some link.slot,
    some link.anchor, some p, some q⟩ (fun depth hdepth => ?_) rfl
  have hscalar : 0 < depth := by omega
  refine .store (Json.reads_text link.id) hscalar ?_
  refine .store (Json.reads_text link.consumer) hscalar ?_
  refine .store (Json.reads_text link.producer) hscalar ?_
  refine .store (Json.reads_text link.slot) hscalar ?_
  refine .store (Json.reads_text link.anchor) hscalar ?_
  refine .store hinput.reads_document hdepth ?_
  refine .store houtput.reads_document hdepth ?_
  exact .nil _

/-! ### Graphs -/

/-- A stored node whose position is changed. -/
def SavedNode.mapPosition (f : Point → Point) (node : SavedNode) : SavedNode :=
  { node with position := f node.position }

/-- A stored link whose two positions are changed. -/
def SavedLink.mapPositions (f : Point → Point) (link : SavedLink) : SavedLink :=
  { link with
    inputPosition := f link.inputPosition
    outputPosition := f link.outputPosition }

namespace SavedGraph

/-- The positions in a stored graph: of its nodes, and of the two ends of each link. -/
def positions (saved : SavedGraph) : List Point :=
  (saved.nodes.getD []).map SavedNode.position ++
    (saved.links.getD []).flatMap fun link => [link.inputPosition, link.outputPosition]

/-- A stored graph whose positions are changed. -/
def mapPositions (f : Point → Point) (saved : SavedGraph) : SavedGraph where
  nodes := saved.nodes.map (·.map (SavedNode.mapPosition f))
  links := saved.links.map (·.map (SavedLink.mapPositions f))

variable {saved : SavedGraph}

theorem mapPositions_id : saved.mapPositions id = saved := by
  have hnode : SavedNode.mapPosition id = id := rfl
  have hlink : SavedLink.mapPositions id = id := rfl
  rw [mapPositions, hnode, hlink, List.map_id_fun, List.map_id_fun]
  simp only [id_eq, Option.map_id']

theorem position_mem_positions {node : SavedNode} (h : node ∈ saved.nodes.getD []) :
    node.position ∈ saved.positions :=
  List.mem_append_left _ (List.mem_map_of_mem h)

theorem ends_mem_positions {link : SavedLink} (h : link ∈ saved.links.getD []) :
    link.inputPosition ∈ saved.positions ∧ link.outputPosition ∈ saved.positions := by
  have hends : ∀ p ∈ [link.inputPosition, link.outputPosition], p ∈ saved.positions := by
    intro p hp
    exact List.mem_append_right _ (List.mem_flatMap.2 ⟨link, h, hp⟩)
  exact ⟨hends _ (by simp), hends _ (by simp)⟩

/-- If its positions are read as others, a stored graph is read as the one with those. -/
theorem reads_mapPositions {f : Point → Point} (h : ∀ p ∈ saved.positions, p.ReadAs (f p)) :
    Reads readSavedGraph 4 saved.document (saved.mapPositions f) := by
  have hnodes : ∀ node ∈ saved.nodes.getD [],
      Reads readSavedNode 1 node.document (node.mapPosition f) := by
    intro node hnode
    exact SavedNode.reads_document (h _ (position_mem_positions hnode))
  have hlinks : ∀ link ∈ saved.links.getD [],
      Reads readSavedLink 2 link.document (link.mapPositions f) := by
    intro link hlink
    obtain ⟨hinput, houtput⟩ := ends_mem_positions hlink
    exact SavedLink.reads_document (h _ hinput) (h _ houtput)
  refine Json.reads_record ⟨some (saved.mapPositions f).nodes, some (saved.mapPositions f).links⟩
    (fun depth hdepth => ?_) rfl
  refine .store (Json.reads_ofList? (fun _ => Json.Document.isItem_record _) hnodes) (by omega) ?_
  refine .store (Json.reads_ofList? (fun _ => Json.Document.isItem_record _) hlinks) hdepth ?_
  exact .nil _

theorem reads_document (h : ∀ p ∈ saved.positions, RereadsDouble p.x ∧ RereadsDouble p.y) :
    Reads readSavedGraph 4 saved.document saved := by
  have hsame : ∀ p ∈ saved.positions, p.ReadAs (id p) := fun p hp =>
    ⟨Json.reads_double (h p hp).1, Json.reads_double (h p hp).2⟩
  have hread := reads_mapPositions hsame
  rwa [mapPositions_id] at hread

/-- **A graph file is read back as the stored graph that was written**, if every coordinate in it
survives being written as a number and read again. -/
theorem decode_encode (saved : SavedGraph)
    (h : ∀ p ∈ saved.positions, RereadsDouble p.x ∧ RereadsDouble p.y) :
    SavedGraph.decode saved.encode = .ok saved := by
  have hread : Json.readWhole readSavedGraph saved.encode = .ok saved :=
    Json.readWhole_print (reads_document h) (by decide)
  rw [SavedGraph.decode, hread]
  rfl

/-- A graph with everything a file has to escape: quotes, backslashes, control characters and a
character beyond the basic plane, and texts that are missing. -/
def oddTexts : SavedGraph where
  nodes := some
    [⟨"a\"b\\c", some "source_image", ⟨1.5, -0.25⟩, some "C:\\in\x00\n\t\x1f.png"⟩,
      ⟨"end\u00e9😀", none, ⟨100.0, -0.0⟩, none⟩, ⟨"", some "", ⟨0.1, 1e20⟩, some ""⟩]
  links := some
    [⟨"l\x08\x0c/1", "end\u00e9😀", "a\"b\\c", "in\r", "out\x7f", ⟨0.0, 12.375⟩, ⟨-3.0, 1e-7⟩⟩]

theorem oddTexts_read_back :
    (∀ p ∈ oddTexts.positions, RereadsDouble p.x ∧ RereadsDouble p.y) ∧
      SavedGraph.decode oddTexts.encode = .ok oddTexts := by
  have hpositions : ∀ p ∈ oddTexts.positions, RereadsDouble p.x ∧ RereadsDouble p.y := by
    have hlist : oddTexts.positions =
      [⟨1.5, -0.25⟩, ⟨100.0, -0.0⟩, ⟨0.1, 1e20⟩, ⟨0.0, 12.375⟩, ⟨-3.0, 1e-7⟩] := rfl
    rw [hlist]
    simp only [List.forall_mem_cons, List.not_mem_nil, false_imp_iff, implies_true, and_true]
    refine ⟨⟨?_, ?_⟩, ⟨?_, ?_⟩, ⟨?_, ?_⟩, ⟨?_, ?_⟩, ?_, ?_⟩ <;> rfl
  exact ⟨hpositions, decode_encode oddTexts hpositions⟩

end SavedGraph

end Darkroom
