import Darkroom.Proofs.Graph.Cause

/-!
# Well-typed graphs do not go wrong

A reachable graph gives every operation values of the types that it expects. So a node evaluates to
a value of the type of its kind, or a slot of a node is without a link, or a node has a parameter
that it cannot use. One other thing can happen, as operations work on machine words: the values on
the slots of a node may lead its operation to a number that is no word, and evaluation breaks off.
That node is the one evaluated or one of its ancestors (`Graph.Overflows`), and only a blur, a warp
or a caption can be such a node (`NodeKind.Overflows`). There is such a graph
(`Graph.giantCaptionFlow_breaks_off`).

## Main definitions

* `Graph.Overflows` : nodes that an overflow can reach.

## Main results

* `Graph.evaluate_well_typed` : what the nodes of reachable graphs evaluate to.
-/

namespace Darkroom.Graph

variable {g : Graph}

/-- Whether the values on the slots of a node, or of one of its ancestors, lead to a number that is
no machine word. -/
def Overflows [ImageLibrary] (g : Graph) (images : Images) (id : String) : Prop :=
  ∃ culprit ∈ g.nodes, culprit.id ∈ g.cone id ∧
    g.Supplied (fun other => g.evaluate other images) culprit ∧
    culprit.kind.Overflows (g.input (fun other => g.evaluate other images) culprit)

theorem WellFormed.overflows_of_broken [ImageLibrary] (h : g.WellFormed) {images : Images}
    {id : String} (hbroken : g.evaluate id images = .error (.broken .overflow)) :
    g.Overflows images id := by
  obtain ⟨culprit, hculprit, hcone, ⟨_, -, heq⟩ | ⟨⟨_, heq⟩ | ⟨-, hoverflows⟩, hsupplied⟩⟩ :=
    h.exists_cause hbroken (by simp)
  · exact nomatch heq
  · exact nomatch heq
  · exact ⟨culprit, hculprit, hcone, hsupplied, hoverflows⟩

/-- **Well-typed graphs do not go wrong.** In a reachable graph every node evaluates to a value of
the type that its kind gives (an image at the end node), or fails on a missing input or on a
parameter, unless a number that is no machine word comes up on the way; and so does rendering. An
operation reads no slots but those of its kind: in any kind of computation, other slots make no
difference. -/
theorem evaluate_well_typed [ImageLibrary] (h : g.Reachable) (images : Images) :
    (∀ node ∈ g.nodes,
      (∃ found, g.evaluate node.id images = .ok found ∧
        found.type = if node.kind = .endNode then .image else node.kind.output) ∨
      (∃ id slot, g.evaluate node.id images = .error (.fault (.missingInput id slot))) ∨
      (∃ id reason, g.evaluate node.id images = .error (.fault (.invalidParameter id reason))) ∨
      g.evaluate node.id images = .error (.broken .overflow) ∧ g.Overflows images node.id) ∧
    ((∃ raster, g.render images = .ok raster) ∨
      (∃ id slot, g.render images = .error (.fault (.missingInput id slot))) ∨
      (∃ id reason, g.render images = .error (.fault (.invalidParameter id reason))) ∨
      g.render images = .error (.broken .overflow) ∧
        ∃ id, g.endNodeId? = some id ∧ g.Overflows images id) ∧
    ∀ (m : Type → Type) [Monad m] [MonadExceptOf Failure m] (node : Node)
      (read read' : Nat → m Value),
      (∀ index < node.kind.inputs.length, read index = read' index) →
      node.compute images read = node.compute images read' := by
  have hg := h.wellFormed
  have hvalue := hg.describes_evaluate images
  refine ⟨fun node hnode => ?_, ?_, fun m _ _ node read read' => Congruent.eq.compute images⟩
  · have hyields := hvalue.yields hg hnode
    cases hresult : g.evaluate node.id images with
    | ok found =>
      rw [hresult] at hyields
      exact .inl ⟨found, rfl, hyields.trans (NodeKind.valueType_eq_ite ..)⟩
    | error failure =>
      rw [hresult] at hyields
      rcases hyields.cases with ⟨id, slot, rfl⟩ | ⟨id, reason, rfl⟩ | rfl
      · exact .inr (.inl ⟨id, slot, rfl⟩)
      · exact .inr (.inr (.inl ⟨id, reason, rfl⟩))
      · exact .inr (.inr (.inr ⟨rfl, hg.overflows_of_broken hresult⟩))
  · obtain ⟨node, hnode, hkind⟩ := hg.exists_endNode
    have hrender := hg.render_eq images hnode hkind
    have hyields := hvalue.yields hg hnode
    rw [← hrender] at hyields
    cases hresult : g.render images with
    | ok raster => exact .inl ⟨raster, rfl⟩
    | error failure =>
      rw [hresult] at hrender hyields
      rcases Failure.Expected.cases hyields with ⟨id, slot, rfl⟩ | ⟨id, reason, rfl⟩ | rfl
      · exact .inr (.inl ⟨id, slot, rfl⟩)
      · exact .inr (.inr (.inl ⟨id, reason, rfl⟩))
      · exact .inr (.inr (.inr ⟨rfl, node.id, hg.endNodeId?_eq hnode hkind,
          hg.overflows_of_broken hrender.symm⟩))

theorem shiftFlow_moves_image :
    ∃ found, shiftFlow.evaluate "move_pixel-3" onePixel = .ok found ∧ found.type = .image := by
  have hnode : ∃ node ∈ shiftFlow.nodes, node.id = "move_pixel-3" ∧ node.kind = .movePixel := by
    decide +kernel
  have hok : (shiftFlow.evaluate "move_pixel-3" onePixel).isOk := by decide +kernel
  obtain ⟨node, hmem, hid, hkind⟩ := hnode
  have hyields := (evaluate_well_typed shiftFlow_reachable onePixel).1 node hmem
  rw [hid, hkind] at hyields
  rcases hyields with hfound | ⟨_, _, herror⟩ | ⟨_, _, herror⟩ | ⟨herror, -⟩
  · exact hfound
  all_goals
    rw [herror] at hok
    exact nomatch hok

/-- A blank caption of a huge scale on a picture. -/
def giantCaptionFlow : Graph :=
  [Edit.addNode .image, .setData "image-1" "photo.png", .addNode .int, .setData "int-2" "0",
    .addNode .string, .setData "string-3" " ", .addNode .float, .setData "float-4" "1e30",
    .addNode .addTextPixel, .connect "image-1" "add_text_pixel-5" "firstLink",
    .connect "int-2" "add_text_pixel-5" "secondLink",
    .connect "int-2" "add_text_pixel-5" "thirdLink",
    .connect "string-3" "add_text_pixel-5" "fourthLink",
    .connect "float-4" "add_text_pixel-5" "fifthLink",
    .connect "add_text_pixel-5" "endNode" "firstLink"].foldl apply Graph.new

theorem giantCaptionFlow_reachable : giantCaptionFlow.Reachable :=
  Reachable.new.edits _

theorem stateOf_eq_error_iff {result : Except Failure Value} {cause : Numeric.WordFault} :
    stateOf result = .error cause ↔ result = .error (.broken cause) := by
  constructor
  · intro h
    rcases result with (fault | other) | found
    · cases fault <;> exact nomatch h
    · rw [Except.error.inj h]
    · exact nomatch h
  · rintro rfl
    rfl

/-- There is nothing to draw, but the upper edge of the caption is too far above its baseline. -/
theorem giantCaptionFlow_breaks_off :
    giantCaptionFlow.Reachable ∧ "endNode" ∈ giantCaptionFlow.nodes.map Node.id ∧
      giantCaptionFlow.evaluate "endNode" onePixel = .error (.broken .overflow) ∧
      giantCaptionFlow.render onePixel = .error (.broken .overflow) := by
  have hend : ∃ node ∈ giantCaptionFlow.nodes, node.id = "endNode" ∧ node.kind = .endNode := by
    decide +kernel
  have hbroken : giantCaptionFlow.evaluate "endNode" onePixel = .error (.broken .overflow) :=
    stateOf_eq_error_iff.mp (by decide +kernel)
  obtain ⟨node, hnode, hid, hkind⟩ := hend
  have hrender := giantCaptionFlow_reachable.wellFormed.render_eq onePixel hnode hkind
  rw [hid, hbroken] at hrender
  refine ⟨giantCaptionFlow_reachable, hid ▸ List.mem_map_of_mem hnode, hbroken, ?_⟩
  cases hresult : giantCaptionFlow.render onePixel with
  | ok raster =>
    rw [hresult] at hrender
    exact nomatch hrender
  | error failure =>
    rw [hresult] at hrender
    exact congrArg _ (Except.error.inj hrender)

end Darkroom.Graph
