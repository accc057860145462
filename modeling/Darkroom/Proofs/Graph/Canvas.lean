import Darkroom.Proofs.Graph.Evaluation
import Darkroom.Proofs.Image.Library

/-!
# Sizes of canvases

Filters, warps and captions keep the size of the image that they are given; only scaling makes a
canvas of another size. So the image of a node has the size of the image that the node receives,
unless the node is the origin of a size: an image node, which brings its own, or one that scales
(`NodeKind.setsSize`). Scaling to a number of pixels gives exactly that number on both sides, within
the limit on sizes. Along the links that bring images, from a node back to the first origin on the
way, the size is therefore the same (`Graph.Describes.exists_origin`).

## Main definitions

* `KeepsSize` : computations that give an image of the size of another.
* `Graph.Receives` : what arrives on a slot.

## Main results

* `Node.sameSize_of_compute`, `Node.size_of_scalePixel` : one node.
* `Graph.Describes.exists_origin` : where the size of an image comes from.
* `Graph.canvas_sizes` : the images of reachable graphs.
-/

namespace Darkroom

open Relation

/-! ### What a node makes of its slots -/

/-- Whether the images of nodes of a kind may have another size than the images they receive. -/
def NodeKind.setsSize : NodeKind → Bool
  | image | scalePixel | scale => true
  | _ => false

/-- The first slot of a kind, if it has any, is that of an image. -/
theorem NodeKind.eq_imageSlot {kind : NodeKind} {slot : Slot}
    (h : kind.inputs[0]? = some slot) : slot = imageSlot := by
  cases kind <;> first | exact (Option.some.inj h).symm | cases h

/-- Whether a computation gives no image but one of the size of a given image. -/
def KeepsSize (source : Raster Rgb) (x : Except Failure Value) : Prop :=
  ∀ canvas, x = .ok (.image canvas) → canvas.SameSize source

namespace KeepsSize

variable {source : Raster Rgb}

theorem pure {canvas : Raster Rgb} (h : canvas.SameSize source) :
    KeepsSize source (Pure.pure (.image canvas)) := by
  intro found hok
  rwa [← Value.image.inj (Except.ok.inj hok)]

theorem bind {α : Type} {x : Except Failure α} {f : α → Except Failure Value}
    (hf : ∀ a, x = .ok a → KeepsSize source (f a)) : KeepsSize source (x >>= f) := by
  intro canvas hok
  obtain ⟨a, hx, hfa⟩ := bind_eq_ok_iff.mp hok
  exact hf a hx canvas hfa

end KeepsSize

namespace Node

variable {node : Node} {images : Images} {read : Nat → Except Failure Value}

theorem inputAs_eq_ok {α : Type} {part? : Value → Option α} {index : Nat} {part : α}
    (h : node.inputAs part? read index = .ok part) :
    ∃ value, read index = .ok value ∧ part? value = some part := by
  obtain ⟨value, hread, hpart⟩ := bind_eq_ok_iff.mp h
  refine ⟨value, hread, ?_⟩
  cases hvalue : part? value with
  | none =>
    rw [hvalue] at hpart
    exact nomatch hpart
  | some found =>
    rw [hvalue] at hpart
    rw [← Except.ok.inj hpart]

theorem imageInput_eq_ok {image : Raster Rgb} (h : node.imageInput read = .ok image) :
    read 0 = .ok (.image image) := by
  obtain ⟨value, hread, hpart⟩ := inputAs_eq_ok h
  cases value with
  | image raster => rwa [← Option.some.inj hpart]
  | _ => cases hpart

theorem intInput_eq_ok {index : Nat} {n : Int} (h : node.intInput read index = .ok n) :
    read index = .ok (.int n) := by
  obtain ⟨value, hread, hpart⟩ := inputAs_eq_ok h
  cases value with
  | int m => rwa [← Option.some.inj hpart]
  | _ => cases hpart

theorem onWords_eq_ok {run : Except Numeric.WordFault (Raster Rgb)} {canvas : Raster Rgb}
    (h : onWords run = .ok canvas) : run = .ok canvas := by
  cases run with
  | ok image => exact congrArg _ (Except.ok.inj h)
  | error cause => exact nomatch h

theorem sameSize_of_blurred {image canvas : Raster Rgb} {k : Int}
    (h : node.blurred image k = .ok canvas) : canvas.SameSize image := by
  rw [blurred] at h
  split at h
  · have hwords := onWords_eq_ok h
    rw [Filter.gaussianWords_eq] at hwords
    split_ifs at hwords
    rw [← Except.ok.inj hwords]
    exact Filter.sameSize_gaussian ..
  · exact nomatch h

theorem sameSize_of_warped {image canvas : Raster Rgb} {m : Affine}
    (h : onWords (Warp.apply image m image.width image.height) = .ok canvas) :
    canvas.SameSize image := by
  have hyields := Warp.apply_yields image m image.width image.height
  rwa [onWords_eq_ok h] at hyields

theorem sameSize_of_captioned {image canvas : Raster Rgb} {x y : Int} {caption : String}
    {scale : Float32} {thickness : Int}
    (h : node.captioned image x y caption scale thickness = .ok canvas) :
    canvas.SameSize image := by
  rw [captioned] at h
  split_ifs at h
  · have hpaints := Caption.runPaints_drawWords image caption x y (Numeric.widened scale) thickness
      captionColor
    rw [onWords_eq_ok h] at hpaints
    obtain ⟨_, heq, hpainted⟩ | ⟨-, hbroken⟩ := hpaints
    · rw [Except.ok.inj heq]
      exact ⟨hpainted.width, hpainted.height⟩
    · exact nomatch hbroken
  · exact nomatch h

section Library

variable [ImageLibrary]

/-- Scaling gives the size asked for, which has an area within the limit. -/
theorem size_of_scaledTo [LawfulResize] {image canvas : Raster Rgb} {x y : Int}
    (h : node.scaledTo image x y = .ok canvas) :
    (1 ≤ x ∧ 1 ≤ y ∧ x * y ≤ Filter.maxOutputPixels) ∧
      (canvas.width.toNat : Int) = x ∧ (canvas.height.toNat : Int) = y := by
  rw [scaledTo] at h
  split_ifs at h with hpositive hfits
  · exact nomatch h
  · exact nomatch h
  · obtain ⟨a, rfl⟩ := Int.eq_ofNat_of_zero_le (show 0 ≤ x by omega)
    obtain ⟨b, rfl⟩ := Int.eq_ofNat_of_zero_le (show 0 ≤ y by omega)
    have hfit : a * b ≤ Filter.maxOutputPixels := by simpa [Filter.fitsOutput] using hfits
    have ha : a ≤ Filter.maxOutputPixels := (Nat.le_mul_of_pos_right a (by omega)).trans hfit
    have hb : b ≤ Filter.maxOutputPixels := (Nat.le_mul_of_pos_left b (by omega)).trans hfit
    have hword : Filter.maxOutputPixels < UInt32.size := by decide
    rw [← Except.ok.inj h, (LawfulResize.size_resize ..).1, (LawfulResize.size_resize ..).2,
      Int.toNat_natCast, Int.toNat_natCast, UInt32.toNat_ofNat_of_lt' (Nat.lt_of_le_of_lt ha hword),
      UInt32.toNat_ofNat_of_lt' (Nat.lt_of_le_of_lt hb hword)]
    exact ⟨⟨by omega, by omega, by exact_mod_cast hfit⟩, rfl, rfl⟩

/-- **A node keeps the size of the image on its first slot**, unless it brings an image of its own
or scales. -/
theorem sameSize_of_compute (hkind : node.kind.setsSize = false)
    {canvas : Raster Rgb} (hok : node.compute images read = .ok (.image canvas)) :
    ∃ source, read 0 = .ok (.image source) ∧ canvas.SameSize source := by
  -- A computation that begins with the image of the first slot, and keeps its size afterwards.
  have hreads {f : Raster Rgb → Except Failure Value} (hf : ∀ source, KeepsSize source (f source))
      (hok : node.imageInput read >>= f = .ok (.image canvas)) :
      ∃ source, read 0 = .ok (.image source) ∧ canvas.SameSize source := by
    obtain ⟨source, hread, hrest⟩ := bind_eq_ok_iff.mp hok
    exact ⟨source, imageInput_eq_ok hread, hf source canvas hrest⟩
  have hsource (hdata : node.kind.holdsData) (himage : node.kind.output ≠ .image)
      (hok : (Failure.lift (node.source images) : Except Failure Value) = .ok (.image canvas)) :
      False := by
    have hyields : Yields (·.type = node.kind.output) (node.OwnFailure read) (node.source images) :=
      source_yields images hdata
    rw [← Failure.lift_eq (node.source images), hok] at hyields
    exact himage hyields.symm
  unfold compute at hok
  generalize node.kind = kind at *
  cases kind with
  | int | float | string => exact absurd hok (hsource rfl (by decide))
  | image | scalePixel | scale => cases hkind
  | endNode => exact ⟨canvas, hok, .refl canvas⟩
  | sepia | grey | invert => exact hreads (fun source => .pure (Raster.sameSize_map _ source)) hok
  | bright =>
    exact hreads (fun source => .bind fun _ _ => .pure (Raster.sameSize_map _ source)) hok
  | rotate =>
    refine hreads (fun source => .bind fun _ _ => .bind fun canvas hcanvas => .pure ?_) hok
    rw [Failure.lift_eq] at hcanvas
    exact sameSize_of_warped hcanvas
  | movePixel | move =>
    refine hreads (fun source => .bind fun _ _ => .bind fun _ _ =>
      .bind fun canvas hcanvas => .pure ?_) hok
    rw [Failure.lift_eq] at hcanvas
    exact sameSize_of_warped hcanvas
  | gaussian =>
    refine hreads (fun source => .bind fun k _ => .bind fun canvas hcanvas => .pure ?_) hok
    rw [Failure.lift_eq] at hcanvas
    exact sameSize_of_blurred hcanvas
  | addTextPixel | addText =>
    refine hreads (fun source => .bind fun _ _ => .bind fun _ _ => .bind fun _ _ =>
      .bind fun _ _ => .bind fun canvas hcanvas => .pure ?_) hok
    rw [Failure.lift_eq] at hcanvas
    exact sameSize_of_captioned hcanvas

/-- A node that scales to a number of pixels gives exactly the size that its slots say. -/
theorem size_of_scalePixel [LawfulResize] (hkind : node.kind = .scalePixel) {canvas : Raster Rgb}
    (hok : node.compute images read = .ok (.image canvas)) :
    ∃ x y : Int, read 1 = .ok (.int x) ∧ read 2 = .ok (.int y) ∧
      (1 ≤ x ∧ 1 ≤ y ∧ x * y ≤ Filter.maxOutputPixels) ∧
      (canvas.width.toNat : Int) = x ∧ (canvas.height.toNat : Int) = y := by
  unfold compute at hok
  rw [hkind] at hok
  obtain ⟨source, -, hok⟩ := bind_eq_ok_iff.mp hok
  obtain ⟨x, hx, hok⟩ := bind_eq_ok_iff.mp hok
  obtain ⟨y, hy, hok⟩ := bind_eq_ok_iff.mp hok
  obtain ⟨scaled, hscaled, hok⟩ := bind_eq_ok_iff.mp hok
  obtain rfl := Value.image.inj (Except.ok.inj hok)
  rw [Failure.lift_eq] at hscaled
  exact ⟨x, y, intInput_eq_ok hx, intInput_eq_ok hy, size_of_scaledTo hscaled⟩

/-- An image node brings the image that goes with it. -/
theorem get?_of_image (hkind : node.kind = .image) {canvas : Raster Rgb}
    (hok : node.compute images read = .ok (.image canvas)) :
    images.get? node.id = some canvas := by
  unfold compute at hok
  rw [hkind, Failure.lift_eq, source] at hok
  simp only [hkind] at hok
  split_ifs at hok
  · exact nomatch hok
  · split at hok
    · next found hfound =>
      rw [hfound, Value.image.inj (Except.ok.inj hok)]
    · exact nomatch hok

end Library

end Node

/-! ### Graphs -/

namespace Graph

variable {g : Graph} {images : Images} {value : String → Except Failure Value} {node : Node}

/-- Whether a value arrives on a slot of a node, where `value` gives the values of nodes. -/
def Receives (g : Graph) (value : String → Except Failure Value) (id slot : String)
    (found : Value) : Prop :=
  ∃ link, g.linkInto? id slot = some link ∧ value link.producer = .ok found

/-- Whether a link brings the image of one node to the first slot of another. -/
def FeedsImage (g : Graph) (producer consumer : String) : Prop :=
  ∃ link, g.linkInto? consumer imageSlot.name = some link ∧ link.producer = producer

theorem Receives.eq_ok {id slot : String} {found : Value} (h : g.Receives value id slot found)
    (producer : String)
    (hlink : (g.linkInto? id slot).map Link.producer = some producer) :
    value producer = .ok found := by
  obtain ⟨link, hfound, hok⟩ := h
  rw [hfound] at hlink
  rwa [← Option.some.inj hlink]

theorem receives_of_input {index : Nat} {found : Value}
    (h : g.input value node index = .ok found) :
    ∃ slot, node.kind.inputs[index]? = some slot ∧ g.Receives value node.id slot.name found := by
  unfold input at h
  split at h
  · exact nomatch h
  · next slot hslot =>
    split at h
    · exact nomatch h
    · next link hlink =>
      obtain ⟨other, hother, htyped⟩ := bind_eq_ok_iff.mp h
      split_ifs at htyped
      rw [← Except.ok.inj htyped]
      exact ⟨slot, hslot, link, hlink, hother⟩

namespace Describes

variable [ImageLibrary] (hvalue : g.Describes images value) (h : g.WellFormed)
variable {canvas : Raster Rgb}

include hvalue h

/-- **The image of a node has the size of the image on its first slot**, unless the node sets the
size. -/
theorem sameSize_of_ok (hnode : node ∈ g.nodes) (hkind : node.kind.setsSize = false)
    (hok : value node.id = .ok (.image canvas)) :
    ∃ source, g.Receives value node.id imageSlot.name (.image source) ∧
      canvas.SameSize source := by
  rw [hvalue.eq_compute (h.evaluated_eq hnode)] at hok
  obtain ⟨source, hread, hsize⟩ := Node.sameSize_of_compute hkind hok
  obtain ⟨slot, hslot, hreceives⟩ := receives_of_input hread
  rw [NodeKind.eq_imageSlot hslot] at hreceives
  exact ⟨source, hreceives, hsize⟩

theorem size_of_scalePixel [LawfulResize] (hnode : node ∈ g.nodes) (hkind : node.kind = .scalePixel)
    (hok : value node.id = .ok (.image canvas)) :
    ∃ x y : Int, g.Receives value node.id "secondLink" (.int x) ∧
      g.Receives value node.id "thirdLink" (.int y) ∧
      (1 ≤ x ∧ 1 ≤ y ∧ x * y ≤ Filter.maxOutputPixels) ∧
      (canvas.width.toNat : Int) = x ∧ (canvas.height.toNat : Int) = y := by
  rw [hvalue.eq_compute (h.evaluated_eq hnode)] at hok
  obtain ⟨x, y, hx, hy, hsize⟩ := Node.size_of_scalePixel hkind hok
  obtain ⟨second, hsecond, hreceivesX⟩ := receives_of_input hx
  obtain ⟨third, hthird, hreceivesY⟩ := receives_of_input hy
  rw [hkind] at hsecond hthird
  obtain rfl := Option.some.inj hsecond
  obtain rfl := Option.some.inj hthird
  exact ⟨x, y, hreceivesX, hreceivesY, hsize⟩

theorem get?_of_image (hnode : node ∈ g.nodes) (hkind : node.kind = .image)
    (hok : value node.id = .ok (.image canvas)) : images.get? node.id = some canvas := by
  rw [hvalue.eq_compute (h.evaluated_eq hnode)] at hok
  exact Node.get?_of_image hkind hok

/-- **The size of an image comes from the last node on its way that sets one.** -/
theorem exists_origin (hnode : node ∈ g.nodes) (hok : value node.id = .ok (.image canvas)) :
    ∃ origin ∈ g.nodes, origin.kind.setsSize = true ∧
      ReflTransGen g.FeedsImage origin.id node.id ∧
      ∃ first, value origin.id = .ok (.image first) ∧ canvas.SameSize first := by
  refine h.induction_along_links (motive := fun node => ∀ canvas : Raster Rgb,
    value node.id = .ok (.image canvas) → ∃ origin ∈ g.nodes, origin.kind.setsSize = true ∧
      ReflTransGen g.FeedsImage origin.id node.id ∧
      ∃ first, value origin.id = .ok (.image first) ∧ canvas.SameSize first)
    (fun node hnode ih canvas hok => ?_) hnode canvas hok
  cases hkind : node.kind.setsSize with
  | true => exact ⟨node, hnode, hkind, .refl, canvas, hok, .refl canvas⟩
  | false =>
    obtain ⟨source, ⟨link, hlink, hsource⟩, hsize⟩ := hvalue.sameSize_of_ok h hnode hkind hok
    obtain ⟨hmem, hconsumer, -⟩ := h.linkInto?_eq_some_iff.mp hlink
    have hfeeds : g.Feeds link.producer node.id := ⟨link, hmem, rfl, hconsumer⟩
    obtain ⟨producer, hproducer, hpid⟩ := List.mem_map.mp (h.mem_nodes_of_feeds hfeeds)
    rw [← hpid] at hfeeds hsource
    obtain ⟨origin, horigin, hsets, hchain, first, hfirst, hsame⟩ :=
      ih producer hproducer hfeeds source hsource
    exact ⟨origin, horigin, hsets, hchain.tail ⟨link, hlink, hpid.symm⟩, first, hfirst,
      hsize.trans hsame⟩

end Describes

/-- **Sizes of canvases.** In a reachable graph the image of an image node has the size of the one
that goes with it, and that of a node that scales to a number of pixels has exactly the size that
arrives on its slots, with an area of at least one pixel within the limit. The image of any other
node but one that scales by shares has the size of the image on its first slot; and so every image
has the size of that of a node that sets the size, from which it came along first slots. -/
theorem canvas_sizes [ImageLibrary] [LawfulResize] (h : g.Reachable) (images : Images)
    (hnode : node ∈ g.nodes) {canvas : Raster Rgb}
    (hok : g.evaluate node.id images = .ok (.image canvas)) :
    (node.kind = .image →
      ∃ picture, images.get? node.id = some picture ∧
        canvas.width = picture.width ∧ canvas.height = picture.height) ∧
    (node.kind = .scalePixel →
      ∃ x y : Int, g.Receives (fun id => g.evaluate id images) node.id "secondLink" (.int x) ∧
        g.Receives (fun id => g.evaluate id images) node.id "thirdLink" (.int y) ∧
        (1 ≤ x ∧ 1 ≤ y ∧ x * y ≤ Filter.maxOutputPixels) ∧
        (canvas.width.toNat : Int) = x ∧ (canvas.height.toNat : Int) = y) ∧
    (node.kind ∉ [.image, .scalePixel, .scale] →
      ∃ source,
        g.Receives (fun id => g.evaluate id images) node.id "firstLink" (.image source) ∧
        canvas.width = source.width ∧ canvas.height = source.height) ∧
    ∃ origin ∈ g.nodes, origin.kind ∈ [.image, .scalePixel, .scale] ∧
      ReflTransGen g.FeedsImage origin.id node.id ∧
      ∃ first, g.evaluate origin.id images = .ok (.image first) ∧
        canvas.width = first.width ∧ canvas.height = first.height := by
  have hg := h.wellFormed
  have hvalue := hg.describes_evaluate images
  refine ⟨fun hkind => ⟨canvas, hvalue.get?_of_image hg hnode hkind hok, rfl, rfl⟩,
    fun hkind => hvalue.size_of_scalePixel hg hnode hkind hok, fun hkind => ?_, ?_⟩
  · have hsets : node.kind.setsSize = false := by
      revert hkind
      cases node.kind <;> decide
    exact hvalue.sameSize_of_ok hg hnode hsets hok
  · obtain ⟨origin, horigin, hsets, hchain, hfirst⟩ := hvalue.exists_origin hg hnode hok
    refine ⟨origin, horigin, ?_, hchain, hfirst⟩
    revert hsets
    cases origin.kind <;> decide

/-- A picture stretched to three by two pixels. -/
def stretchFlow : Graph :=
  [Edit.addNode .image, .setData "image-1" "photo.png", .addNode .int, .setData "int-2" "3",
    .addNode .int, .setData "int-3" "2", .addNode .scalePixel,
    .connect "image-1" "scale_pixel-4" "firstLink", .connect "int-2" "scale_pixel-4" "secondLink",
    .connect "int-3" "scale_pixel-4" "thirdLink",
    .connect "scale_pixel-4" "endNode" "firstLink"].foldl apply Graph.new

theorem stretchFlow_reachable : stretchFlow.Reachable :=
  Reachable.new.edits _

theorem exists_image_of_isSome {x : Except Failure Value}
    (h : (x.toOption.bind Value.image?).isSome) : ∃ canvas, x = .ok (.image canvas) := by
  cases x with
  | error failure => cases h
  | ok found =>
    cases found with
    | image canvas => exact ⟨canvas, rfl⟩
    | _ => cases h

/-- The picture has one pixel, and the image at the end node six. -/
theorem stretchFlow_stretches :
    ∃ canvas, stretchFlow.evaluate "endNode" onePixel = .ok (.image canvas) ∧
      canvas.width.toNat = 3 ∧ canvas.height.toNat = 2 := by
  have hend : ∃ node ∈ stretchFlow.nodes, node.id = "endNode" ∧ node.kind = .endNode := by
    decide +kernel
  have hscale : ∃ node ∈ stretchFlow.nodes,
      node.id = "scale_pixel-4" ∧ node.kind = .scalePixel := by decide +kernel
  obtain ⟨bottom, hbottom, hbottomId, hbottomKind⟩ := hend
  obtain ⟨scaling, hscaling, hscalingId, hscalingKind⟩ := hscale
  obtain ⟨canvas, hok⟩ : ∃ canvas, stretchFlow.evaluate "endNode" onePixel = .ok (.image canvas) :=
    exists_image_of_isSome (by decide +kernel)
  rw [← hbottomId] at hok
  obtain ⟨source, hsource, hwidth, hheight⟩ :=
    (canvas_sizes stretchFlow_reachable onePixel hbottom hok).2.2.1 (by rw [hbottomKind]; decide)
  rw [hbottomId] at hok hsource
  have hscaled := hsource.eq_ok "scale_pixel-4" (by decide +kernel)
  rw [← hscalingId] at hscaled
  obtain ⟨x, y, hx, hy, -, hxs, hys⟩ :=
    (canvas_sizes stretchFlow_reachable onePixel hscaling hscaled).2.1 hscalingKind
  rw [hscalingId] at hx hy
  have hthree : (stretchFlow.evaluate "int-2" onePixel).toOption.bind Value.int? = some 3 := by
    decide +kernel
  have htwo : (stretchFlow.evaluate "int-3" onePixel).toOption.bind Value.int? = some 2 := by
    decide +kernel
  rw [hx.eq_ok "int-2" (by decide +kernel)] at hthree
  rw [hy.eq_ok "int-3" (by decide +kernel)] at htwo
  obtain rfl : x = 3 := Option.some.inj hthree
  obtain rfl : y = 2 := Option.some.inj htwo
  exact ⟨canvas, hok, by rw [hwidth]; omega, by rw [hheight]; omega⟩

end Graph

end Darkroom
