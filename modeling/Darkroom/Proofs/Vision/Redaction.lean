import Darkroom.Proofs.Codec.Library
import Darkroom.Proofs.Image.Library
import Darkroom.Proofs.Region
import Darkroom.Vision.Redaction

/-!
# What a redaction hides

Hiding an area changes no pixel outside of it, whatever the mode (`get?_hide_of_outside`), and a
fill gives every pixel of the area its colour (`get?_hide_fill`). An area is the part of a region
within the image, so the same holds of a region that overlaps the image; one that does not is
skipped. The regions of a job are hidden one after the other, and the induction over them carries
only the size of the image, since every region is clipped by that.

Of a blur it is used only that it keeps the size of the patch, which is a law of the image library.

## Main definitions

* `Overlaps` : a region that shares a pixel with an image.

## Main results

* `get?_applyRegions_of_uncovered`, `get?_applyRegions_fill`, `snd_applyRegions` : the pixels that
  no region covers, those that some region covers, and the count.
* `applyJob_hides_exactly_regions` : a job hides its regions and nothing else.
-/

namespace Darkroom.Redaction

/-! ### Pixelating an area -/

@[simp] theorem width_flatten (image : Raster Rgba) (x y columns rows : Nat) :
    (flatten image x y columns rows).width = image.width :=
  image.width_setRect ..

@[simp] theorem height_flatten (image : Raster Rgba) (x y columns rows : Nat) :
    (flatten image x y columns rows).height = image.height :=
  image.height_setRect ..

theorem size_flattenStrip (image : Raster Rgba) (block x y rows left : Nat) :
    (flattenStrip image block x y rows left).width = image.width ∧
      (flattenStrip image block x y rows left).height = image.height := by
  fun_induction flattenStrip image block x y rows left with
  | case1 => exact ⟨rfl, rfl⟩
  | case2 image x left _ columns ih => rwa [width_flatten, height_flatten] at ih

@[simp] theorem inside_flatten (image : Raster Rgba) (x y columns rows px py : Nat) :
    (flatten image x y columns rows).inside px py = image.inside px py := by
  rw [Raster.inside, Raster.inside, width_flatten, height_flatten]

@[simp] theorem inside_flattenStrip (image : Raster Rgba) (block x y rows left px py : Nat) :
    (flattenStrip image block x y rows left).inside px py = image.inside px py := by
  obtain ⟨hw, hh⟩ := size_flattenStrip image block x y rows left
  rw [Raster.inside, Raster.inside, hw, hh]

theorem size_flattenArea (image : Raster Rgba) (block x y columns left : Nat) :
    (flattenArea image block x y columns left).width = image.width ∧
      (flattenArea image block x y columns left).height = image.height := by
  fun_induction flattenArea image block x y columns left with
  | case1 => exact ⟨rfl, rfl⟩
  | case2 image y left _ rows ih =>
    obtain ⟨hw, hh⟩ := size_flattenStrip image block x y rows columns
    rwa [hw, hh] at ih

theorem get?_flattenStrip_of_outside {image : Raster Rgba} {block x y rows left px py : Nat}
    (h : ¬ ((x ≤ px ∧ px < x + left) ∧ y ≤ py ∧ py < y + rows)) :
    (flattenStrip image block x y rows left).get? px py = image.get? px py := by
  fun_induction flattenStrip image block x y rows left with
  | case1 => rfl
  | case2 image x left _ columns ih =>
    have hcolumns : columns ≤ left := Nat.min_le_right ..
    rw [ih (by omega), flatten, Raster.get?_setRect, if_neg (by omega)]

theorem get?_flattenArea_of_outside {image : Raster Rgba} {block x y columns left px py : Nat}
    (h : ¬ ((x ≤ px ∧ px < x + columns) ∧ y ≤ py ∧ py < y + left)) :
    (flattenArea image block x y columns left).get? px py = image.get? px py := by
  fun_induction flattenArea image block x y columns left with
  | case1 => rfl
  | case2 image y left _ rows ih =>
    have hrows : rows ≤ left := Nat.min_le_right ..
    rw [ih (by omega), get?_flattenStrip_of_outside (by omega)]

/-- Pixelating an area keeps the size of the image. -/
theorem size_pixelate (image : Raster Rgba) (area : Region) (blockSize : UInt32) :
    (pixelate image area blockSize).width = image.width ∧
      (pixelate image area blockSize).height = image.height :=
  size_flattenArea ..

/-- Pixelating an area changes no pixel outside of it. -/
theorem get?_pixelate_of_outside (image : Raster Rgba) {area : Region} (blockSize : UInt32)
    {px py : Nat} (h : ¬ area.Covers px py) :
    (pixelate image area blockSize).get? px py = image.get? px py :=
  get?_flattenArea_of_outside h

/-! ### Regions that overlap an image -/

/-- Whether a region shares a pixel with an image. -/
def Overlaps (image : Raster Rgba) (region : Region) : Prop :=
  ∃ x y, region.contains x y = true ∧ image.inside x.toNat y.toNat = true

theorem isSome_clip_iff_overlaps (image : Raster Rgba) (region : Region) :
    (region.clip image.width image.height).isSome = true ↔ Overlaps image region := by
  rw [Region.isSome_clip_iff]
  constructor
  · rintro ⟨x, y, hr, hsize⟩
    have hin := Raster.inside_iff.mpr hsize
    obtain ⟨column, row, rfl, rfl⟩ := Raster.exists_words_of_inside hin
    exact ⟨column, row, (region.contains_iff column row).mpr hr, hin⟩
  · rintro ⟨x, y, hr, hin⟩
    exact ⟨x.toNat, y.toNat, (Region.contains_iff ..).mp hr, Raster.inside_iff.mp hin⟩

instance (image : Raster Rgba) : DecidablePred (Overlaps image) := fun region =>
  decidable_of_iff _ (isSome_clip_iff_overlaps image region)

section Modes

variable [ImageLibrary]

/-! ### Hiding an area -/

/-- Hiding an area keeps the size of the image. -/
theorem size_hide (image : Raster Rgba) (area : Region) (mode : Mode) :
    (hide image area mode).width = image.width ∧
      (hide image area mode).height = image.height := by
  cases mode with
  | fill color => exact ⟨image.width_setRect .., image.height_setRect ..⟩
  | pixelate blockSize => exact size_pixelate image area blockSize
  | blur sigma => exact ⟨rfl, rfl⟩

/-- Hiding an area changes no pixel outside of it. -/
theorem get?_hide_of_outside [LawfulBlur] (image : Raster Rgba) {area : Region} (mode : Mode)
    {px py : Nat} (h : ¬ area.Covers px py) :
    (hide image area mode).get? px py = image.get? px py := by
  cases mode with
  | fill color => rw [hide, fill, Raster.get?_setRect, if_neg fun hin => h ⟨hin.1, hin.2.1⟩]
  | pixelate blockSize => exact get?_pixelate_of_outside image blockSize h
  | blur sigma =>
    obtain ⟨hwidth, hheight⟩ := LawfulBlur.sameSize_blur sigma (patch image area)
    refine Raster.get?_paste_of_outside ?_
    rw [hwidth, hheight]
    exact h

/-- A filled area has the colour of the fill. -/
theorem get?_hide_fill {image : Raster Rgba} {area : Region} (color : Rgba) {px py : Nat}
    (h : area.Covers px py) (hin : image.inside px py = true) :
    (hide image area (.fill color)).get? px py = some color := by
  rw [hide, fill, Raster.get?_setRect, if_pos ⟨h.1, h.2, hin⟩]

/-! ### Hiding regions in turn -/

/-- One region: it is either skipped or hidden, and counts in the second case. -/
theorem applyRegions_cons (mode : Mode) (image : Raster Rgba) (applied : Nat) (region : Region)
    (regions : List Region) :
    (region.clip image.width image.height = none ∧ ¬ Overlaps image region ∧
      applyRegions mode image applied (region :: regions) =
        applyRegions mode image applied regions) ∨
    ∃ area, region.clip image.width image.height = some area ∧ Overlaps image region ∧
      applyRegions mode image applied (region :: regions) =
        applyRegions mode (hide image area mode) (applied + 1) regions := by
  have hover := isSome_clip_iff_overlaps image region
  cases hclip : region.clip image.width image.height with
  | none =>
    refine .inl ⟨rfl, fun h => ?_,
      by simp only [applyRegions, applyRegion?, hclip, Option.map_none]⟩
    simp only [hclip, Option.isSome_none, Bool.false_eq_true, false_iff] at hover
    exact hover h
  | some area =>
    refine .inr ⟨area, rfl, hover.mp (by rw [hclip]; rfl), ?_⟩
    simp only [applyRegions, applyRegion?, hclip, Option.map_some]

/-- Overlapping an image depends only on its size. -/
theorem overlaps_hide_iff (image : Raster Rgba) (area : Region) (mode : Mode) (region : Region) :
    Overlaps (hide image area mode) region ↔ Overlaps image region := by
  obtain ⟨hw, hh⟩ := size_hide image area mode
  simp only [Overlaps, Raster.inside, hw, hh]

theorem size_applyRegions (mode : Mode) (image : Raster Rgba) (applied : Nat)
    (regions : List Region) :
    (applyRegions mode image applied regions).1.width = image.width ∧
      (applyRegions mode image applied regions).1.height = image.height := by
  induction regions generalizing image applied with
  | nil => exact ⟨rfl, rfl⟩
  | cons region regions ih =>
    obtain ⟨-, -, heq⟩ | ⟨area, -, -, heq⟩ := applyRegions_cons mode image applied region regions
    · rw [heq]
      exact ih image applied
    · obtain ⟨hw, hh⟩ := size_hide image area mode
      rw [heq, ← hw, ← hh]
      exact ih (hide image area mode) (applied + 1)

/-- Pixels that no region covers stay as they are. -/
theorem get?_applyRegions_of_uncovered [LawfulBlur] (mode : Mode) (image : Raster Rgba)
    (applied : Nat) {regions : List Region} {px py : Nat}
    (h : ∀ region ∈ regions, ¬ region.Covers px py) :
    (applyRegions mode image applied regions).1.get? px py = image.get? px py := by
  induction regions generalizing image applied with
  | nil => rfl
  | cons region regions ih =>
    obtain ⟨hregion, hregions⟩ := List.forall_mem_cons.mp h
    obtain ⟨-, -, heq⟩ | ⟨area, hclip, -, heq⟩ :=
      applyRegions_cons mode image applied region regions
    · rw [heq, ih image applied hregions]
    · have harea : ¬ area.Covers px py := fun ha =>
        hregion ((Region.covers_of_clip hclip px py).mp ha).1
      rw [heq, ih _ _ hregions, get?_hide_of_outside image mode harea]

/-- Under a fill, pixels of the image that some region covers have the colour of the fill. -/
theorem get?_applyRegions_fill [LawfulBlur] (color : Rgba) (image : Raster Rgba) (applied : Nat)
    {regions : List Region} {px py : Nat} (hin : image.inside px py = true)
    (h : ∃ region ∈ regions, region.Covers px py) :
    (applyRegions (.fill color) image applied regions).1.get? px py = some color := by
  induction regions generalizing image applied with
  | nil =>
    obtain ⟨region, hmem, -⟩ := h
    exact absurd hmem List.not_mem_nil
  | cons region regions ih =>
    obtain ⟨hclip, -, heq⟩ | ⟨area, hclip, -, heq⟩ :=
      applyRegions_cons (.fill color) image applied region regions
    · -- A region that is skipped covers no pixel of the image, so a later one covers this pixel.
      obtain ⟨covering, hmem, hcovers⟩ := h
      rw [heq]
      refine ih image applied hin ⟨covering, ?_, hcovers⟩
      refine (List.mem_cons.mp hmem).resolve_left fun hfirst => ?_
      rw [hfirst] at hcovers
      exact Region.not_covers_of_clip hclip hcovers (Raster.inside_iff.mp hin)
    · rw [heq]
      obtain ⟨hw, hh⟩ := size_hide image area (.fill color)
      have hin' : (hide image area (.fill color)).inside px py = true := by
        rwa [Raster.inside, hw, hh]
      by_cases hlater : ∃ later ∈ regions, later.Covers px py
      · exact ih _ _ hin' hlater
      · -- The last region over a pixel decides, and here this is the first of the list.
        have huncovered : ∀ later ∈ regions, ¬ later.Covers px py := fun later hmem hcovers =>
          hlater ⟨later, hmem, hcovers⟩
        obtain ⟨covering, hmem, hcovers⟩ := h
        obtain rfl : covering = region := (List.mem_cons.mp hmem).resolve_right fun hrest =>
          huncovered covering hrest hcovers
        rw [get?_applyRegions_of_uncovered _ _ _ huncovered]
        exact get?_hide_fill color ((Region.covers_of_clip hclip px py).mpr
          ⟨hcovers, Raster.inside_iff.mp hin⟩) hin

/-- The count grows by the number of regions that overlap the image. -/
theorem snd_applyRegions (mode : Mode) (image : Raster Rgba) (applied : Nat)
    (regions : List Region) :
    (applyRegions mode image applied regions).2 = applied + regions.countP (Overlaps image) := by
  induction regions generalizing image applied with
  | nil => rfl
  | cons region regions ih =>
    obtain ⟨-, hover, heq⟩ | ⟨area, -, hover, heq⟩ :=
      applyRegions_cons mode image applied region regions
    · rw [heq, ih image applied, List.countP_cons_of_neg (by simpa using hover)]
    · have hcongr : regions.countP (Overlaps (hide image area mode)) =
          regions.countP (Overlaps image) :=
        List.countP_congr fun later _ => by
          rw [decide_eq_true_eq, decide_eq_true_eq, overlaps_hide_iff]
      rw [heq, ih _ _, hcongr, List.countP_cons_of_pos (by simpa using hover)]
      omega

/-- Under a fill, images of one size that agree where no region covers them become the same. -/
theorem applyRegions_fill_congr [LawfulBlur] (color : Rgba) {image other : Raster Rgba}
    (applied : Nat) {regions : List Region} (hw : other.width = image.width)
    (hh : other.height = image.height)
    (h : ∀ px py, image.inside px py = true → other.get? px py ≠ image.get? px py →
      ∃ region ∈ regions, region.Covers px py) :
    applyRegions (.fill color) other applied regions =
      applyRegions (.fill color) image applied regions := by
  obtain ⟨hw₁, hh₁⟩ := size_applyRegions (.fill color) other applied regions
  obtain ⟨hw₂, hh₂⟩ := size_applyRegions (.fill color) image applied regions
  refine Prod.ext (Raster.ext_get? ?_ ?_ fun px py hin => ?_) ?_
  · rw [hw₁, hw₂, hw]
  · rw [hh₁, hh₂, hh]
  · have hother : other.inside px py = true := by rwa [Raster.inside, hw₁, hh₁] at hin
    have himage : image.inside px py = true := by rwa [Raster.inside, hw, hh] at hother
    by_cases hcovered : ∃ region ∈ regions, region.Covers px py
    · rw [get?_applyRegions_fill color other applied hother hcovered,
        get?_applyRegions_fill color image applied himage hcovered]
    · have huncovered : ∀ region ∈ regions, ¬ region.Covers px py := fun region hmem hcovers =>
        hcovered ⟨region, hmem, hcovers⟩
      rw [get?_applyRegions_of_uncovered _ other applied huncovered,
        get?_applyRegions_of_uncovered _ image applied huncovered]
      exact not_not.mp fun hne => hcovered (h px py himage hne)
  · have hover : ∀ region, Overlaps other region ↔ Overlaps image region := fun region => by
      simp only [Overlaps, Raster.inside, hw, hh]
    rw [snd_applyRegions, snd_applyRegions]
    exact congrArg (applied + ·) (List.countP_congr fun region _ => by
      rw [decide_eq_true_eq, decide_eq_true_eq, hover])

/-! ### Jobs -/

/-- **A job hides its regions and nothing else.** The result has the size of the image; every pixel
that no region contains is that of the image with eight bits a channel and alpha. Under a fill,
every pixel of the image that some region contains has the colour, so that the result is the same
for any image of this size that differs only there. The count is that of the regions that share a
pixel with the image. -/
theorem applyJob_hides_exactly_regions [LawfulBlur] (job : Job) (picture : Picture) :
    let image := picture.toRgba
    let hidden := (applyJob job image).1
    (hidden.width = image.width ∧ hidden.height = image.height) ∧
    (∀ x y, (∀ region ∈ job.regions, ¬ region.contains x y = true) →
      hidden.get? x.toNat y.toNat = image.get? x.toNat y.toNat) ∧
    (∀ color, job.mode = .fill color →
      (∀ x y, image.inside x.toNat y.toNat = true →
        (∃ region ∈ job.regions, region.contains x y = true) →
        hidden.get? x.toNat y.toNat = some color) ∧
      ∀ other : Picture, other.toRgba.width = image.width → other.toRgba.height = image.height →
        (∀ x y, other.toRgba.get? x.toNat y.toNat ≠ image.get? x.toNat y.toNat →
          ∃ region ∈ job.regions, region.contains x y = true) →
        applyJob job other.toRgba = applyJob job image) ∧
    (applyJob job image).2 = job.regions.countP (Overlaps image) := by
  intro image hidden
  refine ⟨size_applyRegions .., fun x y h => ?_, fun color hmode => ⟨fun x y hin h => ?_, ?_⟩, ?_⟩
  · refine get?_applyRegions_of_uncovered job.mode image 0 fun region hmem hcovers => ?_
    exact h region hmem ((region.contains_iff x y).mpr hcovers)
  · obtain ⟨region, hmem, hcontains⟩ := h
    simp only [hidden, applyJob, hmode]
    exact get?_applyRegions_fill color image 0 hin
      ⟨region, hmem, (region.contains_iff x y).mp hcontains⟩
  · intro other hw hh h
    simp only [applyJob, hmode]
    refine applyRegions_fill_congr color 0 hw hh fun px py hin hne => ?_
    -- The columns and rows of an image are words.
    obtain ⟨hx, hy⟩ := Raster.inside_iff.mp hin
    have hpx : px.toUInt32.toNat = px :=
      UInt32.toNat_ofNat_of_lt' (Nat.lt_trans hx image.width.toNat_lt)
    have hpy : py.toUInt32.toNat = py :=
      UInt32.toNat_ofNat_of_lt' (Nat.lt_trans hy image.height.toNat_lt)
    obtain ⟨region, hmem, hcontains⟩ := h px.toUInt32 py.toUInt32 (by rwa [hpx, hpy])
    rw [Region.contains_iff, hpx, hpy] at hcontains
    exact ⟨region, hmem, hcontains⟩
  · rw [applyJob, snd_applyRegions, Nat.zero_add]

end Modes

/-- Two pixels side by side, the first of them black. -/
def besideBlack (pixel : Rgba) : Picture := .rgba8 ⟨2, 1, #[Mode.defaultColor, pixel], rfl⟩

/-- A job that fills all columns from the second on, as far as words go, with one colour; the far
edge of its first region does not fit in a word, and its second region lies beside the image. -/
def fillPastWords (color : Rgba) : Job :=
  ⟨"in.png", [⟨1, 0, 4294967295, 1⟩, ⟨7, 7, 1, 1⟩], .fill color, none, ⟨0, 0, 0⟩⟩

private theorem besideBlack_differs_in_fillPastWords (color pixel other : Rgba) (x y : UInt32)
    (h : (besideBlack other).toRgba.get? x.toNat y.toNat ≠
      (besideBlack pixel).toRgba.get? x.toNat y.toNat) :
    ∃ region ∈ (fillPastWords color).regions, region.contains x y = true := by
  refine ⟨⟨1, 0, 4294967295, 1⟩, List.mem_cons_self, ?_⟩
  rw [Region.contains_iff]
  change (1 ≤ x.toNat ∧ x.toNat < 1 + 4294967295) ∧ 0 ≤ y.toNat ∧ y.toNat < 0 + 1
  have hx := x.toNat_lt
  by_contra hout
  by_cases hfirst : x.toNat = 0 ∧ y.toNat = 0
  · exact h (by rw [hfirst.1, hfirst.2]; rfl)
  · have hoff : ∀ p, ¬ (besideBlack p).toRgba.inside x.toNat y.toNat = true := fun p hin => by
      obtain ⟨hx2, hy1⟩ := Raster.inside_iff.mp hin
      change x.toNat < 2 at hx2
      change y.toNat < 1 at hy1
      omega
    exact h (by rw [Raster.get?_of_not_inside (hoff _), Raster.get?_of_not_inside (hoff _)])

/-- A region whose far edge does not fit in a word hides the second of two pixels: the first
pixel stays, the second has the colour whatever it was, and one region is counted. -/
theorem fillPastWords_hides_second_pixel :
    let job := fillPastWords ⟨200, 0, 0, 255⟩
    let image := (besideBlack ⟨1, 2, 3, 4⟩).toRgba
    let other := (besideBlack ⟨5, 6, 7, 8⟩).toRgba
    ((∀ region ∈ job.regions, ¬ region.contains 0 0 = true) ∧
      (applyJob job image).1.get? 0 0 = image.get? 0 0) ∧
    (job.mode = .fill ⟨200, 0, 0, 255⟩ ∧ image.inside 1 0 = true ∧
      (∃ region ∈ job.regions, region.contains 1 0 = true) ∧
      (applyJob job image).1.get? 1 0 = some ⟨200, 0, 0, 255⟩) ∧
    (other.width = image.width ∧ other.height = image.height ∧
      (∀ x y, other.get? x.toNat y.toNat ≠ image.get? x.toNat y.toNat →
        ∃ region ∈ job.regions, region.contains x y = true) ∧
      applyJob job other = applyJob job image) ∧
    (applyJob job image).2 = 1 := by
  intro job image other
  obtain ⟨-, hkeep, hfill, hcount⟩ := applyJob_hides_exactly_regions job (besideBlack ⟨1, 2, 3, 4⟩)
  obtain ⟨hhidden, hsame⟩ := hfill ⟨200, 0, 0, 255⟩ rfl
  have hout : ∀ region ∈ job.regions, ¬ region.contains 0 0 = true := by decide
  have hin : ∃ region ∈ job.regions, region.contains 1 0 = true := by decide
  have hdiffers := besideBlack_differs_in_fillPastWords ⟨200, 0, 0, 255⟩ ⟨1, 2, 3, 4⟩ ⟨5, 6, 7, 8⟩
  refine ⟨⟨hout, hkeep 0 0 hout⟩, ⟨rfl, rfl, hin, hhidden 1 0 rfl hin⟩,
    ⟨rfl, rfl, hdiffers, hsame (besideBlack ⟨5, 6, 7, 8⟩) rfl rfl hdiffers⟩, ?_⟩
  rw [hcount]
  decide

end Darkroom.Redaction
