import Darkroom.Proofs.Vision.Pixelation

/-!
# The order of regions

Hiding an area changes only pixels of the area, and in doing so it looks at no others: images that
agree on the area agree there afterwards, whatever the mode (`get?_hide_congr`). Where the areas of
the regions are apart, each is therefore hidden as if it were the only one
(`get?_applyRegions_of_apart`), which says the same of every order. Under a fill the regions may
overlap, since a pixel has the colour if any region covers it. A call that blurs an area is given
the pixels of the area only, so whether it returns does not depend on regions that are apart either.

## Main definitions

* `Apart` : regions whose areas share no pixel.
* `Unaffected` : a region for which the blur of another one makes no difference.

## Main results

* `get?_hide_congr` : what hiding an area depends on.
* `get?_applyRegions_of_apart` : the pixels of regions that are apart.
* `canBlurRegions_iff` : when all calls return that blur regions in turn.
* `applyJob_perm` : jobs that differ in the order of their regions.
-/

namespace Darkroom.Redaction

variable {image other : Raster Rgba} {area : Region}

/-! ### Parts that depend on an area alone -/

/-- Pixelation of an area depends only on its pixels. -/
theorem get?_pixelate_congr (hinside : ∀ x y, area.Covers x y → image.inside x y = true)
    (h : ∀ x y, area.Covers x y → other.get? x y = image.get? x y)
    (hother : ∀ x y, other.inside x y = image.inside x y) (blockSize : UInt32) {px py : Nat}
    (hp : area.Covers px py) :
    (pixelate other area blockSize).get? px py = (pixelate image area blockSize).get? px py := by
  have hblock := blockSide_pos blockSize
  have hin := hinside px py hp
  have htotals : ∀ raster : Raster Rgba, raster.inside px py = true →
      (pixelate raster area blockSize).get? px py = some (totals raster
        (blockStart (blockSide blockSize) area.x.toNat px)
        (blockStart (blockSide blockSize) area.y.toNat py)
        (blockLength (blockSide blockSize) area.x.toNat area.width.toNat px)
        (blockLength (blockSide blockSize) area.y.toNat area.height.toNat py)).mean :=
    fun _ hraster => get?_flattenArea_of_inside hblock hp.1 hp.2 hraster
  rw [htotals other (by rwa [hother]), htotals image hin]
  congr 2
  refine totals_congr fun x y hmem => h x y ?_
  rw [← blockAt_eq_rectangle area hblock] at hmem
  exact (mem_blockAt.mp hmem).1

/-- The pixels of an area as an image of their own depend on nothing else. -/
theorem patch_congr (h : ∀ x y, area.Covers x y → other.get? x y = image.get? x y) :
    patch other area = patch image area := by
  rw [patch, patch]
  refine Raster.ofFn_congr fun x y hx hy => ?_
  rw [Raster.getD, Raster.getD, h _ _ (by rw [Region.Covers]; omega)]

/-! ### Regions that are apart -/

/-- Whether the areas of two regions within an image share no pixel. -/
def Apart (image : Raster Rgba) (r s : Region) : Prop :=
  ∀ a b, r.clip image.width image.height = some a → s.clip image.width image.height = some b →
    ∀ x y, ¬ (a.contains x y = true ∧ b.contains x y = true)

/-- A region that covers a pixel of an image has an area, which covers the pixel too. -/
theorem exists_clip_of_covers {region : Region} {px py : Nat} (hin : image.inside px py = true)
    (h : region.Covers px py) :
    ∃ area, region.clip image.width image.height = some area ∧ area.Covers px py := by
  have hsize := Raster.inside_iff.mp hin
  cases hclip : region.clip image.width image.height with
  | none => exact absurd hsize (Region.not_covers_of_clip hclip h)
  | some area => exact ⟨area, rfl, (Region.covers_of_clip hclip px py).mpr ⟨h, hsize⟩⟩

theorem inside_of_clip {region : Region}
    (hclip : region.clip image.width image.height = some area) {px py : Nat}
    (h : area.Covers px py) : region.Covers px py ∧ image.inside px py = true := by
  obtain ⟨hregion, hsize⟩ := (Region.covers_of_clip hclip px py).mp h
  exact ⟨hregion, Raster.inside_iff.mpr hsize⟩

/-- Regions are apart when no pixel of the image is covered by both. -/
theorem apart_iff (image : Raster Rgba) (r s : Region) :
    Apart image r s ↔
      ∀ px py, image.inside px py = true → ¬ (r.Covers px py ∧ s.Covers px py) := by
  constructor
  · rintro h px py hin ⟨hr, hs⟩
    obtain ⟨a, hclipA, ha⟩ := exists_clip_of_covers hin hr
    obtain ⟨b, hclipB, hb⟩ := exists_clip_of_covers hin hs
    obtain ⟨x, y, rfl, rfl⟩ := Raster.exists_words_of_inside hin
    exact h a b hclipA hclipB x y ⟨(a.contains_iff x y).mpr ha, (b.contains_iff x y).mpr hb⟩
  · rintro h a b hclipA hclipB x y ⟨ha, hb⟩
    rw [Region.contains_iff] at ha hb
    obtain ⟨hr, hin⟩ := inside_of_clip hclipA ha
    exact h x.toNat y.toNat hin ⟨hr, (inside_of_clip hclipB hb).1⟩

theorem Apart.symm {r s : Region} (h : Apart image r s) : Apart image s r :=
  fun a b ha hb x y hxy => h b a hb ha x y hxy.symm

section Order

variable [ImageLibrary]

/-! ### One area -/

/-- **Hiding an area looks at no pixel outside of it.** Images of one size that agree on an area
within them agree there when it has been hidden. -/
theorem get?_hide_congr (hw : other.width = image.width) (hh : other.height = image.height)
    (hinside : ∀ x y, area.Covers x y → image.inside x y = true)
    (h : ∀ x y, area.Covers x y → other.get? x y = image.get? x y) (mode : Mode) {px py : Nat}
    (hp : area.Covers px py) :
    (hide other area mode).get? px py = (hide image area mode).get? px py := by
  have hother : ∀ x y, other.inside x y = image.inside x y := fun x y => by
    rw [Raster.inside, Raster.inside, hw, hh]
  cases mode with
  | fill color =>
    have hin := hinside px py hp
    rw [get?_hide_fill color hp hin, get?_hide_fill color hp (by rwa [hother])]
  | pixelate blockSize => exact get?_pixelate_congr hinside h hother blockSize hp
  | blur sigma => simp only [hide, blur, patch_congr h, Raster.get?_paste, h px py hp]

/-! ### Regions that do not meet -/

/-- Being apart depends only on the size of the image. -/
theorem apart_hide (image : Raster Rgba) (area : Region) (mode : Mode) :
    Apart (hide image area mode) = Apart image := by
  obtain ⟨hw, hh⟩ := size_hide image area mode
  funext r s
  rw [Apart, Apart, hw, hh]

/-- **Regions that are apart do not meet.** Each area is hidden as if it were the only one. -/
theorem get?_applyRegions_of_apart [LawfulBlur] (mode : Mode) (image : Raster Rgba) (applied : Nat)
    {regions : List Region} (hapart : regions.Pairwise (Apart image)) {region : Region}
    (hmem : region ∈ regions) (hclip : region.clip image.width image.height = some area)
    {px py : Nat} (hp : area.Covers px py) :
    (applyRegions mode image applied regions).1.get? px py =
      (hide image area mode).get? px py := by
  induction regions generalizing image applied with
  | nil => exact absurd hmem List.not_mem_nil
  | cons first rest ih =>
    obtain ⟨hfirst, hrest⟩ := List.pairwise_cons.mp hapart
    obtain ⟨hnone, -, heq⟩ | ⟨firstArea, hsome, -, heq⟩ :=
      applyRegions_cons mode image applied first rest
    · have hne : region ≠ first := by
        rintro rfl
        exact nomatch hclip.symm.trans hnone
      rw [heq]
      exact ih image applied hrest ((List.mem_cons.mp hmem).resolve_left hne) hclip
    rw [heq]
    rcases List.mem_cons.mp hmem with rfl | hlater
    · obtain rfl := Option.some.inj (hclip.symm.trans hsome)
      obtain ⟨hcovers, hin⟩ := inside_of_clip hclip hp
      refine get?_applyRegions_of_uncovered mode _ _ fun later hmem hlater => ?_
      exact (apart_iff image region later).mp (hfirst later hmem) px py hin ⟨hcovers, hlater⟩
    · obtain ⟨hw, hh⟩ := size_hide image firstArea mode
      rw [ih (hide image firstArea mode) _ (by rwa [apart_hide]) hlater (by rwa [hw, hh])]
      refine get?_hide_congr hw hh (fun x y h => (inside_of_clip hclip h).2) (fun x y h => ?_) mode
        hp
      -- The first area has been hidden before, but it lies elsewhere.
      refine get?_hide_of_outside image mode fun hboth => ?_
      obtain ⟨hcovers, hin⟩ := inside_of_clip hclip h
      exact (apart_iff image first region).mp (hfirst region hlater) x y hin
        ⟨(inside_of_clip hsome hboth).1, hcovers⟩

/-! ### Regions in another order -/

/-- The order of regions makes no difference if it makes none for the pixels that they cover. -/
theorem applyRegions_perm [LawfulBlur] {mode : Mode} {applied : Nat}
    {regions regions' : List Region} (hperm : regions'.Perm regions)
    (hcovered : ∀ region ∈ regions, ∀ px py, image.inside px py = true → region.Covers px py →
      (applyRegions mode image applied regions').1.get? px py =
        (applyRegions mode image applied regions).1.get? px py) :
    applyRegions mode image applied regions' = applyRegions mode image applied regions := by
  obtain ⟨hw', hh'⟩ := size_applyRegions mode image applied regions'
  obtain ⟨hw, hh⟩ := size_applyRegions mode image applied regions
  refine Prod.ext (Raster.ext_get? (hw'.trans hw.symm) (hh'.trans hh.symm) fun px py hin => ?_) ?_
  · rw [Raster.inside, hw', hh'] at hin
    by_cases h : ∃ region ∈ regions, region.Covers px py
    · obtain ⟨region, hmem, hcovers⟩ := h
      exact hcovered region hmem px py hin hcovers
    · have huncovered : ∀ region ∈ regions, ¬ region.Covers px py := fun region hmem hcovers =>
        h ⟨region, hmem, hcovers⟩
      rw [get?_applyRegions_of_uncovered mode image applied huncovered,
        get?_applyRegions_of_uncovered mode image applied fun region hmem =>
          huncovered region (hperm.mem_iff.mp hmem)]
  · rw [snd_applyRegions, snd_applyRegions, hperm.countP_eq]

theorem applyRegions_fill_perm [LawfulBlur] (color : Rgba) (image : Raster Rgba) (applied : Nat)
    {regions regions' : List Region} (hperm : regions'.Perm regions) :
    applyRegions (.fill color) image applied regions' =
      applyRegions (.fill color) image applied regions := by
  refine applyRegions_perm hperm fun region hmem px py hin hcovers => ?_
  rw [get?_applyRegions_fill color image applied hin ⟨region, hmem, hcovers⟩,
    get?_applyRegions_fill color image applied hin ⟨region, hperm.mem_iff.mpr hmem, hcovers⟩]

theorem applyRegions_perm_of_apart [LawfulBlur] (mode : Mode) (image : Raster Rgba) (applied : Nat)
    {regions regions' : List Region} (hperm : regions'.Perm regions)
    (hapart : regions.Pairwise (Apart image)) :
    applyRegions mode image applied regions' = applyRegions mode image applied regions := by
  have hapart' : regions'.Pairwise (Apart image) := hperm.symm.pairwise hapart Apart.symm
  refine applyRegions_perm hperm fun region hmem px py hin hcovers => ?_
  obtain ⟨area, hclip, hp⟩ := exists_clip_of_covers hin hcovers
  rw [get?_applyRegions_of_apart mode image applied hapart hmem hclip hp,
    get?_applyRegions_of_apart mode image applied hapart' (hperm.mem_iff.mpr hmem) hclip hp]

/-! ### Calls that return -/

/-- Whether the call that blurs a region returns, if the region overlaps the image. -/
def CanBlurRegion (sigma : Float32) (image : Raster Rgba) (region : Region) : Prop :=
  ∀ area, region.clip image.width image.height = some area →
    ImageLibrary.canBlur sigma (patch image area) = true

/-- Whether blurring a region makes no difference for the call that blurs another one. -/
def Unaffected (sigma : Float32) (image : Raster Rgba) (first later : Region) : Prop :=
  ∀ before : Raster Rgba, before.SameSize image →
    ∀ area, first.clip image.width image.height = some area →
      (CanBlurRegion sigma (blur before area sigma) later ↔ CanBlurRegion sigma before later)

variable {sigma : Float32} {regions regions' : List Region}

/-- Where no region makes a difference for later ones, all calls return if each of them returns on
the image as it is. -/
theorem canBlurRegions_iff (h : regions.Pairwise (Unaffected sigma image))
    (hsize : other.SameSize image) :
    canBlurRegions sigma other regions = true ↔
      ∀ region ∈ regions, CanBlurRegion sigma other region := by
  induction regions generalizing other with
  | nil => exact ⟨fun _ _ hmem => absurd hmem List.not_mem_nil, fun _ => rfl⟩
  | cons first rest ih =>
    obtain ⟨hfirst, hrest⟩ := List.pairwise_cons.mp h
    rw [List.forall_mem_cons, canBlurRegions, CanBlurRegion, hsize.1, hsize.2]
    cases hclip : first.clip image.width image.height with
    | none =>
      rw [ih hrest hsize]
      exact ⟨fun hall => ⟨fun _ hnone => (nomatch hnone), hall⟩, And.right⟩
    | some area =>
      have hblurred : (blur other area sigma).SameSize image := hsize
      simp only [Option.some.injEq, forall_eq', Bool.and_eq_true, ih hrest hblurred]
      exact and_congr_right' (forall₂_congr fun later hmem =>
        hfirst later hmem other hsize area hclip)

theorem canBlurRegions_perm (hperm : regions'.Perm regions)
    (h : regions.Pairwise (Unaffected sigma image))
    (h' : regions'.Pairwise (Unaffected sigma image)) :
    canBlurRegions sigma image regions' = canBlurRegions sigma image regions := by
  rw [Bool.eq_iff_iff, canBlurRegions_iff h (.refl image), canBlurRegions_iff h' (.refl image)]
  exact forall_congr' fun region => by rw [hperm.mem_iff]

/-- A region that is apart from another one makes no difference for it. -/
theorem Apart.unaffected [LawfulBlur] {first later : Region} (h : Apart image first later) :
    Unaffected sigma image first later := by
  intro before hsize area hclip
  refine forall₂_congr fun laterArea hlater => ?_
  have hlater : later.clip image.width image.height = some laterArea := by
    rwa [← hsize.1, ← hsize.2]
  have hpatch : patch (blur before area sigma) laterArea = patch before laterArea := by
    refine patch_congr fun x y hcovers => ?_
    obtain ⟨hregion, hin⟩ := inside_of_clip hlater hcovers
    exact get?_hide_of_outside before (.blur sigma) fun hboth =>
      (apart_iff image first later).mp h x y hin ⟨(inside_of_clip hclip hboth).1, hregion⟩
  rw [hpatch]

/-- Where it depends on sizes alone whether a blur returns, no region makes a difference. -/
theorem unaffected_of_sizes
    (h : ∀ (image other : Raster Rgba), other.SameSize image →
      ImageLibrary.canBlur sigma other = ImageLibrary.canBlur sigma image)
    (first later : Region) : Unaffected sigma image first later := by
  intro before _ area _
  refine forall₂_congr fun laterArea _ => ?_
  rw [h (patch before laterArea) (patch (blur before area sigma) laterArea) ⟨rfl, rfl⟩]

theorem isWorkable_perm (job : Job) (hperm : regions.Perm job.regions)
    (h : ∀ sigma, job.mode = .blur sigma → job.regions.Pairwise (Unaffected sigma image) ∧
      regions.Pairwise (Unaffected sigma image)) :
    isWorkable { job with regions := regions } image = isWorkable job image := by
  rw [isWorkable, isWorkable]
  cases hmode : job.mode with
  | fill color => rfl
  | pixelate blockSize => rfl
  | blur sigma => exact canBlurRegions_perm hperm (h sigma hmode).1 (h sigma hmode).2

/-! ### Jobs -/

/-- **The order of regions.** A fill gives the same image and the same count for the regions of a
job in any order; every mode does so where their areas within the image share no pixel. In these
cases the order makes no difference either for whether the mode can work on the image at all, and it
makes none if it depends on sizes alone whether a call that blurs returns. -/
theorem applyJob_perm [LawfulBlur] (job : Job) (picture : Picture) {regions : List Region}
    (hperm : regions.Perm job.regions) :
    let image := picture.toRgba
    let reordered := { job with regions := regions }
    (∀ color, job.mode = .fill color → applyJob reordered image = applyJob job image ∧
      isWorkable reordered image = isWorkable job image) ∧
    (job.regions.Pairwise (Apart image) → applyJob reordered image = applyJob job image ∧
      isWorkable reordered image = isWorkable job image) ∧
    ((∀ (sigma : Float32) (patch patch' : Raster Rgba), patch'.SameSize patch →
        ImageLibrary.canBlur sigma patch' = ImageLibrary.canBlur sigma patch) →
      isWorkable reordered image = isWorkable job image) := by
  intro image reordered
  refine ⟨fun color hmode => ⟨?_, ?_⟩, fun hapart => ⟨?_, ?_⟩, fun hsizes => ?_⟩
  · simp only [reordered, applyJob, hmode]
    exact applyRegions_fill_perm color image 0 hperm
  · refine isWorkable_perm job hperm fun sigma hblur => ?_
    rw [hmode] at hblur
    cases hblur
  · exact applyRegions_perm_of_apart job.mode image 0 hperm hapart
  · have hapart' : regions.Pairwise (Apart image) := hperm.symm.pairwise hapart Apart.symm
    exact isWorkable_perm job hperm fun sigma _ =>
      ⟨hapart.imp Apart.unaffected, hapart'.imp Apart.unaffected⟩
  · exact isWorkable_perm job hperm fun sigma _ =>
      ⟨List.pairwise_of_forall (unaffected_of_sizes (hsizes sigma)),
        List.pairwise_of_forall (unaffected_of_sizes (hsizes sigma))⟩

end Order

/-- Four pixels side by side. -/
def fourInARow : Picture :=
  .rgba8 ⟨4, 1, #[⟨10, 0, 0, 255⟩, ⟨30, 0, 0, 255⟩, ⟨0, 50, 0, 255⟩, ⟨0, 70, 0, 255⟩], rfl⟩

/-- A job for the two halves of `fourInARow`, with a region beside the image between them. -/
def twoHalves (mode : Mode) : Job :=
  ⟨"in.png", [⟨0, 0, 2, 1⟩, ⟨9, 9, 1, 1⟩, ⟨2, 0, 4294967295, 7⟩], mode, none, ⟨0, 0, 0⟩⟩

/-- A job whose two regions share the two pixels in the middle of `fourInARow`. -/
def crossing (color : Rgba) : Job :=
  ⟨"in.png", [⟨0, 0, 3, 1⟩, ⟨1, 0, 3, 1⟩], .fill color, none, ⟨0, 0, 0⟩⟩

/-- Two halves are pixelated from the right to the left, and crossing regions are filled so. -/
theorem fourInARow_from_right :
    let image := fourInARow.toRgba
    let halves := twoHalves (.pixelate 2)
    (halves.regions.reverse.Perm halves.regions ∧ halves.regions.Pairwise (Apart image) ∧
      applyJob { halves with regions := halves.regions.reverse } image = applyJob halves image ∧
      (applyJob halves image).2 = 2) ∧
    ∀ color, (crossing color).mode = .fill color ∧
      applyJob { crossing color with regions := (crossing color).regions.reverse } image =
        applyJob (crossing color) image ∧
      isWorkable { crossing color with regions := (crossing color).regions.reverse } image =
        isWorkable (crossing color) image := by
  intro image halves
  have hapart : halves.regions.Pairwise (Apart image) := by
    have hparts : ∀ r s : Region, r.x.toNat + r.width.toNat ≤ s.x.toNat → Apart image r s := by
      intro r s h
      refine (apart_iff image r s).mpr ?_
      rintro px py - ⟨hr, hs⟩
      rw [Region.Covers] at hr hs
      omega
    have hbeside : ∀ r : Region, Apart image ⟨9, 9, 1, 1⟩ r := by
      intro r a b ha
      cases ha
    refine .cons (List.forall_mem_cons.mpr ⟨hparts _ _ (by decide), ?_⟩)
      (.cons (fun r _ => hbeside r) (List.pairwise_singleton ..))
    exact List.forall_mem_singleton.mpr (hparts _ _ (by decide))
  have hhalves := List.reverse_perm halves.regions
  refine ⟨⟨hhalves, hapart, ((applyJob_perm halves fourInARow hhalves).2.1 hapart).1,
    by decide +kernel⟩, fun color => ⟨rfl, ?_⟩⟩
  exact (applyJob_perm (crossing color) fourInARow (List.reverse_perm _)).1 color rfl

end Darkroom.Redaction
