import Darkroom.Proofs.Vision.Redaction
import Mathlib.Algebra.BigOperators.Intervals
import Mathlib.Algebra.Order.BigOperators.Group.Finset

/-!
# Averages of blocks

Pixelation cuts an area into blocks, from its corner on, and replaces each block by its mean. As
each block is flattened in the image that the blocks before it have left, the point is that no two
blocks share a pixel: what is summed up is still the original. The block of a position is said here
without the loops, as the positions of the area with the same quotients by the block size
(`blockAt`); it is the rectangle that the loops come to (`blockAt_eq_rectangle`).

## Main definitions

* `blockAt` : the positions that are averaged for a position.
* `average` : the mean of one channel over some positions, rounded down.

## Main results

* `get?_flattenStrip_of_inside`, `get?_flattenArea_of_inside` : what the loops leave in an area.
* `exists_get?_pixelate` : every pixel of the area is the average of its block.
* `pixelate_pixelate` : a second pass changes nothing.
-/

namespace Darkroom.Redaction

open Finset

/-! ### Sums over rectangles -/

/-- The positions of a rectangle. -/
def rectangle (x y columns rows : Nat) : Finset (Nat × Nat) :=
  Ico x (x + columns) ×ˢ Ico y (y + rows)

theorem mem_rectangle {x y columns rows px py : Nat} :
    (px, py) ∈ rectangle x y columns rows ↔
      (x ≤ px ∧ px < x + columns) ∧ y ≤ py ∧ py < y + rows := by
  rw [rectangle, mem_product, mem_Ico, mem_Ico]

theorem card_rectangle (x y columns rows : Nat) :
    (rectangle x y columns rows).card = columns * rows := by
  rw [rectangle, card_product, Nat.card_Ico, Nat.card_Ico, Nat.add_sub_cancel_left,
    Nat.add_sub_cancel_left]

/-- The sum of the values of the pixels at some positions. -/
def sumOver (image : Raster Rgba) (value : Rgba → Nat) (positions : Finset (Nat × Nat)) : Nat :=
  ∑ p ∈ positions, value (image.getD p.1 p.2 default)

/-- A number that the totals of a block keep: it begins at zero, and every pixel adds its value. -/
structure Tallies (total : Totals → Nat) (value : Rgba → Nat) : Prop where
  start : total {} = 0
  add : ∀ t p, total (t.add p) = total t + value p

theorem tallies_count : Tallies Totals.count fun _ => 1 := ⟨rfl, fun _ _ => rfl⟩

namespace Tallies

variable {total : Totals → Nat} {value : Rgba → Nat} {image : Raster Rgba} {x y columns rows : Nat}

theorem addRow (h : Tallies total value) (t : Totals)
    (hin : ∀ px, x ≤ px → px < x + columns → image.inside px y = true) :
    total (addRow image x y t columns) =
      total t + ∑ px ∈ Ico x (x + columns), value (image.getD px y default) := by
  induction columns with
  | zero => simp [Redaction.addRow]
  | succ columns ih =>
    have hlast := image.get?_eq_getD (hin (x + columns) (by omega) (by omega)) default
    have hbefore := ih fun px hx hlt => hin px hx (by omega)
    rw [Redaction.addRow, hlast]
    dsimp only
    rw [h.add, hbefore, ← Nat.add_assoc, sum_Ico_succ_top (Nat.le_add_right x columns),
      Nat.add_assoc]

/-- What the totals keep over a rectangle of an image is the sum over its positions. -/
theorem totals (h : Tallies total value)
    (hin : ∀ px py, (px, py) ∈ rectangle x y columns rows → image.inside px py = true) :
    total (totals image x y columns rows) = sumOver image value (rectangle x y columns rows) := by
  rw [sumOver, rectangle, sum_product_right]
  induction rows with
  | zero => simpa [Redaction.totals] using h.start
  | succ rows ih =>
    have hrow : ∀ px, x ≤ px → px < x + columns → image.inside px (y + rows) = true :=
      fun px hx hlt => hin px _ (mem_rectangle.mpr ⟨⟨hx, hlt⟩, by omega, by omega⟩)
    have hbefore := ih fun px py hmem => hin px py (by rw [mem_rectangle] at *; omega)
    rw [Redaction.totals, h.addRow _ hrow, hbefore, ← Nat.add_assoc,
      sum_Ico_succ_top (Nat.le_add_right y rows)]

end Tallies

/-- The totals over a rectangle of an image count its positions. -/
theorem count_totals {image : Raster Rgba} {x y columns rows : Nat}
    (hin : ∀ px py, (px, py) ∈ rectangle x y columns rows → image.inside px py = true) :
    (totals image x y columns rows).count = columns * rows := by
  rw [tallies_count.totals hin, sumOver, ← card_eq_sum_ones, card_rectangle]

/-- The totals depend only on the pixels of the rectangle. -/
theorem addRow_congr {image other : Raster Rgba} {x y columns : Nat} (t : Totals)
    (h : ∀ px, x ≤ px → px < x + columns → other.get? px y = image.get? px y) :
    addRow other x y t columns = addRow image x y t columns := by
  induction columns with
  | zero => rfl
  | succ columns ih =>
    rw [addRow, addRow, h _ (by omega) (by omega), ih fun px hx hlt => h px hx (by omega)]

theorem totals_congr {image other : Raster Rgba} {x y columns rows : Nat}
    (h : ∀ px py, (px, py) ∈ rectangle x y columns rows → other.get? px py = image.get? px py) :
    totals other x y columns rows = totals image x y columns rows := by
  induction rows with
  | zero => rfl
  | succ rows ih =>
    have hrow : ∀ px, x ≤ px → px < x + columns →
        other.get? px (y + rows) = image.get? px (y + rows) :=
      fun px hx hlt => h px _ (mem_rectangle.mpr ⟨⟨hx, hlt⟩, by omega, by omega⟩)
    rw [totals, totals, ih fun px py hmem => h px py (by rw [mem_rectangle] at *; omega),
      addRow_congr _ hrow]

/-! ### Blocks along one axis -/

/-- Where the block of a coordinate begins, in blocks from `start` on. -/
def blockStart (block start p : Nat) : Nat := start + (p - start) / block * block

/-- How long the block of a coordinate is; the last of `length` coordinates cut it off. -/
def blockLength (block start length p : Nat) : Nat :=
  min block (length - (p - start) / block * block)

variable {block start length p : Nat}

theorem le_blockStart (block start p : Nat) : start ≤ blockStart block start p :=
  Nat.le_add_right ..

theorem blockStart_of_lt (hblock : 0 < block) (h : p < start + block) :
    blockStart block start p = start := by
  rw [blockStart, Nat.div_eq_of_lt (by omega), Nat.zero_mul, Nat.add_zero]

theorem blockLength_of_lt (hblock : 0 < block) (h : p < start + block) :
    blockLength block start length p = min block length := by
  rw [blockLength, Nat.div_eq_of_lt (by omega), Nat.zero_mul, Nat.sub_zero]

private theorem quotient_mul_of_le (hblock : 0 < block) (h : start + block ≤ p) :
    (p - start) / block * block = (p - (start + block)) / block * block + block := by
  rw [Nat.div_eq_sub_div hblock (by omega), Nat.succ_mul, Nat.sub_add_eq]

theorem blockStart_of_le (hblock : 0 < block) (h : start + block ≤ p) :
    blockStart block (start + block) p = blockStart block start p := by
  rw [blockStart, blockStart, quotient_mul_of_le hblock h]
  omega

theorem blockLength_of_le (hblock : 0 < block) (h : start + block ≤ p) :
    blockLength block (start + block) (length - block) p = blockLength block start length p := by
  rw [blockLength, blockLength, quotient_mul_of_le hblock h]
  omega

/-- The coordinates in the block of a coordinate are those with the same quotient. -/
theorem mem_block_iff (hblock : 0 < block) (q : Nat) :
    (blockStart block start p ≤ q ∧
        q < blockStart block start p + blockLength block start length p) ↔
      (start ≤ q ∧ q < start + length) ∧ (q - start) / block = (p - start) / block := by
  rw [Nat.div_eq_iff hblock, blockStart, blockLength]
  omega

/-! ### What the loops leave -/

/-- Every pixel of a strip becomes the mean of its block, as it was before. -/
theorem get?_flattenStrip_of_inside {image : Raster Rgba} {x y rows left px py : Nat}
    (hblock : 0 < block) (hx : x ≤ px ∧ px < x + left) (hy : y ≤ py ∧ py < y + rows)
    (hin : image.inside px py = true) :
    (flattenStrip image block x y rows left).get? px py =
      some (totals image (blockStart block x px) y (blockLength block x left px) rows).mean := by
  fun_induction flattenStrip image block x y rows left with
  | case1 image x left h => omega
  | case2 image x left _ columns ih =>
    have hcolumns : columns = min block left := rfl
    by_cases hfirst : px < x + block
    · rw [get?_flattenStrip_of_outside (by omega), flatten, Raster.get?_setRect,
        if_pos ⟨by omega, hy, hin⟩, blockStart_of_lt hblock hfirst, blockLength_of_lt hblock hfirst]
    · have hfull : columns = block := by omega
      rw [ih (by omega) (by rwa [inside_flatten]), hfull, blockStart_of_le hblock (by omega),
        blockLength_of_le hblock (by omega)]
      -- The blocks still to come lie to the right of the one just flattened.
      congr 2
      refine totals_congr fun qx qy hmem => ?_
      have hbeyond := le_blockStart block (x + block) px
      rw [mem_rectangle, ← blockStart_of_le hblock (Nat.le_of_not_lt hfirst)] at hmem
      rw [flatten, Raster.get?_setRect, if_neg (by omega)]

/-- Every pixel of an area becomes the mean of its block, as it was before. -/
theorem get?_flattenArea_of_inside {image : Raster Rgba} {x y columns left px py : Nat}
    (hblock : 0 < block) (hx : x ≤ px ∧ px < x + columns) (hy : y ≤ py ∧ py < y + left)
    (hin : image.inside px py = true) :
    (flattenArea image block x y columns left).get? px py =
      some (totals image (blockStart block x px) (blockStart block y py)
        (blockLength block x columns px) (blockLength block y left py)).mean := by
  fun_induction flattenArea image block x y columns left with
  | case1 image y left h => omega
  | case2 image y left _ rows ih =>
    have hrows : rows = min block left := rfl
    by_cases hfirst : py < y + block
    · rw [get?_flattenArea_of_outside (by omega),
        get?_flattenStrip_of_inside hblock hx (by omega) hin, blockStart_of_lt hblock hfirst,
        blockLength_of_lt hblock hfirst]
    · have hfull : rows = block := by omega
      rw [ih (by omega) (by rwa [inside_flattenStrip]), hfull,
        blockStart_of_le hblock (by omega), blockLength_of_le hblock (by omega)]
      congr 2
      refine totals_congr fun qx qy hmem => ?_
      have hbeyond := le_blockStart block (y + block) py
      rw [mem_rectangle, ← blockStart_of_le hblock (Nat.le_of_not_lt hfirst)] at hmem
      exact get?_flattenStrip_of_outside (by omega)

/-! ### Averages -/

/-- The four channels of a pixel. -/
def channels : List (Rgba → UInt8) := [Rgba.r, Rgba.g, Rgba.b, Rgba.a]

theorem eq_of_channels {p q : Rgba} (h : ∀ channel ∈ channels, channel p = channel q) : p = q := by
  obtain ⟨r, g, b, a⟩ := p
  simp only [channels, List.forall_mem_cons] at h
  obtain ⟨rfl, rfl, rfl, rfl, -⟩ := h
  rfl

/-- The totals keep a sum for each channel, of which the mean has the rounded quotient. -/
theorem exists_tallies {channel : Rgba → UInt8} (h : channel ∈ channels) :
    ∃ total, Tallies total (fun p => (channel p).toNat) ∧
      ∀ t, channel t.mean = UInt8.ofNat (total t / t.count) := by
  simp only [channels, List.mem_cons, List.not_mem_nil, or_false] at h
  rcases h with rfl | rfl | rfl | rfl
  · exact ⟨Totals.r, ⟨rfl, fun _ _ => rfl⟩, fun _ => rfl⟩
  · exact ⟨Totals.g, ⟨rfl, fun _ _ => rfl⟩, fun _ => rfl⟩
  · exact ⟨Totals.b, ⟨rfl, fun _ _ => rfl⟩, fun _ => rfl⟩
  · exact ⟨Totals.a, ⟨rfl, fun _ _ => rfl⟩, fun _ => rfl⟩

/-- The mean of one channel over some positions of an image, rounded down. -/
def average (image : Raster Rgba) (channel : Rgba → UInt8) (positions : Finset (Nat × Nat)) : Nat :=
  sumOver image (fun p => (channel p).toNat) positions / positions.card

/-- The values of a channel fit in a byte, and so does their mean. -/
theorem average_lt (image : Raster Rgba) (channel : Rgba → UInt8)
    {positions : Finset (Nat × Nat)} (h : positions.Nonempty) :
    average image channel positions < UInt8.size := by
  have hsum := sum_le_card_nsmul positions
    (fun p => (channel (image.getD p.1 p.2 default)).toNat) 255
    fun p _ => Nat.le_of_lt_succ (UInt8.toNat_lt _)
  rw [Nat.nsmul_eq_mul] at hsum
  have hcard := h.card_pos
  refine Nat.div_lt_of_lt_mul (Nat.lt_of_le_of_lt hsum ?_)
  exact (Nat.mul_lt_mul_left hcard).mpr (by decide)

theorem average_of_constant {image : Raster Rgba} {channel : Rgba → UInt8}
    {positions : Finset (Nat × Nat)} (h : positions.Nonempty) {mean : Nat}
    (hconstant : ∀ p ∈ positions, (channel (image.getD p.1 p.2 default)).toNat = mean) :
    average image channel positions = mean := by
  rw [average, sumOver, sum_const_nat hconstant, Nat.mul_div_cancel_left _ h.card_pos]

/-- The mean that a block is replaced by has the average of each channel. -/
theorem toNat_mean {image : Raster Rgba} {x y columns rows : Nat}
    (hin : ∀ px py, (px, py) ∈ rectangle x y columns rows → image.inside px py = true)
    (hne : (rectangle x y columns rows).Nonempty) {channel : Rgba → UInt8}
    (hchannel : channel ∈ channels) :
    (channel (totals image x y columns rows).mean).toNat =
      average image channel (rectangle x y columns rows) := by
  obtain ⟨total, htallies, hmean⟩ := exists_tallies hchannel
  have hquotient : total (totals image x y columns rows) / (totals image x y columns rows).count =
      average image channel (rectangle x y columns rows) := by
    rw [htallies.totals hin, count_totals hin, average, card_rectangle]
  rw [hmean, hquotient, UInt8.toNat_ofNat_of_lt' (average_lt image channel hne)]

/-! ### Blocks of an area -/

/-- The positions of an area in the block of a position: those with the same quotients by the block
size, counted from the corner of the area. -/
def blockAt (area : Region) (block x y : Nat) : Finset (Nat × Nat) :=
  (rectangle area.x.toNat area.y.toNat area.width.toNat area.height.toNat).filter fun p =>
    (p.1 - area.x.toNat) / block = (x - area.x.toNat) / block ∧
      (p.2 - area.y.toNat) / block = (y - area.y.toNat) / block

theorem mem_blockAt {area : Region} {block x y px py : Nat} :
    (px, py) ∈ blockAt area block x y ↔ area.Covers px py ∧
      (px - area.x.toNat) / block = (x - area.x.toNat) / block ∧
        (py - area.y.toNat) / block = (y - area.y.toNat) / block := by
  rw [blockAt, mem_filter, mem_rectangle, Region.Covers]

theorem blockAt_eq_rectangle (area : Region) {block : Nat} (hblock : 0 < block) (x y : Nat) :
    blockAt area block x y =
      rectangle (blockStart block area.x.toNat x) (blockStart block area.y.toNat y)
        (blockLength block area.x.toNat area.width.toNat x)
        (blockLength block area.y.toNat area.height.toNat y) := by
  ext ⟨px, py⟩
  rw [mem_blockAt, mem_rectangle, mem_block_iff hblock, mem_block_iff hblock, Region.Covers]
  tauto

theorem blockAt_nonempty {area : Region} {x y : Nat} (h : area.Covers x y) (block : Nat) :
    (blockAt area block x y).Nonempty :=
  ⟨(x, y), mem_blockAt.mpr ⟨h, rfl, rfl⟩⟩

/-- All positions of a block have this block. -/
theorem blockAt_eq_of_mem {area : Region} {block x y px py : Nat}
    (h : (px, py) ∈ blockAt area block x y) :
    blockAt area block px py = blockAt area block x y := by
  obtain ⟨-, hx, hy⟩ := mem_blockAt.mp h
  rw [blockAt, blockAt, hx, hy]

/-! ### Pixelated areas -/

variable {image : Raster Rgba} {area : Region}

/-- The block size that pixelation goes by; zero acts as one. -/
def blockSide (blockSize : UInt32) : Nat := max blockSize.toNat 1

theorem blockSide_pos (blockSize : UInt32) : 0 < blockSide blockSize :=
  Nat.lt_of_lt_of_le Nat.one_pos (Nat.le_max_right ..)

/-- Every pixel of an area that lies within the image becomes the average of its block. -/
theorem exists_get?_pixelate (hinside : ∀ x y, area.Covers x y → image.inside x y = true)
    (blockSize : UInt32) {x y : Nat} (h : area.Covers x y) :
    ∃ pixel, (pixelate image area blockSize).get? x y = some pixel ∧
      ∀ channel ∈ channels, (channel pixel).toNat =
        average image channel (blockAt area (blockSide blockSize) x y) := by
  have hblock := blockSide_pos blockSize
  refine ⟨_, get?_flattenArea_of_inside hblock h.1 h.2 (hinside x y h), fun channel hchannel => ?_⟩
  have hrectangle := blockAt_eq_rectangle area hblock x y
  have hin : ∀ px py, (px, py) ∈ blockAt area (blockSide blockSize) x y →
      image.inside px py = true := fun px py hmem => hinside px py (mem_blockAt.mp hmem).1
  have hne := blockAt_nonempty h (blockSide blockSize)
  rw [hrectangle] at hin hne ⊢
  exact toNat_mean hin hne hchannel

/-- A second pass over a pixelated area changes nothing, since all pixels of a block are its
average. -/
theorem pixelate_pixelate (hinside : ∀ x y, area.Covers x y → image.inside x y = true)
    (blockSize : UInt32) :
    pixelate (pixelate image area blockSize) area blockSize = pixelate image area blockSize := by
  obtain ⟨hw, hh⟩ := size_pixelate image area blockSize
  obtain ⟨hw', hh'⟩ := size_pixelate (pixelate image area blockSize) area blockSize
  have hagain : ∀ x y, area.Covers x y → (pixelate image area blockSize).inside x y = true := by
    intro x y h
    rw [Raster.inside, hw, hh]
    exact hinside x y h
  refine Raster.ext_get? hw' hh' fun x y _ => ?_
  by_cases h : area.Covers x y
  · obtain ⟨once, honce, hmean⟩ := exists_get?_pixelate hinside blockSize h
    obtain ⟨twice, htwice, hmean'⟩ := exists_get?_pixelate hagain blockSize h
    rw [honce, htwice]
    refine congrArg some (eq_of_channels fun channel hchannel => UInt8.toNat.inj ?_)
    rw [hmean channel hchannel, hmean' channel hchannel]
    refine average_of_constant (blockAt_nonempty h _) ?_
    rintro ⟨px, py⟩ hmem
    obtain ⟨pixel, hpixel, hvalue⟩ :=
      exists_get?_pixelate hinside blockSize (mem_blockAt.mp hmem).1
    rw [Raster.getD, hpixel, Option.getD_some, hvalue channel hchannel, blockAt_eq_of_mem hmem]
  · exact get?_pixelate_of_outside _ blockSize h

end Darkroom.Redaction
