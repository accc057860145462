import Darkroom.Proofs.Vision.Pixelation

/-!
# Pixelation on machine words

`pixelate` counts in unbounded numbers. Here the same loops run on words: coordinates have 32 bits
and step with saturating additions, the totals of a block have 64 bits, and every loop goes on while
its coordinate has not passed the last one (`wordLoop?`). Such a run has no result when a sum does
not fit, when a pixel outside of the image is read or written, or when a loop does not end. For
images of fewer than `2 ^ 56` pixels there is always a result, and it is that of `pixelate`
(`applyWords?_eq`).

Two facts carry this. A channel never adds more than 255 for a pixel (`Totals.Bounded`), so the
totals of a block fit when its number of pixels does with eight bits to spare. And the last
coordinate of an area is below the width of an image, which is a word itself, so the greatest word
is past every area and a step that saturates leaves the loop.

## Main definitions

* `wordLoop?` : the loop over the blocks along one axis.
* `FollowedBy` : a loop in unbounded numbers that such a loop follows.
* `pixelateWords?`, `applyWords?` : pixelation of an area and of a region, on words.

## Main results

* `flattenWords?_eq` : one block on words.
* `FollowedBy.wordLoop?_eq`, `pixelateWords?_eq` : the loops over blocks.
* `pixelate_averages_blocks` : a region that overlaps the image is replaced by the averages of its
  blocks, once and for all, and no sum on words overflows.
-/

namespace Darkroom.Redaction

/-! ### Checked sums -/

/-- The sum of two words, when it fits. -/
def addWord? (a b : UInt32) : Option UInt32 :=
  if a.toNat + b.toNat < UInt32.size then some (a + b) else none

/-- The difference of two words, when it is not negative. -/
def subWord? (a b : UInt32) : Option UInt32 := if b ≤ a then some (a - b) else none

/-- The sum of two long words, when it fits. -/
def addLong? (a b : UInt64) : Option UInt64 :=
  if a.toNat + b.toNat < UInt64.size then some (a + b) else none

theorem addWord?_eq_some_iff {a b c : UInt32} :
    addWord? a b = some c ↔ a.toNat + b.toNat = c.toNat := by
  have hsize : UInt32.size = 2 ^ 32 := rfl
  have hc := c.toNat_lt
  rw [addWord?]
  split_ifs with h
  · rw [Option.some.injEq, ← UInt32.toNat_inj, UInt32.toNat_add, Nat.mod_eq_of_lt (by omega)]
  · exact ⟨fun hnone => by simp at hnone, fun heq => by omega⟩

theorem subWord?_eq_some_iff {a b c : UInt32} :
    subWord? a b = some c ↔ a.toNat = b.toNat + c.toNat := by
  rw [subWord?]
  split_ifs with h
  · have hle := UInt32.le_iff_toNat_le.mp h
    rw [Option.some.injEq, ← UInt32.toNat_inj, UInt32.toNat_sub_of_le _ _ h]
    omega
  · rw [UInt32.le_iff_toNat_le] at h
    exact ⟨fun hnone => by simp at hnone, fun heq => by omega⟩

theorem addLong?_ofNat {m n : Nat} (h : m + n < UInt64.size) :
    addLong? (UInt64.ofNat m) (UInt64.ofNat n) = some (UInt64.ofNat (m + n)) := by
  rw [addLong?, UInt64.toNat_ofNat_of_lt' (by omega), UInt64.toNat_ofNat_of_lt' (by omega),
    if_pos h, UInt64.ofNat_add]

/-! ### Totals of a block -/

/-- Sums of the four channels over some pixels and their number, in long words. -/
structure LongTotals where
  r : UInt64
  g : UInt64
  b : UInt64
  a : UInt64
  count : UInt64

namespace LongTotals

/-- The sums with one more pixel, when all of them fit. -/
def add? (t : LongTotals) (p : Rgba) : Option LongTotals := do
  let r ← addLong? t.r p.r.toUInt64
  let g ← addLong? t.g p.g.toUInt64
  let b ← addLong? t.b p.b.toUInt64
  let a ← addLong? t.a p.a.toUInt64
  let count ← addLong? t.count 1
  return ⟨r, g, b, a, count⟩

/-- The mean of the pixels: every quotient is cut to a byte. -/
def mean (t : LongTotals) : Rgba :=
  ⟨(t.r / t.count).toUInt8, (t.g / t.count).toUInt8, (t.b / t.count).toUInt8,
    (t.a / t.count).toUInt8⟩

/-- Totals as long words. -/
def ofTotals (t : Totals) : LongTotals :=
  ⟨.ofNat t.r, .ofNat t.g, .ofNat t.b, .ofNat t.a, .ofNat t.count⟩

end LongTotals

/-- Totals whose channels have at most the sum of as many bytes. -/
structure Totals.Bounded (t : Totals) : Prop where
  r : t.r ≤ 255 * t.count
  g : t.g ≤ 255 * t.count
  b : t.b ≤ 255 * t.count
  a : t.a ≤ 255 * t.count

theorem Totals.Bounded.empty : Totals.Bounded {} := ⟨le_rfl, le_rfl, le_rfl, le_rfl⟩

theorem Totals.Bounded.add {t : Totals} (h : t.Bounded) (p : Rgba) : (t.add p).Bounded := by
  have hr := p.r.toNat_lt
  have hg := p.g.toNat_lt
  have hb := p.b.toNat_lt
  have ha := p.a.toNat_lt
  obtain ⟨h₁, h₂, h₃, h₄⟩ := h
  constructor <;> dsimp only [Totals.add] <;> omega

theorem LongTotals.add?_ofTotals {t : Totals} (h : t.Bounded) (hcount : t.count < 2 ^ 56)
    (p : Rgba) : (ofTotals t).add? p = some (ofTotals (t.add p)) := by
  have hsize : UInt64.size = 2 ^ 64 := rfl
  have hr := p.r.toNat_lt
  have hg := p.g.toNat_lt
  have hb := p.b.toNat_lt
  have ha := p.a.toNat_lt
  obtain ⟨h₁, h₂, h₃, h₄⟩ := h
  have hlong : ∀ byte : UInt8, byte.toUInt64 = UInt64.ofNat byte.toNat :=
    fun byte => (UInt64.ofNat_uInt8ToNat byte).symm
  have hone : (1 : UInt64) = UInt64.ofNat 1 := rfl
  simp only [add?, ofTotals, hlong, hone]
  rw [addLong?_ofNat (by omega), addLong?_ofNat (by omega), addLong?_ofNat (by omega),
    addLong?_ofNat (by omega), addLong?_ofNat (by omega)]
  rfl

theorem LongTotals.mean_ofTotals {t : Totals} (h : t.Bounded) (hcount : t.count < 2 ^ 56) :
    (ofTotals t).mean = t.mean := by
  have hsize : UInt64.size = 2 ^ 64 := rfl
  obtain ⟨h₁, h₂, h₃, h₄⟩ := h
  have hquotient : ∀ n, n ≤ 255 * t.count →
      (UInt64.ofNat n / UInt64.ofNat t.count).toUInt8 = UInt8.ofNat (n / t.count) := by
    intro n hn
    rw [← UInt8.toNat_inj, UInt64.toNat_toUInt8, UInt64.toNat_div,
      UInt64.toNat_ofNat_of_lt' (by omega), UInt64.toNat_ofNat_of_lt' (by omega),
      UInt8.toNat_ofNat']
  rw [mean, Totals.mean, ofTotals, hquotient _ h₁, hquotient _ h₂, hquotient _ h₃, hquotient _ h₄]

/-! ### Loops over the pixels of a block -/

/-- The numbers of a range with both ends. -/
def through (first last : UInt32) : List Nat :=
  List.range' first.toNat (last.toNat + 1 - first.toNat)

/-- The totals over a block, `none` when a sum does not fit or a pixel is missing. -/
def longTotals? (image : Raster Rgba) (x y endX endY : UInt32) : Option LongTotals :=
  (through y endY).foldlM
    (fun t py => (through x endX).foldlM (fun t px => do t.add? (← image.get? px py)) t)
    ⟨0, 0, 0, 0, 0⟩

/-- An image with a pixel replaced, `none` when there is no such pixel. -/
def put? (image : Raster Rgba) (x y : Nat) (pixel : Rgba) : Option (Raster Rgba) :=
  if image.inside x y then some (image.set x y pixel) else none

/-- A block painted with a colour, `none` when a pixel is missing. -/
def paint? (image : Raster Rgba) (x y endX endY : UInt32) (pixel : Rgba) : Option (Raster Rgba) :=
  (through y endY).foldlM
    (fun image py => (through x endX).foldlM (fun image px => put? image px py pixel) image) image

/-- Replaces a block by its mean; a block without pixels is left. -/
def flattenWords? (image : Raster Rgba) (x y endX endY : UInt32) : Option (Raster Rgba) := do
  let t ← longTotals? image x y endX endY
  if t.count > 0 then paint? image x y endX endY t.mean else return image

/-! ### Totals of a block, and its mean -/

section Block

variable {image : Raster Rgba} {x y columns rows : Nat}

theorem count_addRow (t : Totals)
    (hin : ∀ px, x ≤ px → px < x + columns → image.inside px y = true) :
    (addRow image x y t columns).count = t.count + columns := by
  rw [tallies_count.addRow t hin, ← Finset.card_eq_sum_ones, Nat.card_Ico, Nat.add_sub_cancel_left]

theorem Totals.Bounded.addRow {t : Totals} (h : t.Bounded) (image : Raster Rgba) (x y : Nat)
    (columns : Nat) : (addRow image x y t columns).Bounded := by
  induction columns with
  | zero => exact h
  | succ columns ih =>
    rw [Redaction.addRow]
    cases image.get? (x + columns) y with
    | none => exact ih
    | some p => exact ih.add p

theorem bounded_totals (image : Raster Rgba) (x y columns rows : Nat) :
    (totals image x y columns rows).Bounded := by
  induction rows with
  | zero => exact .empty
  | succ rows ih => exact ih.addRow ..

/-- The loop over a row adds its pixels, as long as their number leaves eight bits to spare. -/
theorem foldlM_add? {t : Totals} (h : t.Bounded) (hcount : t.count + columns < 2 ^ 56)
    (hin : ∀ px, x ≤ px → px < x + columns → image.inside px y = true) :
    (List.range' x columns).foldlM (fun t px => do t.add? (← image.get? px y))
      (LongTotals.ofTotals t) = some (LongTotals.ofTotals (addRow image x y t columns)) := by
  induction columns with
  | zero => rfl
  | succ columns ih =>
    have hbefore : ∀ px, x ≤ px → px < x + columns → image.inside px y = true :=
      fun px hx hlt => hin px hx (by omega)
    have hlast := image.get?_eq_getD (hin (x + columns) (by omega) (by omega)) default
    have hcount' : (addRow image x y t columns).count < 2 ^ 56 := by
      rw [count_addRow t hbefore]
      omega
    rw [List.range'_1_concat, List.foldlM_append, ih (by omega) hbefore, addRow]
    simp only [Option.bind_eq_bind, Option.bind_some, List.foldlM_cons, List.foldlM_nil, hlast,
      LongTotals.add?_ofTotals (h.addRow image x y columns) hcount', Option.pure_def]

/-- The loops over a rectangle of an image add up its pixels, likewise. -/
theorem foldlM_foldlM_add? (hcount : columns * rows < 2 ^ 56)
    (hin : ∀ px py, (px, py) ∈ rectangle x y columns rows → image.inside px py = true) :
    (List.range' y rows).foldlM
        (fun t py => (List.range' x columns).foldlM (fun t px => do t.add? (← image.get? px py)) t)
        (LongTotals.ofTotals {}) =
      some (LongTotals.ofTotals (totals image x y columns rows)) := by
  induction rows with
  | zero => rfl
  | succ rows ih =>
    have hbefore : ∀ px py, (px, py) ∈ rectangle x y columns rows → image.inside px py = true :=
      fun px py hmem => hin px py (by rw [mem_rectangle] at *; omega)
    have hrow : ∀ px, x ≤ px → px < x + columns → image.inside px (y + rows) = true :=
      fun px hx hlt => hin px _ (mem_rectangle.mpr ⟨⟨hx, hlt⟩, by omega, by omega⟩)
    rw [Nat.mul_succ] at hcount
    have hcount' : (totals image x y columns rows).count + columns < 2 ^ 56 := by
      rwa [count_totals hbefore]
    rw [List.range'_1_concat, List.foldlM_append, ih (by omega) hbefore, totals]
    simp only [Option.bind_eq_bind, Option.bind_some, List.foldlM_cons, List.foldlM_nil]
    have hlast := foldlM_add? (bounded_totals image x y columns rows) hcount' hrow
    simp only [Option.bind_eq_bind] at hlast
    rw [hlast, Option.bind_some, Option.pure_def]

/-! ### Painted blocks -/

/-- A row may be painted from its first pixel on. -/
theorem setRow_succ (image : Raster Rgba) (x y : Nat) (pixel : Rgba) (columns : Nat) :
    image.setRow x y pixel (columns + 1) =
      (image.setRow x y pixel columns).set (x + columns) y pixel := by
  refine Raster.ext_get? (by simp) (by simp) fun px py hin => ?_
  rw [Raster.inside_setRow] at hin
  rw [Raster.get?_set, Raster.get?_setRow, Raster.get?_setRow, Raster.inside_setRow]
  simp only [hin, and_true]
  split_ifs <;> first | rfl | omega

/-- A rectangle may be painted from its first row on. -/
theorem setRect_succ (image : Raster Rgba) (x y columns : Nat) (pixel : Rgba) (rows : Nat) :
    image.setRect x y columns pixel (rows + 1) =
      (image.setRect x y columns pixel rows).setRow x (y + rows) pixel columns := by
  refine Raster.ext_get? (by simp) (by simp) fun px py hin => ?_
  have hin' : image.inside px py = true := by
    rwa [Raster.inside, Raster.width_setRect, Raster.height_setRect] at hin
  have hin'' : (image.setRect x y columns pixel rows).inside px py = true := by
    rwa [Raster.inside, Raster.width_setRect, Raster.height_setRect]
  rw [Raster.get?_setRow, Raster.get?_setRect, Raster.get?_setRect]
  simp only [hin', hin'', and_true]
  split_ifs <;> first | rfl | omega

theorem foldlM_put? (pixel : Rgba)
    (hin : ∀ px, x ≤ px → px < x + columns → image.inside px y = true) :
    (List.range' x columns).foldlM (fun image px => put? image px y pixel) image =
      some (image.setRow x y pixel columns) := by
  induction columns with
  | zero => rfl
  | succ columns ih =>
    have hlast := hin (x + columns) (by omega) (by omega)
    rw [List.range'_1_concat, List.foldlM_append, ih fun px hx hlt => hin px hx (by omega),
      setRow_succ]
    simp only [Option.bind_eq_bind, Option.bind_some, List.foldlM_cons, List.foldlM_nil, put?,
      Raster.inside_setRow, hlast, if_true, Option.pure_def]

theorem foldlM_foldlM_put? (pixel : Rgba)
    (hin : ∀ px py, (px, py) ∈ rectangle x y columns rows → image.inside px py = true) :
    (List.range' y rows).foldlM
        (fun image py =>
          (List.range' x columns).foldlM (fun image px => put? image px py pixel) image) image =
      some (image.setRect x y columns pixel rows) := by
  induction rows with
  | zero => rfl
  | succ rows ih =>
    have hrow : ∀ px, x ≤ px → px < x + columns →
        (image.setRect x y columns pixel rows).inside px (y + rows) = true := by
      intro px hx hlt
      rw [Raster.inside, Raster.width_setRect, Raster.height_setRect]
      exact hin px _ (mem_rectangle.mpr ⟨⟨hx, hlt⟩, by omega, by omega⟩)
    rw [List.range'_1_concat, List.foldlM_append,
      ih fun px py hmem => hin px py (by rw [mem_rectangle] at *; omega), setRect_succ]
    simp only [Option.bind_eq_bind, Option.bind_some, List.foldlM_cons, List.foldlM_nil,
      foldlM_put? pixel hrow, Option.pure_def]

theorem through_eq {first last : UInt32} {n : Nat} (h : first.toNat + n = last.toNat + 1) :
    through first last = List.range' first.toNat n := by
  rw [through, ← h, Nat.add_sub_cancel_left]

/-- A block of an image with fewer than `2 ^ 56` pixels is flattened on words as in unbounded
numbers. -/
theorem flattenWords?_eq {x y endX endY : UInt32} (hcolumns : 0 < columns) (hrows : 0 < rows)
    (hx : x.toNat + columns = endX.toNat + 1) (hy : y.toNat + rows = endY.toNat + 1)
    (hwidth : endX.toNat < image.width.toNat) (hheight : endY.toNat < image.height.toNat)
    (hsize : image.width.toNat * image.height.toNat < 2 ^ 56) :
    flattenWords? image x y endX endY = some (flatten image x.toNat y.toNat columns rows) := by
  have hin : ∀ px py, (px, py) ∈ rectangle x.toNat y.toNat columns rows →
      image.inside px py = true := by
    intro px py hmem
    rw [mem_rectangle] at hmem
    exact Raster.inside_iff.mpr ⟨by omega, by omega⟩
  have hcells : (totals image x.toNat y.toNat columns rows).count = columns * rows :=
    count_totals hin
  have hfew : columns * rows < 2 ^ 56 :=
    Nat.lt_of_le_of_lt (Nat.mul_le_mul (by omega) (by omega)) hsize
  have htotals : longTotals? image x y endX endY =
      some (LongTotals.ofTotals (totals image x.toNat y.toNat columns rows)) := by
    rw [longTotals?, through_eq hx, through_eq hy]
    exact foldlM_foldlM_add? hfew hin
  have hpos : (LongTotals.ofTotals (totals image x.toNat y.toNat columns rows)).count > 0 := by
    rw [gt_iff_lt, UInt64.lt_iff_toNat_lt, LongTotals.ofTotals, hcells,
      UInt64.toNat_ofNat_of_lt' (Nat.lt_trans hfew (by decide))]
    exact Nat.mul_pos hcolumns hrows
  have hmean := LongTotals.mean_ofTotals (bounded_totals image x.toNat y.toNat columns rows)
    (by rwa [hcells])
  rw [flattenWords?, htotals]
  simp only [Option.bind_eq_bind, Option.bind_some, hpos, if_true, hmean]
  rw [paint?, through_eq hx, through_eq hy]
  exact foldlM_foldlM_put? _ hin

end Block

/-! ### Loops over blocks -/

/-- The loop over the blocks along one axis, from `p` to `last`: `body` is given the first and the
last coordinate of each block. Where a step does not get past `p`, the loop never ends. -/
def wordLoop? (body : Raster Rgba → UInt32 → UInt32 → Option (Raster Rgba)) (block last : UInt32)
    (image : Raster Rgba) (p : UInt32) : Option (Raster Rgba) :=
  if _ : p ≤ last then do
    let reach ← subWord? block 1
    let image ← body image p (min (addSaturating p reach) last)
    if _ : p < addSaturating p block then
      wordLoop? body block last image (addSaturating p block)
    else none
  else some image
termination_by last.toNat + 1 - p.toNat
decreasing_by
  simp only [UInt32.le_iff_toNat_le, UInt32.lt_iff_toNat_lt] at *
  omega

/-- One round of the loop: the block at `p`, cut off at the last coordinate, and then the rest. The
next coordinate is that of the next block, or both are past the last one. -/
theorem wordLoop?_of_le {body : Raster Rgba → UInt32 → UInt32 → Option (Raster Rgba)}
    {block last p : UInt32} (hblock : 0 < block.toNat) (hlast : last.toNat < UInt32.size - 1)
    (hp : p.toNat ≤ last.toNat) (image : Raster Rgba) :
    ∃ stop next : UInt32,
      p.toNat + min block.toNat (last.toNat + 1 - p.toNat) = stop.toNat + 1 ∧
      (next.toNat = p.toNat + block.toNat ∨
        last.toNat < next.toNat ∧ last.toNat < p.toNat + block.toNat) ∧
      wordLoop? body block last image p =
        (body image p stop).bind fun image => wordLoop? body block last image next := by
  have hone : (1 : UInt32) ≤ block := UInt32.le_iff_toNat_le.mpr hblock
  have hreach := UInt32.toNat_sub_of_le _ _ hone
  rw [UInt32.toNat_one] at hreach
  have hsub : subWord? block 1 = some (block - 1) :=
    subWord?_eq_some_iff.mpr (by rw [hreach, UInt32.toNat_one]; omega)
  have hstop : (min (addSaturating p (block - 1)) last).toNat =
      min (p.toNat + (block.toNat - 1)) last.toNat := by
    rw [UInt32.toNat_min, toNat_addSaturating, hreach]
    omega
  have hnext := toNat_addSaturating p block
  have hmoves : p < addSaturating p block := UInt32.lt_iff_toNat_lt.mpr (by omega)
  refine ⟨min (addSaturating p (block - 1)) last, addSaturating p block, by omega, by omega, ?_⟩
  rw [wordLoop?, dif_pos (UInt32.le_iff_toNat_le.mpr hp)]
  simp only [hsub, Option.bind_eq_bind, Option.bind_some, dif_pos hmoves]

/-- A loop over blocks in unbounded numbers that a loop on words follows: `flat` is what its body
does to a block of some length, and `result` what is left when some length is still to do. The body
runs on words for images with a property that it keeps. -/
structure FollowedBy (flat result : Raster Rgba → Nat → Nat → Raster Rgba)
    (body : Raster Rgba → UInt32 → UInt32 → Option (Raster Rgba)) (good : Raster Rgba → Prop)
    (block last : UInt32) : Prop where
  done : ∀ image p, result image p 0 = image
  step : ∀ image p left, 0 < left → result image p left =
    result (flat image p (min block.toNat left)) (p + block.toNat) (left - min block.toNat left)
  keeps : ∀ image p n, good image → good (flat image p n)
  runs : ∀ image (p stop : UInt32) n, good image → 0 < n → p.toNat + n = stop.toNat + 1 →
    stop.toNat ≤ last.toNat → body image p stop = some (flat image p.toNat n)

/-- What a loop on words comes to, when its last coordinate is below the greatest word. -/
theorem FollowedBy.wordLoop?_eq {flat result : Raster Rgba → Nat → Nat → Raster Rgba}
    {body : Raster Rgba → UInt32 → UInt32 → Option (Raster Rgba)} {good : Raster Rgba → Prop}
    {block last : UInt32} (h : FollowedBy flat result body good block last)
    (hblock : 0 < block.toNat) (hlast : last.toNat < UInt32.size - 1) {image : Raster Rgba}
    (hgood : good image) (p : UInt32) :
    wordLoop? body block last image p =
      some (result image p.toNat (last.toNat + 1 - p.toNat)) := by
  generalize hleft : last.toNat + 1 - p.toNat = left
  induction left using Nat.strong_induction_on generalizing image p with
  | h left ih =>
    by_cases hp : p.toNat ≤ last.toNat
    · obtain ⟨stop, next, hstop, hnext, hround⟩ :=
        @wordLoop?_of_le body _ _ _ hblock hlast hp image
      rw [hleft] at hstop
      rw [hround, h.runs image p stop _ hgood (by omega) hstop (by omega), Option.bind_some,
        ih (last.toNat + 1 - next.toNat) (by omega) (h.keeps _ _ _ hgood) next rfl,
        h.step image p.toNat left (by omega)]
      rcases hnext with hnext | ⟨hpast, hpast'⟩
      · have hrest : last.toNat + 1 - (p.toNat + block.toNat) = left - min block.toNat left := by
          omega
        rw [hnext, hrest]
      · have hrest : last.toNat + 1 - next.toNat = 0 := by omega
        have hrest' : left - min block.toNat left = 0 := by omega
        rw [hrest, hrest', h.done, h.done]
    · have hend : ¬ p ≤ last := fun hle => hp (UInt32.le_iff_toNat_le.mp hle)
      obtain rfl : left = 0 := by omega
      rw [wordLoop?, dif_neg hend, h.done]

/-! ### Strips and areas -/

/-- The last coordinate of a side. -/
def lastWord? (start length : UInt32) : Option UInt32 := do
  let stop ← addWord? start length
  subWord? stop 1

/-- The blocks of a strip on words, from column `x` to `lastX`. -/
def stripWords? (block lastX : UInt32) (image : Raster Rgba) (x y endY : UInt32) :
    Option (Raster Rgba) :=
  wordLoop? (fun image x endX => flattenWords? image x y endX endY) block lastX image x

/-- Pixelation of an area on words, the block size being positive. -/
def pixelateWords? (image : Raster Rgba) (area : Region) (block : UInt32) :
    Option (Raster Rgba) := do
  let lastX ← lastWord? area.x area.width
  let lastY ← lastWord? area.y area.height
  wordLoop? (fun image y endY => stripWords? block lastX image area.x y endY) block lastY image
    area.y

theorem exists_lastWord? {start length bound : UInt32} (hlength : 0 < length.toNat)
    (hbound : start.toNat + length.toNat ≤ bound.toNat) :
    ∃ last, lastWord? start length = some last ∧ start.toNat + length.toNat = last.toNat + 1 := by
  have hlt := bound.toNat_lt
  have hstop : (start + length).toNat = start.toNat + length.toNat := by
    rw [UInt32.toNat_add, Nat.mod_eq_of_lt (by omega)]
  have hone : (1 : UInt32) ≤ start + length := by
    rw [UInt32.le_iff_toNat_le, hstop]
    exact Nat.le_trans hlength (Nat.le_add_left ..)
  have hlast := UInt32.toNat_sub_of_le _ _ hone
  rw [UInt32.toNat_one] at hlast
  have hsub : subWord? (start + length) 1 = some (start + length - 1) :=
    subWord?_eq_some_iff.mpr (by rw [hlast, UInt32.toNat_one]; omega)
  refine ⟨start + length - 1, ?_, by omega⟩
  rw [lastWord?, addWord?_eq_some_iff.mpr hstop.symm]
  exact hsub

section Area

variable {image : Raster Rgba} {block : UInt32}

/-- The loop over the blocks of a strip, in images of the size of a given one. -/
theorem followedBy_strip (hblock : 0 < block.toNat) {y endY lastX : UInt32} {rows : Nat}
    (hrows : 0 < rows) (hy : y.toNat + rows = endY.toNat + 1)
    (hwidth : lastX.toNat < image.width.toNat) (hheight : endY.toNat < image.height.toNat)
    (hsize : image.width.toNat * image.height.toNat < 2 ^ 56) :
    FollowedBy (fun other x columns => flatten other x y.toNat columns rows)
      (fun other x left => flattenStrip other block.toNat x y.toNat rows left)
      (fun other x endX => flattenWords? other x y endX endY)
      (fun other => other.width = image.width ∧ other.height = image.height) block lastX where
  done other x := by rw [flattenStrip, if_pos (.inl rfl)]
  step other x left hleft := by rw [flattenStrip, if_neg (by omega)]
  keeps other x n hgood := by rwa [width_flatten, height_flatten]
  runs other x stop n hgood hn hstop hle := by
    rw [← hgood.1] at hwidth
    rw [← hgood.2] at hheight
    rw [← hgood.1, ← hgood.2] at hsize
    exact flattenWords?_eq hn hrows hstop hy (Nat.lt_of_le_of_lt hle hwidth) hheight hsize

theorem stripWords?_eq (hblock : 0 < block.toNat) {x y endY lastX : UInt32} {columns rows : Nat}
    (hrows : 0 < rows) (hx : x.toNat + columns = lastX.toNat + 1)
    (hy : y.toNat + rows = endY.toNat + 1) (hwidth : lastX.toNat < image.width.toNat)
    (hheight : endY.toNat < image.height.toNat)
    (hsize : image.width.toNat * image.height.toNat < 2 ^ 56) :
    stripWords? block lastX image x y endY =
      some (flattenStrip image block.toNat x.toNat y.toNat rows columns) := by
  have hword := image.width.toNat_lt
  have hlast : lastX.toNat < UInt32.size - 1 := by
    rw [UInt32.size]
    omega
  have hcolumns : lastX.toNat + 1 - x.toNat = columns := by omega
  have hloop := followedBy_strip hblock hrows hy hwidth hheight hsize
  rw [← hcolumns]
  exact hloop.wordLoop?_eq hblock hlast ⟨rfl, rfl⟩ x

/-- The loop over the strips of an area, likewise. -/
theorem followedBy_area (hblock : 0 < block.toNat) {x lastX lastY : UInt32} {columns : Nat}
    (hx : x.toNat + columns = lastX.toNat + 1) (hwidth : lastX.toNat < image.width.toNat)
    (hheight : lastY.toNat < image.height.toNat)
    (hsize : image.width.toNat * image.height.toNat < 2 ^ 56) :
    FollowedBy (fun other y rows => flattenStrip other block.toNat x.toNat y rows columns)
      (fun other y left => flattenArea other block.toNat x.toNat y columns left)
      (fun other y endY => stripWords? block lastX other x y endY)
      (fun other => other.width = image.width ∧ other.height = image.height) block lastY where
  done other y := by rw [flattenArea, if_pos (.inl rfl)]
  step other y left hleft := by rw [flattenArea, if_neg (by omega)]
  keeps other y n hgood := by
    obtain ⟨hw, hh⟩ := size_flattenStrip other block.toNat x.toNat y n columns
    exact ⟨hw.trans hgood.1, hh.trans hgood.2⟩
  runs other y stop n hgood hn hstop hle := by
    rw [← hgood.1] at hwidth
    rw [← hgood.2] at hheight
    rw [← hgood.1, ← hgood.2] at hsize
    exact stripWords?_eq hblock hn hx hstop hwidth (Nat.lt_of_le_of_lt hle hheight) hsize

/-- Pixelation of an area of an image with fewer than `2 ^ 56` pixels gives on words what it gives
in unbounded numbers. -/
theorem pixelateWords?_eq {area : Region}
    (hwidth : 0 < area.width.toNat ∧ area.x.toNat + area.width.toNat ≤ image.width.toNat)
    (hheight : 0 < area.height.toNat ∧ area.y.toNat + area.height.toNat ≤ image.height.toNat)
    (hsize : image.width.toNat * image.height.toNat < 2 ^ 56) (blockSize : UInt32) :
    pixelateWords? image area (max blockSize 1) = some (pixelate image area blockSize) := by
  have hside : (max blockSize 1).toNat = max blockSize.toNat 1 := UInt32.toNat_max ..
  have hblock : 0 < (max blockSize 1).toNat := by
    rw [hside]
    exact blockSide_pos blockSize
  obtain ⟨lastX, hlastX, hx⟩ := exists_lastWord? hwidth.1 hwidth.2
  obtain ⟨lastY, hlastY, hy⟩ := exists_lastWord? hheight.1 hheight.2
  have hword := image.height.toNat_lt
  have hlast : lastY.toNat < UInt32.size - 1 := by
    rw [UInt32.size]
    omega
  have hrows : lastY.toNat + 1 - area.y.toNat = area.height.toNat := by omega
  have hloop : FollowedBy _ _ _ _ _ lastY :=
    followedBy_area hblock hx (by omega) (by omega) hsize
  rw [pixelateWords?, hlastX, hlastY, pixelate, ← hrows, ← hside]
  exact hloop.wordLoop?_eq hblock hlast ⟨rfl, rfl⟩ area.y

end Area

/-! ### Regions -/

/-- A region clipped on words, with every difference checked. -/
def clipWords? (r : Region) (width height : UInt32) : Option (Option Region) :=
  if r.x ≥ width ∨ r.y ≥ height then some none
  else
    let right := min (addSaturating r.x r.width) width
    let bottom := min (addSaturating r.y r.height) height
    if right ≤ r.x ∨ bottom ≤ r.y then some none
    else do
      let columns ← subWord? right r.x
      let rows ← subWord? bottom r.y
      return some ⟨r.x, r.y, columns, rows⟩

theorem clipWords?_eq (r : Region) (width height : UInt32) :
    clipWords? r width height = some (r.clip width height) := by
  rw [clipWords?, Region.clip]
  dsimp only
  split_ifs with hout hempty
  · rfl
  · rfl
  · obtain ⟨hx, hy⟩ := not_or.mp hempty
    rw [subWord?, subWord?, if_pos (UInt32.le_of_lt (UInt32.not_le.mp hx)),
      if_pos (UInt32.le_of_lt (UInt32.not_le.mp hy))]
    rfl

/-- Pixelation of a region on words: `none` when the run has no result, and `some none` when the
region does not overlap the image. -/
def applyWords? (image : Raster Rgba) (region : Region) (blockSize : UInt32) :
    Option (Option (Raster Rgba)) := do
  match ← clipWords? region image.width image.height with
  | none => return none
  | some area => return some (← pixelateWords? image area (max blockSize 1))

/-- Pixelation of a region of an image with fewer than `2 ^ 56` pixels has a result on words, the
same as in unbounded numbers. -/
theorem applyWords?_eq [ImageLibrary] {image : Raster Rgba}
    (hsize : image.width.toNat * image.height.toNat < 2 ^ 56) (region : Region)
    (blockSize : UInt32) :
    applyWords? image region blockSize =
      some (applyRegion? image region (.pixelate blockSize)) := by
  rw [applyWords?, clipWords?_eq, applyRegion?]
  cases hclip : region.clip image.width image.height with
  | none => rfl
  | some area =>
    have hne : ¬ region.clip image.width image.height = none := by simp [hclip]
    rw [Region.clip_eq_none_iff] at hne
    obtain ⟨hx, hy, hw, hh⟩ := Region.of_clip_eq_some hclip
    have hwidth : 0 < area.width.toNat ∧
        area.x.toNat + area.width.toNat ≤ image.width.toNat := ⟨by omega, by rw [hx]; omega⟩
    have hheight : 0 < area.height.toNat ∧
        area.y.toNat + area.height.toNat ≤ image.height.toNat := ⟨by omega, by rw [hy]; omega⟩
    have hrun := pixelateWords?_eq hwidth hheight hsize blockSize
    simp only [Option.bind_eq_bind, Option.bind_some, hrun, Option.map_some, hide, Option.pure_def]

/-! ### Pixelated regions -/

/-- **A pixelated region has the averages of its blocks.** Where a region overlaps an image, the
result has the size of the image and its pixels outside of the clipped area. A pixel of the area
has, in each channel, the average of the image over the positions of the area with the same
quotients by the block size, rounded down; a block size of zero acts as one. So the same region
pixelated again changes nothing. For an image with fewer than `2 ^ 56` pixels the loops on machine
words come to the same result, that is, they end and no sum overflows. -/
theorem pixelate_averages_blocks [ImageLibrary] (image : Raster Rgba) (region : Region)
    (blockSize : UInt32) (hoverlaps : Overlaps image region) :
    ∃ area hidden, region.clip image.width image.height = some area ∧
      applyRegion? image region (.pixelate blockSize) = some hidden ∧
      (hidden.width = image.width ∧ hidden.height = image.height) ∧
      (∀ x y, ¬ area.Covers x y → hidden.get? x y = image.get? x y) ∧
      (∀ x y, area.Covers x y → ∃ pixel, hidden.get? x y = some pixel ∧
        ∀ channel ∈ channels, (channel pixel).toNat =
          average image channel (blockAt area (blockSide blockSize) x y)) ∧
      applyRegion? hidden region (.pixelate blockSize) = some hidden ∧
      (image.width.toNat * image.height.toNat < 2 ^ 56 →
        applyWords? image region blockSize = some (some hidden)) := by
  obtain ⟨area, hclip⟩ := Option.isSome_iff_exists.mp
    ((isSome_clip_iff_overlaps image region).mpr hoverlaps)
  have happly : applyRegion? image region (.pixelate blockSize) =
      some (pixelate image area blockSize) := by
    rw [applyRegion?, hclip]
    rfl
  have hinside : ∀ x y, area.Covers x y → image.inside x y = true := fun x y h =>
    Raster.inside_iff.mpr ((Region.covers_of_clip hclip x y).mp h).2
  have hsides := size_pixelate image area blockSize
  refine ⟨area, pixelate image area blockSize, hclip, happly, hsides,
    fun x y h => get?_pixelate_of_outside image blockSize h,
    fun x y h => exists_get?_pixelate hinside blockSize h, ?_, fun hsize => ?_⟩
  · rw [applyRegion?, hsides.1, hsides.2, hclip, Option.map_some, hide, pixelate_pixelate hinside]
  · rw [applyWords?_eq hsize, happly]

/-- Blocks of two over three pixels: the last block is cut off by the image, within a region whose
far edge does not fit in a word. -/
theorem pixelate_averages_blocks_cut_off :
    let image : Raster Rgba :=
      ⟨3, 1, #[⟨10, 0, 7, 255⟩, ⟨21, 0, 9, 255⟩, ⟨40, 50, 60, 255⟩], rfl⟩
    let region : Region := ⟨0, 0, 4294967295, 4294967295⟩
    Overlaps image region ∧ image.width.toNat * image.height.toNat < 2 ^ 56 ∧
      ∃ hidden, applyRegion? image region (.pixelate 2) = some hidden ∧
        hidden.get? 0 0 = some ⟨15, 0, 8, 255⟩ ∧ hidden.get? 1 0 = some ⟨15, 0, 8, 255⟩ ∧
        hidden.get? 2 0 = some ⟨40, 50, 60, 255⟩ ∧
        applyRegion? hidden region (.pixelate 2) = some hidden ∧
        applyWords? image region 2 = some (some hidden) := by
  intro image region
  have hoverlaps : Overlaps image region := by decide
  have hsize : image.width.toNat * image.height.toNat < 2 ^ 56 := by decide
  obtain ⟨area, hidden, hclip, happly, -, -, haverage, hagain, hwords⟩ :=
    pixelate_averages_blocks image region 2 hoverlaps
  have harea : some area = some ⟨0, 0, 3, 1⟩ := hclip.symm.trans (by decide)
  obtain rfl := Option.some.inj harea
  have hpixel : ∀ x (mean : Rgba), Region.Covers ⟨0, 0, 3, 1⟩ x 0 →
      (∀ channel ∈ channels,
        average image channel (blockAt ⟨0, 0, 3, 1⟩ (blockSide 2) x 0) = (channel mean).toNat) →
      hidden.get? x 0 = some mean := by
    intro x mean hcovers hmean
    obtain ⟨pixel, hpixel, hchannels⟩ := haverage x 0 hcovers
    rw [hpixel, eq_of_channels fun channel hchannel =>
      UInt8.toNat.inj ((hchannels channel hchannel).trans (hmean channel hchannel))]
  refine ⟨hoverlaps, hsize, hidden, happly, hpixel 0 _ ?_ ?_, hpixel 1 _ ?_ ?_, hpixel 2 _ ?_ ?_,
    hagain, hwords hsize⟩ <;> decide

end Darkroom.Redaction
