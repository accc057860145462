import Darkroom.Image.Raster
import Mathlib.Tactic.Common

/-!
# Pixels of rasters

Every operation on rasters is described by the pixels it leaves. A pixel at column `x` and row
`y` is stored at `y * width + x`, and two positions of one raster share no place
(`Raster.index_inj`); the lemmas `Raster.get?_set`, `Raster.get?_setRect`, `Raster.get?_ofFn` and
`Raster.get?_paste` follow from this. Two rasters of one size with the same pixels are equal
(`Raster.ext_get?`).

## Main definitions

* `Raster.SameSize` : images of one size.

## Main results

* `Raster.ext_get?` : a raster is determined by its size and its pixels.
* `Raster.get?_setRect` : a filled rectangle, clipped by the raster.
* `Raster.get?_paste` : a patch put over a raster.
-/

namespace Darkroom

namespace Raster

variable {α β γ : Type}

/-! ### Sizes -/

/-- Whether two images have the same width and the same height. -/
def SameSize (a : Raster α) (b : Raster β) : Prop := a.width = b.width ∧ a.height = b.height

theorem SameSize.refl (a : Raster α) : a.SameSize a := ⟨rfl, rfl⟩

theorem SameSize.trans {a : Raster α} {b : Raster β} {c : Raster γ} (h : a.SameSize b)
    (h' : b.SameSize c) : a.SameSize c :=
  ⟨h.1.trans h'.1, h.2.trans h'.2⟩

theorem sameSize_map (f : α → β) (image : Raster α) : (image.map f).SameSize image := ⟨rfl, rfl⟩

/-! ### Places -/

theorem inside_iff {image : Raster α} {x y : Nat} :
    image.inside x y = true ↔ x < image.width.toNat ∧ y < image.height.toNat := by
  simp only [inside, Bool.and_eq_true, decide_eq_true_eq]

/-- The columns and rows of a raster are words. -/
theorem exists_words_of_inside {image : Raster α} {x y : Nat} (h : image.inside x y = true) :
    ∃ column row : UInt32, column.toNat = x ∧ row.toNat = y := by
  obtain ⟨hx, hy⟩ := inside_iff.mp h
  exact ⟨x.toUInt32, y.toUInt32, UInt32.toNat_ofNat_of_lt' (Nat.lt_trans hx image.width.toNat_lt),
    UInt32.toNat_ofNat_of_lt' (Nat.lt_trans hy image.height.toNat_lt)⟩

/-- The place of a pixel lies within the stored pixels. -/
theorem index_lt {image : Raster α} {x y : Nat} (h : image.inside x y = true) :
    y * image.width.toNat + x < image.pixels.size := by
  obtain ⟨hx, hy⟩ := inside_iff.mp h
  rw [image.size_pixels]
  calc y * image.width.toNat + x < (y + 1) * image.width.toNat := by rw [Nat.succ_mul]; omega
    _ ≤ image.height.toNat * image.width.toNat := Nat.mul_le_mul_right _ hy
    _ = image.width.toNat * image.height.toNat := Nat.mul_comm _ _

private theorem index_mod {w x : Nat} (y : Nat) (hx : x < w) : (y * w + x) % w = x := by
  rw [Nat.mul_comm, Nat.mul_add_mod, Nat.mod_eq_of_lt hx]

private theorem index_div {w x : Nat} (y : Nat) (hx : x < w) : (y * w + x) / w = y := by
  rw [Nat.mul_comm, Nat.mul_add_div (by omega), Nat.div_eq_of_lt hx, Nat.add_zero]

/-- Two positions with columns below the width share no place. -/
theorem index_inj {w x px : Nat} (hx : x < w) (hpx : px < w) (y py : Nat) :
    y * w + x = py * w + px ↔ x = px ∧ y = py := by
  constructor
  · intro h
    exact ⟨by rw [← index_mod y hx, h, index_mod py hpx],
      by rw [← index_div y hx, h, index_div py hpx]⟩
  · rintro ⟨rfl, rfl⟩
    rfl

/-! ### Pixels -/

theorem get?_of_inside {image : Raster α} {x y : Nat} (h : image.inside x y = true) :
    image.get? x y = image.pixels[y * image.width.toNat + x]? := by
  rw [get?, if_pos h]

theorem get?_of_not_inside {image : Raster α} {x y : Nat} (h : ¬ image.inside x y = true) :
    image.get? x y = none := by
  rw [get?, if_neg h]

/-- Within a raster, the pixel of a position does not depend on a fallback. -/
theorem get?_eq_getD {image : Raster α} {x y : Nat} (h : image.inside x y = true) (fallback : α) :
    image.get? x y = some (image.getD x y fallback) := by
  rw [getD, get?_of_inside h, Array.getElem?_eq_getElem (index_lt h), Option.getD_some]

/-- A raster is determined by its size and its pixels. -/
theorem ext_get? {a b : Raster α} (hw : a.width = b.width) (hh : a.height = b.height)
    (h : ∀ x y, a.inside x y = true → a.get? x y = b.get? x y) : a = b := by
  obtain ⟨w, ht, p, hp⟩ := a
  obtain ⟨w', ht', q, hq⟩ := b
  obtain rfl : w = w' := hw
  obtain rfl : ht = ht' := hh
  congr 1
  refine Array.ext_getElem? fun i => ?_
  by_cases hi : i < w.toNat * ht.toNat
  · have hwpos : 0 < w.toNat := Nat.pos_of_mul_pos_right (Nat.zero_lt_of_lt hi)
    have hin : inside ⟨w, ht, p, hp⟩ (i % w.toNat) (i / w.toNat) = true :=
      inside_iff.mpr ⟨Nat.mod_lt _ hwpos, Nat.div_lt_of_lt_mul hi⟩
    have hplace : i / w.toNat * w.toNat + i % w.toNat = i := Nat.div_add_mod' i w.toNat
    have hpixel := h _ _ hin
    rwa [get?_of_inside hin, get?_of_inside (by exact hin), hplace] at hpixel
  · rw [Array.getElem?_eq_none (by omega), Array.getElem?_eq_none (by omega)]

/-! ### Replacing pixels -/

@[simp] theorem width_set (image : Raster α) (x y : Nat) (p : α) :
    (image.set x y p).width = image.width := by
  rw [set]
  split_ifs <;> rfl

@[simp] theorem height_set (image : Raster α) (x y : Nat) (p : α) :
    (image.set x y p).height = image.height := by
  rw [set]
  split_ifs <;> rfl

@[simp] theorem inside_set (image : Raster α) (x y : Nat) (p : α) (px py : Nat) :
    (image.set x y p).inside px py = image.inside px py := by
  rw [inside, inside, width_set, height_set]

theorem get?_set (image : Raster α) (x y : Nat) (p : α) (px py : Nat) :
    (image.set x y p).get? px py =
      if px = x ∧ py = y ∧ image.inside px py = true then some p else image.get? px py := by
  by_cases hp : image.inside px py = true
  · by_cases h : image.inside x y = true
    · have hset : (image.set x y p).get? px py =
          (image.pixels.setIfInBounds (y * image.width.toNat + x) p)[
            py * image.width.toNat + px]? := by
        rw [get?_of_inside (by rwa [inside_set]), width_set]
        simp only [set, if_pos h]
      rw [hset, Array.getElem?_setIfInBounds, if_pos (index_lt h), get?_of_inside hp]
      refine if_congr ?_ rfl rfl
      rw [index_inj (inside_iff.mp h).1 (inside_iff.mp hp).1]
      exact ⟨fun ⟨hx, hy⟩ => ⟨hx.symm, hy.symm, hp⟩, fun ⟨hx, hy, _⟩ => ⟨hx.symm, hy.symm⟩⟩
    · rw [set, if_neg h, if_neg]
      rintro ⟨rfl, rfl, hp⟩
      exact h hp
  · rw [if_neg fun h => hp h.2.2, get?_of_not_inside hp, get?_of_not_inside]
    rwa [inside_set]

@[simp] theorem width_setRow (image : Raster α) (x y : Nat) (p : α) (count : Nat) :
    (image.setRow x y p count).width = image.width := by
  induction count generalizing image with
  | zero => rfl
  | succ count ih => rw [setRow, ih, width_set]

@[simp] theorem height_setRow (image : Raster α) (x y : Nat) (p : α) (count : Nat) :
    (image.setRow x y p count).height = image.height := by
  induction count generalizing image with
  | zero => rfl
  | succ count ih => rw [setRow, ih, height_set]

@[simp] theorem inside_setRow (image : Raster α) (x y : Nat) (p : α) (count px py : Nat) :
    (image.setRow x y p count).inside px py = image.inside px py := by
  rw [inside, inside, width_setRow, height_setRow]

theorem get?_setRow (image : Raster α) (x y : Nat) (p : α) (count px py : Nat) :
    (image.setRow x y p count).get? px py =
      if (x ≤ px ∧ px < x + count) ∧ py = y ∧ image.inside px py = true then some p
      else image.get? px py := by
  induction count generalizing image with
  | zero => rw [setRow, if_neg (by omega)]
  | succ count ih =>
    rw [setRow, ih, get?_set, inside_set]
    by_cases hin : image.inside px py = true
    · simp only [hin, and_true]
      split_ifs <;> first | rfl | omega
    · simp only [hin, Bool.false_eq_true, and_false, if_false]

@[simp] theorem width_setRect (image : Raster α) (x y columns : Nat) (p : α) (rows : Nat) :
    (image.setRect x y columns p rows).width = image.width := by
  induction rows generalizing image with
  | zero => rfl
  | succ rows ih => rw [setRect, ih, width_setRow]

@[simp] theorem height_setRect (image : Raster α) (x y columns : Nat) (p : α) (rows : Nat) :
    (image.setRect x y columns p rows).height = image.height := by
  induction rows generalizing image with
  | zero => rfl
  | succ rows ih => rw [setRect, ih, height_setRow]

/-- Within the raster, a filled rectangle has its colour; all other pixels stay. -/
theorem get?_setRect (image : Raster α) (x y columns : Nat) (p : α) (rows px py : Nat) :
    (image.setRect x y columns p rows).get? px py =
      if (x ≤ px ∧ px < x + columns) ∧ (y ≤ py ∧ py < y + rows) ∧ image.inside px py = true
      then some p else image.get? px py := by
  induction rows generalizing image with
  | zero => rw [setRect, if_neg (by omega)]
  | succ rows ih =>
    rw [setRect, ih, get?_setRow, inside_setRow]
    by_cases hin : image.inside px py = true
    · simp only [hin, and_true]
      split_ifs <;> first | rfl | omega
    · simp only [hin, Bool.false_eq_true, and_false, if_false]

/-! ### Building rasters -/

theorem get?_ofFn (width height : UInt32) (f : Nat → Nat → α) (px py : Nat) :
    (ofFn width height f).get? px py =
      if px < width.toNat ∧ py < height.toNat then some (f px py) else none := by
  by_cases h : px < width.toNat ∧ py < height.toNat
  · have hin : (ofFn width height f).inside px py = true := inside_iff.mpr h
    have hplace : py * width.toNat + px < width.toNat * height.toNat := by
      simpa only [ofFn, Array.size_ofFn] using index_lt hin
    rw [get?_of_inside hin, if_pos h]
    simp only [ofFn, Array.getElem?_ofFn, hplace, dif_pos, index_mod py h.1, index_div py h.1]
  · rw [if_neg h, get?_of_not_inside fun hin => h (inside_iff.mp hin)]

theorem ofFn_congr {width height : UInt32} {f f' : Nat → Nat → α}
    (h : ∀ px py, px < width.toNat → py < height.toNat → f px py = f' px py) :
    ofFn width height f = ofFn width height f' := by
  refine ext_get? rfl rfl fun px py hin => ?_
  obtain ⟨hx, hy⟩ := inside_iff.mp hin
  rw [get?_ofFn, get?_ofFn, h px py hx hy]

theorem get?_map (f : α → β) (image : Raster α) (px py : Nat) :
    (image.map f).get? px py = (image.get? px py).map f := by
  have hin : (image.map f).inside px py = image.inside px py := rfl
  by_cases h : image.inside px py = true
  · rw [get?_of_inside h, get?_of_inside (hin.trans h)]
    exact Array.getElem?_map
  · rw [get?_of_not_inside h, get?_of_not_inside (hin ▸ h), Option.map_none]

/-- A pixel of a raster with a patch over it is the patch's where there is one. -/
theorem get?_paste (image patch : Raster α) (x y px py : Nat) :
    (image.paste patch x y).get? px py = (image.get? px py).map fun old =>
      if x ≤ px ∧ y ≤ py then patch.getD (px - x) (py - y) old else old := by
  have hin : (image.paste patch x y).inside px py = image.inside px py := rfl
  by_cases h : image.inside px py = true
  · have hx := (inside_iff.mp h).1
    rw [get?_of_inside h, get?_of_inside (hin.trans h)]
    simp only [paste, Array.getElem?_mapIdx, index_mod py hx, index_div py hx]
  · rw [get?_of_not_inside h, get?_of_not_inside (hin ▸ h), Option.map_none]

/-- A patch leaves the pixels beside it. -/
theorem get?_paste_of_outside {image patch : Raster α} {x y px py : Nat}
    (h : ¬ ((x ≤ px ∧ px < x + patch.width.toNat) ∧ y ≤ py ∧ py < y + patch.height.toNat)) :
    (image.paste patch x y).get? px py = image.get? px py := by
  have hkeep : ∀ old,
      (if x ≤ px ∧ y ≤ py then patch.getD (px - x) (py - y) old else old) = old := by
    intro old
    split_ifs with hxy
    · have hout : ¬ patch.inside (px - x) (py - y) = true := fun hin => by
        have := inside_iff.mp hin
        omega
      rw [getD, get?_of_not_inside hout, Option.getD_none]
    · rfl
  simp only [get?_paste, hkeep, Option.map_id']

end Raster

end Darkroom
