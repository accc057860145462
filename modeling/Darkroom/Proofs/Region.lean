import Darkroom.Region
import Mathlib.Tactic.Common

/-!
# Clipped regions

The pixels of a region are stated in unbounded numbers (`Region.Covers`), where a corner and a
size are added without a bound. `Region.contains` agrees with this (`Region.contains_iff`), and
`Region.clip` cuts out exactly the pixels of an image that the region covers
(`Region.covers_of_clip`, `Region.not_covers_of_clip`): a sum that does not fit in a word ends
beyond every image, so that saturating it moves no edge. What is cut out has an area, lies within
the image, and is left alone when it is clipped again (`Region.clip_eq_self_iff`).

## Main definitions

* `Region.Covers` : the positions of a region.

## Main results

* `Region.contains_iff` : the words of a position in a region.
* `Region.covers_of_clip` : the positions of a clipped region.
* `Region.isSome_clip_iff` : a region is clipped away exactly when it shares no pixel with the
  image.
* `Region.clip_is_intersection` : the pixels of a clipped region, and where it lies.
-/

namespace Darkroom

theorem toNat_addSaturating (a b : UInt32) :
    (addSaturating a b).toNat = min (a.toNat + b.toNat) (UInt32.size - 1) := by
  have hsize : UInt32.size = 2 ^ 32 := rfl
  have ha := a.toNat_lt
  have hb := b.toNat_lt
  have hlt : a + b < a ↔ (a.toNat + b.toNat) % 2 ^ 32 < a.toNat := by
    rw [UInt32.lt_iff_toNat_lt, UInt32.toNat_add]
  rw [addSaturating]
  split_ifs with h
  · rw [hlt] at h
    rw [UInt32.toNat_ofNat_of_lt' (by decide)]
    omega
  · rw [hlt] at h
    rw [UInt32.toNat_add]
    omega

namespace Region

/-- Whether a region covers a position, the far edges being sums in unbounded numbers. -/
def Covers (r : Region) (x y : Nat) : Prop :=
  (r.x.toNat ≤ x ∧ x < r.x.toNat + r.width.toNat) ∧
    r.y.toNat ≤ y ∧ y < r.y.toNat + r.height.toNat

instance (r : Region) (x y : Nat) : Decidable (r.Covers x y) :=
  inferInstanceAs (Decidable ((_ ∧ _) ∧ _ ∧ _))

theorem contains_iff (r : Region) (x y : UInt32) :
    r.contains x y = true ↔ r.Covers x.toNat y.toNat := by
  simp only [contains, Covers, Bool.and_eq_true, decide_eq_true_eq, ge_iff_le,
    UInt32.le_iff_toNat_le, UInt32.lt_iff_toNat_lt]
  constructor
  · rintro ⟨⟨⟨hx, hy⟩, hw⟩, hh⟩
    rw [UInt32.toNat_sub_of_le _ _ (UInt32.le_iff_toNat_le.mpr hx)] at hw
    rw [UInt32.toNat_sub_of_le _ _ (UInt32.le_iff_toNat_le.mpr hy)] at hh
    omega
  · rintro ⟨⟨hx, hw⟩, hy, hh⟩
    rw [UInt32.toNat_sub_of_le _ _ (UInt32.le_iff_toNat_le.mpr hx),
      UInt32.toNat_sub_of_le _ _ (UInt32.le_iff_toNat_le.mpr hy)]
    omega

/-- One axis of `clip`: the end of the clipped part, counted from its start. -/
private theorem toNat_clippedLength {a n w : UInt32} (h : a < min (addSaturating a n) w) :
    (min (addSaturating a n) w - a).toNat = min (a.toNat + n.toNat) w.toNat - a.toNat := by
  have hw := w.toNat_lt
  rw [UInt32.toNat_sub_of_le _ _ (UInt32.le_of_lt h), UInt32.toNat_min, toNat_addSaturating,
    UInt32.size]
  omega

/-- One axis of `clip`: something is left of it unless the axis is missed or has no length. -/
private theorem clippedEnd_le_iff (a n w : UInt32) :
    min (addSaturating a n) w ≤ a ↔ w.toNat ≤ a.toNat ∨ n.toNat = 0 := by
  have ha := a.toNat_lt
  have hw := w.toNat_lt
  rw [UInt32.le_iff_toNat_le, UInt32.toNat_min, toNat_addSaturating, UInt32.size]
  omega

theorem clip_eq_none_iff (r : Region) (w h : UInt32) :
    r.clip w h = none ↔ (w.toNat ≤ r.x.toNat ∨ r.width.toNat = 0) ∨
      h.toNat ≤ r.y.toNat ∨ r.height.toNat = 0 := by
  dsimp only [clip]
  split_ifs with hout hempty
  · rw [ge_iff_le, ge_iff_le, UInt32.le_iff_toNat_le, UInt32.le_iff_toNat_le] at hout
    exact ⟨fun _ => by omega, fun _ => rfl⟩
  · rw [clippedEnd_le_iff, clippedEnd_le_iff] at hempty
    exact ⟨fun _ => hempty, fun _ => rfl⟩
  · rw [clippedEnd_le_iff, clippedEnd_le_iff] at hempty
    exact ⟨fun h => by simp at h, fun h => absurd h hempty⟩

/-- A clipped region keeps its corner, and its sides end at the region's end or the image's. -/
theorem of_clip_eq_some {r area : Region} {w h : UInt32} (hclip : r.clip w h = some area) :
    area.x = r.x ∧ area.y = r.y ∧
      area.width.toNat = min (r.x.toNat + r.width.toNat) w.toNat - r.x.toNat ∧
      area.height.toNat = min (r.y.toNat + r.height.toNat) h.toNat - r.y.toNat := by
  dsimp only [clip] at hclip
  split_ifs at hclip with hout hempty
  obtain ⟨hx, hy⟩ := not_or.mp hempty
  obtain rfl := Option.some.inj hclip
  exact ⟨rfl, rfl, toNat_clippedLength (UInt32.not_le.mp hx),
    toNat_clippedLength (UInt32.not_le.mp hy)⟩

/-- The positions of a clipped region are those of the region that lie in the image. -/
theorem covers_of_clip {r area : Region} {w h : UInt32} (hclip : r.clip w h = some area)
    (x y : Nat) : area.Covers x y ↔ r.Covers x y ∧ x < w.toNat ∧ y < h.toNat := by
  obtain ⟨hx, hy, hw, hh⟩ := of_clip_eq_some hclip
  rw [Covers, Covers, hx, hy, hw, hh]
  omega

/-- A region that is clipped away covers no position of the image. -/
theorem not_covers_of_clip {r : Region} {w h : UInt32} (hclip : r.clip w h = none)
    {x y : Nat} (hr : r.Covers x y) : ¬ (x < w.toNat ∧ y < h.toNat) := by
  rw [clip_eq_none_iff] at hclip
  rw [Covers] at hr
  omega

/-- A region is clipped away exactly when it shares no position with the image. -/
theorem isSome_clip_iff (r : Region) (w h : UInt32) :
    (r.clip w h).isSome = true ↔ ∃ x y, r.Covers x y ∧ x < w.toNat ∧ y < h.toNat := by
  constructor
  · intro hsome
    have hne : ¬ r.clip w h = none := Option.isSome_iff_ne_none.mp hsome
    rw [clip_eq_none_iff] at hne
    refine ⟨r.x.toNat, r.y.toNat, ?_⟩
    rw [Covers]
    omega
  · rintro ⟨x, y, hr, hin⟩
    rw [Option.isSome_iff_ne_none]
    exact fun hnone => not_covers_of_clip hnone hr hin

/-- Whether a region has an area and lies within an image. -/
def LiesWithin (r : Region) (w h : UInt32) : Prop :=
  (0 < r.width.toNat ∧ 0 < r.height.toNat) ∧
    r.x.toNat + r.width.toNat ≤ w.toNat ∧ r.y.toNat + r.height.toNat ≤ h.toNat

theorem liesWithin_of_clip {r area : Region} {w h : UInt32} (hclip : r.clip w h = some area) :
    area.LiesWithin w h := by
  have hsome : ¬ r.clip w h = none := by
    rw [hclip]
    exact Option.some_ne_none area
  rw [clip_eq_none_iff] at hsome
  obtain ⟨hx, hy, hw, hh⟩ := of_clip_eq_some hclip
  rw [LiesWithin, hx, hy, hw, hh]
  omega

/-- Clipping leaves exactly the regions alone that have an area within the image. -/
theorem clip_eq_self_iff {r : Region} {w h : UInt32} :
    r.clip w h = some r ↔ r.LiesWithin w h := by
  refine ⟨liesWithin_of_clip, fun hlies => ?_⟩
  rw [LiesWithin] at hlies
  cases hclip : r.clip w h with
  | none =>
    rw [clip_eq_none_iff] at hclip
    omega
  | some area =>
    obtain ⟨hx, hy, hw, hh⟩ := of_clip_eq_some hclip
    have hwidth : area.width = r.width := UInt32.toNat_inj.mp (by omega)
    have hheight : area.height = r.height := UInt32.toNat_inj.mp (by omega)
    cases area
    cases r
    simp only at hx hy hwidth hheight
    rw [hx, hy, hwidth, hheight]

/-- **Clipping is intersection with the image.** A clipped region has exactly the pixels of the
image that the region contains, and nothing is left exactly when there are none. What is left has an
area and lies within the image, its far edges being sums in unbounded numbers; clipped again, it
stays as it is. -/
theorem clip_is_intersection (r : Region) (w h : UInt32) :
    (∀ px py : UInt32, px < w ∧ py < h ∧ r.contains px py = true ↔
      ∃ area, r.clip w h = some area ∧ area.contains px py = true) ∧
    (r.clip w h = none ↔ ¬ ∃ px py : UInt32, px < w ∧ py < h ∧ r.contains px py = true) ∧
    ∀ area, r.clip w h = some area →
      (0 < area.width ∧ 0 < area.height) ∧
      (area.x.toNat + area.width.toNat ≤ w.toNat ∧ area.y.toNat + area.height.toNat ≤ h.toNat) ∧
      area.clip w h = some area := by
  have hpixels (px py : UInt32) : px < w ∧ py < h ∧ r.contains px py = true ↔
      ∃ area, r.clip w h = some area ∧ area.contains px py = true := by
    rw [contains_iff, UInt32.lt_iff_toNat_lt, UInt32.lt_iff_toNat_lt]
    constructor
    · rintro ⟨hx, hy, hcovers⟩
      cases hclip : r.clip w h with
      | none => exact absurd ⟨hx, hy⟩ (not_covers_of_clip hclip hcovers)
      | some area =>
        refine ⟨area, rfl, ?_⟩
        rw [contains_iff, covers_of_clip hclip]
        exact ⟨hcovers, hx, hy⟩
    · rintro ⟨area, hclip, hcontains⟩
      rw [contains_iff, covers_of_clip hclip] at hcontains
      exact ⟨hcontains.2.1, hcontains.2.2, hcontains.1⟩
  refine ⟨hpixels, ?_, fun area hclip => ?_⟩
  · constructor
    · rintro hnone ⟨px, py, hpixel⟩
      obtain ⟨area, hsome, -⟩ := (hpixels px py).mp hpixel
      rw [hnone] at hsome
      exact nomatch hsome
    · intro hempty
      cases hclip : r.clip w h with
      | none => rfl
      | some area =>
        -- The corner of what is left is such a pixel.
        refine absurd ⟨area.x, area.y, (hpixels _ _).mpr ⟨area, hclip, ?_⟩⟩ hempty
        have hlies := liesWithin_of_clip hclip
        rw [LiesWithin] at hlies
        rw [contains_iff, Covers]
        omega
  · have hlies := liesWithin_of_clip hclip
    exact ⟨⟨UInt32.lt_iff_toNat_lt.mpr hlies.1.1, UInt32.lt_iff_toNat_lt.mpr hlies.1.2⟩, hlies.2,
      clip_eq_self_iff.mpr hlies⟩

/-- A region whose far edges do not fit in words, over an image of the greatest width. -/
theorem endlessRegion_clipped :
    (Region.mk 4294967290 3 4294967295 4294967295).clip 4294967295 5 =
      some ⟨4294967290, 3, 5, 2⟩ ∧
    (Region.mk 4294967290 3 5 2).clip 4294967295 5 = some ⟨4294967290, 3, 5, 2⟩ := by
  have hclip : (Region.mk 4294967290 3 4294967295 4294967295).clip 4294967295 5 =
      some ⟨4294967290, 3, 5, 2⟩ := by
    decide +kernel
  exact ⟨hclip, ((clip_is_intersection _ _ _).2.2 _ hclip).2.2⟩

end Region

end Darkroom
