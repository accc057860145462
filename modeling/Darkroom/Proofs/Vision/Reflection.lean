import Darkroom.Proofs.Fault
import Darkroom.Proofs.Numeric.Word
import Darkroom.Vision.Filter
import Mathlib.Data.Int.ModEq

/-!
# Reflection at the ends of a line

A position beyond an end of a line stands for one within it, by reflection at the first and the last
position, which are not repeated. So positions that are a whole number of periods apart stand for
the same one (`Filter.reflect_congr`), and so do opposite ones (`Filter.reflect_neg`); those within
the line stand for themselves. Together these say that the reflected position is the only one of
the line that is the given one or its opposite, up to whole periods.

The blur finds the position on words: with sign and 64 bits, and cut to 32 bits without sign at the
end. A line whose length is a word of 32 bits is never left, wherever the reflection begins.

## Main definitions

* `Filter.reflect` : the position that another one stands for.
* `Filter.period` : the number of positions after which reflection repeats.

## Main results

* `Filter.reflect_lt`, `Filter.eq_reflect_iff` : what reflection leads to.
* `Filter.reflectWord_eq`, `Filter.neighbourWord_eq` : the same on words.
-/

namespace Darkroom.Filter

open Numeric (Fits word_of_fits)

/-! ### Reflected positions -/

/-- The position within `0 … length - 1` reached by reflection at the edge positions, which are not
repeated. -/
def reflect (index : Int) (length : Nat) : Nat :=
  if length ≤ 1 then 0
  else
    let period : Int := 2 * ((length : Int) - 1)
    let i := index % period
    (if i ≥ length then period - i else i).toNat

/-- The number of positions after which reflection at both ends repeats. -/
def period (length : Nat) : Int := 2 * ((length : Int) - 1)

section Reflect

variable {index : Int} {length : Nat}

theorem emod_period_range (h : 1 < length) (index : Int) :
    0 ≤ index % period length ∧ index % period length < 2 * ((length : Int) - 1) :=
  have hperiod : 0 < period length := by rw [period]; omega
  ⟨Int.emod_nonneg index hperiod.ne', Int.emod_lt_of_pos index hperiod⟩

theorem reflect_eq (h : 1 < length) (index : Int) :
    (reflect index length : Int) =
      if index % period length ≥ length then period length - index % period length
      else index % period length := by
  have hperiod : period length = 2 * ((length : Int) - 1) := rfl
  have hrange := emod_period_range h index
  rw [reflect, if_neg (by omega)]
  refine Int.toNat_of_nonneg ?_
  rw [← period]
  split_ifs <;> omega

/-- Reflection leads into the line. -/
theorem reflect_lt (index : Int) (h : 1 ≤ length) : reflect index length < length := by
  obtain rfl | h := h.eq_or_lt
  · rw [reflect, if_pos le_rfl]
    exact Nat.one_pos
  · have hperiod : period length = 2 * ((length : Int) - 1) := rfl
    have hrange := emod_period_range h index
    have heq := reflect_eq h index
    split_ifs at heq <;> omega

/-- The positions of a line are not moved. -/
theorem reflect_of_lt {j : Nat} (h : j < length) : reflect j length = j := by
  rw [reflect]
  split_ifs with hone
  · omega
  · have hmod : (j : Int) % (2 * ((length : Int) - 1)) = j :=
      Int.emod_eq_of_lt (by omega) (by omega)
    dsimp only
    rw [hmod, if_neg (by omega), Int.toNat_natCast]

theorem sub_emod_modEq (n index : Int) : n - index % n ≡ -index [ZMOD n] := by
  rw [sub_eq_neg_add, Int.add_modulus_modEq_iff]
  exact (Int.mod_modEq index n).neg

theorem reflect_congr {index' : Int} (h : index ≡ index' [ZMOD period length]) :
    reflect index length = reflect index' length := by
  have hmod : index % (2 * ((length : Int) - 1)) = index' % (2 * ((length : Int) - 1)) := h
  simp only [reflect, hmod]

/-- Reflection at the first position does not matter. -/
theorem reflect_neg (index : Int) (length : Nat) :
    reflect (-index) length = reflect index length := by
  by_cases h : 1 < length
  · have hperiod : period length = 2 * ((length : Int) - 1) := rfl
    have hrange := emod_period_range h index
    -- The remainders of a position and its opposite add up to a period, unless both are zero.
    have hneg : (-index) % period length =
        if index % period length = 0 then 0 else period length - index % period length := by
      have hmod := sub_emod_modEq (period length) index
      split_ifs with hzero
      · rw [← hmod.eq, hzero, sub_zero, Int.emod_self]
      · rw [← hmod.eq, Int.emod_eq_of_lt (by omega) (by omega)]
    have heq := reflect_eq h index
    have heq' := reflect_eq h (-index)
    rw [hneg] at heq'
    split_ifs at heq heq' <;> omega
  · rw [reflect, reflect, if_pos (by omega), if_pos (by omega)]

/-- A reflected position is the index or its opposite, up to whole periods. -/
theorem reflect_modEq (h : 1 < length) (index : Int) :
    (reflect index length : Int) ≡ index [ZMOD period length] ∨
      (reflect index length : Int) ≡ -index [ZMOD period length] := by
  rw [reflect_eq h]
  split_ifs
  · exact .inr (sub_emod_modEq ..)
  · exact .inl (Int.mod_modEq ..)

/-- The reflected position is the only one of the line that is the index or its opposite, up to
whole periods. -/
theorem eq_reflect_iff (h : 1 < length) {j : Nat} (hj : j < length) :
    j = reflect index length ↔
      (j : Int) ≡ index [ZMOD period length] ∨ (j : Int) ≡ -index [ZMOD period length] := by
  constructor
  · rintro rfl
    exact reflect_modEq h index
  · rintro (hsame | hopposite)
    · rw [← reflect_congr hsame, reflect_of_lt hj]
    · rw [← reflect_neg, ← reflect_congr hopposite, reflect_of_lt hj]

end Reflect

/-! ### Reflection on words -/

/-- Reflection into a line whose length is a word has the same result on words. -/
theorem reflectWord_eq (index : Int) {length : Nat} (hpos : 1 ≤ length)
    (hlength : length ≤ UInt32.size) :
    reflectWord index length = .ok (reflect index length) := by
  have hsize : UInt32.size = 2 ^ 32 := rfl
  by_cases hone : length = 1
  · rw [reflectWord, reflect, if_pos (by omega), if_pos (by omega)]
  · have hperiod : period length = 2 * ((length : Int) - 1) := rfl
    have hreflect := reflect_eq (show 1 < length by omega) index
    have hlt := reflect_lt index hpos
    have hrange := emod_period_range (show 1 < length by omega) index
    have hfolded : foldWord length (period length) (index % period length) =
        .ok (reflect index length : Int) := by
      rw [foldWord, hreflect]
      split_ifs
      · exact word_of_fits (by rw [Fits]; omega)
      · rfl
    -- The result is below the length, so nothing is cut off.
    have hcut : (reflect index length : Int) % UInt32.size = reflect index length :=
      Int.emod_eq_of_lt (by omega) (by omega)
    rw [reflectWord, if_neg (by omega), word_of_fits (by rw [Fits]; omega), ok_bind,
      word_of_fits (by rw [Fits]; omega), ok_bind, ← hperiod, hfolded, ok_bind, hcut,
      Int.toNat_natCast]
    rfl

/-- The position that a weight goes with is found on words, for kernels of any size. -/
theorem neighbourWord_eq {length p k radius : Nat} (hp : p < length)
    (hlength : length ≤ UInt32.size) (hk : k < UInt32.size) (hradius : radius < UInt32.size) :
    neighbourWord length p k radius = .ok (reflect ((p : Int) + k - radius) length) := by
  have hsize : UInt32.size = 2 ^ 32 := rfl
  rw [neighbourWord, word_of_fits (by rw [Fits]; omega), ok_bind,
    word_of_fits (by rw [Fits]; omega), ok_bind]
  exact reflectWord_eq _ (by omega) hlength

end Darkroom.Filter
