import Darkroom.Numeric.Binary
import Mathlib.Algebra.Order.Field.Power
import Mathlib.Algebra.Order.Ring.Rat
import Mathlib.Tactic.FieldSimp
import Mathlib.Tactic.GCongr
import Mathlib.Tactic.Linarith
import Mathlib.Tactic.NormNum
import Mathlib.Tactic.Ring

/-!
# The double nearest to a natural number

A normal double has a significand of 53 bits. The one nearest to a natural number of at most 64
bits takes the leading bits of that number; so it exceeds the number by at most half a unit of its
last place, `2 ^ t.log2 / 2 ^ 53` for the number `t`.

## Main definitions

* `BinaryFormat.value` : the number that magnitude bits stand for.

## Main results

* `normal_parts` : the significand and the exponent of a normal double.
* `nearest_natural` : the double nearest to a natural number.
-/

namespace Darkroom.Numeric

/-! ### Normal doubles -/

/-- The number that the magnitude bits of a finite number stand for. -/
def BinaryFormat.value (f : BinaryFormat) (bits : Nat) : ℚ :=
  f.significand bits * 2 ^ f.exponent bits

theorem BinaryFormat.value_nonneg (f : BinaryFormat) (bits : Nat) : 0 ≤ f.value bits :=
  mul_nonneg (Nat.cast_nonneg _) (zpow_nonneg zero_le_two _)

theorem infinity_double : BinaryFormat.double.infinity = 2047 * 2 ^ 52 := rfl

/-- A normal number has a significand of 53 bits. -/
theorem normal_parts {bits : Nat} (hlow : 2 ^ 52 ≤ bits) :
    BinaryFormat.double.significand bits = bits % 2 ^ 52 + 2 ^ 52 ∧
      BinaryFormat.double.exponent bits = (bits / 2 ^ 52 : Nat) - 1075 := by
  have hquotient : bits / 2 ^ 52 ≠ 0 := by omega
  constructor
  · exact if_neg hquotient
  · change (-1074 : Int) + (bits / 2 ^ 52 - 1 : Nat) = (bits / 2 ^ 52 : Nat) - 1075
    omega

/-- A double whose last bit weighs more than one is normal. -/
theorem normal_of_exponent_pos {bits : Nat} (he : 0 < BinaryFormat.double.exponent bits) :
    2 ^ 52 ≤ bits := by
  by_contra hsmall
  have hzero : bits / 2 ^ 52 = 0 := Nat.div_eq_of_lt (not_le.mp hsmall)
  have hexponent : BinaryFormat.double.exponent bits = -1074 + ((bits / 2 ^ 52 - 1 : Nat) : Int) :=
    rfl
  omega

/-- A significand of 53 bits with an exponent, which rounding may have made one bit longer. -/
theorem value_add {q : Nat} (hlow : 2 ^ 52 ≤ q) (hhigh : q ≤ 2 ^ 53) (e : Nat) :
    BinaryFormat.double.value (q + e * 2 ^ 52) = q * 2 ^ ((e : Int) - 1074) := by
  have hnormal : 2 ^ 52 ≤ q + e * 2 ^ 52 := by omega
  obtain ⟨hsignificand, hexponent⟩ := normal_parts hnormal
  rw [BinaryFormat.value, hsignificand, hexponent]
  by_cases hcarry : q = 2 ^ 53
  · have hmod : (q + e * 2 ^ 52) % 2 ^ 52 = 0 := by omega
    have hdiv : (q + e * 2 ^ 52) / 2 ^ 52 = e + 2 := by omega
    have hexp : ((e + 2 : Nat) : Int) - 1075 = (e : Int) - 1074 + 1 := by omega
    rw [hmod, hdiv, hexp, zpow_add_one₀ two_ne_zero, hcarry]
    push_cast
    ring
  · have hmod : (q + e * 2 ^ 52) % 2 ^ 52 + 2 ^ 52 = q := by omega
    have hdiv : (q + e * 2 ^ 52) / 2 ^ 52 = e + 1 := by omega
    have hexp : ((e + 1 : Nat) : Int) - 1075 = (e : Int) - 1074 := by omega
    rw [hmod, hdiv, hexp]

/-! ### Rounding a natural number -/

theorem divNearest_bounds (num den : Nat) :
    num / den ≤ divNearest num den ∧ 2 * (divNearest num den * den) ≤ 2 * num + den := by
  have hdivision := Nat.div_add_mod' num den
  unfold divNearest
  dsimp only
  split_ifs with hup
  · rw [Nat.add_mul]
    omega
  · omega

theorem powerRatio_twos (a b : Nat) :
    powerRatio ((a : Int) - b) 0 = (2 ^ (a - b), 2 ^ (b - a)) := by
  have hup : ((a : Int) - b).toNat = a - b := by omega
  have hdown : (-((a : Int) - b)).toNat = b - a := by omega
  rw [powerRatio, hup, hdown]
  simp

theorem leadingExponent_natural {t : Nat} (ht : 0 < t) :
    BinaryFormat.leadingExponent t 1 = t.log2 := by
  have hlow : 2 ^ t.log2 ≤ t := Nat.log2_self_le ht.ne'
  have hone : Nat.log2 1 = 0 := rfl
  unfold BinaryFormat.leadingExponent
  dsimp only
  rw [hone, powerRatio_twos]
  dsimp only
  rw [if_neg (by simpa using hlow)]
  exact Int.sub_zero _

/-- A natural number of at most 64 bits is cut or filled up to 53 bits. -/
theorem nearest_natural_eq {t : Nat} (ht : 0 < t) (hlog : t.log2 < 64) :
    BinaryFormat.double.nearest t 1 =
      divNearest (t * 2 ^ (52 - t.log2)) (2 ^ (t.log2 - 52)) + (t.log2 + 1022) * 2 ^ 52 := by
  have hexponent : max BinaryFormat.double.minExponent
      (BinaryFormat.leadingExponent t 1 - ((BinaryFormat.double.precision : Int) - 1)) =
      (t.log2 : Int) - 52 := by
    rw [leadingExponent_natural ht]
    change max (-1074 : Int) ((t.log2 : Int) - (53 - 1)) = (t.log2 : Int) - 52
    omega
  have hmax : ¬ (t.log2 : Int) - 52 > BinaryFormat.double.maxExponent := by
    change ¬ (t.log2 : Int) - 52 > 971
    omega
  have hneg : -((t.log2 : Int) - 52) = (52 : Nat) - (t.log2 : Int) := by omega
  have hbiased : ((t.log2 : Int) - 52 - BinaryFormat.double.minExponent).toNat = t.log2 + 1022 := by
    change ((t.log2 : Int) - 52 - -1074).toNat = t.log2 + 1022
    omega
  rw [BinaryFormat.nearest, if_neg ht.ne']
  dsimp only
  rw [hexponent, if_neg hmax, hneg, powerRatio_twos, hbiased, Nat.one_mul]
  rfl

/-- A number scaled to 53 bits is rounded to a significand of 53 bits, or to the power of two after
them. -/
theorem divNearest_normal {t up down : Nat} (ht : 0 < t) (hup : 0 < up) (hdown : 0 < down)
    (hscale : 2 ^ t.log2 * up = 2 ^ 52 * down) :
    2 ^ 52 ≤ divNearest (t * up) down ∧ divNearest (t * up) down ≤ 2 ^ 53 := by
  obtain ⟨hfloor, hround⟩ := divNearest_bounds (t * up) down
  have hnum : t * up < 2 ^ 53 * down := by
    calc t * up < 2 ^ (t.log2 + 1) * up := Nat.mul_lt_mul_of_pos_right Nat.lt_log2_self hup
      _ = 2 * (2 ^ t.log2 * up) := by ring
      _ = 2 ^ 53 * down := by rw [hscale]; ring
  constructor
  · refine ((Nat.le_div_iff_mul_le hdown).mpr ?_).trans hfloor
    rw [← hscale]
    exact Nat.mul_le_mul_right up (Nat.log2_self_le ht.ne')
  · have hdouble : 2 * divNearest (t * up) down * down < (2 ^ 54 + 1) * down := by
      rw [Nat.mul_assoc]
      omega
    have hlt : 2 * divNearest (t * up) down < 2 ^ 54 + 1 := Nat.lt_of_mul_lt_mul_right hdouble
    omega

/-- **The double nearest to a natural number** is a normal one, and not greater than the number by
more than half a unit of its last place. -/
theorem nearest_natural {t : Nat} (ht : 0 < t) (hlt : t < 2 ^ 64) :
    2 ^ 52 ≤ BinaryFormat.double.nearest t 1 ∧
      BinaryFormat.double.nearest t 1 < BinaryFormat.double.infinity ∧
      BinaryFormat.double.value (BinaryFormat.double.nearest t 1) ≤ t + 2 ^ t.log2 / 2 ^ 53 := by
  have hlog : t.log2 < 64 := (Nat.log2_lt ht.ne').mpr hlt
  obtain ⟨up, hup⟩ : ∃ up, up = 2 ^ (52 - t.log2) := ⟨_, rfl⟩
  obtain ⟨down, hdown⟩ : ∃ down, down = 2 ^ (t.log2 - 52) := ⟨_, rfl⟩
  obtain ⟨q, hq⟩ : ∃ q, q = divNearest (t * up) down := ⟨_, rfl⟩
  have hupPos : 0 < up := hup ▸ Nat.two_pow_pos _
  have hdownPos : 0 < down := hdown ▸ Nat.two_pow_pos _
  have hscale : 2 ^ t.log2 * up = 2 ^ 52 * down := by
    rw [hup, hdown, ← Nat.pow_add, ← Nat.pow_add]
    congr 1
    omega
  obtain ⟨hlow, hhigh⟩ := divNearest_normal ht hupPos hdownPos hscale
  obtain ⟨-, hround⟩ := divNearest_bounds (t * up) down
  have hunit : (2 : ℚ) ^ (((t.log2 + 1022 : Nat) : Int) - 1074) = down / up := by
    have hexp : ((t.log2 + 1022 : Nat) : Int) - 1074 =
        ((t.log2 - 52 : Nat) : Int) - ((52 - t.log2 : Nat) : Int) := by omega
    rw [hexp, zpow_sub₀ two_ne_zero, zpow_natCast, zpow_natCast, hup, hdown]
    push_cast
    rfl
  rw [← hq] at hlow hhigh hround
  rw [nearest_natural_eq ht hlog, ← hup, ← hdown, ← hq]
  refine ⟨by omega, ?_, ?_⟩
  · rw [infinity_double]
    omega
  · have hroundCast : 2 * ((q : ℚ) * down) ≤ 2 * (t * up) + down := by exact_mod_cast hround
    have hscaleCast : (2 : ℚ) ^ t.log2 * up = 2 ^ 52 * down := by exact_mod_cast hscale
    have hupCast : (0 : ℚ) < up := by exact_mod_cast hupPos
    rw [value_add hlow hhigh, hunit]
    calc (q : ℚ) * (down / up) = q * down / up := by rw [mul_div_assoc]
      _ ≤ (t * up + down / 2) / up := by
          gcongr
          linarith
      _ = t + 2 ^ t.log2 / 2 ^ 53 := by
          field_simp
          linarith

end Darkroom.Numeric
