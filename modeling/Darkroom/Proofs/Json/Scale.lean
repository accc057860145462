import Darkroom.Json.Document
import Darkroom.Json.Token
import Darkroom.Proofs.Fault
import Darkroom.Proofs.Numeric.Overflow
import Darkroom.Proofs.Numeric.Shortest

/-!
# Digits that are scaled by a power of ten

The reader of numbers scales the double nearest to the digits by a power of ten. Dividing never
fails, however far the exponent is out of reach. Multiplying fails when the product overflows: the
digits, the power and the product are each rounded, so a decimal that is below the midpoint after
the greatest double might be pushed over it. For the shortest decimal of a double that does not
happen. All of them but that of the greatest double are below the midpoint before it, and from there
the roundings do not reach far enough.

## Main results

* `ofParts_of_neg` : dividing by a power of ten.
* `isInf_mul_tenTo` : multiplying with one, below the midpoint before the greatest double.
* `ofParts_shortest` : the digits of the shortest decimal of a finite double.
-/

namespace Darkroom.Json

open Numeric (BinaryFormat Decimal)

/-! ### Dividing by a power of ten -/

theorem scaleByTen_of_neg (fuel : Nat) (x : Float) {e : Int} (he : e < 0) :
    ∃ y, scaleByTen fuel x e = .ok y := by
  induction fuel generalizing x e with
  | zero => exact ⟨x, rfl⟩
  | succ fuel ih =>
    have hsign : ¬ e ≥ 0 := by omega
    rw [scaleByTen, if_neg hsign, if_neg hsign]
    split_ifs with hreach hzero
    · exact ⟨_, rfl⟩
    · exact ⟨x, rfl⟩
    · exact ih _ (by omega)

/-- Digits with a negative exponent are a number. -/
theorem ofParts_of_neg (negative : Bool) (significand : Nat) {e : Int} (he : e < 0) :
    ∃ n, ofParts negative significand e = .ok n := by
  obtain ⟨y, hy⟩ := scaleByTen_of_neg 4
    (Numeric.double false (BinaryFormat.double.nearest significand 1)) he
  refine ⟨.real (if negative then -y else y), ?_⟩
  rw [ofParts, hy]
  rfl

/-! ### Multiplying with a power of ten -/

/-- The midpoint before the greatest double. -/
def lowerMidpoint : Nat := (2 ^ 54 - 3) * 2 ^ 970

/-- The greatest number that a decimal with an exponent can have as its digits below that midpoint,
which is cut to 18 digits. -/
def mostDigits (k : Nat) : Nat := min (lowerMidpoint / 10 ^ k) (10 ^ 18)

/-- The doubles nearest to the powers of ten are normal, and with the most digits they still stay
below the midpoint after the greatest double. -/
theorem tenTo_spec : ∀ k : Nat, k < 309 →
    (2 ^ 52 ≤ BinaryFormat.double.ofDecimal 1 k ∧
      BinaryFormat.double.ofDecimal 1 k < BinaryFormat.double.infinity) ∧
    (mostDigits k * 2 ^ 53 + 2 ^ (mostDigits k).log2) *
        (BinaryFormat.double.significand (BinaryFormat.double.ofDecimal 1 k) *
          2 ^ (BinaryFormat.double.exponent (BinaryFormat.double.ofDecimal 1 k)).toNat) <
      (2 ^ 54 - 1) * 2 ^ 1023 *
        2 ^ (-BinaryFormat.double.exponent (BinaryFormat.double.ofDecimal 1 k)).toNat := by
  decide +kernel

theorem mostDigits_antitone {j k : Nat} (h : j ≤ k) : mostDigits k ≤ mostDigits j :=
  min_le_min_right _
    (Nat.div_le_div_left (Nat.pow_le_pow_right (by decide) h) (Nat.pow_pos (by decide)))

theorem lt_of_le_mostDigits {t k : Nat} (ht : 0 < t) (hle : t ≤ mostDigits k) : k < 309 := by
  by_contra hlarge
  have hzero : mostDigits 309 = 0 := by decide +kernel
  have hnone : mostDigits k ≤ mostDigits 309 := mostDigits_antitone (not_lt.mp hlarge)
  omega

/-- The same for fewer digits, as numbers. -/
theorem digits_mul_tenTo_lt {t k c : Nat} (ht : 0 < t) (hle : t ≤ mostDigits k)
    (hc : c = BinaryFormat.double.ofDecimal 1 k) :
    ((t : ℚ) + 2 ^ t.log2 / 2 ^ 53) * BinaryFormat.double.value c <
      (2 ^ 54 - 1) * 2 ^ (970 : Int) := by
  have htable := (tenTo_spec k (lt_of_le_mostDigits ht hle)).2
  rw [← hc] at htable
  have hlog : t.log2 ≤ (mostDigits k).log2 :=
    (Nat.le_log2 (by omega)).mpr ((Nat.log2_self_le ht.ne').trans hle)
  have hfewer : t * 2 ^ 53 + 2 ^ t.log2 ≤ mostDigits k * 2 ^ 53 + 2 ^ (mostDigits k).log2 :=
    Nat.add_le_add (Nat.mul_le_mul_right _ hle) (Nat.pow_le_pow_right (by decide) hlog)
  have hnat := (Nat.mul_le_mul_right _ hfewer).trans_lt htable
  obtain ⟨e, he⟩ : ∃ e, e = BinaryFormat.double.exponent c := ⟨_, rfl⟩
  rw [← he] at hnat
  have hscale : (2 : ℚ) ^ e.toNat = 2 ^ (-e).toNat * 2 ^ e := Numeric.zpow_toNat two_ne_zero e
  have hcast : ((t : ℚ) * 2 ^ 53 + 2 ^ t.log2) *
      (BinaryFormat.double.significand c * 2 ^ e.toNat) <
      (2 ^ 54 - 1 : Nat) * 2 ^ 1023 * 2 ^ (-e).toNat := by
    exact_mod_cast hnat
  have hsplit : (2 : ℚ) ^ 1023 = 2 ^ (970 : Int) * 2 ^ 53 := by
    rw [← zpow_natCast, ← zpow_natCast, ← zpow_add₀ two_ne_zero]
    rfl
  have hcancel : ((t : ℚ) * 2 ^ 53 + 2 ^ t.log2) * (BinaryFormat.double.significand c * 2 ^ e) <
      (2 ^ 54 - 1) * 2 ^ (970 : Int) * 2 ^ 53 := by
    refine lt_of_mul_lt_mul_right ?_ (by positivity : (0 : ℚ) ≤ 2 ^ (-e).toNat)
    rw [hscale, hsplit, ← mul_assoc _ (2 ^ (970 : Int))] at hcast
    refine lt_of_eq_of_lt ?_ (hcast.trans_eq ?_)
    · ring
    · norm_num
  rw [BinaryFormat.value, ← he]
  refine lt_of_mul_lt_mul_right ?_ (by positivity : (0 : ℚ) ≤ 2 ^ 53)
  refine lt_of_eq_of_lt ?_ hcancel
  ring

/-- **Multiplying with a power of ten does not overflow** below the midpoint before the greatest
double. -/
theorem isInf_mul_tenTo {t k : Nat} (ht : 0 < t) (hle : t ≤ mostDigits k) :
    (Numeric.double false (BinaryFormat.double.nearest t 1) * tenTo k).isInf = false := by
  have hdigits : t < 2 ^ 64 := (hle.trans (min_le_right _ _)).trans_lt (by norm_num)
  obtain ⟨c, hc⟩ : ∃ c, c = BinaryFormat.double.ofDecimal 1 k := ⟨_, rfl⟩
  have hnormal := (tenTo_spec k (lt_of_le_mostDigits ht hle)).1
  rw [tenTo, ← hc]
  rw [← hc] at hnormal
  obtain ⟨hlow, hhigh, hnearest⟩ := Numeric.nearest_natural ht hdigits
  refine Numeric.isInf_double_mul false false ⟨hlow, hhigh⟩ hnormal ?_
  refine lt_of_le_of_lt ?_ (digits_mul_tenTo_lt ht hle hc)
  exact mul_le_mul_of_nonneg_right hnearest (BinaryFormat.value_nonneg _ c)

/-- Digits with an exponent whose product stays finite are a number. -/
theorem ofParts_of_isInf (negative : Bool) {t k : Nat} (hk : k < 309)
    (h : (Numeric.double false (BinaryFormat.double.nearest t 1) * tenTo k).isInf = false) :
    ∃ n, ofParts negative t k = .ok n := by
  have hreach : (k : Int).natAbs ≤ 308 := by omega
  have hsign : (k : Int) ≥ 0 := by omega
  obtain ⟨x, hx⟩ : ∃ x, x = Numeric.double false (BinaryFormat.double.nearest t 1) := ⟨_, rfl⟩
  have hscale : scaleByTen 4 x k = .ok (x * tenTo k) := by
    rw [scaleByTen, if_pos hreach, if_pos hsign, Int.natAbs_natCast]
    dsimp only
    rw [hx, h, if_neg Bool.false_ne_true]
  refine ⟨.real (if negative then -(x * tenTo k) else x * tenTo k), ?_⟩
  rw [ofParts, ← hx, hscale]
  rfl

/-! ### The shortest decimal of a double -/

section Shortest

variable {bits : Nat} {tie : Numeric.Tie}

/-- All doubles but the greatest are half a unit of the last place below the midpoint before it. -/
theorem half_unit_above_le (he : 0 < BinaryFormat.double.exponent bits)
    (hlt : bits + 1 < BinaryFormat.double.infinity) :
    ((BinaryFormat.double.significand bits : ℚ) + 1 / 2) * 2 ^ BinaryFormat.double.exponent bits ≤
      lowerMidpoint := by
  obtain ⟨hsignificand, hexponent⟩ := Numeric.normal_parts (Numeric.normal_of_exponent_pos he)
  rw [Numeric.infinity_double] at hlt
  have hmidpoint : (lowerMidpoint : ℚ) = (2 ^ 54 - 3) * 2 ^ (970 : Int) := by
    have hcast : ((2 ^ 54 - 3 : Nat) : ℚ) = 2 ^ 54 - 3 := by norm_num
    rw [lowerMidpoint, Nat.cast_mul, hcast, Nat.cast_pow, ← zpow_natCast]
    rfl
  obtain ⟨u, hu⟩ : ∃ u : ℚ, u = 2 ^ (970 : Int) := ⟨_, rfl⟩
  have hupos : 0 < u := hu ▸ zpow_pos two_pos _
  rw [hmidpoint, ← hu]
  by_cases htop : BinaryFormat.double.exponent bits = 971
  · have hm : 2 * BinaryFormat.double.significand bits + 1 ≤ 2 ^ 54 - 3 := by omega
    have hmCast : 2 * (BinaryFormat.double.significand bits : ℚ) + 1 ≤ 2 ^ 54 - 3 := by
      rw [le_sub_iff_add_le]
      exact_mod_cast Nat.add_le_of_le_sub (by decide) hm
    have hpow : (2 : ℚ) ^ (971 : Int) = 2 * u := by
      rw [hu, ← zpow_one_add₀ two_ne_zero]
      rfl
    rw [htop, hpow]
    calc ((BinaryFormat.double.significand bits : ℚ) + 1 / 2) * (2 * u)
        = (2 * BinaryFormat.double.significand bits + 1) * u := by ring
      _ ≤ (2 ^ 54 - 3) * u := mul_le_mul_of_nonneg_right hmCast hupos.le
  · have hm : (BinaryFormat.double.significand bits : ℚ) ≤ 2 ^ 53 := by
      exact_mod_cast (Numeric.significand_lt bits).le
    have hpow : (2 : ℚ) ^ BinaryFormat.double.exponent bits ≤ u :=
      hu ▸ zpow_le_zpow_right₀ one_le_two (by omega)
    calc ((BinaryFormat.double.significand bits : ℚ) + 1 / 2) *
          2 ^ BinaryFormat.double.exponent bits
        ≤ (BinaryFormat.double.significand bits + 1 / 2) * u :=
          mul_le_mul_of_nonneg_left hpow (add_nonneg (Nat.cast_nonneg _) one_half_pos.le)
      _ ≤ (2 ^ 54 - 3) * u := mul_le_mul_of_nonneg_right (by linarith only [hm]) hupos.le

theorem digits_le_mostDigits (he : 0 < BinaryFormat.double.exponent bits)
    (hlt : bits + 1 < BinaryFormat.double.infinity) {k : Nat}
    (hk : (Numeric.shortest .double tie bits).exponent = k) :
    (Numeric.shortest .double tie bits).digits ≤ mostDigits k := by
  obtain ⟨hdigits, hvalue⟩ := Numeric.shortest_spec tie he (Nat.lt_of_succ_lt hlt)
  refine le_min ((Nat.le_div_iff_mul_le (Nat.pow_pos (by decide))).mpr ?_) hdigits
  have hbelow := hvalue.trans (half_unit_above_le he hlt)
  rw [Decimal.value, hk, zpow_natCast] at hbelow
  exact_mod_cast hbelow

/-- The digits of the greatest double are rounded back to it. -/
theorem shortest_greatest : Numeric.shortest .double .toEven (BinaryFormat.double.infinity - 1) =
    ⟨17976931348623157, 292⟩ := by
  decide +kernel

theorem isInf_greatest : (Numeric.double false
    (BinaryFormat.double.nearest 17976931348623157 1) * tenTo 292).isInf = false := by
  decide +kernel

/-- **The shortest decimal of a double above `2 ^ 53`** is scaled without overflow, by a power of
ten within reach. -/
theorem ofParts_shortest (negative : Bool) (he : 0 < BinaryFormat.double.exponent bits)
    (hfinite : bits < BinaryFormat.double.infinity)
    (hpos : 0 < (Numeric.shortest .double .toEven bits).digits) :
    (Numeric.shortest .double .toEven bits).exponent < 309 ∧
      ∃ n, ofParts negative (Numeric.shortest .double .toEven bits).digits
        (Numeric.shortest .double .toEven bits).exponent = .ok n := by
  by_cases hneg : (Numeric.shortest .double .toEven bits).exponent < 0
  · exact ⟨by omega, ofParts_of_neg negative _ hneg⟩
  obtain ⟨k, hk⟩ := Int.eq_ofNat_of_zero_le (not_lt.mp hneg)
  by_cases hgreatest : bits = BinaryFormat.double.infinity - 1
  · rw [hgreatest, shortest_greatest]
    exact ⟨by decide, ofParts_of_isInf negative (by decide) isInf_greatest⟩
  · have hlt : bits + 1 < BinaryFormat.double.infinity := by omega
    have hle := digits_le_mostDigits he hlt hk
    have hreach := lt_of_le_mostDigits hpos hle
    rw [hk]
    exact ⟨by omega, ofParts_of_isInf negative hreach (isInf_mul_tenTo hpos hle)⟩

end Shortest

end Darkroom.Json
