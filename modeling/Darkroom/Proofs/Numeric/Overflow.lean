import Darkroom.Proofs.Numeric.Nearest
import Mathlib

/-!
# Products of doubles that do not overflow

A double unpacks to a sign, a significand and an exponent. The product of two of them is the product
of their significands with all bits, cut to 53 bits and rounded to the nearest, and then packed
again; it is infinite when what is left does not fit. For two normal doubles that happens only from
the midpoint between the greatest double and the power of two after it on.

## Main results

* `exists_unpack_double` : the parts of a normal double.
* `isInf_double_mul` : products below the midpoint are finite.
-/

open Float.Model Float.Model.UnpackedFloat

namespace Darkroom.Numeric

/-! ### The parts of a double -/

theorem toNat_unpackMantissa (b : BitVec Format.binary64.numBits) :
    (unpackMantissa b).toNat = b.toNat % 2 ^ 52 := by
  simp [unpackMantissa]

theorem toNat_unpackExponent (b : BitVec Format.binary64.numBits) :
    (unpackExponent b).toNat = b.toNat / 2 ^ 52 % 2 ^ 11 := by
  simp [unpackExponent, Nat.shiftRight_eq_div_pow]

theorem toNat_implicit_append (b : BitVec 52) : (1#1 ++ b).toNat = 2 ^ 52 + b.toNat := by
  rw [BitVec.toNat_append, ← Nat.shiftLeft_add_eq_or_of_lt b.isLt]
  simp [Nat.shiftLeft_eq]

/-- Bits whose exponent part is neither the lowest nor the highest are those of a normal number. -/
theorem exists_unpack_eq {b : BitVec Format.binary64.numBits} {m : Nat} {e : Int}
    (hm : (unpackMantissa b).toNat + 2 ^ 52 = m) (he : ((unpackExponent b).toNat : Int) = e + 1075)
    (hlow : -1074 ≤ e) (hhigh : e ≤ 971) :
    ∃ s hpos, UnpackedFloat.unpack Format.binary64 b = .finite s m e hpos := by
  have htop : unpackExponent b ≠ -1#_ := by
    intro h
    have hones : (unpackExponent b).toNat = 2047 := congrArg BitVec.toNat h
    omega
  have hbottom : unpackExponent b ≠ 0#_ := by
    intro h
    have hzero : (unpackExponent b).toNat = 0 := congrArg BitVec.toNat h
    omega
  have hmantissa : (1#1 ++ unpackMantissa b).toNat = m := by
    rw [toNat_implicit_append, Nat.add_comm, hm]
  have hexponent : ((unpackExponent b).toNat : Int) -
      (Format.binary64.exponentBias + Format.binary64.mantissaBitsWithoutImplicit) = e := by
    have hbias : (Format.binary64.exponentBias : Int) +
        Format.binary64.mantissaBitsWithoutImplicit = 1075 := rfl
    omega
  refine ⟨Sign.ofBitVec (unpackSign b), by omega, ?_⟩
  rw [UnpackedFloat.unpack, if_neg htop, if_neg hbottom]
  simp only [hmantissa, hexponent]

/-- A normal number is packed into its parts. -/
theorem pack_normal {s : Sign} {m : Nat} {e : Int} {hpos : 0 < m}
    (hm : 2 ^ 52 ≤ m ∧ m < 2 ^ 53) (hhigh : e ≤ 971) :
    UnpackedFloat.pack Format.binary64 (.finite s m e hpos) =
      packComponents Format.binary64 s (BitVec.ofNat _ (e + 1075).toNat) (BitVec.ofNat _ m) := by
  have hbias : e + Format.binary64.exponentBias + Format.binary64.mantissaBitsWithoutImplicit =
      e + 1075 := Int.add_assoc e 1023 52
  have hfits : ¬ 2 ^ Format.binary64.exponentBits ≤ (e + 1075).toNat + 1 := by
    have hpow : 2 ^ Format.binary64.exponentBits = 2048 := rfl
    omega
  have hlog : m.log2 + 1 = Format.binary64.mantissaBits := by
    have hlog2 : m.log2 = 52 := (Nat.log2_eq_iff hpos.ne').mpr hm
    rw [hlog2]
    rfl
  rw [UnpackedFloat.pack]
  simp only [hbias, if_neg hfits, if_pos hlog]

/-- A normal number is the same after it has been packed. -/
theorem exists_unpack_pack_eq {s : Sign} {m : Nat} {e : Int} {hpos : 0 < m}
    (hm : 2 ^ 52 ≤ m ∧ m < 2 ^ 53) (hlow : -1074 ≤ e) (hhigh : e ≤ 971) :
    ∃ s' hpos', UnpackedFloat.unpack Format.binary64
      (UnpackedFloat.pack Format.binary64 (.finite s m e hpos)) = .finite s' m e hpos' := by
  rw [pack_normal hm hhigh]
  refine exists_unpack_eq ?_ ?_ hlow hhigh
  · rw [unpackMantissa_packComponents, BitVec.toNat_ofNat]
    change m % 2 ^ 52 + 2 ^ 52 = m
    omega
  · rw [unpackExponent_packComponents, BitVec.toNat_ofNat]
    change ((e + 1075).toNat % 2 ^ 11 : Nat) = e + 1075
    omega

/-- A normal double unpacks to the significand and the exponent of its magnitude bits. -/
theorem exists_unpack_double (negative : Bool) {bits : Nat} (hlow : 2 ^ 52 ≤ bits)
    (hhigh : bits < BinaryFormat.double.infinity) :
    ∃ s hpos, (double negative bits).toModel.unpack =
      .finite s (BinaryFormat.double.significand bits) (BinaryFormat.double.exponent bits)
        hpos := by
  obtain ⟨hsignificand, hexponent⟩ := normal_parts hlow
  rw [infinity_double] at hhigh
  let word : UInt64 := UInt64.ofNat (if negative then bits + 0x8000000000000000 else bits)
  have hword : word.toBitVec.toNat = if negative then bits + 0x8000000000000000 else bits := by
    refine Nat.mod_eq_of_lt ?_
    split_ifs <;> omega
  have hlowExponent : -1074 ≤ BinaryFormat.double.exponent bits := by omega
  have hhighExponent : BinaryFormat.double.exponent bits ≤ 971 := by omega
  have hunpack : ∃ s hpos, UnpackedFloat.unpack Format.binary64 word.toBitVec =
      .finite s (BinaryFormat.double.significand bits) (BinaryFormat.double.exponent bits)
        hpos := by
    refine exists_unpack_eq ?_ ?_ hlowExponent hhighExponent
    · rw [toNat_unpackMantissa, hword, hsignificand]
      split_ifs <;> omega
    · rw [toNat_unpackExponent, hword, hexponent]
      split_ifs <;> omega
  obtain ⟨s, hpos, hfinite⟩ := hunpack
  have hmodel : (double negative bits).toModel.unpack =
      UnpackedFloat.unpack Format.binary64 (UnpackedFloat.pack Format.binary64
        (UnpackedFloat.unpack Format.binary64 word.toBitVec)) := rfl
  rw [hmodel, hfinite]
  exact exists_unpack_pack_eq (by omega) hlowExponent hhighExponent

/-! ### Rounding -/

theorem mantissa_shiftRight (em : ExtendedMantissa) (n : Nat) :
    (em >>> n).mantissa = em.mantissa / 2 ^ n := by
  induction n with
  | zero => exact (Nat.div_one _).symm
  | succ n ih =>
    have hshift : (em >>> (n + 1)).mantissa = (em >>> n).mantissa / 2 := rfl
    rw [hshift, ih, Nat.div_div_eq_div_mul, Nat.pow_succ]

/-- Rounding after a shift adds at most a half. -/
theorem roundedMantissa_shiftRightOne_le (em : ExtendedMantissa) :
    2 * em.shiftRightOne.roundedMantissa ≤ em.mantissa + 1 := by
  obtain ⟨m, round, sticky⟩ := em
  have hparity := Nat.mod_two_eq_zero_or_one m
  cases hodd : m % 2 != 0 <;> cases hsticky : round || sticky <;>
    simp only [ExtendedMantissa.shiftRightOne, ExtendedMantissa.roundedMantissa,
      ExtendedMantissa.accuracy, Accuracy.roundToNearestEven, hodd, hsticky] <;>
    simp only [bne_iff_ne, ne_eq, bne_eq_false_iff_eq] at hodd <;> omega

/-- Only bits with the highest exponent part are those of an infinity. -/
theorem isInf_unpack {b : BitVec Format.binary64.numBits} (h : unpackExponent b ≠ -1#_) :
    (UnpackedFloat.unpack Format.binary64 b).isInf = false := by
  rw [UnpackedFloat.unpack, if_neg h]
  dsimp only
  split_ifs <;> rfl

theorem isInf_pack_finite {s : Sign} {m : Nat} {e : Int} {hpos : 0 < m} (he : e ≤ 971) :
    (Float.Model.pack (.finite s m e hpos)).isInf = false := by
  have hbias : e + Format.binary64.exponentBias + Format.binary64.mantissaBitsWithoutImplicit =
      e + 1075 := Int.add_assoc e 1023 52
  have hfits : ¬ 2 ^ Format.binary64.exponentBits ≤ (e + 1075).toNat + 1 := by
    have hpow : 2 ^ Format.binary64.exponentBits = 2048 := rfl
    omega
  refine isInf_unpack ?_
  change unpackExponent (UnpackedFloat.pack Format.binary64 (.finite s m e hpos)) ≠ -1#_
  rw [UnpackedFloat.pack]
  simp only [hbias, if_neg hfits]
  split_ifs
  · rw [unpackExponent_packComponents]
    intro h
    have hones : (e + 1075).toNat % 2 ^ 11 = 2047 := congrArg BitVec.toNat h
    omega
  · rw [unpackExponent_packComponents]
    decide

/-- The exponent that a number is rounded to. -/
theorem targetExponent_eq (m : Nat) (e : Int) :
    Format.binary64.targetExponent (totalExponent m e) = max (m.log2 + e - 52) (-1074) := by
  have hmin : Format.binary64.minExponent = -1074 := rfl
  have hbits : (Format.binary64.mantissaBits : Int) = 53 := rfl
  rw [Format.targetExponent, totalExponent, hmin, hbits]
  omega

/-- What is below the midpoint between the greatest double and the power of two after it, in whole
numbers. -/
theorem lt_of_lt_midpoint {m : Nat} {e : Int} (hm : 2 ^ 53 ≤ m)
    (hlt : (m : ℚ) * 2 ^ e < (2 ^ 54 - 1) * 2 ^ (970 : Int)) :
    m.log2 + e ≤ 1023 ∧ m < (2 ^ 54 - 1) * 2 ^ (970 - e).toNat := by
  have hlog : 53 ≤ m.log2 := (Nat.le_log2 (by omega)).mpr hm
  have hleading : m.log2 + e < 1024 := by
    have hpow : (2 : ℚ) ^ (m.log2 + e) < 2 ^ (1024 : Int) := by
      calc (2 : ℚ) ^ (m.log2 + e) = ((2 ^ m.log2 : Nat) : ℚ) * 2 ^ e := by
            rw [zpow_add₀ two_ne_zero, zpow_natCast]
            push_cast
            rfl
        _ ≤ (m : ℚ) * 2 ^ e := by
            gcongr
            exact Nat.log2_self_le (by omega)
        _ < (2 ^ 54 - 1) * 2 ^ (970 : Int) := hlt
        _ < 2 ^ (54 : Int) * 2 ^ (970 : Int) := by
            gcongr
            norm_num
        _ = 2 ^ (1024 : Int) := by rw [← zpow_add₀ two_ne_zero]; rfl
    exact (zpow_lt_zpow_iff_right₀ one_lt_two).mp hpow
  refine ⟨by omega, ?_⟩
  have hsplit : (2 : ℚ) ^ (970 : Int) = 2 ^ (970 - e).toNat * 2 ^ e := by
    rw [← zpow_natCast, ← zpow_add₀ two_ne_zero]
    congr 1
    omega
  rw [hsplit, ← mul_assoc] at hlt
  have hcast : (m : ℚ) < (2 ^ 54 - 1) * 2 ^ (970 - e).toNat :=
    lt_of_mul_lt_mul_right hlt (by positivity)
  have hnat : ((2 ^ 54 - 1 : Nat) : ℚ) = 2 ^ 54 - 1 := by norm_num
  rw [← hnat] at hcast
  exact_mod_cast hcast

/-- A number below that midpoint that loses bits keeps its leading bit below the power of two: the
bits that are left with a half added still fit. -/
theorem log2_roundedMantissa_le {m n : Nat} {e : Int}
    (hbound : m < (2 ^ 54 - 1) * 2 ^ (970 - e).toNat) (hn : n + e ≤ 970) :
    ((((⟨m, false, false⟩ : ExtendedMantissa) >>> n).shiftRightOne.roundedMantissa).log2 : Int) +
      (e + (n + 1 : Nat)) ≤ 1023 := by
  obtain ⟨shifted, hshifted⟩ :
      ∃ shifted, shifted = (⟨m, false, false⟩ : ExtendedMantissa) >>> n := ⟨_, rfl⟩
  obtain ⟨j, hj⟩ : ∃ j : Nat, (970 - e).toNat = j + n :=
    ⟨(970 - e).toNat - n, (Nat.sub_add_cancel (by omega)).symm⟩
  have hmantissa : shifted.mantissa < (2 ^ 54 - 1) * 2 ^ j := by
    have hquotient : shifted.mantissa = m / 2 ^ n := hshifted ▸ mantissa_shiftRight _ n
    rw [hquotient, Nat.div_lt_iff_lt_mul (Nat.two_pow_pos n), Nat.mul_assoc, ← Nat.pow_add, ← hj]
    exact hbound
  have hhalf := roundedMantissa_shiftRightOne_le shifted
  have hpow : 0 < 2 ^ j := Nat.two_pow_pos j
  have hfits : shifted.shiftRightOne.roundedMantissa < 2 ^ (53 + j) := by
    rw [Nat.pow_add]
    omega
  rw [← hshifted]
  by_cases hzero : shifted.shiftRightOne.roundedMantissa = 0
  · rw [hzero, Nat.log2_zero]
    omega
  · have hlog := (Nat.log2_lt hzero).mpr hfits
    omega

/-- A number that is large enough to lose bits is rounded to a finite double below that midpoint. -/
theorem isInf_pack_round {s : Sign} {m : Nat} {e : Int} (hm : 2 ^ 53 ≤ m)
    (hlt : (m : ℚ) * 2 ^ e < (2 ^ 54 - 1) * 2 ^ (970 : Int)) :
    (Float.Model.pack (roundWithAccuracy Format.binary64 s m e .exact)).isInf = false := by
  obtain ⟨hleading, hbound⟩ := lt_of_lt_midpoint hm hlt
  have hlog : 53 ≤ m.log2 := (Nat.le_log2 (by omega)).mpr hm
  obtain ⟨n, hn⟩ : ∃ n, (max (m.log2 + e - 52) (-1074) - e).toNat = n + 1 :=
    ⟨_, (Nat.succ_pred_eq_of_pos (by omega)).symm⟩
  have hrounded := log2_roundedMantissa_le hbound (n := n) (by omega)
  obtain ⟨once, honce⟩ : ∃ once,
      once = ((⟨m, false, false⟩ : ExtendedMantissa) >>> n).shiftRightOne := ⟨_, rfl⟩
  have hfirst : shiftToTargetExponent Format.binary64 m e .exact = (once, e + (n + 1 : Nat)) := by
    rw [shiftToTargetExponent, targetExponent_eq, shiftToExponent, hn, honce]
    rfl
  rw [← honce] at hrounded
  have hexponent : e + (n + 1 : Nat) + (max (once.roundedMantissa.log2 + (e + (n + 1 : Nat)) - 52)
      (-1074) - (e + (n + 1 : Nat))).toNat ≤ 971 := by
    omega
  rw [roundWithAccuracy, hfirst]
  dsimp only
  rw [shiftToTargetExponent, targetExponent_eq, shiftToExponent]
  dsimp only
  split_ifs
  · cases s <;> rfl
  · exact isInf_pack_finite hexponent

/-- **A product of two normal doubles does not overflow** below the midpoint between the greatest
double and the power of two after it. -/
theorem isInf_double_mul {a b : Nat} (negative negative' : Bool)
    (ha : 2 ^ 52 ≤ a ∧ a < BinaryFormat.double.infinity)
    (hb : 2 ^ 52 ≤ b ∧ b < BinaryFormat.double.infinity)
    (hlt : BinaryFormat.double.value a * BinaryFormat.double.value b <
      (2 ^ 54 - 1) * 2 ^ (970 : Int)) :
    (double negative a * double negative' b).isInf = false := by
  obtain ⟨s, hpos, hx⟩ := exists_unpack_double negative ha.1 ha.2
  obtain ⟨t, hpos', hy⟩ := exists_unpack_double negative' hb.1 hb.2
  have hmodel : (double negative a * double negative' b).isInf =
      (Float.Model.pack (UnpackedFloat.mul Format.binary64 (double negative a).toModel.unpack
        (double negative' b).toModel.unpack)).isInf := rfl
  rw [hmodel, hx, hy, UnpackedFloat.mul]
  refine isInf_pack_round ?_ ?_
  · have hm : 2 ^ 52 ≤ BinaryFormat.double.significand a := by
      rw [(normal_parts ha.1).1]
      exact Nat.le_add_left _ _
    have hn : 2 ^ 52 ≤ BinaryFormat.double.significand b := by
      rw [(normal_parts hb.1).1]
      exact Nat.le_add_left _ _
    calc 2 ^ 53 ≤ 2 ^ 52 * 2 ^ 52 := by norm_num
      _ ≤ BinaryFormat.double.significand a * BinaryFormat.double.significand b :=
        Nat.mul_le_mul hm hn
  · refine lt_of_eq_of_lt ?_ hlt
    rw [BinaryFormat.value, BinaryFormat.value, zpow_add₀ two_ne_zero]
    push_cast
    ring

end Darkroom.Numeric
