import Darkroom.Numeric.Decimal
import Darkroom.Proofs.Numeric.Nearest
import Mathlib.Tactic.Positivity

/-!
# How far a shortest decimal is from its number

The digits of a double are taken from the two decimals around it, for one length after another until
one of them lies nearer to the double than to its neighbours. Such a decimal is at most half a unit
of the last place above the double. For a double above `2 ^ 53` at most 18 digits are needed:
decimals of that length are less than a quarter of a unit apart, so the one just below the double is
near enough.

## Main definitions

* `Decimal.value` : the number that a decimal stands for.
* `readsBack` : decimals that are nearer to a number than to its neighbours.

## Main results

* `digitCount_spec` : the number of digits before the point.
* `nearestOfLength_value_le`, `nearestOfLength_digits_le`, `isSome_nearestOfLength_of_close` :
  the decimals of a given length.
* `shortest_value_le_of_exponent`, `shortest_spec` : the shortest decimal.
-/

namespace Darkroom.Numeric

/-- The number that a decimal stands for. -/
def Decimal.value (d : Decimal) : ℚ := d.digits * 10 ^ d.exponent

/-! ### Trailing zeros -/

/-- Dropping trailing zeros keeps the number. -/
theorem Decimal.trim_spec (fuel : Nat) (d : Decimal) :
    (trim fuel d).value = d.value ∧ (trim fuel d).digits ≤ d.digits := by
  induction fuel generalizing d with
  | zero => exact ⟨rfl, Nat.le_refl _⟩
  | succ fuel ih =>
    rw [trim]
    split_ifs with hzero
    · obtain ⟨hvalue, hdigits⟩ := ih ⟨d.digits / 10, d.exponent + 1⟩
      refine ⟨hvalue.trans ?_, hdigits.trans (Nat.div_le_self _ _)⟩
      have hsplit : (d.digits : ℚ) = (d.digits / 10 : Nat) * 10 := by
        exact_mod_cast (Nat.div_mul_cancel (Nat.dvd_of_mod_eq_zero hzero.2)).symm
      rw [value, value, hsplit, zpow_add_one₀ (by norm_num)]
      ring
    · exact ⟨rfl, Nat.le_refl _⟩

/-! ### Ratios of powers -/

theorem zpow_toNat {x : ℚ} (hx : x ≠ 0) (n : Int) : x ^ n.toNat = x ^ (-n).toNat * x ^ n := by
  rw [← zpow_natCast, ← zpow_natCast, ← zpow_add₀ hx]
  congr 1
  omega

theorem powerRatio_spec {twos tens : Int} {num den : Nat} (h : powerRatio twos tens = (num, den)) :
    0 < num ∧ 0 < den ∧ (num : ℚ) * 10 ^ tens = den * 2 ^ twos := by
  obtain ⟨rfl, rfl⟩ := Prod.mk.inj h
  refine ⟨Nat.mul_pos ?_ ?_, Nat.mul_pos ?_ ?_, ?_⟩
  · exact Nat.two_pow_pos _
  · exact Nat.pow_pos (by decide)
  · exact Nat.two_pow_pos _
  · exact Nat.pow_pos (by decide)
  · have htwos := zpow_toNat (x := 2) (by norm_num) twos
    have htens := zpow_toNat (x := 10) (by norm_num) tens
    simp only [Nat.pow_eq]
    push_cast
    rw [htwos, htens]
    ring

/-- Parts of size `10 ^ tens` and parts of size `2 ^ twos` are compared as whole numbers. -/
theorem powerRatio_le_iff {twos tens : Int} {num den : Nat} (h : powerRatio twos tens = (num, den))
    (a b : Nat) : a * den ≤ b * num ↔ (a : ℚ) * 10 ^ tens ≤ b * 2 ^ twos := by
  obtain ⟨-, hden, hratio⟩ := powerRatio_spec h
  have hdenCast : (0 : ℚ) < den := by exact_mod_cast hden
  have hpow : (0 : ℚ) < 10 ^ tens := by positivity
  calc a * den ≤ b * num ↔ (a : ℚ) * den ≤ b * num := by exact_mod_cast Iff.rfl
    _ ↔ (a : ℚ) * den * 10 ^ tens ≤ b * num * 10 ^ tens := (mul_le_mul_iff_left₀ hpow).symm
    _ ↔ (a : ℚ) * 10 ^ tens * den ≤ b * 2 ^ twos * den := by
        rw [mul_assoc (b : ℚ), hratio]
        ring_nf
    _ ↔ (a : ℚ) * 10 ^ tens ≤ b * 2 ^ twos := mul_le_mul_iff_left₀ hdenCast

/-! ### The number of digits before the point -/

/-- The logarithm of two, cut to five places, gives the number of digits to within one. -/
theorem logarithm_of_two : ∀ l : Nat, l < 1024 →
    10 ^ (l * 30103 / 100000) ≤ 10 * 2 ^ l ∧ 2 ^ (l + 1) ≤ 10 ^ (l * 30103 / 100000 + 2) := by
  decide +kernel

theorem digitCount_spec {m : Nat} {e : Int} (hm : 0 < m) (hlow : 0 ≤ m.log2 + e)
    (hhigh : m.log2 + e < 1024) :
    (10 : ℚ) ^ (digitCount m e - 1) ≤ m * 2 ^ e ∧ (m : ℚ) * 2 ^ e < 10 ^ digitCount m e := by
  obtain ⟨l, hl⟩ : ∃ l : Nat, (m.log2 : Int) + e = l := ⟨_, (Int.toNat_of_nonneg hlow).symm⟩
  obtain ⟨guess, hguess⟩ : ∃ guess : Nat, guess = l * 30103 / 100000 := ⟨_, rfl⟩
  have hguessInt : ((m.log2 : Int) + e) * 30103 / 100000 = guess := by omega
  obtain ⟨hbelow, habove⟩ := logarithm_of_two l (by omega)
  rw [← hguess] at hbelow habove
  have hvalueLow : (2 : ℚ) ^ l ≤ m * 2 ^ e := by
    rw [← zpow_natCast, ← hl, zpow_add₀ two_ne_zero, zpow_natCast]
    gcongr
    exact_mod_cast Nat.log2_self_le hm.ne'
  have hvalueHigh : (m : ℚ) * 2 ^ e < 2 ^ (l + 1) := by
    rw [pow_succ, ← zpow_natCast 2 l, ← hl, zpow_add₀ two_ne_zero, zpow_natCast, mul_right_comm,
      ← pow_succ]
    gcongr
    exact_mod_cast Nat.lt_log2_self
  have hbelowCast : (10 : ℚ) ^ guess ≤ 10 * 2 ^ l := by exact_mod_cast hbelow
  have haboveCast : (2 : ℚ) ^ (l + 1) ≤ 10 ^ (guess + 2) := by exact_mod_cast habove
  have hreaches (k : Int) : (m * (powerRatio e k).1 ≥ (powerRatio e k).2) ↔
      (10 : ℚ) ^ k ≤ m * 2 ^ e := by
    have hratio := powerRatio_le_iff (rfl : powerRatio e k = _) 1 m
    rw [Nat.one_mul, Nat.cast_one, one_mul] at hratio
    exact hratio
  unfold digitCount
  dsimp only
  rw [hguessInt]
  simp only [decide_eq_true_eq, hreaches]
  split_ifs with hmore hfits
  · rw [add_sub_assoc]
    exact ⟨hmore, hvalueHigh.trans_le (by exact_mod_cast haboveCast)⟩
  · rw [add_sub_cancel_right]
    exact ⟨hfits, not_le.mp hmore⟩
  · refine ⟨?_, not_le.mp hfits⟩
    rw [zpow_sub_one₀ (by norm_num), zpow_natCast]
    linarith

/-! ### Decimals of a given length -/

/-- Whether `x` parts of size `den / num` are nearer to `m` than to its neighbours. -/
def readsBack (m gap num den x : Nat) : Bool :=
  if m % 2 = 0 then (4 * m - gap) * num ≤ 4 * x * den && 4 * x * den ≤ (4 * m + 2) * num
  else (4 * m - gap) * num < 4 * x * den && 4 * x * den < (4 * m + 2) * num

/-- Whether `t + 1` of these parts are taken rather than `t`, if both read back. -/
def takesUpper (tie : Tie) (m num den t : Nat) : Bool :=
  let below := m * num - t * den
  let above := (t + 1) * den - m * num
  above < below || (above == below && (tie == .up || t % 2 == 1))

section OfLength

variable {m gap num den : Nat} {e point : Int} {tie : Tie} {length : Nat}

/-- The two decimals of a length around a number, and which of them is taken. -/
theorem nearestOfLength_eq (hratio : powerRatio e (point - length) = (num, den)) {t : Nat}
    (ht : t = m * num / den) :
    nearestOfLength m e gap tie point length =
      if readsBack m gap num den t && readsBack m gap num den (t + 1) then
        some ⟨if takesUpper tie m num den t then t + 1 else t, point - length⟩
      else if readsBack m gap num den t then some ⟨t, point - length⟩
      else if readsBack m gap num den (t + 1) then some ⟨t + 1, point - length⟩
      else none := by
  unfold nearestOfLength
  dsimp only
  rw [hratio, ht]
  rfl

/-- What is written is one of these two decimals, and reads back. -/
theorem nearestOfLength_eq_some (hratio : powerRatio e (point - length) = (num, den)) {d : Decimal}
    (h : nearestOfLength m e gap tie point length = some d) :
    d.exponent = point - length ∧ d.digits ≤ m * num / den + 1 ∧
      readsBack m gap num den d.digits = true := by
  obtain ⟨t, ht⟩ : ∃ t, t = m * num / den := ⟨_, rfl⟩
  rw [nearestOfLength_eq hratio ht] at h
  rw [← ht]
  split_ifs at h with hboth hupper hbelow habove
  · cases h
    exact ⟨rfl, Nat.le_refl _, (Bool.and_eq_true_iff.mp hboth).2⟩
  · cases h
    exact ⟨rfl, Nat.le_succ _, (Bool.and_eq_true_iff.mp hboth).1⟩
  · cases h
    exact ⟨rfl, Nat.le_succ _, hbelow⟩
  · cases h
    exact ⟨rfl, Nat.le_refl _, habove⟩

/-- If the decimal just below the number reads back, one of that length is found. -/
theorem isSome_nearestOfLength (hratio : powerRatio e (point - length) = (num, den))
    (h : readsBack m gap num den (m * num / den) = true) :
    (nearestOfLength m e gap tie point length).isSome := by
  rw [nearestOfLength_eq hratio rfl, if_pos h]
  split_ifs <;> rfl

theorem readsBack_le {x : Nat} (h : readsBack m gap num den x = true) :
    4 * x * den ≤ (4 * m + 2) * num := by
  unfold readsBack at h
  split_ifs at h
  · exact of_decide_eq_true (Bool.and_eq_true_iff.mp h).2
  · exact (of_decide_eq_true (Bool.and_eq_true_iff.mp h).2).le

theorem readsBack_of_lt {x : Nat} (hnum : 0 < num) (hlow : (4 * m - gap) * num < 4 * x * den)
    (hle : x * den ≤ m * num) : readsBack m gap num den x = true := by
  have hhigh : 4 * x * den < (4 * m + 2) * num := by
    rw [Nat.add_mul, Nat.mul_assoc, Nat.mul_assoc]
    omega
  unfold readsBack
  split_ifs
  · exact Bool.and_eq_true_iff.mpr ⟨decide_eq_true hlow.le, decide_eq_true hhigh.le⟩
  · exact Bool.and_eq_true_iff.mpr ⟨decide_eq_true hlow, decide_eq_true hhigh⟩

/-- A decimal that is written is at most half a unit of the last place above the number. -/
theorem nearestOfLength_value_le {d : Decimal}
    (h : nearestOfLength m e gap tie point length = some d) :
    d.value ≤ (m + 1 / 2) * 2 ^ e := by
  obtain ⟨⟨num, den⟩, hratio⟩ : ∃ ratio, powerRatio e (point - length) = ratio := ⟨_, rfl⟩
  obtain ⟨hexponent, -, hreads⟩ := nearestOfLength_eq_some hratio h
  have hvalue := (powerRatio_le_iff hratio (4 * d.digits) (4 * m + 2)).mp (readsBack_le hreads)
  push_cast at hvalue
  rw [Decimal.value, hexponent]
  linarith

/-- A decimal that is written has no more digits than its length, unless it is rounded up to the
next power of ten. -/
theorem nearestOfLength_digits_le {d : Decimal} (hpoint : (m : ℚ) * 2 ^ e < 10 ^ point)
    (h : nearestOfLength m e gap tie point length = some d) : d.digits ≤ 10 ^ length := by
  obtain ⟨⟨num, den⟩, hratio⟩ : ∃ ratio, powerRatio e (point - length) = ratio := ⟨_, rfl⟩
  obtain ⟨-, hdigits, -⟩ := nearestOfLength_eq_some hratio h
  have hfloor : ((m * num / den : Nat) : ℚ) * 10 ^ (point - (length : Int)) ≤ m * 2 ^ e :=
    (powerRatio_le_iff hratio _ m).mp (Nat.div_mul_le_self _ _)
  have hsplit : (10 : ℚ) ^ point = 10 ^ length * 10 ^ (point - (length : Int)) := by
    rw [← zpow_natCast, ← zpow_add₀ (by norm_num)]
    congr 1
    omega
  have hlt : ((m * num / den : Nat) : ℚ) < 10 ^ length := by
    rw [hsplit] at hpoint
    exact lt_of_mul_lt_mul_right (hfloor.trans_lt hpoint) (by positivity)
  have hfloorDigits : m * num / den < 10 ^ length := by exact_mod_cast hlt
  omega

/-- Decimals that lie no further apart than a quarter of a unit of the last place are not missed. -/
theorem isSome_nearestOfLength_of_close (hm : 0 < m) (hgap : 0 < gap)
    (hclose : 4 * (10 : ℚ) ^ (point - (length : Int)) ≤ 2 ^ e) :
    (nearestOfLength m e gap tie point length).isSome := by
  obtain ⟨⟨num, den⟩, hratio⟩ : ∃ ratio, powerRatio e (point - length) = ratio := ⟨_, rfl⟩
  obtain ⟨hnum, hden, -⟩ := powerRatio_spec hratio
  have hparts : 4 * den ≤ 1 * num := by
    rw [powerRatio_le_iff hratio]
    push_cast
    rwa [one_mul]
  have hnext : m * num < (m * num / den + 1) * den :=
    Nat.lt_mul_of_div_lt (Nat.lt_succ_self _) hden
  have hlow : (4 * m - gap) * num + num ≤ 4 * (m * num) := by
    calc (4 * m - gap) * num + num = (4 * m - gap + 1) * num := (Nat.succ_mul _ _).symm
      _ ≤ 4 * m * num := Nat.mul_le_mul_right num (by omega)
      _ = 4 * (m * num) := Nat.mul_assoc 4 m num
  refine isSome_nearestOfLength hratio (readsBack_of_lt hnum ?_ (Nat.div_mul_le_self _ _))
  rw [Nat.add_mul] at hnext
  rw [Nat.mul_assoc]
  omega

/-- Eighteen digits are always enough. -/
theorem isSome_nearestOfLength_eighteen (tie : Tie) (hm : 0 < m) (hlt : m < 2 ^ 53) (hgap : 0 < gap)
    (hpoint : (10 : ℚ) ^ (point - 1) ≤ m * 2 ^ e) :
    (nearestOfLength m e gap tie point 18).isSome := by
  refine isSome_nearestOfLength_of_close hm hgap ?_
  have hexponent : point - (18 : Nat) = (point - 1) - 17 := by omega
  have hmCast : (m : ℚ) ≤ 2 ^ 53 := by exact_mod_cast hlt.le
  calc 4 * (10 : ℚ) ^ (point - (18 : Nat)) = 4 / 10 ^ 17 * 10 ^ (point - 1) := by
        rw [hexponent, zpow_sub₀ (by norm_num)]
        norm_num
        ring
    _ ≤ 4 / 10 ^ 17 * (m * 2 ^ e) := by gcongr
    _ ≤ 4 / 10 ^ 17 * (2 ^ 53 * 2 ^ e) := by gcongr
    _ = (4 * 2 ^ 53 / 10 ^ 17) * 2 ^ e := by ring
    _ ≤ 1 * 2 ^ e := by
        gcongr
        norm_num
    _ = 2 ^ e := one_mul _

end OfLength

/-! ### The shortest decimal -/

section Shortest

variable {bits : Nat}

/-- The first decimal that is found is written, without its trailing zeros. -/
theorem shortest_eq (tie : Tie) {f : BinaryFormat} (hm : f.significand bits ≠ 0) :
    ∃ gap found, 0 < gap ∧
      found = (List.range 18).findSome? (fun n => nearestOfLength (f.significand bits)
        (f.exponent bits) gap tie (digitCount (f.significand bits) (f.exponent bits)) (n + 1)) ∧
      shortest f tie bits =
        Decimal.trim 20 (found.getD ⟨f.significand bits, f.exponent bits⟩) := by
  let unit := Nat.pow 2 (f.precision - 1)
  refine ⟨if f.significand bits = unit ∧ f.exponent bits > f.minExponent then 1 else 2, _, ?_, rfl,
    ?_⟩
  · split_ifs <;> decide
  · unfold shortest
    dsimp only
    rw [if_neg hm]

theorem significand_lt (bits : Nat) : BinaryFormat.double.significand bits < 2 ^ 53 := by
  change (if bits / 2 ^ 52 = 0 then bits else bits % 2 ^ 52 + 2 ^ 52) < 2 ^ 53
  split_ifs <;> omega

/-- The shortest decimal of a double whose last bit weighs at most one is not above the bound of
significands. -/
theorem shortest_value_le_of_exponent (tie : Tie) (he : BinaryFormat.double.exponent bits ≤ 0) :
    (shortest .double tie bits).value ≤ 2 ^ 53 := by
  by_cases hm : BinaryFormat.double.significand bits = 0
  · have hzero : shortest .double tie bits = ⟨0, 0⟩ := if_pos hm
    rw [hzero, Decimal.value]
    norm_num
  obtain ⟨gap, found, -, hfound, hshortest⟩ := shortest_eq tie hm
  rw [hshortest, (Decimal.trim_spec _ _).1]
  have hsignificand : (BinaryFormat.double.significand bits : ℚ) + 1 ≤ 2 ^ 53 := by
    exact_mod_cast significand_lt bits
  cases found with
  | none =>
    have hpow : (10 : ℚ) ^ BinaryFormat.double.exponent bits ≤ 1 :=
      zpow_le_one_of_nonpos₀ (by norm_num) he
    rw [Option.getD_none, Decimal.value]
    calc (BinaryFormat.double.significand bits : ℚ) * 10 ^ BinaryFormat.double.exponent bits
        ≤ BinaryFormat.double.significand bits * 1 := by gcongr
      _ ≤ 2 ^ 53 := by linarith
  | some d =>
    obtain ⟨n, -, hd⟩ := List.exists_of_findSome?_eq_some hfound.symm
    have hpow : (2 : ℚ) ^ BinaryFormat.double.exponent bits ≤ 1 :=
      zpow_le_one_of_nonpos₀ (by norm_num) he
    calc d.value ≤ (BinaryFormat.double.significand bits + 1 / 2) *
          2 ^ BinaryFormat.double.exponent bits := nearestOfLength_value_le hd
      _ ≤ (BinaryFormat.double.significand bits + 1 / 2) * 1 := by gcongr
      _ ≤ 2 ^ 53 := by linarith

/-- **The shortest decimal of a double above `2 ^ 53`** has at most 18 digits, and is at most half a
unit of the last place above the number. -/
theorem shortest_spec (tie : Tie) (he : 0 < BinaryFormat.double.exponent bits)
    (hfinite : bits < BinaryFormat.double.infinity) :
    (shortest .double tie bits).digits ≤ 10 ^ 18 ∧
      (shortest .double tie bits).value ≤ (BinaryFormat.double.significand bits + 1 / 2) *
        2 ^ BinaryFormat.double.exponent bits := by
  obtain ⟨hsignificand, hexponent⟩ := normal_parts (normal_of_exponent_pos he)
  rw [infinity_double] at hfinite
  have hm : 2 ^ 52 ≤ BinaryFormat.double.significand bits := by omega
  have hpos : 0 < BinaryFormat.double.significand bits := Nat.lt_of_lt_of_le (by decide) hm
  have hlog : (BinaryFormat.double.significand bits).log2 = 52 :=
    (Nat.log2_eq_iff hpos.ne').mpr ⟨hm, significand_lt bits⟩
  have hbelow : 0 ≤ ((BinaryFormat.double.significand bits).log2 : Int) +
      BinaryFormat.double.exponent bits := by omega
  have habove : ((BinaryFormat.double.significand bits).log2 : Int) +
      BinaryFormat.double.exponent bits < 1024 := by omega
  obtain ⟨hlow, hhigh⟩ := digitCount_spec hpos hbelow habove
  obtain ⟨gap, found, hgap, hfound, hshortest⟩ := shortest_eq tie hpos.ne'
  cases found with
  | none =>
    have hmissed := List.findSome?_eq_none_iff.mp hfound.symm 17 (by decide)
    have hsome := isSome_nearestOfLength_eighteen tie hpos (significand_lt bits) hgap hlow
    rw [hmissed] at hsome
    exact absurd hsome Bool.false_ne_true
  | some d =>
    obtain ⟨n, hn, hd⟩ := List.exists_of_findSome?_eq_some hfound.symm
    obtain ⟨hvalue, hdigits⟩ := Decimal.trim_spec 20 d
    rw [hshortest, Option.getD_some, hvalue]
    refine ⟨hdigits.trans ((nearestOfLength_digits_le hhigh hd).trans ?_),
      nearestOfLength_value_le hd⟩
    exact Nat.pow_le_pow_right (by decide) (Nat.succ_le_of_lt (List.mem_range.mp hn))

end Shortest

end Darkroom.Numeric
