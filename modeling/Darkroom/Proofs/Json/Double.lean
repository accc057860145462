import Darkroom.Proofs.Json.Reader
import Darkroom.Proofs.Json.Scale

/-!
# Written doubles are read

Every finite double is written as a number that the reader takes, though not always for the same
double. Positional notation leaves room for a digit after the point in a significand of 64 bits, so
the digits are divided by a power of ten, which never fails; so does a negative exponent. Only
exponents from 16 on multiply. Then all digits of the shortest decimal fit into the significand, and
scaling it does not overflow.

A double that is not finite is written as `null`, and that is no number.

## Main definitions

* `reread` : the double that a written double is read as.

## Main results

* `readNumber_positional`, `readNumber_scientific` : the two notations.
* `exists_readAnyNumber_doubleText`, `reads_reread` : the doubles that are read.
-/

namespace Darkroom.Json

open Numeric (BinaryFormat)

/-! ### Digits -/

theorem digitValue_le {c : Char} (hc : c.isDigit = true) : Numeric.digitValue c ≤ 9 := by
  have hrange := (Char.isDigit_iff_toNat.mp hc).2
  have hnine : '9'.toNat = 57 := rfl
  have hzero : '0'.toNat = 48 := rfl
  rw [Numeric.digitValue]
  omega

theorem isDigit_of_mem_zeros (n : Nat) : ∀ d ∈ List.replicate n '0', d.isDigit = true := by
  intro d hd
  rw [List.eq_of_mem_replicate hd]
  rfl

theorem digitsValueFrom_lt {ds : List Char} (hds : ∀ c ∈ ds, c.isDigit = true) (n : Nat) :
    Numeric.digitsValueFrom n ds < (n + 1) * 10 ^ ds.length := by
  induction ds generalizing n with
  | nil =>
    rw [List.length_nil, Nat.pow_zero, Nat.mul_one]
    exact Nat.lt_succ_self n
  | cons c ds ih =>
    have hc : Numeric.digitValue c ≤ 9 := digitValue_le (hds c List.mem_cons_self)
    calc Numeric.digitsValueFrom n (c :: ds)
        = Numeric.digitsValueFrom (10 * n + Numeric.digitValue c) ds := rfl
      _ < (10 * n + Numeric.digitValue c + 1) * 10 ^ ds.length :=
        ih (fun d hd => hds d (List.mem_cons_of_mem _ hd)) _
      _ ≤ (n + 1) * 10 * 10 ^ ds.length := Nat.mul_le_mul_right _ (by omega)
      _ = (n + 1) * 10 ^ (c :: ds).length := by
        rw [List.length_cons, Nat.pow_succ']
        exact Nat.mul_assoc _ _ _

theorem takeWhile_digits {ds rest : List Char} (hds : ∀ c ∈ ds, c.isDigit = true)
    (hrest : ∀ c ∈ rest.head?, c.isDigit = false) :
    (ds ++ rest).takeWhile Char.isDigit = ds ∧ (ds ++ rest).dropWhile Char.isDigit = rest := by
  have hend : rest.takeWhile Char.isDigit = [] ∧ rest.dropWhile Char.isDigit = rest := by
    cases rest with
    | nil => exact ⟨rfl, rfl⟩
    | cons c rest =>
      have hc : c.isDigit = false := hrest c rfl
      constructor
      · rw [List.takeWhile_cons_of_neg (by simp [hc])]
      · rw [List.dropWhile_cons_of_neg (by simp [hc])]
  constructor
  · rw [List.takeWhile_append_of_pos hds, hend.1, List.append_nil]
  · rw [List.dropWhile_append_of_pos hds, hend.2]

/-- The digits that are left over are at most all of them. -/
theorem length_absorb_le (n : Nat) (ds : List Char) : (absorb n ds).2.length ≤ ds.length := by
  induction ds generalizing n with
  | nil => exact Nat.le_refl 0
  | cons d ds ih =>
    rw [absorb]
    split_ifs
    · exact (ih _).trans (Nat.le_succ _)
    · exact Nat.le_refl _

/-- After at most 16 digits there is room for another. -/
theorem length_absorb_lt {n : Nat} {ds : List Char} (hn : n < 10 ^ 16) (hne : ds ≠ [])
    (hds : ∀ c ∈ ds, c.isDigit = true) : (absorb n ds).2.length < ds.length := by
  cases ds with
  | nil => exact absurd rfl hne
  | cons d ds =>
    have hd : Numeric.digitValue d ≤ 9 := digitValue_le (hds d List.mem_cons_self)
    have hfits : 10 * n + Numeric.digitValue d < UInt64.size := by
      have hsize : UInt64.size = 18446744073709551616 := rfl
      omega
    rw [absorb, if_pos hfits]
    exact Nat.lt_succ_of_le (length_absorb_le _ ds)

/-! ### Positional notation -/

section Notation

variable {c : Char} {ds fraction rest : List Char} {n v : Nat} (negative : Bool)

/-- The digits before the point, if they fit. -/
theorem readNumber_whole (hds : ∀ d ∈ c :: ds, d.isDigit = true) (hzero : c = '0' → ds = [])
    (hvalue : Numeric.digitsValueFrom 0 (c :: ds) < UInt64.size)
    (hrest : ∀ d ∈ rest.head?, d.isDigit = false) :
    readNumber negative (c :: ds ++ rest) =
      readFraction negative (Numeric.digitsValueFrom 0 (c :: ds)) 0 rest := by
  obtain ⟨htake, hdrop⟩ := takeWhile_digits hds hrest
  have hc : c.isDigit = true := hds c List.mem_cons_self
  have hlead : ¬ (c = '0' ∧ (c :: ds).length > 1) := by
    rintro ⟨hc0, hlength⟩
    rw [hzero hc0] at hlength
    exact Nat.lt_irrefl 1 hlength
  rw [List.cons_append] at htake hdrop ⊢
  rw [readNumber, htake, hdrop]
  dsimp only
  rw [hc, if_neg (by decide), if_neg hlead, absorb_eq hvalue]
  rfl

/-- The digits after the point, as far as they fit. -/
theorem readFraction_digits (hne : fraction ≠ []) (hds : ∀ d ∈ fraction, d.isDigit = true)
    (hrest : ∀ d ∈ rest.head?, d.isDigit = false) :
    readFraction negative n 0 ('.' :: (fraction ++ rest)) =
      readScaled negative (absorb n fraction).1
        ((absorb n fraction).2.length - (fraction.length : Int)) rest := by
  obtain ⟨htake, hdrop⟩ := takeWhile_digits hds hrest
  have hempty : ¬ fraction.isEmpty = true := by
    rw [List.isEmpty_iff]
    exact hne
  have hexponent : ((0 : Nat) : Int) - ((fraction.length : Int) - (absorb n fraction).2.length) =
      (absorb n fraction).2.length - (fraction.length : Int) := by omega
  rw [readFraction, htake, hdrop]
  dsimp only
  rw [if_neg hempty, hexponent]

/-- **Positional notation** with at most 16 digits before the point is read. -/
theorem readNumber_positional (hds : ∀ d ∈ c :: ds, d.isDigit = true) (hzero : c = '0' → ds = [])
    (hlength : (c :: ds).length ≤ 16) (hne : fraction ≠ [])
    (hfraction : ∀ d ∈ fraction, d.isDigit = true) :
    ∃ x, readNumber negative (c :: ds ++ '.' :: fraction) = .ok (x, []) := by
  have hvalue : Numeric.digitsValueFrom 0 (c :: ds) < 10 ^ 16 := by
    calc Numeric.digitsValueFrom 0 (c :: ds) < (0 + 1) * 10 ^ (c :: ds).length :=
          digitsValueFrom_lt hds 0
      _ = 10 ^ (c :: ds).length := Nat.one_mul _
      _ ≤ 10 ^ 16 := Nat.pow_le_pow_right (by decide) hlength
  obtain ⟨n, hn⟩ : ∃ n, n = Numeric.digitsValueFrom 0 (c :: ds) := ⟨_, rfl⟩
  rw [← hn] at hvalue
  have htaken := length_absorb_lt hvalue hne hfraction
  have hneg : ((absorb n fraction).2.length : Int) - fraction.length < 0 := by omega
  obtain ⟨x, hx⟩ := ofParts_of_neg negative (absorb n fraction).1 hneg
  have hread : readFraction negative n 0 ('.' :: (fraction ++ [])) = _ :=
    readFraction_digits negative hne hfraction (by simp)
  rw [List.append_nil, readScaled_end (by simp), hx] at hread
  have hfits : Numeric.digitsValueFrom 0 (c :: ds) < UInt64.size := by
    rw [← hn]
    exact hvalue.trans (by decide)
  refine ⟨x, ?_⟩
  rw [readNumber_whole negative hds hzero hfits (by simp), ← hn, hread]
  rfl

/-! ### Exponents -/

/-- Digits after a point, or nothing. -/
def pointed : List Char → List Char
  | [] => []
  | d :: ds => '.' :: d :: ds

/-- **A digit with digits after the point** is read up to the exponent. -/
theorem readNumber_scientific (hds : ∀ d ∈ c :: ds, d.isDigit = true) :
    readNumber negative (c :: (pointed ds ++ 'e' :: rest)) =
      readExponent negative (absorb (Numeric.digitValue c) ds).1
        ((absorb (Numeric.digitValue c) ds).2.length - (ds.length : Int)) rest := by
  have hc : c.isDigit = true := hds c List.mem_cons_self
  have hone : Numeric.digitsValueFrom 0 [c] = Numeric.digitValue c := Nat.zero_add _
  have hvalue : Numeric.digitsValueFrom 0 [c] < UInt64.size := by
    have hnine := digitValue_le hc
    have hsize : UInt64.size = 18446744073709551616 := rfl
    omega
  have hwhole {rest : List Char} (hrest : ∀ d ∈ rest.head?, d.isDigit = false) :
      readNumber negative (c :: rest) = readFraction negative (Numeric.digitValue c) 0 rest := by
    have hsingle : ∀ d ∈ [c], d.isDigit = true := by simpa using hc
    have hread := readNumber_whole negative hsingle (fun _ => rfl) hvalue hrest
    rwa [hone] at hread
  cases ds with
  | nil =>
    rw [pointed, List.nil_append, hwhole (by simp)]
    rfl
  | cons d ds =>
    have hdigits : ∀ e ∈ d :: ds, e.isDigit = true := fun e he =>
      hds e (List.mem_cons_of_mem _ he)
    rw [pointed, List.cons_append, hwhole (by simp),
      readFraction_digits negative (List.cons_ne_nil d ds) hdigits (by simp)]
    rfl

/-- The digits of an exponent that ends the text. -/
theorem readExponentDigits_toDigits (significand : Nat) (e : Int) (down : Bool) :
    readExponentDigits negative significand e down (Nat.toDigits 10 v) =
      if v ≥ 0x80000000 then
        if significand ≠ 0 ∧ ¬ down then .error .malformed
        else .ok (.real (if negative then -0.0 else 0.0), [])
      else
        (ofParts negative significand (clampExponent (if down then e - v else e + v))).map
          fun x => (x, []) := by
  have hvalue := digitsValueFrom_toDigits v
  have htake := takeWhile_toDigits v
  have hdrop := dropWhile_toDigits v
  obtain ⟨d, ds, hdigits, hall⟩ := exists_toDigits_eq v
  have hd : d.isDigit = true := hall d List.mem_cons_self
  rw [hdigits] at htake hdrop hvalue ⊢
  rw [readExponentDigits, htake, hdrop, hvalue]
  dsimp only
  rw [hd, if_neg (by decide)]

end Notation

/-! ### The written form -/

section Written

variable {t : Nat} {point : Int}

/-- The number of digits, from the number. -/
theorem length_toString_le_iff {k : Nat} (hk : 0 < k) : (toString t).length ≤ k ↔ t < 10 ^ k := by
  rw [← String.length_toList, toList_toString]
  exact Nat.length_toDigits_le_iff (by decide) hk

/-- The leading digit of a decimal weighs no more than the decimal. -/
theorem leading_digit_le (ht : 0 < t) {e : Int} (hpoint : point = (toString t).length + e) :
    (10 : ℚ) ^ (point - 1) ≤ Numeric.Decimal.value ⟨t, e⟩ := by
  obtain ⟨k, hk⟩ : ∃ k, (toString t).length = k + 1 := by
    refine Nat.exists_eq_add_one_of_ne_zero ?_
    rw [← String.length_toList, toList_toString]
    exact Nat.length_toDigits_pos.ne'
  have hpow : 10 ^ k ≤ t := by
    by_cases hzero : k = 0
    · rw [hzero]
      exact ht
    · rw [← not_lt, ← length_toString_le_iff (Nat.pos_of_ne_zero hzero)]
      omega
  have hexponent : point - 1 = (k : Int) + e := by omega
  rw [hexponent, zpow_add₀ (by norm_num), zpow_natCast, Numeric.Decimal.value]
  gcongr
  exact_mod_cast hpow

/-! The digits of a number other than zero stand all after the point, all before it, or on both
sides of it. -/

section Positional

variable {c : Char} {ds : List Char}

theorem readNumber_point_first (negative : Bool) (zeros : Nat) (hne : ds ≠ [])
    (hall : ∀ d ∈ ds, d.isDigit = true) :
    ∃ x, readNumber negative ('0' :: '.' :: (List.replicate zeros '0' ++ ds)) = .ok (x, []) := by
  refine readNumber_positional negative (isDigit_of_mem_zeros 1) (fun _ => rfl) (by decide)
    (by simpa using fun _ => hne) fun d hd => ?_
  rcases List.mem_append.mp hd with hd | hd
  · exact isDigit_of_mem_zeros zeros d hd
  · exact hall d hd

theorem readNumber_point_last (negative : Bool) (zeros : Nat) (hc : c ≠ '0')
    (hall : ∀ d ∈ c :: ds, d.isDigit = true) (hlength : ds.length + zeros < 16) :
    ∃ x, readNumber negative (c :: (ds ++ List.replicate zeros '0') ++ '.' :: ['0']) =
      .ok (x, []) := by
  refine readNumber_positional negative (fun d hd => ?_) (fun h => absurd h hc) ?_
    (List.cons_ne_nil _ _) (isDigit_of_mem_zeros 1)
  · rw [← List.cons_append, List.mem_append] at hd
    rcases hd with hd | hd
    · exact hall d hd
    · exact isDigit_of_mem_zeros zeros d hd
  · rw [List.length_cons, List.length_append, List.length_replicate]
    omega

theorem readNumber_point_inside (negative : Bool) {n : Nat} (hc : c ≠ '0')
    (hall : ∀ d ∈ c :: ds, d.isDigit = true) (hlength : n < 16) (hrest : n < ds.length) :
    ∃ x, readNumber negative (c :: ds.take n ++ '.' :: ds.drop n) = .ok (x, []) := by
  refine readNumber_positional negative (fun d hd => hall d ?_) (fun h => absurd h hc) ?_ ?_ ?_
  · rw [← List.take_succ_cons] at hd
    exact List.mem_of_mem_take hd
  · rw [List.length_cons, List.length_take]
    omega
  · rw [ne_eq, List.drop_eq_nil_iff]
    omega
  · exact fun d hd => hall d (List.mem_cons_of_mem _ (List.mem_of_mem_drop hd))

end Positional

/-- A number is read in positional notation, with at most 16 digits before the point. -/
theorem readNumber_positionalText (negative : Bool) (ht : 0 < t) (hpoint : point ≤ 16) :
    ∃ x, readNumber negative (Numeric.Layout.positionalText true (toString t) point).toList =
      .ok (x, []) := by
  obtain ⟨c, ds, hdigits, hall⟩ := exists_toDigits_eq t
  have hc : c ≠ '0' := by
    rintro rfl
    exact head?_toDigits_ne ht (by rw [hdigits, List.head?_cons])
  have hlength : (toString t).length = ds.length + 1 := by
    rw [← String.length_toList, toList_toString, hdigits, List.length_cons]
  rw [Numeric.Layout.positionalText]
  by_cases hsmall : point ≤ 0
  · rw [if_pos hsmall]
    simp only [String.toList_append, String.toList_ofList, toList_toString, hdigits,
      List.append_assoc]
    exact readNumber_point_first negative (-point).toNat (List.cons_ne_nil c ds) hall
  rw [if_neg hsmall]
  by_cases hwhole : (toString t).length ≤ point
  · rw [if_pos hwhole, if_pos rfl, hlength]
    simp only [String.toList_append, String.toList_ofList, toList_toString, hdigits]
    exact readNumber_point_last negative (point - (ds.length + 1 : Nat)).toNat hc hall (by omega)
  · obtain ⟨n, hn⟩ : ∃ n : Nat, point.toNat = n + 1 := ⟨point.toNat - 1, by omega⟩
    rw [if_neg hwhole, hn]
    simp only [String.toList_append, String.toList_ofList, toList_toString, hdigits,
      List.take_succ_cons, List.drop_succ_cons, List.append_assoc]
    exact readNumber_point_inside negative hc hall (by omega) (by omega)

theorem toList_exponentText {c : Char} {ds : List Char} (hdigits : Nat.toDigits 10 t = c :: ds)
    (e : Int) : (Numeric.Layout.exponentText (toString t) e).toList =
      c :: (pointed ds ++ 'e' :: (if e < 0 then '-' else '+') :: Nat.toDigits 10 e.natAbs) := by
  have htake : ((toString t).toList.take 1) = [c] := by
    rw [toList_toString, hdigits]
    rfl
  have hdrop : ((toString t).toList.drop 1) = ds := by
    rw [toList_toString, hdigits]
    rfl
  have hpoint : (if (String.ofList ds).isEmpty then "" else "." ++ String.ofList ds).toList =
      pointed ds := by
    cases ds with
    | nil => rfl
    | cons d ds =>
      have hne : (String.ofList (d :: ds)).isEmpty = false := by simp
      rw [hne, if_neg Bool.false_ne_true]
      simp only [String.toList_append, String.toList_ofList]
      rfl
  have hletter : (if e < 0 then "e-" else "e+").toList = ['e', if e < 0 then '-' else '+'] := by
    split_ifs <;> rfl
  rw [Numeric.Layout.exponentText, htake, hdrop]
  simp only [String.toList_append, hpoint, hletter, toList_toString, String.toList_ofList,
    List.append_assoc]
  rfl

/-- Negative exponents are read, however far they reach. -/
theorem readNumber_exponentText_neg (negative : Bool) {e : Int} (he : e < 0) :
    ∃ x, readNumber negative (Numeric.Layout.exponentText (toString t) e).toList =
      .ok (x, []) := by
  obtain ⟨c, ds, hdigits, hall⟩ := exists_toDigits_eq t
  rw [toList_exponentText hdigits, if_pos he, readNumber_scientific negative hall, readExponent,
    readExponentDigits_toDigits]
  have hleft := length_absorb_le (Numeric.digitValue c) ds
  by_cases hlarge : e.natAbs ≥ 0x80000000
  · rw [if_pos hlarge, if_neg (by simp)]
    exact ⟨_, rfl⟩
  · have hneg : clampExponent (((absorb (Numeric.digitValue c) ds).2.length : Int) - ds.length -
        e.natAbs) < 0 := by
      rw [clampExponent]
      omega
    obtain ⟨x, hx⟩ := ofParts_of_neg negative (absorb (Numeric.digitValue c) ds).1 hneg
    rw [if_neg hlarge, if_pos rfl, hx]
    exact ⟨x, rfl⟩

/-- Other exponents are read if the digits fit into a significand that can be scaled. -/
theorem readNumber_exponentText (negative : Bool) (hfits : t < UInt64.size) {e : Int} (he : 0 ≤ e)
    (hsmall : e < 0x80000000)
    (hscaled : ∃ n, ofParts negative t (e + 1 - (toString t).length) = .ok n) :
    ∃ x, readNumber negative (Numeric.Layout.exponentText (toString t) e).toList =
      .ok (x, []) := by
  obtain ⟨c, ds, hdigits, hall⟩ := exists_toDigits_eq t
  have hlength : (toString t).length = ds.length + 1 := by
    rw [← String.length_toList, toList_toString, hdigits, List.length_cons]
  have hvalue : Numeric.digitsValueFrom (Numeric.digitValue c) ds = t := by
    have htoDigits := digitsValueFrom_toDigits t
    have hone : Numeric.digitsValueFrom 0 (c :: ds) =
        Numeric.digitsValueFrom (0 + Numeric.digitValue c) ds := rfl
    rwa [hdigits, hone, Nat.zero_add] at htoDigits
  have habsorb : absorb (Numeric.digitValue c) ds = (t, []) := by
    rw [absorb_eq (hvalue ▸ hfits), hvalue]
  have htotal : (([] : List Char).length : Int) - ds.length + e.natAbs =
      e + 1 - (toString t).length := by
    rw [hlength, List.length_nil]
    omega
  rw [toList_exponentText hdigits, if_neg (not_lt.mpr he), readNumber_scientific negative hall,
    habsorb]
  rw [readExponent, readExponentDigits_toDigits, if_neg (by omega), if_neg Bool.false_ne_true,
    htotal]
  by_cases hneg : e + 1 - (toString t).length < 0
  · have hclamp : clampExponent (e + 1 - (toString t).length) < 0 := by
      rw [clampExponent]
      omega
    obtain ⟨x, hx⟩ := ofParts_of_neg negative t hclamp
    rw [hx]
    exact ⟨x, rfl⟩
  · have hclamp : clampExponent (e + 1 - (toString t).length) = e + 1 - (toString t).length := by
      rw [clampExponent]
      omega
    obtain ⟨x, hx⟩ := hscaled
    rw [hclamp, hx]
    exact ⟨x, rfl⟩

/-- A number with a minus sign before it, or none, is read with that sign. -/
theorem readAnyNumber_signed {negative : Bool} {s r : List Char} {n : Number}
    (h : readNumber negative s = .ok (n, r)) (depth : Nat) :
    readAnyNumber depth ((if negative then "-" else "").toList ++ s) = .ok (n, r) := by
  cases negative with
  | true => exact h
  | false =>
    cases s with
    | nil => cases h
    | cons c s =>
      have hc : c.isDigit = true := by
        by_contra hc
        rw [readNumber, if_pos (by simpa using hc)] at h
        cases h
      have hminus : c ≠ '-' := by
        rintro rfl
        exact absurd hc (by decide)
      change readAnyNumber depth (c :: s) = .ok (n, r)
      rw [readAnyNumber, skipSpace_cons (isSpace_of_isDigit hc)]
      dsimp only
      rw [if_neg hminus, if_pos hc, h]

/-- The notation of a finite double. -/
theorem doubleText_of_finite {x : Float} {e : Int}
    (hx : Numeric.magnitude x < BinaryFormat.double.infinity)
    (hshortest : Numeric.shortest .double .toEven (Numeric.magnitude x) = ⟨t, e⟩)
    (hpoint : point = (toString t).length + e) :
    doubleText x = (if Numeric.isNegative x then "-" else "") ++
      if t = 0 then "0.0"
      else if -5 ≤ point - 1 && point - 1 ≤ 15 then
        Numeric.Layout.positionalText true (toString t) point
      else Numeric.Layout.exponentText (toString t) (point - 1) := by
  have htie : doubleLayout.tie = .toEven := rfl
  rw [doubleText, Numeric.Layout.text, if_neg (not_lt.mpr hx.le), if_neg hx.ne]
  dsimp only
  rw [htie, hshortest, hpoint]
  by_cases hzero : t = 0
  · rw [if_pos hzero, if_pos hzero]
    rfl
  · rw [if_neg hzero, if_neg hzero]
    rfl

/-- The shortest decimal of a finite double is read in the notation that it is written in. -/
theorem readNumber_shortest (negative : Bool) {bits : Nat} {e : Int}
    (hfinite : bits < BinaryFormat.double.infinity) (ht : 0 < t)
    (hshortest : Numeric.shortest .double .toEven bits = ⟨t, e⟩)
    (hpoint : point = (toString t).length + e) :
    ∃ x, readNumber negative (if -5 ≤ point - 1 && point - 1 ≤ 15 then
        Numeric.Layout.positionalText true (toString t) point
      else Numeric.Layout.exponentText (toString t) (point - 1)).toList = .ok (x, []) := by
  split_ifs with hrange
  · have hhigh : point - 1 ≤ 15 := of_decide_eq_true (Bool.and_eq_true_iff.mp hrange).2
    exact readNumber_positionalText negative ht (by omega)
  by_cases hneg : point - 1 < 0
  · exact readNumber_exponentText_neg negative hneg
  have hlarge : 15 < point - 1 := by
    by_contra hsmall
    have hlow : -5 ≤ point - 1 := by omega
    exact hrange (Bool.and_eq_true_iff.mpr ⟨decide_eq_true hlow, decide_eq_true (by omega)⟩)
  -- The leading digit weighs more than a significand can, so the double has twos to spare.
  have hexponent : 0 < BinaryFormat.double.exponent bits := by
    by_contra hsmall
    have hvalue := Numeric.shortest_value_le_of_exponent .toEven (not_lt.mp hsmall)
    rw [hshortest] at hvalue
    have hlow : (10 : ℚ) ^ (16 : Int) ≤ 10 ^ (point - 1) :=
      zpow_le_zpow_right₀ (by norm_num) (by omega)
    have hsignificand : (2 : ℚ) ^ 53 < 10 ^ (16 : Int) := by norm_num
    have hleading := leading_digit_le ht hpoint
    linarith
  obtain ⟨hdigits, -⟩ := Numeric.shortest_spec .toEven hexponent hfinite
  obtain ⟨hreach, hscaled⟩ := ofParts_shortest negative hexponent hfinite
    (by rw [hshortest]; exact ht)
  rw [hshortest] at hdigits hreach hscaled
  dsimp only at hdigits hreach
  have hlength : (toString t).length ≤ 19 :=
    (length_toString_le_iff (by decide)).mpr (hdigits.trans_lt (by decide))
  have htotal : point - 1 + 1 - (toString t).length = e := by omega
  refine readNumber_exponentText negative (hdigits.trans_lt (by decide)) (not_lt.mp hneg)
    (by omega) ?_
  rw [htotal]
  exact hscaled

/-- **Every finite double is written as a number that is read.** -/
theorem exists_readAnyNumber_doubleText {x : Float}
    (hx : Numeric.magnitude x < BinaryFormat.double.infinity) :
    ∃ n, readAnyNumber nestingLimit (doubleText x).toList = .ok (n, []) := by
  obtain ⟨t, e, hshortest⟩ : ∃ t e,
      Numeric.shortest .double .toEven (Numeric.magnitude x) = ⟨t, e⟩ := ⟨_, _, rfl⟩
  rw [doubleText_of_finite hx hshortest rfl, String.toList_append]
  by_cases hzero : t = 0
  · rw [if_pos hzero]
    obtain ⟨n, hn⟩ := readNumber_positional (Numeric.isNegative x) (isDigit_of_mem_zeros 1)
      (fun _ => rfl) (by decide) (List.cons_ne_nil _ _) (isDigit_of_mem_zeros 1)
    exact ⟨n, readAnyNumber_signed hn _⟩
  · rw [if_neg hzero]
    obtain ⟨n, hn⟩ := readNumber_shortest (Numeric.isNegative x) hx (Nat.pos_of_ne_zero hzero)
      hshortest rfl
    exact ⟨n, readAnyNumber_signed hn _⟩

end Written

/-- What a double is read as once it has been written. Scaling the digits rounds more than once, so
a finite double may come back as another one near it. -/
def reread (x : Float) : Float :=
  match readDouble nestingLimit (doubleText x).toList with
  | .ok (y, _) => y
  | .error _ => x

theorem reads_reread {x : Float} (hx : Numeric.magnitude x < BinaryFormat.double.infinity) :
    Reads readDouble 0 (.number (doubleText x)) (reread x) := by
  obtain ⟨n, hn⟩ := exists_readAnyNumber_doubleText hx
  have hreread : reread x = n.toDouble := by
    rw [reread, readDouble, hn]
    rfl
  intro depth hdepth level s rest hrest hs
  rw [readDouble, reads_anyNumber hn depth hdepth level s rest hrest hs, hreread]
  rfl

end Darkroom.Json
