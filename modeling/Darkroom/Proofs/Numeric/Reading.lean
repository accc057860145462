import Darkroom.Numeric.Reading
import Mathlib.Data.Nat.Digits.Defs
import Mathlib.Tactic.Common
import Mathlib.Tactic.Ring

/-!
# How natural numbers are written

A numeral is a non-empty run of decimal digits; its value is the sum of the digits, each times the
power of ten of its place, so zeros in front do not count (`Numeric.IsNumeral`). The reader takes
numerals below a bound, perhaps after a plus sign, and nothing else
(`Numeric.natural?_eq_some_iff`).

## Main definitions

* `Numeric.IsNumeral` : the numerals of a number.

## Main results

* `Numeric.natural?_eq_some_iff` : all texts that are read as a number below a bound.
* `Numeric.isNumeral_toDigits` : the decimal digits of a number are a numeral of it.
-/

namespace Darkroom.Numeric

/-- Whether decimal digits write a number, the last of them giving the units. -/
def IsNumeral (digits : List Char) (n : Nat) : Prop :=
  digits ≠ [] ∧ (∀ c ∈ digits, c.isDigit = true) ∧
    n = Nat.ofDigits 10 (digits.map digitValue).reverse

/-- What is read one digit after the other is the sum over all places. -/
theorem digitsValueFrom_eq (n : Nat) (digits : List Char) :
    digitsValueFrom n digits =
      n * 10 ^ digits.length + Nat.ofDigits 10 (digits.map digitValue).reverse := by
  induction digits generalizing n with
  | nil => simp [digitsValueFrom]
  | cons d digits ih =>
    have hstep : digitsValueFrom n (d :: digits) =
        digitsValueFrom (10 * n + digitValue d) digits := rfl
    rw [hstep, ih, List.map_cons, Nat.ofDigits_reverse_cons, List.length_map, List.length_cons]
    ring

theorem digitsValue?_eq_some_iff {digits : List Char} {n : Nat} :
    digitsValue? digits = some n ↔ IsNumeral digits n := by
  have hvalue : digitsValueFrom 0 digits = Nat.ofDigits 10 (digits.map digitValue).reverse := by
    rw [digitsValueFrom_eq, Nat.zero_mul, Nat.zero_add]
  rw [digitsValue?, hvalue, Option.ite_none_right_eq_some, Option.some.injEq, List.all_eq_true,
    and_assoc, eq_comm (b := n), IsNumeral]

theorem IsNumeral.exists_cons {digits : List Char} {n : Nat} (h : IsNumeral digits n) :
    ∃ c rest, digits = c :: rest ∧ c.isDigit = true := by
  obtain ⟨c, rest, rfl⟩ := List.exists_cons_of_ne_nil h.1
  exact ⟨c, rest, rfl, h.2.1 c List.mem_cons_self⟩

/-- **All texts that are read as a number**: its numerals, perhaps after a plus sign. -/
theorem natural?_eq_some_iff {bound n : Nat} {s : List Char} :
    natural? bound s = some n ↔
      n < bound ∧ ∃ digits, (s = digits ∨ s = '+' :: digits) ∧ IsNumeral digits n := by
  unfold natural?
  rw [Option.filter_eq_some_iff, decide_eq_true_eq, and_comm]
  refine and_congr_right fun _ => ?_
  split
  · next rest =>
    rw [digitsValue?_eq_some_iff]
    refine ⟨fun h => ⟨rest, .inr rfl, h⟩, ?_⟩
    rintro ⟨digits, rfl | heq, h⟩
    · obtain ⟨c, tail, hcons, hc⟩ := h.exists_cons
      rw [← (List.cons.inj hcons).1] at hc
      exact absurd hc (by decide)
    · rwa [(List.cons.inj heq).2]
  · next hplus =>
    rw [digitsValue?_eq_some_iff]
    refine ⟨fun h => ⟨s, .inl rfl, h⟩, ?_⟩
    rintro ⟨digits, rfl | heq, h⟩
    · exact h
    · exact absurd heq (hplus digits)

theorem isNumeral_toDigits (n : Nat) : IsNumeral (Nat.toDigits 10 n) n := by
  have hvalue : digitsValueFrom 0 (Nat.toDigits 10 n) = n := Nat.ofDigitChars_ten_toDigits
  refine ⟨Nat.toDigits_ne_nil, fun c hc => Nat.isDigit_of_mem_toDigits (by decide) (by decide) hc,
    ?_⟩
  rwa [digitsValueFrom_eq, Nat.zero_mul, Nat.zero_add, eq_comm] at hvalue

end Darkroom.Numeric
