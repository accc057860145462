import Darkroom.Json.Document
import Darkroom.Json.Token
import Darkroom.Proofs.Fault
import Mathlib.Data.List.Basic
import Mathlib.Data.List.DropRight
import Mathlib.Data.List.TakeWhile
import Mathlib.Data.Nat.Init
import Mathlib.Tactic.Common

/-!
# Written tokens are read back

A quoted string is read back as the string that was written, whatever characters it holds
(`Json.readStringBody_escapes`). A number that takes up a whole text is read as the same number
where another text follows that cannot continue it (`Json.readNumber_append`); in particular the
digits of a natural number below `2 ^ 64` are read as that number.

## Main definitions

* `Json.EndsNumber` : the texts that cannot continue a number.

## Main results

* `Json.readStringBody_escapes` : strings.
* `Json.readNumber_append`, `Json.readNumber_toDigits` : numbers.
-/

namespace Darkroom.Json

/-! ### Blanks -/

theorem skipSpace_cons {c : Char} (h : isSpace c = false) (s : List Char) :
    skipSpace (c :: s) = c :: s := by
  rw [skipSpace, List.dropWhile_cons_of_neg (by simp [h])]

theorem skipSpace_append {s rest tail : List Char} {c : Char} (h : skipSpace s = c :: tail) :
    skipSpace (s ++ rest) = c :: (tail ++ rest) := by
  have hne : (s.dropWhile isSpace).isEmpty = false := by
    rw [skipSpace] at h
    rw [h]
    rfl
  rw [skipSpace, List.dropWhile_append, hne, if_neg Bool.false_ne_true]
  rw [skipSpace] at h
  rw [h, List.cons_append]

theorem skipSpace_skipSpace (s : List Char) : skipSpace (skipSpace s) = skipSpace s :=
  List.dropWhile_idempotent isSpace s

theorem isSpace_of_isDigit {c : Char} (h : c.isDigit = true) : isSpace c = false := by
  rw [← Bool.not_eq_true]
  intro hspace
  simp only [isSpace, Bool.or_eq_true, beq_iff_eq] at hspace
  rcases hspace with ((rfl | rfl) | rfl) | rfl <;> exact absurd h (by decide)

theorem skipSpace_newLine (level : Nat) (s : List Char) :
    skipSpace (newLine level ++ s) = skipSpace s := by
  have hblank : ∀ c ∈ newLine level, isSpace c = true := by
    intro c hmem
    rcases List.mem_cons.mp hmem with rfl | hmem
    · rfl
    · rw [List.eq_of_mem_replicate hmem]
      rfl
  rw [skipSpace, skipSpace, List.dropWhile_append_of_pos hblank]

/-! ### Strings -/

theorem hexValue?_hexDigit {n : Nat} (h : n < 16) : hexValue? (hexDigit n) = some n := by
  revert n
  decide

/-- The four digits of a control character are those of its number. -/
theorem readCodePoint_control {c : Char} (h : c.toNat < 0x20) (s : List Char) :
    readCodePoint ('0' :: '0' :: hexDigit (c.toNat / 16) :: hexDigit (c.toNat % 16) :: s) =
      .ok (c, 4) := by
  have hzero : hexValue? '0' = some 0 := by decide
  have hhigh := hexValue?_hexDigit (n := c.toNat / 16) (by omega)
  have hlow := hexValue?_hexDigit (n := c.toNat % 16) (by omega)
  have hvalue : ((0 * 16 + 0) * 16 + c.toNat / 16) * 16 + c.toNat % 16 = c.toNat := by omega
  have hquad : hexQuad ('0' :: '0' :: hexDigit (c.toNat / 16) :: hexDigit (c.toNat % 16) :: s) =
      .ok c.toNat := by
    simp only [hexQuad, hzero, hhigh, hlow, hvalue]
  rw [readCodePoint, hquad, ok_bind, if_neg (by omega), if_pos (by omega), Char.ofNat_toNat]

/-- An escape is read as the character that it stands for. -/
theorem readStringBody_of_readEscape {c : Char} (code : List Char) {s : List Char}
    (h : readEscape (code ++ s) = .ok (c, code.length)) :
    readStringBody ('\\' :: (code ++ s)) = (readStringBody s).map fun (t, r) => (c :: t, r) := by
  rw [readStringBody, if_neg (by decide), if_pos rfl, h]
  dsimp only
  rw [List.drop_left]

theorem readEscape_plain {letter c : Char} (hu : letter ≠ 'u') (h : plainEscape? letter = some c)
    (s : List Char) : readEscape (letter :: s) = .ok (c, 1) := by
  simp only [readEscape, if_neg hu, h]

/-- The written form of a character is read as that character. -/
theorem readStringBody_escape (c : Char) (s : List Char) :
    readStringBody (escape c ++ s) = (readStringBody s).map fun (t, r) => (c :: t, r) := by
  have hplain {letter : Char} (hu : letter ≠ 'u') (hletter : plainEscape? letter = some c) :
      readStringBody ('\\' :: letter :: s) = (readStringBody s).map fun (t, r) => (c :: t, r) :=
    readStringBody_of_readEscape [letter] (readEscape_plain hu hletter s)
  unfold escape
  split_ifs with hquote hbackslash hbs hff hlf hcr htab hcontrol
  · exact hplain (by decide) (by subst hquote; rfl)
  · exact hplain (by decide) (by subst hbackslash; rfl)
  · exact hplain (by decide) (by subst hbs; rfl)
  · exact hplain (by decide) (by subst hff; rfl)
  · exact hplain (by decide) (by subst hlf; rfl)
  · exact hplain (by decide) (by subst hcr; rfl)
  · exact hplain (by decide) (by subst htab; rfl)
  · refine readStringBody_of_readEscape
      ['u', '0', '0', hexDigit (c.toNat / 16), hexDigit (c.toNat % 16)] ?_
    simp only [List.cons_append, List.nil_append, readEscape, if_true,
      readCodePoint_control hcontrol, ok_map, List.length_cons, List.length_nil]
  · rw [List.singleton_append, readStringBody, if_neg hquote, if_neg hbackslash, if_neg hcontrol]

/-- **A quoted string is read back**, from after its opening quote. -/
theorem readStringBody_escapes (s rest : List Char) :
    readStringBody (s.flatMap escape ++ '"' :: rest) = .ok (s, rest) := by
  induction s with
  | nil => rw [List.flatMap_nil, List.nil_append, readStringBody, if_pos rfl]
  | cons c s ih =>
    rw [List.flatMap_cons, List.append_assoc, readStringBody_escape, ih]
    rfl

/-! ### Numbers -/

/-- Whether a text cannot continue a number that stands before it. -/
def EndsNumber (rest : List Char) : Prop :=
  ∀ c ∈ rest.head?, c.isDigit = false ∧ c ≠ '.' ∧ c ≠ 'e' ∧ c ≠ 'E'

theorem EndsNumber.nil : EndsNumber [] :=
  fun _ hmem => nomatch hmem

theorem endsNumber_cons {c : Char} {rest : List Char} :
    EndsNumber (c :: rest) ↔ c.isDigit = false ∧ c ≠ '.' ∧ c ≠ 'e' ∧ c ≠ 'E' := by
  simp [EndsNumber]

theorem EndsNumber.takeWhile_digits {rest : List Char} (h : EndsNumber rest) (s : List Char) :
    (s ++ rest).takeWhile Char.isDigit = s.takeWhile Char.isDigit := by
  induction s with
  | nil =>
    cases rest with
    | nil => rfl
    | cons c rest =>
      have hdigit := (endsNumber_cons.mp h).1
      simp [hdigit]
  | cons c s ih =>
    rw [List.cons_append, List.takeWhile_cons, List.takeWhile_cons, ih]

theorem EndsNumber.dropWhile_digits {rest : List Char} (h : EndsNumber rest) (s : List Char) :
    (s ++ rest).dropWhile Char.isDigit = s.dropWhile Char.isDigit ++ rest := by
  induction s with
  | nil =>
    cases rest with
    | nil => rfl
    | cons c rest =>
      have hdigit := (endsNumber_cons.mp h).1
      simp [hdigit]
  | cons c s ih =>
    rw [List.cons_append, List.dropWhile_cons, List.dropWhile_cons, ih]
    split_ifs <;> rfl

theorem map_snd_append {ε α : Type} {x : α} {y : Except ε α} {r after rest : List Char}
    (h : (y.map fun a => (a, after)) = .ok (x, r)) :
    (y.map fun a => (a, after ++ rest)) = .ok (x, r ++ rest) := by
  cases y with
  | error problem => exact nomatch h
  | ok a =>
    obtain ⟨rfl, rfl⟩ := Prod.mk.inj (Except.ok.inj h)
    rfl

section Append

variable {negative : Bool} {significand : Nat} {exponent : Int} {s r rest : List Char} {x : Number}

theorem readExponentDigits_append {down : Bool} (hrest : EndsNumber rest)
    (h : readExponentDigits negative significand exponent down s = .ok (x, r)) :
    readExponentDigits negative significand exponent down (s ++ rest) = .ok (x, r ++ rest) := by
  cases s with
  | nil => exact nomatch h
  | cons c s =>
    have htake := hrest.takeWhile_digits (c :: s)
    have hdrop := hrest.dropWhile_digits (c :: s)
    rw [List.cons_append] at htake hdrop ⊢
    unfold readExponentDigits at h ⊢
    dsimp only at h ⊢
    rw [htake, hdrop]
    split_ifs at h ⊢ with hdigit hlarge hzero hnegative hdown
    · obtain ⟨rfl, rfl⟩ := Prod.mk.inj (Except.ok.inj h)
      rfl
    · obtain ⟨rfl, rfl⟩ := Prod.mk.inj (Except.ok.inj h)
      rfl
    · exact map_snd_append h
    · exact map_snd_append h

/-- An exponent without a sign is not negative. -/
theorem readExponent_unsigned {c : Char} (hplus : c ≠ '+') (hminus : c ≠ '-') (s : List Char) :
    readExponent negative significand exponent (c :: s) =
      readExponentDigits negative significand exponent false (c :: s) := by
  unfold readExponent
  split
  · next heq => exact absurd (List.cons.inj heq).1 hplus
  · next heq => exact absurd (List.cons.inj heq).1 hminus
  · rfl

theorem readExponent_append (hrest : EndsNumber rest)
    (h : readExponent negative significand exponent s = .ok (x, r)) :
    readExponent negative significand exponent (s ++ rest) = .ok (x, r ++ rest) := by
  cases s with
  | nil => exact nomatch h
  | cons c s =>
    by_cases hplus : c = '+'
    · subst hplus
      exact readExponentDigits_append hrest h
    · by_cases hminus : c = '-'
      · subst hminus
        exact readExponentDigits_append hrest h
      · rw [readExponent_unsigned hplus hminus] at h
        rw [List.cons_append, readExponent_unsigned hplus hminus]
        exact readExponentDigits_append hrest h

/-- A number that ends before any exponent. -/
theorem readScaled_end (hs : ∀ c ∈ s.head?, c ≠ 'e' ∧ c ≠ 'E') :
    readScaled negative significand exponent s =
      (ofParts negative significand exponent).map fun x => (x, s) := by
  unfold readScaled
  split
  · exact absurd rfl (hs 'e' rfl).1
  · exact absurd rfl (hs 'E' rfl).2
  · rfl

theorem readScaled_append (hrest : EndsNumber rest)
    (h : readScaled negative significand exponent s = .ok (x, r)) :
    readScaled negative significand exponent (s ++ rest) = .ok (x, r ++ rest) := by
  cases s with
  | nil =>
    rw [readScaled_end fun c hmem => (EndsNumber.nil c hmem).2.2] at h
    rw [List.nil_append, readScaled_end fun c hmem => (hrest c hmem).2.2]
    exact map_snd_append h
  | cons c s =>
    by_cases he : c = 'e'
    · subst he
      exact readExponent_append hrest h
    · by_cases hE : c = 'E'
      · subst hE
        exact readExponent_append hrest h
      · have hhead : ∀ t : List Char, ∀ d ∈ (c :: t).head?, d ≠ 'e' ∧ d ≠ 'E' := by
          rintro t d hmem
          obtain rfl := Option.some.inj hmem
          exact ⟨he, hE⟩
        rw [readScaled_end (hhead s)] at h
        rw [List.cons_append, readScaled_end (hhead _)]
        exact map_snd_append h

/-- A number that ends before any fraction or exponent. -/
theorem readFraction_end {left : Nat} (hs : ∀ c ∈ s.head?, c ≠ '.' ∧ c ≠ 'e' ∧ c ≠ 'E') :
    readFraction negative significand left s =
      (if left = 0 then .ok (wholeNumber negative significand)
        else ofParts negative significand left).map fun x => (x, s) := by
  unfold readFraction
  split
  · exact absurd rfl (hs '.' rfl).1
  · exact absurd rfl (hs 'e' rfl).2.1
  · exact absurd rfl (hs 'E' rfl).2.2
  · split_ifs <;> rfl

theorem readFraction_append {left : Nat} (hrest : EndsNumber rest)
    (h : readFraction negative significand left s = .ok (x, r)) :
    readFraction negative significand left (s ++ rest) = .ok (x, r ++ rest) := by
  cases s with
  | nil =>
    rw [readFraction_end fun c hmem => (EndsNumber.nil c hmem).2] at h
    rw [List.nil_append, readFraction_end fun c hmem => (hrest c hmem).2]
    exact map_snd_append h
  | cons c s =>
    by_cases hpoint : c = '.'
    · subst hpoint
      rw [readFraction] at h
      rw [List.cons_append, readFraction, hrest.takeWhile_digits s, hrest.dropWhile_digits s]
      dsimp only at h ⊢
      split_ifs at h ⊢
      exact readScaled_append hrest h
    by_cases he : c = 'e'
    · subst he
      exact readExponent_append hrest h
    by_cases hE : c = 'E'
    · subst hE
      exact readExponent_append hrest h
    have hhead : ∀ t : List Char, ∀ d ∈ (c :: t).head?, d ≠ '.' ∧ d ≠ 'e' ∧ d ≠ 'E' := by
      rintro t d hmem
      obtain rfl := Option.some.inj hmem
      exact ⟨hpoint, he, hE⟩
    rw [readFraction_end (hhead s)] at h
    rw [List.cons_append, readFraction_end (hhead _)]
    exact map_snd_append h

/-- **A number that is followed by a text that cannot continue it** is read as it is on its own. -/
theorem readNumber_append (hrest : EndsNumber rest) (h : readNumber negative s = .ok (x, r)) :
    readNumber negative (s ++ rest) = .ok (x, r ++ rest) := by
  cases s with
  | nil => exact nomatch h
  | cons c s =>
    have htake := hrest.takeWhile_digits (c :: s)
    have hdrop := hrest.dropWhile_digits (c :: s)
    rw [List.cons_append] at htake hdrop ⊢
    unfold readNumber at h ⊢
    dsimp only at h ⊢
    rw [htake, hdrop]
    split_ifs at h ⊢
    exact readFraction_append hrest h

end Append

/-! ### Natural numbers -/

theorem le_digitsValueFrom (n : Nat) (ds : List Char) : n ≤ Numeric.digitsValueFrom n ds := by
  induction ds generalizing n with
  | nil => exact Nat.le_refl n
  | cons d ds ih =>
    have hle : 10 * n + Numeric.digitValue d ≤ Numeric.digitsValueFrom n (d :: ds) := ih _
    omega

/-- Digits whose number fits are all taken. -/
theorem absorb_eq {n : Nat} {ds : List Char} (h : Numeric.digitsValueFrom n ds < UInt64.size) :
    absorb n ds = (Numeric.digitsValueFrom n ds, []) := by
  induction ds generalizing n with
  | nil => rfl
  | cons d ds ih =>
    have hnext : 10 * n + Numeric.digitValue d < UInt64.size :=
      Nat.lt_of_le_of_lt (le_digitsValueFrom _ ds) h
    rw [absorb, if_pos hnext]
    exact ih h

theorem isDigit_of_mem_toDigits {n : Nat} : ∀ c ∈ Nat.toDigits 10 n, c.isDigit = true :=
  fun _ hmem => Nat.isDigit_of_mem_toDigits (by decide) (by decide) hmem

/-- The text of a natural number starts with a digit. -/
theorem exists_toDigits_eq (n : Nat) :
    ∃ c ds, Nat.toDigits 10 n = c :: ds ∧ ∀ d ∈ c :: ds, d.isDigit = true := by
  cases hdigits : Nat.toDigits 10 n with
  | nil => exact absurd hdigits Nat.toDigits_ne_nil
  | cons c ds => exact ⟨c, ds, rfl, hdigits ▸ isDigit_of_mem_toDigits⟩

theorem takeWhile_toDigits (n : Nat) :
    (Nat.toDigits 10 n).takeWhile Char.isDigit = Nat.toDigits 10 n :=
  List.takeWhile_eq_self_iff.mpr isDigit_of_mem_toDigits

theorem dropWhile_toDigits (n : Nat) : (Nat.toDigits 10 n).dropWhile Char.isDigit = [] :=
  List.dropWhile_eq_nil_iff.mpr isDigit_of_mem_toDigits

theorem digitsValueFrom_toDigits (n : Nat) : Numeric.digitsValueFrom 0 (Nat.toDigits 10 n) = n :=
  Nat.ofDigitChars_ten_toDigits

/-- The digits of a number other than zero do not start with a zero. -/
theorem head?_toDigits_ne {n : Nat} (hn : 0 < n) : (Nat.toDigits 10 n).head? ≠ some '0' := by
  induction n using Nat.strong_induction_on with
  | _ n ih =>
    rw [Nat.toDigits_eq_if (by decide)]
    split_ifs with hlt
    · have hdigit : ∀ m < 10, 0 < m → [Nat.digitChar m].head? ≠ some '0' := by decide
      exact hdigit n hlt hn
    · rw [List.head?_append_of_ne_nil _ Nat.toDigits_ne_nil]
      exact ih (n / 10) (by omega) (by omega)

theorem readNumber_toDigits {n : Nat} (h : n < UInt64.size) :
    readNumber false (Nat.toDigits 10 n) = .ok (.natural n, []) := by
  have hvalue := digitsValueFrom_toDigits n
  have htake := takeWhile_toDigits n
  have hdrop := dropWhile_toDigits n
  have habsorb : absorb 0 (Nat.toDigits 10 n) = (n, []) := by
    rw [absorb_eq (by rwa [hvalue]), hvalue]
  have hzero : ¬ ((Nat.toDigits 10 n).head? = some '0' ∧ (Nat.toDigits 10 n).length > 1) := by
    rintro ⟨hhead, hlength⟩
    have hn : n = 0 := Nat.eq_zero_of_not_pos fun hn => head?_toDigits_ne hn hhead
    rw [hn, Nat.toDigits_zero] at hlength
    exact Nat.lt_irrefl 1 hlength
  obtain ⟨c, ds, hdigits, hall⟩ := exists_toDigits_eq n
  have hc : c.isDigit = true := hall c List.mem_cons_self
  rw [hdigits] at htake hdrop habsorb hzero ⊢
  rw [List.head?_cons, Option.some.injEq] at hzero
  rw [readNumber, htake, hdrop]
  dsimp only
  rw [hc, if_neg (by decide), if_neg hzero, habsorb]
  rfl

end Darkroom.Json
