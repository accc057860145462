import Darkroom.Color
import Mathlib.Tactic.Common

/-!
# How colours are written

A colour is written as three or four channels of two hexadecimal digits each, perhaps after a number
sign (`Color.Written`). Every text written so is read as its colour, whatever blanks are around it.
The reader takes more than that: any number of number signs, and channels that consist of a plus
sign and one digit (`Color.read_eq_ok_iff`). A text without a plus sign that does not begin with two
number signs is read exactly when a colour is written so.

## Main definitions

* `Color.IsDigit`, `Color.IsChannel`, `Color.Written` : how colours are written.
* `Color.IsSignedChannel` : the channels that are read.

## Main results

* `Color.read_eq_ok_iff` : all texts that are read.
* `Color.reads_written` : what is read of the colours that are written, and of other texts.
-/

namespace Darkroom.Color

/-! ### Notation -/

/-- The hexadecimal digits in order. -/
def digits : List Char :=
  ['0', '1', '2', '3', '4', '5', '6', '7', '8', '9', 'a', 'b', 'c', 'd', 'e', 'f']

/-- Whether a character is the hexadecimal digit of a value, in either case. -/
def IsDigit (c : Char) (n : Nat) : Prop :=
  digits[n]? = some c ∨ (digits.map Char.toUpper)[n]? = some c

instance (c : Char) (n : Nat) : Decidable (IsDigit c n) := inferInstanceAs (Decidable (_ ∨ _))

/-- Whether two characters are the hexadecimal digits of a channel. -/
def IsChannel (high low : Char) (v : UInt8) : Prop :=
  ∃ h l, IsDigit high h ∧ IsDigit low l ∧ v.toNat = 16 * h + l

/-- Whether a text gives channels, two characters each. -/
inductive Spells (channel : Char → Char → UInt8 → Prop) : List Char → List UInt8 → Prop
  | nil : Spells channel [] []
  | cons {high low : Char} {v : UInt8} {rest : List Char} {vs : List UInt8}
      (first : channel high low v) (others : Spells channel rest vs) :
      Spells channel (high :: low :: rest) (v :: vs)

/-- Whether a text gives the channels of a colour; a solid colour may leave out the last one. -/
def SpellsColor (channel : Char → Char → UInt8 → Prop) (s : List Char) (c : Rgba) : Prop :=
  Spells channel s [c.r, c.g, c.b] ∧ c.a = 255 ∨ Spells channel s [c.r, c.g, c.b, c.a]

/-- Whether a text is the digits of a colour, perhaps after a number sign. -/
def Written (s : List Char) (c : Rgba) : Prop :=
  SpellsColor IsChannel s c ∨ ∃ rest, s = '#' :: rest ∧ SpellsColor IsChannel rest c

/-- Whether two characters are read as a channel: two digits, or a plus sign and one digit. -/
def IsSignedChannel (high low : Char) (v : UInt8) : Prop :=
  IsChannel high low v ∨ high = '+' ∧ IsDigit low v.toNat

/-! ### Digits -/

/-- What holds of all characters between two others can be checked by their numbers. -/
private theorem of_between {P : Char → Prop} {low high c : Char} (h : low ≤ c ∧ c ≤ high)
    (hall : ∀ k ≤ high.toNat, low.toNat ≤ k → P (Char.ofNat k)) : P c := by
  rw [← Char.ofNat_toNat c]
  exact hall c.toNat (UInt32.le_iff_toNat_le.mp h.2) (UInt32.le_iff_toNat_le.mp h.1)

/-- What holds of the sixteen digits in both cases holds of every digit. -/
theorem IsDigit.of_forall {P : Char → Nat → Prop} {c : Char} {n : Nat} (h : IsDigit c n)
    (hall : ∀ n < 16, P (digits.getD n '0') n ∧ P ((digits.map Char.toUpper).getD n '0') n) :
    P c n := by
  rcases h with h | h
  · have hdigit := (hall n (List.getElem?_eq_some_iff.mp h).1).1
    rwa [List.getD_eq_getElem?_getD, h] at hdigit
  · have hdigit := (hall n (List.getElem?_eq_some_iff.mp h).1).2
    rwa [List.getD_eq_getElem?_getD, h] at hdigit

theorem hexValue?_eq_some_iff {c : Char} {n : Nat} : Json.hexValue? c = some n ↔ IsDigit c n := by
  constructor
  · intro h
    rw [Json.hexValue?] at h
    split_ifs at h with hdecimal hlower hupper
    · obtain rfl := Option.some.inj h
      have hrange : '0' ≤ c ∧ c ≤ '9' := by simpa [Char.isDigit, Char.le_def] using hdecimal
      exact of_between (P := fun c => IsDigit c (c.toNat - 48)) hrange (by decide)
    · obtain rfl := Option.some.inj h
      exact of_between (P := fun c => IsDigit c (c.toNat - 87)) hlower (by decide)
    · obtain rfl := Option.some.inj h
      exact of_between (P := fun c => IsDigit c (c.toNat - 55)) hupper (by decide)
  · exact fun h => h.of_forall (P := fun c n => Json.hexValue? c = some n) (by decide)

theorem IsDigit.toNat_lt {c : Char} {n : Nat} (h : IsDigit c n) : c.toNat < 128 ∧ n < 16 :=
  h.of_forall (P := fun c n => c.toNat < 128 ∧ n < 16) (by decide)

theorem IsDigit.ne_mark {c : Char} {n : Nat} (h : IsDigit c n) : c ≠ '#' ∧ c ≠ '+' :=
  h.of_forall (P := fun c _ => c ≠ '#' ∧ c ≠ '+') (by decide)

/-! ### Channels -/

theorem channel?_eq_some_iff {high low : Char} {v : UInt8} :
    channel? high low = some v ↔ IsSignedChannel high low v := by
  constructor
  · intro h
    rw [channel?] at h
    cases hlow : Json.hexValue? low with
    | none =>
      rw [hlow] at h
      exact nomatch h
    | some l =>
      rw [hlow] at h
      have hdigit := hexValue?_eq_some_iff.mp hlow
      have hl := hdigit.toNat_lt.2
      dsimp only at h
      split_ifs at h with hplus
      · obtain rfl := Option.some.inj h
        refine .inr ⟨hplus, ?_⟩
        rwa [UInt8.toNat_ofNat_of_lt' (Nat.lt_trans hl (by decide))]
      · obtain ⟨n, hhigh, rfl⟩ := Option.map_eq_some_iff.mp h
        have hdigit' := hexValue?_eq_some_iff.mp hhigh
        have hn := hdigit'.toNat_lt.2
        refine .inl ⟨n, l, hdigit', hdigit, UInt8.toNat_ofNat_of_lt' ?_⟩
        rw [UInt8.size]
        omega
  · rintro (⟨h, l, hhigh, hlow, hv⟩ | ⟨rfl, hlow⟩)
    · rw [channel?, hexValue?_eq_some_iff.mpr hlow, hexValue?_eq_some_iff.mpr hhigh]
      dsimp only
      rw [if_neg hhigh.ne_mark.2, Option.map_some, ← hv, UInt8.ofNat_toNat]
    · rw [channel?, hexValue?_eq_some_iff.mpr hlow]
      dsimp only
      rw [if_pos rfl, UInt8.ofNat_toNat]

theorem channels?_eq_some_iff {s : List Char} (heven : s.length % 2 = 0) {vs : List UInt8} :
    channels? s = some vs ↔ Spells IsSignedChannel s vs := by
  fun_induction channels? s generalizing vs with
  | case1 high low rest ih =>
    have hrest : rest.length % 2 = 0 := by
      rw [List.length_cons, List.length_cons] at heven
      omega
    constructor
    · intro h
      obtain ⟨v, hv, h⟩ := Option.bind_eq_some_iff.mp h
      obtain ⟨others, hothers, h⟩ := Option.bind_eq_some_iff.mp h
      obtain rfl := Option.some.inj h
      exact .cons (channel?_eq_some_iff.mp hv) ((ih hrest).mp hothers)
    · rintro (_ | ⟨hv, hothers⟩)
      rw [channel?_eq_some_iff.mpr hv, (ih hrest).mpr hothers]
      rfl
  | case2 s hshort =>
    cases s with
    | nil =>
      constructor
      · intro h
        obtain rfl := Option.some.inj h
        exact .nil
      · intro h
        cases h
        rfl
    | cons high s =>
      cases s with
      | nil => exact nomatch heven
      | cons low rest => exact absurd rfl (hshort high low rest)

namespace Spells

variable {channel channel' : Char → Char → UInt8 → Prop} {s : List Char} {vs : List UInt8}

theorem length_eq (h : Spells channel s vs) : s.length = 2 * vs.length := by
  induction h with
  | nil => rfl
  | cons _ _ ih =>
    rw [List.length_cons, List.length_cons, List.length_cons, ih]
    omega

theorem imp (h : Spells channel s vs)
    (himp : ∀ high low v, high ∈ s → channel high low v → channel' high low v) :
    Spells channel' s vs := by
  induction h with
  | nil => exact .nil
  | cons first _ ih =>
    refine .cons (himp _ _ _ List.mem_cons_self first) (ih fun high low v hmem => ?_)
    refine himp high low v ?_
    exact List.mem_cons_of_mem _ (List.mem_cons_of_mem _ hmem)

theorem isAscii (h : Spells IsSignedChannel s vs) : ∀ c ∈ s, c.toNat < 128 := by
  induction h with
  | nil => exact nofun
  | cons first _ ih =>
    rcases first with ⟨_, _, hhigh, hlow, -⟩ | ⟨rfl, hlow⟩
    · exact List.forall_mem_cons.mpr ⟨hhigh.toNat_lt.1,
        List.forall_mem_cons.mpr ⟨hlow.toNat_lt.1, ih⟩⟩
    · exact List.forall_mem_cons.mpr ⟨by decide, List.forall_mem_cons.mpr ⟨hlow.toNat_lt.1, ih⟩⟩

end Spells

/-! ### Colours -/

namespace SpellsColor

variable {channel channel' : Char → Char → UInt8 → Prop} {s : List Char} {c : Rgba}

theorem imp (h : SpellsColor channel s c)
    (himp : ∀ high low v, high ∈ s → channel high low v → channel' high low v) :
    SpellsColor channel' s c := by
  rcases h with ⟨hsolid, halpha⟩ | hclear
  · exact .inl ⟨hsolid.imp himp, halpha⟩
  · exact .inr (hclear.imp himp)

/-- A colour begins with a channel. -/
theorem exists_first (h : SpellsColor channel s c) :
    ∃ high low rest v, s = high :: low :: rest ∧ channel high low v := by
  have hfirst : ∀ v vs, Spells channel s (v :: vs) →
      ∃ high low rest v, s = high :: low :: rest ∧ channel high low v := by
    rintro v vs (_ | ⟨first, -⟩)
    exact ⟨_, _, _, v, rfl, first⟩
  rcases h with ⟨hsolid, -⟩ | hclear
  · exact hfirst _ _ hsolid
  · exact hfirst _ _ hclear

theorem head?_ne (h : SpellsColor IsSignedChannel s c) : s.head? ≠ some '#' := by
  obtain ⟨high, low, rest, v, rfl, ⟨_, _, hhigh, -⟩ | ⟨rfl, -⟩⟩ := h.exists_first
  · exact fun heq => hhigh.ne_mark.1 (Option.some.inj heq)
  · exact fun heq => absurd (Option.some.inj heq) (by decide)

end SpellsColor

/-- A text is read when it gives a colour after its number signs. -/
theorem read_eq_ok_iff_spellsColor (text : String) (c : Rgba) :
    read text = .ok c ↔
      SpellsColor IsSignedChannel ((Text.trim text.toList).dropWhile (· == '#')) c := by
  rw [read]
  generalize (Text.trim text.toList).dropWhile (· == '#') = s
  constructor
  · intro h
    split_ifs at h with hshape
    have heven : s.length % 2 = 0 := by omega
    split at h
    · next r g b hchannels =>
      obtain rfl := Except.ok.inj h
      exact .inl ⟨(channels?_eq_some_iff heven).mp hchannels, rfl⟩
    · next r g b a hchannels =>
      obtain rfl := Except.ok.inj h
      exact .inr ((channels?_eq_some_iff heven).mp hchannels)
    · exact nomatch h
  · rintro (⟨hsolid, halpha⟩ | hclear)
    · have hlength : s.length = 6 := hsolid.length_eq
      rw [if_neg (not_not.mpr ⟨.inl hlength, by simpa using hsolid.isAscii⟩),
        (channels?_eq_some_iff (by omega)).mpr hsolid, ← halpha]
    · have hlength : s.length = 8 := hclear.length_eq
      rw [if_neg (not_not.mpr ⟨.inr hlength, by simpa using hclear.isAscii⟩),
        (channels?_eq_some_iff (by omega)).mpr hclear]

/-- **All texts that are read.** Between the blanks around it, such a text consists of any number of
number signs and three or four channels, each of two digits or of a plus sign and one digit. -/
theorem read_eq_ok_iff (text : String) (c : Rgba) :
    read text = .ok c ↔ ∃ marks s, Text.trim text.toList = List.replicate marks '#' ++ s ∧
      SpellsColor IsSignedChannel s c := by
  rw [read_eq_ok_iff_spellsColor]
  generalize Text.trim text.toList = trimmed
  constructor
  · intro h
    refine ⟨(trimmed.takeWhile (· == '#')).length, _, ?_, h⟩
    have hmarks : trimmed.takeWhile (· == '#') =
        List.replicate (trimmed.takeWhile (· == '#')).length '#' :=
      List.eq_replicate_of_mem fun c hmem =>
        beq_iff_eq.mp (List.all_eq_true.mp List.all_takeWhile c hmem)
    rw [← hmarks, List.takeWhile_append_dropWhile]
  · rintro ⟨marks, s, rfl, h⟩
    have hdrop : s.dropWhile (· == '#') = s := by
      cases s with
      | nil => rfl
      | cons first rest =>
        exact List.dropWhile_cons_of_neg fun heq =>
          h.head?_ne (congrArg some (beq_iff_eq.mp heq))
    rwa [List.dropWhile_append_of_pos (by simp), hdrop]

/-- What a refusal says. -/
theorem read_eq_error {text : String} {fault : Fault} (h : read text = .error fault) :
    ∃ reason ∈ ["Expected RRGGBB or RRGGBBAA", "Not a hexadecimal colour"],
      fault = .invalidValue "color" text reason := by
  rw [read] at h
  split_ifs at h with hshape
  · split at h
    · exact nomatch h
    · exact nomatch h
    · exact ⟨_, List.mem_cons_of_mem _ List.mem_cons_self, (Except.error.inj h).symm⟩
  · exact ⟨_, List.mem_cons_self, (Except.error.inj h).symm⟩

/-- **Written colours are read.** A text of six or eight hexadecimal digits, perhaps after a number
sign and with blanks around it, is read as the colour of its channels, solid without the last one.
A text that is read though no colour is written so has a plus sign or begins with two number signs.
All other texts are refused, as values of `color`. -/
theorem reads_written (text : String) :
    (∀ c, Written (Text.trim text.toList) c → read text = .ok c) ∧
    ('+' ∉ Text.trim text.toList → ¬ ['#', '#'] <+: Text.trim text.toList →
      ∀ c, read text = .ok c ↔ Written (Text.trim text.toList) c) ∧
    ∀ fault, read text = .error fault →
      ∃ reason ∈ ["Expected RRGGBB or RRGGBBAA", "Not a hexadecimal colour"],
        fault = .invalidValue "color" text reason := by
  have hwritten : ∀ c, Written (Text.trim text.toList) c → read text = .ok c := by
    rintro c (h | ⟨s, htrim, h⟩)
    · exact (read_eq_ok_iff text c).mpr ⟨0, _, rfl, h.imp fun _ _ _ _ => .inl⟩
    · exact (read_eq_ok_iff text c).mpr ⟨1, s, htrim, h.imp fun _ _ _ _ => .inl⟩
  refine ⟨hwritten, fun hplus hmarks c => ⟨fun h => ?_, hwritten c⟩, fun _ => read_eq_error⟩
  obtain ⟨marks, s, htrim, h⟩ := (read_eq_ok_iff text c).mp h
  rw [htrim] at hplus hmarks ⊢
  have hunsigned : SpellsColor IsChannel s c := by
    refine h.imp fun high low v hmem hchannel => hchannel.resolve_right ?_
    rintro ⟨rfl, -⟩
    exact hplus (List.mem_append_right _ hmem)
  cases marks with
  | zero => exact .inl hunsigned
  | succ marks =>
    cases marks with
    | zero => exact .inr ⟨s, rfl, hunsigned⟩
    | succ marks =>
      exact absurd (List.prefix_append ['#', '#'] (List.replicate marks '#' ++ s)) hmarks

/-- A colour in both cases of digits, with alpha, a number sign and blanks. -/
theorem sunset_is_read :
    '+' ∉ Text.trim " #FF80c0c8\n".toList ∧ ¬ ['#', '#'] <+: Text.trim " #FF80c0c8\n".toList ∧
    Written (Text.trim " #FF80c0c8\n".toList) ⟨255, 128, 192, 200⟩ ∧
    read " #FF80c0c8\n" = .ok ⟨255, 128, 192, 200⟩ := by
  have hread : read " #FF80c0c8\n" = .ok ⟨255, 128, 192, 200⟩ := by decide +kernel
  have hplus : '+' ∉ Text.trim " #FF80c0c8\n".toList := by decide +kernel
  have hmarks : ¬ ['#', '#'] <+: Text.trim " #FF80c0c8\n".toList := by decide +kernel
  have hwritten := ((reads_written " #FF80c0c8\n").2.1 hplus hmarks _).mp hread
  exact ⟨hplus, hmarks, hwritten, (reads_written " #FF80c0c8\n").1 _ hwritten⟩

/-- Plus signs are read in place of digits, and two number signs in place of one. -/
theorem plus_digits_and_marks_are_read :
    (read "+1+2+3" = .ok ⟨1, 2, 3, 255⟩ ∧ ¬ ∃ c, Written (Text.trim "+1+2+3".toList) c) ∧
    (read "##ff8000" = .ok ⟨255, 128, 0, 255⟩ ∧
      ¬ ∃ c, Written (Text.trim "##ff8000".toList) c) := by
  have hfirst : ∀ first rest c, first = '#' ∨ first = '+' →
      ¬ SpellsColor IsChannel (first :: rest) c := by
    intro first rest c hfirst h
    obtain ⟨high, low, rest, v, heq, _, _, hhigh, -⟩ := h.exists_first
    rw [← (List.cons.inj heq).1] at hhigh
    exact hfirst.elim hhigh.ne_mark.1 hhigh.ne_mark.2
  have htrimPlus : Text.trim "+1+2+3".toList = '+' :: "1+2+3".toList := by decide +kernel
  have htrimMarks : Text.trim "##ff8000".toList = '#' :: '#' :: "ff8000".toList := by
    decide +kernel
  refine ⟨⟨by decide +kernel, ?_⟩, by decide +kernel, ?_⟩
  · rw [htrimPlus]
    rintro ⟨c, h | ⟨rest, hrest, -⟩⟩
    · exact hfirst _ _ _ (.inr rfl) h
    · exact absurd (List.cons.inj hrest).1 (by decide)
  · rw [htrimMarks]
    rintro ⟨c, h | ⟨rest, hrest, h⟩⟩
    · exact hfirst _ _ _ (.inl rfl) h
    · rw [← (List.cons.inj hrest).2] at h
      exact hfirst _ _ _ (.inl rfl) h

end Darkroom.Color
