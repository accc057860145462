import Darkroom.Text.Lowercase
import Mathlib.Tactic.Common

/-!
# What lower case brings in

The lower-case form of a text holds characters of the text and letters; nothing below the small
letters of ASCII is brought in (`Text.mem_of_mem_toLower`). So a text without slashes and points has
none in lower case either, though its length may be another.

## Main results

* `Text.simpleLower_eq_or` : the mapping of one character.
* `Text.mem_of_mem_toLower` : where signs in a lower-case form come from.
-/

namespace Darkroom.Text

/-- The characters that a run leads to are small letters of ASCII or come after them. -/
theorem le_target_of_mem_lowerRuns :
    ∀ run ∈ lowerRuns, (0x61 : Int) ≤ run.1 + run.2.2.2 ∧
      ((run.2.1 + run.2.2.2 < (0xD800 : Int)) ∨
        (0xDFFF : Int) < run.1 + run.2.2.2 ∧ run.2.1 + run.2.2.2 < (0x110000 : Int)) := by
  decide +kernel

theorem toNat_ofNat_of_valid {n : Nat} (h : n < 0xD800 ∨ 0xDFFF < n ∧ n < 0x110000) :
    (Char.ofNat n).toNat = n := by
  have hvalid : n.isValidChar := h
  rw [Char.ofNat, dif_pos hvalid]
  rfl

/-- A character stays as it is or becomes a letter. -/
theorem simpleLower_eq_or (c : Char) : simpleLower c = c ∨ 0x61 ≤ (simpleLower c).toNat := by
  rw [simpleLower]
  split_ifs with hascii
  · by_cases hcapital : c.val ≥ 'A'.val ∧ c.val ≤ 'Z'.val
    · right
      have hlower : c.toLower.val = c.val + ('a'.val - 'A'.val) :=
        congrArg Char.val (dif_pos hcapital)
      obtain ⟨hfirst, hlast⟩ := hcapital
      rw [ge_iff_le, UInt32.le_iff_toNat_le] at hfirst
      rw [UInt32.le_iff_toNat_le] at hlast
      have hsum : (c.val + ('a'.val - 'A'.val)).toNat = c.val.toNat + 32 := by
        rw [UInt32.toNat_add]
        exact Nat.mod_eq_of_lt (Nat.lt_of_le_of_lt (Nat.add_le_add_right hlast _) (by decide))
      show 0x61 ≤ c.toLower.val.toNat
      rw [hlower, hsum]
      exact Nat.add_le_add_right hfirst 32
    · exact .inl (dif_neg hcapital)
  · split
    · next first last stride distance hrun =>
      right
      have hmem := List.mem_of_find?_eq_some hrun
      have hwithin := List.find?_some hrun
      simp only [Bool.and_eq_true, decide_eq_true_eq] at hwithin
      obtain ⟨hlow, hvalid⟩ := le_target_of_mem_lowerRuns _ hmem
      dsimp only at hlow hvalid
      rw [toNat_ofNat_of_valid (by omega)]
      omega
    · exact .inl rfl

theorem mem_of_mem_lowerFrom {d : Char} (hd : d.toNat < 0x61) {before s : List Char}
    (h : d ∈ lowerFrom before s) : d ∈ s := by
  induction s generalizing before with
  | nil => exact absurd h List.not_mem_nil
  | cons c rest ih =>
    rw [lowerFrom, List.mem_append] at h
    rcases h with h | h
    · have hletter : ∀ n, 0x61 ≤ n → n < 0xD800 → d ≠ Char.ofNat n := by
        rintro n hlow hhigh rfl
        rw [toNat_ofNat_of_valid (.inl hhigh)] at hd
        omega
      split_ifs at h
      · rcases List.mem_cons.mp h with h | h
        · exact absurd h (hletter 0x69 (by decide) (by decide))
        · exact absurd (List.mem_singleton.mp h) (hletter 0x307 (by decide) (by decide))
      · exact absurd (List.mem_singleton.mp h) (hletter 0x3C2 (by decide) (by decide))
      · exact absurd (List.mem_singleton.mp h) (hletter 0x3C3 (by decide) (by decide))
      · obtain rfl := List.mem_singleton.mp h
        rcases simpleLower_eq_or c with hsame | hletter
        · rw [hsame]
          exact List.mem_cons_self
        · omega
    · exact List.mem_cons_of_mem c (ih h)

/-- **Signs are not brought in by lower case**: they are in the text already. -/
theorem mem_of_mem_toLower {d : Char} (hd : d.toNat < 0x61) {s : String}
    (h : d ∈ (toLower s).toList) : d ∈ s.toList := by
  rw [toLower, String.toList_ofList] at h
  exact mem_of_mem_lowerFrom hd h

end Darkroom.Text
