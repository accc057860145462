import Darkroom.Text.Blank
import Mathlib.Data.List.TakeWhile
import Mathlib.Tactic.Common

/-!
# Texts with blanks around them

A text with blanks around it is told by the text within, which neither begins nor ends with a blank
(`Text.Padded`, `Text.IsTrimmed`). Trimming finds exactly this text (`Text.trim_eq_iff`).

## Main definitions

* `Text.Padded` : a text with blanks around another.
* `Text.IsTrimmed` : the texts without blanks at their ends.

## Main results

* `Text.trim_eq_iff` : what is left of a trimmed text.
-/

namespace Darkroom.Text

/-- Whether a text consists of blanks, another text and blanks. -/
def Padded (s core : List Char) : Prop :=
  ∃ before after, (∀ c ∈ before, isBlank c = true) ∧ (∀ c ∈ after, isBlank c = true) ∧
    s = before ++ core ++ after

/-- Whether a text neither begins nor ends with a blank. -/
def IsTrimmed (s : List Char) : Prop :=
  (∀ c ∈ s.head?, isBlank c = false) ∧ ∀ c ∈ s.getLast?, isBlank c = false

/-- Around a text stand no signs but blanks. -/
theorem Padded.notMem {s core : List Char} (h : Padded s core) {c : Char}
    (hc : isBlank c = false) (hcore : c ∉ core) : c ∉ s := by
  obtain ⟨before, after, hbefore, hafter, rfl⟩ := h
  have hblank : isBlank c ≠ true := Bool.eq_false_iff.mp hc
  simp only [List.mem_append, not_or]
  exact ⟨⟨fun hmem => hblank (hbefore c hmem), hcore⟩, fun hmem => hblank (hafter c hmem)⟩

theorem isTrimmed_of_forall {s : List Char} (h : ∀ c ∈ s, isBlank c = false) : IsTrimmed s :=
  ⟨fun c hc => h c (List.mem_of_mem_head? hc), fun c hc => h c (List.mem_of_mem_getLast? hc)⟩

theorem trimStart_eq_iff {s core : List Char} :
    trimStart s = core ↔
      (∃ before, (∀ c ∈ before, isBlank c = true) ∧ s = before ++ core) ∧
        ∀ c ∈ core.head?, isBlank c = false := by
  constructor
  · rintro rfl
    refine ⟨⟨s.takeWhile isBlank, fun c => List.mem_takeWhile_imp,
      List.takeWhile_append_dropWhile.symm⟩, fun c hc => ?_⟩
    have hhead := List.head?_dropWhile_not isBlank s
    rw [trimStart] at hc
    rwa [Option.mem_def.mp hc] at hhead
  · rintro ⟨⟨before, hbefore, rfl⟩, hhead⟩
    rw [trimStart, List.dropWhile_append_of_pos hbefore]
    cases core with
    | nil => rfl
    | cons c rest => exact List.dropWhile_cons_of_neg (by simp [hhead c rfl])

theorem trimEnd_eq_reverse (s : List Char) : trimEnd s = (trimStart s.reverse).reverse :=
  rfl

theorem trimEnd_eq_iff {s core : List Char} :
    trimEnd s = core ↔
      (∃ after, (∀ c ∈ after, isBlank c = true) ∧ s = core ++ after) ∧
        ∀ c ∈ core.getLast?, isBlank c = false := by
  rw [trimEnd_eq_reverse, List.reverse_eq_iff, trimStart_eq_iff, List.head?_reverse]
  refine and_congr_left fun _ => ⟨?_, ?_⟩
  · rintro ⟨before, hbefore, hs⟩
    refine ⟨before.reverse, fun c hc => hbefore c (List.mem_reverse.mp hc), ?_⟩
    rw [← List.reverse_reverse s, hs, List.reverse_append, List.reverse_reverse]
  · rintro ⟨after, hafter, rfl⟩
    exact ⟨after.reverse, fun c hc => hafter c (List.mem_reverse.mp hc), List.reverse_append⟩

/-- **Trimming finds the text within the blanks.** -/
theorem trim_eq_iff {s core : List Char} : trim s = core ↔ Padded s core ∧ IsTrimmed core := by
  rw [trim, trimEnd_eq_iff]
  constructor
  · rintro ⟨⟨after, hafter, hstart⟩, hlast⟩
    obtain ⟨⟨before, hbefore, rfl⟩, hhead⟩ := trimStart_eq_iff.mp hstart
    refine ⟨⟨before, after, hbefore, hafter, (List.append_assoc ..).symm⟩,
      fun c hc => hhead c ?_, hlast⟩
    rw [List.head?_append, Option.mem_def.mp hc]
    rfl
  · rintro ⟨⟨before, after, hbefore, hafter, rfl⟩, hhead, hlast⟩
    cases core with
    | nil =>
      -- Nothing but blanks is taken away from the start at once.
      refine ⟨⟨[], nofun, trimStart_eq_iff.mpr ⟨⟨before ++ after, fun c hc => ?_, ?_⟩, nofun⟩⟩,
        hlast⟩
      · exact (List.mem_append.mp hc).elim (hbefore c) (hafter c)
      · rw [List.append_nil, List.append_nil, List.append_nil]
    | cons first rest =>
      refine ⟨⟨after, hafter, trimStart_eq_iff.mpr ⟨⟨before, hbefore, ?_⟩, hhead⟩⟩, hlast⟩
      rw [List.append_assoc]

end Darkroom.Text
