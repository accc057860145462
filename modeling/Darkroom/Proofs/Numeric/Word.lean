import Darkroom.Numeric.Word

/-!
# Numbers that are words

A number is taken for a word as it is, or does not fit; nothing else can come of it.

## Main results

* `Numeric.word_of_fits`, `Numeric.shortWord_of_lt` : numbers that fit.
* `Numeric.word_eq_error_iff` : numbers that do not.
-/

namespace Darkroom.Numeric

theorem word_of_fits {n : Int} (h : Fits n) : word n = .ok n := if_pos h

theorem word_eq_error_iff {n : Int} {cause : WordFault} :
    word n = .error cause ↔ ¬ Fits n ∧ cause = .overflow := by
  by_cases hfits : Fits n
  · rw [word_of_fits hfits]
    exact ⟨fun h => (nomatch h), fun h => absurd hfits h.1⟩
  · rw [word, if_neg hfits]
    exact ⟨fun h => ⟨hfits, (Except.error.inj h).symm⟩, fun h => congrArg _ h.2.symm⟩

theorem shortWord_of_lt {n : Nat} (h : n < UInt32.size) : shortWord n = .ok n := if_pos h

end Darkroom.Numeric
