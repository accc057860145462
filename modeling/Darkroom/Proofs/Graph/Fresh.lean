import Darkroom.Graph.Basic
import Mathlib.Data.List.Nodup
import Mathlib.Data.List.Perm.Subperm
import Mathlib.Tactic.Common

/-!
# Fresh identifiers

The search for a free identifier tries consecutive numbers after a stem. All numbers before the
one it ends at are taken (`Graph.firstFree_spec`), and as different numbers give different
identifiers, it cannot pass more numbers than there are nodes and links; so the identifier it ends
at is free (`Graph.freshId_not_taken`).

## Main results

* `Graph.firstFree_spec` : what the search for a free number finds.
* `Graph.freshId_not_taken` : a fresh identifier belongs to no node and no link.
-/

namespace Darkroom.Graph

/-- Different numbers after one stem are different identifiers. -/
theorem numbered_injective (stem : String) : Function.Injective (numbered stem) := by
  intro m n h
  have hrepr : m.repr = n.repr := (String.append_right_inj _).mp h
  have hdigits : Nat.toDigits 10 m = Nat.toDigits 10 n := by
    rw [← Nat.toList_repr, hrepr, Nat.toList_repr]
  calc m = Nat.ofDigitChars 10 (Nat.toDigits 10 m) 0 := Nat.ofDigitChars_ten_toDigits.symm
    _ = Nat.ofDigitChars 10 (Nat.toDigits 10 n) 0 := by rw [hdigits]
    _ = n := Nat.ofDigitChars_ten_toDigits

theorem isTaken_iff {g : Graph} {id : String} :
    g.isTaken id = true ↔ id ∈ g.nodes.map Node.id ++ g.links.map Link.id := by
  simp only [isTaken, Bool.or_eq_true, List.any_eq_true, decide_eq_true_eq, List.mem_append,
    List.mem_map]

theorem isTaken_eq_false_iff {g : Graph} {id : String} :
    g.isTaken id = false ↔ id ∉ g.nodes.map Node.id ∧ id ∉ g.links.map Link.id := by
  rw [← Bool.not_eq_true, isTaken_iff, List.mem_append, not_or]

/-- The search ends within its steps; the numbers before its end are taken, and the end is free
unless the steps have run out. -/
theorem firstFree_spec (g : Graph) (stem : String) (fuel n : Nat) :
    ∃ passed ≤ fuel, g.firstFree stem fuel n = n + passed ∧
      (∀ i < passed, g.isTaken (numbered stem (n + i)) = true) ∧
      (passed < fuel → g.isTaken (numbered stem (n + passed)) = false) := by
  induction fuel generalizing n with
  | zero =>
    exact ⟨0, Nat.le_refl 0, rfl, fun _ hi => absurd hi (Nat.not_lt_zero _),
      fun h => absurd h (Nat.not_lt_zero 0)⟩
  | succ fuel ih =>
    by_cases htaken : g.isTaken (numbered stem n) = true
    · obtain ⟨passed, hle, heq, hbefore, hfree⟩ := ih (n + 1)
      refine ⟨passed + 1, Nat.succ_le_succ hle, ?_, fun i hi => ?_, fun hlt => ?_⟩
      · rw [firstFree, if_pos htaken, heq]
        omega
      · cases i with
        | zero => exact htaken
        | succ i =>
          rw [Nat.add_comm i 1, ← Nat.add_assoc]
          exact hbefore i (Nat.lt_of_succ_lt_succ hi)
      · rw [Nat.add_comm passed 1, ← Nat.add_assoc]
        exact hfree (Nat.lt_of_succ_lt_succ hlt)
    · refine ⟨0, Nat.zero_le _, ?_, fun _ hi => absurd hi (Nat.not_lt_zero _), fun _ => ?_⟩
      · rw [firstFree, if_neg htaken]
        rfl
      · exact Bool.eq_false_iff.mpr htaken

/-- Not all of one more consecutive numbers than there are nodes and links are taken. -/
theorem exists_not_taken (g : Graph) (stem : String) (n : Nat) :
    ∃ i ≤ g.nodes.length + g.links.length, g.isTaken (numbered stem (n + i)) = false := by
  by_contra hall
  simp only [not_exists, not_and, Bool.not_eq_false] at hall
  let candidates := (List.range (g.nodes.length + g.links.length + 1)).map fun i =>
    numbered stem (n + i)
  have hnodup : candidates.Nodup :=
    List.nodup_range.map fun i j hij => Nat.add_left_cancel (numbered_injective stem hij)
  have hsub : candidates ⊆ g.nodes.map Node.id ++ g.links.map Link.id := by
    intro id hid
    obtain ⟨i, hi, rfl⟩ := List.mem_map.mp hid
    exact isTaken_iff.mp (hall i (Nat.le_of_lt_succ (List.mem_range.mp hi)))
  have hlength := (hnodup.subperm hsub).length_le
  simp only [candidates, List.length_map, List.length_range, List.length_append] at hlength
  omega

/-- A fresh identifier belongs to no node and no link. -/
theorem freshId_not_taken (g : Graph) (stem : String) :
    g.isTaken (g.freshId stem).1 = false := by
  obtain ⟨passed, hle, heq, hbefore, hfree⟩ :=
    g.firstFree_spec stem (g.nodes.length + g.links.length) g.nextId
  simp only [freshId, heq]
  rcases Nat.lt_or_eq_of_le hle with hlt | rfl
  · exact hfree hlt
  · -- The steps have run out, so the number that is free is not among those passed.
    obtain ⟨i, hi, hfree⟩ := g.exists_not_taken stem g.nextId
    rcases Nat.lt_or_eq_of_le hi with hlt | rfl
    · rw [hbefore i hlt] at hfree
      exact absurd hfree.symm Bool.false_ne_true
    · exact hfree

end Darkroom.Graph
