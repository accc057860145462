import Darkroom.Fault
import Mathlib.Logic.Basic

/-!
# Computations that may fail

A chain of computations succeeds exactly when each of them does. What holds of the value and of the
failure of each (`Yields`) holds of those of the chain, and of a loop it holds when every round
keeps it.

## Main definitions

* `Yields` : what holds of a value, and of a failure where there is no value.

## Main results

* `bind_eq_ok_iff`, `bind_eq_error_iff` : the results of a chain.
* `mem_mapM_iff` : the results of a loop that collects them.
* `Yields.bind`, `Yields.foldlM` : chains and loops.
-/

namespace Darkroom

variable {ε α β : Type}

@[simp] theorem ok_bind (a : α) (f : α → Except ε β) : (Except.ok a >>= f) = f a :=
  rfl

@[simp] theorem error_bind (e : ε) (f : α → Except ε β) : (Except.error e >>= f) = .error e :=
  rfl

@[simp] theorem ok_map (a : α) (f : α → β) : (Except.ok a : Except ε α).map f = .ok (f a) :=
  rfl

theorem exists_of_isOk {x : Except ε α} (h : x.isOk) : ∃ a, x = .ok a := by
  cases x with
  | ok a => exact ⟨a, rfl⟩
  | error e => cases h

theorem exists_of_not_isOk {x : Except ε α} (h : ¬ x.isOk) : ∃ e, x = .error e := by
  cases x with
  | ok a => exact absurd rfl h
  | error e => exact ⟨e, rfl⟩

theorem bind_eq_ok_iff {x : Except ε α} {f : α → Except ε β} {b : β} :
    x >>= f = .ok b ↔ ∃ a, x = .ok a ∧ f a = .ok b := by
  cases x with
  | ok a =>
    constructor
    · exact fun h => ⟨a, rfl, h⟩
    · rintro ⟨_, heq, h⟩
      rwa [← Except.ok.inj heq] at h
  | error fault =>
    constructor
    · exact fun h => nomatch h
    · rintro ⟨_, h, -⟩
      exact nomatch h

theorem bind_eq_error_iff {x : Except ε α} {f : α → Except ε β} {e : ε} :
    x >>= f = .error e ↔ x = .error e ∨ ∃ a, x = .ok a ∧ f a = .error e := by
  cases x with
  | ok a =>
    constructor
    · exact fun h => .inr ⟨a, rfl, h⟩
    · rintro (h | ⟨_, heq, h⟩)
      · exact nomatch h
      · rwa [← Except.ok.inj heq] at h
  | error fault =>
    constructor
    · exact fun h => .inl (congrArg _ (Except.error.inj h))
    · rintro (h | ⟨_, h, -⟩)
      · exact congrArg _ (Except.error.inj h)
      · exact nomatch h

/-- A check before something else. -/
theorem check_bind_eq_ok_iff {check : Except ε Unit} {x : Except ε β} {b : β} :
    (check >>= fun _ => x) = .ok b ↔ check = .ok () ∧ x = .ok b := by
  rw [bind_eq_ok_iff]
  constructor
  · rintro ⟨⟨⟩, hcheck, hx⟩
    exact ⟨hcheck, hx⟩
  · rintro ⟨hcheck, hx⟩
    exact ⟨(), hcheck, hx⟩

/-- The results of a loop that collects results are those of its rounds. -/
theorem mem_mapM_iff {f : α → Except ε β} {l : List α} {results : List β}
    (h : l.mapM f = .ok results) {b : β} : b ∈ results ↔ ∃ a ∈ l, f a = .ok b := by
  induction l generalizing results with
  | nil =>
    obtain rfl : [] = results := Except.ok.inj h
    exact ⟨fun hb => absurd hb List.not_mem_nil, fun ⟨_, ha, _⟩ => absurd ha List.not_mem_nil⟩
  | cons a l ih =>
    rw [List.mapM_cons] at h
    obtain ⟨first, hfirst, hrest⟩ := bind_eq_ok_iff.mp h
    obtain ⟨others, hothers, hall⟩ := bind_eq_ok_iff.mp hrest
    obtain rfl : first :: others = results := Except.ok.inj hall
    rw [List.mem_cons, ih hothers]
    constructor
    · rintro (rfl | ⟨a', ha', hb⟩)
      · exact ⟨a, List.mem_cons_self, hfirst⟩
      · exact ⟨a', List.mem_cons_of_mem a ha', hb⟩
    · rintro ⟨a', ha', hb⟩
      rcases List.mem_cons.mp ha' with rfl | ha'
      · exact .inl (Except.ok.inj (hb.symm.trans hfirst))
      · exact .inr ⟨a', ha', hb⟩

/-! ### What holds of a value or of a failure -/

/-- What holds of the value of a computation, and of its failure where there is no value. -/
def Yields (P : α → Prop) (Q : ε → Prop) : Except ε α → Prop
  | .ok a => P a
  | .error e => Q e

namespace Yields

variable {P : α → Prop} {P' : β → Prop} {Q : ε → Prop}

theorem bind {x : Except ε α} {f : α → Except ε β} (hx : Yields P Q x)
    (hf : ∀ a, P a → Yields P' Q (f a)) : Yields P' Q (x >>= f) := by
  cases x with
  | ok a => exact hf a hx
  | error e => exact hx

theorem imp {Q' : ε → Prop} {x : Except ε α} (hx : Yields P Q x) (h : ∀ e, Q e → Q' e) :
    Yields P Q' x := by
  cases x with
  | ok a => exact hx
  | error e => exact h e hx

/-- What every round of a loop keeps, the loop keeps, and its failure is that of a round. -/
theorem foldlM {ι : Type} {l : List ι} {f : α → ι → Except ε α}
    (h : ∀ i ∈ l, ∀ a, P a → Yields P Q (f a i)) {start : α} (hstart : P start) :
    Yields P Q (l.foldlM f start) := by
  induction l generalizing start with
  | nil => exact hstart
  | cons i l ih =>
    rw [List.foldlM_cons]
    exact (h i List.mem_cons_self start hstart).bind fun _ =>
      ih fun j hj => h j (List.mem_cons_of_mem i hj)

end Yields

end Darkroom
