import Darkroom.Text.Substitution
import Mathlib.Data.List.TakeWhile
import Mathlib.Tactic.Common

/-!
# What a substitution puts in place of references

A reference is a name between `${` and the first closing brace after it (`Text.IsReference`). Where
references overlap or lie within each other, the one that begins first counts (`Text.IsFirst`), and
the next one is looked for after its closing brace. One step replaces the first reference of a text
and goes on with the text after it, so that values are put in as they are; a text without references
stays as it is. Every text is reached by such steps (`Text.induction_on_references`), and hence only
the values of the names that a text refers to count (`Text.substitute_congr`).

## Main definitions

* `Text.IsReference` : a reference within a text.
* `Text.IsFirst` : the reference that begins first.

## Main results

* `Text.substitute_of_isFirst`, `Text.references_of_isFirst` : one step.
* `Text.substitute_congr` : only the names referred to count.
* `Text.substitute_in_one_pass` : what becomes of every text.
-/

namespace Darkroom.Text

/-! ### References -/

/-- Whether a text refers to a name, by what stands before and after the reference. -/
def IsReference (s before name after : List Char) : Prop :=
  s = before ++ '$' :: '{' :: (name ++ '}' :: after) ∧ name ≠ [] ∧ '}' ∉ name

/-- Whether a reference is the first of a text: none begins further to the left. -/
def IsFirst (s before name after : List Char) : Prop :=
  IsReference s before name after ∧
    ∀ before' name' after', IsReference s before' name' after' → before.length ≤ before'.length

theorem isReference_cons {c c' : Char} {s before name after : List Char} :
    IsReference (c :: s) (c' :: before) name after ↔ c' = c ∧ IsReference s before name after := by
  rw [IsReference, IsReference, List.cons_append, List.cons.injEq, and_assoc, eq_comm (a := c)]

theorem exists_isFirst {s before name after : List Char} (h : IsReference s before name after) :
    ∃ before name after, IsFirst s before name after := by
  induction hlength : before.length using Nat.strong_induction_on
    generalizing before name after with
  | _ length ih =>
    by_cases hearlier : ∃ before' name' after',
        IsReference s before' name' after' ∧ before'.length < length
    · obtain ⟨before', name', after', h', hlt⟩ := hearlier
      exact ih _ hlt h' rfl
    · refine ⟨before, name, after, h, fun before' name' after' h' => Nat.le_of_not_lt fun hlt => ?_⟩
      exact hearlier ⟨before', name', after', h', hlength ▸ hlt⟩

/-- The first reference of a text that does not begin with one is the first of the rest. -/
theorem IsFirst.tail {c c' : Char} {s before name after : List Char}
    (h : IsFirst (c :: s) (c' :: before) name after) :
    c' = c ∧ (∀ name after, ¬ IsReference (c :: s) [] name after) ∧
      IsFirst s before name after := by
  obtain ⟨hreference, hleast⟩ := h
  obtain ⟨hc, hrest⟩ := isReference_cons.mp hreference
  refine ⟨hc, fun name' after' h' => ?_, hrest, fun before' name' after' h' => ?_⟩
  · exact absurd (hleast _ _ _ h') (Nat.not_succ_le_zero _)
  · exact Nat.le_of_succ_le_succ (hleast _ _ _ (isReference_cons.mpr ⟨rfl, h'⟩))

theorem nameAfter?_eq_some_iff {s name rest : List Char} :
    nameAfter? s = some (name, rest) ↔ s = name ++ '}' :: rest ∧ name ≠ [] ∧ '}' ∉ name := by
  constructor
  · intro h
    have hparts := List.takeWhile_append_dropWhile (p := fun c => decide (c ≠ '}')) (l := s)
    have hhead := List.head?_dropWhile_not (fun c => decide (c ≠ '}')) s
    have hname : '}' ∉ s.takeWhile fun c => decide (c ≠ '}') := fun hmem =>
      absurd (List.mem_takeWhile_imp hmem) (by decide)
    unfold nameAfter? at h
    split at h
    · exact nomatch h
    · exact nomatch h
    · next htake hdrop =>
      cases h
      rw [hdrop] at hhead
      rw [htake] at hname
      rw [htake, hdrop, of_not_not (of_decide_eq_false hhead)] at hparts
      exact ⟨hparts.symm, List.cons_ne_nil _ _, hname⟩
  · rintro ⟨rfl, hne, hname⟩
    have hpass : ∀ c ∈ name, decide (c ≠ '}') = true := fun c hc =>
      decide_eq_true fun heq => hname (heq ▸ hc)
    obtain ⟨c, tail, rfl⟩ := List.exists_cons_of_ne_nil hne
    rw [nameAfter?, List.takeWhile_append_of_pos hpass, List.dropWhile_append_of_pos hpass]
    simp

/-! ### One step -/

section Step

variable (env : Environment)

theorem substitute_reference {name : List Char} (after : List Char) (hne : name ≠ [])
    (hname : '}' ∉ name) :
    substitute env ('$' :: '{' :: (name ++ '}' :: after)) =
      replacement env name ++ substitute env after := by
  have hafter : nameAfter? (name ++ '}' :: after) = some (name, after) :=
    nameAfter?_eq_some_iff.mpr ⟨rfl, hne, hname⟩
  rw [substitute]
  split
  · next found rest hfound =>
    rw [hafter] at hfound
    cases hfound
    rfl
  · next hnone =>
    rw [hafter] at hnone
    cases hnone

theorem substitute_cons {c : Char} {s : List Char}
    (h : ∀ name after, ¬ IsReference (c :: s) [] name after) :
    substitute env (c :: s) = c :: substitute env s := by
  by_cases hopens : c = '$' ∧ ∃ after, s = '{' :: after
  · obtain ⟨rfl, after, rfl⟩ := hopens
    rw [substitute]
    split
    · next name rest hfound =>
      obtain ⟨rfl, hne, hname⟩ := nameAfter?_eq_some_iff.mp hfound
      exact absurd ⟨rfl, hne, hname⟩ (h name rest)
    · rfl
  · rw [substitute]
    rintro after rfl rfl
    exact hopens ⟨rfl, after, rfl⟩

end Step

theorem references_reference {name : List Char} (after : List Char) (hne : name ≠ [])
    (hname : '}' ∉ name) :
    references ('$' :: '{' :: (name ++ '}' :: after)) = String.ofList name :: references after := by
  have hafter : nameAfter? (name ++ '}' :: after) = some (name, after) :=
    nameAfter?_eq_some_iff.mpr ⟨rfl, hne, hname⟩
  rw [references]
  split
  · next found rest hfound =>
    rw [hafter] at hfound
    cases hfound
    rfl
  · next hnone =>
    rw [hafter] at hnone
    cases hnone

theorem references_cons {c : Char} {s : List Char}
    (h : ∀ name after, ¬ IsReference (c :: s) [] name after) :
    references (c :: s) = references s := by
  by_cases hopens : c = '$' ∧ ∃ after, s = '{' :: after
  · obtain ⟨rfl, after, rfl⟩ := hopens
    rw [references]
    split
    · next name rest hfound =>
      obtain ⟨rfl, hne, hname⟩ := nameAfter?_eq_some_iff.mp hfound
      exact absurd ⟨rfl, hne, hname⟩ (h name rest)
    · rfl
  · rw [references]
    rintro after rfl rfl
    exact hopens ⟨rfl, after, rfl⟩

/-! ### From one reference to the next -/

section Texts

variable {env env' : Environment} {s before name after : List Char}

/-- **The first reference is replaced**, and the text after it is gone through by itself. -/
theorem substitute_of_isFirst (h : IsFirst s before name after) :
    substitute env s = before ++ replacement env name ++ substitute env after := by
  induction before generalizing s with
  | nil =>
    obtain ⟨⟨rfl, hne, hname⟩, -⟩ := h
    exact substitute_reference env after hne hname
  | cons c before ih =>
    obtain ⟨hs, -, -⟩ := h.1
    obtain ⟨rest, rfl⟩ : ∃ rest, s = c :: rest := ⟨_, hs⟩
    obtain ⟨-, hnone, hrest⟩ := h.tail
    rw [substitute_cons env hnone, ih hrest, List.cons_append, List.cons_append]

theorem references_of_isFirst (h : IsFirst s before name after) :
    references s = String.ofList name :: references after := by
  induction before generalizing s with
  | nil =>
    obtain ⟨⟨rfl, hne, hname⟩, -⟩ := h
    exact references_reference after hne hname
  | cons c before ih =>
    obtain ⟨hs, -, -⟩ := h.1
    obtain ⟨rest, rfl⟩ : ∃ rest, s = c :: rest := ⟨_, hs⟩
    obtain ⟨-, hnone, hrest⟩ := h.tail
    rw [references_cons hnone, ih hrest]

/-- A text without references stays as it is. -/
theorem substitute_of_no_reference (h : ∀ before name after, ¬ IsReference s before name after) :
    substitute env s = s ∧ references s = [] := by
  induction s with
  | nil => exact ⟨by rw [substitute], by rw [references]⟩
  | cons c s ih =>
    obtain ⟨hsubstitute, hreferences⟩ := ih fun before name after h' =>
      h (c :: before) name after (isReference_cons.mpr ⟨rfl, h'⟩)
    rw [substitute_cons env (h []), references_cons (h []), hsubstitute]
    exact ⟨rfl, hreferences⟩

/-- What holds of texts without references, and of a text when it holds of what is after its first
reference, holds of every text. -/
theorem induction_on_references {motive : List Char → Prop}
    (plain : ∀ s, (∀ before name after, ¬ IsReference s before name after) → motive s)
    (reference : ∀ s before name after, IsFirst s before name after → motive after → motive s)
    (s : List Char) : motive s := by
  induction hlength : s.length using Nat.strong_induction_on generalizing s with
  | _ length ih =>
    by_cases hany : ∃ before name after, IsReference s before name after
    · obtain ⟨_, _, _, hreference⟩ := hany
      obtain ⟨before, name, after, hfirst⟩ := exists_isFirst hreference
      refine reference s before name after hfirst (ih _ ?_ after rfl)
      rw [← hlength, hfirst.1.1]
      simp only [List.length_append, List.length_cons]
      omega
    · exact plain s fun before name after h => hany ⟨before, name, after, h⟩

/-- **Only the names that a text refers to count.** -/
theorem substitute_congr (h : ∀ name ∈ references s, env name = env' name) :
    substitute env s = substitute env' s := by
  induction s using induction_on_references with
  | plain s hnone =>
    rw [(substitute_of_no_reference hnone).1, (substitute_of_no_reference hnone).1]
  | reference s before name after hfirst ih =>
    rw [references_of_isFirst hfirst, List.forall_mem_cons] at h
    have hreplacement : replacement env name = replacement env' name := by
      rw [replacement, replacement, h.1]
    rw [substitute_of_isFirst hfirst, substitute_of_isFirst hfirst, ih h.2, hreplacement]

/-- Where no variable is set, every text stays as it is. -/
theorem substitute_unset (s : List Char) : substitute (fun _ => none) s = s := by
  induction s using induction_on_references with
  | plain s hnone => exact (substitute_of_no_reference hnone).1
  | reference s before name after hfirst ih =>
    rw [substitute_of_isFirst hfirst, ih, hfirst.1.1, replacement]
    simp

end Texts

/-- **Substitution is one pass from left to right.** Where a text has references, there is one that
begins first. The text before it stays; the reference becomes the value of its variable, which is
not looked at again, or stays as written where the variable is not set; and the text after it is
gone through in the same way. A text without references stays as it is, and so does one that refers
to no variable that is set. -/
theorem substitute_in_one_pass (env : Environment) (s : List Char) :
    (∀ before name after, IsFirst s before name after →
      (∀ value, env (String.ofList name) = some value →
        substitute env s = before ++ value.toList ++ substitute env after) ∧
      (env (String.ofList name) = none →
        substitute env s = before ++ ['$', '{'] ++ name ++ ['}'] ++ substitute env after) ∧
      references s = String.ofList name :: references after) ∧
    ((∀ before name after, ¬ IsReference s before name after) →
      substitute env s = s ∧ references s = []) ∧
    ((∃ before name after, IsReference s before name after) →
      ∃ before name after, IsFirst s before name after) ∧
    ((∀ name ∈ references s, env name = none) → substitute env s = s) := by
  refine ⟨fun before name after hfirst => ⟨fun value hset => ?_, fun hunset => ?_,
      references_of_isFirst hfirst⟩,
    substitute_of_no_reference, fun ⟨_, _, _, h⟩ => exists_isFirst h, fun hunset => ?_⟩
  · rw [substitute_of_isFirst hfirst, replacement, hset]
  · rw [substitute_of_isFirst hfirst, replacement, hunset]
    simp
  · rw [substitute_congr hunset, substitute_unset]

/-- Braces without a name, a name of two lines, and an opening without an end. -/
def oddRest : List Char := "$\x7b\x7d$\x7bB\n\x7d$\x7b".toList

/-- A dollar sign stands before the reference, and its value looks like a reference. -/
theorem oddTemplate_substituted :
    IsFirst ("a$$\x7bA\x7d".toList ++ oddRest) "a$".toList "A".toList oddRest ∧
    substitute (fun name => if name = "A" then some "$\x7bB\x7d" else none)
      ("a$$\x7bA\x7d".toList ++ oddRest) = "a$$\x7bB\x7d".toList ++ oddRest := by
  have hfirst : IsFirst ("a$$\x7bA\x7d".toList ++ oddRest) "a$".toList "A".toList oddRest := by
    refine ⟨⟨by decide, by decide, by decide⟩, fun before name after h => ?_⟩
    have hs : 'a' :: '$' :: '$' :: ("\x7bA\x7d".toList ++ oddRest) =
        before ++ '$' :: '{' :: (name ++ '}' :: after) := h.1
    rcases before with _ | ⟨c, _ | ⟨d, before⟩⟩
    · exact absurd (List.cons.inj hs).1 (by decide)
    · exact absurd (List.cons.inj (List.cons.inj (List.cons.inj hs).2).2).1 (by decide)
    · exact Nat.le_add_left 2 before.length
  have hrest := (substitute_in_one_pass
    (fun name => if name = "A" then some "$\x7bB\x7d" else none) oddRest).2.2.2 (by decide +kernel)
  refine ⟨hfirst, ?_⟩
  rw [((substitute_in_one_pass _ _).1 _ _ _ hfirst).1 "$\x7bB\x7d" (by decide), hrest]
  decide

end Darkroom.Text
