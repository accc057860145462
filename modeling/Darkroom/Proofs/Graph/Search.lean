import Darkroom.Graph.Basic
import Mathlib.Logic.Relation
import Mathlib.Tactic.Common

/-!
# Chains of links and the search along them

A node feeds another when a link leads from the first to the second (`Graph.Feeds`). The search
`Graph.dependsOn` is correct and complete for chains of such links (`Graph.dependsOn_iff`), in any
graph, with cycles or without. Its rounds are described without a bound on their number
(`Graph.Answers`), and the bound of the search is enough for them: every link is pushed once, when
its consumer is expanded, so the links into nodes not yet expanded bound the rounds to come
(`Graph.unexpanded`). The stack and the nodes that were expanded are related by one invariant,
`Graph.Frontier`: what feeds an expanded node is expanded or on the stack.

A graph is acyclic when no chain leads from a node back to it. A new link keeps this when its
producer does not depend on its consumer (`Graph.Acyclic.insert`).

## Main definitions

* `Graph.Feeds`, `Graph.Acyclic` : links as a relation, and the absence of cycles.
* `Graph.Answers` : the rounds of the search.
* `Graph.Frontier`, `Graph.unexpanded` : the invariant and the measure of the search.

## Main results

* `Graph.exists_answers` : the search comes to an end.
* `Graph.dependsOn_iff` : the search finds exactly the chains of links.
* `Graph.Acyclic.insert` : the links that close no cycle.
-/

namespace Darkroom.Graph

open Relation

/-! ### Chains of links -/

/-- Whether a link leads from the output of one node to a slot of another. -/
def Feeds (g : Graph) (producer consumer : String) : Prop :=
  ∃ link ∈ g.links, link.producer = producer ∧ link.consumer = consumer

/-- Whether no chain of links leads from a node back to it. -/
def Acyclic (g : Graph) : Prop := ∀ id, ¬ TransGen g.Feeds id id

theorem mem_producers {g : Graph} {producer consumer : String} :
    producer ∈ g.producers consumer ↔ g.Feeds producer consumer := by
  simp only [producers, Feeds, List.mem_map, List.mem_filter, decide_eq_true_eq]
  constructor
  · rintro ⟨link, ⟨hmem, hconsumer⟩, hproducer⟩
    exact ⟨link, hmem, hproducer, hconsumer⟩
  · rintro ⟨link, hmem, hproducer, hconsumer⟩
    exact ⟨link, ⟨hmem, hconsumer⟩, hproducer⟩

theorem Feeds.mono {g g' : Graph} (h : ∀ link ∈ g'.links, link ∈ g.links) : g'.Feeds ≤ g.Feeds := by
  rintro producer consumer ⟨link, hmem, hends⟩
  exact ⟨link, h link hmem, hends⟩

theorem Acyclic.mono {g g' : Graph} (hg : g.Acyclic) (h : ∀ link ∈ g'.links, link ∈ g.links) :
    g'.Acyclic :=
  fun id hcycle => hg id (TransGen.mono (Feeds.mono h) _ _ hcycle)

theorem Acyclic.of_links_eq {g g' : Graph} (hg : g.Acyclic) (h : g'.links = g.links) :
    g'.Acyclic :=
  hg.mono fun _ hmem => h ▸ hmem

/-- A chain in a graph with one more link either avoids that link or leads to its producer and on
from its consumer, provided that the producer does not depend on the consumer. -/
private theorem chain_of_insert {g g' : Graph} {link : Link}
    (hsub : ∀ l ∈ g'.links, l ∈ g.links ∨ l = link)
    (hindep : ¬ ReflTransGen g.Feeds link.consumer link.producer) {a b : String}
    (h : TransGen g'.Feeds a b) :
    TransGen g.Feeds a b ∨
      ReflTransGen g.Feeds a link.producer ∧ ReflTransGen g.Feeds link.consumer b := by
  have hstep : ∀ {x y}, g'.Feeds x y → g.Feeds x y ∨ x = link.producer ∧ y = link.consumer := by
    rintro x y ⟨l, hmem, rfl, rfl⟩
    rcases hsub l hmem with hold | rfl
    · exact .inl ⟨l, hold, rfl, rfl⟩
    · exact .inr ⟨rfl, rfl⟩
  induction h with
  | single hab =>
    rcases hstep hab with hold | ⟨rfl, rfl⟩
    · exact .inl (.single hold)
    · exact .inr ⟨.refl, .refl⟩
  | tail _ hbc ih =>
    rcases ih with hold | ⟨hto, hfrom⟩
    · rcases hstep hbc with hnew | ⟨rfl, rfl⟩
      · exact .inl (hold.tail hnew)
      · exact .inr ⟨hold.to_reflTransGen, .refl⟩
    · rcases hstep hbc with hnew | ⟨rfl, rfl⟩
      · exact .inr ⟨hto, hfrom.tail hnew⟩
      · exact absurd hfrom hindep

/-- A link whose producer does not depend on its consumer closes no cycle. -/
theorem Acyclic.insert {g g' : Graph} (hg : g.Acyclic) (link : Link)
    (hsub : ∀ l ∈ g'.links, l ∈ g.links ∨ l = link)
    (hindep : ¬ ReflTransGen g.Feeds link.consumer link.producer) : g'.Acyclic := by
  intro id hcycle
  rcases chain_of_insert hsub hindep hcycle with hold | ⟨hto, hfrom⟩
  · exact hg id hold
  · exact hindep (hfrom.trans hto)

/-! ### The search -/

/-- The search for a node ends after a number of rounds with an answer, where `seen` were taken from
the stack before. -/
inductive Answers (g : Graph) (ancestor : String) :
    (rounds : Nat) → (stack seen : List String) → (answer : Bool) → Prop
  | exhausted {seen : List String} : Answers g ancestor 0 [] seen false
  | found {stack seen : List String} : Answers g ancestor 1 (ancestor :: stack) seen true
  | skip {rounds : Nat} {current : String} {stack seen : List String} {answer : Bool}
      (hne : current ≠ ancestor) (hseen : current ∈ seen)
      (h : Answers g ancestor rounds stack seen answer) :
      Answers g ancestor (rounds + 1) (current :: stack) seen answer
  | expand {rounds : Nat} {current : String} {stack seen : List String} {answer : Bool}
      (hne : current ≠ ancestor) (hnew : current ∉ seen)
      (h : Answers g ancestor rounds ((g.producers current).reverse ++ stack) (current :: seen)
        answer) :
      Answers g ancestor (rounds + 1) (current :: stack) seen answer

/-- Entries without certain keys are those with one more key and those without that key too. -/
theorem countP_notMem_cons {α : Type} (key : α → String) (entries : List α) {k : String}
    {seen : List String} (h : k ∉ seen) :
    entries.countP (fun entry => key entry ∉ seen) =
      (entries.filter fun entry => key entry = k).length +
        entries.countP fun entry => key entry ∉ k :: seen := by
  induction entries with
  | nil => rfl
  | cons entry entries ih =>
    rw [List.countP_cons, List.countP_cons, List.filter_cons, ih]
    by_cases hentry : key entry = k
    · simp only [hentry, h, List.mem_cons, true_or, not_true_eq_false, not_false_eq_true,
        decide_true, decide_false, if_true, List.length_cons, Bool.false_eq_true, if_false]
      omega
    · simp only [hentry, List.mem_cons, false_or, decide_false, Bool.false_eq_true, if_false]
      omega

/-- The number of links into nodes that are not yet expanded. -/
def unexpanded (g : Graph) (seen : List String) : Nat :=
  g.links.countP fun link => link.consumer ∉ seen

/-- Expanding a node uses up the links into it. -/
theorem unexpanded_cons (g : Graph) {current : String} {seen : List String}
    (h : current ∉ seen) :
    g.unexpanded seen = (g.producers current).length + g.unexpanded (current :: seen) := by
  rw [producers, List.length_map]
  exact countP_notMem_cons Link.consumer g.links h

/-- With steps enough, the search comes to its end. -/
theorem answers_dependsLoop (g : Graph) (ancestor : String) {fuel : Nat}
    {stack seen : List String} (hfuel : stack.length + g.unexpanded seen < fuel) :
    ∃ rounds ≤ stack.length + g.unexpanded seen,
      g.Answers ancestor rounds stack seen (g.dependsLoop ancestor fuel stack seen) := by
  fun_induction dependsLoop g ancestor fuel stack seen with
  | case1 => exact absurd hfuel (Nat.not_lt_zero _)
  | case2 => exact ⟨0, Nat.zero_le _, .exhausted⟩
  | case3 =>
    refine ⟨1, ?_, .found⟩
    rw [List.length_cons]
    omega
  | case4 fuel current stack seen hne hseen ih =>
    rw [List.length_cons] at hfuel ⊢
    obtain ⟨rounds, hrounds, h⟩ := ih (by omega)
    exact ⟨rounds + 1, by omega, .skip hne (List.contains_iff_mem.mp hseen) h⟩
  | case5 fuel current stack seen hne hseen ih =>
    have hnew : current ∉ seen := fun hmem => hseen (List.contains_iff_mem.mpr hmem)
    have hcount := g.unexpanded_cons hnew
    rw [List.length_append, List.length_reverse] at ih
    rw [List.length_cons] at hfuel ⊢
    obtain ⟨rounds, hrounds, h⟩ := ih (by omega)
    exact ⟨rounds + 1, by omega, .expand hne hnew h⟩

/-- The search ends after at most one round for each link, and one more. -/
theorem exists_answers (g : Graph) (id ancestor : String) :
    ∃ rounds ≤ g.links.length + 1,
      g.Answers ancestor rounds [id] [] (g.dependsOn id ancestor) := by
  have hcount : g.unexpanded [] ≤ g.links.length := List.countP_le_length
  have hlength : [id].length = 1 := rfl
  have hfuel : [id].length + g.unexpanded [] < g.links.length + 2 := by omega
  obtain ⟨rounds, hrounds, h⟩ := g.answers_dependsLoop ancestor hfuel
  exact ⟨rounds, by omega, h⟩

/-- What the search keeps: no expanded node is the one looked for, and what feeds an expanded node
is expanded or on the stack. -/
structure Frontier (g : Graph) (ancestor : String) (stack seen : List String) : Prop where
  not_mem_seen : ancestor ∉ seen
  closed : ∀ consumer ∈ seen, ∀ producer, g.Feeds producer consumer →
    producer ∈ seen ∨ producer ∈ stack

/-- Expanding the top of the stack keeps the frontier. -/
theorem Frontier.expand {g : Graph} {ancestor current : String} {stack seen : List String}
    (h : g.Frontier ancestor (current :: stack) seen) (hne : current ≠ ancestor) :
    g.Frontier ancestor ((g.producers current).reverse ++ stack) (current :: seen) where
  not_mem_seen hmem := (List.mem_cons.mp hmem).elim (fun heq => hne heq.symm) h.not_mem_seen
  closed := by
    intro consumer hconsumer producer hfeeds
    rw [List.mem_append, List.mem_reverse, mem_producers, List.mem_cons]
    rcases List.mem_cons.mp hconsumer with rfl | hseen
    · exact .inr (.inl hfeeds)
    · rcases h.closed consumer hseen producer hfeeds with hold | hold
      · exact .inl (.inr hold)
      · rcases List.mem_cons.mp hold with rfl | hrest
        · exact .inl (.inl rfl)
        · exact .inr (.inr hrest)

/-- Leaving out a node that is already expanded keeps the frontier. -/
theorem Frontier.skip {g : Graph} {ancestor current : String} {stack seen : List String}
    (h : g.Frontier ancestor (current :: stack) seen) (hseen : current ∈ seen) :
    g.Frontier ancestor stack seen where
  not_mem_seen := h.not_mem_seen
  closed := by
    intro consumer hconsumer producer hfeeds
    rcases h.closed consumer hconsumer producer hfeeds with hold | hold
    · exact .inl hold
    · rcases List.mem_cons.mp hold with rfl | hrest
      · exact .inl hseen
      · exact .inr hrest

/-- With nothing on the stack, no expanded node depends on the one looked for. -/
theorem Frontier.not_chain {g : Graph} {ancestor : String} {seen : List String}
    (h : g.Frontier ancestor [] seen) {id : String} (hchain : ReflTransGen g.Feeds ancestor id) :
    id ∉ seen := by
  induction hchain with
  | refl => exact h.not_mem_seen
  | tail _ hfeeds ih =>
    intro hmem
    exact (h.closed _ hmem _ hfeeds).elim ih List.not_mem_nil

/-- If the search answers yes, a node on the stack depends on the one looked for. -/
theorem Answers.exists_chain {g : Graph} {ancestor : String} {rounds : Nat}
    {stack seen : List String} {answer : Bool}
    (h : g.Answers ancestor rounds stack seen answer) (hyes : answer = true) :
    ∃ id ∈ stack, ReflTransGen g.Feeds ancestor id := by
  induction h with
  | exhausted => exact absurd hyes Bool.false_ne_true
  | found => exact ⟨ancestor, List.mem_cons_self, .refl⟩
  | skip _ _ _ ih =>
    obtain ⟨id, hmem, hchain⟩ := ih hyes
    exact ⟨id, List.mem_cons_of_mem _ hmem, hchain⟩
  | @expand _ current _ _ _ _ _ _ ih =>
    obtain ⟨id, hmem, hchain⟩ := ih hyes
    rcases List.mem_append.mp hmem with hproducer | hrest
    · have hfeeds := mem_producers.mp (List.mem_reverse.mp hproducer)
      exact ⟨current, List.mem_cons_self, hchain.tail hfeeds⟩
    · exact ⟨id, List.mem_cons_of_mem _ hrest, hchain⟩

/-- If the search answers no, no node on the stack or expanded before depends on the one looked
for. -/
theorem Answers.not_chain {g : Graph} {ancestor : String} {rounds : Nat}
    {stack seen : List String} {answer : Bool}
    (h : g.Answers ancestor rounds stack seen answer) (hno : answer = false)
    (hfrontier : g.Frontier ancestor stack seen) {id : String}
    (hchain : ReflTransGen g.Feeds ancestor id) : id ∉ stack ∧ id ∉ seen := by
  induction h with
  | exhausted => exact ⟨List.not_mem_nil, hfrontier.not_chain hchain⟩
  | found => exact absurd hno.symm Bool.false_ne_true
  | skip _ hseen _ ih =>
    obtain ⟨hstack, hexpanded⟩ := ih hno (hfrontier.skip hseen)
    exact ⟨fun hid => (List.mem_cons.mp hid).elim (fun heq => hexpanded (heq ▸ hseen)) hstack,
      hexpanded⟩
  | expand hne _ _ ih =>
    obtain ⟨hstack, hexpanded⟩ := ih hno (hfrontier.expand hne)
    rw [List.mem_cons, not_or] at hexpanded
    refine ⟨fun hid => ?_, hexpanded.2⟩
    rcases List.mem_cons.mp hid with heq | hrest
    · exact hexpanded.1 heq
    · exact hstack (List.mem_append_right _ hrest)

/-- **The search finds exactly the chains of links.** -/
theorem dependsOn_iff (g : Graph) (id ancestor : String) :
    g.dependsOn id ancestor = true ↔ ReflTransGen g.Feeds ancestor id := by
  obtain ⟨rounds, -, hanswer⟩ := g.exists_answers id ancestor
  constructor
  · intro hyes
    obtain ⟨start, hmem, hchain⟩ := hanswer.exists_chain hyes
    rwa [List.mem_singleton.mp hmem] at hchain
  · intro hchain
    by_contra hno
    have hfrontier : g.Frontier ancestor [id] [] :=
      ⟨List.not_mem_nil, fun _ hmem => absurd hmem List.not_mem_nil⟩
    exact (hanswer.not_chain (Bool.eq_false_iff.mpr hno) hfrontier hchain).1 List.mem_cons_self

end Darkroom.Graph
