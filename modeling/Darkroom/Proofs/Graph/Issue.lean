import Darkroom.Proofs.Graph.Reachable

/-!
# Identifiers that are handed out

An edit that gives back an identifier has drawn it: it has searched for a free one from the number
that the graph counts on with (`Graph.draws`). The counter never goes back, and an identifier tells
the number that it was drawn with whatever stem is before it (`Graph.numbered_number_injective`). So
no identifier is handed out twice, also when nodes and links with earlier ones are gone by then
(`Graph.nodup_issuedBy`).

The search itself runs on a counter of 64 bits, which would go round after the last number, and has
no bound of its own (`Graph.Search`). It has one outcome (`Graph.Search.unique`), and until the
counter has gone round that is the fresh identifier of the graph, found after no more candidates
than there are nodes and links, and one (`Graph.search_freshId`).

## Main definitions

* `Graph.issued`, `Graph.issuedBy` : the identifiers that edits give back.
* `Graph.Search` : the search for a free identifier, candidate by candidate.
* `Graph.Draws` : what an edit does to the counter.

## Main results

* `Graph.search_freshId` : where the search ends.
* `Graph.nodup_issuedBy` : no identifier is handed out twice.
* `Graph.issued_ids_are_fresh` : what identifiers edits hand out.
-/

namespace Darkroom.Graph

/-! ### Numbers of identifiers -/

private theorem eq_of_append_hyphen {l l' s s' : List Char} (hs : '-' ∉ s) (hs' : '-' ∉ s')
    (h : l ++ '-' :: s = l' ++ '-' :: s') : s = s' := by
  have hlast : ∀ {l s : List Char}, '-' ∉ s →
      ((l ++ '-' :: s).reverse.takeWhile (· ≠ '-')).reverse = s := by
    intro l s hs
    rw [List.reverse_append, List.reverse_cons, List.append_assoc, List.singleton_append,
      List.takeWhile_append_of_pos, List.takeWhile_cons_of_neg (by simp), List.append_nil,
      List.reverse_reverse]
    intro c hc
    refine decide_eq_true ?_
    rintro rfl
    exact hs (List.mem_reverse.mp hc)
  rw [← hlast (l := l) hs, h, hlast hs']

/-- An identifier tells its number, whatever the stem. -/
theorem numbered_number_injective {stem stem' : String} {m n : Nat}
    (h : numbered stem m = numbered stem' n) : m = n := by
  have hdigits : ∀ n, '-' ∉ Nat.toDigits 10 n := by
    intro n hmem
    exact absurd (Nat.isDigit_of_mem_toDigits (by decide) (by decide) hmem) (by decide)
  have hlist : ∀ stem n, (numbered stem n).toList = stem.toList ++ '-' :: Nat.toDigits 10 n := by
    intro stem n
    show (stem ++ "-" ++ n.repr).toList = _
    rw [String.toList_append, String.toList_append, Nat.toList_repr, List.append_assoc]
    rfl
  have hsame : Nat.toDigits 10 m = Nat.toDigits 10 n := by
    have htexts := congrArg String.toList h
    rw [hlist, hlist] at htexts
    exact eq_of_append_hyphen (hdigits m) (hdigits n) htexts
  refine numbered_injective stem ?_
  rw [← String.toList_inj, hlist, hlist, hsame]

/-! ### Searches -/

/-- A search for a free identifier from a number on: what is taken leads to the next number. It ends
after some candidates with an identifier, and leaves the number after it. -/
inductive Search (g : Graph) (stem : String) :
    (counter : UInt64) → (candidates : Nat) → (id : String) → (after : UInt64) → Prop
  | free {counter : UInt64} (hfree : g.isTaken (numbered stem counter.toNat) = false) :
    Search g stem counter 1 (numbered stem counter.toNat) (counter + 1)
  | taken {counter after : UInt64} {candidates : Nat} {id : String}
      (htaken : g.isTaken (numbered stem counter.toNat) = true)
      (h : Search g stem (counter + 1) candidates id after) :
    Search g stem counter (candidates + 1) id after

variable {g : Graph} {stem : String}

/-- **A search has one outcome.** -/
theorem Search.unique {counter after after' : UInt64} {m n : Nat} {id id' : String}
    (h : g.Search stem counter m id after) (h' : g.Search stem counter n id' after') :
    m = n ∧ id = id' ∧ after = after' := by
  induction h generalizing n with
  | free hfree =>
    cases h' with
    | free => exact ⟨rfl, rfl, rfl⟩
    | taken htaken => exact absurd (hfree.symm.trans htaken) Bool.false_ne_true
  | taken htaken _ ih =>
    cases h' with
    | free hfree => exact absurd (hfree.symm.trans htaken) Bool.false_ne_true
    | taken _ h' =>
      obtain ⟨rfl, rfl, rfl⟩ := ih h'
      exact ⟨rfl, rfl, rfl⟩

/-- A search passes the numbers that are taken. -/
theorem search_of_passed {passed n : Nat} (hn : n + passed < UInt64.size)
    (htaken : ∀ i < passed, g.isTaken (numbered stem (n + i)) = true)
    (hfree : g.isTaken (numbered stem (n + passed)) = false) :
    g.Search stem (.ofNat n) (passed + 1) (numbered stem (n + passed))
      (.ofNat (n + passed + 1)) := by
  have hcounter : (UInt64.ofNat n).toNat = n :=
    UInt64.toNat_ofNat_of_lt' (by omega)
  induction passed generalizing n with
  | zero =>
    simp only [Nat.add_zero] at hfree ⊢
    have hend := Search.free (by rwa [hcounter] : g.isTaken _ = false)
    rw [hcounter] at hend
    rw [UInt64.ofNat_add]
    exact hend
  | succ passed ih =>
    have hnext : n + (passed + 1) = n + 1 + passed := by omega
    rw [hnext] at hn hfree ⊢
    refine .taken (by rw [hcounter]; exact htaken 0 (Nat.succ_pos passed)) ?_
    show g.Search stem (.ofNat n + .ofNat 1) _ _ _
    rw [← UInt64.ofNat_add]
    refine ih hn (fun i hi => ?_) hfree (UInt64.toNat_ofNat_of_lt' (by omega))
    rw [Nat.add_assoc, Nat.add_comm 1]
    exact htaken (i + 1) (Nat.succ_lt_succ hi)

/-- The identifier that a graph finds free, and the number that it counts on with. -/
theorem freshId_spec (g : Graph) (stem : String) :
    ∃ passed ≤ g.nodes.length + g.links.length,
      (g.freshId stem).1 = numbered stem (g.nextId + passed) ∧
      (g.freshId stem).2.nextId = g.nextId + passed + 1 ∧
      ∀ i < passed, g.isTaken (numbered stem (g.nextId + i)) = true := by
  obtain ⟨passed, hle, heq, htaken, -⟩ :=
    g.firstFree_spec stem (g.nodes.length + g.links.length) g.nextId
  exact ⟨passed, hle, by rw [freshId, heq], by rw [freshId, heq], htaken⟩

/-- **Where the search ends**: at the fresh identifier, after no more candidates than there are
nodes and links, and one, as long as the numbers are not used up. -/
theorem search_freshId (g : Graph) (stem : String)
    (hcount : (g.freshId stem).2.nextId ≤ UInt64.size) :
    ∃ candidates ≤ g.nodes.length + g.links.length + 1,
      g.Search stem (.ofNat g.nextId) candidates (g.freshId stem).1
        (.ofNat (g.freshId stem).2.nextId) ∧
      (g.freshId stem).2.nextId = g.nextId + candidates := by
  obtain ⟨passed, hle, hid, hnext, htaken⟩ := g.freshId_spec stem
  have hfree := g.freshId_not_taken stem
  rw [hnext] at hcount ⊢
  rw [hid] at hfree ⊢
  exact ⟨passed + 1, Nat.succ_le_succ hle, search_of_passed (by omega) htaken hfree, rfl⟩

/-! ### Edits -/

/-- Whether an edit stores a graph and loads it again. -/
def Edit.isReload : Edit → Bool
  | .reload _ => true
  | _ => false

/-- The identifier that an edit gives back. -/
def issued (g : Graph) : Edit → Option String
  | .addNode kind => (g.addNode kind).toOption.map Prod.fst
  | .create registry name => (g.create registry name).toOption.map Prod.fst
  | .connect producer consumer slot => (g.connect producer consumer slot).1.toOption
  | _ => none

/-- The identifiers that edits give back in turn. -/
def issuedBy (g : Graph) : List Edit → List String
  | [] => []
  | edit :: edits => (g.issued edit).toList ++ (g.apply edit).issuedBy edits

/-- What an edit does to the counter: nothing, or it draws the fresh identifier of a stem, which is
the one that it gives back, if it gives back any. -/
inductive Draws (g : Graph) (edit : Edit) : Prop
  | nothing (hissued : g.issued edit = none) (hcounter : (g.apply edit).nextId = g.nextId)
  | fresh (stem : String) (hissued : ∀ id, g.issued edit = some id → id = (g.freshId stem).1)
    (hcounter : (g.apply edit).nextId = (g.freshId stem).2.nextId)

theorem addNode_cases (g : Graph) (kind : NodeKind) :
    (∃ fault, g.addNode kind = .error fault) ∨ ∃ nodes, g.addNode kind =
      .ok ((g.freshId kind.name.toLower).1, { (g.freshId kind.name.toLower).2 with nodes }) := by
  unfold addNode
  split
  · exact .inl ⟨_, rfl⟩
  · exact .inr ⟨_, rfl⟩

/-- An edit that adds a node of a kind, or fails. -/
theorem Draws.of_addNode {edit : Edit} {kind : NodeKind}
    (hissued : g.issued edit = (g.addNode kind).toOption.map Prod.fst)
    (happly : g.apply edit = ((g.addNode kind).toOption.map Prod.snd).getD g) : g.Draws edit := by
  obtain ⟨fault, hadd⟩ | ⟨nodes, hadd⟩ := g.addNode_cases kind
  · rw [hadd] at hissued happly
    exact .nothing hissued (by rw [happly]; rfl)
  · rw [hadd] at hissued happly
    refine .fresh kind.name.toLower (fun id hid => ?_) (by rw [happly]; rfl)
    exact (Option.some.inj (hissued.symm.trans hid)).symm

theorem draws_connect (g : Graph) (producer consumer slot : String) :
    g.Draws (.connect producer consumer slot) := by
  refine .fresh "link" (fun id hid => ?_) ?_
  · rw [issued, connect] at hid
    dsimp only at hid
    split at hid
    · exact (Option.some.inj hid).symm
    · exact nomatch hid
  · rw [apply]
    rcases g.connect_eq producer consumer slot with hrefused | hlinked
    · rw [hrefused]
    · obtain ⟨-, -, -, heq⟩ := insertLink_eq_ok_iff.mp hlinked
      rw [heq]

/-- Every edit but loading leaves the counter or draws an identifier. -/
theorem draws (g : Graph) {edit : Edit} (hedit : edit.isReload = false) : g.Draws edit := by
  cases edit with
  | addNode kind => exact .of_addNode rfl rfl
  | create registry name =>
    cases hkind : registry.resolve? name with
    | some kind =>
      have hcreate : g.create registry name = g.addNode kind := by rw [create, hkind]
      exact .of_addNode (by rw [issued, hcreate]) (by rw [apply, hcreate])
    | none =>
      refine .nothing ?_ ?_
      · rw [issued, create, hkind]
        rfl
      · rw [apply, create, hkind]
        rfl
  | setData id data =>
    refine .nothing rfl (getD_of_ok (P := (Graph.nextId · = g.nextId)) rfl fun _ hset => ?_)
    rw [setData_eq_ok hset]
  | setPosition id position =>
    refine .nothing rfl (getD_of_ok (P := (Graph.nextId · = g.nextId)) rfl fun _ hset => ?_)
    rw [setPosition_eq_ok hset]
  | removeNode id =>
    refine .nothing rfl (getD_of_ok_snd (P := (Graph.nextId · = g.nextId)) rfl
      fun _ _ hremove => ?_)
    obtain ⟨node, -, hremove⟩ := bind_eq_ok_iff.mp hremove
    split_ifs at hremove
    cases hremove
    rfl
  | connect producer consumer slot => exact g.draws_connect producer consumer slot
  | disconnect consumer slot =>
    refine .nothing rfl ?_
    rw [apply, disconnect]
    cases g.linkInto? consumer slot with
    | none => rfl
    | some link => rfl
  | reload registry => cases hedit

/-! ### Edits in turn -/

/-- The counter does not go back. -/
theorem Draws.nextId_le {edit : Edit} (h : g.Draws edit) : g.nextId ≤ (g.apply edit).nextId := by
  cases h with
  | nothing _ hcounter => exact Nat.le_of_eq hcounter.symm
  | fresh stem _ hcounter =>
    obtain ⟨passed, -, -, hnext, -⟩ := g.freshId_spec stem
    omega

/-- The number of an identifier lies between the counter before and after. -/
theorem Draws.exists_number {edit : Edit} (h : g.Draws edit) {id : String}
    (hid : g.issued edit = some id) :
    ∃ stem n, id = numbered stem n ∧ g.nextId ≤ n ∧ n < (g.apply edit).nextId := by
  cases h with
  | nothing hissued _ => exact nomatch hissued.symm.trans hid
  | fresh stem hissued hcounter =>
    obtain ⟨passed, -, hfresh, hnext, -⟩ := g.freshId_spec stem
    exact ⟨stem, g.nextId + passed, (hissued id hid).trans hfresh, by omega, by omega⟩

theorem Draws.not_taken {edit : Edit} (h : g.Draws edit) {id : String}
    (hid : g.issued edit = some id) : g.isTaken id = false := by
  cases h with
  | nothing hissued _ => exact nomatch hissued.symm.trans hid
  | fresh stem hissued _ =>
    rw [hissued id hid]
    exact g.freshId_not_taken stem

variable {edits : List Edit}

theorem nextId_le_foldl (hedits : ∀ edit ∈ edits, edit.isReload = false) :
    g.nextId ≤ (edits.foldl apply g).nextId := by
  induction edits generalizing g with
  | nil => exact Nat.le_refl _
  | cons edit edits ih =>
    rw [List.forall_mem_cons] at hedits
    exact Nat.le_trans (g.draws hedits.1).nextId_le (ih hedits.2)

/-- Identifiers that are handed out from now on have numbers that have not been tried. -/
theorem exists_number_of_mem_issuedBy (hedits : ∀ edit ∈ edits, edit.isReload = false) {id : String}
    (hid : id ∈ g.issuedBy edits) : ∃ stem n, id = numbered stem n ∧ g.nextId ≤ n := by
  induction edits generalizing g with
  | nil => exact nomatch hid
  | cons edit edits ih =>
    rw [List.forall_mem_cons] at hedits
    rw [issuedBy, List.mem_append, Option.mem_toList] at hid
    have hdraws := g.draws hedits.1
    rcases hid with hid | hid
    · obtain ⟨stem, n, heq, hle, -⟩ := hdraws.exists_number hid
      exact ⟨stem, n, heq, hle⟩
    · obtain ⟨stem, n, heq, hle⟩ := ih hedits.2 hid
      exact ⟨stem, n, heq, Nat.le_trans hdraws.nextId_le hle⟩

/-- **No identifier is handed out twice.** -/
theorem nodup_issuedBy (g : Graph) (hedits : ∀ edit ∈ edits, edit.isReload = false) :
    (g.issuedBy edits).Nodup := by
  induction edits generalizing g with
  | nil => exact List.nodup_nil
  | cons edit edits ih =>
    rw [List.forall_mem_cons] at hedits
    rw [issuedBy, List.nodup_append']
    refine ⟨?_, ih _ hedits.2, fun id hnow hlater => ?_⟩
    · cases g.issued edit with
      | none => exact List.nodup_nil
      | some id => exact List.nodup_singleton id
    · rw [Option.mem_toList] at hnow
      obtain ⟨stem, m, hm, -, hlt⟩ := (g.draws hedits.1).exists_number hnow
      obtain ⟨stem', n, hn, hle⟩ := exists_number_of_mem_issuedBy hedits.2 hlater
      -- The one was drawn before the counter passed its number, the other after.
      have hsame := numbered_number_injective (hm.symm.trans hn)
      omega

/-- **What identifiers edits hand out.** While a graph is edited and not loaded again, no two of the
identifiers that are given back are equal, whatever has been removed in between, and each of them
belongs to no node and no link when it is given back. An edit leaves the counter, or it searches for
a free identifier and ends after no more candidates than there are nodes and links, and one. This is
so as long as the numbers of 64 bits are not used up. -/
theorem issued_ids_are_fresh (g : Graph) (edits : List Edit)
    (hedits : ∀ edit ∈ edits, edit.isReload = false)
    (hcount : (edits.foldl apply g).nextId ≤ UInt64.size) :
    (g.issuedBy edits).Nodup ∧
      ∀ before edit after, edits = before ++ edit :: after →
        let now := before.foldl apply g
        (∀ id, now.issued edit = some id →
          id ∉ now.nodes.map Node.id ∧ id ∉ now.links.map Link.id) ∧
        (now.issued edit = none ∧ (now.apply edit).nextId = now.nextId ∨
          ∃ stem id candidates, candidates ≤ now.nodes.length + now.links.length + 1 ∧
            now.Search stem (.ofNat now.nextId) candidates id
              (.ofNat (now.apply edit).nextId) ∧
            (now.apply edit).nextId = now.nextId + candidates ∧
            ∀ given, now.issued edit = some given → given = id) := by
  refine ⟨g.nodup_issuedBy hedits, ?_⟩
  rintro before edit after rfl now
  rw [List.forall_mem_append, List.forall_mem_cons] at hedits
  have hdraws : now.Draws edit := now.draws hedits.2.1
  refine ⟨fun id hid => isTaken_eq_false_iff.mp (hdraws.not_taken hid), ?_⟩
  cases hdraws with
  | nothing hissued hcounter => exact .inl ⟨hissued, hcounter⟩
  | fresh stem hissued hcounter =>
    rw [List.foldl_append, List.foldl_cons] at hcount
    have hle : (now.freshId stem).2.nextId ≤ UInt64.size := by
      rw [← hcounter]
      exact Nat.le_trans (nextId_le_foldl hedits.2.2) hcount
    obtain ⟨candidates, hbound, hsearch, hnext⟩ := now.search_freshId stem hle
    rw [← hcounter] at hsearch hnext
    exact .inr ⟨stem, _, candidates, hbound, hsearch, hnext, hissued⟩

/-- A graph of a file in which identifiers are taken that nodes and links would get. -/
def crowdedFlow : Graph where
  nodes := [endNode, ⟨"int-1", .int, newNodePosition, some "0"⟩,
    ⟨"link-3", .image, newNodePosition, none⟩]
  links := []
  nextId := 1

/-- Edits after which an identifier is free again. -/
def crowdedEdits : List Edit :=
  [.addNode .int, .removeNode "int-2", .connect "int-1" "link-3" "firstLink", .addNode .movePixel,
    .connect "int-1" "move_pixel-5" "secondLink", .addNode .int]

/-- Taken numbers are passed, a refused link uses one up, and that of a removed node is not used
again. -/
theorem crowdedFlow_issues :
    crowdedFlow.issuedBy crowdedEdits = ["int-2", "move_pixel-5", "link-6", "int-7"] ∧
      (crowdedFlow.issuedBy crowdedEdits).Nodup ∧
      "int-2" ∉ crowdedFlow.nodes.map Node.id ∧
      ∃ stem id candidates, candidates ≤ 4 ∧ crowdedFlow.Search stem 1 candidates id 3 := by
  have hedits : ∀ edit ∈ crowdedEdits, edit.isReload = false := by
    simp [crowdedEdits, Edit.isReload]
  have hcount : (crowdedEdits.foldl apply crowdedFlow).nextId = 8 := by decide +kernel
  have hissued : crowdedFlow.issued (.addNode .int) = some "int-2" := by decide +kernel
  have hnext : (crowdedFlow.apply (.addNode .int)).nextId = 3 := by decide +kernel
  obtain ⟨hnodup, hdraws⟩ :=
    issued_ids_are_fresh crowdedFlow crowdedEdits hedits (by rw [hcount]; decide)
  obtain ⟨hfresh, hsearch⟩ := hdraws [] (.addNode .int) crowdedEdits.tail rfl
  refine ⟨by decide +kernel, hnodup, (hfresh _ hissued).1, ?_⟩
  obtain ⟨hnone, -⟩ | ⟨stem, id, candidates, hbound, hsearch, -⟩ := hsearch
  · exact nomatch hnone.symm.trans hissued
  · rw [List.foldl_nil, hnext] at hsearch
    exact ⟨stem, id, candidates, hbound, hsearch⟩

end Darkroom.Graph
