import Darkroom.Proofs.Json.Reader

/-!
# Written documents that are refused

A reader refuses a document when it stops in its written form with a problem, wherever that form
stands and whatever follows it (`Json.Refuses`). Readers of lists and records go through their parts
in order, so they refuse a document as soon as the reader of one part refuses that part and those
before it are taken (`Json.refuses_list`, `Json.refuses_record`). The one document of files that can
be refused is the `null` that stands for a double that is not finite (`Json.refuses_double`).

## Main definitions

* `Json.Refuses` : readers that refuse a document.
* `Json.Stops` : members of a record up to one that is refused.

## Main results

* `Json.refuses_double`, `Json.refuses_optional`, `Json.refuses_list_map`, `Json.refuses_record` :
  the readers of files.
* `Json.readWhole_refused` : a document that takes up a whole text.
-/

namespace Darkroom.Json

variable {α σ : Type} {p : JsonProblem}

/-- Whether a reader refuses a document wherever more than `levels` levels are left. -/
def Refuses (reader : Reader α) (levels : Nat) (d : Document) (p : JsonProblem) : Prop :=
  ∀ depth, levels < depth → ∀ level s rest,
    skipSpace s = skipSpace (d.write level ++ rest) → reader depth s = .error p

theorem readWhole_refused {reader : Reader α} {levels : Nat} {d : Document}
    (h : Refuses reader levels d p) (hlevels : levels < nestingLimit) :
    readWhole reader d.print = .error p := by
  have hread : reader nestingLimit (d.write 0) = .error p :=
    h nestingLimit hlevels 0 _ [] (by rw [List.append_nil])
  rw [readWhole, Document.print, String.toList_ofList, hread, error_bind]

/-! ### Scalars -/

/-- A double that is not finite is written as `null`, which is refused. -/
theorem refuses_double {x : Float}
    (hx : ¬ Numeric.magnitude x < Numeric.BinaryFormat.double.infinity) :
    Refuses readDouble 0 (.number (doubleText x)) .mistyped := by
  intro depth _ level s rest hs
  have hnull : skipSpace s = 'n' :: 'u' :: 'l' :: 'l' :: rest := by
    rw [hs, Document.write, doubleText_of_not_finite hx]
    rfl
  rw [readDouble, readAnyNumber, hnull]
  rfl

theorem refuses_optional {item : Reader α} {levels : Nat} {d : Document}
    (h : Refuses item levels d p) {c : Char} (hc : d.head? = some c) (hspace : isSpace c = false)
    (hn : c ≠ 'n') : Refuses (readOptional item) levels d p := by
  intro depth hdepth level s rest hs
  obtain ⟨tail, -, hskip⟩ := skipSpace_write hc hspace level rest
  rw [readOptional, hs, hskip]
  split
  · next heq => exact absurd (List.cons.inj heq).1 hn
  · rw [h depth hdepth level s rest hs]
    rfl

/-! ### Lists -/

section Lists

variable {item : List Char → Except JsonProblem (α × List Char)} {before : List Document}
  {xs : List α} {d : Document}

/-- An item that is refused. -/
theorem readItems_refused {first : Bool} {s here : List Char} {fuel : Nat}
    (hnext : nextItem first s = .ok (true, here)) (hitem : item here = .error p) :
    readItems item (fuel + 1) first s = .error p := by
  rw [readItems, hnext, ok_bind]
  dsimp only
  rw [if_pos rfl, hitem, error_bind]

/-- An item before one that is refused. -/
theorem readItems_refused_later {first : Bool} {s here rest : List Char} {x : α} {fuel : Nat}
    (hnext : nextItem first s = .ok (true, here)) (hitem : item here = .ok (x, rest))
    (hrest : readItems item fuel false rest = .error p) :
    readItems item (fuel + 1) first s = .error p := by
  rw [readItems, hnext, ok_bind]
  dsimp only
  rw [if_pos rfl, hitem, ok_bind]
  dsimp only
  rw [hrest, error_bind]

/-- The items after the first, up to one that is refused. -/
theorem readItems_writeItems_refused
    (h : List.Forall₂ (fun d x => d.IsItem ∧ Takes item d x) before xs) (hd : d.IsItem)
    (hrefuse : ∀ level s rest, skipSpace s = skipSpace (d.write level ++ rest) →
      item s = .error p)
    (after : List Document) (level : Nat) (rest : List Char) {fuel : Nat}
    (hfuel : before.length < fuel) :
    readItems item fuel false (Document.writeItems level (before ++ d :: after) ++ rest) =
      .error p := by
  induction h generalizing fuel with
  | nil =>
    obtain ⟨fuel, rfl⟩ := Nat.exists_eq_add_one_of_ne_zero (Nat.ne_of_gt hfuel)
    rw [List.nil_append, Document.writeItems, List.append_assoc, List.append_assoc]
    exact readItems_refused (nextItem_comma hd _ _ _)
      (hrefuse _ _ _ (skipSpace_skipSpace _))
  | @cons e x before xs he _ ih =>
    obtain ⟨fuel, rfl⟩ := Nat.exists_eq_add_one_of_ne_zero (Nat.ne_of_gt (Nat.zero_lt_of_lt hfuel))
    have hitem := he.2 (level + 1) _ _
      (Document.endsNumber_writeItems level (before ++ d :: after) rest) (skipSpace_skipSpace _)
    rw [List.cons_append, Document.writeItems, List.append_assoc, List.append_assoc]
    exact readItems_refused_later (nextItem_comma he.1 _ _ _) hitem
      (ih (Nat.lt_of_succ_lt_succ hfuel))

/-- The items of a list after its opening bracket, up to one that is refused. -/
theorem readItems_listBody_refused
    (h : List.Forall₂ (fun d x => d.IsItem ∧ Takes item d x) before xs) (hd : d.IsItem)
    (hrefuse : ∀ level s rest, skipSpace s = skipSpace (d.write level ++ rest) →
      item s = .error p)
    (after : List Document) (level : Nat) (rest : List Char) :
    readItems item ((Document.listBody level (before ++ d :: after) ++ rest).length + 1) true
      (Document.listBody level (before ++ d :: after) ++ rest) = .error p := by
  cases h with
  | nil =>
    rw [List.nil_append, Document.listBody, List.append_assoc, List.append_assoc]
    exact readItems_refused (nextItem_first hd _ _ _) (hrefuse _ _ _ (skipSpace_skipSpace _))
  | @cons e x before xs he hbefore =>
    have hitem := he.2 (level + 1) _ _
      (Document.endsNumber_writeItems level (before ++ d :: after) rest) (skipSpace_skipSpace _)
    have hlength := Document.length_writeItems level (before ++ d :: after)
    rw [List.cons_append, Document.listBody, List.append_assoc, List.append_assoc]
    refine readItems_refused_later (nextItem_first he.1 _ _ _) hitem
      (readItems_writeItems_refused hbefore hd hrefuse after level rest ?_)
    rw [List.length_append] at hlength
    simp only [newLine, List.length_append, List.length_cons]
    omega

end Lists

/-- **A list is refused at its first item that is.** -/
theorem refuses_list {item : Reader α} {levels : Nat} {before after : List Document} {xs : List α}
    {d : Document} (h : List.Forall₂ (fun d x => d.IsItem ∧ Reads item levels d x) before xs)
    (hd : d.IsItem) (hrefuse : Refuses item levels d p) :
    Refuses (readList item) (levels + 1) (.list (before ++ d :: after)) p := by
  intro depth hdepth level s rest hs
  have hbefore : List.Forall₂ (fun d x => d.IsItem ∧ Takes (item (depth - 1)) d x) before xs :=
    h.imp fun d x hd => ⟨hd.1, hd.2 (depth - 1) (by omega)⟩
  rw [readList, hs, Document.skipSpace_write_list]
  show (enter depth >>= fun inner => _) = _
  rw [enter_of_lt hdepth, ok_bind]
  exact readItems_listBody_refused hbefore hd (hrefuse (depth - 1) (by omega)) after level rest

/-- A list is refused if its items are read or refused, and not all of them are read. -/
theorem refuses_list_map {β : Type} {item : Reader α} {document : β → Document} {value : β → α}
    {good : β → Prop} {levels : Nat} {xs : List β} (hitem : ∀ x, (document x).IsItem)
    (hread : ∀ x ∈ xs, good x → Reads item levels (document x) (value x))
    (hrefuse : ∀ x ∈ xs, ¬ good x → Refuses item levels (document x) p)
    (hbad : ¬ ∀ x ∈ xs, good x) :
    Refuses (readList item) (levels + 1) (.list (xs.map document)) p := by
  classical
  -- The first item that is not read stops the reader.
  obtain ⟨x, hx⟩ : ∃ x, xs.find? (fun x => ¬ good x) = some x := by
    rw [← Option.isSome_iff_exists, List.isSome_find?, List.any_eq_true]
    simpa using hbad
  obtain ⟨hfound, before, after, rfl, hbefore⟩ := List.find?_eq_some_iff_append.mp hx
  have hgood : ∀ y ∈ before, good y := fun y hy => by simpa using hbefore y hy
  have htaken : List.Forall₂ (fun d x => d.IsItem ∧ Reads item levels d x) (before.map document)
      (before.map value) := by
    rw [List.forall₂_map_left_iff, List.forall₂_map_right_iff, List.forall₂_same]
    exact fun y hy => ⟨hitem y, hread y (List.mem_append_left _ hy) (hgood y hy)⟩
  rw [List.map_append, List.map_cons]
  exact refuses_list htaken (hitem x) (hrefuse x (by simp) (of_decide_eq_true hfound))

/-! ### Records -/

/-- The members of a document lead from a draft to a member that is refused, those before it being
read. -/
inductive Stops (member : σ → String → List Char → Except JsonProblem (σ × List Char))
    (p : JsonProblem) : σ → List (String × Document) → Prop
  | here {draft : σ} {name : String} {d : Document} {ms : List (String × Document)}
      (h : ∀ level rest, member draft name (':' :: ' ' :: (d.write level ++ rest)) = .error p) :
      Stops member p draft ((name, d) :: ms)
  | later {draft next : σ} {name : String} {d : Document} {ms : List (String × Document)}
      (h : ∀ level rest, EndsNumber rest →
        member draft name (':' :: ' ' :: (d.write level ++ rest)) = .ok (next, rest))
      (hms : Stops member p next ms) : Stops member p draft ((name, d) :: ms)

section Records

variable {member : σ → String → List Char → Except JsonProblem (σ × List Char)} {draft : σ}
  {ms : List (String × Document)}

/-- A member, once its opening quote has been read, that is refused. -/
theorem readMembers_refused {name : String} {first : Bool} {s value : List Char} (fuel : Nat)
    (hnext : nextMember first s = .ok (true, name.toList.flatMap escape ++ '"' :: value))
    (hmember : member draft name value = .error p) :
    readMembers member (fuel + 1) first draft s = .error p := by
  rw [readMembers, hnext, ok_bind]
  dsimp only
  rw [if_pos rfl, readStringBody_escapes, ok_bind]
  dsimp only
  rw [String.ofList_toList, hmember, error_bind]

/-- The members after the first. -/
theorem Stops.readMembers_writeMembers (h : Stops member p draft ms) (level : Nat)
    (rest : List Char) {fuel : Nat} (hfuel : ms.length < fuel) :
    readMembers member fuel false draft (Document.writeMembers level ms ++ rest) = .error p := by
  induction h generalizing fuel with
  | @here draft name d ms hmember =>
    obtain ⟨fuel, rfl⟩ := Nat.exists_eq_add_one_of_ne_zero (Nat.ne_of_gt (Nat.zero_lt_of_lt hfuel))
    have hvalue := hmember (level + 1) (Document.writeMembers level ms ++ rest)
    rw [Document.writeMembers_cons_append]
    exact readMembers_refused fuel (nextMember_comma _ _) hvalue
  | @later draft next name d ms hmember _ ih =>
    obtain ⟨fuel, rfl⟩ := Nat.exists_eq_add_one_of_ne_zero (Nat.ne_of_gt (Nat.zero_lt_of_lt hfuel))
    have hvalue := hmember (level + 1) _ (Document.endsNumber_writeMembers level ms rest)
    rw [Document.writeMembers_cons_append, readMembers_step fuel (nextMember_comma _ _) hvalue]
    exact ih (Nat.lt_of_succ_lt_succ hfuel)

/-- The members of a record after its opening bracket. -/
theorem Stops.readMembers_recordBody (h : Stops member p draft ms) (level : Nat)
    (rest : List Char) :
    readMembers member ((Document.recordBody level ms ++ rest).length + 1) true draft
      (Document.recordBody level ms ++ rest) = .error p := by
  cases h with
  | @here _ name d ms hmember =>
    have hvalue := hmember (level + 1) (Document.writeMembers level ms ++ rest)
    rw [Document.recordBody_cons_append]
    exact readMembers_refused _ (nextMember_first _ _) hvalue
  | @later _ next name d ms hmember hms =>
    have hvalue := hmember (level + 1) _ (Document.endsNumber_writeMembers level ms rest)
    rw [Document.recordBody_cons_append, readMembers_step _ (nextMember_first _ _) hvalue,
      ← Document.recordBody_cons_append]
    exact hms.readMembers_writeMembers level rest
      (Document.length_lt_recordBody level name d ms rest)

end Records

/-- A member that a record has and the draft does not stops the reader of the record if its own
reader refuses it. -/
theorem Stops.refuse {members : List (Member σ)} {m : Member σ} {reader : Reader α}
    {levels depth : Nat} {draft : σ} {name : String} {d : Document}
    {keep : α × List Char → (σ → σ) × List Char} {ms : List (String × Document)}
    (h : Refuses reader levels d p) (hdepth : levels < depth)
    (hm : members.find? (·.name = name) = some m := by rfl)
    (habsent : m.present draft = false := by rfl)
    (hread : ∀ s, m.read depth s = (reader depth s).map keep := by intro; rfl) :
    Stops (readMember members depth) p draft ((name, d) :: ms) := by
  refine .here fun level rest => ?_
  rw [readMember, hm]
  dsimp only
  rw [habsent, if_neg Bool.false_ne_true, readColon_blank, ok_bind, hread,
    h depth hdepth level (' ' :: (d.write level ++ rest)) rest rfl]
  rfl

/-- A member that is stored in the draft is passed. -/
theorem Stops.store {members : List (Member σ)} {m : Member σ} {reader : Reader α}
    {levels depth : Nat} {draft : σ} {name : String} {d : Document} {x : α}
    {keep : α × List Char → (σ → σ) × List Char} {store : σ → σ} {ms : List (String × Document)}
    (h : Reads reader levels d x) (hdepth : levels < depth)
    (hms : Stops (readMember members depth) p (store draft) ms)
    (hm : members.find? (·.name = name) = some m := by rfl)
    (habsent : m.present draft = false := by rfl)
    (hread : ∀ s, m.read depth s = (reader depth s).map keep := by intro; rfl)
    (hkeep : ∀ rest, keep (x, rest) = (store, rest) := by intro; rfl) :
    Stops (readMember members depth) p draft ((name, d) :: ms) :=
  .later (h.readMember hdepth hm habsent hread hkeep) hms

/-- **A record is refused at its first member that is.** -/
theorem refuses_record {members : List (Member σ)} {blank : σ} {finish : σ → Option α}
    {levels : Nat} {ms : List (String × Document)}
    (h : ∀ depth, levels < depth → Stops (readMember members depth) p blank ms) :
    Refuses (readRecord members blank finish) (levels + 1) (.record ms) p := by
  intro depth hdepth level s rest hs
  have hmembers := (h (depth - 1) (by omega)).readMembers_recordBody level rest
  rw [readRecord, hs, Document.skipSpace_write_record]
  dsimp only
  rw [if_pos rfl, enter_of_lt hdepth, ok_bind, hmembers, error_bind]

end Darkroom.Json
