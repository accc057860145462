import Darkroom.Json.Reader
import Darkroom.Proofs.Json.Token
import Mathlib.Data.List.Forall2

/-!
# Written documents are read back

A reader takes a document for a value when it reads the written form of the document, with blanks
before it or not, up to its end and no further, whatever follows that cannot continue a number
(`Json.Takes`). Readers of lists and records take a document if the readers of their parts take its
parts: a list item by item (`Json.reads_list`), and a record member by member, where each member
leads from one draft of the record to the next (`Json.Collects`, `Json.reads_record`).

## Main definitions

* `Json.Takes`, `Json.Reads` : readers that take a document for a value, and how deep they go.
* `Json.RereadsDouble`, `Json.RereadsSingle` : floating-point numbers that survive being written.
* `Json.Collects` : members that lead from one draft to another.

## Main results

* `Json.reads_text`, `Json.reads_nat`, `Json.reads_double`, `Json.reads_optional_some`,
  `Json.reads_list_map`, `Json.reads_record` : the readers of files.
* `Json.reads_value_number`, `Json.reads_value_list` : values of any kind.
* `Json.readWhole_print` : a document that takes up a whole text.
-/

namespace Darkroom.Json

variable {α σ : Type}

/-! ### The written form -/

namespace Document

/-- The first character of the written form. -/
def head? : Document → Option Char
  | null => some 'n'
  | number t => t.toList.head?
  | text _ => some '"'
  | list _ => some '['
  | record _ => some '\x7b'

theorem head?_write (d : Document) (level : Nat) : (d.write level).head? = d.head? := by
  cases d with
  | list items => cases items <;> simp [write, head?]
  | record members => cases members <;> simp [write, head?]
  | _ => simp [write, head?, quote]

/-- The written form of a list after its opening bracket. -/
def listBody (level : Nat) : List Document → List Char
  | [] => [']']
  | d :: ds => newLine (level + 1) ++ (d.write (level + 1) ++ writeItems level ds)

theorem skipSpace_write_list (level : Nat) (ds : List Document) (rest : List Char) :
    skipSpace ((list ds).write level ++ rest) = '[' :: (listBody level ds ++ rest) := by
  have hwrite : (list ds).write level = '[' :: listBody level ds := by
    cases ds <;> simp [write, listBody]
  rw [hwrite, List.cons_append, skipSpace_cons (by decide)]

/-- The written form of a record after its opening bracket. -/
def recordBody (level : Nat) : List (String × Document) → List Char
  | [] => ['\x7d']
  | (name, d) :: ms =>
    newLine (level + 1) ++
      (quote name ++ [':', ' '] ++ (d.write (level + 1) ++ writeMembers level ms))

theorem skipSpace_write_record (level : Nat) (ms : List (String × Document))
    (rest : List Char) :
    skipSpace ((record ms).write level ++ rest) = '\x7b' :: (recordBody level ms ++ rest) := by
  have hwrite : (record ms).write level = '\x7b' :: recordBody level ms := by
    cases ms <;> simp [write, recordBody]
  rw [hwrite, List.cons_append, skipSpace_cons (by decide)]

theorem recordBody_cons_append (level : Nat) (name : String) (d : Document)
    (ms : List (String × Document)) (rest : List Char) :
    recordBody level ((name, d) :: ms) ++ rest =
      newLine (level + 1) ++ '"' :: (name.toList.flatMap escape ++ '"' ::
        (':' :: ' ' :: (d.write (level + 1) ++ (writeMembers level ms ++ rest)))) := by
  simp [recordBody, quote]

theorem writeMembers_cons_append (level : Nat) (name : String) (d : Document)
    (ms : List (String × Document)) (rest : List Char) :
    writeMembers level ((name, d) :: ms) ++ rest =
      ',' :: newLine (level + 1) ++ '"' :: (name.toList.flatMap escape ++ '"' ::
        (':' :: ' ' :: (d.write (level + 1) ++ (writeMembers level ms ++ rest)))) := by
  simp [writeMembers, quote]

theorem length_writeItems (level : Nat) (ds : List Document) :
    ds.length ≤ (writeItems level ds).length := by
  induction ds with
  | nil => exact Nat.zero_le _
  | cons d ds ih =>
    simp only [writeItems, List.length_append, List.length_cons]
    omega

theorem length_writeMembers (level : Nat) (ms : List (String × Document)) :
    ms.length ≤ (writeMembers level ms).length := by
  induction ms with
  | nil => exact Nat.zero_le _
  | cons m ms ih =>
    simp only [writeMembers, List.length_append, List.length_cons]
    omega

theorem length_lt_recordBody (level : Nat) (name : String) (d : Document)
    (ms : List (String × Document)) (rest : List Char) :
    ms.length < (recordBody level ((name, d) :: ms) ++ rest).length := by
  have hlength := length_writeMembers level ms
  simp only [recordBody, newLine, List.length_append, List.length_cons]
  omega

/-- What follows an item or a member in the written form does not continue a number. -/
theorem endsNumber_writeItems (level : Nat) (ds : List Document) (rest : List Char) :
    EndsNumber (writeItems level ds ++ rest) := by
  cases ds <;> simp [writeItems, newLine, endsNumber_cons]

theorem endsNumber_writeMembers (level : Nat) (ms : List (String × Document))
    (rest : List Char) : EndsNumber (writeMembers level ms ++ rest) := by
  cases ms <;> simp [writeMembers, newLine, endsNumber_cons]

end Document

/-! ### Readers that take a document -/

/-- Whether the written form of a document is read as a value, up to its end and no further. -/
def Takes (read : List Char → Except JsonProblem (α × List Char)) (d : Document) (x : α) : Prop :=
  ∀ level s rest, EndsNumber rest → skipSpace s = skipSpace (d.write level ++ rest) →
    read s = .ok (x, rest)

/-- Whether a reader takes a document for a value wherever more than `levels` levels are left. -/
def Reads (reader : Reader α) (levels : Nat) (d : Document) (x : α) : Prop :=
  ∀ depth, levels < depth → Takes (reader depth) d x

theorem Reads.mono {reader : Reader α} {levels more : Nat} {d : Document} {x : α}
    (h : Reads reader levels d x) (hle : levels ≤ more) : Reads reader more d x :=
  fun depth hdepth => h depth (Nat.lt_of_le_of_lt hle hdepth)

/-- A document after blanks, when the first character of its written form is known. -/
theorem skipSpace_write {d : Document} {c : Char} (hc : d.head? = some c)
    (hspace : isSpace c = false) (level : Nat) (rest : List Char) :
    ∃ tail, d.write level = c :: tail ∧
      skipSpace (d.write level ++ rest) = c :: (tail ++ rest) := by
  rw [← d.head?_write level, List.head?_eq_some_iff] at hc
  obtain ⟨tail, htail⟩ := hc
  refine ⟨tail, htail, ?_⟩
  rw [htail, List.cons_append, skipSpace_cons hspace]

/-- A document that takes up a whole text is read from it. -/
theorem readWhole_print {reader : Reader α} {levels : Nat} {d : Document} {x : α}
    (h : Reads reader levels d x) (hlevels : levels < nestingLimit) :
    readWhole reader d.print = .ok x := by
  have hread : reader nestingLimit (d.write 0) = .ok (x, []) :=
    h nestingLimit hlevels 0 _ [] .nil (by rw [List.append_nil])
  rw [readWhole, Document.print, String.toList_ofList, hread]
  rfl

/-! ### Scalars -/

theorem reads_text (t : String) : Reads readText 0 (.text t) t := by
  intro depth _ level s rest _ hs
  obtain ⟨tail, htail, hskip⟩ := skipSpace_write (d := .text t) rfl rfl level rest
  have hbody : tail = t.toList.flatMap escape ++ ['"'] := by
    simpa [Document.write, quote] using htail.symm
  rw [readText, hs, hskip]
  show (readStringBody (tail ++ rest)).map _ = _
  rw [hbody, List.append_assoc, List.singleton_append, readStringBody_escapes, ok_map]
  dsimp only
  rw [String.ofList_toList]

theorem reads_anyNumber {t : String} {x : Number}
    (h : readAnyNumber nestingLimit t.toList = .ok (x, [])) :
    Reads readAnyNumber 0 (.number t) x := by
  intro depth _ level s rest hrest hs
  rw [readAnyNumber, hs, Document.write]
  rw [readAnyNumber] at h
  cases hskip : skipSpace t.toList with
  | nil =>
    rw [hskip] at h
    exact nomatch h
  | cons c tail =>
    rw [hskip] at h
    rw [skipSpace_append hskip]
    dsimp only at h ⊢
    split_ifs at h ⊢
    · exact readNumber_append hrest h
    · exact readNumber_append hrest h

theorem toList_toString (n : Nat) : (toString n).toList = Nat.toDigits 10 n := by
  rw [Nat.toString_eq_ofList_toDigits, String.toList_ofList]

/-- The text of a natural number starts with a digit. -/
theorem exists_toString_eq (n : Nat) :
    ∃ c ds, (toString n).toList = c :: ds ∧ c.isDigit = true := by
  obtain ⟨c, ds, hdigits, hall⟩ := exists_toDigits_eq n
  exact ⟨c, ds, (toList_toString n).trans hdigits, hall c List.mem_cons_self⟩

/-- The text of a natural number is read as that number. -/
theorem readAnyNumber_toString {n : Nat} (h : n < UInt64.size) (depth : Nat) :
    readAnyNumber depth (toString n).toList = .ok (.natural n, []) := by
  have hread := readNumber_toDigits h
  obtain ⟨c, ds, htext, hc⟩ := exists_toString_eq n
  rw [← toList_toString, htext] at hread
  rw [htext, readAnyNumber, skipSpace_cons (isSpace_of_isDigit hc)]
  dsimp only
  rw [if_neg (by rintro rfl; exact absurd hc (by decide)), if_pos hc, hread]

theorem reads_nat {bound n : Nat} (h : n < bound) (hbound : bound ≤ UInt64.size) :
    Reads (readNat bound) 0 (.number (toString n)) n := by
  intro depth hdepth level s rest hrest hs
  have hnumber := reads_anyNumber (readAnyNumber_toString (Nat.lt_of_lt_of_le h hbound) _)
  rw [readNat, hnumber depth hdepth level s rest hrest hs, ok_bind]
  dsimp only
  rw [Number.below?, if_pos h]

/-- Whether the written form of a double is a number that is read as that double. -/
def RereadsDouble (x : Float) : Prop :=
  readDouble nestingLimit (doubleText x).toList = .ok (x, [])

theorem reads_double {x : Float} (h : RereadsDouble x) :
    Reads readDouble 0 (.number (doubleText x)) x := by
  rw [RereadsDouble, readDouble] at h
  cases hread : readAnyNumber nestingLimit (doubleText x).toList with
  | error p =>
    rw [hread] at h
    exact nomatch h
  | ok result =>
    obtain ⟨number, rest⟩ := result
    rw [hread, ok_map] at h
    obtain ⟨hx, rfl⟩ := Prod.mk.inj (Except.ok.inj h)
    intro depth hdepth level s rest hrest hs
    rw [readDouble, reads_anyNumber hread depth hdepth level s rest hrest hs, ok_map]
    dsimp only
    rw [hx]

theorem doubleText_of_not_finite {x : Float}
    (hx : ¬ Numeric.magnitude x < Numeric.BinaryFormat.double.infinity) :
    doubleText x = "null" := by
  rw [doubleText, Numeric.Layout.text]
  by_cases hnan : Numeric.magnitude x > Numeric.BinaryFormat.double.infinity
  · exact if_pos hnan
  · have hinf : Numeric.magnitude x = Numeric.BinaryFormat.double.infinity := by omega
    rw [if_neg hnan, if_pos hinf]
    exact ite_self _

/-- Only finite doubles are: others are written as `null`, which is no number. -/
theorem RereadsDouble.finite {x : Float} (h : RereadsDouble x) :
    Numeric.magnitude x < Numeric.BinaryFormat.double.infinity := by
  by_contra hx
  rw [RereadsDouble, doubleText_of_not_finite hx] at h
  exact nomatch h

/-- Whether the written form of a single is a number whose nearest single is that one. -/
def RereadsSingle (x : Float32) : Prop :=
  ∃ number, readAnyNumber nestingLimit (singleText x).toList = .ok (number, []) ∧
    number.toSingle = x

theorem reads_optional_none (item : Reader α) (levels : Nat) :
    Reads (readOptional item) levels .null none := by
  intro depth _ level s rest _ hs
  rw [readOptional, hs]
  rfl

theorem reads_optional_some {item : Reader α} {levels : Nat} {d : Document} {x : α}
    (h : Reads item levels d x) {c : Char} (hc : d.head? = some c) (hspace : isSpace c = false)
    (hn : c ≠ 'n') : Reads (readOptional item) levels d (some x) := by
  intro depth hdepth level s rest hrest hs
  obtain ⟨tail, -, hskip⟩ := skipSpace_write hc hspace level rest
  rw [readOptional, hs, hskip]
  split
  · next heq => exact absurd (List.cons.inj heq).1 hn
  · rw [h depth hdepth level s rest hrest hs, ok_map]

/-! ### Lists -/

/-- Whether a document can stand in a list: its first character is known, and is not one that ends
the list. -/
def Document.IsItem (d : Document) : Prop :=
  ∃ c, d.head? = some c ∧ isSpace c = false ∧ c ≠ ']'

theorem Document.isItem_record (ms : List (String × Document)) : (record ms).IsItem :=
  ⟨'\x7b', rfl, rfl, by decide⟩

theorem Document.isItem_natural (n : Nat) : (number (toString n)).IsItem := by
  obtain ⟨c, ds, htext, hc⟩ := exists_toString_eq n
  refine ⟨c, ?_, isSpace_of_isDigit hc, ?_⟩
  · rw [head?, htext, List.head?_cons]
  · rintro rfl
    exact absurd hc (by decide)

theorem nextItem_first {d : Document} (hd : d.IsItem) (level inner : Nat) (rest : List Char) :
    nextItem true (newLine level ++ (d.write inner ++ rest)) =
      .ok (true, skipSpace (d.write inner ++ rest)) := by
  obtain ⟨c, hc, hspace, hne⟩ := hd
  obtain ⟨tail, -, hskip⟩ := skipSpace_write hc hspace inner rest
  rw [nextItem, skipSpace_newLine, hskip]
  dsimp only
  rw [if_neg hne, if_pos rfl]

theorem nextItem_comma {d : Document} (hd : d.IsItem) (level inner : Nat) (rest : List Char) :
    nextItem false (',' :: newLine level ++ (d.write inner ++ rest)) =
      .ok (true, skipSpace (d.write inner ++ rest)) := by
  obtain ⟨c, hc, hspace, hne⟩ := hd
  obtain ⟨tail, -, hskip⟩ := skipSpace_write hc hspace inner rest
  rw [nextItem, List.cons_append, skipSpace_cons (by decide)]
  dsimp only
  rw [if_neg (by decide), if_neg (by decide), if_pos rfl, skipSpace_newLine, hskip]
  split
  · next heq => exact nomatch heq
  · next heq => exact absurd (List.cons.inj heq).1 hne
  · rfl

theorem nextItem_close (first : Bool) (rest : List Char) {s : List Char}
    (hs : skipSpace s = ']' :: rest) : nextItem first s = .ok (false, ']' :: rest) := by
  rw [nextItem, hs]
  rfl

section Lists

variable {item : List Char → Except JsonProblem (α × List Char)} {ds : List Document} {xs : List α}

/-- An item and those after it. -/
theorem readItems_step {first : Bool} {s here rest after : List Char} {x : α} {fuel : Nat}
    (hnext : nextItem first s = .ok (true, here)) (hitem : item here = .ok (x, rest))
    (hrest : readItems item fuel false rest = .ok (xs, after)) :
    readItems item (fuel + 1) first s = .ok (x :: xs, after) := by
  rw [readItems, hnext, ok_bind]
  dsimp only
  rw [if_pos rfl, hitem, ok_bind]
  dsimp only
  rw [hrest]
  rfl

/-- The items after the first. -/
theorem readItems_writeItems (h : List.Forall₂ (fun d x => d.IsItem ∧ Takes item d x) ds xs)
    (level : Nat) (rest : List Char) {fuel : Nat} (hfuel : ds.length < fuel) :
    readItems item fuel false (Document.writeItems level ds ++ rest) = .ok (xs, rest) := by
  induction h generalizing fuel with
  | nil =>
    obtain ⟨fuel, rfl⟩ := Nat.exists_eq_add_one_of_ne_zero (Nat.ne_of_gt hfuel)
    have hclose : skipSpace (Document.writeItems level [] ++ rest) = ']' :: rest := by
      rw [Document.writeItems, List.append_assoc, skipSpace_newLine]
      rfl
    rw [readItems, nextItem_close false rest hclose]
    rfl
  | @cons d x ds xs hd _ ih =>
    obtain ⟨fuel, rfl⟩ := Nat.exists_eq_add_one_of_ne_zero (Nat.ne_of_gt (Nat.zero_lt_of_lt hfuel))
    have hitem := hd.2 (level + 1) _ _ (Document.endsNumber_writeItems level ds rest)
      (skipSpace_skipSpace _)
    rw [Document.writeItems, List.append_assoc, List.append_assoc]
    exact readItems_step (nextItem_comma hd.1 _ _ _) hitem (ih (Nat.lt_of_succ_lt_succ hfuel))

/-- The items of a list after its opening bracket. -/
theorem readItems_listBody (h : List.Forall₂ (fun d x => d.IsItem ∧ Takes item d x) ds xs)
    (level : Nat) (rest : List Char) :
    readItems item ((Document.listBody level ds ++ rest).length + 1) true
      (Document.listBody level ds ++ rest) = .ok (xs, rest) := by
  cases h with
  | nil =>
    rw [Document.listBody, List.singleton_append, readItems,
      nextItem_close true rest (skipSpace_cons (by decide) rest)]
    rfl
  | @cons d x ds xs hd hds =>
    have hitem := hd.2 (level + 1) _ _ (Document.endsNumber_writeItems level ds rest)
      (skipSpace_skipSpace _)
    rw [Document.listBody, List.append_assoc, List.append_assoc]
    refine readItems_step (nextItem_first hd.1 _ _ _) hitem (readItems_writeItems hds level rest ?_)
    have hlength := Document.length_writeItems level ds
    simp only [newLine, List.length_append, List.length_cons]
    omega

end Lists

theorem enter_of_lt {levels depth : Nat} (h : levels + 1 < depth) :
    enter depth = .ok (depth - 1) := by
  rw [enter, if_neg (by omega)]

/-- **A list is read item by item.** -/
theorem reads_list {item : Reader α} {levels : Nat} {ds : List Document} {xs : List α}
    (h : List.Forall₂ (fun d x => d.IsItem ∧ Reads item levels d x) ds xs) :
    Reads (readList item) (levels + 1) (.list ds) xs := by
  intro depth hdepth level s rest _ hs
  have hitems : List.Forall₂ (fun d x => d.IsItem ∧ Takes (item (depth - 1)) d x) ds xs :=
    h.imp fun d x hd => ⟨hd.1, hd.2 (depth - 1) (by omega)⟩
  rw [readList, hs, Document.skipSpace_write_list]
  show (enter depth >>= fun inner => _) = _
  rw [enter_of_lt hdepth, ok_bind, readItems_listBody hitems]

/-- A list whose items are each read as the value of what was written. -/
theorem reads_list_map_map {β : Type} {item : Reader α} {document : β → Document} {value : β → α}
    {levels : Nat} {xs : List β} (hitem : ∀ x, (document x).IsItem)
    (h : ∀ x ∈ xs, Reads item levels (document x) (value x)) :
    Reads (readList item) (levels + 1) (.list (xs.map document)) (xs.map value) := by
  refine reads_list ?_
  rw [List.forall₂_map_left_iff, List.forall₂_map_right_iff, List.forall₂_same]
  exact fun x hx => ⟨hitem x, h x hx⟩

theorem reads_list_map {item : Reader α} {document : α → Document} {levels : Nat} {xs : List α}
    (hitem : ∀ x, (document x).IsItem) (h : ∀ x ∈ xs, Reads item levels (document x) x) :
    Reads (readList item) (levels + 1) (.list (xs.map document)) xs := by
  have hmap := reads_list_map_map hitem h
  rwa [List.map_id'] at hmap

/-! ### Records -/

/-- The members of a document lead from one draft to another: each is read from after its name on,
in the draft that those before it lead to. -/
inductive Collects (member : σ → String → List Char → Except JsonProblem (σ × List Char)) :
    σ → List (String × Document) → σ → Prop
  | nil (draft : σ) : Collects member draft [] draft
  | cons {draft next last : σ} {name : String} {d : Document} {ms : List (String × Document)}
      (h : ∀ level rest, EndsNumber rest →
        member draft name (':' :: ' ' :: (d.write level ++ rest)) = .ok (next, rest))
      (hms : Collects member next ms last) : Collects member draft ((name, d) :: ms) last

/-- What stands after a colon is read up to its end. -/
theorem Reads.after_colon {reader : Reader α} {levels depth : Nat} {d : Document} {x : α}
    (h : Reads reader levels d x) (hdepth : levels < depth) (level : Nat) {rest : List Char}
    (hrest : EndsNumber rest) : reader depth (' ' :: (d.write level ++ rest)) = .ok (x, rest) :=
  h depth hdepth level _ rest hrest rfl

theorem readColon_blank (s : List Char) : readColon (':' :: ' ' :: s) = .ok (' ' :: s) := by
  rfl

theorem nextMember_first (level : Nat) (s : List Char) :
    nextMember true (newLine level ++ '"' :: s) = .ok (true, s) := by
  rw [nextMember, skipSpace_newLine, skipSpace_cons (by decide)]
  rfl

theorem nextMember_comma (level : Nat) (s : List Char) :
    nextMember false (',' :: newLine level ++ '"' :: s) = .ok (true, s) := by
  rw [nextMember, List.cons_append, skipSpace_cons (by decide)]
  dsimp only
  rw [if_neg (by decide), if_neg (by decide), if_pos rfl, skipSpace_newLine,
    skipSpace_cons (by decide)]
  rfl

theorem nextMember_close (first : Bool) {s rest : List Char} (hs : skipSpace s = '\x7d' :: rest) :
    nextMember first s = .ok (false, rest) := by
  rw [nextMember, hs]
  rfl

section Records

variable {member : σ → String → List Char → Except JsonProblem (σ × List Char)}

/-- A member, once its opening quote has been read, and those after it. -/
theorem readMembers_step {draft next : σ} {first : Bool} {name : String} {s value rest : List Char}
    (fuel : Nat) (hnext : nextMember first s =
      .ok (true, name.toList.flatMap escape ++ '"' :: value))
    (hmember : member draft name value = .ok (next, rest)) :
    readMembers member (fuel + 1) first draft s = readMembers member fuel false next rest := by
  rw [readMembers, hnext, ok_bind]
  dsimp only
  rw [if_pos rfl, readStringBody_escapes, ok_bind]
  dsimp only
  rw [String.ofList_toList, hmember, ok_bind]

/-- The members after the first. -/
theorem Collects.readMembers_writeMembers {draft last : σ} {ms : List (String × Document)}
    (h : Collects member draft ms last) (level : Nat) (rest : List Char) {fuel : Nat}
    (hfuel : ms.length < fuel) :
    readMembers member fuel false draft (Document.writeMembers level ms ++ rest) =
      .ok (last, rest) := by
  induction h generalizing fuel with
  | nil draft =>
    obtain ⟨fuel, rfl⟩ := Nat.exists_eq_add_one_of_ne_zero (Nat.ne_of_gt hfuel)
    have hclose : skipSpace (Document.writeMembers level [] ++ rest) = '\x7d' :: rest := by
      rw [Document.writeMembers, List.append_assoc, skipSpace_newLine]
      rfl
    rw [readMembers, nextMember_close false hclose]
    rfl
  | @cons draft next last name d ms hmember _ ih =>
    obtain ⟨fuel, rfl⟩ := Nat.exists_eq_add_one_of_ne_zero (Nat.ne_of_gt (Nat.zero_lt_of_lt hfuel))
    have hvalue := hmember (level + 1) _ (Document.endsNumber_writeMembers level ms rest)
    rw [Document.writeMembers_cons_append, readMembers_step fuel (nextMember_comma _ _) hvalue]
    exact ih (Nat.lt_of_succ_lt_succ hfuel)

/-- The members of a record after its opening bracket. -/
theorem Collects.readMembers_recordBody {draft last : σ} {ms : List (String × Document)}
    (h : Collects member draft ms last) (level : Nat) (rest : List Char) :
    readMembers member ((Document.recordBody level ms ++ rest).length + 1) true draft
      (Document.recordBody level ms ++ rest) = .ok (last, rest) := by
  cases h with
  | nil =>
    rw [Document.recordBody, List.singleton_append, readMembers,
      nextMember_close true (skipSpace_cons (by decide) rest)]
    rfl
  | @cons _ next _ name d ms hmember hms =>
    have hvalue := hmember (level + 1) _ (Document.endsNumber_writeMembers level ms rest)
    rw [Document.recordBody_cons_append, readMembers_step _ (nextMember_first _ _) hvalue,
      ← Document.recordBody_cons_append]
    exact hms.readMembers_writeMembers level rest
      (Document.length_lt_recordBody level name d ms rest)

end Records

/-- A member that a record has and the draft does not, read by a reader that takes its value, is
stored in the draft. -/
theorem Reads.readMember {members : List (Member σ)} {m : Member σ} {reader : Reader α}
    {levels depth : Nat} {draft : σ} {name : String} {d : Document} {x : α}
    {keep : α × List Char → (σ → σ) × List Char} {store : σ → σ}
    (h : Reads reader levels d x) (hdepth : levels < depth)
    (hm : members.find? (·.name = name) = some m) (habsent : m.present draft = false)
    (hread : ∀ s, m.read depth s = (reader depth s).map keep)
    (hkeep : ∀ rest, keep (x, rest) = (store, rest)) (level : Nat) (rest : List Char)
    (hrest : EndsNumber rest) :
    readMember members depth draft name (':' :: ' ' :: (d.write level ++ rest)) =
      .ok (store draft, rest) := by
  rw [Json.readMember, hm]
  dsimp only
  rw [habsent, if_neg Bool.false_ne_true, readColon_blank, ok_bind, hread,
    h.after_colon hdepth level hrest, ok_map, ok_bind, hkeep]
  rfl

theorem Collects.store {members : List (Member σ)} {m : Member σ} {reader : Reader α}
    {levels depth : Nat} {draft last : σ} {name : String} {d : Document} {x : α}
    {keep : α × List Char → (σ → σ) × List Char} {store : σ → σ} {ms : List (String × Document)}
    (h : Reads reader levels d x) (hdepth : levels < depth)
    (hms : Collects (readMember members depth) (store draft) ms last)
    (hm : members.find? (·.name = name) = some m := by rfl)
    (habsent : m.present draft = false := by rfl)
    (hread : ∀ s, m.read depth s = (reader depth s).map keep := by intro; rfl)
    (hkeep : ∀ rest, keep (x, rest) = (store, rest) := by intro; rfl) :
    Collects (readMember members depth) draft ((name, d) :: ms) last :=
  .cons (h.readMember hdepth hm habsent hread hkeep) hms

/-- **A record is read member by member**, into a draft that is complete at the end. -/
theorem reads_record {members : List (Member σ)} {blank : σ} {finish : σ → Option α}
    {levels : Nat} {ms : List (String × Document)} {x : α} (last : σ)
    (h : ∀ depth, levels < depth → Collects (readMember members depth) blank ms last)
    (hfinish : finish last = some x) :
    Reads (readRecord members blank finish) (levels + 1) (.record ms) x := by
  intro depth hdepth level s rest _ hs
  have hmembers := (h (depth - 1) (by omega)).readMembers_recordBody level rest
  rw [readRecord, hs, Document.skipSpace_write_record]
  dsimp only
  rw [if_pos rfl, enter_of_lt hdepth, ok_bind, hmembers, ok_bind]
  dsimp only
  rw [hfinish]

/-! ### Values of any kind -/

/-- A number starts with a minus sign or a digit. -/
theorem readAnyNumber_head {depth : Nat} {s r : List Char} {x : Number}
    (h : readAnyNumber depth s = .ok (x, r)) :
    ∃ c tail, skipSpace s = c :: tail ∧ (c = '-' ∨ c.isDigit = true) := by
  rw [readAnyNumber] at h
  cases hskip : skipSpace s with
  | nil =>
    rw [hskip] at h
    exact nomatch h
  | cons c tail =>
    rw [hskip] at h
    dsimp only at h
    split_ifs at h with hminus hdigit
    · exact ⟨c, tail, rfl, .inl hminus⟩
    · exact ⟨c, tail, rfl, .inr hdigit⟩

/-- Where a number stands, a value of any kind is that number. -/
theorem readValue_of_readAnyNumber {depth : Nat} {s r : List Char} {x : Number}
    (h : readAnyNumber depth s = .ok (x, r)) :
    readValue (depth + 1) s = .ok (.number x, r) := by
  obtain ⟨c, tail, hskip, hc⟩ := readAnyNumber_head h
  have hword : c ≠ 'n' ∧ c ≠ 't' ∧ c ≠ 'f' := by
    refine ⟨?_, ?_, ?_⟩ <;> rintro rfl <;> revert hc <;> decide
  rw [readAnyNumber, hskip] at h
  rw [readValue, hskip]
  dsimp only at h ⊢
  rw [if_neg hword.1, if_neg hword.2.1, if_neg hword.2.2]
  split_ifs at h ⊢
  · rw [h, ok_map]
  · rw [h, ok_map]

theorem reads_value_number {t : String} {x : Number}
    (h : readAnyNumber nestingLimit t.toList = .ok (x, [])) :
    Reads readValue 0 (.number t) (.number x) := by
  intro depth hdepth level s rest hrest hs
  obtain ⟨depth, rfl⟩ := Nat.exists_eq_add_one_of_ne_zero (Nat.ne_of_gt hdepth)
  exact readValue_of_readAnyNumber (reads_anyNumber h (depth + 1) hdepth level s rest hrest hs)

theorem reads_value_list {levels : Nat} {ds : List Document} {xs : List Value}
    (h : List.Forall₂ (fun d x => d.IsItem ∧ Reads readValue levels d x) ds xs) :
    Reads readValue (levels + 1) (.list ds) (.list xs) := by
  intro depth hdepth level s rest _ hs
  obtain ⟨depth, rfl⟩ := Nat.exists_eq_add_one_of_ne_zero (Nat.ne_of_gt (Nat.zero_lt_of_lt hdepth))
  have hitems : List.Forall₂ (fun d x => d.IsItem ∧ Takes (readValue depth) d x) ds xs :=
    h.imp fun d x hd => ⟨hd.1, hd.2 depth (by omega)⟩
  rw [readValue, hs, Document.skipSpace_write_list]
  dsimp only
  rw [if_neg (by decide), if_neg (by decide), if_neg (by decide), if_neg (by decide),
    if_neg (by decide), if_neg (by decide), if_pos rfl, if_neg (by omega),
    readItems_listBody hitems, ok_map]

end Darkroom.Json
