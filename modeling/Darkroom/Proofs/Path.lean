import Darkroom.Path
import Mathlib.Data.List.Basic
import Mathlib.Data.List.TakeWhile
import Mathlib.Tactic.Common

/-!
# Paths that end in a name

A path ends in a name when it is that name after nothing or after a slash, followed by nothing or by
slashes and points that count for nothing (`Path.EndsIn`). These are the paths that have a final
component (`Path.finalName?_eq_some_iff`), and what stands before the name alone decides the
components before it (`Path.EndsIn.located_eq`) and the directory that it lies in
(`Path.EndsIn.parent?_eq`). Another extension changes the name and cuts what follows it
(`Path.EndsIn.withExtension`); what was before the last point of the name stays its stem
(`Path.splitName_append`).

## Main definitions

* `Path.IsName` : the texts that are names of files.
* `Path.EndsIn` : a path cut before and after its final component.

## Main results

* `Path.finalName?_eq_some_iff` : the paths with a final component.
* `Path.splitName_append`, `Path.splitName_cases` : stems and extensions.
* `Path.EndsIn.withExtension` : the path with another extension.
-/

namespace Darkroom.Path

/-! ### Pieces of paths -/

/-- The pieces of a text, without their ends, do not depend on where it starts. -/
theorem map_fst_piecesFrom (start start' : Nat) (piece s : List Char) :
    (piecesFrom start piece s).map Prod.fst = (piecesFrom start' piece s).map Prod.fst := by
  induction s generalizing start start' piece with
  | nil => rfl
  | cons c s ih =>
    rw [piecesFrom, piecesFrom]
    split_ifs
    · rw [List.map_cons, List.map_cons, ih]
    · exact ih ..

/-- A slash separates pieces. -/
theorem piecesFrom_append (start : Nat) (piece s rest : List Char) :
    piecesFrom start piece (s ++ '/' :: rest) =
      piecesFrom start piece s ++ piecesFrom (start + s.length + 1) [] rest := by
  induction s generalizing start piece with
  | nil => rfl
  | cons c s ih =>
    rw [List.cons_append, piecesFrom, piecesFrom, List.length_cons]
    split_ifs
    · rw [ih, List.cons_append]
      congr 3
      omega
    · rw [ih]
      congr 2
      omega

theorem map_fst_piecesFrom_append (start : Nat) (piece s rest : List Char) :
    (piecesFrom start piece (s ++ '/' :: rest)).map Prod.fst =
      (piecesFrom start piece s).map Prod.fst ++ (piecesFrom 0 [] rest).map Prod.fst := by
  rw [piecesFrom_append, List.map_append, map_fst_piecesFrom _ 0 [] rest]

/-- A text without slashes is one piece. -/
theorem piecesFrom_of_notMem {s : List Char} (h : '/' ∉ s) (start : Nat) (piece : List Char) :
    piecesFrom start piece s = [(String.ofList (piece.reverse ++ s), start + s.length)] := by
  induction s generalizing start piece with
  | nil =>
    rw [List.append_nil]
    rfl
  | cons c s ih =>
    obtain ⟨hc, hs⟩ := not_or.mp fun hmem => h (List.mem_cons.mpr hmem)
    rw [piecesFrom, if_neg (Ne.symm hc), ih hs, List.reverse_cons, List.append_assoc,
      List.singleton_append, List.length_cons, Nat.add_assoc, Nat.add_comm 1]

/-- A piece that has begun is not empty. -/
theorem exists_piece_ne_empty (start : Nat) {piece : List Char} (hpiece : piece ≠ [])
    (s : List Char) : ∃ text ∈ (piecesFrom start piece s).map Prod.fst, text ≠ "" := by
  have htext : String.ofList piece.reverse ≠ "" := fun heq =>
    hpiece (List.reverse_eq_nil_iff.mp (String.ofList_inj.mp heq))
  induction s generalizing start piece with
  | nil => exact ⟨_, List.mem_singleton_self _, htext⟩
  | cons c s ih =>
    rw [piecesFrom]
    split_ifs
    · exact ⟨_, List.mem_cons_self, htext⟩
    · refine ih (start + 1) (List.cons_ne_nil c piece) fun heq => ?_
      exact List.cons_ne_nil c piece (List.reverse_eq_nil_iff.mp (String.ofList_inj.mp heq))

theorem piecesFrom_ne_nil (start : Nat) (piece s : List Char) : piecesFrom start piece s ≠ [] := by
  induction s generalizing start piece with
  | nil => exact List.cons_ne_nil _ _
  | cons c s ih =>
    rw [piecesFrom]
    split_ifs
    · exact List.cons_ne_nil _ _
    · exact ih (start + 1) (c :: piece)

/-- A piece ends within the text. -/
theorem stop_le_of_mem {start stop : Nat} {piece s : List Char} {text : String}
    (h : (text, stop) ∈ piecesFrom start piece s) : stop ≤ start + s.length := by
  induction s generalizing start piece with
  | nil =>
    obtain ⟨-, rfl⟩ := Prod.mk.inj (List.mem_singleton.mp h)
    exact Nat.le_refl _
  | cons c s ih =>
    rw [piecesFrom] at h
    rw [List.length_cons]
    split_ifs at h
    · rcases List.mem_cons.mp h with h | h
      · obtain ⟨-, rfl⟩ := Prod.mk.inj h
        exact Nat.le_add_right ..
      · have := ih h
        omega
    · have := ih h
      omega

/-! ### Components -/

theorem bodyComponents_append (pieces more : List (String × Nat)) :
    bodyComponents (pieces ++ more) = bodyComponents pieces ++ bodyComponents more :=
  List.filterMap_append

/-- Only empty pieces and points count for nothing. -/
theorem bodyComponents_eq_nil_iff {pieces : List (String × Nat)} :
    bodyComponents pieces = [] ↔ ∀ text ∈ pieces.map Prod.fst, text = "" ∨ text = "." := by
  rw [bodyComponents, List.filterMap_eq_nil_iff, List.forall_mem_map]
  refine forall₂_congr fun piece _ => ?_
  obtain ⟨text, stop⟩ := piece
  dsimp only
  split_ifs with hnothing hup
  · exact iff_of_true rfl hnothing
  · exact iff_of_false nofun hnothing
  · exact iff_of_false nofun hnothing

/-- What the first characters of a path add to its components. -/
def lead (s : List Char) : List (Component × Nat) :=
  if s.head? = some '/' then [(.root, 1)]
  else if (piecesFrom 0 [] s).head?.map Prod.fst = some "." then [(.current, 1)]
  else []

theorem located_eq_append (path : String) :
    located path = lead path.toList ++ bodyComponents (piecesFrom 0 [] path.toList) := by
  rw [located, lead]
  split_ifs <;> rfl

theorem name_notMem_lead (s : List Char) (text : String) (stop : Nat) :
    (.name text, stop) ∉ lead s := by
  rw [lead]
  split_ifs <;> simp

/-- A component ends within the path. -/
theorem stop_le_of_mem_located {path : String} {component : Component} {stop : Nat}
    (h : (component, stop) ∈ located path) : stop ≤ path.toList.length := by
  rw [located_eq_append, List.mem_append] at h
  rcases h with h | h
  · have hstop : stop = 1 := by
      rw [lead] at h
      split_ifs at h with hroot hcurrent
      · exact (Prod.mk.inj (List.mem_singleton.mp h)).2
      · exact (Prod.mk.inj (List.mem_singleton.mp h)).2
      · exact absurd h List.not_mem_nil
    cases hlist : path.toList with
    | nil =>
      rw [hlist] at h
      exact absurd h List.not_mem_nil
    | cons c rest =>
      rw [hstop, List.length_cons]
      exact Nat.le_add_left ..
  · obtain ⟨⟨text, found⟩, hmem, hpiece⟩ := List.mem_filterMap.mp h
    dsimp only at hpiece
    have hle : found ≤ path.toList.length := by
      simpa only [Nat.zero_add] using stop_le_of_mem hmem
    split_ifs at hpiece
    · obtain ⟨-, rfl⟩ := Prod.mk.inj (Option.some.inj hpiece)
      exact hle
    · obtain ⟨-, rfl⟩ := Prod.mk.inj (Option.some.inj hpiece)
      exact hle

/-! ### Final components -/

/-- Whether a text is the name of a file: it has no slash and is not empty, and it does not stand
for a directory. -/
structure IsName (name : String) : Prop where
  slash : '/' ∉ name.toList
  ne_empty : name ≠ ""
  ne_current : name ≠ "."
  ne_up : name ≠ ".."

theorem IsName.bodyComponents_singleton {name : String} (h : IsName name) (stop : Nat) :
    bodyComponents [(name, stop)] = [(.name name, stop)] := by
  simp [bodyComponents, h.ne_empty, h.ne_current, h.ne_up]

theorem IsName.piecesFrom {name : String} (h : IsName name) (start : Nat) :
    piecesFrom start [] name.toList = [(name, start + name.toList.length)] := by
  rw [piecesFrom_of_notMem h.slash, List.reverse_nil, List.nil_append, String.ofList_toList]

/-- Whether characters after a name count for nothing: there are none, or slashes and points after a
slash. -/
def IsBlank (after : List Char) : Prop :=
  after = [] ∨ ∃ rest, after = '/' :: rest ∧ bodyComponents (piecesFrom 0 [] rest) = []

/-- A path cut before and after its final component. -/
structure EndsIn (path : String) (before : List Char) (name : String) (after : List Char) :
    Prop where
  toList_eq : path.toList = before ++ (name.toList ++ after)
  opens : before = [] ∨ ∃ directory, before = directory ++ ['/']
  isName : IsName name
  isBlank : IsBlank after

theorem IsBlank.bodyComponents_eq {name : String} {after : List Char} (hname : IsName name)
    (h : IsBlank after) (start : Nat) :
    bodyComponents (piecesFrom start [] (name.toList ++ after)) =
      [(.name name, start + name.toList.length)] := by
  obtain rfl | ⟨rest, rfl, hrest⟩ := h
  · rw [List.append_nil, hname.piecesFrom, hname.bodyComponents_singleton]
  · have hnil : bodyComponents (piecesFrom (start + name.toList.length + 1) [] rest) = [] := by
      rw [bodyComponents_eq_nil_iff] at hrest ⊢
      rwa [map_fst_piecesFrom _ 0]
    rw [piecesFrom_append, hname.piecesFrom, bodyComponents_append, hnil,
      hname.bodyComponents_singleton, List.append_nil]

/-- A text whose last component is a name is cut by it. -/
theorem exists_endsIn_of_getLast? {s : List Char} {start stop : Nat} {name : String}
    (h : (bodyComponents (piecesFrom start [] s)).getLast? = some (.name name, stop)) :
    ∃ before after, EndsIn (String.ofList s) before name after ∧
      stop = start + (before.length + name.toList.length) := by
  -- The induction cuts at the first slash, as the components come one by one from the front.
  induction hlength : s.length using Nat.strongRecOn generalizing s start with
  | ind length ih =>
    have hfinal : ∀ {piece : List Char} {more : List (String × Nat)} {found : Nat},
        '/' ∉ piece → bodyComponents more = [] →
        (bodyComponents ((String.ofList piece, found) :: more)).getLast? =
          some (.name name, stop) →
        name.toList = piece ∧ IsName name ∧ found = stop := by
      intro piece more found hslash hmore hlast
      rw [← List.singleton_append, bodyComponents_append, hmore, List.append_nil, bodyComponents,
        List.filterMap_cons] at hlast
      dsimp only at hlast
      split_ifs at hlast with hnothing hup
      · exact nomatch hlast
      · exact nomatch hlast
      · simp only [List.filterMap_nil, List.getLast?_singleton, Option.some.injEq, Prod.mk.injEq,
          Component.name.injEq] at hlast
        obtain ⟨rfl, rfl⟩ := hlast
        rw [not_or] at hnothing
        refine ⟨String.toList_ofList, ⟨?_, hnothing.1, hnothing.2, hup⟩, rfl⟩
        rwa [String.toList_ofList]
    by_cases hslash : '/' ∈ s
    · obtain ⟨first, rest, rfl, hfirst⟩ := List.eq_append_cons_of_mem hslash
      rw [piecesFrom_append, piecesFrom_of_notMem hfirst, List.reverse_nil, List.nil_append,
        List.singleton_append] at h
      by_cases hrest : bodyComponents (piecesFrom (start + first.length + 1) [] rest) = []
      · obtain ⟨htext, hname, rfl⟩ := hfinal hfirst hrest h
        rw [bodyComponents_eq_nil_iff, map_fst_piecesFrom _ 0, ← bodyComponents_eq_nil_iff] at hrest
        refine ⟨[], '/' :: rest, ⟨?_, .inl rfl, hname, .inr ⟨rest, rfl, hrest⟩⟩, ?_⟩
        · rw [String.toList_ofList, htext, List.nil_append]
        · rw [htext, List.length_nil, Nat.zero_add]
      · rw [← List.singleton_append, bodyComponents_append,
          List.getLast?_append_of_ne_nil _ hrest] at h
        have hlt : rest.length < length := by
          rw [← hlength, List.length_append, List.length_cons]
          omega
        obtain ⟨before, after, hends, rfl⟩ := ih rest.length hlt h rfl
        refine ⟨first ++ '/' :: before, after, ⟨?_, .inr ?_, hends.isName, hends.isBlank⟩, ?_⟩
        · have htext := hends.toList_eq
          rw [String.toList_ofList] at htext ⊢
          rw [htext, List.append_assoc, List.cons_append]
        · obtain rfl | ⟨directory, rfl⟩ := hends.opens
          · exact ⟨first, rfl⟩
          · exact ⟨first ++ '/' :: directory, by simp⟩
        · rw [List.length_append, List.length_cons]
          omega
    · rw [piecesFrom_of_notMem hslash, List.reverse_nil, List.nil_append] at h
      obtain ⟨htext, hname, rfl⟩ := hfinal hslash rfl h
      refine ⟨[], [], ⟨?_, .inl rfl, hname, .inl rfl⟩, ?_⟩
      · rw [String.toList_ofList, htext, List.append_nil, List.nil_append]
      · rw [htext, List.length_nil, Nat.zero_add]

namespace EndsIn

variable {path path' name name' : String} {before after after' : List Char}

/-- What stands before a final component decides whether the path starts at the root. -/
theorem lead_eq (h : EndsIn path before name after) : lead path.toList = lead before := by
  obtain ⟨c, rest, hcons⟩ := List.exists_cons_of_ne_nil fun heq =>
    h.isName.ne_empty (String.toList_eq_nil_iff.mp heq)
  rw [h.toList_eq]
  obtain rfl | ⟨directory, rfl⟩ := h.opens
  · have hc : c ≠ '/' := by
      rintro rfl
      exact h.isName.slash (hcons ▸ List.mem_cons_self)
    have hhead : (([] ++ (name.toList ++ after)).head?) ≠ some '/' := by
      rw [hcons]
      simpa using hc
    have hfirst : (piecesFrom 0 [] ([] ++ (name.toList ++ after))).head?.map Prod.fst =
        some name := by
      rw [List.nil_append]
      obtain rfl | ⟨rest, rfl, -⟩ := h.isBlank
      · rw [List.append_nil, h.isName.piecesFrom]
        rfl
      · rw [piecesFrom_append, h.isName.piecesFrom]
        rfl
    rw [lead, if_neg hhead, hfirst, if_neg fun heq => h.isName.ne_current (Option.some.inj heq)]
    rfl
  · obtain ⟨piece, pieces, hpieces⟩ :=
      List.exists_cons_of_ne_nil (piecesFrom_ne_nil 0 [] directory)
    have hhead : ∀ more, ((directory ++ ['/']) ++ more).head? = (directory ++ ['/']).head? := by
      intro more
      cases directory <;> rfl
    have hfirst : ∀ more, (piecesFrom 0 [] (directory ++ '/' :: more)).head? = some piece := by
      intro more
      rw [piecesFrom_append, hpieces]
      rfl
    rw [lead, lead, hhead, List.append_assoc, List.singleton_append, hfirst, hfirst]

/-- The components of a path are those before its final component, and that. -/
theorem located_eq (h : EndsIn path before name after) :
    located path = located (String.ofList before) ++
      [(.name name, before.length + name.toList.length)] := by
  rw [located_eq_append, located_eq_append, h.lead_eq, String.toList_ofList, List.append_assoc,
    h.toList_eq]
  congr 1
  obtain rfl | ⟨directory, rfl⟩ := h.opens
  · rw [List.nil_append, h.isBlank.bodyComponents_eq h.isName]
    rfl
  · rw [List.append_assoc, List.singleton_append, piecesFrom_append, piecesFrom_append,
      bodyComponents_append, bodyComponents_append, h.isBlank.bodyComponents_eq h.isName,
      List.length_append, List.length_singleton, Nat.zero_add]
    simp [bodyComponents, piecesFrom]

theorem finalName?_eq (h : EndsIn path before name after) :
    finalName? path = some (name, before.length + name.toList.length) := by
  rw [finalName?, h.located_eq, List.getLast?_append_of_ne_nil _ (List.cons_ne_nil _ _)]
  rfl

theorem fileName?_eq (h : EndsIn path before name after) : fileName? path = some name := by
  rw [fileName?, h.finalName?_eq]
  rfl

/-- Paths with the same characters before a final component have the same parent. -/
theorem parent?_eq (h : EndsIn path before name after) (h' : EndsIn path' before name' after') :
    parent? path = parent? path' := by
  rw [parent?, parent?, h.located_eq, h'.located_eq, List.reverse_append, List.reverse_append]
  cases hlast : (located (String.ofList before)).reverse with
  | nil => rfl
  | cons last rest =>
    obtain ⟨component, stop⟩ := last
    have hle : stop ≤ before.length := by
      have hmem : (component, stop) ∈ located (String.ofList before) := by
        rw [← List.mem_reverse, hlast]
        exact List.mem_cons_self
      simpa using stop_le_of_mem_located hmem
    simp only [List.reverse_singleton, List.singleton_append]
    rw [h.toList_eq, h'.toList_eq, List.take_append_of_le_length hle,
      List.take_append_of_le_length hle]

end EndsIn

theorem endsIn_of_isName {name : String} (h : IsName name) : EndsIn name [] name [] :=
  ⟨by rw [List.append_nil, List.nil_append], .inl rfl, h, .inl rfl⟩

/-- **The paths with a final component** are those that end in a name. -/
theorem finalName?_eq_some_iff {path name : String} {stop : Nat} :
    finalName? path = some (name, stop) ↔
      ∃ before after, EndsIn path before name after ∧
        stop = before.length + name.toList.length := by
  constructor
  · intro h
    have hlast : (located path).getLast? = some (.name name, stop) := by
      rw [finalName?] at h
      split at h
      · next found foundStop heq =>
        obtain ⟨rfl, rfl⟩ := Prod.mk.inj (Option.some.inj h)
        exact heq
      · exact nomatch h
    rw [located_eq_append] at hlast
    by_cases hbody : bodyComponents (piecesFrom 0 [] path.toList) = []
    · rw [hbody, List.append_nil] at hlast
      exact absurd (List.mem_of_getLast? hlast) (name_notMem_lead _ _ _)
    · rw [List.getLast?_append_of_ne_nil _ hbody] at hlast
      obtain ⟨before, after, hends, rfl⟩ := exists_endsIn_of_getLast? hlast
      rw [String.ofList_toList] at hends
      exact ⟨before, after, hends, Nat.zero_add _⟩
  · rintro ⟨before, after, hends, rfl⟩
    exact hends.finalName?_eq

theorem exists_endsIn_of_fileName? {path name : String} (h : fileName? path = some name) :
    ∃ before after, EndsIn path before name after := by
  obtain ⟨⟨found, stop⟩, hfinal, rfl⟩ := Option.map_eq_some_iff.mp h
  obtain ⟨before, after, hends, -⟩ := finalName?_eq_some_iff.mp hfinal
  exact ⟨before, after, hends⟩

/-! ### Stems and extensions -/

private theorem ne_point_of_notMem {s : List Char} (h : '.' ∉ s) :
    ∀ c ∈ s, (decide (c ≠ '.')) = true := by
  intro c hc
  refine decide_eq_true ?_
  rintro rfl
  exact h hc

/-- A file name is cut at its last point, unless nothing stands before it. -/
theorem splitName_append {stem extension : String} (hstem : stem ≠ "")
    (hextension : '.' ∉ extension.toList) :
    splitName (stem ++ "." ++ extension) = (stem, some extension) := by
  have hlist : (stem ++ "." ++ extension).toList.reverse =
      extension.toList.reverse ++ '.' :: stem.toList.reverse := by simp
  have hpoint := ne_point_of_notMem fun hmem => hextension (List.mem_reverse.mp hmem)
  have hbefore : stem.toList.reverse ≠ [] := fun heq =>
    hstem (String.toList_eq_nil_iff.mp (List.reverse_eq_nil_iff.mp heq))
  simp only [splitName, hlist]
  rw [List.takeWhile_append_of_pos hpoint, List.dropWhile_append_of_pos hpoint,
    List.takeWhile_cons_of_neg (by simp), List.dropWhile_cons_of_neg (by simp), List.append_nil,
    List.drop_one, List.tail_cons, if_neg, List.reverse_reverse, List.reverse_reverse,
    String.ofList_toList, String.ofList_toList]
  rintro (hlength | hnil)
  · rw [List.length_append, List.length_cons] at hlength
    omega
  · exact hbefore hnil

/-- The stem of a file name is the whole of it, or what stands before its last point. -/
theorem splitName_cases (name : String) :
    splitName name = (name, none) ∨ ∃ stem extension, stem ≠ "" ∧ '.' ∉ extension.toList ∧
      name = stem ++ "." ++ extension ∧ splitName name = (stem, some extension) := by
  by_cases hpoint : '.' ∈ name.toList
  · obtain ⟨after, before, hlist, hafter⟩ :=
      List.eq_append_cons_of_mem (List.mem_reverse.mpr hpoint)
    by_cases hbefore : before = []
    · left
      simp only [splitName]
      refine if_pos (.inr ?_)
      rw [hlist, hbefore, List.dropWhile_append_of_pos (ne_point_of_notMem hafter)]
      rfl
    · right
      have hname : name =
          String.ofList before.reverse ++ "." ++ String.ofList after.reverse := by
        rw [← String.toList_inj, ← List.reverse_inj, hlist]
        simp
      have hstem : String.ofList before.reverse ≠ "" := fun heq =>
        hbefore (List.reverse_eq_nil_iff.mp (String.ofList_inj.mp heq))
      have hextension : '.' ∉ (String.ofList after.reverse).toList := by
        rwa [String.toList_ofList, List.mem_reverse]
      refine ⟨_, _, hstem, hextension, hname, ?_⟩
      conv_lhs => rw [hname]
      exact splitName_append hstem hextension
  · left
    simp only [splitName]
    refine if_pos (.inl ?_)
    have hall := ne_point_of_notMem fun hmem => hpoint (List.mem_reverse.mp hmem)
    rw [List.takeWhile_eq_self_iff.mpr hall]

/-- A file name starts with its stem, which is not empty. -/
theorem exists_stem_append {name : String} (hname : name ≠ "") :
    (splitName name).1 ≠ "" ∧ ∃ rest, name = (splitName name).1 ++ rest := by
  obtain hwhole | ⟨stem, extension, hstem, -, hcut, hsplit⟩ := splitName_cases name
  · rw [hwhole]
    exact ⟨hname, "", String.append_empty.symm⟩
  · rw [hsplit]
    exact ⟨hstem, "." ++ extension, by rw [hcut, String.append_assoc]⟩

theorem isName_append {stem extension : String} (hstem : stem ≠ "") (hslash : '/' ∉ stem.toList)
    (hextension : '/' ∉ extension.toList) (hup : stem ++ "." ++ extension ≠ "..") :
    IsName (stem ++ "." ++ extension) := by
  obtain ⟨c, rest, hcons⟩ := List.exists_cons_of_ne_nil fun heq =>
    hstem (String.toList_eq_nil_iff.mp heq)
  have hlist : (stem ++ "." ++ extension).toList = c :: (rest ++ '.' :: extension.toList) := by
    simp [hcons]
  refine ⟨?_, fun heq => ?_, fun heq => ?_, hup⟩
  · simp [hslash, hextension]
  · rw [heq] at hlist
    simp at hlist
  · rw [heq] at hlist
    simp at hlist

/-- **Another extension** replaces what follows the stem of the final component. -/
theorem EndsIn.withExtension {path name : String} {before after : List Char}
    (h : EndsIn path before name after) {extension : String} (hpoint : '.' ∉ extension.toList)
    (hslash : '/' ∉ extension.toList) (hne : extension ≠ "") :
    EndsIn (withExtension path extension) before ((splitName name).1 ++ "." ++ extension) [] := by
  obtain ⟨hstem, rest, hname⟩ := exists_stem_append h.isName.ne_empty
  have hlist : name.toList = (splitName name).1.toList ++ rest.toList := by
    rw [← String.toList_append, ← hname]
  have hkept : path.toList.take (before.length + name.toList.length -
      (name.length - (splitName name).1.length)) = before ++ (splitName name).1.toList := by
    have hlength : before.length + name.toList.length - (name.length - (splitName name).1.length) =
        (before ++ (splitName name).1.toList).length := by
      rw [← String.length_toList, ← String.length_toList, hlist, List.length_append,
        List.length_append]
      omega
    rw [hlength, h.toList_eq, hlist, List.append_assoc, ← List.append_assoc before]
    exact List.take_left
  have hup : (splitName name).1 ++ "." ++ extension ≠ ".." := by
    intro heq
    obtain ⟨last, hlast⟩ := List.exists_mem_of_ne_nil _ fun hnil =>
      hne (String.toList_eq_nil_iff.mp hnil)
    have hmem : last ∈ "..".toList := by
      rw [← heq, String.toList_append]
      exact List.mem_append_right _ hlast
    have hdot : last = '.' := by simpa using hmem
    exact hpoint (hdot ▸ hlast)
  refine ⟨?_, h.opens, isName_append hstem (fun hmem => h.isName.slash ?_) hslash hup, .inl rfl⟩
  · rw [Path.withExtension, h.finalName?_eq]
    dsimp only
    rw [if_neg hne, hkept]
    simp
  · rw [hlist]
    exact List.mem_append_left _ hmem

end Darkroom.Path
