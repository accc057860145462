import Darkroom.Storage
import Mathlib.Tactic.Common

/-!
# Where paths lead, and what writing changes

A path that leads anywhere leads to a location that can be told without the tree: its names, with
`.` and `..` resolved, from the root or the working directory on (`FileTree.place`). What is done to
a tree while files are written is said by one relation, `FileTree.Alters`: directories are only
added, a file never becomes a directory, and files are as before but at some locations. It composes,
and a file that lies elsewhere is still read by the same path after it (`FileTree.Alters.read`),
since all directories on the way are still there.

## Main definitions

* `FileTree.place` : the location of a path.
* `FileTree.Alters` : what may be different in a later tree.

## Main results

* `FileTree.location_follow` : where a path leads.
* `FileTree.Alters.read` : files elsewhere are read as before.
* `FileTree.write_eq_ok` : what writing a file does.
* `FileTree.alters_makeDirectories` : making directories leaves all files.
* `OutputDirectory.leaves_write`, `OutputDirectory.writes_write` : what writing an output does.
-/

namespace Darkroom

/-! ### Entries by key -/

section Lookup

variable {κ β : Type} [BEq κ] [LawfulBEq κ] [DecidableEq κ]

theorem lookup_without (entries : List (κ × β)) (key other : κ) :
    (entries.filter fun entry => entry.1 ≠ key).lookup other =
      if other = key then none else entries.lookup other := by
  induction entries with
  | nil => simp
  | cons entry entries ih =>
    obtain ⟨first, value⟩ := entry
    by_cases hfirst : first = key
    · subst hfirst
      rw [List.filter_cons_of_neg (by simp), ih]
      split_ifs with hother
      · rfl
      · rw [List.lookup_cons, beq_eq_false_iff_ne.mpr hother]
    · rw [List.filter_cons_of_pos (by simpa using hfirst), List.lookup_cons, List.lookup_cons, ih]
      split_ifs with hother
      · subst hother
        rw [beq_eq_false_iff_ne.mpr (Ne.symm hfirst)]
      · rfl

/-- What is found once the entry of a key has been replaced. -/
theorem lookup_replaced (entries : List (κ × β)) (key other : κ) (value : β) :
    (entries.filter (fun entry => entry.1 ≠ key) ++ [(key, value)]).lookup other =
      if other = key then some value else entries.lookup other := by
  rw [List.lookup_append, lookup_without]
  split_ifs with hother
  · subst hother
    simp
  · rw [List.lookup_cons, beq_eq_false_iff_ne.mpr hother]
    simp

end Lookup

namespace FileTree

variable {t t' : FileTree} {touched : Location → Prop}

/-! ### Where paths lead -/

/-- The location that a name leads to from another one. -/
def stepTo (l : Location) (name : String) : Location :=
  if name = "." then l else if name = ".." then above l else l ++ [name]

/-- The location of a path, with `.` and `..` resolved, for a working directory. -/
def place (working : Location) (path : String) : Location :=
  (steps path).foldl stepTo (if Path.isAbsolute path then [] else working)

/-- A target at a location that is not a directory: a file, or a name that is free. -/
inductive Ends (t : FileTree) (l : Location) : Target → Prop
  | file (data : ByteArray) (hleaf : t.isDirectory l = false) (hfile : t.file? l = some data) :
    Ends t l (.file l data)
  | free (hleaf : t.isDirectory l = false) (hfile : t.file? l = none) : Ends t l (.free l)

theorem Ends.of_file {l m : Location} {data : ByteArray} (h : t.Ends m (.file l data)) :
    l = m ∧ t.isDirectory m = false ∧ t.file? m = some data := by
  cases h with
  | file _ hleaf hfile => exact ⟨rfl, hleaf, hfile⟩

theorem Ends.of_free {l m : Location} (h : t.Ends m (.free l)) :
    l = m ∧ t.isDirectory m = false ∧ t.file? m = none := by
  cases h with
  | free hleaf hfile => exact ⟨rfl, hleaf, hfile⟩

/-- Names that do not lead to a directory lead to the location that they spell. -/
theorem ends_follow {l : Location} {names : List String} {target : Target}
    (h : t.follow l names = .ok target) :
    (∃ m, target = .directory m) ∨ t.Ends (names.foldl stepTo l) target := by
  fun_induction follow t l names with
  | case1 l => exact .inl ⟨l, (Except.ok.inj h).symm⟩
  | case2 l names ih => exact ih h
  | case3 l names _ ih => exact ih h
  | case4 l name names hcurrent hup next hdirectory ih =>
    rw [List.foldl_cons, stepTo, if_neg hcurrent, if_neg hup]
    exact ih h
  | case5 l name hcurrent hup next hleaf data hfile =>
    obtain rfl := Except.ok.inj h
    rw [List.foldl_cons, stepTo, if_neg hcurrent, if_neg hup]
    exact .inr (.file data (Bool.eq_false_iff.mpr hleaf) hfile)
  | case6 => cases h
  | case7 l name hcurrent hup next hleaf hfile =>
    obtain rfl := Except.ok.inj h
    rw [List.foldl_cons, stepTo, if_neg hcurrent, if_neg hup]
    exact .inr (.free (Bool.eq_false_iff.mpr hleaf) hfile)
  | case8 => cases h

/-- Where names lead to a file or to a free name, they lead to a file at that location in any tree
that has one there and has at least the same directories. -/
theorem follow_of_ends {l m : Location} {names : List String} {target : Target} {data : ByteArray}
    (h : t.follow l names = .ok target) (hends : t.Ends m target)
    (hdirectories : ∀ l, t.isDirectory l = true → t'.isDirectory l = true)
    (hleaf : t'.isDirectory m = false) (hfile : t'.file? m = some data) :
    t'.follow l names = .ok (.file m data) := by
  fun_induction follow t l names with
  | case1 l =>
    obtain rfl := Except.ok.inj h
    cases hends
  | case2 l names ih =>
    rw [follow, if_pos rfl]
    exact ih h
  | case3 l names hcurrent ih =>
    rw [follow, if_neg hcurrent, if_pos rfl]
    exact ih h
  | case4 l name names hcurrent hup next hdirectory ih =>
    rw [follow, if_neg hcurrent, if_neg hup]
    dsimp only
    rw [if_pos (hdirectories next hdirectory)]
    exact ih h
  | case5 l name hcurrent hup next _ found _ =>
    obtain rfl := Except.ok.inj h
    have hnext : l ++ [name] = m := hends.of_file.1
    simp only [follow, if_neg hcurrent, if_neg hup, hnext, hleaf, hfile, Bool.false_eq_true,
      if_false, if_true]
  | case6 => cases h
  | case7 l name hcurrent hup next _ _ =>
    obtain rfl := Except.ok.inj h
    have hnext : l ++ [name] = m := hends.of_free.1
    simp only [follow, if_neg hcurrent, if_neg hup, hnext, hleaf, hfile, Bool.false_eq_true,
      if_false, if_true]
  | case8 => cases h

theorem resolve_eq_ok_iff {path : String} {target : Target} :
    t.resolve path = .ok target ↔ path ≠ "" ∧ ¬ path.toList.contains '\x00' = true ∧
      t.follow (if Path.isAbsolute path then [] else t.working) (steps path) = .ok target ∧
      ∀ l data, target = .file l data → wantsDirectory path = false := by
  rw [resolve]
  by_cases hempty : path = ""
  · rw [if_pos hempty]
    exact ⟨nofun, fun h => absurd hempty h.1⟩
  by_cases hname : path.toList.contains '\x00' = true
  · rw [if_neg hempty, if_pos hname]
    exact ⟨nofun, fun h => absurd hname h.2.1⟩
  rw [if_neg hempty, if_neg hname, and_iff_right hempty, and_iff_right hname]
  cases t.follow (if Path.isAbsolute path then [] else t.working) (steps path) with
  | error problem => exact ⟨nofun, fun h => nomatch h.1⟩
  | ok found =>
    cases found with
    | directory l =>
      refine ⟨fun h => ⟨h, fun m data hfile => ?_⟩, And.left⟩
      exact nomatch (Except.ok.inj h).trans hfile
    | free l =>
      refine ⟨fun h => ⟨h, fun m data hfile => ?_⟩, And.left⟩
      exact nomatch (Except.ok.inj h).trans hfile
    | file l data =>
      dsimp only
      split_ifs with hwants
      · exact ⟨nofun, fun h => absurd hwants (by simp [h.2 l data (Except.ok.inj h.1).symm])⟩
      · exact ⟨fun h => ⟨h, fun _ _ _ => Bool.eq_false_iff.mpr hwants⟩, And.left⟩

/-- A path that can be resolved leads to a directory or to its place. -/
theorem ends_resolve {path : String} {target : Target} (h : t.resolve path = .ok target) :
    (∃ m, target = .directory m) ∨ t.Ends (place t.working path) target :=
  ends_follow (resolve_eq_ok_iff.mp h).2.2.1

/-- A path to a file or to a free name leads to a file at its place in any tree that has one there
and has at least the same directories. -/
theorem resolve_of_ends {path : String} {target : Target} {data : ByteArray}
    (h : t.resolve path = .ok target) (hends : t.Ends (place t.working path) target)
    (hnot : wantsDirectory path = false) (hworking : t'.working = t.working)
    (hdirectories : ∀ l, t.isDirectory l = true → t'.isDirectory l = true)
    (hleaf : t'.isDirectory (place t.working path) = false)
    (hfile : t'.file? (place t.working path) = some data) :
    t'.resolve path = .ok (.file (place t.working path) data) := by
  obtain ⟨hempty, hname, hfollow, -⟩ := resolve_eq_ok_iff.mp h
  refine resolve_eq_ok_iff.mpr ⟨hempty, hname, ?_, fun _ _ _ => hnot⟩
  rw [hworking]
  exact follow_of_ends hfollow hends hdirectories hleaf hfile

theorem read_eq_ok_iff {path : String} {data : ByteArray} :
    t.read path = .ok data ↔ ∃ l, t.resolve path = .ok (.file l data) := by
  rw [read]
  cases t.resolve path with
  | error problem => exact ⟨nofun, fun ⟨_, h⟩ => nomatch h⟩
  | ok target =>
    cases target with
    | directory l => exact ⟨nofun, fun ⟨_, h⟩ => nomatch h⟩
    | free l => exact ⟨nofun, fun ⟨_, h⟩ => nomatch h⟩
    | file l found => simp

/-! ### What changes -/

/-- A tree after files have been written at some locations: it has all directories of before, no
file has become a directory or is gone, and files elsewhere are as before. -/
structure Alters (t t' : FileTree) (touched : Location → Prop) : Prop where
  working : t'.working = t.working
  directories : ∀ l, t.isDirectory l = true → t'.isDirectory l = true
  leaves : ∀ l, t.isDirectory l = false → (t.file? l).isSome → t'.isDirectory l = false
  files : ∀ l, (t.file? l).isSome → (t'.file? l).isSome
  others : ∀ l, ¬ touched l → t'.file? l = t.file? l

namespace Alters

theorem refl (t : FileTree) (touched : Location → Prop) : t.Alters t touched :=
  ⟨rfl, fun _ h => h, fun _ h _ => h, fun _ h => h, fun _ _ => rfl⟩

theorem trans {t'' : FileTree} (h : t.Alters t' touched) (h' : t'.Alters t'' touched) :
    t.Alters t'' touched where
  working := h'.working.trans h.working
  directories l hl := h'.directories l (h.directories l hl)
  leaves l hleaf hfile := h'.leaves l (h.leaves l hleaf hfile) (h.files l hfile)
  files l hl := h'.files l (h.files l hl)
  others l hl := (h'.others l hl).trans (h.others l hl)

theorem mono {more : Location → Prop} (h : t.Alters t' touched)
    (hmore : ∀ l, touched l → more l) : t.Alters t' more :=
  { h with others := fun l hl => h.others l fun htouched => hl (hmore l htouched) }

/-- A file that lies elsewhere is read by the same path. -/
theorem read {path : String} {data : ByteArray} (h : t.Alters t' touched)
    (hread : t.read path = .ok data) (hplace : ¬ touched (place t.working path)) :
    t'.read path = .ok data := by
  obtain ⟨l, hresolve⟩ := read_eq_ok_iff.mp hread
  have hnot := (resolve_eq_ok_iff.mp hresolve).2.2.2 l data rfl
  obtain ⟨m, hdirectory⟩ | hends := ends_resolve hresolve
  · cases hdirectory
  · obtain ⟨rfl, hleaf, hfile⟩ := hends.of_file
    have hsome : (t.file? (place t.working path)).isSome := by rw [hfile]; rfl
    refine read_eq_ok_iff.mpr ⟨_, resolve_of_ends hresolve hends hnot h.working h.directories
      (h.leaves _ hleaf hsome) ?_⟩
    rw [h.others _ hplace, hfile]

end Alters

/-! ### Writing a file -/

theorem file?_put (t : FileTree) (l m : Location) (data : ByteArray) :
    (t.put l data).file? m = if m = l then some data else t.file? m :=
  lookup_replaced t.files l m data

theorem alters_put (t : FileTree) (l : Location) (data : ByteArray) :
    t.Alters (t.put l data) (· = l) where
  working := rfl
  directories _ h := h
  leaves _ h _ := h
  files m hm := by
    rw [file?_put]
    split_ifs
    · rfl
    · exact hm
  others m hm := by rw [file?_put, if_neg hm]

/-- A file that has been written is at its place, where it can be read by the same path, and nothing
else has changed. -/
theorem write_eq_ok {path : String} {data : ByteArray} (h : t.write path data = .ok t') :
    t.Alters t' (· = place t.working path) ∧ t'.read path = .ok data := by
  have hput : ∀ target, t.resolve path = .ok target → t.Ends (place t.working path) target →
      wantsDirectory path = false → t' = t.put (place t.working path) data →
      t.Alters t' (· = place t.working path) ∧ t'.read path = .ok data := by
    rintro target hresolve hends hnot rfl
    have hleaf : t.isDirectory (place t.working path) = false := by
      cases hends with
      | file _ hleaf _ => exact hleaf
      | free hleaf _ => exact hleaf
    refine ⟨t.alters_put _ data, read_eq_ok_iff.mpr ⟨_, resolve_of_ends hresolve hends hnot rfl
      (fun _ h => h) hleaf ?_⟩⟩
    rw [file?_put, if_pos rfl]
  rw [write] at h
  cases hresolve : t.resolve path with
  | error problem =>
    rw [hresolve] at h
    cases h
  | ok target =>
    rw [hresolve] at h
    obtain ⟨m, rfl⟩ | hends := ends_resolve hresolve
    · cases h
    cases target with
    | directory l => cases h
    | file l found =>
      obtain rfl := hends.of_file.1
      have hnot := (resolve_eq_ok_iff.mp hresolve).2.2.2 _ found rfl
      exact hput _ hresolve hends hnot (Except.ok.inj h).symm
    | free l =>
      obtain rfl := hends.of_free.1
      dsimp only at h
      split_ifs at h with hwants
      exact hput _ hresolve hends (Bool.eq_false_iff.mpr hwants) (Except.ok.inj h).symm

/-! ### Making directories -/

/-- A directory is made where nothing is. -/
theorem alters_makeDirectory {path : String} (h : t.makeDirectory path = .ok t')
    (touched : Location → Prop) : t.Alters t' touched := by
  rw [makeDirectory] at h
  cases hresolve : t.resolve path with
  | error problem =>
    rw [hresolve] at h
    cases h
  | ok target =>
    rw [hresolve] at h
    cases target with
    | directory l => cases h
    | file l data => cases h
    | free l =>
      obtain rfl := Except.ok.inj h
      obtain ⟨m, hdirectory⟩ | hends := ends_resolve hresolve
      · cases hdirectory
      obtain ⟨rfl, hleaf, hfile⟩ := hends.of_free
      refine ⟨rfl, fun m hm => ?_, fun m hm hsome => ?_, fun _ h => h, fun _ _ => rfl⟩
      · simp only [isDirectory, Bool.or_eq_true, List.contains_append] at hm ⊢
        tauto
      · have hne : m ≠ place t.working path := by
          rintro rfl
          rw [hfile] at hsome
          cases hsome
        simpa [isDirectory, hne] using hm

theorem alters_settleDirectory (t : FileTree) (path : String) (touched : Location → Prop) :
    t.Alters (t.settleDirectory path).2 touched := by
  rw [settleDirectory]
  cases hmade : t.makeDirectory path with
  | ok made => exact alters_makeDirectory hmade touched
  | error problem => exact .refl t touched

theorem alters_makeMissing (t : FileTree) (fuel : Nat) (path : String)
    (touched : Location → Prop) : t.Alters (t.makeMissing fuel path).2 touched := by
  fun_induction makeMissing t fuel path with
  | case1 => exact .refl t touched
  | case2 => exact .refl t touched
  | case3 => exact .refl t touched
  | case4 fuel path _ _ _ parent _ made hmade ih =>
    rw [hmade] at ih
    exact ih.trans (made.alters_settleDirectory path touched)
  | case5 _ _ _ _ _ _ _ _ ih => exact ih
  | case6 _ path => exact t.alters_settleDirectory path touched

/-- Making directories leaves all files. -/
theorem alters_makeDirectories (t : FileTree) (path : String) (touched : Location → Prop) :
    t.Alters (t.makeDirectories path).2 touched :=
  t.alters_makeMissing _ path touched

end FileTree

/-! ### Output directories -/

namespace OutputDirectory

variable {store : OutputDirectory} {name : String} {data : ByteArray}

/-- The location of an output. -/
def place (store : OutputDirectory) (name : String) : Location :=
  FileTree.place store.tree.working (Path.join store.base name)

/-- What writing an output comes to: some directories are made, and then it fails, or the file is
written at its path. -/
inductive Leaves (store : OutputDirectory) (name : String) (data : ByteArray) :
    Except Fault String × OutputDirectory → Prop
  | failed {tree : FileTree} (halters : ∀ touched, store.tree.Alters tree touched)
      (fault : Fault) : Leaves store name data (.error fault, { store with tree })
  | wrote {tree written : FileTree} (halters : ∀ touched, store.tree.Alters tree touched)
      (hwrite : tree.write (Path.join store.base name) data = .ok written) :
      Leaves store name data (.ok (Path.join store.base name), { store with tree := written })

/-- The file itself, once the directories are there. -/
theorem Leaves.of_write {tree : FileTree} (halters : ∀ touched, store.tree.Alters tree touched) :
    Leaves store name data
      (match tree.write (Path.join store.base name) data with
        | .ok tree => (.ok (Path.join store.base name), { store with tree })
        | .error fault => (.error fault, { store with tree })) := by
  cases hwrite : tree.write (Path.join store.base name) data with
  | error fault => exact .failed halters fault
  | ok written => exact .wrote halters hwrite

theorem leaves_write (store : OutputDirectory) (name : String) (data : ByteArray) :
    Leaves store name data (store.write name data) := by
  rw [write]
  cases Path.parent? (Path.join store.base name) with
  | none => exact .of_write (.refl store.tree)
  | some parent =>
    have halters := store.tree.alters_makeDirectories parent
    dsimp only
    generalize store.tree.makeDirectories parent = result at halters ⊢
    obtain ⟨made, tree⟩ := result
    cases made with
    | error problem => exact .failed halters _
    | ok => exact .of_write halters

/-- An answer and a store afterwards, as of writing an output: nothing has changed but the file at
its place and some directories, and the answer is the path at which the output can be read. -/
structure Writes (store : OutputDirectory) (name : String) (data : ByteArray)
    (result : Except Fault String × OutputDirectory) : Prop where
  base : result.2.base = store.base
  alters : store.tree.Alters result.2.tree (· = store.place name)
  readable : ∀ path, result.1 = .ok path →
    path = Path.join store.base name ∧ result.2.tree.read path = .ok data

theorem Leaves.writes {result : Except Fault String × OutputDirectory}
    (h : Leaves store name data result) : Writes store name data result := by
  cases h with
  | failed halters fault => exact ⟨rfl, halters _, nofun⟩
  | wrote halters hwrite =>
    obtain ⟨hwritten, hread⟩ := FileTree.write_eq_ok hwrite
    have hbefore := halters (· = store.place name)
    rw [hbefore.working] at hwritten
    refine ⟨rfl, hbefore.trans hwritten, fun path hpath => ?_⟩
    obtain rfl := Except.ok.inj hpath
    exact ⟨rfl, hread⟩

theorem writes_write (store : OutputDirectory) (name : String) (data : ByteArray) :
    Writes store name data (store.write name data) :=
  (store.leaves_write name data).writes

/-- An output that cannot be written leaves all files. -/
theorem file?_write_of_error {fault : Fault} (h : (store.write name data).1 = .error fault)
    (l : Location) : (store.write name data).2.tree.file? l = store.tree.file? l := by
  have hleaves := store.leaves_write name data
  generalize store.write name data = result at h hleaves ⊢
  cases hleaves with
  | failed halters _ => exact (halters fun _ => False).others l id
  | wrote => cases h

end OutputDirectory

end Darkroom
