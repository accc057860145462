import Darkroom.Check
import Darkroom.Proofs.FileTree
import Darkroom.Proofs.Path
import Mathlib.Data.List.Basic

/-!
# Outputs and their base directory

An output goes to its name under the base directory, with `.` and `..` resolved from there on
(`FileTree.place_join`). So it lies inside exactly when the name does not lead out: when it is
relative and no `..` in it goes above the directory that it starts from (`FileTree.IsConfined`). A
path is accepted as the name of an output without regard to this.

## Main definitions

* `FileTree.staysBelow`, `FileTree.IsConfined` : names that do not lead out of a directory.
* `OutputDirectory.Holds`, `OutputDirectory.Touches` : the locations inside the base directory, and
  the files that writing an output creates or changes.

## Main results

* `FileTree.place_join` : where a name under a directory leads.
* `FileTree.isConfined_iff` : the names that stay inside every directory.
* `OutputDirectory.outputs_stay_in_base` : what writing an output touches.
-/

namespace Darkroom

namespace FileTree

/-! ### Names under a directory -/

theorem steps_append_slash (base name : String) :
    steps (base ++ "/" ++ name) = steps base ++ steps name := by
  have hlist : (base ++ "/" ++ name).toList = base.toList ++ '/' :: name.toList := by simp
  rw [steps, steps, steps, hlist, Path.map_fst_piecesFrom_append, List.filter_append]

theorem steps_append_of_slash {base : String} (hslash : base.toList.getLast? = some '/')
    (name : String) : steps (base ++ name) = steps base ++ steps name := by
  obtain ⟨before, hbase⟩ := List.getLast?_eq_some_iff.mp hslash
  have hlist : (base ++ name).toList = before ++ '/' :: name.toList := by
    rw [String.toList_append, hbase, List.append_assoc, List.singleton_append]
  rw [steps, steps, steps, hlist, hbase, Path.map_fst_piecesFrom_append,
    Path.map_fst_piecesFrom_append, List.filter_append, List.filter_append]
  simp [Path.piecesFrom]

theorem steps_join {name : String} (hrelative : Path.isAbsolute name = false) (base : String) :
    steps (Path.join base name) = steps base ++ steps name := by
  rw [Path.join, if_neg (by rw [hrelative]; decide)]
  by_cases hempty : base = ""
  · subst hempty
    rw [if_pos (.inl rfl), String.empty_append]
    rfl
  · split_ifs with hslash
    · exact steps_append_of_slash (hslash.resolve_left hempty) name
    · exact steps_append_slash base name

theorem isAbsolute_join {name : String} (hrelative : Path.isAbsolute name = false)
    (base : String) : Path.isAbsolute (Path.join base name) = Path.isAbsolute base := by
  have hmore : base ≠ "" → ∀ s, Path.isAbsolute (base ++ s) = Path.isAbsolute base := by
    intro hbase s
    obtain ⟨c, rest, hlist⟩ :=
      List.exists_cons_of_ne_nil fun heq => hbase (String.toList_eq_nil_iff.mp heq)
    rw [Path.isAbsolute, Path.isAbsolute, String.toList_append, hlist]
    rfl
  rw [Path.join, if_neg (by rw [hrelative]; decide)]
  by_cases hempty : base = ""
  · subst hempty
    rw [if_pos (.inl rfl), String.empty_append, hrelative]
    rfl
  · split_ifs
    · exact hmore hempty name
    · rw [String.append_assoc, hmore hempty]

/-- A relative name leads on from where the directory leads. -/
theorem place_join {name : String} (hrelative : Path.isAbsolute name = false) (working : Location)
    (base : String) :
    place working (Path.join base name) = (steps name).foldl stepTo (place working base) := by
  rw [place, place, steps_join hrelative, isAbsolute_join hrelative, List.foldl_append]

/-- A relative name that is not empty has steps. -/
theorem steps_ne_nil {name : String} (hne : name ≠ "")
    (hrelative : Path.isAbsolute name = false) : steps name ≠ [] := by
  rw [steps]
  cases hlist : name.toList with
  | nil => exact absurd (String.toList_eq_nil_iff.mp hlist) hne
  | cons c rest =>
    have hc : c ≠ '/' := by
      rintro rfl
      rw [Path.isAbsolute, hlist] at hrelative
      simp at hrelative
    rw [Path.piecesFrom, if_neg hc]
    obtain ⟨text, hmem, htext⟩ := Path.exists_piece_ne_empty 1 (List.cons_ne_nil c []) rest
    exact List.ne_nil_of_mem (List.mem_filter.mpr ⟨hmem, by simpa using htext⟩)

/-! ### Names that do not lead out -/

/-- Whether names do not lead above a directory, from `depth` levels below it on. -/
def staysBelow : (depth : Nat) → List String → Bool
  | _, [] => true
  | depth, name :: names =>
    if name = "." then staysBelow depth names
    else if name = ".." then depth ≠ 0 && staysBelow (depth - 1) names
    else staysBelow (depth + 1) names

/-- Whether a path is relative and does not lead above the directory that it starts from. -/
def IsConfined (path : String) : Prop :=
  Path.isAbsolute path = false ∧ staysBelow 0 (steps path) = true

instance (path : String) : Decidable (IsConfined path) := inferInstanceAs (Decidable (_ ∧ _))

theorem above_append_concat (l extra : Location) (name : String) :
    above (l ++ (extra ++ [name])) = l ++ extra := by
  rw [above, ← List.append_assoc, List.dropLast_concat]

/-- Names that do not lead above a directory lead to a place inside. -/
theorem prefix_foldl_stepTo {depth : Nat} {names : List String}
    (h : staysBelow depth names = true) (l extra : Location)
    (hextra : extra.length = depth) : l <+: names.foldl stepTo (l ++ extra) := by
  induction names generalizing depth extra with
  | nil => exact List.prefix_append l extra
  | cons name names ih =>
    rw [staysBelow] at h
    rw [List.foldl_cons, stepTo]
    split_ifs at h ⊢
    · exact ih h extra hextra
    · rw [Bool.and_eq_true, decide_eq_true_eq] at h
      rcases List.eq_nil_or_concat' extra with rfl | ⟨before, last, rfl⟩
      · exact absurd hextra.symm h.1
      · rw [above_append_concat]
        rw [List.length_append, List.length_singleton] at hextra
        exact ih h.2 before (by omega)
    · rw [List.append_assoc]
      exact ih h _ (by rw [List.length_append, hextra, List.length_singleton])

theorem staysBelow_of_append {depth : Nat} {names more : List String}
    (h : staysBelow depth (names ++ more) = true) : staysBelow depth names = true := by
  induction names generalizing depth with
  | nil => rfl
  | cons name names ih =>
    rw [List.cons_append, staysBelow] at h
    rw [staysBelow]
    split_ifs at h ⊢
    · exact ih h
    · rw [Bool.and_eq_true] at h ⊢
      exact ⟨h.1, ih h.2⟩
    · exact ih h

/-- Names that lead above a directory forget its name on the way. -/
theorem exists_climb {depth : Nat} {names : List String} (h : staysBelow depth names = false) :
    ∃ rest : List String, ∀ l extra : Location, extra.length = depth →
      names.foldl stepTo (l ++ extra) = rest.foldl stepTo (above l) := by
  induction names generalizing depth with
  | nil => exact nomatch h
  | cons name names ih =>
    rw [staysBelow] at h
    split_ifs at h with hcurrent hup
    · obtain ⟨rest, hrest⟩ := ih h
      refine ⟨rest, fun l extra hextra => ?_⟩
      rw [List.foldl_cons, stepTo, if_pos hcurrent, hrest l extra hextra]
    · by_cases hdepth : depth = 0
      · refine ⟨names, fun l extra hextra => ?_⟩
        rw [List.foldl_cons, stepTo, if_neg hcurrent, if_pos hup,
          List.eq_nil_of_length_eq_zero (hextra.trans hdepth), List.append_nil]
      · obtain ⟨rest, hrest⟩ := ih (by simpa [hdepth] using h)
        refine ⟨rest, fun l extra hextra => ?_⟩
        rw [List.foldl_cons, stepTo, if_neg hcurrent, if_pos hup]
        rcases List.eq_nil_or_concat' extra with rfl | ⟨before, last, rfl⟩
        · exact absurd hextra.symm hdepth
        · rw [List.length_append, List.length_singleton] at hextra
          rw [above_append_concat, hrest l before (by omega)]
    · obtain ⟨rest, hrest⟩ := ih h
      refine ⟨rest, fun l extra hextra => ?_⟩
      rw [List.foldl_cons, stepTo, if_neg hcurrent, if_neg hup, List.append_assoc,
        hrest l _ (by rw [List.length_append, hextra, List.length_singleton])]

/-- **The names that stay inside every directory** are the confined ones. -/
theorem isConfined_iff (name : String) :
    IsConfined name ↔
      ∀ working base, place working base <+: place working (Path.join base name) := by
  constructor
  · rintro ⟨hrelative, hbelow⟩ working base
    rw [place_join hrelative]
    simpa using prefix_foldl_stepTo hbelow (place working base) [] rfl
  · intro h
    -- A name that leads out leads to one place from two directories beside each other.
    have hapart : ¬ place [] (Path.join "a" name) = place [] (Path.join "b" name) := by
      intro heq
      have hplaces : place [] "a" = ["a"] ∧ place [] "b" = ["b"] := by decide +kernel
      have ha := h [] "a"
      have hb := h [] "b"
      rw [hplaces.1] at ha
      rw [hplaces.2, ← heq] at hb
      have hsame := List.prefix_of_prefix_length_le ha hb (Nat.le_refl 1)
      exact absurd hsame (by decide)
    have hrelative : Path.isAbsolute name = false := by
      refine Bool.eq_false_iff.mpr fun habsolute => hapart ?_
      rw [Path.join, Path.join, if_pos habsolute, if_pos habsolute]
    refine ⟨hrelative, by_contra fun hclimbs => hapart ?_⟩
    obtain ⟨rest, hrest⟩ := exists_climb (Bool.eq_false_iff.mpr hclimbs)
    rw [place_join hrelative, place_join hrelative]
    exact (hrest ["a"] [] rfl).trans (hrest ["b"] [] rfl).symm

/-! ### Files on the way -/

/-- Names that do not lead to a directory end in the name of what they lead to. -/
theorem exists_last_of_follow {t : FileTree} {l : Location} {names : List String} {target : Target}
    (h : t.follow l names = .ok target) (htarget : ∀ m, target ≠ .directory m) :
    ∃ before last, names = before ++ [last] ∧ last ≠ "." ∧ last ≠ ".." := by
  fun_induction follow t l names with
  | case1 l => exact absurd (Except.ok.inj h).symm (htarget l)
  | case2 l names ih =>
    obtain ⟨before, last, rfl, hlast⟩ := ih h
    exact ⟨_ :: before, last, rfl, hlast⟩
  | case3 l names _ ih =>
    obtain ⟨before, last, rfl, hlast⟩ := ih h
    exact ⟨_ :: before, last, rfl, hlast⟩
  | case4 l name names _ _ next _ ih =>
    obtain ⟨before, last, rfl, hlast⟩ := ih h
    exact ⟨name :: before, last, rfl, hlast⟩
  | case5 l name hcurrent hup => exact ⟨[], name, rfl, hcurrent, hup⟩
  | case6 => cases h
  | case7 l name hcurrent hup => exact ⟨[], name, rfl, hcurrent, hup⟩
  | case8 => cases h

end FileTree

/-! ### Outputs -/

namespace OutputDirectory

variable {store : OutputDirectory} {name : String} {data : ByteArray} {l : Location}

/-- The location of the base directory. -/
def baseLocation (store : OutputDirectory) : Location :=
  FileTree.place store.tree.working store.base

/-- Whether a location lies inside the base directory. -/
def Holds (store : OutputDirectory) (l : Location) : Prop :=
  store.baseLocation <+: l ∧ l ≠ store.baseLocation

instance (store : OutputDirectory) (l : Location) : Decidable (store.Holds l) :=
  inferInstanceAs (Decidable (_ ∧ _))

/-- Whether writing an output creates a file at a location, or changes the one there. -/
def Touches (store : OutputDirectory) (name : String) (data : ByteArray) (l : Location) : Prop :=
  (store.write name data).2.tree.file? l ≠ store.tree.file? l

instance (store : OutputDirectory) (name : String) (data : ByteArray) (l : Location) :
    Decidable (store.Touches name data l) :=
  inferInstanceAs (Decidable (_ ≠ _))

/-- A file that is touched is the output, and it has a name under a directory that the path leads
to. -/
theorem Touches.exists_last (h : store.Touches name data l) :
    l = store.place name ∧ ∃ before last, FileTree.steps (Path.join store.base name) =
      before ++ [last] ∧ last ≠ "." ∧ last ≠ ".." := by
  have hwrites := store.writes_write name data
  refine ⟨by_contra fun hne => h (hwrites.alters.others l hne), ?_⟩
  cases hresult : (store.write name data).1 with
  | error fault => exact absurd (file?_write_of_error hresult l) h
  | ok path =>
    obtain ⟨rfl, hread⟩ := hwrites.readable path hresult
    obtain ⟨m, hresolve⟩ := FileTree.read_eq_ok_iff.mp hread
    exact FileTree.exists_last_of_follow (FileTree.resolve_eq_ok_iff.mp hresolve).2.2.1 nofun

/-- An output whose name does not lead out goes inside, if it is a file at all. -/
theorem holds_place (hconfined : FileTree.IsConfined name) {before : List String} {last : String}
    (hsteps : FileTree.steps name = before ++ [last]) (hcurrent : last ≠ ".") (hup : last ≠ "..")
    (store : OutputDirectory) : store.Holds (store.place name) := by
  obtain ⟨hrelative, hbelow⟩ := hconfined
  rw [hsteps] at hbelow
  have hdirectory := FileTree.prefix_foldl_stepTo (FileTree.staysBelow_of_append hbelow)
    store.baseLocation [] rfl
  rw [List.append_nil] at hdirectory
  have hplace : store.place name = before.foldl FileTree.stepTo store.baseLocation ++ [last] := by
    rw [place, FileTree.place_join hrelative, hsteps, List.foldl_append, ← baseLocation]
    simp [FileTree.stepTo, hcurrent, hup]
  rw [hplace]
  refine ⟨hdirectory.trans (List.prefix_append _ _), fun heq => ?_⟩
  have hlength := congrArg List.length heq
  rw [List.length_append, List.length_singleton] at hlength
  exact absurd hdirectory.length_le (by omega)

/-- **What writing an output touches.** Of all files only the one at the place of the output is
created or changed, and it lies inside the base directory if the name, which is accepted as that of
an output, does not lead out. These are the only names whose places are under every base
directory. -/
theorem outputs_stay_in_base {field name : String} (hname : Check.path field name = .ok ()) :
    (∀ store data l, Touches store name data l → l = store.place name) ∧
      (FileTree.IsConfined name → ∀ store data l, Touches store name data l → store.Holds l) ∧
        (FileTree.IsConfined name ↔ ∀ store, baseLocation store <+: store.place name) := by
  have hne : name ≠ "" := by
    rintro rfl
    cases hname
  refine ⟨fun store data l h => h.exists_last.1, fun hconfined store data l h => ?_, ?_⟩
  · obtain ⟨rfl, before, last, hsteps, hcurrent, hup⟩ := h.exists_last
    rw [FileTree.steps_join hconfined.1] at hsteps
    rcases List.eq_nil_or_concat' (FileTree.steps name) with hnil | ⟨first, final, hlast⟩
    · exact absurd hnil (FileTree.steps_ne_nil hne hconfined.1)
    · rw [hlast, ← List.append_assoc] at hsteps
      obtain rfl := List.singleton_inj.mp (List.append_inj' hsteps rfl).2
      exact holds_place hconfined hlast hcurrent hup store
  · refine (FileTree.isConfined_iff name).trans ⟨fun h store => h _ _, fun h working base => ?_⟩
    exact h ⟨base, ⟨[], [], working⟩⟩

/-- A name with `..` in it that stays inside. -/
theorem cover_stays_in_base :
    let store : OutputDirectory := ⟨"out", ⟨[["home"]], [], ["home"]⟩⟩
    Check.path "output_path" "drafts/../final/cover.png" = .ok () ∧
      FileTree.IsConfined "drafts/../final/cover.png" ∧
        store.Touches "drafts/../final/cover.png" ⟨#[7]⟩ ["home", "out", "final", "cover.png"] ∧
          store.Holds ["home", "out", "final", "cover.png"] := by
  intro store
  have hname : Check.path "output_path" "drafts/../final/cover.png" = .ok () := by decide +kernel
  have hconfined : FileTree.IsConfined "drafts/../final/cover.png" := by decide +kernel
  have htouches : store.Touches "drafts/../final/cover.png" ⟨#[7]⟩
      ["home", "out", "final", "cover.png"] := by decide +kernel
  exact ⟨hname, hconfined, htouches, (outputs_stay_in_base hname).2.1 hconfined _ _ _ htouches⟩

/-- Names that lead out are accepted, and written to. -/
theorem accepted_names_lead_out :
    let store : OutputDirectory := ⟨"out", ⟨[["home"]], [], ["home"]⟩⟩
    (Check.path "output_path" "../evil.bin" = .ok () ∧
      store.Touches "../evil.bin" ⟨#[7]⟩ ["home", "evil.bin"] ∧
        ¬ store.Holds ["home", "evil.bin"]) ∧
      Check.path "output_path" "/evil.bin" = .ok () ∧
        store.Touches "/evil.bin" ⟨#[7]⟩ ["evil.bin"] ∧ ¬ store.Holds ["evil.bin"] := by
  decide +kernel

end OutputDirectory

end Darkroom
