import Darkroom.Proofs.Confinement
import Darkroom.Proofs.Path
import Darkroom.Proofs.Task
import Darkroom.Proofs.Text.Lowercase

/-!
# Names of outputs

The name under which an image is stored and the format in which it is encoded are chosen together:
either the extension is that of a forced format, or the format is read off the extension. Both ways
the extension of the stored name is read as the format (`HasFormat.ofPath_storedName`).

A default name is made of the stem and the extension of the source, and neither brings in a slash.
So it is one component, and as the part before its last point is longer than the stem, it differs
from the name of the source whatever becomes of the extension (`Job.storedName_ne_source`). Two
locations whose last names differ are different, so a run with a default name does not touch its
source, wherever the output directory lies (`Job.default_output_spares_source`).

## Main results

* `Render.extension_names_encoding` : stored names tell the format.
* `Job.default_output_spares_source` : where a run with a default name writes.
-/

namespace Darkroom

/-! ### Formats and extensions -/

namespace OutputFormat

theorem ofExtension_extension (format : OutputFormat) :
    ofExtension format.extension = .ok format := by
  cases format <;> rfl

theorem extension_ne_empty (format : OutputFormat) : format.extension ≠ "" := by
  cases format <;> decide

theorem notMem_extension (format : OutputFormat) :
    '.' ∉ format.extension.toList ∧ '/' ∉ format.extension.toList := by
  cases format <;> decide

end OutputFormat

section Stored

variable {forced : Option OutputFormat} {name : String} {format : OutputFormat}

/-- A forced format changes the extension of a name, and its stem and its parent stay. -/
theorem storedName_some {file : String} (hname : Path.fileName? name = some file)
    (format : OutputFormat) :
    Path.fileName? (storedName (some format) name) =
        some ((Path.splitName file).1 ++ "." ++ format.extension) ∧
      Path.extension? (storedName (some format) name) = some format.extension ∧
      Path.stem? (storedName (some format) name) = Path.stem? name ∧
      Path.parent? (storedName (some format) name) = Path.parent? name := by
  obtain ⟨before, after, hends⟩ := Path.exists_endsIn_of_fileName? hname
  obtain ⟨hpoint, hslash⟩ := format.notMem_extension
  have hstored := hends.withExtension hpoint hslash format.extension_ne_empty
  have hsplit := Path.splitName_append (Path.exists_stem_append hends.isName.ne_empty).1 hpoint
  have hfile := hstored.fileName?_eq
  refine ⟨hfile, ?_, ?_, hstored.parent?_eq hends⟩
  · rw [storedName, Path.extension?, hfile, Option.bind_some, hsplit]
  · rw [storedName, Path.stem?, Path.stem?, hfile, hname, Option.map_some, Option.map_some, hsplit]

/-- The format that an output gets is read off the name that it is stored under. -/
theorem HasFormat.ofPath_storedName (h : HasFormat forced name format)
    (hname : (Path.fileName? name).isSome) :
    OutputFormat.ofPath (storedName forced name) = .ok format := by
  obtain ⟨file, hfile⟩ := Option.isSome_iff_exists.mp hname
  obtain rfl | ⟨rfl, hformat⟩ := h
  · rw [OutputFormat.ofPath, (storedName_some hfile format).2.1]
    exact format.ofExtension_extension
  · exact hformat

end Stored

/-- **The extension names the encoding.** An image is encoded in a format and written under a name
whose extension is read as that format, or it is not written, where no format is known or the
encoding fails. The format is the one that is forced, under the name with another extension in the
same directory and with the same stem; or else the name is the given one. -/
theorem Render.extension_names_encoding [ImageLibrary] (render : Render)
    (forced : Option OutputFormat) (hname : (Path.fileName? render.outputName).isSome) :
    (∃ format name content, render.image.encode format = .ok content ∧
      (∀ (σ : Type) [Storage σ] (files : σ),
        render.store forced files = Storage.write files name content) ∧
      OutputFormat.ofPath name = .ok format ∧
      (∀ asked, forced = some asked → format = asked ∧
        Path.parent? name = Path.parent? render.outputName ∧
        Path.stem? name = Path.stem? render.outputName) ∧
      (forced = none → name = render.outputName)) ∨
    ((∀ format content, HasFormat forced render.outputName format →
        render.image.encode format ≠ .ok content) ∧
      ∀ (σ : Type) [Storage σ] (files : σ), ∃ fault,
        render.store forced files = (.error fault, files)) := by
  by_cases hcontent : ∃ format content, HasFormat forced render.outputName format ∧
      render.image.encode format = .ok content
  · obtain ⟨format, content, hformat, hencode⟩ := hcontent
    refine .inl ⟨format, storedName forced render.outputName, content, hencode,
      fun σ _ files => Render.store_of_content hformat hencode, hformat.ofPath_storedName hname,
      ?_, ?_⟩
    · rintro asked rfl
      obtain ⟨file, hfile⟩ := Option.isSome_iff_exists.mp hname
      obtain ⟨-, -, hstem, hparent⟩ := storedName_some hfile asked
      refine ⟨?_, hparent, hstem⟩
      obtain hforced | ⟨hnone, -⟩ := hformat
      · exact (Option.some.inj hforced).symm
      · exact nomatch hnone
    · rintro rfl
      rfl
  · have hnone : ∀ format content, HasFormat forced render.outputName format →
        render.image.encode format ≠ .ok content :=
      fun format content hformat hencode => hcontent ⟨format, content, hformat, hencode⟩
    exact .inr ⟨hnone, fun σ _ files => Render.store_of_no_content hnone⟩

/-- A name with points on all sides: what follows its last point gives way to the forced format. -/
theorem Render.oddName_names_encoding :
    let render : Render := ⟨.rgb (Raster.solid 1 1 ⟨1, 2, 3⟩), "shots/.holiday.tar./.", 0⟩
    ∃ name content, render.store (some .bmp) ([] : FileMap) = (.ok name, [(name, content)]) ∧
      OutputFormat.ofPath name = .ok .bmp ∧ Path.parent? name = some "shots" ∧
        Path.stem? name = some ".holiday.tar" := by
  intro render
  have hname : (Path.fileName? render.outputName).isSome := by decide +kernel
  obtain ⟨format, name, content, -, hstore, hread, hasked, -⟩ | ⟨hnone, -⟩ :=
    extension_names_encoding render (some .bmp) hname
  · obtain ⟨rfl, hparent, hstem⟩ := hasked .bmp rfl
    refine ⟨name, content, hstore FileMap [], hread, hparent.trans ?_, hstem.trans ?_⟩
    · decide +kernel
    · decide +kernel
  · exact absurd rfl (hnone .bmp _ (.inl rfl))

/-! ### Places of names -/

namespace FileTree

variable {path name : String} {before after : List Char}

theorem steps_of_isName (h : Path.IsName name) : steps name = [name] := by
  rw [steps, h.piecesFrom]
  simp [h.ne_empty]

theorem isAbsolute_of_isName (h : Path.IsName name) : Path.isAbsolute name = false := by
  rw [Path.isAbsolute, decide_eq_false_iff_not]
  exact fun hhead => h.slash (List.mem_of_mem_head? hhead)

theorem stepTo_of_isName (h : Path.IsName name) (l : Location) : stepTo l name = l ++ [name] := by
  rw [stepTo, if_neg h.ne_current, if_neg h.ne_up]

/-- A name leads to a file of that name, directly in the directory. -/
theorem place_join_of_isName (h : Path.IsName name) (working : Location) (base : String) :
    place working (Path.join base name) = place working base ++ [name] := by
  rw [place_join (isAbsolute_of_isName h), steps_of_isName h, List.foldl_cons, stepTo_of_isName h,
    List.foldl_nil]

/-- What follows a final component leads nowhere else. -/
theorem foldl_stepTo_of_isBlank (h : Path.IsBlank after) (hname : Path.IsName name)
    (l : Location) :
    (((Path.piecesFrom 0 [] (name.toList ++ after)).map Prod.fst).filter (· ≠ "")).foldl stepTo l =
      l ++ [name] := by
  have hblank : ∀ (names : List String) (l : Location), (∀ text ∈ names, text = "" ∨ text = ".") →
      (names.filter (· ≠ "")).foldl stepTo l = l := by
    intro names l hnames
    induction names with
    | nil => rfl
    | cons text names ih =>
      rw [List.forall_mem_cons] at hnames
      obtain ⟨rfl | rfl, hnames⟩ := hnames
      · exact ih hnames
      · exact ih hnames
  obtain rfl | ⟨rest, rfl, hrest⟩ := h
  · rw [List.append_nil, ← steps, steps_of_isName hname]
    exact stepTo_of_isName hname l
  · rw [Path.map_fst_piecesFrom_append, List.filter_append, List.foldl_append,
      hblank _ _ (Path.bodyComponents_eq_nil_iff.mp hrest), ← steps, steps_of_isName hname]
    exact stepTo_of_isName hname l

/-- A path with a final component leads to a location of that name. -/
theorem exists_place_eq (h : Path.EndsIn path before name after) (working : Location) :
    ∃ l, place working path = l ++ [name] := by
  rw [place, steps, h.toList_eq]
  obtain rfl | ⟨directory, rfl⟩ := h.opens
  · exact ⟨_, foldl_stepTo_of_isBlank h.isBlank h.isName _⟩
  · rw [List.append_assoc, List.singleton_append, Path.map_fst_piecesFrom_append,
      List.filter_append, List.foldl_append]
    exact ⟨_, foldl_stepTo_of_isBlank h.isBlank h.isName _⟩

end FileTree

/-! ### Default names -/

/-- A redaction fails before it writes, or it comes to writing something under its name. -/
theorem Task.run_redact_cases [ImageLibrary] {σ : Type} [Storage σ] (job : Job)
    (forced : Option OutputFormat) (files : σ) :
    (∃ fault, (redact job).run forced files = (.error fault, files)) ∨
      ∃ content, (redact job).run forced files =
        Storage.write files (storedName forced job.outputName) content := by
  by_cases h : ∃ render format content,
      (redact job).extract files >>= (redact job).transform = .ok render ∧
        HasFormat forced render.outputName format ∧ render.image.encode format = .ok content
  · obtain ⟨render, format, content, hrender, hformat, hencode⟩ := h
    have hname : render.outputName = job.outputName := by
      obtain ⟨-, data, picture, -, -, -, rfl⟩ := (redact_eq_ok_iff job render).mp hrender
      rfl
    rw [← hname]
    exact .inr ⟨content, run_of_content hrender hformat hencode⟩
  · refine .inl (run_of_no_content fun render format content hrender hformat hencode => ?_)
    exact h ⟨render, format, content, hrender, hformat, hencode⟩

namespace Job

variable {job : Job} {file : String}

/-- A default name is the stem of the source after a mark, and an extension without points and
slashes. -/
theorem exists_defaultOutputName_eq {source : String} (hfile : Path.fileName? source = some file) :
    ∃ extension, '.' ∉ extension.toList ∧ '/' ∉ extension.toList ∧
      defaultOutputName source = "redacted_" ++ (Path.splitName file).1 ++ "." ++ extension := by
  have hname : defaultOutputName source = "redacted_" ++ (Path.splitName file).1 ++ "." ++
      ((Path.splitName file).2.map Text.toLower).getD "png" := by
    rw [defaultOutputName, Path.stem?, Path.extension?, hfile]
    rfl
  obtain hwhole | ⟨stem, extension, -, hpoint, hcut, hsplit⟩ := Path.splitName_cases file
  · rw [hwhole] at hname ⊢
    exact ⟨"png", by decide, by decide, hname⟩
  · rw [hsplit] at hname ⊢
    refine ⟨Text.toLower extension, fun hmem => ?_, fun hmem => ?_, hname⟩
    · exact hpoint (Text.mem_of_mem_toLower (by decide) hmem)
    · obtain ⟨before, after, hends⟩ := Path.exists_endsIn_of_fileName? hfile
      refine hends.isName.slash ?_
      rw [hcut, String.toList_append]
      exact List.mem_append_right _ (Text.mem_of_mem_toLower (by decide) hmem)

theorem marked_ne_empty (stem : String) : "redacted_" ++ stem ≠ "" := fun heq => by
  simpa using congrArg String.toList heq

theorem isName_marked {stem extension : String} (hstem : '/' ∉ stem.toList)
    (hextension : '/' ∉ extension.toList) :
    Path.IsName ("redacted_" ++ stem ++ "." ++ extension) := by
  refine Path.isName_append (marked_ne_empty stem) ?_ hextension fun heq => ?_
  · simpa using hstem
  · simpa using congrArg String.toList heq

/-- What a default name is stored under, whatever becomes of its extension. -/
theorem exists_storedName_eq (hdefault : job.output = none)
    (hfile : Path.fileName? job.source = some file) (forced : Option OutputFormat) :
    ∃ extension, '.' ∉ extension.toList ∧
      Path.IsName ("redacted_" ++ (Path.splitName file).1 ++ "." ++ extension) ∧
      storedName forced job.outputName =
        "redacted_" ++ (Path.splitName file).1 ++ "." ++ extension := by
  obtain ⟨extension, hpoint, hslash, hname⟩ := exists_defaultOutputName_eq hfile
  obtain ⟨before, after, hends⟩ := Path.exists_endsIn_of_fileName? hfile
  have hstem : '/' ∉ (Path.splitName file).1.toList := by
    obtain ⟨-, rest, hcut⟩ := Path.exists_stem_append hends.isName.ne_empty
    intro hmem
    refine hends.isName.slash ?_
    rw [hcut, String.toList_append]
    exact List.mem_append_left _ hmem
  rw [outputName, hdefault, Option.getD_none, hname]
  cases forced with
  | none => exact ⟨extension, hpoint, isName_marked hstem hslash, rfl⟩
  | some format =>
    obtain ⟨hpoint', hslash'⟩ := format.notMem_extension
    refine ⟨format.extension, hpoint', isName_marked hstem hslash', ?_⟩
    have hends := (Path.endsIn_of_isName (isName_marked hstem hslash)).withExtension hpoint' hslash'
      format.extension_ne_empty
    have hlist := hends.toList_eq
    rw [Path.splitName_append (marked_ne_empty _) hpoint, List.nil_append, List.append_nil] at hlist
    exact String.toList_inj.mp hlist

/-- **A default name is not that of the source**, whatever becomes of its extension: the stem is
longer. -/
theorem storedName_ne_source (hdefault : job.output = none)
    (hfile : Path.fileName? job.source = some file) (forced : Option OutputFormat) :
    storedName forced job.outputName ≠ file := by
  obtain ⟨extension, hpoint, -, hstored⟩ := exists_storedName_eq hdefault hfile forced
  intro heq
  have hsplit := Path.splitName_append (marked_ne_empty (Path.splitName file).1) hpoint
  rw [← hstored, heq] at hsplit
  have hlength := congrArg (fun split => split.1.length) hsplit
  simp [String.length_append] at hlength

/-- **A run with a default name does not touch its source.** The name is one component and not that
of the source, also when a forced format has replaced its extension. So the run changes at most the
file of that name directly in the base directory, which is not where the source lies, and the source
is read as before. -/
theorem default_output_spares_source [ImageLibrary] (job : Job) (hdefault : job.output = none)
    (hfile : Path.fileName? job.source = some file) :
    Path.components job.outputName = [.name job.outputName] ∧ Path.IsName job.outputName ∧
      ∀ forced, Path.IsName (storedName forced job.outputName) ∧
        storedName forced job.outputName ≠ file ∧
        ∀ store : OutputDirectory,
          store.place (storedName forced job.outputName) =
              store.baseLocation ++ [storedName forced job.outputName] ∧
            FileTree.place store.tree.working job.source ≠
              store.place (storedName forced job.outputName) ∧
            ((∃ fault, (Task.redact job).run forced store = (.error fault, store)) ∨
              ∃ content, store.Writes (storedName forced job.outputName) content
                ((Task.redact job).run forced store)) ∧
            ∀ data, store.tree.read job.source = .ok data →
              ((Task.redact job).run forced store).2.tree.read job.source = .ok data := by
  have hstored : ∀ forced, Path.IsName (storedName forced job.outputName) := by
    intro forced
    obtain ⟨extension, -, hname, heq⟩ := exists_storedName_eq hdefault hfile forced
    rwa [heq]
  have hname : Path.IsName job.outputName := hstored none
  refine ⟨?_, hname, fun forced => ⟨hstored forced, storedName_ne_source hdefault hfile forced,
    fun store => ?_⟩⟩
  · rw [Path.components, (Path.endsIn_of_isName hname).located_eq]
    rfl
  have hplace : store.place (storedName forced job.outputName) =
      store.baseLocation ++ [storedName forced job.outputName] :=
    FileTree.place_join_of_isName (hstored forced) _ _
  have hapart : FileTree.place store.tree.working job.source ≠
      store.place (storedName forced job.outputName) := by
    obtain ⟨before, after, hends⟩ := Path.exists_endsIn_of_fileName? hfile
    obtain ⟨l, hsource⟩ := FileTree.exists_place_eq hends store.tree.working
    rw [hsource, hplace]
    intro heq
    -- Whatever the directories are, the last names differ.
    have hlast := List.singleton_inj.mp (List.append_inj' heq rfl).2
    exact storedName_ne_source hdefault hfile forced hlast.symm
  refine ⟨hplace, hapart, ?_⟩
  obtain ⟨fault, hrun⟩ | ⟨content, hrun⟩ := Task.run_redact_cases job forced store
  · rw [hrun]
    exact ⟨.inl ⟨fault, rfl⟩, fun data hdata => hdata⟩
  · rw [hrun]
    have hwrites := store.writes_write (storedName forced job.outputName) content
    exact ⟨.inr ⟨content, hwrites⟩, fun data hdata => hwrites.alters.read hdata hapart⟩

/-- A source whose name has the mark already and ends in a point, in the directory that the output
goes to. -/
theorem markedDot_is_spared :
    let dot := Bmp.encode (.rgb (Raster.solid 1 1 ⟨10, 20, 30⟩))
    let job : Job := ⟨"shots/redacted_dot.", [⟨0, 0, 1, 1⟩], .fill ⟨0, 0, 0, 255⟩, none,
      ⟨738000, 0, 0⟩⟩
    let store : OutputDirectory :=
      ⟨"shots", ⟨[["shots"]], [(["shots", "redacted_dot."], dot)], []⟩⟩
    let result := (Task.redact job).run (some .bmp) store
    result.1 = .ok "shots/redacted_redacted_dot.bmp" ∧
      store.place (storedName (some .bmp) job.outputName) =
        ["shots", "redacted_redacted_dot.bmp"] ∧
      result.2.tree.read job.source = .ok dot := by
  intro dot job store result
  have hfile : Path.fileName? job.source = some "redacted_dot." := by decide +kernel
  have hread : store.tree.read job.source = .ok dot := by decide +kernel
  obtain ⟨-, -, hruns⟩ := default_output_spares_source job rfl hfile
  obtain ⟨-, -, hstore⟩ := hruns (some .bmp)
  obtain ⟨hplace, -, -, hspared⟩ := hstore store
  refine ⟨by decide +kernel, hplace.trans ?_, hspared _ hread⟩
  decide +kernel

end Job

end Darkroom
