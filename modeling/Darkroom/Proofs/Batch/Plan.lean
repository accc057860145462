import Darkroom.Batch.Plan
import Darkroom.Proofs.Fault
import Mathlib.Tactic.Common

/-!
# Checked batches

The checks of a batch and the code that later works through it are written apart from each other.
They agree: what the checks accept is never refused later for a reason that the checks were there
to exclude. An extension is accepted exactly when a format can be chosen by it, although one is
looked up in a list and the other matched case by case. The defaults are tried once for each kind
of mode, and an entry without parameters of its own uses the default of one kind only. An entry
that names exactly one of a file and an image is resolved by one of the two branches that ask for
it, and no fault of these branches blames the batch file.

## Main definitions

* `Fault.BlamesBatch` : the two faults that the checks of a batch are there to exclude.
* `JobEntry.Checked`, `GraphEntry.Checked` : what the checks of an entry say.

## Main results

* `OutputFormat.extension_eq_ok_iff_ofPath` : accepted extensions name a format.
* `BatchConfig.validate_eq_ok_iff` : what the checks of a batch say.
* `JobEntry.sparesBatch_resolve` : a checked entry is resolved without blaming the batch.
* `BatchConfig.checked_batch_is_usable` : the checks are sound for everything after them.
-/

namespace Darkroom

variable {α β : Type}

/-! ### Extensions -/

namespace Check

theorem extension_eq_ok_iff (field : String) (allowed : List String) (file : String) :
    extension field allowed file = .ok () ↔
      ∃ found, Path.extension? file = some found ∧ Text.toLower found ∈ allowed := by
  cases hfound : Path.extension? file with
  | none => simp [extension, hfound]
  | some found =>
    by_cases hallowed : Text.toLower found ∈ allowed
    · simp [extension, hfound, hallowed]
    · simp [extension, hfound, hallowed]

theorem extensions_eq_ok_iff (field : String) (allowed files : List String) :
    extensions field allowed files = .ok () ↔
      ∀ file ∈ files, extension field allowed file = .ok () := by
  induction files with
  | nil => simp [extensions]
  | cons file files ih => rw [extensions, check_bind_eq_ok_iff, List.forall_mem_cons, ih]

end Check

namespace OutputFormat

/-- The cases of `ofExtension` are the entries of `extensions`. -/
theorem exists_ofExtension_iff (found : String) :
    (∃ format, ofExtension found = .ok format) ↔ Text.toLower found ∈ extensions := by
  simp only [extensions, List.mem_cons, List.not_mem_nil, or_false]
  dsimp only [ofExtension]
  split_ifs with hpng hjpeg hbmp
  · exact ⟨fun _ => .inl hpng, fun _ => ⟨png, rfl⟩⟩
  · refine ⟨fun _ => .inr ?_, fun _ => ⟨jpeg, rfl⟩⟩
    rw [← or_assoc]
    exact .inl hjpeg
  · exact ⟨fun _ => .inr (.inr (.inr hbmp)), fun _ => ⟨bmp, rfl⟩⟩
  · constructor
    · rintro ⟨format, h⟩
      exact nomatch h
    · rintro (h | h | h | h)
      · exact absurd h hpng
      · exact absurd (.inl h) hjpeg
      · exact absurd (.inr h) hjpeg
      · exact absurd h hbmp

theorem exists_ofPath_iff (path : String) :
    (∃ format, ofPath path = .ok format) ↔
      ∃ found, Path.extension? path = some found ∧ Text.toLower found ∈ extensions := by
  cases hfound : Path.extension? path with
  | none => simp [ofPath, hfound]
  | some found =>
    have hof : ofPath path = ofExtension found := by rw [ofPath, hfound]
    rw [hof, exists_ofExtension_iff]
    simp

/-- The extension of a path is accepted exactly when it names a format. -/
theorem extension_eq_ok_iff_ofPath (field path : String) :
    Check.extension field extensions path = .ok () ↔ ∃ format, ofPath path = .ok format := by
  rw [Check.extension_eq_ok_iff, exists_ofPath_iff]

end OutputFormat

/-! ### What the checks say -/

/-- An entry names exactly one of a file and an image, and the output that it names has a format. -/
structure JobEntry.Checked (entry : JobEntry) : Prop where
  one : entry.file.isSome ≠ entry.source.isSome
  output : ∀ output, entry.output = some output → ∃ format, OutputFormat.ofPath output = .ok format

theorem JobEntry.validate_eq_ok_iff (index : Nat) (entry : JobEntry) :
    entry.validate index = .ok () ↔ entry.Checked := by
  by_cases hone : entry.file.isSome = entry.source.isSome
  · rw [JobEntry.validate, if_pos hone]
    exact ⟨fun h => by simp at h, fun h => absurd hone h.one⟩
  · rw [JobEntry.validate, if_neg hone, ok_bind]
    cases houtput : entry.output with
    | none => exact ⟨fun _ => ⟨hone, by simp [houtput]⟩, fun _ => rfl⟩
    | some output =>
      dsimp only
      rw [OutputFormat.extension_eq_ok_iff_ofPath]
      constructor
      · intro hformat
        refine ⟨hone, fun other hother => ?_⟩
        rwa [← Option.some.inj (houtput.symm.trans hother)]
      · exact fun h => h.output output houtput

/-- A graph entry names a graph file, and its output has a format. -/
structure GraphEntry.Checked (entry : GraphEntry) : Prop where
  file : ∃ found, Path.extension? entry.file = some found ∧ Text.toLower found = graphExtension
  output : ∃ format, OutputFormat.ofPath entry.output = .ok format

theorem GraphEntry.validate_eq_ok_iff (index : Nat) (entry : GraphEntry) :
    entry.validate index = .ok () ↔ entry.Checked := by
  rw [GraphEntry.validate, check_bind_eq_ok_iff, OutputFormat.extension_eq_ok_iff_ofPath,
    Check.extension_eq_ok_iff]
  simp only [List.mem_singleton]
  constructor
  · rintro ⟨hfile, houtput⟩
    exact ⟨hfile, houtput⟩
  · rintro ⟨hfile, houtput⟩
    exact ⟨hfile, houtput⟩

namespace BatchConfig

theorem validateJobs_eq_ok_iff (index : Nat) (entries : List JobEntry) :
    validateJobs index entries = .ok () ↔ ∀ entry ∈ entries, entry.Checked := by
  induction entries generalizing index with
  | nil => simp [validateJobs]
  | cons entry entries ih =>
    rw [validateJobs, check_bind_eq_ok_iff, List.forall_mem_cons, JobEntry.validate_eq_ok_iff, ih]

theorem validateGraphs_eq_ok_iff (index : Nat) (entries : List GraphEntry) :
    validateGraphs index entries = .ok () ↔ ∀ entry ∈ entries, entry.Checked := by
  induction entries generalizing index with
  | nil => simp [validateGraphs]
  | cons entry entries ih =>
    rw [validateGraphs, check_bind_eq_ok_iff, List.forall_mem_cons,
      GraphEntry.validate_eq_ok_iff, ih]

/-- A batch that is accepted has a name, a place for its outputs, something to do, defaults that
each suit the mode that they are for, and checked entries. -/
theorem validate_eq_ok_iff (config : BatchConfig) :
    config.validate = .ok () ↔
      Check.nonBlank "batch.name" config.name = .ok () ∧
        Check.path "output.path" config.outputPath = .ok () ∧
        ¬ (config.jobs.isEmpty ∧ config.graphs.isEmpty) ∧
        (∀ defaults, config.defaults = some defaults → defaults.validate = .ok ()) ∧
        (∀ entry ∈ config.jobs, entry.Checked) ∧ ∀ entry ∈ config.graphs, entry.Checked := by
  rw [validate, check_bind_eq_ok_iff, check_bind_eq_ok_iff, ← validateJobs_eq_ok_iff 0,
    ← validateGraphs_eq_ok_iff 0]
  dsimp only
  by_cases hwork : config.jobs.isEmpty ∧ config.graphs.isEmpty
  · simp only [if_pos hwork, error_bind]
    simp [hwork]
  · rw [if_neg hwork, ok_bind]
    cases hdefaults : config.defaults with
    | none =>
      simp only [ok_bind, check_bind_eq_ok_iff, hwork, not_false_eq_true, true_and, reduceCtorEq,
        false_implies, implies_true]
    | some defaults =>
      simp only [check_bind_eq_ok_iff, hwork, not_false_eq_true, true_and, Option.some.injEq,
        forall_eq']

end BatchConfig

/-! ### Faults that do not blame the batch file -/

/-- The faults that blame a batch file as a whole: a setting that it lacks, or one that its checks
refuse. -/
def Fault.BlamesBatch : Fault → Prop
  | .missingSetting _ | .rejectedConfiguration _ _ => True
  | _ => False

/-- A computation that never blames the batch file. -/
def SparesBatch (x : Except Fault α) : Prop := ∀ fault, x = .error fault → ¬ fault.BlamesBatch

namespace SparesBatch

theorem ok (a : α) : SparesBatch (.ok a) := by
  intro fault h
  cases h

theorem error {fault : Fault} (h : ¬ fault.BlamesBatch) :
    SparesBatch (.error fault : Except Fault α) := by
  intro other hother
  cases hother
  exact h

theorem bind {x : Except Fault α} {f : α → Except Fault β} (hx : SparesBatch x)
    (hf : ∀ a, SparesBatch (f a)) : SparesBatch (x >>= f) := by
  cases x with
  | ok a => exact hf a
  | error fault => exact error (hx fault rfl)

theorem map {x : Except Fault α} (hx : SparesBatch x) (f : α → β) : SparesBatch (x.map f) := by
  cases x with
  | ok a => exact ok (f a)
  | error fault => exact error (hx fault rfl)

end SparesBatch

namespace Check

theorem sparesBatch_path (field value : String) : SparesBatch (path field value) := by
  rw [path]
  split_ifs
  · exact .error id
  · exact .error id
  · exact .ok ()

theorem sparesBatch_atLeast (field : String) (value least : Nat) :
    SparesBatch (atLeast field value least) := by
  rw [atLeast]
  split_ifs
  · exact .error id
  · exact .ok ()

theorem sparesBatch_singleWithin (field : String) (value low high : Float32) :
    SparesBatch (singleWithin field value low high) := by
  rw [singleWithin]
  split_ifs
  · exact .ok ()
  · exact .error id

end Check

theorem Color.sparesBatch_read (text : String) : SparesBatch (Color.read text) := by
  have hinvalid (reason : String) :
      SparesBatch (.error (Color.invalid text reason) : Except Fault Rgba) := .error fun h => h
  dsimp only [Color.read]
  split_ifs
  · split
    · exact .ok _
    · exact .ok _
    · exact hinvalid _
  · exact hinvalid _

theorem Mode.sparesBatch_validate (mode : Mode) : SparesBatch mode.validate := by
  cases mode with
  | fill color => exact .ok ()
  | pixelate blockSize => exact Check.sparesBatch_atLeast _ _ _
  | blur sigma =>
    rw [Mode.validate]
    split_ifs
    · exact .error id
    · exact Check.sparesBatch_singleWithin _ _ _ _

theorem ModeKind.sparesBatch_build (kind : ModeKind) (blockSize : Option UInt32)
    (sigma : Option Float32) (color : Option String) :
    SparesBatch (kind.build blockSize sigma color) := by
  have hchecked (mode : Mode) : SparesBatch (do mode.validate; return mode) :=
    mode.sparesBatch_validate.bind fun _ => .ok mode
  cases kind with
  | pixelate => exact hchecked _
  | blur => exact hchecked _
  | fill =>
    cases color with
    | none => exact hchecked (.fill Mode.defaultColor)
    | some text => exact ((Color.sparesBatch_read text).map Mode.fill).bind hchecked

namespace Job

theorem sparesBatch_checkRegions (index : Nat) (regions : List Region) :
    SparesBatch (checkRegions index regions) := by
  induction regions generalizing index with
  | nil => exact .ok ()
  | cons r rs ih =>
    refine .bind ?_ fun _ => ih (index + 1)
    rw [Region.checkArea]
    split_ifs
    · exact .error id
    · exact .ok ()

theorem sparesBatch_validate (job : Job) : SparesBatch job.validate := by
  refine .bind (Check.sparesBatch_path _ _) fun _ => ?_
  refine .bind (sparesBatch_checkRegions _ _) fun _ => ?_
  cases job.output with
  | none => exact job.mode.sparesBatch_validate
  | some output =>
    exact .bind (Check.sparesBatch_path _ _) fun _ => job.mode.sparesBatch_validate

theorem sparesBatch_decode (text : String) : SparesBatch (decode text) := by
  refine .bind ?_ fun job => job.sparesBatch_validate.bind fun _ => .ok job
  rw [parse]
  cases Json.readWhole readJob text with
  | ok job => exact .ok job
  | error problem => exact .error id

end Job

namespace FileTree

theorem sparesBatch_read (tree : FileTree) (path : String) : SparesBatch (tree.read path) := by
  rw [read]
  split
  · exact .ok _
  · exact .error id
  · exact .error id
  · exact .error id

theorem sparesBatch_readText (tree : FileTree) (path : String) :
    SparesBatch (tree.readText path) := by
  refine (tree.sparesBatch_read path).bind fun data => ?_
  cases String.fromUTF8? data with
  | some text => exact .ok text
  | none => exact .error id

end FileTree

/-! ### Checked batches are usable -/

namespace ModeKind

/-- A kind only looks at its own parameter. -/
theorem build_eq_own (kind : ModeKind) (blockSize : Option UInt32) (sigma : Option Float32)
    (color : Option String) :
    kind.build blockSize sigma color =
      match kind with
      | pixelate => build .pixelate blockSize none none
      | blur => build .blur none sigma none
      | fill => build .fill none none color := by
  cases kind <;> rfl

/-- What is built where no parameter is given. -/
theorem build_none (kind : ModeKind) : ∃ mode, kind.build none none none = .ok mode := by
  cases kind with
  | fill => exact ⟨.fill Mode.defaultColor, rfl⟩
  | pixelate => exact ⟨.pixelate Mode.defaultBlockSize, rfl⟩
  | blur => exact ⟨.blur Mode.defaultSigma, rfl⟩

end ModeKind

/-- Defaults that were accepted suit every kind of mode. -/
theorem RedactionDefaults.build_of_validate {defaults : RedactionDefaults}
    (h : defaults.validate = .ok ()) (kind : ModeKind) :
    ∃ mode, kind.build defaults.blockSize defaults.sigma defaults.color = .ok mode := by
  simp only [RedactionDefaults.validate, bind_eq_ok_iff] at h
  obtain ⟨pixelated, hpixelate, blurred, hblur, filled, hfill, -⟩ := h
  rw [ModeKind.build_eq_own]
  cases kind with
  | fill => exact ⟨filled, hfill⟩
  | pixelate => exact ⟨pixelated, hpixelate⟩
  | blur => exact ⟨blurred, hblur⟩

namespace JobEntry

theorem mode_of_defaults {defaults : Option RedactionDefaults}
    (hdefaults : ∀ d, defaults = some d → d.validate = .ok ()) {entry : JobEntry}
    (hblockSize : entry.blockSize = none) (hsigma : entry.sigma = none)
    (hcolor : entry.color = none) : ∃ mode, entry.mode defaults = .ok mode := by
  rw [mode, hblockSize, hsigma, hcolor]
  cases defaults with
  | none => exact ModeKind.build_none _
  | some d => exact RedactionDefaults.build_of_validate (hdefaults d rfl) _

/-- A checked entry takes one of the two branches that read a file or use an image. -/
theorem sparesBatch_draft {entry : JobEntry} (h : entry.Checked)
    (defaults : Option RedactionDefaults) (tree : FileTree) (now : Instant) (index : Nat) :
    SparesBatch (entry.draft defaults tree now index) := by
  have hone := h.one
  rw [draft]
  cases hfile : entry.file with
  | none =>
    cases hsource : entry.source with
    | none => simp [hfile, hsource] at hone
    | some source => exact (ModeKind.sparesBatch_build _ _ _ _).bind fun _ => .ok _
  | some file =>
    cases hsource : entry.source with
    | none => exact (tree.sparesBatch_readText file).bind Job.sparesBatch_decode
    | some source => simp [hfile, hsource] at hone

theorem sparesBatch_resolve {entry : JobEntry} (h : entry.Checked)
    (defaults : Option RedactionDefaults) (tree : FileTree) (now : Instant) (index : Nat) :
    SparesBatch (entry.resolve defaults tree now index) :=
  (sparesBatch_draft h defaults tree now index).bind fun _ =>
    (Job.sparesBatch_validate _).bind fun _ => .ok _

end JobEntry

namespace BatchConfig

theorem sparesBatch_resolveJobs (defaults : Option RedactionDefaults) (tree : FileTree)
    (now : Instant) {entries : List JobEntry} (h : ∀ entry ∈ entries, entry.Checked) (index : Nat) :
    SparesBatch (resolveJobs defaults tree now index entries) := by
  induction entries generalizing index with
  | nil => exact .ok []
  | cons entry entries ih =>
    obtain ⟨hentry, hentries⟩ := List.forall_mem_cons.mp h
    refine (JobEntry.sparesBatch_resolve hentry defaults tree now index).bind fun _ => ?_
    exact (ih hentries (index + 1)).bind fun _ => .ok _

/-- The checks of a batch are sound for everything that comes after them. The extensions that they
accept, of any text, are those that name a format. Once a batch is accepted, resolving its jobs on
any files blames the batch no more; the defaults make a mode for each entry with an image and no
parameters of its own; and every output that is named has a format. -/
theorem checked_batch_is_usable :
    (∀ (field : String) (files : List String),
      Check.extensions field OutputFormat.extensions files = .ok () ↔
        ∀ file ∈ files, ∃ format, OutputFormat.ofPath file = .ok format) ∧
    ∀ config : BatchConfig, config.validate = .ok () →
      (∀ (tree : FileTree) (now : Instant) (fault : Fault),
        config.resolve tree now = .error fault →
          (∀ field, fault ≠ .missingSetting field) ∧
            ∀ field message, fault ≠ .rejectedConfiguration field message) ∧
      (∀ entry ∈ config.jobs, entry.source.isSome → entry.blockSize = none → entry.sigma = none →
        entry.color = none → ∃ mode, entry.mode config.defaults = .ok mode) ∧
      (∀ entry ∈ config.jobs, ∀ output, entry.output = some output →
        ∃ format, OutputFormat.ofPath output = .ok format) ∧
      ∀ entry ∈ config.graphs, ∃ format, OutputFormat.ofPath entry.output = .ok format := by
  constructor
  · intro field files
    rw [Check.extensions_eq_ok_iff]
    simp only [OutputFormat.extension_eq_ok_iff_ofPath]
  · intro config hvalid
    obtain ⟨-, -, -, hdefaults, hjobs, hgraphs⟩ := config.validate_eq_ok_iff.mp hvalid
    refine ⟨fun tree now fault hfault => ?_, fun entry _ _ hblockSize hsigma hcolor => ?_,
      fun entry hentry output houtput => ?_, fun entry hentry => ?_⟩
    · have hspared := sparesBatch_resolveJobs config.defaults tree now hjobs 0 fault hfault
      constructor
      · rintro field rfl
        exact hspared trivial
      · rintro field message rfl
        exact hspared trivial
    · exact JobEntry.mode_of_defaults hdefaults hblockSize hsigma hcolor
    · exact (hjobs entry hentry).output output houtput
    · exact (hgraphs entry hentry).output

/-- A batch with a saved job, an image that is blurred by the default width, and outputs that are
hidden, have several points, or whose extensions are written in capitals. -/
def oddOutputs : BatchConfig where
  name := " press kit"
  description := none
  version := none
  outputPath := "out"
  format := none
  defaults := some ⟨some 16, some 2.5, some " #ff000080"⟩
  jobs := [⟨some "saved.json", none, [], none, none, none, none, some "dir/.team.JPG"⟩,
    ⟨none, some "team", [⟨3, 4, 10, 20⟩], some .blur, none, none, none, none⟩]
  graphs := [⟨"flows/sepia.v2.Ns", "\u00fcbersicht..PnG"⟩]
  monitoring := none

theorem oddOutputs_are_usable :
    oddOutputs.validate = .ok () ∧
      (∀ tree now field, oddOutputs.resolve tree now ≠ .error (.missingSetting field)) ∧
      (∀ entry ∈ oddOutputs.jobs, entry.source.isSome → ∃ mode,
        entry.mode oddOutputs.defaults = .ok mode) ∧
      (∃ format, OutputFormat.ofPath "dir/.team.JPG" = .ok format) ∧
      ∃ format, OutputFormat.ofPath "\u00fcbersicht..PnG" = .ok format := by
  have hvalid : oddOutputs.validate = .ok () := by rfl
  obtain ⟨hresolve, hmode, hjobs, hgraphs⟩ := checked_batch_is_usable.2 oddOutputs hvalid
  refine ⟨hvalid, fun tree now field h => (hresolve tree now _ h).1 field rfl,
    fun entry hentry hsource => ?_, ?_, ?_⟩
  · have hnone : entry.blockSize = none ∧ entry.sigma = none ∧ entry.color = none := by
      simp only [oddOutputs, List.mem_cons, List.not_mem_nil, or_false] at hentry
      rcases hentry with rfl | rfl <;> simp
    exact hmode entry hentry hsource hnone.1 hnone.2.1 hnone.2.2
  · exact hjobs _ (List.mem_cons_self ..) "dir/.team.JPG" rfl
  · exact hgraphs _ (List.mem_cons_self ..)

end BatchConfig

end Darkroom
