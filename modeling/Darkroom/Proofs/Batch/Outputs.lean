import Darkroom.Proofs.Batch.Run
import Mathlib.Data.List.Nodup

/-!
# Which outputs of a batch are left

An item of a batch writes at most one file, under a name that is known before it runs
(`BatchItem.target`), and leaves all other files as they are. So an output is still there in the
end, unless a later item writes to the same place. The places can be compared without running
anything.
They have to be compared as places: names that differ may lead to the same one, for a default name
keeps nothing of the source but the last part of its name, with the extension in lower case, and a
forced format replaces the extension.

## Main definitions

* `BatchItem.target`, `BatchItem.place` : the path that an item writes to, and where it leads.
* `BatchItem.Makes` : what an item puts into its file.
* `Batch.written` : the paths that are reported.

## Main results

* `BatchItem.performs_perform` : what attempting an item does.
* `BatchRequest.outputs_are_left` : the outputs of a batch whose items write to different places.
* `BatchRequest.dots_overwritten` : two images with one default name.
-/

namespace Darkroom

namespace BatchItem

/-- The name of the output of an item. -/
def outputName : BatchItem → String
  | redaction job => job.outputName
  | rendering entry => entry.output

/-- The path that an item writes to: the name of its output, with the extension of a forced format,
under the output directory. -/
def target (config : BatchConfig) (item : BatchItem) : String :=
  Path.join config.outputPath (storedName config.format item.outputName)

/-- Where the path of an item leads, with `.` and `..` resolved. -/
def place (config : BatchConfig) (working : Location) (item : BatchItem) : Location :=
  FileTree.place working (item.target config)

section Library

variable [ImageLibrary]

/-- What an item puts into its file: the redacted source, or the image that the graph makes of its
sources, in the format of the output. -/
def Makes (config : BatchConfig) (tree : FileTree) (content : ByteArray) : BatchItem → Prop
  | redaction job => ∃ data format, tree.read job.source = .ok data ∧
      HasFormat config.format job.outputName format ∧ job.redactFile data format = .ok content
  | rendering entry => ∃ text graph sources images image format,
      tree.readText entry.file = .ok text ∧ Graph.load text Registry.full = .ok graph ∧
        Task.readSources (OutputDirectory.mk config.outputPath tree) graph.imageSources =
          .ok sources ∧
        Task.decodeSources sources = .ok images ∧ graph.render images = .ok image ∧
        HasFormat config.format entry.output format ∧ (Canvas.rgb image).encode format = .ok content

/-- An answer and a tree afterwards, as of attempting an item: only the file of the item has
changed, and the answer is the path at which that can be read. -/
structure Performs (config : BatchConfig) (tree : FileTree) (item : BatchItem)
    (result : Except Fault String × FileTree) : Prop where
  alters : tree.Alters result.2 (· = item.place config tree.working)
  readable : ∀ path, result.1 = .ok path → path = item.target config ∧
    ∃ content, item.Makes config tree content ∧ result.2.read path = .ok content

variable {config : BatchConfig} {tree : FileTree} {item : BatchItem}

theorem Performs.of_fault (fault : Fault) : Performs config tree item (.error fault, tree) :=
  ⟨.refl tree _, nofun⟩

/-- The image of a task that is written is that of the item. -/
theorem makes_of_render {task : Task} {render : Render} {format : OutputFormat}
    {content : ByteArray} (htask : item.task tree = .ok task)
    (hrender : task.extract (OutputDirectory.mk config.outputPath tree) >>= task.transform =
      .ok render)
    (hformat : HasFormat config.format render.outputName format)
    (hencode : render.image.encode format = .ok content) :
    render.outputName = item.outputName ∧ item.Makes config tree content := by
  cases item with
  | redaction job =>
    obtain rfl := Except.ok.inj htask
    obtain ⟨-, data, picture, hdata, hpicture, -, rfl⟩ :=
      (Task.redact_eq_ok_iff job render).mp hrender
    have hredact := (job.redactFile_eq_ok_iff data content format).mpr ⟨picture, hpicture, hencode⟩
    exact ⟨rfl, data, format, hdata, hformat, hredact⟩
  | rendering entry =>
    obtain ⟨text, htext, htask⟩ := bind_eq_ok_iff.mp htask
    obtain ⟨graph, hgraph, htask⟩ := bind_eq_ok_iff.mp htask
    obtain rfl := Except.ok.inj htask
    obtain ⟨sources, hsources, hrender⟩ := bind_eq_ok_iff.mp hrender
    obtain ⟨images, himages, hrender⟩ := bind_eq_ok_iff.mp hrender
    obtain ⟨image, himage, hrender⟩ := bind_eq_ok_iff.mp hrender
    obtain rfl := Except.ok.inj hrender
    exact ⟨rfl, text, graph, sources, images, image, format, htext, hgraph, hsources, himages,
      Failure.ofWorker_eq_ok_iff.mp himage, hformat, hencode⟩

theorem performs_perform (config : BatchConfig) (tree : FileTree) (item : BatchItem) :
    Performs config tree item (item.perform config tree) := by
  rw [perform]
  cases htask : item.task tree with
  | error fault => exact .of_fault fault
  | ok task =>
    dsimp only
    by_cases h : ∃ render format content,
        task.extract (OutputDirectory.mk config.outputPath tree) >>= task.transform = .ok render ∧
          HasFormat config.format render.outputName format ∧
            render.image.encode format = .ok content
    · obtain ⟨render, format, content, hrender, hformat, hencode⟩ := h
      obtain ⟨hname, hmakes⟩ := makes_of_render htask hrender hformat hencode
      have hwrites := OutputDirectory.writes_write ⟨config.outputPath, tree⟩
        (storedName config.format render.outputName) content
      rw [hname] at hwrites
      rw [Task.run_of_content hrender hformat hencode, hname]
      refine ⟨hwrites.alters, fun path hpath => ?_⟩
      obtain ⟨rfl, hread⟩ := hwrites.readable path hpath
      exact ⟨rfl, content, hmakes, hread⟩
    · have hnone : ∀ render format content,
          task.extract (OutputDirectory.mk config.outputPath tree) >>= task.transform = .ok render →
            HasFormat config.format render.outputName format →
              render.image.encode format ≠ .ok content :=
        fun render format content hrender hformat hencode =>
          h ⟨render, format, content, hrender, hformat, hencode⟩
      obtain ⟨fault, hrun⟩ := Task.run_of_no_content hnone
      rw [hrun]
      exact .of_fault fault

end Library

end BatchItem

/-! ### Items in turn -/

section Items

variable [ImageLibrary] {config : BatchConfig}

/-- Items only change the files at their places. -/
theorem alters_filesLeft (config : BatchConfig) (items : List BatchItem) (tree : FileTree) :
    tree.Alters (filesLeft config items tree)
      fun l => ∃ item ∈ items, l = item.place config tree.working := by
  induction items generalizing tree with
  | nil => exact .refl tree _
  | cons item items ih =>
    have hfirst := (item.performs_perform config tree).alters
    have hrest := ih (item.perform config tree).2
    rw [hfirst.working] at hrest
    refine (hfirst.mono ?_).trans (hrest.mono ?_)
    · rintro l rfl
      exact ⟨item, List.mem_cons_self, rfl⟩
    · rintro l ⟨other, hother, rfl⟩
      exact ⟨other, List.mem_cons_of_mem item hother, rfl⟩

omit [ImageLibrary] in
theorem take_append_cons_drop {items : List BatchItem} {i : Nat} {item : BatchItem}
    (h : items[i]? = some item) : items.take i ++ item :: items.drop (i + 1) = items := by
  obtain ⟨hi, rfl⟩ := List.getElem?_eq_some_iff.mp h
  rw [← List.drop_eq_getElem_cons hi, List.take_append_drop]

/-- The files that a list of items leaves, told from one of its items on. -/
theorem filesLeft_eq {items : List BatchItem} {i : Nat} {item : BatchItem}
    (h : items[i]? = some item) (tree : FileTree) :
    filesLeft config items tree = filesLeft config (items.drop (i + 1))
      (item.perform config (filesLeft config (items.take i) tree)).2 := by
  conv_lhs => rw [← take_append_cons_drop h]
  rw [filesLeft, List.foldl_append]
  rfl

/-- The paths that are reported. -/
def Batch.written (attempts : List Attempt) : List String :=
  attempts.filterMap fun attempt => attempt.result.toOption

omit [ImageLibrary] in
/-- There is a path for each line about a success. -/
theorem Batch.length_written (attempts : List Attempt) :
    (written attempts).length = (attempts.filterMap successLine?).length := by
  induction attempts with
  | nil => rfl
  | cons attempt attempts ih =>
    obtain ⟨label, result⟩ := attempt
    cases result with
    | ok path => exact congrArg (· + 1) ih
    | error fault => exact ih

/-- The reported paths are those of some of the items, in order. -/
theorem written_sublist (items : List BatchItem) (tree : FileTree) :
    (Batch.written (attemptAll config items tree).1).Sublist
      (items.map (BatchItem.target config)) := by
  induction items generalizing tree with
  | nil => exact .slnil
  | cons item items ih =>
    have hitem := (item.performs_perform config tree).readable
    have hrest := ih (item.perform config tree).2
    rw [attemptAll_cons, Batch.written, List.filterMap_cons, List.map_cons]
    cases hresult : (item.attempt config tree).result with
    | error fault => exact hrest.cons _
    | ok path =>
      obtain rfl := (hitem path hresult).1
      exact hrest.cons_cons _

/-- Where all items write to different places, the reported paths are different. -/
theorem nodup_written {items : List BatchItem} {tree : FileTree}
    (h : (items.map (BatchItem.place config tree.working)).Nodup) :
    (Batch.written (attemptAll config items tree).1).Nodup := by
  have hplaces : items.map (BatchItem.place config tree.working) =
      (items.map (BatchItem.target config)).map (FileTree.place tree.working) := by
    rw [List.map_map]
    rfl
  rw [hplaces] at h
  exact (List.Nodup.of_map _ h).sublist (written_sublist items tree)

/-- Where all items write to different places, the output of each item is left in the end. -/
theorem read_filesLeft {items : List BatchItem} {tree : FileTree}
    (h : (items.map (BatchItem.place config tree.working)).Nodup) {i : Nat} {item : BatchItem}
    (hitem : items[i]? = some item) {path : String}
    (hpath : (item.perform config (filesLeft config (items.take i) tree)).1 = .ok path) :
    ∃ content, item.Makes config (filesLeft config (items.take i) tree) content ∧
      (filesLeft config items tree).read path = .ok content := by
  have hbefore := alters_filesLeft config (items.take i) tree
  have hperforms := item.performs_perform config (filesLeft config (items.take i) tree)
  obtain ⟨rfl, content, hmakes, hread⟩ := hperforms.readable path hpath
  refine ⟨content, hmakes, ?_⟩
  rw [filesLeft_eq hitem]
  refine (alters_filesLeft config (items.drop (i + 1)) _).read hread ?_
  rw [hperforms.alters.working, hbefore.working]
  rintro ⟨later, hlater, hsame⟩
  rw [← take_append_cons_drop hitem, List.map_append, List.map_cons] at h
  have hfirst := (List.nodup_cons.mp h.of_append_right).1
  exact hfirst (List.mem_map.mpr ⟨later, hlater, hsame.symm⟩)

end Items

namespace BatchRequest

variable {request : BatchRequest} {env : Text.Environment} {now : Instant} {tree : FileTree}
  {config : BatchConfig} {jobs : List Job}

/-- **Outputs at different places are left.** Where the outputs of all items of a batch lie at
different places, the reported paths are different, and at every reported path there is in the end
what its item puts there: the image that the item makes of the files that those before it leave. -/
theorem outputs_are_left [ImageLibrary] (h : request.GoesAhead env now tree config jobs)
    (hplaces : ((Batch.items config jobs).map (BatchItem.place config tree.working)).Nodup) :
    let items := Batch.items config jobs
    let outcome := request.run env now tree
    ∃ attempts : List Attempt,
      outcome.output = Batch.summary config jobs false ++ attempts.filterMap Batch.successLine? ++
        [s!"📁 {(Batch.written attempts).length} output(s) written to {config.outputPath}"] ∧
      (Batch.written attempts).Nodup ∧
      attempts.length = items.length ∧
      (∀ (i : Nat) (item : BatchItem), items[i]? = some item →
        attempts[i]? = some (item.attempt config (filesLeft config (items.take i) tree))) ∧
      ∀ (i : Nat) (attempt : Attempt) (path : String), attempts[i]? = some attempt →
        attempt.result = .ok path → ∃ item content, items[i]? = some item ∧
          attempt.label = item.label ∧
          item.Makes config (filesLeft config (items.take i) tree) content ∧
          outcome.tree.read path = .ok content := by
  intro items outcome
  have houtcome : outcome = Batch.run config jobs tree := h.run_eq
  have htree : outcome.tree = filesLeft config items tree := by
    rw [houtcome]
    exact snd_attemptAll config items tree
  refine ⟨(attemptAll config items tree).1, ?_, nodup_written hplaces,
    length_attemptAll config items tree, fun i item hitem => ?_,
    fun i attempt path hattempt hpath => ?_⟩
  · rw [houtcome, Batch.length_written]
    rfl
  · rw [getElem?_attemptAll, hitem, Option.map_some]
  · rw [getElem?_attemptAll, Option.map_eq_some_iff] at hattempt
    obtain ⟨item, hitem, rfl⟩ := hattempt
    obtain ⟨content, hmakes, hread⟩ := read_filesLeft hplaces hitem hpath
    rw [← htree] at hread
    exact ⟨item, content, hitem, rfl, hmakes, hread⟩

/-! ### Two images of one name -/

/-- A file with a single pixel. -/
def dotFile (level : UInt8) : ByteArray := Bmp.encode (.rgb (Raster.solid 1 1 ⟨level, 0, 0⟩))

/-- A batch file about two images of one name in two directories, with a line about the second. -/
def dotsText (line : String) : String :=
  "batch.name='dots'\noutput.path='out'\n" ++
    "[[jobs]]\nsource='a/dot.bmp'\n[[jobs]]\nsource='b/dot.bmp'\n" ++ line

/-- The batch file beside the two directories. -/
def dotsTree (line : String) : FileTree :=
  ⟨[["a"], ["b"]], [(["dots.toml"], (dotsText line).toUTF8), (["a", "dot.bmp"], dotFile 1),
    (["b", "dot.bmp"], dotFile 2)], []⟩

/-- The contents of the batch file. -/
def dotsConfig (output : Option String) : BatchConfig where
  name := "dots"
  description := none
  version := none
  outputPath := "out"
  format := none
  defaults := none
  jobs := [⟨none, some "a/dot.bmp", [], none, none, none, none, none⟩,
    ⟨none, some "b/dot.bmp", [], none, none, none, none, output⟩]
  graphs := []
  monitoring := none

/-- The jobs of the batch. -/
def dotsJobs (output : Option String) : List Job :=
  [plainJob "a/dot.bmp", { plainJob "b/dot.bmp" with output }]

/-- The request for the batch. -/
def dots : BatchRequest := ⟨"dots.toml", false, none, false, false⟩

theorem dots_goesAhead : dots.GoesAhead (fun _ => none) ⟨738000, 0, 0⟩ (dotsTree "")
    (dotsConfig none) (dotsJobs none) where
  loads := by decide +kernel
  accepted := by rfl
  resolves := by rfl
  real := rfl

theorem dots_apart_goesAhead : dots.GoesAhead (fun _ => none) ⟨738000, 0, 0⟩
    (dotsTree "output='other.bmp'") (dotsConfig (some "other.bmp"))
    (dotsJobs (some "other.bmp")) where
  loads := by decide +kernel
  accepted := by rfl
  resolves := by rfl
  real := rfl

/-- An explicit output keeps the two images apart: both are there in the end. -/
theorem dots_apart_are_left :
    let tree := dotsTree "output='other.bmp'"
    let config := dotsConfig (some "other.bmp")
    let jobs := dotsJobs (some "other.bmp")
    let first := BatchItem.redaction (plainJob "a/dot.bmp")
    let second := BatchItem.redaction { plainJob "b/dot.bmp" with output := some "other.bmp" }
    let outcome := dots.run (fun _ => none) ⟨738000, 0, 0⟩ tree
    dots.GoesAhead (fun _ => none) ⟨738000, 0, 0⟩ tree config jobs ∧
    ((Batch.items config jobs).map (BatchItem.place config tree.working)).Nodup ∧
    (∃ content, first.Makes config tree content ∧
      outcome.tree.read "out/redacted_dot.bmp" = .ok content) ∧
    ∃ content, second.Makes config (filesLeft config [first] tree) content ∧
      outcome.tree.read "out/other.bmp" = .ok content := by
  intro tree config jobs first second outcome
  have hplaces : ((Batch.items config jobs).map (BatchItem.place config tree.working)).Nodup := by
    decide +kernel
  have hfirst : (first.attempt config tree).result = .ok "out/redacted_dot.bmp" := by
    decide +kernel
  have hsecond : (second.attempt config (filesLeft config [first] tree)).result =
      .ok "out/other.bmp" := by
    decide +kernel
  obtain ⟨attempts, -, -, -, hattempts, hleft⟩ := outputs_are_left dots_apart_goesAhead hplaces
  have hzero : attempts[0]? = some (first.attempt config tree) := hattempts 0 first rfl
  have hone : attempts[1]? = some (second.attempt config (filesLeft config [first] tree)) :=
    hattempts 1 second rfl
  obtain ⟨item, content, hitem, -, hmakes, hread⟩ := hleft 0 _ "out/redacted_dot.bmp" hzero hfirst
  obtain ⟨other, more, hother, -, hmore, hreadOther⟩ := hleft 1 _ "out/other.bmp" hone hsecond
  obtain rfl : first = item := Option.some.inj hitem
  obtain rfl : second = other := Option.some.inj hother
  exact ⟨dots_apart_goesAhead, hplaces, ⟨content, hmakes, hread⟩, more, hmore, hreadOther⟩

/-- Without it both images get the same default name. The sources differ, and there are no explicit
outputs; yet one path is reported twice, and what is there in the end is not the first image. -/
theorem dots_overwritten :
    let jobs := dotsJobs none
    let outcome := dots.run (fun _ => none) ⟨738000, 0, 0⟩ (dotsTree "")
    dots.GoesAhead (fun _ => none) ⟨738000, 0, 0⟩ (dotsTree "") (dotsConfig none) jobs ∧
    (jobs.map Job.source).Nodup ∧
    (jobs.filterMap Job.output ++ (dotsConfig none).graphs.map GraphEntry.output).Nodup ∧
    outcome.output = Batch.summary (dotsConfig none) jobs false ++
      ["✅ a/dot.bmp -> out/redacted_dot.bmp", "✅ b/dot.bmp -> out/redacted_dot.bmp",
        "📁 2 output(s) written to out"] ∧
    ∃ content, (BatchItem.redaction (plainJob "a/dot.bmp")).Makes (dotsConfig none) (dotsTree "")
        content ∧ outcome.tree.read "out/redacted_dot.bmp" ≠ .ok content := by
  intro jobs outcome
  have houtcome : outcome = Batch.run (dotsConfig none) jobs (dotsTree "") := dots_goesAhead.run_eq
  have hmade : ((plainJob "a/dot.bmp").redactFile (dotFile 1) .bmp).isOk := by decide +kernel
  obtain ⟨content, hcontent⟩ := exists_of_isOk hmade
  have hlost : (Batch.run (dotsConfig none) jobs (dotsTree "")).tree.read "out/redacted_dot.bmp" ≠
      (plainJob "a/dot.bmp").redactFile (dotFile 1) .bmp := by decide +kernel
  refine ⟨dots_goesAhead, by decide, by decide, ?_, content,
    ⟨dotFile 1, .bmp, by rfl, .inr ⟨rfl, by rfl⟩, hcontent⟩, ?_⟩
  · rw [houtcome]
    decide +kernel
  · rw [houtcome, ← hcontent]
    exact hlost

end BatchRequest

end Darkroom
