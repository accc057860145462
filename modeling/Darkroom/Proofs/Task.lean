import Darkroom.Codec.Library
import Darkroom.Task
import Darkroom.Proofs.Fault
import Darkroom.Proofs.FileTree
import Mathlib.Tactic.Common

/-!
# A run writes one file or none

A run reads all of its sources, makes one image of them and writes it once, as its last step. So it
either answers the name of the one file that it wrote, or it fails and the files are as before.
Which of the two is said here without reference to the steps: what a redaction puts into its file is
what `Job.redactFile` makes of the source, and what a rendering puts there is the encoding of the
rendered image.

A valid job is not enough for a redaction. The image library need not return from a blur, and then
the work fails. The library in use does not where the width of a blur is above zero and too small
for a normal number.

## Main definitions

* `HasFormat`, `storedName` : the format and the name of an output.
* `Job.RedactsTo`, `Job.IsWorkableOn`, `Graph.RendersTo` : what the file of a run holds.
* `WritesExactly` : a run that writes what it should, or nothing.

## Main results

* `Render.store_of_content`, `Render.store_of_no_content` : what storing an image comes to.
* `Task.run_of_content`, `Task.run_of_no_content` : what is left of a run once its image is known.
* `Task.writes_one_file_or_none` : redactions and renderings on files by name.
-/

namespace Darkroom

/-! ### Files by name -/

namespace FileMap

theorem read_eq_ok_iff (files : FileMap) (name : String) (data : ByteArray) :
    Storage.read files name = .ok data ↔ files.lookup name = some data := by
  show FileMap.read files name = .ok data ↔ _
  rw [FileMap.read]
  cases files.lookup name with
  | none => simp
  | some found => simp

theorem lookup_put (files : FileMap) (name other : String) (data : ByteArray) :
    (files.put name data).lookup other =
      if other = name then some data else files.lookup other :=
  lookup_replaced files name other data

section Pictures

variable [ImageLibrary]

/-- A name whose file holds a picture. -/
def Holds (files : FileMap) (name : String) (picture : Picture) : Prop :=
  ∃ data, files.lookup name = some data ∧ Picture.ofFile name data = .ok picture

/-- The picture in the file of a name. -/
def picture? (files : FileMap) (name : String) : Option Picture :=
  (files.lookup name).bind fun data => (Picture.ofFile name data).toOption

theorem picture?_eq_some_iff (files : FileMap) (name : String) (picture : Picture) :
    files.picture? name = some picture ↔ files.Holds name picture := by
  rw [picture?, Holds]
  cases files.lookup name with
  | none => simp
  | some data =>
    cases hfile : Picture.ofFile name data with
    | ok found => simp [hfile, Except.toOption]
    | error fault => simp [hfile, Except.toOption]

end Pictures

end FileMap

/-! ### Outputs -/

/-- The format that an output gets: the one that is forced, or else the one that its name asks
for. -/
def HasFormat (forced : Option OutputFormat) (name : String) (format : OutputFormat) : Prop :=
  forced = some format ∨ forced = none ∧ OutputFormat.ofPath name = .ok format

/-- The name that an output is stored under: a forced format replaces the extension. -/
def storedName (forced : Option OutputFormat) (name : String) : String :=
  match forced with
  | some format => Path.withExtension name format.extension
  | none => name

theorem outputTarget_eq_ok_iff (forced : Option OutputFormat) (name written : String)
    (format : OutputFormat) :
    outputTarget forced name = .ok (format, written) ↔
      HasFormat forced name format ∧ written = storedName forced name := by
  cases forced with
  | some asked =>
    simp only [outputTarget, HasFormat, storedName, Except.ok.injEq, Prod.mk.injEq,
      Option.some.injEq, reduceCtorEq, false_and, or_false]
    constructor
    · rintro ⟨rfl, rfl⟩
      exact ⟨rfl, rfl⟩
    · rintro ⟨rfl, rfl⟩
      exact ⟨rfl, rfl⟩
  | none =>
    simp only [outputTarget, HasFormat, storedName, reduceCtorEq, true_and, false_or]
    cases OutputFormat.ofPath name with
    | ok found => simp [eq_comm]
    | error fault => simp [Except.map]

/-- A run on files that writes under a name what a predicate says, where anything satisfies it, and
else fails and changes nothing. -/
structure WritesExactly (run : Except Fault String × FileMap) (before : FileMap) (name : String)
    (Content : ByteArray → Prop) : Prop where
  answer : ∀ written, run.1 = .ok written ↔ written = name ∧ ∃ content, Content content
  content : ∀ content, Content content → run.2.lookup name = some content
  others : ∀ other, other ≠ name → run.2.lookup other = before.lookup other
  unchanged : ∀ fault, run.1 = .error fault → run.2 = before

namespace WritesExactly

variable {run : Except Fault String × FileMap} {before : FileMap} {name : String}
  {Content : ByteArray → Prop}

theorem of_put {content : ByteArray} (hrun : run = (.ok name, before.put name content))
    (hcontent : Content content) (honly : ∀ other, Content other → other = content) :
    WritesExactly run before name Content where
  answer written := by
    rw [hrun]
    constructor
    · exact fun hwritten => ⟨(Except.ok.inj hwritten).symm, content, hcontent⟩
    · rintro ⟨rfl, -⟩
      rfl
  content other hother := by
    rw [hrun, FileMap.lookup_put, if_pos rfl, honly other hother]
  others other hother := by
    rw [hrun, FileMap.lookup_put, if_neg hother]
  unchanged fault hfault := by
    rw [hrun] at hfault
    cases hfault

theorem of_fault {fault : Fault} (hrun : run = (.error fault, before))
    (hnone : ∀ content, ¬ Content content) : WritesExactly run before name Content where
  answer written := by
    rw [hrun]
    constructor
    · intro hwritten
      cases hwritten
    · rintro ⟨-, content, hcontent⟩
      exact absurd hcontent (hnone content)
  content content hcontent := absurd hcontent (hnone content)
  others other _ := by rw [hrun]
  unchanged _ _ := by rw [hrun]

end WritesExactly

section Run

variable [ImageLibrary] {σ : Type} [Storage σ] {files : σ} {forced : Option OutputFormat}

namespace Render

variable {render : Render}

theorem store_of_content {format : OutputFormat} {content : ByteArray}
    (hformat : HasFormat forced render.outputName format)
    (hencode : render.image.encode format = .ok content) :
    render.store forced files =
      Storage.write files (storedName forced render.outputName) content := by
  have htarget := (outputTarget_eq_ok_iff forced render.outputName _ format).mpr ⟨hformat, rfl⟩
  rw [store, htarget, ok_bind]
  dsimp only
  rw [hencode]
  rfl

theorem store_of_no_content (h : ∀ format content, HasFormat forced render.outputName format →
    render.image.encode format ≠ .ok content) :
    ∃ fault, render.store forced files = (.error fault, files) := by
  rw [store]
  cases htarget : outputTarget forced render.outputName with
  | error fault => exact ⟨fault, rfl⟩
  | ok target =>
    obtain ⟨format, written⟩ := target
    obtain ⟨hformat, -⟩ := (outputTarget_eq_ok_iff ..).mp htarget
    cases hencode : render.image.encode format with
    | error fault => exact ⟨fault, by rw [ok_bind]; dsimp only; rw [hencode]; rfl⟩
    | ok content => exact absurd hencode (h format content hformat)

end Render

namespace Task

variable {task : Task}

/-- What is left of a run once its image is known: choosing the format, encoding and writing. -/
theorem run_of_content {render : Render} {format : OutputFormat} {content : ByteArray}
    (hrender : task.extract files >>= task.transform = .ok render)
    (hformat : HasFormat forced render.outputName format)
    (hencode : render.image.encode format = .ok content) :
    task.run forced files =
      Storage.write files (storedName forced render.outputName) content := by
  rw [Task.run, hrender]
  exact Render.store_of_content hformat hencode

/-- Nothing is written where no image is made, no format is known or the encoding fails. -/
theorem run_of_no_content
    (h : ∀ render format content, task.extract files >>= task.transform = .ok render →
      HasFormat forced render.outputName format → render.image.encode format ≠ .ok content) :
    ∃ fault, task.run forced files = (.error fault, files) := by
  rw [Task.run]
  cases hrender : task.extract files >>= task.transform with
  | error fault => exact ⟨fault, rfl⟩
  | ok render =>
    exact Render.store_of_no_content fun format content => h render format content hrender

end Task

end Run

namespace Task

variable [ImageLibrary] {files : FileMap} {forced : Option OutputFormat} {task : Task}

/-- A task whose content is known without reference to its steps writes exactly that. -/
theorem writesExactly {name : String} {Content : ByteArray → Prop}
    (hname : ∀ render, task.extract files >>= task.transform = .ok render →
      render.outputName = name)
    (h : ∀ content, Content content ↔ ∃ render format,
      task.extract files >>= task.transform = .ok render ∧ HasFormat forced name format ∧
        render.image.encode format = .ok content) :
    WritesExactly (task.run forced files) files (storedName forced name) Content := by
  by_cases hcontent : ∃ content, Content content
  · obtain ⟨content, hcontent⟩ := hcontent
    obtain ⟨render, format, hrender, hformat, hencode⟩ := (h content).mp hcontent
    obtain rfl := hname render hrender
    have hrun : task.run forced files = (.ok (storedName forced render.outputName),
        files.put (storedName forced render.outputName) content) :=
      run_of_content hrender hformat hencode
    refine .of_put hrun hcontent fun other hother => ?_
    obtain ⟨render', format', hrender', hformat', hencode'⟩ := (h other).mp hother
    obtain rfl : render' = render := Except.ok.inj (hrender'.symm.trans hrender)
    have hsame : files.put (storedName forced render'.outputName) other =
        files.put (storedName forced render'.outputName) content :=
      congrArg Prod.snd ((run_of_content hrender' hformat' hencode').symm.trans hrun)
    have hlookup := congrArg (List.lookup (storedName forced render'.outputName)) hsame
    simpa only [FileMap.lookup_put, if_pos, Option.some.injEq] using hlookup
  · have hnone : ∀ render format content, task.extract files >>= task.transform = .ok render →
        HasFormat forced render.outputName format → render.image.encode format ≠ .ok content := by
      intro render format content hrender hformat hencode
      rw [hname render hrender] at hformat
      exact hcontent ⟨content, (h content).mpr ⟨render, format, hrender, hformat, hencode⟩⟩
    obtain ⟨fault, hrun⟩ := run_of_no_content hnone
    exact .of_fault hrun fun content hsome => hcontent ⟨content, hsome⟩

end Task

/-! ### Redactions -/

section Redactions

variable [ImageLibrary]

/-- What the file of a redaction holds: a job that is valid, whose source is there and whose output
has a format, makes it of the source. -/
structure Job.RedactsTo (job : Job) (files : FileMap) (forced : Option OutputFormat)
    (content : ByteArray) : Prop where
  valid : job.validate = .ok ()
  redacted : ∃ data format, files.lookup job.source = some data ∧
    HasFormat forced job.outputName format ∧ job.redactFile data format = .ok content

/-- The mode of a job can work on the picture of its source. -/
def Job.IsWorkableOn (job : Job) (files : FileMap) : Prop :=
  ∀ picture, files.Holds job.source picture → Redaction.isWorkable job picture.toRgba = true

theorem Job.redactFile_eq_ok_iff (job : Job) (data content : ByteArray) (format : OutputFormat) :
    job.redactFile data format = .ok content ↔
      ∃ picture, Picture.ofFile job.source data = .ok picture ∧
        (Canvas.rgba (Redaction.applyJob job picture.toRgba).1).encode format = .ok content := by
  rw [Job.redactFile, bind_eq_ok_iff]

/-- **A redaction fails to work only on a blur that the library does not return from.** -/
theorem Job.isWorkableOn_of_canBlur {job : Job} (files : FileMap)
    (h : ∀ sigma, job.mode = .blur sigma → ∀ image, ImageLibrary.canBlur sigma image = true) :
    job.IsWorkableOn files := by
  have hregions (sigma : Float32) (hsigma : job.mode = .blur sigma) (regions : List Region)
      (image : Raster Rgba) : Redaction.canBlurRegions sigma image regions = true := by
    induction regions generalizing image with
    | nil => rfl
    | cons region regions ih =>
      rw [Redaction.canBlurRegions]
      split
      · rw [h sigma hsigma, ih]
        rfl
      · exact ih image
  intro picture _
  rw [Redaction.isWorkable]
  cases hmode : job.mode with
  | blur sigma => exact hregions sigma hmode job.regions picture.toRgba
  | _ => rfl

namespace Task

section Redact

variable {σ : Type} [Storage σ] {files : σ}

omit [ImageLibrary] in
theorem readSources_cons_eq_ok_iff (key path : String) (rest : List (String × String))
    (sources : List Source) :
    readSources files ((key, path) :: rest) = .ok sources ↔
      ∃ data others, Storage.read files path = .ok data ∧ readSources files rest = .ok others ∧
        sources = ⟨key, path, data⟩ :: others := by
  simp only [readSources, bind_eq_ok_iff, pure, Except.pure, Except.ok.injEq]
  constructor
  · rintro ⟨data, hdata, others, hothers, rfl⟩
    exact ⟨data, others, hdata, hothers, rfl⟩
  · rintro ⟨data, others, hdata, hothers, rfl⟩
    exact ⟨data, hdata, others, hothers, rfl⟩

/-- A redaction gets to its image when its job is valid, its source holds a picture and its mode
can work on that. -/
theorem redact_eq_ok_iff (job : Job) (render : Render) :
    (redact job).extract files >>= (redact job).transform = .ok render ↔
      job.validate = .ok () ∧ ∃ data picture, Storage.read files job.source = .ok data ∧
        Picture.ofFile job.source data = .ok picture ∧
          Redaction.isWorkable job picture.toRgba = true ∧
            render = ⟨.rgba (Redaction.applyJob job picture.toRgba).1, job.outputName,
              (Redaction.applyJob job picture.toRgba).2⟩ := by
  have hextract : (redact job).extract files =
      (job.validate >>= fun _ => readSources files [(job.source, job.source)]) := rfl
  have htransform (data : ByteArray) :
      (redact job).transform [⟨job.source, job.source, data⟩] = .ok render ↔
        ∃ picture, Picture.ofFile job.source data = .ok picture ∧
          Redaction.isWorkable job picture.toRgba = true ∧
            render = ⟨.rgba (Redaction.applyJob job picture.toRgba).1, job.outputName,
              (Redaction.applyJob job picture.toRgba).2⟩ := by
    simp only [transform, bind_eq_ok_iff]
    refine exists_congr fun picture => and_congr_right fun _ => ?_
    split_ifs with hworkable
    · simp [hworkable, pure, Except.pure, eq_comm]
    · simp [hworkable]
  rw [hextract, bind_eq_ok_iff]
  simp only [check_bind_eq_ok_iff, readSources_cons_eq_ok_iff]
  constructor
  · rintro ⟨_, ⟨hvalid, data, others, hdata, hothers, rfl⟩, hrender⟩
    obtain rfl : [] = others := Except.ok.inj hothers
    exact ⟨hvalid, data, (htransform data).mp hrender |>.imp fun _ h => ⟨hdata, h⟩⟩
  · rintro ⟨hvalid, data, picture, hdata, hrender⟩
    exact ⟨_, ⟨hvalid, data, [], hdata, rfl, rfl⟩, (htransform data).mpr ⟨picture, hrender⟩⟩

end Redact

variable {files : FileMap}

theorem writesExactly_redact (job : Job) (files : FileMap) (forced : Option OutputFormat) :
    WritesExactly ((redact job).run forced files) files (storedName forced job.outputName)
      fun content => job.RedactsTo files forced content ∧ job.IsWorkableOn files := by
  refine writesExactly (fun render hrender => ?_) fun content => ?_
  · obtain ⟨-, data, picture, -, -, -, rfl⟩ := (redact_eq_ok_iff job render).mp hrender
    rfl
  · constructor
    · rintro ⟨⟨hvalid, data, format, hdata, hformat, hredact⟩, hworkable⟩
      obtain ⟨picture, hpicture, hencode⟩ := (job.redactFile_eq_ok_iff ..).mp hredact
      have hread := (FileMap.read_eq_ok_iff files job.source data).mpr hdata
      refine ⟨_, format, (redact_eq_ok_iff job _).mpr
        ⟨hvalid, data, picture, hread, hpicture, ?_, rfl⟩, hformat, hencode⟩
      exact hworkable picture ⟨data, hdata, hpicture⟩
    · rintro ⟨render, format, hrender, hformat, hencode⟩
      obtain ⟨hvalid, data, picture, hread, hpicture, hworkable, rfl⟩ :=
        (redact_eq_ok_iff job render).mp hrender
      have hdata := (FileMap.read_eq_ok_iff files job.source data).mp hread
      have hredact :=
        (job.redactFile_eq_ok_iff data content format).mpr ⟨picture, hpicture, hencode⟩
      refine ⟨⟨hvalid, data, format, hdata, hformat, hredact⟩, fun other hother => ?_⟩
      obtain ⟨otherData, hotherData, hotherPicture⟩ := hother
      obtain rfl : otherData = data := Option.some.inj (hotherData.symm.trans hdata)
      obtain rfl : other = picture := Except.ok.inj (hotherPicture.symm.trans hpicture)
      exact hworkable

end Task

end Redactions

/-! ### Renderings -/

theorem Failure.ofWorker_eq_ok_iff {α : Type} {work : String} {x : Except Failure α} {a : α} :
    Failure.ofWorker work x = .ok a ↔ x = .ok a := by
  rcases x with (reported | cause) | result
  · exact ⟨fun h => (nomatch h), fun h => (nomatch h)⟩
  · exact ⟨fun h => (nomatch h), fun h => (nomatch h)⟩
  · exact ⟨fun h => congrArg _ (Except.ok.inj h), fun h => congrArg _ (Except.ok.inj h)⟩

section Renderings

variable [ImageLibrary]

namespace Graph

/-- The pictures of the image nodes whose files hold one. -/
def pictures (g : Graph) (files : FileMap) : Images :=
  g.imageSources.filterMap fun (key, path) =>
    (files.picture? path).map fun picture => (key, picture.toRgb)

/-- What the file of a rendering holds: where every image node with a path has a file that holds a
picture, and the output has a format, the encoding of the image that the graph makes of them. -/
structure RendersTo (g : Graph) (outputName : String) (files : FileMap)
    (forced : Option OutputFormat) (content : ByteArray) : Prop where
  sources : ∀ node ∈ g.nodes, node.kind = .image → ∀ path, node.data = some path → path ≠ "" →
    ∃ picture, files.Holds path picture
  rendered : ∃ image format, g.render (g.pictures files) = .ok image ∧
    HasFormat forced outputName format ∧ (Canvas.rgb image).encode format = .ok content

omit [ImageLibrary] in
theorem mem_imageSources (g : Graph) (key path : String) :
    (key, path) ∈ g.imageSources ↔ ∃ node ∈ g.nodes, node.kind = .image ∧ node.data = some path ∧
      path ≠ "" ∧ node.id = key := by
  rw [imageSources, List.mem_filterMap]
  refine exists_congr fun node => and_congr_right fun _ => ?_
  split
  next other hkind hdata =>
    by_cases hempty : other = ""
    · subst hempty
      simp [hkind, hdata]
      tauto
    · simp only [hkind, hdata, hempty, String.isEmpty_iff, if_false, Option.some.injEq,
        Prod.mk.injEq, true_and]
      constructor
      · rintro ⟨hkey, rfl⟩
        exact ⟨rfl, hempty, hkey⟩
      · rintro ⟨rfl, -, hkey⟩
        exact ⟨hkey, rfl⟩
  next hnone =>
    simp only [reduceCtorEq, false_iff]
    rintro ⟨hkind, hdata, -⟩
    exact hnone path hkind hdata

/-- Every source of a graph holds a picture. -/
theorem forall_imageSources_iff (g : Graph) (files : FileMap) :
    (∀ source ∈ g.imageSources, ∃ picture, files.Holds source.2 picture) ↔
      ∀ node ∈ g.nodes, node.kind = .image → ∀ path, node.data = some path → path ≠ "" →
        ∃ picture, files.Holds path picture := by
  constructor
  · intro h node hnode hkind path hdata hpath
    exact h (node.id, path) ((mem_imageSources ..).mpr ⟨node, hnode, hkind, hdata, hpath, rfl⟩)
  · rintro h ⟨key, path⟩ hsource
    obtain ⟨node, hnode, hkind, hdata, hpath, -⟩ := (mem_imageSources ..).mp hsource
    exact h node hnode hkind path hdata hpath

end Graph

namespace Task

variable {files : FileMap}

theorem decodeSources_cons_eq_ok_iff (source : Source) (rest : List Source) (images : Images) :
    decodeSources (source :: rest) = .ok images ↔
      ∃ picture others, Picture.ofFile source.path source.data = .ok picture ∧
        decodeSources rest = .ok others ∧ images = (source.key, picture.toRgb) :: others := by
  simp only [decodeSources, bind_eq_ok_iff, pure, Except.pure, Except.ok.injEq]
  constructor
  · rintro ⟨picture, hpicture, others, hothers, rfl⟩
    exact ⟨picture, others, hpicture, hothers, rfl⟩
  · rintro ⟨picture, others, hpicture, hothers, rfl⟩
    exact ⟨picture, hpicture, others, hothers, rfl⟩

/-- All sources are read before the first of them is decoded, which makes no difference to what a
run without a fault has decoded in the end. -/
theorem read_decode_iff (paths : List (String × String)) (images : Images) :
    (∃ sources, readSources files paths = .ok sources ∧ decodeSources sources = .ok images) ↔
      (∀ source ∈ paths, ∃ picture, files.Holds source.2 picture) ∧
        images = paths.filterMap fun (key, path) =>
          (files.picture? path).map fun picture => (key, picture.toRgb) := by
  induction paths generalizing images with
  | nil => simp [readSources, decodeSources, eq_comm]
  | cons head rest ih =>
    obtain ⟨key, path⟩ := head
    rw [List.forall_mem_cons]
    constructor
    · rintro ⟨sources, hread, hdecode⟩
      obtain ⟨data, others, hfile, hothers, rfl⟩ := (readSources_cons_eq_ok_iff ..).mp hread
      have hdata := (FileMap.read_eq_ok_iff files path data).mp hfile
      obtain ⟨picture, more, hpicture, hmore, rfl⟩ := (decodeSources_cons_eq_ok_iff ..).mp hdecode
      obtain ⟨hrest, rfl⟩ := (ih more).mp ⟨others, hothers, hmore⟩
      have hholds : files.Holds path picture := ⟨data, hdata, hpicture⟩
      refine ⟨⟨⟨picture, hholds⟩, hrest⟩, ?_⟩
      simp [(files.picture?_eq_some_iff path picture).mpr hholds]
    · rintro ⟨⟨⟨picture, hholds⟩, hrest⟩, rfl⟩
      obtain ⟨data, hdata, hpicture⟩ := hholds
      have hfile := (FileMap.read_eq_ok_iff files path data).mpr hdata
      obtain ⟨others, hothers, hmore⟩ := (ih _).mpr ⟨hrest, rfl⟩
      refine ⟨_, (readSources_cons_eq_ok_iff ..).mpr ⟨data, others, hfile, hothers, rfl⟩, ?_⟩
      refine (decodeSources_cons_eq_ok_iff ..).mpr ⟨picture, _, hpicture, hmore, ?_⟩
      simp [(files.picture?_eq_some_iff path picture).mpr ⟨data, hdata, hpicture⟩]

theorem render_eq_ok_iff (g : Graph) (outputName : String) (result : Render) :
    (render g outputName).extract files >>= (render g outputName).transform = .ok result ↔
      (∀ source ∈ g.imageSources, ∃ picture, files.Holds source.2 picture) ∧
        ∃ image, g.render (g.pictures files) = .ok image ∧
          result = ⟨.rgb image, outputName, operationCount g⟩ := by
  have hextract : (render g outputName).extract files = readSources files g.imageSources := rfl
  have htransform (sources : List Source) :
      (render g outputName).transform sources = .ok result ↔
        ∃ images, decodeSources sources = .ok images ∧ ∃ image, g.render images = .ok image ∧
          result = ⟨.rgb image, outputName, operationCount g⟩ := by
    simp only [transform, bind_eq_ok_iff, Failure.ofWorker_eq_ok_iff, pure, Except.pure,
      Except.ok.injEq, eq_comm (b := result)]
  rw [hextract, bind_eq_ok_iff]
  simp only [htransform]
  constructor
  · rintro ⟨sources, hread, images, hdecode, himage⟩
    obtain ⟨hsources, rfl⟩ := (read_decode_iff _ images).mp ⟨sources, hread, hdecode⟩
    exact ⟨hsources, himage⟩
  · rintro ⟨hsources, himage⟩
    obtain ⟨sources, hread, hdecode⟩ := (read_decode_iff _ _).mpr ⟨hsources, rfl⟩
    exact ⟨sources, hread, _, hdecode, himage⟩

theorem writesExactly_render (g : Graph) (outputName : String) (files : FileMap)
    (forced : Option OutputFormat) :
    WritesExactly ((render g outputName).run forced files) files (storedName forced outputName)
      (g.RendersTo outputName files forced) := by
  refine writesExactly (fun result hresult => ?_) fun content => ?_
  · obtain ⟨-, image, -, rfl⟩ := (render_eq_ok_iff g outputName result).mp hresult
    rfl
  · constructor
    · rintro ⟨hsources, image, format, himage, hformat, hencode⟩
      refine ⟨_, format, (render_eq_ok_iff g outputName _).mpr ⟨?_, image, himage, rfl⟩, hformat,
        hencode⟩
      exact (g.forall_imageSources_iff files).mpr hsources
    · rintro ⟨result, format, hresult, hformat, hencode⟩
      obtain ⟨hsources, image, himage, rfl⟩ := (render_eq_ok_iff g outputName result).mp hresult
      exact ⟨(g.forall_imageSources_iff files).mp hsources, image, format, himage, hformat, hencode⟩

/-- **A run on files by name writes one file or none.** A redaction of a job, valid or not, answers
a name exactly when the job is valid, its source is there and holds a picture that its mode can work
on, its output has a format and the encoding succeeds; it has then written what `Job.redactFile`
makes of the source, and no other file is changed. The mode can work on any picture unless it is a
blur that the library does not return from. The same goes for a rendering of any graph, where every
image node with a path has a file with a picture and the graph can be rendered. In every other case
a run fails and the files are as before. -/
theorem writes_one_file_or_none (files : FileMap) (forced : Option OutputFormat) :
    (∀ job : Job, WritesExactly ((redact job).run forced files) files
      (storedName forced job.outputName)
      fun content => job.RedactsTo files forced content ∧ job.IsWorkableOn files) ∧
    (∀ job : Job, (∀ sigma, job.mode = .blur sigma →
        ∀ image, ImageLibrary.canBlur sigma image = true) → job.IsWorkableOn files) ∧
    ∀ (g : Graph) (outputName : String),
      WritesExactly ((render g outputName).run forced files) files
        (storedName forced outputName) (g.RendersTo outputName files forced) :=
  ⟨fun job => writesExactly_redact job files forced,
    fun _ hblur => Job.isWorkableOn_of_canBlur files hblur,
    fun g outputName => writesExactly_render g outputName files forced⟩

end Task

end Renderings

namespace Task

/-- A file with a picture in one colour. -/
def cardFile : ByteArray := Bmp.encode (.rgb (Raster.solid 8 8 ⟨10, 20, 30⟩))

theorem card_holds_picture : (Picture.ofFile "card.bmp" cardFile).isOk := by
  decide +kernel

/-- A job that fills a part of the picture. -/
def blackCard : Job where
  source := "card.bmp"
  regions := [⟨0, 0, 5, 5⟩]
  mode := .fill ⟨0, 0, 0, 255⟩
  output := some "out.bmp"
  created := ⟨738000, 0, 0⟩

/-- The graph that shows the picture. -/
def cardFlow : Graph where
  nodes := [Graph.endNode, ⟨"photo", .image, ⟨0.0, 0.0⟩, some "card.bmp"⟩]
  links := [⟨"link-1", "photo", "endNode", imageSlot.name, "", ⟨0.0, 0.0⟩, ⟨0.0, 0.0⟩⟩]
  nextId := 1

theorem card_is_redacted_and_rendered :
    ((redact blackCard).run none [("card.bmp", cardFile)]).1 = .ok "out.bmp" ∧
      ((redact blackCard).run none [("card.bmp", cardFile)]).2.lookup "card.bmp" = some cardFile ∧
      ((render cardFlow "flow.png").run (some .bmp) [("card.bmp", cardFile)]).1 =
        .ok "flow.bmp" := by
  obtain ⟨picture, hpicture⟩ := exists_of_isOk card_holds_picture
  have hredacted : ∃ content, blackCard.RedactsTo [("card.bmp", cardFile)] none content ∧
      blackCard.IsWorkableOn [("card.bmp", cardFile)] := by
    have hfile := (blackCard.redactFile_eq_ok_iff cardFile _ .bmp).mpr ⟨picture, hpicture, rfl⟩
    exact ⟨_, ⟨rfl, cardFile, .bmp, rfl, .inr ⟨rfl, rfl⟩, hfile⟩, fun _ _ => rfl⟩
  have hrendered : ∃ content,
      cardFlow.RendersTo "flow.png" [("card.bmp", cardFile)] (some .bmp) content := by
    have hrender : (cardFlow.render (cardFlow.pictures [("card.bmp", cardFile)])).isOk := by
      decide +kernel
    obtain ⟨image, himage⟩ := exists_of_isOk hrender
    refine ⟨_, (cardFlow.forall_imageSources_iff _).mp ?_, image, .bmp, himage, .inl rfl, rfl⟩
    intro source hsource
    have hsources : cardFlow.imageSources = [("photo", "card.bmp")] := rfl
    rw [hsources, List.mem_singleton] at hsource
    exact ⟨picture, cardFile, by rw [hsource]; rfl, by rw [hsource]; exact hpicture⟩
  have hjob := (writes_one_file_or_none [("card.bmp", cardFile)] none).1 blackCard
  have hgraph :=
    (writes_one_file_or_none [("card.bmp", cardFile)] (some .bmp)).2.2 cardFlow "flow.png"
  exact ⟨(hjob.answer _).mpr ⟨rfl, hredacted⟩, hjob.others "card.bmp" (by decide),
    (hgraph.answer _).mpr ⟨rfl, hrendered⟩⟩

/-- A valid job whose blur has a width that is above zero and not a normal number. -/
def thinBlur : Job where
  source := "card.bmp"
  regions := [⟨0, 0, 5, 5⟩]
  mode := .blur 1e-40
  output := some "out.bmp"
  created := ⟨738000, 0, 0⟩

/-- The job is valid, its source holds a picture, its output has a format and every image can be
encoded in it; yet it is not redacted. -/
theorem thinBlur_fails :
    (∃ content, thinBlur.RedactsTo [("card.bmp", cardFile)] none content) ∧
      ∃ fault, ((redact thinBlur).run none [("card.bmp", cardFile)]).1 = .error fault := by
  constructor
  · obtain ⟨picture, hpicture⟩ := exists_of_isOk card_holds_picture
    have hredact := (thinBlur.redactFile_eq_ok_iff cardFile _ .bmp).mpr ⟨picture, hpicture, rfl⟩
    exact ⟨_, rfl, cardFile, .bmp, rfl, .inr ⟨rfl, rfl⟩, hredact⟩
  · exact exists_of_not_isOk (by decide +kernel)

end Task

end Darkroom
