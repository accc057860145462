import Darkroom.Graph.Codec
import Darkroom.Graph.Eval
import Darkroom.Image.Library
import Darkroom.Storage
import Darkroom.Vision.Redaction

/-!
# Runs

A task redacts the regions of a job or renders a graph.  It reads its sources, makes an image of
them and writes the image; the first failure ends it, and only the last step changes the store.  The
image is made by a worker, whose breaking off is a fault of the run.

## Main definitions

* `Task` : what is to be done.
* `Task.extract`, `Task.transform`, `store` : the three steps.
* `Task.run` : all of them.
-/

namespace Darkroom

/-- What a run does. -/
inductive Task where
  | redact (job : Job)
  | render (graph : Graph) (outputName : String)

/-- A source that has been read; `key` is the image node that it is for, or its path. -/
structure Source where
  key : String
  path : String
  data : ByteArray

/-- An image to be written. -/
structure Render where
  image : Canvas
  outputName : String
  operations : Nat

namespace Task

/-- Reads the file of every image node. -/
def readSources {σ : Type} [Storage σ] (files : σ) :
    List (String × String) → Except Fault (List Source)
  | [] => .ok []
  | (key, path) :: rest => do
    let data ← Storage.read files path
    return ⟨key, path, data⟩ :: (← readSources files rest)

/-- The sources of a task.  A job has to be valid. -/
def extract {σ : Type} [Storage σ] (task : Task) (files : σ) : Except Fault (List Source) := do
  match task with
  | redact job =>
    job.validate
    readSources files [(job.source, job.source)]
  | render graph _ => readSources files graph.imageSources

section Images

variable [ImageLibrary]

/-- The pictures of sources, by key. -/
def decodeSources : List Source → Except Fault Images
  | [] => .ok []
  | source :: rest => do
    let picture ← Picture.ofFile source.path source.data
    return (source.key, picture.toRgb) :: (← decodeSources rest)

/-- The nodes feeding the end node that work on images. -/
def operationCount (graph : Graph) : Nat :=
  match graph.endNodeId? with
  | some id =>
    ((graph.ancestors id).filter fun node => node.kind ≠ .image ∧ node.kind.output = .image).length
  | none => 0

/-- The image of a task. -/
def transform (task : Task) (sources : List Source) : Except Fault Render := do
  match task with
  | redact job =>
    match sources with
    | [] => .error (.processing "No source image was read")
    | source :: _ =>
      let image := (← Picture.ofFile source.path source.data).toRgba
      if Redaction.isWorkable job image then
        let (hidden, applied) := Redaction.applyJob job image
        return ⟨.rgba hidden, job.outputName, applied⟩
      else .error (Failure.workerFault "redact")
  | render graph outputName =>
    let image ← Failure.ofWorker "render" (graph.render (← decodeSources sources))
    return ⟨.rgb image, outputName, operationCount graph⟩

end Images

end Task

/-- The format and the name of an output.  A forced format replaces the extension. -/
def outputTarget (forced : Option OutputFormat) (name : String) :
    Except Fault (OutputFormat × String) :=
  match forced with
  | some format => .ok (format, Path.withExtension name format.extension)
  | none => (OutputFormat.ofPath name).map fun format => (format, name)

section Runs

variable [ImageLibrary]

/-- Writes an image; gives where it went. -/
def Render.store {σ : Type} [Storage σ] (render : Render) (forced : Option OutputFormat)
    (files : σ) : Except Fault String × σ :=
  let encoded : Except Fault (String × ByteArray) := do
    let (format, name) ← outputTarget forced render.outputName
    return (name, ← render.image.encode format)
  match encoded with
  | .ok (name, data) => Storage.write files name data
  | .error fault => (.error fault, files)

/-- Runs a task; gives where its output went. -/
def Task.run {σ : Type} [Storage σ] (task : Task) (forced : Option OutputFormat) (files : σ) :
    Except Fault String × σ :=
  match task.extract files >>= task.transform with
  | .ok result => result.store forced files
  | .error fault => (.error fault, files)

/-- The file of a redacted image: decoded, redacted and encoded in a format. -/
def Job.redactFile (job : Job) (data : ByteArray) (format : OutputFormat) :
    Except Fault ByteArray := do
  let picture ← Picture.ofFile job.source data
  (Canvas.rgba (Redaction.applyJob job picture.toRgba).1).encode format

end Runs

end Darkroom
