import Darkroom.Instant
import Darkroom.Mode
import Darkroom.Region

/-!
# Redaction jobs

A job names an image, the regions of it to hide and how to hide them.

## Main definitions

* `Job` : the data of a job.
* `Job.outputName` : where the result goes.
* `Job.validate` : what a job has to satisfy before it runs or is saved.
-/

namespace Darkroom

/-- One image, the regions to hide in it and how to hide them. -/
structure Job where
  source : String
  regions : List Region
  mode : Mode
  output : Option String
  created : Instant
  deriving BEq, DecidableEq, Repr

namespace Job

/-- A job without regions and with the default output name. -/
def new (source : String) (mode : Mode) (created : Instant) : Job :=
  ⟨source, [], mode, none, created⟩

/-- The name of the output where none is given: the source's name after `redacted_`, its extension
in lower case. -/
def defaultOutputName (source : String) : String :=
  let stem := (Path.stem? source).getD "image"
  let extension := ((Path.extension? source).map Text.toLower).getD "png"
  s!"redacted_{stem}.{extension}"

/-- The name of the output. -/
def outputName (job : Job) : String := job.output.getD (defaultOutputName job.source)

/-- Refuses the first region without area, counting from `index`. -/
def checkRegions (index : Nat) : List Region → Except Fault Unit
  | [] => .ok ()
  | r :: rs => do
    r.checkArea s!"regions[{index}]"
    checkRegions (index + 1) rs

/-- Paths are usable, regions have an area and the mode's parameter is within bounds. -/
def validate (job : Job) : Except Fault Unit := do
  Check.path "source_image_path" job.source
  checkRegions 0 job.regions
  match job.output with
  | some output => Check.path "output_path" output
  | none => .ok ()
  job.mode.validate

end Job

end Darkroom
