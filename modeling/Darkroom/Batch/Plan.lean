import Darkroom.Batch.Config
import Darkroom.FileTree
import Darkroom.Job.Codec

/-!
# Batch plans

Before a batch runs, its contents are checked as a whole and every entry is turned into a job.

## Main definitions

* `BatchConfig.validate` : the checks.
* `JobEntry.resolve`, `BatchConfig.resolve` : the jobs of the entries.
-/

namespace Darkroom

/-- The extension of graph files. -/
def graphExtension : String := "ns"

namespace RedactionDefaults

/-- Each parameter is within the bounds of the mode that it is for. -/
def validate (defaults : RedactionDefaults) : Except Fault Unit := do
  let _ ← ModeKind.build .pixelate defaults.blockSize none none
  let _ ← ModeKind.build .blur none defaults.sigma none
  let _ ← ModeKind.build .fill none none defaults.color

end RedactionDefaults

namespace JobEntry

/-- An entry has either a file or a source, and its output names a format. -/
def validate (index : Nat) (entry : JobEntry) : Except Fault Unit := do
  if entry.file.isSome = entry.source.isSome then
    .error (.rejectedConfiguration s!"jobs[{index}]"
      "Each job needs exactly one of 'job' or 'source'")
  else .ok ()
  match entry.output with
  | some output => Check.extension s!"jobs[{index}].output" OutputFormat.extensions output
  | none => .ok ()

/-- The mode of an entry: parameters of its own come before defaults, and pixelation is what is done
where no mode is given. -/
def mode (defaults : Option RedactionDefaults) (entry : JobEntry) : Except Fault Mode :=
  (entry.kind.getD .pixelate).build
    (entry.blockSize.or (defaults.bind RedactionDefaults.blockSize))
    (entry.sigma.or (defaults.bind RedactionDefaults.sigma))
    (entry.color.or (defaults.bind RedactionDefaults.color))

/-- The job of an entry before its output is set. -/
def draft (defaults : Option RedactionDefaults) (tree : FileTree) (now : Instant) (index : Nat)
    (entry : JobEntry) : Except Fault Job :=
  match entry.file, entry.source with
  | some file, none => do Job.decode (← tree.readText file)
  | none, some source => do
    return { Job.new source (← entry.mode defaults) now with regions := entry.regions }
  | some _, some _ =>
    .error (.rejectedConfiguration s!"jobs[{index}].job" "Use either 'job' or 'source', not both")
  | none, none => .error (.missingSetting s!"jobs[{index}].source")

/-- The job of an entry.  An output in the entry comes before one in the file. -/
def resolve (defaults : Option RedactionDefaults) (tree : FileTree) (now : Instant) (index : Nat)
    (entry : JobEntry) : Except Fault Job := do
  let job ← entry.draft defaults tree now index
  let job := { job with output := entry.output.or job.output }
  job.validate
  return job

end JobEntry

/-- The file and the output of an entry have extensions that fit. -/
def GraphEntry.validate (index : Nat) (entry : GraphEntry) : Except Fault Unit := do
  Check.extension s!"graphs[{index}].file" [graphExtension] entry.file
  Check.extension s!"graphs[{index}].output" OutputFormat.extensions entry.output

namespace BatchConfig

/-- Checks the job entries from `index` on. -/
def validateJobs (index : Nat) : List JobEntry → Except Fault Unit
  | [] => .ok ()
  | entry :: entries => do
    entry.validate index
    validateJobs (index + 1) entries

/-- Checks the graph entries from `index` on. -/
def validateGraphs (index : Nat) : List GraphEntry → Except Fault Unit
  | [] => .ok ()
  | entry :: entries => do
    entry.validate index
    validateGraphs (index + 1) entries

/-- A batch has a name, a place for its outputs and something to do, and its entries are usable. -/
def validate (config : BatchConfig) : Except Fault Unit := do
  Check.nonBlank "batch.name" config.name
  Check.path "output.path" config.outputPath
  if config.jobs.isEmpty ∧ config.graphs.isEmpty then
    .error (.rejectedConfiguration "jobs" "Nothing to do: add a [[jobs]] or [[graphs]] entry")
  else .ok ()
  match config.defaults with
  | some defaults => defaults.validate
  | none => .ok ()
  validateJobs 0 config.jobs
  validateGraphs 0 config.graphs

/-- The jobs of the entries from `index` on. -/
def resolveJobs (defaults : Option RedactionDefaults) (tree : FileTree) (now : Instant)
    (index : Nat) : List JobEntry → Except Fault (List Job)
  | [] => .ok []
  | entry :: entries => do
    let job ← entry.resolve defaults tree now index
    return job :: (← resolveJobs defaults tree now (index + 1) entries)

/-- The jobs of all entries, those in files read from a tree. -/
def resolve (config : BatchConfig) (tree : FileTree) (now : Instant) : Except Fault (List Job) :=
  resolveJobs config.defaults tree now 0 config.jobs

end BatchConfig

end Darkroom
