import Darkroom.Batch.Plan
import Darkroom.Outcome
import Darkroom.Task

/-!
# Batch runs

A batch works through its jobs and then its graphs.  Each item is attempted once, on the files that
the items before it have left, whatever became of them; failures are reported at the end.

## Main definitions

* `BatchItem`, `BatchItem.perform` : an item and its attempt.
* `attemptAll` : the attempts of a list of items.
* `Batch.report` : the outcome of attempts.
* `BatchRequest`, `BatchRequest.run` : the whole command.
-/

namespace Darkroom

/-- An item of a batch. -/
inductive BatchItem where
  | redaction (job : Job)
  | rendering (entry : GraphEntry)

/-- The result of an item: where its output went, or why there is none. -/
structure Attempt where
  label : String
  result : Except Fault String

namespace BatchItem

/-- The file that an item starts from. -/
def label : BatchItem → String
  | redaction job => job.source
  | rendering entry => entry.file

/-- The task of an item; graphs are read from their files. -/
def task (tree : FileTree) : BatchItem → Except Fault Task
  | redaction job => .ok (.redact job)
  | rendering entry => do
    let graph ← Graph.load (← tree.readText entry.file) Registry.full
    return .render graph entry.output

/-- Attempts an item; gives where its output went, and the files afterwards. -/
def perform [ImageLibrary] (config : BatchConfig) (item : BatchItem) (tree : FileTree) :
    Except Fault String × FileTree :=
  match item.task tree with
  | .error fault => (.error fault, tree)
  | .ok task =>
    let (result, store) := task.run config.format (OutputDirectory.mk config.outputPath tree)
    (result, store.tree)

end BatchItem

/-- Attempts items in order. -/
def attemptAll [ImageLibrary] (config : BatchConfig) :
    List BatchItem → FileTree → List Attempt × FileTree
  | [], tree => ([], tree)
  | item :: items, tree =>
    let (result, tree) := item.perform config tree
    let (attempts, tree) := attemptAll config items tree
    (⟨item.label, result⟩ :: attempts, tree)

namespace Batch

/-- The items of a batch: its jobs, then its graphs. -/
def items (config : BatchConfig) (jobs : List Job) : List BatchItem :=
  jobs.map BatchItem.redaction ++ config.graphs.map BatchItem.rendering

/-! ### Reports -/

/-- The line of an attempt that succeeded. -/
def successLine? (attempt : Attempt) : Option String :=
  match attempt.result with
  | .ok path => some s!"✅ {attempt.label} -> {path}"
  | .error _ => none

/-- The label and the fault of an attempt that failed. -/
def failure? (attempt : Attempt) : Option (String × Fault) :=
  match attempt.result with
  | .ok _ => none
  | .error fault => some (attempt.label, fault)

/-- The messages about a fault. -/
def faultLines (fault : Fault) : List String :=
  [s!"❌ {fault.friendly}", s!"💡 Suggestion: {fault.suggestion}"]

/-- The messages about the fault of an item. -/
def itemLines (failure : String × Fault) : List String :=
  let (label, fault) := failure
  [s!"❌ {label}: {fault.friendly}", s!"💡 Suggestion: {fault.suggestion}"]

/-- The graver of two severities. -/
def graver (a b : Severity) : Severity := if a.rank ≤ b.rank then b else a

/-- The exit code of a batch: that of its gravest fault, and zero where there is none. -/
def exitCode : List Fault → Nat
  | [] => 0
  | fault :: faults => (faults.foldl (fun s f => graver s f.severity) fault.severity).exitCode

/-- The lines about what a batch is going to do. -/
def summary (config : BatchConfig) (jobs : List Job) (dryRun : Bool) : List String :=
  let batch := match config.version with
    | some version => s!"  Batch: {config.name} v{version}"
    | none => s!"  Batch: {config.name}"
  let description := config.description.map fun text => s!"  Description: {text}"
  let format := config.format.map fun f => s!"  Format: {f.extension}"
  ["📋 Configuration Summary:", batch] ++ description.toList
    ++ [s!"  Output: {config.outputPath}"] ++ format.toList
    ++ [s!"  Jobs: {jobs.length}", s!"  Graphs: {config.graphs.length}"]
    ++ (if dryRun then ["  🔍 DRY RUN MODE ENABLED"] else []) ++ [""]

/-- The lines about a job that is not run. -/
def plannedJob (job : Job) : List String :=
  s!"  {job.source} -> {job.outputName} ({job.regions.length} region(s), {job.mode.name})"
    :: job.regions.map fun r => s!"    {r.x},{r.y} {r.width}x{r.height}"

/-- The lines about a graph that is not rendered. -/
def plannedGraph (entry : GraphEntry) : String := s!"  {entry.file} -> {entry.output}"

/-- The lines of a batch that is only looked at. -/
def dryRun (config : BatchConfig) (jobs : List Job) : List String :=
  let jobLines := if jobs.isEmpty then []
    else ["", "🖼️ Redaction Jobs:"] ++ jobs.flatMap plannedJob
  let graphLines := if config.graphs.isEmpty then []
    else ["", "🧩 Graphs:"] ++ config.graphs.map plannedGraph
  ["🔍 Dry Run Analysis:"] ++ jobLines ++ graphLines
    ++ ["", "✅ Dry run analysis complete. Use --verbose for more details during actual run."]

/-- The outcome of a batch after its attempts. -/
def report (config : BatchConfig) (heading : List String) (attempts : List Attempt)
    (tree : FileTree) : Outcome :=
  let successes := attempts.filterMap successLine?
  let failures := attempts.filterMap failure?
  { exitCode := exitCode (failures.map Prod.snd)
    output := heading ++ successes
      ++ [s!"📁 {successes.length} output(s) written to {config.outputPath}"]
    messages := failures.flatMap itemLines
    tree }

/-- The outcome of a batch that has been checked and whose jobs are known. -/
def run [ImageLibrary] (config : BatchConfig) (jobs : List Job) (tree : FileTree) : Outcome :=
  let (attempts, tree) := attemptAll config (items config jobs) tree
  report config (summary config jobs false) attempts tree

end Batch

/-- What the batch command is asked to do. -/
structure BatchRequest where
  config : String
  verbose : Bool
  monitor : Option Bool
  jsonLogs : Bool
  dryRun : Bool

namespace BatchRequest

/-- The outcome of a command that ends before any output. -/
def refused (tree : FileTree) (exitCode : Nat) (messages : List String) : Outcome :=
  { exitCode, output := [], messages, tree }

/-- The contents of the batch file of a request. -/
def load (request : BatchRequest) (env : Text.Environment) (tree : FileTree) :
    Except Fault BatchConfig := do
  BatchConfig.read env (← tree.readText request.config)

/-- Runs the batch of a request: loads it, checks it, and works through it or only shows it. -/
def run [ImageLibrary] (request : BatchRequest) (env : Text.Environment) (now : Instant)
    (tree : FileTree) : Outcome :=
  match request.load env tree with
  | .error fault =>
    refused tree 1 [s!"❌ Failed to load config file '{request.config}': {fault.message}",
      "💡 Make sure the file exists and is valid TOML format"]
  | .ok config =>
    match config.validate with
    | .error fault => refused tree 1 [s!"❌ {fault.friendly}"]
    | .ok () =>
      match config.resolve tree now with
      | .error fault => refused tree fault.exitCode (Batch.faultLines fault)
      | .ok jobs =>
        if request.dryRun then
          { exitCode := 0
            output := Batch.summary config jobs true ++ Batch.dryRun config jobs
            messages := []
            tree }
        else Batch.run config jobs tree

end BatchRequest

end Darkroom
