import Darkroom.CommandLine.Invocation
import Darkroom.Session

/-!
# Running the programs

A command reads and writes files and prints lines as it goes.  The first failure ends it; what was
written and printed before stays.  A command that breaks off reports nothing.

## Main definitions

* `Console`, `Script` : the files, the lines printed so far, and steps that may fail.
* `Command.perform` : the steps of a command.
* `Invocation.run` : the outcome of an invocation.
* `mainProgram`, `batchProgram` : the outcomes of command lines.
-/

namespace Darkroom

/-- The files and the lines printed so far. -/
structure Console where
  tree : FileTree
  lines : List String

/-- Steps on a console that may fail. -/
abbrev Script := ExceptT Failure (StateM Console)

namespace Script

/-- A result that does not depend on the console. -/
def lift {α : Type} : Except Fault α → Script α
  | .ok x => pure x
  | .error fault => throw (.fault fault)

/-- Prints a line. -/
def say (line : String) : Script Unit :=
  modify fun console => { console with lines := console.lines ++ [line] }

/-- A result that depends on the files. -/
def ask {α : Type} (question : FileTree → Except Fault α) : Script α := do
  lift (question (← get).tree)

/-- Changes the files. -/
def change (edit : FileTree → Except Fault FileTree) : Script Unit := do
  let tree ← ask edit
  modify fun console => { console with tree }

/-- Runs a task with its output under a directory; gives where the output went. -/
def perform [ImageLibrary] (task : Task) (outputPath : String) (format : Option OutputFormat) :
    Script String := do
  let (result, store) := task.run format (OutputDirectory.mk outputPath (← get).tree)
  modify fun console => { console with tree := store.tree }
  lift result

end Script

open Script

/-! ### Commands -/

/-- The operations that prepare the job of a redaction. -/
def RedactArguments.prepare (arguments : RedactArguments) (now : Instant) (tree : FileTree) :
    Editing Unit := do
  match arguments.job, arguments.image with
  | some job, _ =>
    let _ ← Editing.load job tree
  | none, some image =>
    let _ ← Editing.openImage image now
    arguments.regions.forM fun region => do
      let _ ← Editing.addRegion region
    let mode ← Editing.check
      (arguments.kind.build arguments.blockSize arguments.sigma arguments.color)
    Editing.setMode mode
  | none, none => Editing.check (.error (.missingSetting "image"))
  match arguments.output with
  | some output => Editing.setOutput (some output)
  | none => pure ()

/-- Redacts an image, after storing the job where that is asked for. -/
def RedactArguments.perform [ImageLibrary] (arguments : RedactArguments) (outputPath : String)
    (format : Option OutputFormat) (now : Instant) : Script Unit := do
  let ((), session) ← ask fun tree => Session.new.perform (arguments.prepare now tree)
  match arguments.saveJob with
  | some path =>
    change fun tree => (session.perform (Editing.save path tree)).map Prod.fst
    say s!"💾 Job saved to: {path}"
  | none => pure ()
  let job ← lift session.require
  let path ← Script.perform (.redact job) outputPath format
  say s!"✅ Redacted {job.regions.length} region(s)"
  say s!"📁 Output saved to: {path}"

/-- The graph in a file, which has to have the extension of graphs. -/
def readGraph (path : String) (tree : FileTree) : Except Fault Graph := do
  Check.extension "graph" [graphExtension] path
  Graph.load (← tree.readText path) Registry.full

/-- Renders a graph.  Its image is named after the graph where no name is given. -/
def renderGraph [ImageLibrary] (path : String) (output : Option String) (outputPath : String)
    (format : Option OutputFormat) : Script Unit := do
  let graph ← ask (readGraph path)
  let stem := (Path.stem? path).getD "graph"
  let written ← Script.perform (.render graph (output.getD s!"{stem}.png")) outputPath format
  say "✅ Graph rendered"
  say s!"📁 Output saved to: {written}"

/-- The images of a graph that can be read. -/
def readableImages [ImageLibrary] (graph : Graph) (tree : FileTree) : Images :=
  graph.imageSources.filterMap fun (key, path) =>
    match tree.read path >>= Picture.ofFile path with
    | .ok picture => some (key, picture.toRgb)
    | .error _ => none

/-- The line about the state of a node. -/
def statusLine (status : NodeStatus) : String :=
  match status.state with
  | .ready type => s!"  ✅ {status.id} ({status.kind.name}) -> {type.name}"
  | .missing slot => s!"  ⚠️ {status.id} ({status.kind.name}) missing input on {slot}"
  | .invalid reason => s!"  ❌ {status.id} ({status.kind.name}) {reason}"

/-- Shows the state of every node of a graph. -/
def inspectGraph [ImageLibrary] (path : String) : Script Unit := do
  let graph ← ask (readGraph path)
  let images := readableImages graph (← get).tree
  say s!"📋 {path}: {graph.nodes.length} node(s), {graph.links.length} link(s)"
  let statuses ← Failure.lift ((graph.status images).mapError .broken)
  statuses.forM fun status => say (statusLine status)

/-- A text filled up with blanks to a width. -/
def padded (width : Nat) (s : String) : String :=
  s ++ String.ofList (List.replicate (width - s.length) ' ')

/-- The line about a node kind. -/
def kindLine (kind : NodeKind) : String :=
  let slots := kind.inputs.map fun slot => s!"{slot.label} ({slot.type.name})"
  let inputs := if slots.isEmpty then "-" else ", ".intercalate slots
  s!"  {padded 15 kind.name} {padded 11 kind.title} {inputs} -> {kind.output.name}"

/-- Lists the node kinds. -/
def listNodes : Script Unit := do
  say "🧩 Available nodes:"
  Registry.full.palette.forM fun kind => say (kindLine kind)

/-- Writes a graph that holds only the end node. -/
def newGraph (output : String) : Script Unit := do
  lift (Check.extension "output" [graphExtension] output)
  change fun tree => tree.write output Graph.new.toSaved.encode.toUTF8
  say s!"✅ Empty graph written to: {output}"

/-! ### Invocations -/

namespace Invocation

/-- The steps of an invocation. -/
def perform [ImageLibrary] (invocation : Invocation) (now : Instant) : Script Unit :=
  match invocation.command with
  | .redact arguments => arguments.perform invocation.outputPath invocation.format now
  | .render graph output => renderGraph graph output invocation.outputPath invocation.format
  | .inspect graph => inspectGraph graph
  | .nodes => listNodes
  | .newGraph output => Darkroom.newGraph output

/-- The settings that all commands share are usable. -/
def validate (invocation : Invocation) : Except Fault Unit :=
  Check.path "output_path" invocation.outputPath

/-- The exit code of a command that breaks off. -/
def brokenExitCode : Nat := 101

/-- The outcome of an invocation. -/
def run [ImageLibrary] (invocation : Invocation) (now : Instant) (tree : FileTree) : Outcome :=
  match invocation.validate with
  | .error fault =>
    { exitCode := 1, output := [], messages := [s!"❌ {fault.friendly}"], tree }
  | .ok () =>
    match (invocation.perform now).run.run ⟨tree, []⟩ with
    | (.ok (), console) =>
      { exitCode := 0, output := console.lines, messages := [], tree := console.tree }
    | (.error (.fault fault), console) =>
      { exitCode := fault.exitCode
        output := console.lines
        messages := Batch.faultLines fault
        tree := console.tree }
    | (.error (.broken _), console) =>
      { exitCode := brokenExitCode
        output := console.lines
        messages := []
        tree := console.tree }

end Invocation

/-! ### Programs -/

/-- The help of the main program. -/
def mainHelp : List String :=
  ["Redact image regions and render node-editor graphs", "",
    "Usage: image-redactor [OPTIONS] <COMMAND>", "",
    "Commands:",
    "  redact     Redact regions of one image",
    "  render     Evaluate a saved graph and write the image reaching its end node",
    "  inspect    Show which nodes of a saved graph produce a value",
    "  nodes      List the node kinds that can be placed",
    "  new-graph  Write an empty graph holding only the end node",
    "  help       Print this message or the help of the given subcommand(s)", "",
    "Options:",
    "      --output-path <OUTPUT_PATH>  [default: ./output]",
    "      --format <FORMAT>            Force an output format instead of following the output file extension",
    "      --verbose                    Enable verbose output",
    "      --monitor                    Log CPU and memory usage per phase",
    "  -h, --help                       Print help"]

/-- The help of the batch program. -/
def batchHelp : List String :=
  ["Run the redaction jobs and graphs listed in a TOML file", "",
    "Usage: toml-redact [OPTIONS]", "",
    "Options:",
    "  -c, --config <CONFIG>    Path to TOML configuration file [default: redact.toml]",
    "  -v, --verbose            Enable verbose output",
    "      --monitor <MONITOR>  Override monitoring setting from config [possible values: true, false]",
    "      --json-logs          Emit JSON log lines",
    "      --dry-run            Dry run - show what would be processed without executing",
    "  -h, --help               Print help"]

/-- The outcome of a command line that cannot be run: help that was asked for is output, and help
for want of any word is a message. -/
def CommandLine.Misuse.outcome (misuse : Misuse) (help : List String) (tree : FileTree) : Outcome :=
  { exitCode := misuse.exitCode
    output := if misuse = .helpWanted then help else []
    messages :=
      if misuse = .helpWanted then []
      else if misuse = .nothingGiven then help
      else [s!"error: {misuse.message}", "", "For more information, try '--help'."]
    tree }

/-- The outcome of the main program. -/
def mainProgram [ImageLibrary] (words : List String) (now : Instant) (tree : FileTree) : Outcome :=
  match Invocation.read words with
  | .ok invocation => invocation.run now tree
  | .error misuse => misuse.outcome mainHelp tree

/-- The outcome of the batch program. -/
def batchProgram [ImageLibrary] (words : List String) (env : Text.Environment) (now : Instant)
    (tree : FileTree) : Outcome :=
  match BatchRequest.read words with
  | .ok request => request.run env now tree
  | .error misuse => misuse.outcome batchHelp tree

/-! ### What a program looks at -/

/-- The images of a graph file, as far as it can be read. -/
def graphSources (path : String) (tree : FileTree) : List String :=
  match tree.readText path >>= fun text => Graph.load text Registry.full with
  | .ok graph => graph.imageSources.map Prod.snd
  | .error _ => []

/-- The image and the output of a job file, as far as it can be read. -/
def jobPaths (path : String) (outputPath : String) (tree : FileTree) : List String :=
  match tree.readText path >>= Job.decode with
  | .ok job => [job.source, Path.join outputPath job.outputName]
  | .error _ => []

/-- The paths that an invocation looks at, as far as files that it reads first are known. -/
def Invocation.paths (invocation : Invocation) (tree : FileTree) : List String :=
  let output (name : String) : String := Path.join invocation.outputPath name
  invocation.outputPath :: match invocation.command with
  | .redact a =>
    a.image.toList ++ a.saveJob.toList ++ (a.output.map output).toList ++ a.job.toList
      ++ (a.job.map fun path => jobPaths path invocation.outputPath tree).getD []
  | .render graph name => graph :: (name.map output).toList ++ graphSources graph tree
  | .inspect graph => graph :: graphSources graph tree
  | .nodes => []
  | .newGraph path => [path]

/-- The paths that a request looks at, as far as files that it reads first are known. -/
def BatchRequest.paths (request : BatchRequest) (env : Text.Environment) (tree : FileTree) :
    List String :=
  request.config :: match request.load env tree with
  | .error _ => []
  | .ok config =>
    let output (name : String) : String := Path.join config.outputPath name
    let ofJob (entry : JobEntry) : List String :=
      entry.source.toList ++ (entry.output.map output).toList ++ entry.file.toList
        ++ (entry.file.map fun path => jobPaths path config.outputPath tree).getD []
    let ofGraph (entry : GraphEntry) : List String :=
      entry.file :: output entry.output :: graphSources entry.file tree
    config.outputPath :: config.jobs.flatMap ofJob ++ config.graphs.flatMap ofGraph

end Darkroom
