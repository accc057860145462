import Darkroom.Batch.Run
import Darkroom.CommandLine.Options

/-!
# Command lines of the two programs

## Main definitions

* `Command`, `Invocation` : what the main program is asked to do.
* `Invocation.read` : the invocation that a command line stands for.
* `BatchRequest.read` : the request that a command line of the batch program stands for.
-/

namespace Darkroom

open CommandLine

/-- What to redact: a saved job, or an image and what to do with it. -/
structure RedactArguments where
  job : Option String
  image : Option String
  regions : List Region
  kind : ModeKind
  blockSize : Option UInt32
  sigma : Option Float32
  color : Option String
  saveJob : Option String
  output : Option String

/-- A command of the main program. -/
inductive Command where
  | redact (arguments : RedactArguments)
  | render (graph : String) (output : Option String)
  | inspect (graph : String)
  | nodes
  | newGraph (output : String)

/-- A command and the settings that all commands share. -/
structure Invocation where
  outputPath : String
  format : Option OutputFormat
  verbose : Bool
  monitor : Bool
  command : Command

/-! ### Values -/

/-- A number from zero up to, not including, `2 ^ 32`.  A sign may stand in front, also of zero. -/
def readWord32? (s : String) : Option UInt32 :=
  match Numeric.integer? 63 s.toList with
  | some n => if 0 ≤ n ∧ n < UInt32.size then some (UInt32.ofNat n.toNat) else none
  | none => none

/-- A truth value. -/
def readBool? (s : String) : Option Bool :=
  if s = "true" then some true else if s = "false" then some false else none

/-- A region. -/
def readRegion? (s : String) : Option Region := (Region.read s).toOption

/-- An output format, by extension. -/
def readFormat? (s : String) : Option OutputFormat := (OutputFormat.ofExtension s).toOption

/-! ### The main program -/

/-- The options of every command. -/
def sharedSwitches : List Switch :=
  [.text "output-path", .read "format" readFormat? .unusableValue, .flag "verbose", .flag "monitor",
    .help]

/-- The options of the command that redacts. -/
def redactSwitches : List Switch :=
  [.text "job", .text "image", (Switch.read "region" readRegion? .unusableValue).repeated,
    .read "mode" ModeKind.ofName? .unknownAlternative,
    .read "block-size" readWord32? .unusableValue, .read "sigma" Numeric.single? .unusableValue,
    .text "color", .text "save-job", .text "output"]

/-- The value of an option that has to be given. -/
def neededValue (g : Given) (name : String) : Except Misuse String :=
  match g.get? name with
  | some value => .ok value
  | none => .error .missingArgument

/-- The options of a command by name, and how the command is made from them. -/
def commandNamed (name : String) : List Switch × (Given → Except Misuse Command) :=
  if name = "redact" then
    (redactSwitches, fun g =>
      if g.has "job" && (g.has "image" || g.has "region") then .error .conflict
      else if !g.has "job" && !g.has "image" then .error .missingArgument
      else .ok (.redact
        { job := g.get? "job"
          image := g.get? "image"
          regions := (g.all "region").filterMap readRegion?
          kind := ((g.get? "mode").bind ModeKind.ofName?).getD .pixelate
          blockSize := (g.get? "block-size").bind readWord32?
          sigma := (g.get? "sigma").bind Numeric.single?
          color := g.get? "color"
          saveJob := g.get? "save-job"
          output := g.get? "output" }))
  else if name = "render" then
    ([.text "graph", .text "output"], fun g => do
      return .render (← neededValue g "graph") (g.get? "output"))
  else if name = "inspect" then
    ([.text "graph"], fun g => do return .inspect (← neededValue g "graph"))
  else if name = "nodes" then ([], fun _ => .ok .nodes)
  else ([.text "output"], fun g => do return .newGraph (← neededValue g "output"))

/-- The names of the commands. -/
def commandNames : List String := ["redact", "render", "inspect", "nodes", "new-graph"]

/-- What comes of asking for help on a command: help, unless there is no such command. -/
def helpOn : List String → Misuse
  | [] => .helpWanted
  | [name] => if name = "help" ∨ name ∈ commandNames then .helpWanted else .unknownCommand
  | _ => .unknownCommand

namespace Invocation

/-- An invocation from the options before and after the name of its command.  Those after the name
come first. -/
def ofGiven (before after : Given) (command : Command) : Invocation :=
  let value? (name : String) : Option String := (after.get? name).or (before.get? name)
  { outputPath := (value? "output-path").getD "./output"
    format := (value? "format").bind readFormat?
    verbose := before.has "verbose" || after.has "verbose"
    monitor := before.has "monitor" || after.has "monitor"
    command }

/-- The invocation that a command line stands for, the program's name left out.  The part after the
name of the command is looked at first. -/
def read (words : List String) : Except Misuse Invocation := do
  match ← scan sharedSwitches ("help" :: commandNames) Given.none words with
  | (before, none) =>
    let before ← before.settle
    .error (if before.values.isEmpty then .nothingGiven else .missingCommand)
  | (before, some (name, words)) =>
    if name = "help" then .error (helpOn words)
    else
      let (switches, build) := commandNamed name
      let after ← scanAll (sharedSwitches ++ switches) words
      let command ← build after
      return ofGiven (← before.settle) after command

end Invocation

/-! ### The batch program -/

/-- The options of the batch program. -/
def batchSwitches : List Switch :=
  [(Switch.text "config").withLetter 'c', (Switch.flag "verbose").withLetter 'v',
    .read "monitor" readBool? .unknownAlternative, .flag "json-logs", .flag "dry-run", .help]

/-- The request that a command line of the batch program stands for, the program's name left out. -/
def BatchRequest.read (words : List String) : Except Misuse BatchRequest := do
  let g ← scanAll batchSwitches words
  return {
    config := (g.get? "config").getD "redact.toml"
    verbose := g.has "verbose"
    monitor := (g.get? "monitor").bind readBool?
    jsonLogs := g.has "json-logs"
    dryRun := g.has "dry-run" }

end Darkroom
