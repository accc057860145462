import Darkroom.Mode
import Darkroom.OutputFormat
import Darkroom.Region
import Darkroom.Text.Substitution
import Darkroom.Toml.Document

/-!
# Batch files

A batch file is a TOML text that lists redaction jobs and graphs, with the place and format of their
outputs and the parameters of jobs that leave theirs out.  It may refer to environment variables.

## Main definitions

* `JobEntry`, `GraphEntry`, `RedactionDefaults`, `Monitoring` : the parts of a batch file.
* `BatchConfig` : all of it.
* `BatchConfig.read` : the contents of a text.
-/

namespace Darkroom

/-- Parameters of jobs that leave theirs out. -/
structure RedactionDefaults where
  blockSize : Option UInt32
  sigma : Option Float32
  color : Option String
  deriving DecidableEq

/-- A job: a file that holds it, or the image and what to do with it. -/
structure JobEntry where
  file : Option String
  source : Option String
  regions : List Region
  kind : Option ModeKind
  blockSize : Option UInt32
  sigma : Option Float32
  color : Option String
  output : Option String
  deriving DecidableEq

/-- A graph file and the name of the image that it makes. -/
structure GraphEntry where
  file : String
  output : String
  deriving DecidableEq

/-- Whether and how a run is watched. -/
structure Monitoring where
  enabled : Bool
  logLevel : Option String
  systemStats : Option Bool
  deriving DecidableEq

/-- The contents of a batch file. -/
structure BatchConfig where
  name : String
  description : Option String
  version : Option String
  outputPath : String
  format : Option OutputFormat
  defaults : Option RedactionDefaults
  jobs : List JobEntry
  graphs : List GraphEntry
  monitoring : Option Monitoring
  deriving DecidableEq

/-! ### Parts by shape -/

namespace Toml

/-- A field that has to be there. -/
def required? {α : Type} (read : Value → Option α) (field : Option Value) : Option α :=
  field.bind read

/-- A field that may be left out; what is there has to have the right shape. -/
def optional? {α : Type} (read : Value → Option α) : Option Value → Option (Option α)
  | none => some none
  | some value => (read value).map some

/-- A field with a list of which each item has the right shape; empty where it is left out. -/
def listed? {α : Type} (read : Value → Option α) : Option Value → Option (List α)
  | none => some []
  | some value => do (← value.items?).mapM read

end Toml

open Toml

/-- The region in a record of four numbers. -/
def Region.ofToml? (value : Value) : Option Region := do
  match ← value.fields? ["x", "y", "width", "height"] with
  | [x, y, width, height] =>
    return ⟨← required? Value.word32? x, ← required? Value.word32? y,
      ← required? Value.word32? width, ← required? Value.word32? height⟩
  | _ => none

/-- The kind of mode that a value names. -/
def ModeKind.ofToml? (value : Value) : Option ModeKind := value.variant?.bind ModeKind.ofName?

/-- The output format that a value names. -/
def OutputFormat.ofToml? (value : Value) : Option OutputFormat :=
  value.variant?.bind OutputFormat.ofWord?

/-- The default parameters in a record. -/
def RedactionDefaults.ofToml? (value : Value) : Option RedactionDefaults := do
  match ← value.fields? ["block_size", "sigma", "color"] with
  | [blockSize, sigma, color] =>
    return ⟨← optional? Value.word32? blockSize, ← optional? Value.single? sigma,
      ← optional? Value.text? color⟩
  | _ => none

/-- The job in a record. -/
def JobEntry.ofToml? (value : Value) : Option JobEntry := do
  match ← value.fields?
      ["job", "source", "regions", "mode", "block_size", "sigma", "color", "output"] with
  | [file, source, regions, kind, blockSize, sigma, color, output] =>
    return ⟨← optional? Value.text? file, ← optional? Value.text? source,
      ← listed? Region.ofToml? regions, ← optional? ModeKind.ofToml? kind,
      ← optional? Value.word32? blockSize, ← optional? Value.single? sigma,
      ← optional? Value.text? color, ← optional? Value.text? output⟩
  | _ => none

/-- The graph in a record. -/
def GraphEntry.ofToml? (value : Value) : Option GraphEntry := do
  match ← value.fields? ["file", "output"] with
  | [file, output] => return ⟨← required? Value.text? file, ← required? Value.text? output⟩
  | _ => none

/-- The monitoring settings in a record. -/
def Monitoring.ofToml? (value : Value) : Option Monitoring := do
  match ← value.fields? ["enabled", "log_level", "system_stats"] with
  | [enabled, logLevel, systemStats] =>
    return ⟨← required? Value.boolean? enabled, ← optional? Value.text? logLevel,
      ← optional? Value.boolean? systemStats⟩
  | _ => none

namespace BatchConfig

/-- The name, description and version of a batch. -/
def title? (value : Value) : Option (String × Option String × Option String) := do
  match ← value.fields? ["name", "description", "version"] with
  | [name, description, version] =>
    return (← required? Value.text? name, ← optional? Value.text? description,
      ← optional? Value.text? version)
  | _ => none

/-- The directory and the format of the outputs. -/
def target? (value : Value) : Option (String × Option OutputFormat) := do
  match ← value.fields? ["path", "format"] with
  | [path, format] =>
    return (← required? Value.text? path, ← optional? OutputFormat.ofToml? format)
  | _ => none

/-- The contents of the table of a batch file. -/
def ofToml? (members : Members) : Option BatchConfig := do
  let (name, description, version) ← required? title? (members.lookup "batch")
  let (outputPath, format) ← required? target? (members.lookup "output")
  let defaults ← optional? RedactionDefaults.ofToml? (members.lookup "redaction")
  let jobs ← listed? JobEntry.ofToml? (members.lookup "jobs")
  let graphs ← listed? GraphEntry.ofToml? (members.lookup "graphs")
  let monitoring ← optional? Monitoring.ofToml? (members.lookup "monitoring")
  return { name, description, version, outputPath, format, defaults, jobs, graphs, monitoring }

/-- The fault of a text that is not a batch file. -/
def unreadable (reason : String) : Fault :=
  .rejectedConfiguration "toml_parsing" s!"TOML parsing error: {reason}"

/-- The contents of a batch file, after its references to variables have been replaced. -/
def read (env : Text.Environment) (text : String) : Except Fault BatchConfig :=
  match Toml.read? (String.ofList (Text.substitute env text.toList)) with
  | none => .error (unreadable "not well formed")
  | some members =>
    match ofToml? members with
    | none => .error (unreadable "not of the expected shape")
    | some config => .ok config

/-- Whether a run is watched: where it is enabled and not restricted. -/
def isMonitored (config : BatchConfig) : Bool :=
  config.monitoring.any fun m => m.enabled && m.systemStats.getD true

/-- The level of the log. -/
def logLevel? (config : BatchConfig) : Option String := config.monitoring.bind Monitoring.logLevel

end BatchConfig

end Darkroom
