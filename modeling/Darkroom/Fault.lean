/-!
# Faults

Everything that can go wrong, one constructor per cause, with the wording in `Fault.message`.
A fault also has a category, a severity (which decides the exit code of a command) and a
suggestion for the user.

## Main definitions

* `Fault` : the causes.
* `Fault.message` : the wording.
* `Fault.category`, `Fault.severity`, `Fault.suggestion`, `Fault.friendly`, `Fault.exitCode`.
-/

namespace Darkroom

/-- What kept a file from being read or written. -/
inductive FileProblem where
  | notFound
  | notText
  | isDirectory
  | notDirectory
  | alreadyExists
  | invalidName
  | interrupted
  | other
  deriving DecidableEq, Repr

/-- What is wrong with a JSON text: not well formed, ended too early, or well formed but not of the
expected shape. -/
inductive JsonProblem where
  | malformed
  | truncated
  | mistyped
  deriving DecidableEq, Repr

/-- A cause of failure. -/
inductive Fault where
  | file (problem : FileProblem) (detail : String)
  | json (problem : JsonProblem)
  | codec (detail : String)
  | unreadableImage (source reason : String)
  | unsupportedFormat (format : String)
  | configuration (message : String)
  | rejectedConfiguration (field message : String)
  | invalidValue (field value reason : String)
  | missingSetting (field : String)
  | unknownNode (id : String)
  | unknownSlot (node slot : String)
  | typeMismatch (node slot expected found : String)
  | missingInput (node slot : String)
  | invalidParameter (node reason : String)
  | cycle (node : String)
  | duplicateNode (id : String)
  | protectedNode (id : String)
  | processing (message : String)
  | validation (message : String)
  deriving DecidableEq, Repr

/-- The part of the program that a fault belongs to. -/
inductive Category where
  | io
  | image
  | graph
  | configuration
  | serialization
  | processing
  deriving DecidableEq, Repr

/-- How grave a fault is. -/
inductive Severity where
  | low
  | medium
  | high
  | critical
  deriving DecidableEq, Repr

/-- The position on the scale from `low` to `critical`. -/
def Severity.rank : Severity → Nat
  | .low => 0
  | .medium => 1
  | .high => 2
  | .critical => 3

/-- The exit code of a command whose gravest fault has a severity. -/
def Severity.exitCode : Severity → Nat
  | .low | .high => 1
  | .medium => 2
  | .critical => 3

/-- The words for a JSON problem. -/
def JsonProblem.detail : JsonProblem → String
  | .malformed => "not well formed"
  | .truncated => "ends too early"
  | .mistyped => "not of the expected shape"

namespace Fault

/-- The wording of a fault. -/
def message : Fault → String
  | file _ detail => s!"IO error: {detail}"
  | json problem => s!"Serialization error: {problem.detail}"
  | codec detail => s!"Image codec error: {detail}"
  | unreadableImage source reason => s!"Unreadable image '{source}': {reason}"
  | unsupportedFormat format => s!"Unsupported image format: {format}"
  | configuration message => s!"Configuration error: {message}"
  | rejectedConfiguration field message =>
    s!"Configuration validation failed for '{field}': {message}"
  | invalidValue field value reason => s!"Invalid value '{value}' for '{field}': {reason}"
  | missingSetting field => s!"Missing required configuration: {field}"
  | unknownNode id => s!"Unknown node: {id}"
  | unknownSlot node slot => s!"Node '{node}' has no input slot '{slot}'"
  | typeMismatch node slot expected found =>
    s!"Type mismatch on '{node}.{slot}': expected {expected}, found {found}"
  | missingInput node slot => s!"Node '{node}' is missing input '{slot}'"
  | invalidParameter node reason => s!"Invalid parameter on node '{node}': {reason}"
  | cycle node => s!"Linking into '{node}' would create a cycle"
  | duplicateNode id => s!"Duplicate node id: {id}"
  | protectedNode id => s!"The end node '{id}' cannot be removed"
  | processing message => s!"Data processing error: {message}"
  | validation message => s!"Validation error: {message}"

/-- The category of a fault. -/
def category : Fault → Category
  | file .. => .io
  | json .. => .serialization
  | codec .. | unreadableImage .. | unsupportedFormat .. => .image
  | configuration .. | rejectedConfiguration .. | invalidValue .. | missingSetting .. =>
    .configuration
  | unknownNode .. | unknownSlot .. | typeMismatch .. | missingInput .. | invalidParameter ..
  | cycle .. | duplicateNode .. | protectedNode .. => .graph
  | processing .. | validation .. => .processing

/-- The severity of a fault.  A missing input leaves the graph editable and nothing written, so it
ranks lowest; files that cannot be reached rank highest, unless the access was interrupted. -/
def severity : Fault → Severity
  | missingInput .. => .low
  | file .interrupted _ => .medium
  | file .. => .critical
  | processing .. => .medium
  | _ => .high

/-- What the user can do about a fault. -/
def suggestion : Fault → String
  | file .. => "Check that the path exists and that you have permission to read and write it"
  | json .. => "The file is not valid JSON for this tool; re-save it from image-redactor"
  | codec .. | unreadableImage .. =>
    "The image appears to be corrupt; try re-exporting it as PNG or JPEG"
  | unsupportedFormat .. => "Use a .png, .jpg, .jpeg or .bmp file"
  | configuration .. | rejectedConfiguration .. | invalidValue .. =>
    "Fix the configuration value and run again"
  | missingSetting field => s!"Add '{field}' to the configuration"
  | unknownNode .. | unknownSlot .. =>
    "The graph file references nodes that do not exist; re-save it"
  | typeMismatch _ _ expected _ => s!"Connect an output of type {expected} to this slot"
  | missingInput _ slot => s!"Connect a node to '{slot}'"
  | invalidParameter .. => "Adjust the value node feeding this filter"
  | cycle .. => "Remove the link that feeds a node's output back into itself"
  | duplicateNode .. => "Give every node a unique id"
  | protectedNode .. => "Every graph keeps exactly one end node"
  | processing .. => "Retry the operation"
  | validation .. => "Check the input described above and try again"

/-- The wording of a fault with the area that it comes from in front. -/
def friendly (fault : Fault) : String :=
  match fault.category with
  | .io => s!"Could not access a file: {fault.message}"
  | .image => s!"Image problem: {fault.message}"
  | .graph => s!"Node graph problem: {fault.message}"
  | .configuration => s!"Configuration problem: {fault.message}"
  | .serialization => s!"Could not read or write a file: {fault.message}"
  | .processing => s!"Processing failed: {fault.message}"

/-- The exit code of a command that ends with a fault. -/
def exitCode (fault : Fault) : Nat := fault.severity.exitCode

end Fault

end Darkroom
