import Darkroom.Codec.Library
import Darkroom.CommandLine.Run
import Std.Time.DateTime.Timestamp

/-!
# The command line

One executable holds both programs; it is the batch program when it goes by that program's name.
The files that a run looks at are loaded, the run is made on them, and what it changed is stored.
-/

namespace Darkroom

/-- What there is at a path. -/
inductive Finding where
  | file (data : ByteArray)
  | directory
  | nothing

/-- Looks at a path. -/
def find (path : String) : IO Finding := do
  try return .file (← IO.FS.readBinFile path)
  catch problem =>
    match problem with
    | .inappropriateType .. => return .directory
    | _ => return .nothing

/-- The path of a location. -/
def absolute (l : Location) : String := "/" ++ "/".intercalate l

/-- Loads what there is at a location and above it. -/
def loadLocation (tree : FileTree) (l : Location) : IO FileTree := do
  let mut tree := tree
  for n in List.range l.length do
    let above := l.take (n + 1)
    match ← find (absolute above) with
    | .file data => tree := tree.put above data
    | .directory => tree := { tree with directories := above :: tree.directories }
    | .nothing => pure ()
  return tree

/-- The location that a path names, steps upwards taken by name. -/
def locate (tree : FileTree) (path : String) : Location :=
  let step (l : Location) (name : String) : Location :=
    if name = "." then l else if name = ".." then FileTree.above l else l ++ [name]
  (FileTree.steps path).foldl step (if Path.isAbsolute path then [] else tree.working)

/-- Loads what a run looks at.  What it finds there can make it look at more, once for each
round. -/
def loadAll (paths : FileTree → List String) : (rounds : Nat) → FileTree → IO FileTree
  | 0, tree => pure tree
  | rounds + 1, tree => do
    let tree ← (paths tree).foldlM (fun t path => loadLocation t (locate t path)) tree
    loadAll paths rounds tree

/-- Stores the directories and files that a run has made or changed. -/
def storeChanges (before after : FileTree) : IO Unit := do
  for l in after.directories do
    unless before.directories.contains l do IO.FS.createDirAll (absolute l)
  for (l, data) in after.files do
    unless before.file? l == some data do IO.FS.writeBinFile (absolute l) data

/-- The values of the variables that a batch file refers to. -/
def environmentFor (text : String) : IO Text.Environment := do
  let values ← (Text.references text.toList).mapM fun name => return (name, ← IO.getEnv name)
  return fun name => (values.lookup name).join

/-- The present instant. -/
def present : IO Instant := do
  let now ← Std.Time.Timestamp.now
  let nanos := now.toNanosecondsSinceUnixEpoch.val
  let seconds := nanos / 1000000000
  return ⟨719468 + seconds / 86400, (seconds % 86400).toNat, (nanos % 1000000000).toNat⟩

/-- Prints the lines of an outcome and stores its files. -/
def finish (before : FileTree) (outcome : Outcome) : IO UInt32 := do
  storeChanges before outcome.tree
  outcome.output.forM fun line => IO.println line
  outcome.messages.forM fun line => IO.eprintln line
  return UInt32.ofNat outcome.exitCode

/-- Runs the main program. -/
def runMain (words : List String) (tree : FileTree) : IO UInt32 := do
  let tree ← match Invocation.read words with
    | .ok invocation => loadAll invocation.paths 2 tree
    | .error _ => pure tree
  finish tree (mainProgram words (← present) tree)

/-- Runs the batch program. -/
def runBatch (words : List String) (tree : FileTree) : IO UInt32 := do
  match BatchRequest.read words with
  | .error _ => finish tree (batchProgram words (fun _ => none) (← present) tree)
  | .ok request =>
    let tree ← loadLocation tree (locate tree request.config)
    let env ← environmentFor ((tree.readText request.config).toOption.getD "")
    let tree ← loadAll (request.paths env) 3 tree
    finish tree (batchProgram words env (← present) tree)

end Darkroom

open Darkroom

/-- Runs the program that the executable is named for. -/
def main (words : List String) : IO UInt32 := do
  let working := FileTree.steps (toString (← IO.currentDir))
  let tree ← loadLocation ⟨[], [], working⟩ working
  if Path.fileName? (toString (← IO.appPath)) = some "toml-redact" then runBatch words tree
  else runMain words tree
