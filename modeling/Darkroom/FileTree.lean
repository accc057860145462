import Darkroom.Fault
import Darkroom.Path

/-!
# File trees

Files and directories as a value: what is at each location, and the directory that relative paths
start from.  Paths are resolved step by step, so that every directory on the way has to exist.

## Main definitions

* `FileTree` : directories, files and the working directory.
* `FileTree.resolve` : what a path leads to.
* `FileTree.read`, `FileTree.readText`, `FileTree.write`, `FileTree.makeDirectories` : access.
-/

namespace Darkroom

/-- A location: the names from the root on. -/
abbrev Location := List String

/-- Directories and files by location, and the working directory. -/
structure FileTree where
  directories : List Location
  files : List (Location × ByteArray)
  working : Location

/-- What a path leads to: a directory, a file, or a name that is free in an existing directory. -/
inductive Target where
  | directory (location : Location)
  | file (location : Location) (data : ByteArray)
  | free (location : Location)

namespace FileTree

/-- The names between the slashes of a path. -/
def steps (path : String) : List String :=
  ((Path.piecesFrom 0 [] path.toList).map Prod.fst).filter (· ≠ "")

/-- Whether a path can only mean a directory. -/
def wantsDirectory (path : String) : Bool :=
  match ((Path.piecesFrom 0 [] path.toList).map Prod.fst).getLast? with
  | some last => last = "" || last = "."
  | none => false

/-- The directory above a location; the root is above itself. -/
def above (l : Location) : Location := l.dropLast

/-- Whether there is a directory at a location. -/
def isDirectory (t : FileTree) (l : Location) : Bool := l.isEmpty || t.directories.contains l

/-- The file at a location. -/
def file? (t : FileTree) (l : Location) : Option ByteArray := t.files.lookup l

/-- Follows names from an existing directory on. -/
def follow (t : FileTree) (l : Location) : List String → Except FileProblem Target
  | [] => .ok (.directory l)
  | name :: names =>
    if name = "." then t.follow l names
    else if name = ".." then t.follow (above l) names
    else
      let next := l ++ [name]
      if t.isDirectory next then t.follow next names
      else match t.file? next with
        | some data => if names = [] then .ok (.file next data) else .error .notDirectory
        | none => if names = [] then .ok (.free next) else .error .notFound

/-- What a path leads to. -/
def resolve (t : FileTree) (path : String) : Except FileProblem Target :=
  if path = "" then .error .notFound
  else if path.toList.contains '\x00' then .error .invalidName
  else
    match t.follow (if Path.isAbsolute path then [] else t.working) (steps path) with
    | .ok (.file l data) =>
      if wantsDirectory path then .error .notDirectory else .ok (.file l data)
    | other => other

/-- The words for a file problem. -/
def problemText : FileProblem → String
  | .notFound => "no such file or directory"
  | .notText => "the file is not valid text"
  | .isDirectory => "is a directory"
  | .notDirectory => "not a directory"
  | .alreadyExists => "already exists"
  | .invalidName => "the name holds a NUL"
  | .interrupted => "interrupted"
  | .other => "failed"

/-- A file problem as a fault. -/
def fault (p : FileProblem) : Fault := .file p (problemText p)

/-- The contents of a file. -/
def read (t : FileTree) (path : String) : Except Fault ByteArray :=
  match t.resolve path with
  | .ok (.file _ data) => .ok data
  | .ok (.directory _) => .error (fault .isDirectory)
  | .ok (.free _) => .error (fault .notFound)
  | .error p => .error (fault p)

/-- The contents of a text file. -/
def readText (t : FileTree) (path : String) : Except Fault String := do
  match String.fromUTF8? (← t.read path) with
  | some text => .ok text
  | none => .error (fault .notText)

/-- The tree with a file at a location, in place of what was there. -/
def put (t : FileTree) (l : Location) (data : ByteArray) : FileTree :=
  { t with files := t.files.filter (fun entry => entry.1 ≠ l) ++ [(l, data)] }

/-- Writes a file, in a directory that has to exist. -/
def write (t : FileTree) (path : String) (data : ByteArray) : Except Fault FileTree :=
  match t.resolve path with
  | .ok (.file l _) => .ok (t.put l data)
  | .ok (.free l) =>
    if wantsDirectory path then .error (fault .isDirectory) else .ok (t.put l data)
  | .ok (.directory _) => .error (fault .isDirectory)
  | .error p => .error (fault p)

/-- Makes a directory, in a directory that has to exist. -/
def makeDirectory (t : FileTree) (path : String) : Except FileProblem FileTree :=
  match t.resolve path with
  | .ok (.free l) => .ok { t with directories := t.directories ++ [l] }
  | .ok _ => .error .alreadyExists
  | .error p => .error p

/-- Whether a path leads to a directory. -/
def leadsToDirectory (t : FileTree) (path : String) : Bool :=
  match t.resolve path with
  | .ok (.directory _) => true
  | _ => false

/-- Makes a directory unless it is there already; gives the tree afterwards. -/
def settleDirectory (t : FileTree) (path : String) : Except FileProblem Unit × FileTree :=
  match t.makeDirectory path with
  | .ok made => (.ok (), made)
  | .error p => (if t.leadsToDirectory path then .ok () else .error p, t)

/-- Makes a directory and those above it, as far as they are missing; gives the tree afterwards, in
which those made before a failure stay.  Each step goes to the parent, which is shorter, so the
length of the path bounds the number of steps. -/
def makeMissing (t : FileTree) : (fuel : Nat) → String → Except FileProblem Unit × FileTree
  | 0, _ => (.error .other, t)
  | fuel + 1, path =>
    if path = "" then (.ok (), t)
    else match t.settleDirectory path with
      | (.error .notFound, _) =>
        match Path.parent? path with
        | none => (.error .other, t)
        | some parent =>
          match t.makeMissing fuel parent with
          | (.ok (), made) => made.settleDirectory path
          | failed => failed
      | settled => settled

/-- Makes a directory and those above it, as far as they are missing; gives the tree afterwards. -/
def makeDirectories (t : FileTree) (path : String) : Except FileProblem Unit × FileTree :=
  t.makeMissing (path.length + 1) path

/-- A tree with some files under the working directory and the directories that they lie in. -/
def ofFiles (working : Location) (files : List (String × ByteArray)) : FileTree :=
  let start : FileTree :=
    ⟨(List.range working.length).map fun n => working.take (n + 1), [], working⟩
  files.foldl (fun t (path, data) =>
    let t := match Path.parent? path with
      | some parent => (t.makeDirectories parent).2
      | none => t
    (t.write path data).toOption.getD t) start

/-- The files under the working directory, by relative path. -/
def workingFiles (t : FileTree) : List (String × ByteArray) :=
  t.files.filterMap fun (l, data) =>
    if t.working.isPrefixOf l then some ("/".intercalate (l.drop t.working.length), data) else none

end FileTree

end Darkroom
