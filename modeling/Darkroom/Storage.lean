import Darkroom.FileTree

/-!
# Storage

Where runs read their sources and write their results.  A store is a value; writing gives the store
after it, also when it fails.

## Main definitions

* `Storage` : reading and writing by name.
* `FileMap` : files by name, all in one place.
* `OutputDirectory` : a file tree with a directory that results are written under.
-/

namespace Darkroom

/-- Reading and writing files by name. -/
class Storage (σ : Type) where
  read : σ → String → Except Fault ByteArray
  /-- Writes a file; gives where it went, and the store afterwards. -/
  write : σ → String → ByteArray → Except Fault String × σ

/-- Files by name. -/
abbrev FileMap := List (String × ByteArray)

namespace FileMap

/-- The file of a name. -/
def read (files : FileMap) (name : String) : Except Fault ByteArray :=
  match files.lookup name with
  | some data => .ok data
  | none => .error (FileTree.fault .notFound)

/-- The files with one set. -/
def put (files : FileMap) (name : String) (data : ByteArray) : FileMap :=
  files.filter (fun entry => entry.1 ≠ name) ++ [(name, data)]

end FileMap

instance : Storage FileMap where
  read := FileMap.read
  write files name data := (.ok name, files.put name data)

/-- A file tree whose results go under a base directory; sources are read as named. -/
structure OutputDirectory where
  base : String
  tree : FileTree

namespace OutputDirectory

/-- Writes a file under the base directory, making the directories that are missing. -/
def write (store : OutputDirectory) (name : String) (data : ByteArray) :
    Except Fault String × OutputDirectory :=
  let path := Path.join store.base name
  let (made, tree) := match Path.parent? path with
    | some parent => store.tree.makeDirectories parent
    | none => (.ok (), store.tree)
  match made with
  | .error p => (.error (FileTree.fault p), { store with tree })
  | .ok () =>
    match tree.write path data with
    | .ok tree => (.ok path, { store with tree })
    | .error fault => (.error fault, { store with tree })

end OutputDirectory

instance : Storage OutputDirectory where
  read store name := store.tree.read name
  write := OutputDirectory.write

end Darkroom
