/-!
# File paths

A path is a text with `/` between its components.  Empty components and `.` count for nothing,
except a `.` at the start of a relative path.  The final component is a file name unless it is
`.` or `..`; its extension is what follows the last point, where a point at the very start
does not count.

## Main definitions

* `Path.components` : the components in order.
* `Path.fileName?`, `Path.stem?`, `Path.extension?` : the final component and its two parts.
* `Path.withExtension` : the path with another extension.
* `Path.join` : a path taken relative to another one.
* `Path.parent?` : the path without its last component.
-/

namespace Darkroom.Path

/-- One component of a path. -/
inductive Component where
  | root
  | current
  | up
  | name (text : String)
  deriving DecidableEq, Repr

/-- The pieces of a text between slashes, each with the number of characters before its end. -/
def piecesFrom (start : Nat) (piece : List Char) : List Char → List (String × Nat)
  | [] => [(String.ofList piece.reverse, start)]
  | c :: rest =>
    if c = '/' then (String.ofList piece.reverse, start) :: piecesFrom (start + 1) [] rest
    else piecesFrom (start + 1) (c :: piece) rest

/-- The components of a path that starts at a slash or after one, each with its end position. -/
def bodyComponents (pieces : List (String × Nat)) : List (Component × Nat) :=
  pieces.filterMap fun (piece, stop) =>
    if piece = "" ∨ piece = "." then none
    else if piece = ".." then some (.up, stop)
    else some (.name piece, stop)

/-- The components of a path, each with the number of characters up to its end. -/
def located (path : String) : List (Component × Nat) :=
  let pieces := piecesFrom 0 [] path.toList
  let body := bodyComponents pieces
  if path.toList.head? = some '/' then (.root, 1) :: body
  else if (pieces.head?.map Prod.fst) = some "." then (.current, 1) :: body
  else body

/-- The components of a path. -/
def components (path : String) : List Component := (located path).map Prod.fst

/-- The final component and its end position, where it is a name. -/
def finalName? (path : String) : Option (String × Nat) :=
  match (located path).getLast? with
  | some (.name text, stop) => some (text, stop)
  | _ => none

/-- The final component, where it is a name. -/
def fileName? (path : String) : Option String := (finalName? path).map Prod.fst

/-- A file name cut at its last point, where one stands after the first character. -/
def splitName (name : String) : String × Option String :=
  let reversed := name.toList.reverse
  let extension := reversed.takeWhile (· ≠ '.')
  let before := (reversed.dropWhile (· ≠ '.')).drop 1
  if extension.length = reversed.length ∨ before = [] then (name, none)
  else (String.ofList before.reverse, some (String.ofList extension.reverse))

/-- The file name without its extension. -/
def stem? (path : String) : Option String := (fileName? path).map fun name => (splitName name).1

/-- The extension of the file name. -/
def extension? (path : String) : Option String :=
  (fileName? path).bind fun name => (splitName name).2

/-- The path with its extension replaced or added; unchanged where there is no file name. -/
def withExtension (path extension : String) : String :=
  match finalName? path with
  | none => path
  | some (name, stop) =>
    let stem := (splitName name).1
    let kept := String.ofList (path.toList.take (stop - (name.length - stem.length)))
    if extension = "" then kept else kept ++ "." ++ extension

/-- Whether a path starts at the root. -/
def isAbsolute (path : String) : Bool := path.toList.head? = some '/'

/-- `path` taken relative to `base`; an absolute path stands for itself. -/
def join (base path : String) : String :=
  if isAbsolute path then path
  else if base = "" ∨ base.toList.getLast? = some '/' then base ++ path
  else base ++ "/" ++ path

/-- The path up to its last component; `none` at the root and for the empty path. -/
def parent? (path : String) : Option String :=
  match (located path).reverse with
  | [] => none
  | (.root, _) :: _ => none
  | _ :: [] => some ""
  | _ :: (_, stop) :: _ => some (String.ofList (path.toList.take stop))

end Darkroom.Path
