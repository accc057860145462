import Darkroom.Fault
import Darkroom.Path
import Darkroom.Text.Lowercase

/-!
# Output formats

The formats that images are written in, and the file extensions that name them.

## Main definitions

* `OutputFormat` : the formats.
* `OutputFormat.ofExtension`, `OutputFormat.ofPath` : the format that a name asks for.
* `OutputFormat.extension`, `OutputFormat.ofWord?` : the words for a format.
-/

namespace Darkroom

/-- A format that images are written in. -/
inductive OutputFormat where
  | png
  | jpeg
  | bmp
  deriving DecidableEq, Repr

namespace OutputFormat

/-- The extensions that name a format. -/
def extensions : List String := ["png", "jpg", "jpeg", "bmp"]

/-- The format that an extension names, in any case. -/
def ofExtension (extension : String) : Except Fault OutputFormat :=
  let lower := Text.toLower extension
  if lower = "png" then .ok png
  else if lower = "jpg" ∨ lower = "jpeg" then .ok jpeg
  else if lower = "bmp" then .ok bmp
  else .error (.unsupportedFormat lower)

/-- The format that the extension of a path names. -/
def ofPath (path : String) : Except Fault OutputFormat :=
  match Path.extension? path with
  | some extension => ofExtension extension
  | none => .error (.unsupportedFormat s!"'{path}' has no extension")

/-- The extension that files of a format get. -/
def extension : OutputFormat → String
  | png => "png"
  | jpeg => "jpg"
  | bmp => "bmp"

/-- The word for a format in configuration files. -/
def word : OutputFormat → String
  | png => "png"
  | jpeg => "jpeg"
  | bmp => "bmp"

/-- The format of a word in a configuration file, `jpg` being another word for `jpeg`. -/
def ofWord? (s : String) : Option OutputFormat :=
  if s = "png" then some png
  else if s = "jpeg" ∨ s = "jpg" then some jpeg
  else if s = "bmp" then some bmp
  else none

end OutputFormat

end Darkroom
