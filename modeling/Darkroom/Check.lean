import Darkroom.Fault
import Darkroom.Numeric.Decimal
import Darkroom.Path
import Darkroom.Text.Blank
import Darkroom.Text.Lowercase

/-!
# Checks of single values

Checks that configuration and files share.  Each names the field that it looks at in its fault.

## Main definitions

* `Check.path`, `Check.atLeast`, `Check.extensions`, `Check.required`, `Check.nonBlank`
* `Check.singleWithin`, `Check.integerWithin`
-/

namespace Darkroom.Check

/-- A path is not empty and holds no NUL. -/
def path (field value : String) : Except Fault Unit :=
  if value.isEmpty then .error (.invalidValue field value "Path cannot be empty")
  else if value.toList.contains '\x00' then
    .error (.invalidValue field value "Path contains null bytes")
  else .ok ()

/-- A number is not below its minimum. -/
def atLeast (field : String) (value least : Nat) : Except Fault Unit :=
  if value < least then
    .error (.invalidValue field (toString value) s!"Value must be at least {least}")
  else .ok ()

/-- A file name has one of the allowed extensions, in any case. -/
def extension (field : String) (allowed : List String) (file : String) : Except Fault Unit :=
  match (Path.extension? file).map Text.toLower with
  | some found =>
    if allowed.contains found then .ok ()
    else
      let list := ", ".intercalate allowed
      .error (.invalidValue field file
        s!"Unsupported file extension: {found}. Allowed extensions: {list}")
  | none => .error (.invalidValue field file "File has no extension or invalid filename")

/-- All file names have one of the allowed extensions. -/
def extensions (field : String) (allowed : List String) : (files : List String) → Except Fault Unit
  | [] => .ok ()
  | file :: files => do
    extension field allowed file
    extensions field allowed files

/-- A setting is there. -/
def required {α : Type} (field : String) : Option α → Except Fault α
  | some x => .ok x
  | none => .error (.missingSetting field)

/-- A text has a character that is not blank. -/
def nonBlank (field value : String) : Except Fault Unit :=
  if value.toList.all Text.isBlank then
    .error (.invalidValue field value "Value cannot be empty or whitespace-only")
  else .ok ()

/-- The fault of a value outside its bounds. -/
def outside (field value low high : String) : Fault :=
  .invalidValue field value s!"Value must be between {low} and {high}"

/-- A number lies within its bounds; not-a-number lies within none. -/
def singleWithin (field : String) (value low high : Float32) : Except Fault Unit :=
  if value ≥ low && value ≤ high then .ok ()
  else .error (outside field (Numeric.plainText32 value) (Numeric.plainText32 low)
    (Numeric.plainText32 high))

/-- An integer lies within its bounds. -/
def integerWithin (field : String) (value low high : Int) : Except Fault Unit :=
  if low ≤ value ∧ value ≤ high then .ok ()
  else .error (outside field (toString value) (toString low) (toString high))

end Darkroom.Check
