import Darkroom.Check
import Darkroom.Color

/-!
# Redaction modes

What is done to a region: filled with a colour, cut into blocks of one colour each, or blurred.

## Main definitions

* `Mode`, `Mode.validate` : a mode and the bounds of its parameter.
* `ModeKind`, `ModeKind.build` : a mode from its kind and parameters that may be left out.
-/

namespace Darkroom

/-- How a region is hidden. -/
inductive Mode where
  | fill (color : Rgba)
  | pixelate (blockSize : UInt32)
  | blur (sigma : Float32)
  deriving BEq, DecidableEq, Repr

namespace Mode

/-- The side of a block where none is given. -/
def defaultBlockSize : UInt32 := 10

/-- The width of a blur where none is given. -/
def defaultSigma : Float32 := 8.0

/-- The colour of a fill where none is given: solid black. -/
def defaultColor : Rgba := ⟨0, 0, 0, 255⟩

/-- The greatest width of a blur. -/
def maxSigma : Float32 := 100.0

/-- The mode of a new job. -/
def initial : Mode := .pixelate defaultBlockSize

/-- The name of a mode. -/
def name : Mode → String
  | fill _ => "fill"
  | pixelate _ => "pixelate"
  | blur _ => "blur"

/-- Blocks have a side of at least one, and a blur's width is above zero and at most
`maxSigma`. -/
def validate : Mode → Except Fault Unit
  | fill _ => .ok ()
  | pixelate blockSize => Check.atLeast "mode.block_size" blockSize.toNat 1
  | blur sigma =>
    if sigma ≤ 0.0 then
      .error (.invalidValue "mode.sigma" (Numeric.plainText32 sigma) "Sigma must be greater than 0")
    else Check.singleWithin "mode.sigma" sigma 0.0 maxSigma

end Mode

/-- A mode as it is named on the command line and in batch files. -/
inductive ModeKind where
  | fill
  | pixelate
  | blur
  deriving DecidableEq, Repr

namespace ModeKind

/-- The name of a kind. -/
def name : ModeKind → String
  | fill => "fill"
  | pixelate => "pixelate"
  | blur => "blur"

/-- All kinds. -/
def all : List ModeKind := [fill, pixelate, blur]

/-- The kind with exactly this name. -/
def ofName? (s : String) : Option ModeKind := all.find? (·.name = s)

/-- The mode of a kind, with defaults for the parameters left out; only the parameter that the
kind uses is looked at. -/
def build (kind : ModeKind) (blockSize : Option UInt32) (sigma : Option Float32)
    (color : Option String) : Except Fault Mode := do
  let mode ← match kind with
    | fill => match color with
      | some text => (Color.read text).map Mode.fill
      | none => .ok (Mode.fill Mode.defaultColor)
    | pixelate => .ok (Mode.pixelate (blockSize.getD Mode.defaultBlockSize))
    | blur => .ok (Mode.blur (sigma.getD Mode.defaultSigma))
  mode.validate
  return mode

end ModeKind

end Darkroom
