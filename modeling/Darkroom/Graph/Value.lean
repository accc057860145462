import Darkroom.Failure
import Darkroom.Graph.Basic
import Darkroom.Image.Library
import Darkroom.Numeric.Decimal
import Darkroom.Numeric.Reading
import Darkroom.Vision.Caption
import Darkroom.Vision.Filter
import Darkroom.Vision.Warp

/-!
# Values and operations

What nodes produce, and how: a node without inputs reads its data, and any other node applies the
operation of its kind to the values that arrive on its slots. An operation asks for its slots by
their position among the inputs of the kind. It fails on values that it cannot use, and it breaks
off where they lead it to numbers that are no machine words.

## Main definitions

* `Value` : a number, a text or an image.
* `Node.compute` : the value of a node, given how to read its slots.
-/

namespace Darkroom

/-- A value that flows along links. -/
inductive Value where
  | int (n : Int)
  | float (x : Float32)
  | text (s : String)
  | image (raster : Raster Rgb)

/-- The type of a value. -/
def Value.type : Value → ValueType
  | int _ => .int
  | float _ => .float
  | text _ => .string
  | image _ => .image

/-- The integer that a value is. -/
def Value.int? : Value → Option Int
  | int n => some n
  | _ => none

/-- The fractional number that a value is. -/
def Value.float? : Value → Option Float32
  | float x => some x
  | _ => none

/-- The text that a value is. -/
def Value.text? : Value → Option String
  | text s => some s
  | _ => none

/-- The image that a value is. -/
def Value.image? : Value → Option (Raster Rgb)
  | image raster => some raster
  | _ => none

/-- The decoded images of image nodes, by node. -/
abbrev Images := List (String × Raster Rgb)

/-- The image of a node. -/
def Images.get? (images : Images) (id : String) : Option (Raster Rgb) := images.lookup id

namespace Node

/-- The failure of a node whose own values cannot be used. -/
def invalid {α : Type} (node : Node) (reason : String) : Except Failure α :=
  .error (.fault (.invalidParameter node.id reason))

/-- The colour of captions. -/
def captionColor : Rgb := ⟨255, 255, 255⟩

/-- A share of a length, in hundredths. -/
def percent (length : UInt32) (share : Float32) : Float :=
  length.toNat.toFloat * Numeric.widened share / 100.0

/-- The value of a node that has no inputs. -/
def source (node : Node) (images : Images) : Except Failure Value :=
  let data := node.data.getD ""
  match node.kind with
  | .int =>
    match Numeric.integer? 31 data.toList with
    | some n => .ok (.int n)
    | none => node.invalid s!"'{data}' is not an integer"
  | .float =>
    match Numeric.single? data with
    | some x => .ok (.float x)
    | none => node.invalid s!"'{data}' is not a number"
  | .string => .ok (.text data)
  | _ =>
    if data.isEmpty then node.invalid "no image file selected"
    else match images.get? node.id with
      | some raster => .ok (.image raster)
      | none => node.invalid s!"image '{data}' is not loaded"

/-- The work of an operation on machine words, which may break off. -/
def onWords (run : Except Numeric.WordFault (Raster Rgb)) : Except Failure (Raster Rgb) :=
  run.mapError .broken

/-- Blurs an image with the kernel of a slider value. -/
def blurred (node : Node) (image : Raster Rgb) (k : Int) : Except Failure (Raster Rgb) :=
  match Filter.kernelSize? k with
  | some size => onWords (Filter.gaussianWords image size 0.0)
  | none =>
    let size := k * 2 + 1
    node.invalid s!"kernel size {size} must be between 1 and {Filter.maxKernelSize}"

/-- Draws a caption of a scale, which has to be positive. -/
def captioned (node : Node) (image : Raster Rgb) (x y : Int) (caption : String) (scale : Float32)
    (thickness : Int) : Except Failure (Raster Rgb) :=
  if scale > 0.0 then
    onWords (Caption.drawWords image caption x y (Numeric.widened scale) thickness captionColor)
  else
    let shown := Numeric.plainText32 scale
    node.invalid s!"text scale {shown} must be positive"

/-- The thickness of captions placed by hundredths. -/
def percentThickness : Int := 2

section Scaling

variable [ImageLibrary]

/-- Scales an image to a size in pixels. -/
def scaledTo (node : Node) (image : Raster Rgb) (x y : Int) : Except Failure (Raster Rgb) :=
  if x ≤ 0 ∨ y ≤ 0 then node.invalid s!"size {x}x{y} must be positive"
  else if !Filter.fitsOutput x.toNat y.toNat then
    node.invalid s!"size {x}x{y} exceeds {Filter.maxOutputPixels} pixels"
  else .ok (ImageLibrary.resize image (UInt32.ofNat x.toNat) (UInt32.ofNat y.toNat))

/-- Scales an image by hundredths of its sides. -/
def scaledBy (node : Node) (image : Raster Rgb) (px py : Float32) : Except Failure (Raster Rgb) :=
  let width := percent image.width px
  let height := percent image.height py
  if !(width ≥ 1.0 && height ≥ 1.0) then
    let w := Numeric.fixed 1 width
    let h := Numeric.fixed 1 height
    node.invalid s!"scaled size {w}x{h} is smaller than one pixel"
  else if width * height > Filter.maxOutputPixels.toFloat then
    let w := Numeric.fixed 0 width
    let h := Numeric.fixed 0 height
    node.invalid s!"scaled size {w}x{h} exceeds {Filter.maxOutputPixels} pixels"
  else .ok (ImageLibrary.resize image width.toUInt32 height.toUInt32)

end Scaling

variable {m : Type → Type} [Monad m] [MonadExceptOf Failure m]

/-- The fault of a value of the wrong type on a slot, given by its position. -/
def slotMismatch (node : Node) (index : Nat) (found : Value) : Fault :=
  match node.kind.inputs[index]? with
  | some slot => .typeMismatch node.id slot.name slot.type.name found.type.name
  | none => .unknownSlot node.id (toString index)

/-! The values on slots, where `read` gives the value on the slot at a position. -/

/-- A value on a slot as what `part?` takes it for. -/
def inputAs {α : Type} (part? : Value → Option α) (node : Node) (read : Nat → m Value)
    (index : Nat) : m α := do
  let value ← read index
  match part? value with
  | some part => pure part
  | none => throw (.fault (node.slotMismatch index value))

/-- The image on the first slot. -/
def imageInput (node : Node) (read : Nat → m Value) : m (Raster Rgb) :=
  node.inputAs Value.image? read 0

/-- The integer on a slot. -/
def intInput (node : Node) : (read : Nat → m Value) → (index : Nat) → m Int :=
  node.inputAs Value.int?

/-- The fractional number on a slot. -/
def floatInput (node : Node) : (read : Nat → m Value) → (index : Nat) → m Float32 :=
  node.inputAs Value.float?

/-- The text on a slot. -/
def textInput (node : Node) : (read : Nat → m Value) → (index : Nat) → m String :=
  node.inputAs Value.text?

/-- The value of a node, where `read` gives the values on its slots. Slots are read in order, and
parameters are checked after all slots are read. -/
def compute [ImageLibrary] (node : Node) (images : Images) (read : Nat → m Value) : m Value :=
  match node.kind with
  | .int | .float | .string | .image => Failure.lift (node.source images)
  | .endNode => read 0
  | .sepia => do
    let image ← node.imageInput read
    pure (.image (Filter.sepia image))
  | .grey => do
    let image ← node.imageInput read
    pure (.image (Filter.grey image))
  | .invert => do
    let image ← node.imageInput read
    pure (.image (Filter.invert image))
  | .bright => do
    let image ← node.imageInput read
    let beta ← node.floatInput read 1
    pure (.image (Filter.brightness image beta))
  | .gaussian => do
    let image ← node.imageInput read
    let k ← node.intInput read 1
    let blurred ← Failure.lift (node.blurred image k)
    pure (.image blurred)
  | .scalePixel => do
    let image ← node.imageInput read
    let x ← node.intInput read 1
    let y ← node.intInput read 2
    let scaled ← Failure.lift (node.scaledTo image x y)
    pure (.image scaled)
  | .scale => do
    let image ← node.imageInput read
    let px ← node.floatInput read 1
    let py ← node.floatInput read 2
    let scaled ← Failure.lift (node.scaledBy image px py)
    pure (.image scaled)
  | .movePixel => do
    let image ← node.imageInput read
    let x ← node.intInput read 1
    let y ← node.intInput read 2
    let moved ← Failure.lift (onWords (Warp.shift image (Float.ofInt x) (Float.ofInt y)))
    pure (.image moved)
  | .move => do
    let image ← node.imageInput read
    let px ← node.floatInput read 1
    let py ← node.floatInput read 2
    let moved ← Failure.lift
      (onWords (Warp.shift image (percent image.width px) (percent image.height py)))
    pure (.image moved)
  | .rotate => do
    let image ← node.imageInput read
    let degrees ← node.floatInput read 1
    let turned ← Failure.lift (onWords (Warp.rotate image (Numeric.widened degrees)))
    pure (.image turned)
  | .addTextPixel => do
    let image ← node.imageInput read
    let x ← node.intInput read 1
    let y ← node.intInput read 2
    let caption ← node.textInput read 3
    let scale ← node.floatInput read 4
    let captioned ← Failure.lift
      (node.captioned image x y caption scale (Numeric.wholePart32 scale))
    pure (.image captioned)
  | .addText => do
    let image ← node.imageInput read
    let px ← node.floatInput read 1
    let py ← node.floatInput read 2
    let caption ← node.textInput read 3
    let scale ← node.floatInput read 4
    let captioned ← Failure.lift (node.captioned image (Numeric.wholePart (percent image.width px))
      (Numeric.wholePart (percent image.height py)) caption scale percentThickness)
    pure (.image captioned)

end Node

end Darkroom
