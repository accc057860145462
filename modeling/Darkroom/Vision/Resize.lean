import Darkroom.Image.Raster

/-!
# Resizing

Scaling with a triangle filter, in single precision: columns first, without rounding, then rows.

## Main definitions

* `Resize.taps` : the source positions and weights for one target position.
* `Resize.apply` : the scaled image.
-/

namespace Darkroom.Resize

/-- The weight at a distance from the middle of the triangle. -/
def triangle (x : Float32) : Float32 := if x.abs < 1.0 then 1.0 - x.abs else 0.0

/-- An integer bounded from below and above. -/
def clampTo (low high x : Int) : Int := max low (min high x)

/-- The source positions that target position `i` is made of, with weights that sum to one, where
a line of `old` pixels is scaled to `new` pixels. -/
def taps (old new i : Nat) : List (Nat × Float32) :=
  let ratio := old.toFloat32 / new.toFloat32
  let spread := if ratio < 1.0 then 1.0 else ratio
  let center := (i.toFloat32 + 0.5) * ratio
  let left := clampTo 0 ((old : Int) - 1) (center - spread).floor.toInt64.toInt
  let right := clampTo (left + 1) old (center + spread).ceil.toInt64.toInt
  let middle := center - 0.5
  let raw := (List.range (right - left).toNat).map fun k =>
    let j := left.toNat + k
    (j, triangle ((j.toFloat32 - middle) / spread))
  let sum := raw.foldl (fun acc (_, w) => acc + w) 0.0
  raw.map fun (j, w) => (j, w / sum)

/-- Three channels in single precision. -/
structure Levels where
  r : Float32
  g : Float32
  b : Float32
  deriving Inhabited

/-- The sum of weighted pixels. -/
def mix (taps : List (Nat × Float32)) (pixel : Nat → Levels) : Levels :=
  taps.foldl (fun acc (j, w) =>
    let p := pixel j
    ⟨acc.r + p.r * w, acc.g + p.g * w, acc.b + p.b * w⟩) ⟨0.0, 0.0, 0.0⟩

/-- The image scaled to a size; an image without pixels becomes black. -/
def apply (image : Raster Rgb) (width height : UInt32) : Raster Rgb :=
  if width = image.width ∧ height = image.height then image
  else if image.width = 0 ∨ image.height = 0 then Raster.solid width height Rgb.black
  else
    let level (v : UInt8) : Float32 := v.toNat.toFloat32
    let nearest (v : Float32) : UInt8 := v.round.toUInt8
    let source := image.map fun p => (⟨level p.r, level p.g, level p.b⟩ : Levels)
    let rows := (Array.range height.toNat).map fun y => taps image.height.toNat height.toNat y
    let columns := (Array.range width.toNat).map fun x => taps image.width.toNat width.toNat x
    let tall := Raster.ofFn image.width height fun x y =>
      mix (rows.getD y []) fun j => source.getD x j default
    Raster.ofFn width height fun x y =>
      let p := mix (columns.getD x []) fun j => tall.getD j y default
      ⟨nearest p.r, nearest p.g, nearest p.b⟩

end Darkroom.Resize
