import Darkroom.Numeric.Binary
import Darkroom.Vision.Filter

/-!
# Affine warps

Moving and turning images.  The target is sampled through the inverse map, between four pixels;
beyond the edges all is black.  A point so far out that the next pixel is no word of 64 bits breaks
the sampling off.

## Main definitions

* `Affine`, `Affine.shift`, `Affine.rotationAbout`, `Affine.inverse?` : maps of the plane.
* `Warp.sample` : the colour at a point between pixels.
* `Warp.apply`, `Warp.shift`, `Warp.rotate` : warped images.
-/

namespace Darkroom

/-- The map `(x, y) ↦ (a * x + b * y + c, d * x + e * y + f)`. -/
structure Affine where
  a : Float
  b : Float
  c : Float
  d : Float
  e : Float
  f : Float

namespace Affine

/-- The map that moves every point. -/
def shift (dx dy : Float) : Affine := ⟨1.0, 0.0, dx, 0.0, 1.0, dy⟩

/-- The circle number in double precision. -/
def pi : Float := Float.ofBits 0x400921FB54442D18

/-- The turn about a point, counter-clockwise with the vertical axis pointing down. -/
def rotationAbout (cx cy degrees : Float) : Affine :=
  let theta := degrees * (pi / 180.0)
  let alpha := theta.cos
  let beta := theta.sin
  ⟨alpha, beta, (1.0 - alpha) * cx - beta * cy, -beta, alpha, beta * cx + (1.0 - alpha) * cy⟩

/-- The determinants that count as zero are below this bound. -/
def epsilon : Float := Float.ofBits 0x3CB0000000000000

/-- The map that undoes another one, unless that one flattens the plane. -/
def inverse? (m : Affine) : Option Affine :=
  let det := m.a * m.e - m.b * m.d
  if det.abs < epsilon then none
  else
    some ⟨m.e / det, -m.b / det, (m.b * m.f - m.c * m.e) / det, -m.d / det, m.a / det,
      (m.c * m.d - m.a * m.f) / det⟩

/-- The first coordinate of the point that a position is taken to. -/
def across (m : Affine) (x y : Nat) : Float := m.a * x.toFloat + m.b * y.toFloat + m.c

/-- The second coordinate of the point that a position is taken to. -/
def down (m : Affine) (x y : Nat) : Float := m.d * x.toFloat + m.e * y.toFloat + m.f

end Affine

namespace Warp

open Numeric (WordFault word)

/-- The channels of the pixel at a position, black outside the image. -/
def fetch (image : Raster Rgb) (x y : Int) : Filter.Levels :=
  let p := if x < 0 ∨ y < 0 then Rgb.black else image.getD x.toNat y.toNat Rgb.black
  ⟨Filter.level p.r, Filter.level p.g, Filter.level p.b⟩

/-- The colour at a point between pixels. -/
def sample (image : Raster Rgb) (x y : Float) : Except WordFault Rgb := do
  let fx := x - x.floor
  let fy := y - y.floor
  let left := Numeric.toWord .down x
  let top := Numeric.toWord .down y
  let right ← word (left + 1)
  let bottom ← word (top + 1)
  let topLeft := fetch image left top
  let topRight := fetch image right top
  let bottomLeft := fetch image left bottom
  let bottomRight := fetch image right bottom
  let blend (tl tr bl br : Float) : UInt8 :=
    let upper := tl * (1.0 - fx) + tr * fx
    let lower := bl * (1.0 - fx) + br * fx
    Filter.saturate (upper * (1.0 - fy) + lower * fy)
  return ⟨blend topLeft.r topRight.r bottomLeft.r bottomRight.r,
    blend topLeft.g topRight.g bottomLeft.g bottomRight.g,
    blend topLeft.b topRight.b bottomLeft.b bottomRight.b⟩

/-- Puts the colour at the point that a map takes a position to. -/
def putSample (image : Raster Rgb) (inv : Affine) (x y : Nat) (out : Raster Rgb) :
    Except WordFault (Raster Rgb) := do
  let color ← sample image (inv.across x y) (inv.down x y)
  Filter.put out x y color

/-- The image under a map, on a canvas of the given size. -/
def apply (image : Raster Rgb) (m : Affine) (width height : UInt32) :
    Except WordFault (Raster Rgb) :=
  let blank := Raster.solid width height Rgb.black
  match m.inverse? with
  | none => .ok blank
  | some inv => Filter.forPixels blank (putSample image inv) blank

/-- The image moved by some pixels. -/
def shift (image : Raster Rgb) (dx dy : Float) : Except WordFault (Raster Rgb) :=
  apply image (Affine.shift dx dy) image.width image.height

/-- The turn of an image about its middle. -/
def turn (image : Raster Rgb) (degrees : Float) : Affine :=
  Affine.rotationAbout (image.width.toNat.toFloat / 2.0) (image.height.toNat.toFloat / 2.0) degrees

/-- The image turned about its middle. -/
def rotate (image : Raster Rgb) (degrees : Float) : Except WordFault (Raster Rgb) :=
  apply image (turn image degrees) image.width image.height

end Warp

end Darkroom
