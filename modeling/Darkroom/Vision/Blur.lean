import Darkroom.Image.Raster

/-!
# Blur in single precision

A separable gaussian blur of an image with alpha.  Pixels beyond an edge repeat the edge.  Rows
are blurred first and columns after them, with nothing rounded in between.

## Main definitions

* `Blur.kernel` : the weights for a width.
* `Blur.isUsable` : the widths that a blur is defined for.
* `Blur.apply` : the blurred image.
-/

namespace Darkroom.Blur

/-- Whether a blur of this width is defined: zero stands for a default, and any other width is a
positive number that is neither infinite nor subnormal. -/
def isUsable (sigma : Float32) : Bool :=
  sigma == 0.0 || (sigma > 0.0 && sigma.isFinite && sigma.toBits.toNat ≥ 0x800000)

/-- The number of weights for a width: odd, and at least three. -/
def kernelLength (sigma : Float32) : Nat :=
  let ideal := ((sigma - 0.8) / 0.3 + 1.0) * 2.0 + 1.0
  let n := (if ideal > 3.0 then ideal else 3.0).toUInt32.toNat
  if n % 2 = 0 then n + 1 else n

/-- The sum of numbers from left to right. -/
def sum (ws : List Float32) : Float32 := ws.foldl (· + ·) 0.0

/-- Removes zeros from both ends while more than two weights are left. -/
def trimZeros : (fuel : Nat) → List Float32 → List Float32
  | 0, ws => ws
  | fuel + 1, ws =>
    if ws.length > 2 && ws.head? == some 0.0 && ws.getLast? == some 0.0 then
      trimZeros fuel ws.tail.dropLast
    else ws

/-- The circle number in single precision. -/
def pi : Float32 := Float32.ofBits 0x40490FDB

/-- The weights of a blur: the bell curve at whole steps from the middle, scaled to sum one. -/
def kernel (sigma : Float32) : Array Float32 :=
  let n := kernelLength sigma
  let scale := 1.0 / (Float32.sqrt (2.0 * pi) * sigma)
  let middle := (n / 2).toFloat32
  let raw := (List.range n).map fun i =>
    let x := (i.toFloat32 - middle) / sigma
    Float32.exp (-0.5 * (x * x)) * scale
  let inverse := 1.0 / sum raw
  let ws := raw.map (· * inverse)
  (trimZeros ws.length ws).toArray

/-- Four channels of a pixel in single precision. -/
structure Channels where
  r : Float32
  g : Float32
  b : Float32
  a : Float32
  deriving Inhabited

namespace Channels

/-- The channels of a pixel. -/
def ofPixel (p : Rgba) : Channels :=
  ⟨p.r.toNat.toFloat32, p.g.toNat.toFloat32, p.b.toNat.toFloat32, p.a.toNat.toFloat32⟩

/-- Channels added one by one. -/
def add (p q : Channels) : Channels := ⟨p.r + q.r, p.g + q.g, p.b + q.b, p.a + q.a⟩

/-- Channels multiplied by a weight. -/
def scale (p : Channels) (w : Float32) : Channels := ⟨p.r * w, p.g * w, p.b * w, p.a * w⟩

/-- The nearest pixel; a half is rounded up. -/
def toPixel (p : Channels) : Rgba :=
  let nearest (v : Float32) : UInt8 := v.round.toUInt8
  ⟨nearest p.r, nearest p.g, nearest p.b, nearest p.a⟩

end Channels

/-- The position nearest to `i - shift` within `0 … length - 1`. -/
def clampIndex (i shift length : Nat) : Nat := min (i - shift) (length - 1)

/-- The weighted mean around a position, where `at_ j` is the pixel `j` places along.  The weights
are symmetric: the middle comes first, then both ends pair by pair. -/
def convolve (weights : Array Float32) (at_ : Nat → Channels) : Channels :=
  let n := weights.size
  let mid := n / 2
  let weight (i : Nat) : Float32 := weights.getD i 0.0
  (List.range mid).foldl
    (fun acc i => acc.add (((at_ i).add (at_ (n - 1 - i))).scale (weight i)))
    ((at_ mid).scale (weight mid))

/-- The blurred image.  A width of zero stands for 0.8.

A row is read from half the untrimmed number of weights to the left of a pixel, a column from half
the weights that are left above it.  So a width that leaves a single weight moves the image one
pixel to the right; such a width also leaves the top row blank, because a row is finished only
when a row below the first has been read. -/
def apply (sigma : Float32) (image : Raster Rgba) : Raster Rgba :=
  let sigma := if sigma == 0.0 then 0.8 else sigma
  let weights := kernel sigma
  let left := kernelLength sigma / 2
  let above := weights.size / 2
  let w := image.width.toNat
  let h := image.height.toNat
  let source := image.map Channels.ofPixel
  let across := Raster.ofFn image.width image.height fun x y =>
    convolve weights fun j => source.getD (clampIndex (x + j) left w) y default
  Raster.ofFn image.width image.height fun x y =>
    if y < 1 - above then ⟨0, 0, 0, 0⟩
    else (convolve weights fun j => across.getD x (clampIndex (y + j) above h) default).toPixel

end Darkroom.Blur
