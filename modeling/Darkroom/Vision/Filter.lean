import Darkroom.Image.Raster
import Darkroom.Numeric.Binary
import Darkroom.Numeric.Word

/-!
# Filters

Colour filters, the gaussian blur with an explicit kernel size, and the limits on sizes.  Samples
are computed in double precision and rounded once.  The blur counts in machine words: an image of
too many samples breaks it off.

## Main definitions

* `Filter.saturate` : a sample rounded to eight bits.
* `Filter.sepia`, `Filter.grey`, `Filter.invert`, `Filter.brightness` : filters of single pixels.
* `Filter.kernelSize?`, `Filter.gaussianWords` : the gaussian blur.
* `Filter.reflectWord` : the position that stands in for one beyond the edge.
* `Filter.fitsOutput` : the sizes that an image may be scaled to.
-/

namespace Darkroom.Filter

open Numeric (WordFault word shortWord)

/-- The nearest sample of eight bits, a half rounded away from zero; not-a-number gives zero. -/
def saturate (x : Float) : UInt8 := x.round.toUInt8

/-- A sample as a double. -/
def level (v : UInt8) : Float := v.toNat.toFloat

/-- Three channels in double precision. -/
structure Levels where
  r : Float
  g : Float
  b : Float
  deriving Inhabited

/-- Warm brown tones. -/
def sepia (image : Raster Rgb) : Raster Rgb :=
  image.map fun p =>
    let r := level p.r
    let g := level p.g
    let b := level p.b
    ⟨saturate (0.393 * r + 0.769 * g + 0.189 * b), saturate (0.349 * r + 0.686 * g + 0.168 * b),
      saturate (0.272 * r + 0.534 * g + 0.131 * b)⟩

/-- Brightness as the eye sees it, in all three channels. -/
def grey (image : Raster Rgb) : Raster Rgb :=
  image.map fun p =>
    let luma := saturate (0.299 * level p.r + 0.587 * level p.g + 0.114 * level p.b)
    ⟨luma, luma, luma⟩

/-- The complement of every channel. -/
def invert (image : Raster Rgb) : Raster Rgb := image.map fun p => ⟨255 - p.r, 255 - p.g, 255 - p.b⟩

/-- Adds a number to every channel. -/
def brightness (image : Raster Rgb) (beta : Float32) : Raster Rgb :=
  let shift := Numeric.widened beta
  image.map fun p =>
    ⟨saturate (level p.r + shift), saturate (level p.g + shift), saturate (level p.b + shift)⟩

/-! ### Gaussian blur -/

/-- The greatest kernel size. -/
def maxKernelSize : Int := 100

/-- The kernel size for a slider value, where it is within bounds. -/
def kernelSize? (k : Int) : Option UInt32 :=
  let size := k * 2 + 1
  if 1 ≤ size ∧ size ≤ maxKernelSize then some (UInt32.ofNat size.toNat) else none

/-- The width of the bell curve for a kernel size. -/
def defaultSigma (size : Nat) : Float := 0.3 * ((size.toFloat - 1.0) * 0.5 - 1.0) + 0.8

/-- The weights of a kernel, which sum to one; a width that is not positive stands for the default
one. -/
def gaussianKernel (size : Nat) (sigma : Float) : List Float :=
  let sigma := if sigma > 0.0 then sigma else defaultSigma size
  let center := (size.toFloat - 1.0) / 2.0
  let raw := (List.range size).map fun i =>
    let x := i.toFloat - center
    Float.exp (-(x * x) / (2.0 * sigma * sigma))
  let sum := raw.foldl (· + ·) 0.0
  raw.map (· / sum)

/-! A position beyond an end of a line stands for the one reached by reflection at the edge
positions, which are not repeated. -/

/-- A position within a period, folded back into the line. -/
def foldWord (length period i : Int) : Except WordFault Int :=
  if i ≥ length then word (period - i) else .ok i

/-- The reflected position, computed with sign and cut to 32 bits at the end. -/
def reflectWord (index length : Int) : Except WordFault Nat :=
  if length = 1 then .ok 0
  else do
    let period ← word (2 * (← word (length - 1)))
    let i ← foldWord length period (index % period)
    return (i % UInt32.size).toNat

/-- The position that the weight `k` of a kernel goes with, around position `p` of a line. -/
def neighbourWord (length p k radius : Nat) : Except WordFault Nat := do
  reflectWord (← word ((← word (p + k)) - radius)) length

/-- The place of a channel of a pixel among the samples of an image. The place of the first channel
is a word of 32 bits; the channel is added in a longer word, where it always fits. -/
def placeWord (width x y : Nat) (c : Fin 3) : Except WordFault Nat := do
  let row ← shortWord (y * width)
  let pixel ← shortWord (row + x)
  return (← shortWord (pixel * 3)) + c

/-- The channels of a colour by number. -/
def channel (p : Rgb) : Fin 3 → UInt8
  | 0 => p.r
  | 1 => p.g
  | 2 => p.b

/-- A channel of a pixel of an image. -/
def fetch (image : Raster Rgb) (x y : Nat) (c : Fin 3) : Except WordFault Float :=
  match image.get? x y with
  | some p => .ok (level (channel p c))
  | none => .error .outside

/-- A sample of a buffer. -/
def load (buffer : Array Float) (i : Nat) : Except WordFault Float :=
  match buffer[i]? with
  | some v => .ok v
  | none => .error .outside

/-- The buffer with a sample replaced. -/
def store (buffer : Array Float) (i : Nat) (v : Float) : Except WordFault (Array Float) :=
  if i < buffer.size then .ok (buffer.setIfInBounds i v) else .error .outside

/-- The image with a pixel replaced. -/
def put (image : Raster Rgb) (x y : Nat) (p : Rgb) : Except WordFault (Raster Rgb) :=
  if image.inside x y then .ok (image.set x y p) else .error .outside

/-- A sum with one more sample, `sample k` going with the weight `k`. -/
def addSample (sample : Nat → Except WordFault Float) (sum : Float) (entry : Float × Nat) :
    Except WordFault Float := do
  return sum + entry.1 * (← sample entry.2)

/-- The weighted sum of samples. -/
def sumWords (weights : List Float) (sample : Nat → Except WordFault Float) :
    Except WordFault Float :=
  weights.zipIdx.foldlM (addSample sample) 0.0

/-- A loop over a list, each round beginning with what the one before left. -/
def loop {ι σ : Type} (round : ι → σ → Except WordFault σ) (l : List ι) (start : σ) :
    Except WordFault σ :=
  l.foldlM (fun state i => round i state) start

/-- A loop over the positions of an image, row by row. -/
def forPixels {σ : Type} (image : Raster Rgb) (round : Nat → Nat → σ → Except WordFault σ) :
    σ → Except WordFault σ :=
  loop (fun y => loop (fun x => round x y) (List.range image.width.toNat))
    (List.range image.height.toNat)

section Loops

variable (image : Raster Rgb) (weights : List Float) (radius : Nat)

/-- The weighted sum of a channel along a row of an image. -/
def rowSumWord (x y : Nat) (c : Fin 3) : Except WordFault Float :=
  sumWords weights fun k => do
    fetch image (← neighbourWord image.width.toNat x k radius) y c

/-- Stores the weighted sum of a channel along a row. -/
def storeRowSum (x y : Nat) (c : Fin 3) (buffer : Array Float) :
    Except WordFault (Array Float) := do
  let sum ← rowSumWord image weights radius x y c
  store buffer (← placeWord image.width.toNat x y c) sum

/-- Stores the weighted sums of all channels along a row. -/
def storeRowSums (x y : Nat) : Array Float → Except WordFault (Array Float) :=
  loop (storeRowSum image weights radius x y) (List.finRange 3)

/-- Blurs the rows of an image into a buffer of samples. -/
def rowsWords : Except WordFault (Array Float) := do
  let pixels ← shortWord (image.width.toNat * image.height.toNat)
  let samples ← shortWord (pixels * 3)
  forPixels image (storeRowSums image weights radius) (Array.replicate samples 0.0)

/-- The weighted sum of a channel along a column of a buffer of samples. -/
def columnSumWord (buffer : Array Float) (x y : Nat) (c : Fin 3) : Except WordFault Float :=
  sumWords weights fun k => do
    let row ← neighbourWord image.height.toNat y k radius
    load buffer (← placeWord image.width.toNat x row c)

/-- Puts a pixel with the weighted sums along a column. -/
def putColumnSum (buffer : Array Float) (x y : Nat) (out : Raster Rgb) :
    Except WordFault (Raster Rgb) := do
  let r ← columnSumWord image weights radius buffer x y 0
  let g ← columnSumWord image weights radius buffer x y 1
  let b ← columnSumWord image weights radius buffer x y 2
  put out x y ⟨saturate r, saturate g, saturate b⟩

/-- Blurs the columns of a buffer of samples into an image. -/
def columnsWords (buffer : Array Float) : Except WordFault (Raster Rgb) :=
  forPixels image (putColumnSum image weights radius buffer)
    (Raster.solid image.width image.height Rgb.black)

end Loops

/-- The gaussian blur, with every sum and product checked and every pixel and sample looked up. -/
def gaussianWords (image : Raster Rgb) (size : UInt32) (sigma : Float) :
    Except WordFault (Raster Rgb) :=
  if size ≤ 1 ∨ image.width = 0 ∨ image.height = 0 then .ok image
  else do
    let weights := gaussianKernel size.toNat sigma
    let radius := (size / 2).toNat
    columnsWords image weights radius (← rowsWords image weights radius)

/-! ### Size limits -/

/-- The greatest number of pixels that an image may be scaled to. -/
def maxOutputPixels : Nat := 0x10000000

/-- Whether an image may be scaled to a size. -/
def fitsOutput (width height : Nat) : Bool := width * height ≤ maxOutputPixels

end Darkroom.Filter
