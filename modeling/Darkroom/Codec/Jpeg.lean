import Darkroom.Codec.Bytes
import Darkroom.Image.Picture

/-!
# JPEG files

Writing of baseline files with three components at full resolution and the customary tables, and
reading of the size of an image.

## Main definitions

* `Jpeg.encode?` : the file of an image.
* `Jpeg.size?` : the size that a file states.
-/

namespace Darkroom.Jpeg

/-! ### Tables -/

/-- The order in which the coefficients of a block are stored. -/
def zigzag : List Nat :=
  [0, 1, 8, 16, 9, 2, 3, 10, 17, 24, 32, 25, 18, 11, 4, 5, 12, 19, 26, 33, 40, 48, 41, 34, 27, 20,
    13, 6, 7, 14, 21, 28, 35, 42, 49, 56, 57, 50, 43, 36, 29, 22, 15, 23, 30, 37, 44, 51, 58, 59,
    52, 45, 38, 31, 39, 46, 53, 60, 61, 54, 47, 55, 62, 63]

/-- The steps of brightness coefficients at medium quality, row by row. -/
def lumaSteps : List Nat :=
  [16, 11, 10, 16, 24, 40, 51, 61, 12, 12, 14, 19, 26, 58, 60, 55, 14, 13, 16, 24, 40, 57, 69, 56,
    14, 17, 22, 29, 51, 87, 80, 62, 18, 22, 37, 56, 68, 109, 103, 77, 24, 35, 55, 64, 81, 104, 113,
    92, 49, 64, 78, 87, 103, 121, 120, 101, 72, 92, 95, 98, 112, 100, 103, 99]

/-- The steps of colour coefficients at medium quality, row by row. -/
def chromaSteps : List Nat :=
  [17, 18, 24, 47, 99, 99, 99, 99, 18, 21, 26, 66, 99, 99, 99, 99, 24, 26, 56, 99, 99, 99, 99, 99,
    47, 66, 99, 99, 99, 99, 99, 99, 99, 99, 99, 99, 99, 99, 99, 99, 99, 99, 99, 99, 99, 99, 99, 99,
    99, 99, 99, 99, 99, 99, 99, 99, 99, 99, 99, 99, 99, 99, 99, 99]

/-- The steps at a quality of three quarters. -/
def scaled (steps : List Nat) : List Nat := steps.map fun q => max 1 (min 255 ((q * 50 + 50) / 100))

/-- A table of codes: how many there are of each length, and their symbols in order. -/
structure CodeTable where
  counts : List Nat
  symbols : List Nat

/-- Codes of the sizes of brightness means. -/
def lumaMeans : CodeTable :=
  ⟨[0, 1, 5, 1, 1, 1, 1, 1, 1, 0, 0, 0, 0, 0, 0, 0], [0, 1, 2, 3, 4, 5, 6, 7, 8, 9, 10, 11]⟩

/-- Codes of the sizes of colour means. -/
def chromaMeans : CodeTable :=
  ⟨[0, 3, 1, 1, 1, 1, 1, 1, 1, 1, 1, 0, 0, 0, 0, 0], [0, 1, 2, 3, 4, 5, 6, 7, 8, 9, 10, 11]⟩

/-- Codes of the runs and sizes of brightness coefficients. -/
def lumaRuns : CodeTable :=
  ⟨[0, 2, 1, 3, 3, 2, 4, 3, 5, 5, 4, 4, 0, 0, 1, 125],
    [0x01, 0x02, 0x03, 0x00, 0x04, 0x11, 0x05, 0x12, 0x21, 0x31, 0x41, 0x06, 0x13, 0x51, 0x61, 0x07,
      0x22, 0x71, 0x14, 0x32, 0x81, 0x91, 0xA1, 0x08, 0x23, 0x42, 0xB1, 0xC1, 0x15, 0x52, 0xD1, 0xF0,
      0x24, 0x33, 0x62, 0x72, 0x82, 0x09, 0x0A, 0x16, 0x17, 0x18, 0x19, 0x1A, 0x25, 0x26, 0x27, 0x28,
      0x29, 0x2A, 0x34, 0x35, 0x36, 0x37, 0x38, 0x39, 0x3A, 0x43, 0x44, 0x45, 0x46, 0x47, 0x48, 0x49,
      0x4A, 0x53, 0x54, 0x55, 0x56, 0x57, 0x58, 0x59, 0x5A, 0x63, 0x64, 0x65, 0x66, 0x67, 0x68, 0x69,
      0x6A, 0x73, 0x74, 0x75, 0x76, 0x77, 0x78, 0x79, 0x7A, 0x83, 0x84, 0x85, 0x86, 0x87, 0x88, 0x89,
      0x8A, 0x92, 0x93, 0x94, 0x95, 0x96, 0x97, 0x98, 0x99, 0x9A, 0xA2, 0xA3, 0xA4, 0xA5, 0xA6, 0xA7,
      0xA8, 0xA9, 0xAA, 0xB2, 0xB3, 0xB4, 0xB5, 0xB6, 0xB7, 0xB8, 0xB9, 0xBA, 0xC2, 0xC3, 0xC4, 0xC5,
      0xC6, 0xC7, 0xC8, 0xC9, 0xCA, 0xD2, 0xD3, 0xD4, 0xD5, 0xD6, 0xD7, 0xD8, 0xD9, 0xDA, 0xE1, 0xE2,
      0xE3, 0xE4, 0xE5, 0xE6, 0xE7, 0xE8, 0xE9, 0xEA, 0xF1, 0xF2, 0xF3, 0xF4, 0xF5, 0xF6, 0xF7, 0xF8,
      0xF9, 0xFA]⟩

/-- Codes of the runs and sizes of colour coefficients. -/
def chromaRuns : CodeTable :=
  ⟨[0, 2, 1, 2, 4, 4, 3, 4, 7, 5, 4, 4, 0, 1, 2, 119],
    [0x00, 0x01, 0x02, 0x03, 0x11, 0x04, 0x05, 0x21, 0x31, 0x06, 0x12, 0x41, 0x51, 0x07, 0x61, 0x71,
      0x13, 0x22, 0x32, 0x81, 0x08, 0x14, 0x42, 0x91, 0xA1, 0xB1, 0xC1, 0x09, 0x23, 0x33, 0x52, 0xF0,
      0x15, 0x62, 0x72, 0xD1, 0x0A, 0x16, 0x24, 0x34, 0xE1, 0x25, 0xF1, 0x17, 0x18, 0x19, 0x1A, 0x26,
      0x27, 0x28, 0x29, 0x2A, 0x35, 0x36, 0x37, 0x38, 0x39, 0x3A, 0x43, 0x44, 0x45, 0x46, 0x47, 0x48,
      0x49, 0x4A, 0x53, 0x54, 0x55, 0x56, 0x57, 0x58, 0x59, 0x5A, 0x63, 0x64, 0x65, 0x66, 0x67, 0x68,
      0x69, 0x6A, 0x73, 0x74, 0x75, 0x76, 0x77, 0x78, 0x79, 0x7A, 0x82, 0x83, 0x84, 0x85, 0x86, 0x87,
      0x88, 0x89, 0x8A, 0x92, 0x93, 0x94, 0x95, 0x96, 0x97, 0x98, 0x99, 0x9A, 0xA2, 0xA3, 0xA4, 0xA5,
      0xA6, 0xA7, 0xA8, 0xA9, 0xAA, 0xB2, 0xB3, 0xB4, 0xB5, 0xB6, 0xB7, 0xB8, 0xB9, 0xBA, 0xC2, 0xC3,
      0xC4, 0xC5, 0xC6, 0xC7, 0xC8, 0xC9, 0xCA, 0xD2, 0xD3, 0xD4, 0xD5, 0xD6, 0xD7, 0xD8, 0xD9, 0xDA,
      0xE2, 0xE3, 0xE4, 0xE5, 0xE6, 0xE7, 0xE8, 0xE9, 0xEA, 0xF2, 0xF3, 0xF4, 0xF5, 0xF6, 0xF7, 0xF8,
      0xF9, 0xFA]⟩

/-- The code of each symbol, as a length and a value, by symbol. -/
def CodeTable.codes (t : CodeTable) : Array (Nat × Nat) :=
  let lengths := t.counts.zipIdx.flatMap fun (count, i) => List.replicate count (i + 1)
  let step (acc : Array (Nat × Nat) × Nat × Nat) (entry : Nat × Nat) :
      Array (Nat × Nat) × Nat × Nat :=
    let (codes, next, last) := acc
    let (symbol, length) := entry
    let value := next * Nat.pow 2 (length - last)
    (codes.setIfInBounds symbol (length, value), value + 1, length)
  ((t.symbols.zip lengths).foldl step (Array.replicate 256 (0, 0), 0, 0)).1

/-! ### Blocks -/

/-- The circle number. -/
def pi : Float := Float.ofBits 0x400921FB54442D18

/-- The cosine factors of a transform over eight samples, by frequency and position. -/
def cosines : Array Float :=
  ((List.range 64).map fun k =>
    let u := k / 8
    let x := k % 8
    let scale := if u = 0 then Float.sqrt 0.125 else 0.5
    scale * Float.cos ((2 * x + 1).toFloat * u.toFloat * pi / 16.0)).toArray

/-- The sum of eight products. -/
def sumOfEight (f : Nat → Float) : Float := (List.range 8).foldl (fun acc i => acc + f i) 0.0

/-- The cosine transform of a block of 64 samples. -/
def transform (block : Array Float) : Array Float :=
  let factor (u x : Nat) : Float := cosines.getD (8 * u + x) 0.0
  let rows := ((List.range 64).map fun k =>
    sumOfEight fun x => factor (k % 8) x * block.getD (8 * (k / 8) + x) 0.0).toArray
  ((List.range 64).map fun k =>
    sumOfEight fun y => factor (k / 8) y * rows.getD (8 * y + k % 8) 0.0).toArray

/-- The coefficients of a block in steps, in storage order. -/
def quantize (steps : List Nat) (block : Array Float) : List Int :=
  let coefficients := transform block
  let steps := steps.toArray
  zigzag.map fun k =>
    (coefficients.getD k 0.0 / (steps.getD k 1).toFloat).round.toInt64.toInt

/-- The number of bits of an amplitude. -/
def amplitudeSize (v : Int) : Nat := if v = 0 then 0 else v.natAbs.log2 + 1

/-- The bits of a number, the highest first. -/
def bitsOf (length value : Nat) : List Bool := (List.range length).reverse.map value.testBit

/-- The bits of an amplitude; negative ones count from below. -/
def amplitudeBits (v : Int) : List Bool :=
  let size := amplitudeSize v
  bitsOf size (if v < 0 then (v + Nat.pow 2 size - 1).toNat else v.toNat)

/-- The bits of a code word and of an amplitude after it. -/
def codedBits (codes : Array (Nat × Nat)) (symbol : Nat) (v : Int) : List Bool :=
  let (length, value) := codes.getD symbol (0, 0)
  bitsOf length value ++ amplitudeBits v

/-- The bits of the coefficients after the mean, `run` zeros having gone before. -/
def runBits (codes : Array (Nat × Nat)) : (run : Nat) → List Int → List Bool
  | run, [] => if run = 0 then [] else codedBits codes 0 0
  | run, v :: vs =>
    if v = 0 then runBits codes (run + 1) vs
    else
      (List.replicate (run / 16) (codedBits codes 0xF0 0)).flatten ++
        codedBits codes (16 * (run % 16) + amplitudeSize v) v ++ runBits codes 0 vs

/-- The bits of a block, whose mean is stored as the difference to the one before. -/
def blockBits (means runs : Array (Nat × Nat)) (before : Int) : List Int → List Bool
  | [] => []
  | mean :: rest =>
    let difference := mean - before
    codedBits means (amplitudeSize difference) difference ++ runBits runs 0 rest

/-- Whole bytes of some bits, filled up with ones; a zero follows every byte of ones. -/
def pack : (fuel : Nat) → List Bool → ByteArray → ByteArray
  | 0, _, out => out
  | fuel + 1, bits, out =>
    if bits.isEmpty then out
    else
      let eight := (bits.take 8 ++ List.replicate 7 true).take 8
      let byte := eight.foldl (fun n b => 2 * n + b.toNat) 0
      let out := out.push (UInt8.ofNat byte)
      pack fuel (bits.drop 8) (if byte = 255 then out.push 0 else out)

/-- Brightness and two colour differences of a pixel, centred on zero. -/
def components (p : Rgb) : Float × Float × Float :=
  let r := p.r.toNat.toFloat
  let g := p.g.toNat.toFloat
  let b := p.b.toNat.toFloat
  (0.299 * r + 0.587 * g + 0.114 * b - 128.0, 0.5 * b - 0.168736 * r - 0.331264 * g,
    0.5 * r - 0.418688 * g - 0.081312 * b)

/-- The 64 samples of a block, those beyond the edges repeating the edge. -/
def blockAt (image : Raster (Float × Float × Float)) (bx row : Nat)
    (pick : Float × Float × Float → Float) : Array Float :=
  ((List.range 64).map fun k =>
    let x := min (8 * bx + k % 8) (image.width.toNat - 1)
    let y := min (8 * row + k / 8) (image.height.toNat - 1)
    pick (image.getD x y (0.0, 0.0, 0.0))).toArray

/-! ### Files -/

/-- A segment: its marker and its contents. -/
def segment (marker : Nat) (body : ByteArray) : ByteArray :=
  Bytes.ofList [0xFF, marker] ++ Bytes.big 2 (body.size + 2) ++ body

/-- The compressed pixels of an image. -/
def scan (image : Raster Rgb) : ByteArray :=
  let planes := image.map components
  let columns := (image.width.toNat + 7) / 8
  let rows := (image.height.toNat + 7) / 8
  let lm := lumaMeans.codes
  let lr := lumaRuns.codes
  let cm := chromaMeans.codes
  let cr := chromaRuns.codes
  let luma := scaled lumaSteps
  let chroma := scaled chromaSteps
  let step (acc : List (List Bool) × Int × Int × Int) (k : Nat) :
      List (List Bool) × Int × Int × Int :=
    let (bits, y0, u0, v0) := acc
    let bx := k % columns
    let row := k / columns
    let y := quantize luma (blockAt planes bx row fun p => p.1)
    let u := quantize chroma (blockAt planes bx row fun p => p.2.1)
    let v := quantize chroma (blockAt planes bx row fun p => p.2.2)
    (blockBits cm cr v0 v :: blockBits cm cr u0 u :: blockBits lm lr y0 y :: bits, y.headD 0,
      u.headD 0, v.headD 0)
  let (bits, _) := (List.range (columns * rows)).foldl step ([], 0, 0, 0)
  let all := bits.reverse.flatten
  pack (all.length + 1) all ByteArray.empty

/-- The contents of a table of steps. -/
def stepsBody (id : Nat) (steps : List Nat) : ByteArray :=
  let steps := (scaled steps).toArray
  Bytes.ofList (id :: zigzag.map fun k => steps.getD k 1)

/-- The contents of a table of codes. -/
def codesBody (id : Nat) (t : CodeTable) : ByteArray := Bytes.ofList (id :: t.counts ++ t.symbols)

/-- The file of an image; one without pixels or with a side of more than sixteen bits has none. -/
def encode? (image : Raster Rgb) : Option ByteArray :=
  let w := image.width.toNat
  let h := image.height.toNat
  if w = 0 ∨ h = 0 ∨ w > 65535 ∨ h > 65535 then none
  else
    some (Bytes.concat [Bytes.ofList [0xFF, 0xD8],
      segment 0xE0 (Bytes.ofList [0x4A, 0x46, 0x49, 0x46, 0, 1, 2, 0, 0, 1, 0, 1, 0, 0]),
      segment 0xDB (stepsBody 0 lumaSteps), segment 0xDB (stepsBody 1 chromaSteps),
      segment 0xC0 (Bytes.ofList [8] ++ Bytes.big 2 h ++ Bytes.big 2 w ++
        Bytes.ofList [3, 1, 0x11, 0, 2, 0x11, 1, 3, 0x11, 1]),
      segment 0xC4 (codesBody 0x00 lumaMeans), segment 0xC4 (codesBody 0x10 lumaRuns),
      segment 0xC4 (codesBody 0x01 chromaMeans), segment 0xC4 (codesBody 0x11 chromaRuns),
      segment 0xDA (Bytes.ofList [3, 1, 0, 2, 0x11, 3, 0x11, 0, 63, 0]), scan image,
      Bytes.ofList [0xFF, 0xD9]])

/-- The width and height in the frame header, searched from segment to segment. -/
def sizeFrom? (data : ByteArray) : (fuel start : Nat) → Option (Nat × Nat)
  | 0, _ => none
  | fuel + 1, start => do
    let marker ← Bytes.big? data start 2
    let length ← Bytes.big? data (start + 2) 2
    if 0xFFC0 ≤ marker ∧ marker ≤ 0xFFC2 then
      return (← Bytes.big? data (start + 7) 2, ← Bytes.big? data (start + 5) 2)
    else if marker < 0xFFC0 ∨ length < 2 then none
    else sizeFrom? data fuel (start + 2 + length)

/-- The width and height that a file states. -/
def size? (data : ByteArray) : Option (Nat × Nat) := sizeFrom? data data.size 2

end Darkroom.Jpeg
