import Darkroom.Codec.Bytes
import Darkroom.Image.Picture

/-!
# BMP files

Reading of uncompressed files with a palette, with 16, 24 or 32 bits a pixel, or with bit masks,
and writing of 24 or 32 bits a pixel.

## Main definitions

* `Bmp.decode?` : the picture in a file.
* `Bmp.encode` : the file of an image.
-/

namespace Darkroom.Bmp

/-- The place of a channel within a pixel: the lowest bit and the number of bits. -/
structure Field where
  shift : Nat
  width : Nat

/-- The place that a mask marks, whose bits have to be adjacent. -/
def Field.ofMask? (mask : Nat) : Option Field :=
  if mask = 0 then some ⟨0, 0⟩
  else
    let shift := (List.range 32).find? fun i => mask.testBit i
    shift.bind fun shift =>
      let width := (mask / Nat.pow 2 shift).log2 + 1
      if mask = (Nat.pow 2 width - 1) * Nat.pow 2 shift then some ⟨shift, width⟩ else none

/-- The value of a channel on the scale of eight bits. -/
def Field.read (f : Field) (pixel : Nat) : UInt8 :=
  if f.width = 0 then 0
  else if f.width ≥ 8 then UInt8.ofNat (pixel / Nat.pow 2 (f.shift + f.width - 8) % 256)
  else
    let top := Nat.pow 2 f.width - 1
    UInt8.ofNat ((2 * (pixel / Nat.pow 2 f.shift % Nat.pow 2 f.width) * 255 + top) / (2 * top))

/-- What the headers say about an image. -/
structure Header where
  dataStart : Nat
  headerSize : Nat
  width : Nat
  height : Nat
  /-- Whether rows run from the top down. -/
  topDown : Bool
  depth : Nat
  compression : Nat
  paletteSize : Nat

/-- A number of 32 bits with a sign. -/
def signed (n : Nat) : Int := if n ≥ 0x80000000 then (n : Int) - UInt32.size else n

/-- The greatest side of an image. -/
def maxSide : Nat := 65535

/-- The headers of a file, where they describe an image with pixels. -/
def header? (data : ByteArray) : Option Header := do
  let magic ← Bytes.little? data 0 2
  let dataStart ← Bytes.little? data 10 4
  let headerSize ← Bytes.little? data 14 4
  let isCore := headerSize = 12
  if magic ≠ 0x4D42 ∨ ¬ [12, 40, 52, 56, 108, 124].contains headerSize ∨
      !Bytes.has data 14 headerSize then none
  else
    let width ← if isCore then Bytes.little? data 18 2 else Bytes.little? data 18 4
    let height ← if isCore then Bytes.little? data 20 2 else Bytes.little? data 22 4
    let planes ← Bytes.little? data (if isCore then 22 else 26) 2
    let depth ← Bytes.little? data (if isCore then 24 else 28) 2
    let compression ← if isCore then some 0 else Bytes.little? data 30 4
    let used ← if isCore then some 0 else Bytes.little? data 46 4
    let width := if isCore then (width : Int) else signed width
    let height := if isCore then (height : Int) else signed height
    let paletteSize :=
      if depth > 8 then 0 else if used = 0 then Nat.pow 2 depth else min used (Nat.pow 2 depth)
    if planes ≠ 1 ∨ width ≤ 0 ∨ height = 0 ∨ width > maxSide ∨ height.natAbs > maxSide then none
    else
      return ⟨dataStart, headerSize, width.toNat, height.natAbs, height < 0, depth, compression,
        paletteSize⟩

/-- How a pixel is turned into a colour. -/
inductive Coding where
  | palette (colors : Array Rgb)
  | fields (r g b : Field) (a : Option Field)

/-- The palette after the headers; an entry of the oldest headers takes three bytes. -/
def palette? (data : ByteArray) (h : Header) : Option (Array Rgb) :=
  let start := 14 + h.headerSize
  let entry := if h.headerSize = 12 then 3 else 4
  if !Bytes.has data start (h.paletteSize * entry) then none
  else
    let byte (i : Nat) : UInt8 := UInt8.ofNat (Bytes.byte data i)
    some ((List.range h.paletteSize).map fun i =>
      let here := start + i * entry
      ⟨byte (here + 2), byte (here + 1), byte here⟩).toArray

/-- The masks of a file, with a fourth one for alpha in headers that have it. -/
def masks? (data : ByteArray) (h : Header) : Option Coding := do
  let r ← Field.ofMask? (← Bytes.little? data 54 4)
  let g ← Field.ofMask? (← Bytes.little? data 58 4)
  let b ← Field.ofMask? (← Bytes.little? data 62 4)
  let alpha ← if h.headerSize ≥ 56 then Bytes.little? data 66 4 else some 0
  let a ← Field.ofMask? alpha
  return .fields r g b (if alpha = 0 then none else some a)

/-- The coding of the pixels of a file. -/
def coding? (data : ByteArray) (h : Header) : Option Coding :=
  if h.compression = 0 then
    if [1, 2, 4, 8].contains h.depth then (palette? data h).map Coding.palette
    else if h.depth = 16 then some (.fields ⟨10, 5⟩ ⟨5, 5⟩ ⟨0, 5⟩ none)
    else if h.depth = 24 ∨ h.depth = 32 then some (.fields ⟨16, 8⟩ ⟨8, 8⟩ ⟨0, 8⟩ none)
    else none
  else if h.compression = 3 ∧ (h.depth = 16 ∨ h.depth = 32) then masks? data h
  else none

/-- The bytes of a row, which is filled up to a multiple of four. -/
def rowBytes (depth width : Nat) : Nat := (width * depth + 31) / 32 * 4

/-- The value of the pixel in a column of a row that starts at an offset. -/
def pixelValue (data : ByteArray) (depth start x : Nat) : Nat :=
  if depth < 8 then
    let perByte := 8 / depth
    Bytes.byte data (start + x / perByte) / Nat.pow 2 (8 - depth * (x % perByte + 1)) %
      Nat.pow 2 depth
  else (Bytes.little? data (start + x * (depth / 8)) (depth / 8)).getD 0

/-- The picture in a file. -/
def decode? (data : ByteArray) : Option Picture := do
  let h ← header? data
  let coding ← coding? data h
  let size := rowBytes h.depth h.width
  if !Bytes.has data h.dataStart (size * h.height) then none
  else
    let value (x y : Nat) : Nat :=
      let row := if h.topDown then y else h.height - 1 - y
      pixelValue data h.depth (h.dataStart + row * size) x
    let build {α : Type} (f : Nat → α) : Raster α :=
      Raster.ofFn (UInt32.ofNat h.width) (UInt32.ofNat h.height) fun x y => f (value x y)
    match coding with
    | .palette colors => return .rgb8 (build fun v => colors.getD v Rgb.black)
    | .fields r g b none => return .rgb8 (build fun v => ⟨r.read v, g.read v, b.read v⟩)
    | .fields r g b (some a) =>
      return .rgba8 (build fun v => ⟨r.read v, g.read v, b.read v, a.read v⟩)

/-! ### Writing -/

/-- A row of pixels, filled with zeros up to a size. -/
def rowOf {α : Type} (size : Nat) (bytes : α → List UInt8) (pixels : List α) : List UInt8 :=
  let row := pixels.flatMap bytes
  row ++ List.replicate (size - row.length) 0

/-- The rows of an image from the bottom up. -/
def rowsOf {α : Type} (image : Raster α) (size : Nat) (bytes : α → List UInt8) : ByteArray :=
  let w := image.width.toNat
  let rows := (List.range image.height.toNat).reverse.map fun y =>
    rowOf size bytes (image.pixels.extract (y * w) ((y + 1) * w)).toList
  ⟨rows.flatten.toArray⟩

/-- The file of an image: 24 bits a pixel without alpha, and 32 bits a pixel with masks and a
colour space with it. -/
def encode (canvas : Canvas) : ByteArray :=
  let (depth, headerSize) := match canvas with
    | .rgb _ => (24, 40)
    | .rgba _ => (32, 108)
  let size := rowBytes depth canvas.width.toNat
  let imageSize := size * canvas.height.toNat
  let start := 14 + headerSize
  let rows := match canvas with
    | .rgb image => rowsOf image size fun p => [p.b, p.g, p.r]
    | .rgba image => rowsOf image size fun p => [p.b, p.g, p.r, p.a]
  let common := [Bytes.ofList [0x42, 0x4D], Bytes.little 4 (start + imageSize), Bytes.little 4 0,
    Bytes.little 4 start, Bytes.little 4 headerSize, Bytes.little 4 canvas.width.toNat,
    Bytes.little 4 canvas.height.toNat, Bytes.little 2 1, Bytes.little 2 depth,
    Bytes.little 4 (if depth = 32 then 3 else 0), Bytes.little 4 imageSize, Bytes.little 8 0,
    Bytes.little 8 0]
  let masks := [Bytes.little 4 0xFF0000, Bytes.little 4 0xFF00, Bytes.little 4 0xFF,
    Bytes.little 4 0xFF000000, Bytes.little 4 0x73524742, Bytes.little 48 0]
  Bytes.concat (common ++ (if depth = 32 then masks else []) ++ [rows])

end Darkroom.Bmp
