import Darkroom.Codec.Inflate
import Darkroom.Image.Picture

/-!
# PNG files

Reading of every colour type, bit depth and interlacing, and writing of eight-bit images.  Indexed
colours are looked up, samples of fewer than eight bits are scaled up, and a transparent colour
becomes an alpha channel.

## Main definitions

* `Png.decode?` : the picture in a file.
* `Png.encode?` : the file of an image.
-/

namespace Darkroom.Png

/-- The bytes that every file begins with. -/
def signature : List Nat := [0x89, 0x50, 0x4E, 0x47, 0x0D, 0x0A, 0x1A, 0x0A]

/-- A chunk: its name and its contents. -/
structure Chunk where
  name : String
  body : ByteArray

/-- The name that four bytes spell. -/
def chunkName (data : ByteArray) (start : Nat) : String :=
  String.ofList ((List.range 4).map fun i => Char.ofNat (Bytes.byte data (start + i)))

/-- Whether the check at the end of a chunk fits its name and contents. -/
def checkFits (data : ByteArray) (start length : Nat) : Bool :=
  Bytes.big? data (start + 8 + length) 4 =
    some (Checksum.crc32 (data.extract (start + 4) (start + 8 + length))).toNat

/-- The chunks up to the end chunk or the first one after the image data; that one needs to be there
only as far as its name.  A damaged chunk with a capital first letter spoils the file, any other is
left out. -/
def chunks? (data : ByteArray) : (fuel start : Nat) → (seenData : Bool) → Option (List Chunk)
  | 0, _, _ => none
  | fuel + 1, start, seenData => do
    let length ← Bytes.big? data start 4
    if !Bytes.has data (start + 4) 4 then none
    else
      let name := chunkName data (start + 4)
      let isData := name = "IDAT"
      if name = "IEND" ∨ (seenData ∧ ¬ isData) then return []
      else if !Bytes.has data (start + 8) (length + 4) then none
      else
        let next := start + 12 + length
        if checkFits data start length then
          let rest ← chunks? data fuel next isData
          return ⟨name, data.extract (start + 8) (start + 8 + length)⟩ :: rest
        else if (name.toList.headD ' ').isUpper then none
        else chunks? data fuel next isData

/-- What the first chunk says about an image. -/
structure Header where
  width : Nat
  height : Nat
  depth : Nat
  colors : Nat
  interlaced : Bool

/-- The bit depths that go with a colour type. -/
def depthsOf (colors : Nat) : List Nat :=
  if colors = 0 then [1, 2, 4, 8, 16]
  else if colors = 3 then [1, 2, 4, 8]
  else if colors = 2 ∨ colors = 4 ∨ colors = 6 then [8, 16]
  else []

/-- The contents of the first chunk, where they describe an image with pixels. -/
def header? (body : ByteArray) : Option Header := do
  let width ← Bytes.big? body 0 4
  let height ← Bytes.big? body 4 4
  let depth ← Bytes.big? body 8 1
  let colors ← Bytes.big? body 9 1
  let method ← Bytes.big? body 10 2
  let interlace ← Bytes.big? body 12 1
  if body.size ≠ 13 ∨ width = 0 ∨ height = 0 ∨ width ≥ 0x80000000 ∨ height ≥ 0x80000000 ∨
      method ≠ 0 ∨ interlace > 1 ∨ ¬ (depthsOf colors).contains depth then none
  else return ⟨width, height, depth, colors, interlace = 1⟩

/-- The number of samples of a pixel. -/
def Header.channels (h : Header) : Nat :=
  if h.colors = 2 then 3 else if h.colors = 4 then 2 else if h.colors = 6 then 4 else 1

/-- The bytes of a row of pixels. -/
def Header.rowBytes (h : Header) (width : Nat) : Nat := (width * h.channels * h.depth + 7) / 8

/-- The distance in bytes between samples that go together in filters. -/
def Header.stride (h : Header) : Nat := max (h.channels * h.depth / 8) 1

/-! ### Rows -/

/-- The neighbour that comes nearest to the sum of the left and upper ones less the corner. -/
def paeth (left up corner : Nat) : Nat :=
  let p : Int := (left : Int) + up - corner
  let dl := (p - left).natAbs
  let du := (p - up).natAbs
  let dc := (p - corner).natAbs
  if dl ≤ du ∧ dl ≤ dc then left else if du ≤ dc then up else corner

/-- What a filter predicts for a byte from its neighbours. -/
def prediction? (filter left up corner : Nat) : Option Nat :=
  if filter = 0 then some 0
  else if filter = 1 then some left
  else if filter = 2 then some up
  else if filter = 3 then some ((left + up) / 2)
  else if filter = 4 then some (paeth left up corner)
  else none

/-- A row with its filter undone. -/
def unfilter? (stride : Nat) (filter : Nat) (above raw : ByteArray) : Option ByteArray :=
  (List.range raw.size).foldlM (fun (row : ByteArray) i => do
    let left := if stride ≤ i then Bytes.byte row (i - stride) else 0
    let corner := if stride ≤ i then Bytes.byte above (i - stride) else 0
    let p ← prediction? filter left (Bytes.byte above i) corner
    return row.push (UInt8.ofNat ((Bytes.byte raw i + p) % 256))) ByteArray.empty

/-- The sample at an index of a row. -/
def sample (depth : Nat) (row : ByteArray) (i : Nat) : Nat :=
  if depth = 16 then 256 * Bytes.byte row (2 * i) + Bytes.byte row (2 * i + 1)
  else
    let perByte := 8 / depth
    Bytes.byte row (i / perByte) / Nat.pow 2 (8 - depth * (i % perByte + 1)) %
      Nat.pow 2 depth

/-- The pixels that one pass covers: those at `(x0 + i * dx, y0 + j * dy)`. -/
structure Pass where
  x0 : Nat
  y0 : Nat
  dx : Nat
  dy : Nat

/-- The passes of an image. -/
def passes (interlaced : Bool) : List Pass :=
  if interlaced then
    [⟨0, 0, 8, 8⟩, ⟨4, 0, 8, 8⟩, ⟨0, 4, 4, 8⟩, ⟨2, 0, 4, 4⟩, ⟨0, 2, 2, 4⟩, ⟨1, 0, 2, 2⟩,
      ⟨0, 1, 1, 2⟩]
  else [⟨0, 0, 1, 1⟩]

/-- The samples of pixels, by pixel index, and the position in the data after them. -/
abbrev Samples := Array (List Nat)

/-- Reads the rows of a pass. -/
def readPass? (h : Header) (data : ByteArray) (pass : Pass) (samples : Samples) (start : Nat) :
    Option (Samples × Nat) := do
  let columns := (h.width - pass.x0 + pass.dx - 1) / pass.dx
  let rows := (h.height - pass.y0 + pass.dy - 1) / pass.dy
  if columns = 0 ∨ rows = 0 then return (samples, start)
  else
    let size := h.rowBytes columns
    let (samples, _, start) ← (List.range rows).foldlM (fun (samples, above, start) j => do
      if !Bytes.has data start (size + 1) then none
      else
        let filter := Bytes.byte data start
        let row ← unfilter? h.stride filter above (data.extract (start + 1) (start + 1 + size))
        let y := pass.y0 + j * pass.dy
        let samples := (List.range columns).foldl (fun (samples : Samples) i =>
          let x := pass.x0 + i * pass.dx
          samples.setIfInBounds (y * h.width + x) ((List.range h.channels).map fun c =>
            sample h.depth row (i * h.channels + c))) samples
        return (samples, row, start + 1 + size))
      (samples, (ByteArray.empty : ByteArray), start)
    return (samples, start)

/-- The samples of all pixels. -/
def samples? (h : Header) (data : ByteArray) : Option Samples := do
  let blank : Samples := Array.replicate (h.width * h.height) []
  let (samples, _) ← (passes h.interlaced).foldlM
    (fun (samples, start) pass => readPass? h data pass samples start) (blank, 0)
  return samples

/-! ### Pictures -/

/-- A sample of up to eight bits on the scale of eight bits. -/
def widen (depth v : Nat) : UInt8 := UInt8.ofNat (v * 255 / (Nat.pow 2 depth - 1))

/-- The colour of a palette at an index, black beyond its end. -/
def paletteColor (palette : ByteArray) (i : Nat) : Rgb :=
  if Bytes.has palette (3 * i) 3 then
    ⟨UInt8.ofNat (Bytes.byte palette (3 * i)), UInt8.ofNat (Bytes.byte palette (3 * i + 1)),
      UInt8.ofNat (Bytes.byte palette (3 * i + 2))⟩
  else Rgb.black

/-- The alpha of a palette at an index, solid where none is given. -/
def paletteAlpha (alphas : ByteArray) (i : Nat) : UInt8 :=
  if i < alphas.size then UInt8.ofNat (Bytes.byte alphas i) else 255

/-- The samples of the transparent colour. -/
def transparentColor (channels : Nat) (body : ByteArray) : List Nat :=
  (List.range channels).map fun c => (Bytes.big? body (2 * c) 2).getD 0

/-- The picture of some samples, with the palette and the transparency of its file. -/
def picture? (h : Header) (samples : Samples) (palette transparency : Option ByteArray) :
    Option Picture := do
  let w := UInt32.ofNat h.width
  let ht := UInt32.ofNat h.height
  let build {α : Type} (wrap : Raster α → Picture) (f : List Nat → α) : Option Picture :=
    (Raster.ofArray? w ht (samples.map f)).map wrap
  let word (s : List Nat) (i : Nat) : UInt16 := UInt16.ofNat (s.getD i 0)
  let byte (s : List Nat) (i : Nat) : UInt8 := widen h.depth (s.getD i 0)
  if h.colors = 3 then
    let palette ← palette
    match transparency with
    | none => build .rgb8 fun s => paletteColor palette (s.getD 0 0)
    | some alphas => build .rgba8 fun s =>
      let c := paletteColor palette (s.getD 0 0)
      ⟨c.r, c.g, c.b, paletteAlpha alphas (s.getD 0 0)⟩
  else if h.colors = 0 then
    match transparency with
    | none =>
      if h.depth = 16 then build .grey16 fun s => word s 0 else build .grey8 fun s => byte s 0
    | some body =>
      let key := transparentColor 1 body
      if h.depth = 16 then build .greyAlpha16 fun s => (word s 0, if s = key then 0 else 65535)
      else build .greyAlpha8 fun s => (byte s 0, if s = key then 0 else 255)
  else if h.colors = 2 then
    match transparency with
    | none =>
      if h.depth = 16 then build .rgb16 fun s => (word s 0, word s 1, word s 2)
      else build .rgb8 fun s => ⟨byte s 0, byte s 1, byte s 2⟩
    | some body =>
      let key := transparentColor 3 body
      if h.depth = 16 then
        build .rgba16 fun s => (word s 0, word s 1, word s 2, if s = key then 0 else 65535)
      else build .rgba8 fun s => ⟨byte s 0, byte s 1, byte s 2, if s = key then 0 else 255⟩
  else if h.colors = 4 then
    if h.depth = 16 then build .greyAlpha16 fun s => (word s 0, word s 1)
    else build .greyAlpha8 fun s => (byte s 0, byte s 1)
  else
    if h.depth = 16 then build .rgba16 fun s => (word s 0, word s 1, word s 2, word s 3)
    else build .rgba8 fun s => ⟨byte s 0, byte s 1, byte s 2, byte s 3⟩

/-- The contents of the first chunk with a name. -/
def body? (chunks : List Chunk) (name : String) : Option ByteArray :=
  (chunks.find? (·.name = name)).map Chunk.body

/-- The picture in a file. -/
def decode? (data : ByteArray) : Option Picture := do
  let chunks ← chunks? data data.size 8 false
  match chunks with
  | [] => none
  | first :: rest =>
    if first.name ≠ "IHDR" then none
    else
      let h ← header? first.body
      let compressed := Bytes.concat ((rest.filter (·.name = "IDAT")).map Chunk.body)
      -- every pixel of an uncompressed row takes a bit, and no stream packs more than 1032 to 1
      if h.height * h.rowBytes h.width > 1040 * compressed.size + 65536 then none
      else
        let samples ← samples? h (← Inflate.stream? compressed)
        picture? h samples (body? rest "PLTE") (body? rest "tRNS")

/-! ### Writing -/

/-- A chunk with its length and its check. -/
def writeChunk (name : List Nat) (body : ByteArray) : ByteArray :=
  let checked := Bytes.ofList name ++ body
  Bytes.big 4 body.size ++ checked ++ Bytes.big 4 (Checksum.crc32 checked).toNat

/-- The bytes of an image row by row, each row with the filter that changes nothing. -/
def rowsOf {α : Type} (image : Raster α) (bytes : α → List UInt8) : ByteArray :=
  let w := image.width.toNat
  image.pixels.toList.zipIdx.foldl (fun out (p, i) =>
    let out := if i % w = 0 then out.push 0 else out
    (bytes p).foldl ByteArray.push out) ByteArray.empty

/-- The file of an image; an image without pixels has none. -/
def encode? (canvas : Canvas) : Option ByteArray :=
  if canvas.width = 0 ∨ canvas.height = 0 then none
  else
    let (colors, rows) := match canvas with
      | .rgb image => (2, rowsOf image fun p => [p.r, p.g, p.b])
      | .rgba image => (6, rowsOf image fun p => [p.r, p.g, p.b, p.a])
    let header := Bytes.big 4 canvas.width.toNat ++ Bytes.big 4 canvas.height.toNat ++
      Bytes.ofList [8, colors, 0, 0, 0]
    some (Bytes.concat [Bytes.ofList signature, writeChunk [0x49, 0x48, 0x44, 0x52] header,
      writeChunk [0x49, 0x44, 0x41, 0x54] (Inflate.store rows),
      writeChunk [0x49, 0x45, 0x4E, 0x44] ByteArray.empty])

end Darkroom.Png
