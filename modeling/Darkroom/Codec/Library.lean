import Darkroom.Codec.Bmp
import Darkroom.Codec.Jpeg
import Darkroom.Codec.Png
import Darkroom.Image.Library
import Darkroom.Vision.Blur
import Darkroom.Vision.Resize

/-!
# The library in use

The kind of a file is told by its first bytes.  Of the kinds that are known, PNG and BMP files are
decoded; a file of any other kind counts as one that is not well formed.

## Main definitions

* `FileKind.ofBytes?` : the kind of a file.
* `Codec.library` : the codecs, the blur and the scaling as a library for images.
-/

namespace Darkroom

namespace FileKind

/-- The bytes that some text spells. -/
def spelled (s : String) : List Nat := s.toList.map Char.toNat

/-- Starts of files, as runs of bytes at offsets, with the kind that they tell. -/
def starts : List (List (Nat × List Nat) × FileKind) :=
  [([(0, Png.signature)], png), ([(0, [0xFF, 0xD8, 0xFF])], jpeg), ([(0, spelled "GIF89a")], gif),
    ([(0, spelled "GIF87a")], gif), ([(0, spelled "RIFF"), (8, spelled "WEBP")], webp),
    ([(0, [0x4D, 0x4D, 0x00, 0x2A])], tiff), ([(0, [0x49, 0x49, 0x2A, 0x00])], tiff),
    ([(0, spelled "DDS ")], dds), ([(0, spelled "BM")], bmp), ([(0, [0, 0, 1, 0])], ico),
    ([(0, spelled "#?RADIANCE")], hdr), ([(0, [0, 0]), (4, spelled "ftypavif")], avif),
    ([(0, [0x76, 0x2F, 0x31, 0x01])], exr), ([(0, spelled "qoif")], qoi)] ++
    (["P1", "P2", "P3", "P4", "P5", "P6", "P7"].map fun s => ([(0, spelled s)], pnm)) ++
    [([(0, spelled "farbfeld")], farbfeld)]

/-- The kind of a file. -/
def ofBytes? (data : ByteArray) : Option FileKind :=
  (starts.find? fun (runs, _) => runs.all fun (start, bytes) =>
    Bytes.matchesAt data start bytes).map Prod.snd

end FileKind

namespace Codec

/-- A result, or the reason why there is none. -/
def orReason {α : Type} (reason : String) : Option α → Except String α
  | some a => .ok a
  | none => .error reason

/-- The picture in a file of a kind. -/
def decode (kind : FileKind) (data : ByteArray) : Except String Picture :=
  orReason "not a well-formed file of its kind" <|
    match kind with
    | .png => Png.decode? data
    | .bmp => Bmp.decode? data
    | _ => none

/-- The file of an image in a format.  Only BMP files can be without pixels. -/
def encode (format : OutputFormat) (canvas : Canvas) : Except String ByteArray :=
  orReason "the size of the image does not fit the format" <|
    match format with
    | .png => Png.encode? canvas
    | .jpeg => Jpeg.encode? canvas.toRgb
    | .bmp => some (Bmp.encode canvas)

/-- The codecs, the blur and the scaling as a library for images. -/
instance library : ImageLibrary where
  kind? := FileKind.ofBytes?
  decode := decode
  encode := encode
  blur := Blur.apply
  canBlur sigma _ := Blur.isUsable sigma
  resize := Resize.apply

end Codec

end Darkroom
