import Darkroom.Image.Picture
import Darkroom.OutputFormat

/-!
# The image library

Files are decoded and encoded by a library for images, which also blurs and scales.  What it does is
not settled here: its operations are the fields of a class, and everything that works on images is
defined for any such library.

## Main definitions

* `FileKind` : the kinds of image files.
* `ImageLibrary` : the operations of the library.
* `Picture.ofFile` : the picture in a file.
* `Canvas.encode` : the file of an image.
-/

namespace Darkroom

/-- A kind of image file, as its first bytes tell. -/
inductive FileKind where
  | png
  | jpeg
  | gif
  | webp
  | tiff
  | dds
  | bmp
  | ico
  | hdr
  | avif
  | exr
  | qoi
  | pnm
  | farbfeld
  deriving DecidableEq, Repr

/-- A library for images. -/
class ImageLibrary where
  /-- The kind of file that some bytes begin. -/
  kind? : ByteArray → Option FileKind
  /-- The picture in a file of a kind, or the reason why there is none. -/
  decode : FileKind → ByteArray → Except String Picture
  /-- The file of an image in a format, or the reason why there is none. -/
  encode : OutputFormat → Canvas → Except String ByteArray
  /-- An image blurred with a width, where a call with that width returns. -/
  blur : Float32 → Raster Rgba → Raster Rgba
  /-- Whether a call that blurs an image with a width returns. -/
  canBlur : Float32 → Raster Rgba → Bool
  /-- An image scaled to a size. -/
  resize : Raster Rgb → UInt32 → UInt32 → Raster Rgb

section Files

variable [ImageLibrary]

/-- The picture in a file, which faults call by a name. -/
def Picture.ofFile (name : String) (data : ByteArray) : Except Fault Picture :=
  match ImageLibrary.kind? data with
  | none => .error (.unsupportedFormat s!"unrecognized data in '{name}'")
  | some kind => (ImageLibrary.decode kind data).mapError (.unreadableImage name)

/-- The image that is encoded for a format, as JPEG files have no alpha. -/
def Canvas.preparedFor (canvas : Canvas) : OutputFormat → Canvas
  | .jpeg => .rgb canvas.toRgb
  | _ => canvas

/-- The file of an image in a format. -/
def Canvas.encode (canvas : Canvas) (format : OutputFormat) : Except Fault ByteArray :=
  (ImageLibrary.encode format (canvas.preparedFor format)).mapError .codec

end Files

end Darkroom
