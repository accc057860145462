import Darkroom.Image.Raster

/-!
# Pictures

A picture is a raster in one of the colour types that files use; a canvas is one that can be
written to a file.

## Main definitions

* `Picture` : a decoded image.
* `Picture.toRgb`, `Picture.toRgba` : its pixels with eight bits a channel.
* `Canvas` : an image to be encoded.
-/

namespace Darkroom

/-- A decoded image: grey or coloured, with or without alpha, eight or sixteen bits a channel, or
coloured with a fraction of one in each channel. -/
inductive Picture where
  | grey8 (raster : Raster UInt8)
  | greyAlpha8 (raster : Raster (UInt8 × UInt8))
  | rgb8 (raster : Raster Rgb)
  | rgba8 (raster : Raster Rgba)
  | grey16 (raster : Raster UInt16)
  | greyAlpha16 (raster : Raster (UInt16 × UInt16))
  | rgb16 (raster : Raster (UInt16 × UInt16 × UInt16))
  | rgba16 (raster : Raster (UInt16 × UInt16 × UInt16 × UInt16))
  | rgb32f (raster : Raster (Float32 × Float32 × Float32))
  | rgba32f (raster : Raster (Float32 × Float32 × Float32 × Float32))

namespace Picture

/-- A sixteen-bit sample on the scale of eight bits, to the nearest. -/
def narrow (v : UInt16) : UInt8 := UInt8.ofNat ((v.toNat + 128) / 257)

/-- A fraction of one on the scale of eight bits, to the nearest; one stands for all that is not
below it. -/
def ofFraction (v : Float32) : UInt8 :=
  let cut := if v < 1.0 then (if v > 0.0 then v else 0.0) else 1.0
  (cut * 255.0).round.toUInt8

/-- The pixels with alpha, solid where the picture has none. -/
def toRgba : Picture → Raster Rgba
  | grey8 r => r.map fun v => ⟨v, v, v, 255⟩
  | greyAlpha8 r => r.map fun (v, a) => ⟨v, v, v, a⟩
  | rgb8 r => r.map Rgb.toRgba
  | rgba8 r => r
  | grey16 r => r.map fun v => ⟨narrow v, narrow v, narrow v, 255⟩
  | greyAlpha16 r => r.map fun (v, a) => ⟨narrow v, narrow v, narrow v, narrow a⟩
  | rgb16 r => r.map fun (r, g, b) => ⟨narrow r, narrow g, narrow b, 255⟩
  | rgba16 r => r.map fun (r, g, b, a) => ⟨narrow r, narrow g, narrow b, narrow a⟩
  | rgb32f r => r.map fun (r, g, b) => ⟨ofFraction r, ofFraction g, ofFraction b, 255⟩
  | rgba32f r => r.map fun (r, g, b, a) =>
    ⟨ofFraction r, ofFraction g, ofFraction b, ofFraction a⟩

/-- The pixels without alpha; what alpha a picture has is dropped. -/
def toRgb (picture : Picture) : Raster Rgb :=
  match picture with
  | rgb8 r => r
  | other => other.toRgba.map Rgba.toRgb

/-- The name of the colour type. -/
def colorType : Picture → String
  | grey8 _ => "L8"
  | greyAlpha8 _ => "La8"
  | rgb8 _ => "Rgb8"
  | rgba8 _ => "Rgba8"
  | grey16 _ => "L16"
  | greyAlpha16 _ => "La16"
  | rgb16 _ => "Rgb16"
  | rgba16 _ => "Rgba16"
  | rgb32f _ => "Rgb32F"
  | rgba32f _ => "Rgba32F"

end Picture

/-- An image to be encoded. -/
inductive Canvas where
  | rgb (raster : Raster Rgb)
  | rgba (raster : Raster Rgba)

namespace Canvas

/-- The width of an image. -/
def width : Canvas → UInt32
  | rgb r => r.width
  | rgba r => r.width

/-- The height of an image. -/
def height : Canvas → UInt32
  | rgb r => r.height
  | rgba r => r.height

/-- The pixels without alpha. -/
def toRgb : Canvas → Raster Rgb
  | rgb r => r
  | rgba r => r.map Rgba.toRgb

/-- The image as a picture. -/
def toPicture : Canvas → Picture
  | rgb r => .rgb8 r
  | rgba r => .rgba8 r

end Canvas

end Darkroom
