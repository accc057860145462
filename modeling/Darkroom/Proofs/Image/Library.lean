import Darkroom.Image.Library
import Darkroom.Proofs.Image.Raster

/-!
# Sizes of what the image library makes

A blur leaves the size of an image as it is, and scaling leads to the size that was asked for. These
are laws of the library, each in a class of its own, so that a result assumes only what it uses.

## Main definitions

* `LawfulBlur`, `LawfulResize` : libraries that keep the laws.
-/

namespace Darkroom

/-- A library whose blur keeps the size of an image. -/
class LawfulBlur [ImageLibrary] : Prop where
  sameSize_blur : ∀ (sigma : Float32) (image : Raster Rgba),
    (ImageLibrary.blur sigma image).SameSize image

/-- A library that scales images to the size that is asked for. -/
class LawfulResize [ImageLibrary] : Prop where
  size_resize : ∀ (image : Raster Rgb) (width height : UInt32),
    (ImageLibrary.resize image width height).width = width ∧
      (ImageLibrary.resize image width height).height = height

end Darkroom
