import Darkroom.Codec.Library
import Darkroom.Proofs.Image.Library

/-!
# The library in use keeps the laws

Its blur makes an image of the size of the old one, and its scaling makes one of the given size.
-/

namespace Darkroom

theorem Resize.size_apply (image : Raster Rgb) (width height : UInt32) :
    (Resize.apply image width height).width = width ∧
      (Resize.apply image width height).height = height := by
  rw [Resize.apply]
  split_ifs with hsame hempty
  · exact ⟨hsame.1.symm, hsame.2.symm⟩
  · exact ⟨rfl, rfl⟩
  · exact ⟨rfl, rfl⟩

namespace Codec

instance : LawfulBlur where
  sameSize_blur _ _ := ⟨rfl, rfl⟩

instance : LawfulResize where
  size_resize := Resize.size_apply

end Codec

end Darkroom
