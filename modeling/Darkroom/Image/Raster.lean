import Darkroom.Image.Pixel

/-!
# Rasters

A raster is a rectangle of pixels, stored row by row from the top.  Every operation is described
by what it does to `get?`, the pixel at a column and a row.

## Main definitions

* `Raster` : the pixels of an image, with its size.
* `Raster.get?`, `Raster.set` : reading and replacing one pixel.
* `Raster.ofFn`, `Raster.map` : a raster from a function of the position, and of the pixels.
* `Raster.setRow`, `Raster.setRect` : replacing the pixels of a rectangle.
* `Raster.crop`, `Raster.paste` : cutting a rectangle out and putting it back.
-/

namespace Darkroom

/-- The pixels of an image, row by row from the top. -/
structure Raster (α : Type) where
  width : UInt32
  height : UInt32
  pixels : Array α
  size_pixels : pixels.size = width.toNat * height.toNat

namespace Raster

variable {α β : Type}

/-- Whether a raster has a pixel at a column and a row. -/
def inside (image : Raster α) (x y : Nat) : Bool :=
  x < image.width.toNat && y < image.height.toNat

/-- The pixel at a column and a row. -/
def get? (image : Raster α) (x y : Nat) : Option α :=
  if image.inside x y then image.pixels[y * image.width.toNat + x]? else none

/-- The pixel at a column and a row, `fallback` outside the raster. -/
def getD (image : Raster α) (x y : Nat) (fallback : α) : α := (image.get? x y).getD fallback

/-- The raster with one pixel replaced; unchanged where there is no such pixel. -/
def set (image : Raster α) (x y : Nat) (pixel : α) : Raster α :=
  if image.inside x y then
    { image with
      pixels := image.pixels.setIfInBounds (y * image.width.toNat + x) pixel
      size_pixels := by simp [image.size_pixels] }
  else image

/-- The raster of a size whose pixel at each position is given by a function. -/
def ofFn (width height : UInt32) (f : Nat → Nat → α) : Raster α where
  width := width
  height := height
  pixels := Array.ofFn fun i : Fin (width.toNat * height.toNat) =>
    f (i.val % width.toNat) (i.val / width.toNat)
  size_pixels := by simp

/-- The raster of a size with one colour everywhere. -/
def solid (width height : UInt32) (pixel : α) : Raster α where
  width := width
  height := height
  pixels := Array.replicate (width.toNat * height.toNat) pixel
  size_pixels := by simp

/-- The raster of a size with the given pixels, if their number is right. -/
def ofArray? (width height : UInt32) (pixels : Array α) : Option (Raster α) :=
  if h : pixels.size = width.toNat * height.toNat then some ⟨width, height, pixels, h⟩ else none

/-- The raster with a function applied to every pixel. -/
def map (f : α → β) (image : Raster α) : Raster β where
  width := image.width
  height := image.height
  pixels := image.pixels.map f
  size_pixels := by simp [image.size_pixels]

/-- The raster with `count` pixels of a row replaced, from column `x` on. -/
def setRow (image : Raster α) (x y : Nat) (pixel : α) : (count : Nat) → Raster α
  | 0 => image
  | count + 1 => (image.set (x + count) y pixel).setRow x y pixel count

/-- The raster with a rectangle replaced by one colour, `rows` rows of `columns` pixels from
`(x, y)` on. -/
def setRect (image : Raster α) (x y columns : Nat) (pixel : α) : (rows : Nat) → Raster α
  | 0 => image
  | rows + 1 => (image.setRow x (y + rows) pixel columns).setRect x y columns pixel rows

/-- The pixels of a rectangle as a raster of their own. -/
def crop (image : Raster α) (x y : Nat) (width height : UInt32) (fallback : α) : Raster α :=
  ofFn width height fun px py => image.getD (x + px) (y + py) fallback

/-- The raster with another one put over it at `(x, y)`; what does not fit is cut off. -/
def paste (image patch : Raster α) (x y : Nat) : Raster α where
  width := image.width
  height := image.height
  pixels := image.pixels.mapIdx fun i old =>
    let px := i % image.width.toNat
    let py := i / image.width.toNat
    if x ≤ px ∧ y ≤ py then patch.getD (px - x) (py - y) old else old
  size_pixels := by simp [image.size_pixels]

end Raster

end Darkroom
