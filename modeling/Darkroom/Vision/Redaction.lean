import Darkroom.Image.Library
import Darkroom.Job

/-!
# Redaction

Hiding regions of an image.  A region is clipped to the image first; one that lies outside changes
nothing and does not count.

## Main definitions

* `Redaction.fill`, `Redaction.pixelate`, `Redaction.blur` : the three ways to hide an area.
* `Redaction.applyRegion` : hides one region, if it overlaps the image.
* `Redaction.applyJob` : hides the regions of a job in turn and counts those that overlap.
-/

namespace Darkroom.Redaction

/-- Fills an area with a colour. -/
def fill (image : Raster Rgba) (area : Region) (color : Rgba) : Raster Rgba :=
  image.setRect area.x.toNat area.y.toNat area.width.toNat color area.height.toNat

/-! ### Pixelation -/

/-- Sums of the four channels over some pixels, and the number of those pixels. -/
structure Totals where
  r : Nat := 0
  g : Nat := 0
  b : Nat := 0
  a : Nat := 0
  count : Nat := 0

/-- The sums with one more pixel. -/
def Totals.add (t : Totals) (p : Rgba) : Totals :=
  ⟨t.r + p.r.toNat, t.g + p.g.toNat, t.b + p.b.toNat, t.a + p.a.toNat, t.count + 1⟩

/-- The mean of the pixels, rounded down channel by channel. -/
def Totals.mean (t : Totals) : Rgba :=
  ⟨UInt8.ofNat (t.r / t.count), UInt8.ofNat (t.g / t.count), UInt8.ofNat (t.b / t.count),
    UInt8.ofNat (t.a / t.count)⟩

/-- The sums with `count` pixels of a row, from `(x, y)` on. -/
def addRow (image : Raster Rgba) (x y : Nat) (totals : Totals) : (count : Nat) → Totals
  | 0 => totals
  | count + 1 =>
    let before := addRow image x y totals count
    match image.get? (x + count) y with
    | some p => before.add p
    | none => before

/-- The sums over a block of `rows` rows of `columns` pixels from `(x, y)` on. -/
def totals (image : Raster Rgba) (x y columns : Nat) : (rows : Nat) → Totals
  | 0 => {}
  | rows + 1 => addRow image x (y + rows) (totals image x y columns rows) columns

/-- Replaces a block by its mean. -/
def flatten (image : Raster Rgba) (x y columns rows : Nat) : Raster Rgba :=
  image.setRect x y columns (totals image x y columns rows).mean rows

/-- Flattens the blocks of a strip, with `left` columns of it still to do from column `x` on. -/
def flattenStrip (image : Raster Rgba) (block x y rows left : Nat) : Raster Rgba :=
  if left = 0 ∨ block = 0 then image
  else
    let columns := min block left
    flattenStrip (flatten image x y columns rows) block (x + block) y rows (left - columns)
termination_by left
decreasing_by omega

/-- Flattens the blocks of an area, with `left` rows of it still to do from row `y` on. -/
def flattenArea (image : Raster Rgba) (block x y columns left : Nat) : Raster Rgba :=
  if left = 0 ∨ block = 0 then image
  else
    let rows := min block left
    flattenArea (flattenStrip image block x y rows columns) block x (y + block) columns
      (left - rows)
termination_by left
decreasing_by omega

/-- Cuts an area into blocks, beginning at its corner, and replaces each by its mean.  A block size
of zero acts as one. -/
def pixelate (image : Raster Rgba) (area : Region) (blockSize : UInt32) : Raster Rgba :=
  flattenArea image (max blockSize.toNat 1) area.x.toNat area.y.toNat area.width.toNat
    area.height.toNat

/-! ### Jobs -/

/-- The pixels of an area as an image of their own. -/
def patch (image : Raster Rgba) (area : Region) : Raster Rgba :=
  image.crop area.x.toNat area.y.toNat area.width area.height default

section Jobs

variable [ImageLibrary]

/-- Blurs an area by itself, so that nothing of its surroundings bleeds in. -/
def blur (image : Raster Rgba) (area : Region) (sigma : Float32) : Raster Rgba :=
  image.paste (ImageLibrary.blur sigma (patch image area)) area.x.toNat area.y.toNat

/-- Hides an area that lies within the image. -/
def hide (image : Raster Rgba) (area : Region) : Mode → Raster Rgba
  | .fill color => fill image area color
  | .pixelate blockSize => pixelate image area blockSize
  | .blur sigma => blur image area sigma

/-- Hides a region; `none` when it does not overlap the image. -/
def applyRegion? (image : Raster Rgba) (region : Region) (mode : Mode) : Option (Raster Rgba) :=
  (region.clip image.width image.height).map fun area => hide image area mode

/-- Hides regions in turn, counting those that overlap the image. -/
def applyRegions (mode : Mode) (image : Raster Rgba) (applied : Nat) :
    List Region → Raster Rgba × Nat
  | [] => (image, applied)
  | region :: regions =>
    match applyRegion? image region mode with
    | some hidden => applyRegions mode hidden (applied + 1) regions
    | none => applyRegions mode image applied regions

/-- Hides the regions of a job, and counts those that overlap the image. -/
def applyJob (job : Job) (image : Raster Rgba) : Raster Rgba × Nat :=
  applyRegions job.mode image 0 job.regions

/-- Whether all the calls return that blur regions in turn. -/
def canBlurRegions (sigma : Float32) (image : Raster Rgba) : List Region → Bool
  | [] => true
  | region :: regions =>
    match region.clip image.width image.height with
    | some area =>
      ImageLibrary.canBlur sigma (patch image area) &&
        canBlurRegions sigma (blur image area sigma) regions
    | none => canBlurRegions sigma image regions

/-- Whether the mode of a job can work on an image: only a blur may fail to. -/
def isWorkable (job : Job) (image : Raster Rgba) : Bool :=
  match job.mode with
  | .blur sigma => canBlurRegions sigma image job.regions
  | _ => true

end Jobs

end Darkroom.Redaction
