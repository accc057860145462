import Darkroom.Image.Raster
import Darkroom.Numeric.Binary
import Darkroom.Numeric.Word

/-!
# Captions

Text drawn with a built-in font of five by seven cells a character.  Each set cell becomes a square
of pixels, widened on every side for thick strokes.  What falls off the image is cut.  Positions are
words of 64 bits, and a caption so large or so far out that they do not fit breaks the drawing off.

## Main definitions

* `Caption.glyph` : the rows of a character, five bits each.
* `Caption.cellSize` : the side of a cell in pixels.
* `Caption.drawWords` : a text drawn on an image.
-/

namespace Darkroom.Caption

open Numeric (WordFault word)

/-- The rows of a character from the top; the highest of five bits is the leftmost cell.  Small
letters look like capitals, and unknown characters like a question mark. -/
def glyph (c : Char) : List Nat :=
  match c.toUpper with
  | ' ' => [0x00, 0x00, 0x00, 0x00, 0x00, 0x00, 0x00]
  | '0' => [0x0E, 0x11, 0x13, 0x15, 0x19, 0x11, 0x0E]
  | '1' => [0x04, 0x0C, 0x04, 0x04, 0x04, 0x04, 0x0E]
  | '2' => [0x0E, 0x11, 0x01, 0x02, 0x04, 0x08, 0x1F]
  | '3' => [0x1F, 0x02, 0x04, 0x02, 0x01, 0x11, 0x0E]
  | '4' => [0x02, 0x06, 0x0A, 0x12, 0x1F, 0x02, 0x02]
  | '5' => [0x1F, 0x10, 0x1E, 0x01, 0x01, 0x11, 0x0E]
  | '6' => [0x06, 0x08, 0x10, 0x1E, 0x11, 0x11, 0x0E]
  | '7' => [0x1F, 0x01, 0x02, 0x04, 0x08, 0x08, 0x08]
  | '8' => [0x0E, 0x11, 0x11, 0x0E, 0x11, 0x11, 0x0E]
  | '9' => [0x0E, 0x11, 0x11, 0x0F, 0x01, 0x02, 0x0C]
  | 'A' => [0x0E, 0x11, 0x11, 0x1F, 0x11, 0x11, 0x11]
  | 'B' => [0x1E, 0x11, 0x11, 0x1E, 0x11, 0x11, 0x1E]
  | 'C' => [0x0E, 0x11, 0x10, 0x10, 0x10, 0x11, 0x0E]
  | 'D' => [0x1C, 0x12, 0x11, 0x11, 0x11, 0x12, 0x1C]
  | 'E' => [0x1F, 0x10, 0x10, 0x1E, 0x10, 0x10, 0x1F]
  | 'F' => [0x1F, 0x10, 0x10, 0x1E, 0x10, 0x10, 0x10]
  | 'G' => [0x0E, 0x11, 0x10, 0x17, 0x11, 0x11, 0x0F]
  | 'H' => [0x11, 0x11, 0x11, 0x1F, 0x11, 0x11, 0x11]
  | 'I' => [0x0E, 0x04, 0x04, 0x04, 0x04, 0x04, 0x0E]
  | 'J' => [0x07, 0x02, 0x02, 0x02, 0x02, 0x12, 0x0C]
  | 'K' => [0x11, 0x12, 0x14, 0x18, 0x14, 0x12, 0x11]
  | 'L' => [0x10, 0x10, 0x10, 0x10, 0x10, 0x10, 0x1F]
  | 'M' => [0x11, 0x1B, 0x15, 0x15, 0x11, 0x11, 0x11]
  | 'N' => [0x11, 0x11, 0x19, 0x15, 0x13, 0x11, 0x11]
  | 'O' => [0x0E, 0x11, 0x11, 0x11, 0x11, 0x11, 0x0E]
  | 'P' => [0x1E, 0x11, 0x11, 0x1E, 0x10, 0x10, 0x10]
  | 'Q' => [0x0E, 0x11, 0x11, 0x11, 0x15, 0x12, 0x0D]
  | 'R' => [0x1E, 0x11, 0x11, 0x1E, 0x14, 0x12, 0x11]
  | 'S' => [0x0F, 0x10, 0x10, 0x0E, 0x01, 0x01, 0x1E]
  | 'T' => [0x1F, 0x04, 0x04, 0x04, 0x04, 0x04, 0x04]
  | 'U' => [0x11, 0x11, 0x11, 0x11, 0x11, 0x11, 0x0E]
  | 'V' => [0x11, 0x11, 0x11, 0x11, 0x11, 0x0A, 0x04]
  | 'W' => [0x11, 0x11, 0x11, 0x15, 0x15, 0x15, 0x0A]
  | 'X' => [0x11, 0x11, 0x0A, 0x04, 0x0A, 0x11, 0x11]
  | 'Y' => [0x11, 0x11, 0x11, 0x0A, 0x04, 0x04, 0x04]
  | 'Z' => [0x1F, 0x01, 0x02, 0x04, 0x08, 0x10, 0x1F]
  | '.' => [0x00, 0x00, 0x00, 0x00, 0x00, 0x0C, 0x0C]
  | ',' => [0x00, 0x00, 0x00, 0x00, 0x0C, 0x04, 0x08]
  | ':' => [0x00, 0x0C, 0x0C, 0x00, 0x0C, 0x0C, 0x00]
  | '!' => [0x04, 0x04, 0x04, 0x04, 0x04, 0x00, 0x04]
  | '-' => [0x00, 0x00, 0x00, 0x1F, 0x00, 0x00, 0x00]
  | '_' => [0x00, 0x00, 0x00, 0x00, 0x00, 0x00, 0x1F]
  | '/' => [0x00, 0x01, 0x02, 0x04, 0x08, 0x10, 0x00]
  | '(' => [0x02, 0x04, 0x08, 0x08, 0x08, 0x04, 0x02]
  | ')' => [0x08, 0x04, 0x02, 0x02, 0x02, 0x04, 0x08]
  | '+' => [0x00, 0x04, 0x04, 0x1F, 0x04, 0x04, 0x00]
  | '=' => [0x00, 0x00, 0x1F, 0x00, 0x1F, 0x00, 0x00]
  | '\'' => [0x04, 0x04, 0x08, 0x00, 0x00, 0x00, 0x00]
  | '#' => [0x0A, 0x0A, 0x1F, 0x0A, 0x1F, 0x0A, 0x0A]
  | '*' => [0x00, 0x04, 0x15, 0x0E, 0x15, 0x04, 0x00]
  | _ => [0x0E, 0x11, 0x01, 0x02, 0x04, 0x00, 0x04]

/-- The columns of a character. -/
def glyphWidth : Nat := 5

/-- The rows of a character. -/
def glyphHeight : Nat := 7

/-- The cells from one character to the next. -/
def advance : Nat := 6

/-- The side of a cell in pixels: three for a scale of one, and at least one. -/
def cellSize (scale : Float) : Int := max (Numeric.toWord .nearest (scale * 3.0)) 1

/-- The pixels by which a stroke is widened on every side. -/
def padding (thickness : Int) : Int := (max thickness 1 - 1) / 2

/-- Replaces the pixel at coordinates that are cut to 32 bits. -/
def putWord (image : Raster Rgb) (px py : Int) (color : Rgb) : Except WordFault (Raster Rgb) :=
  let x := (px % UInt32.size).toNat
  let y := (py % UInt32.size).toNat
  if image.inside x y then .ok (image.set x y color) else .error .outside

/-- The numbers from `start` up to but not including `stop`. -/
def numbers (start stop : Int) : List Int :=
  (List.range (stop - start).toNat).map fun k : Nat => start + k

/-- Fills the part of a square that lies within the image, row by row. -/
def fillWords (image : Raster Rgb) (x y size : Int) (color : Rgb) :
    Except WordFault (Raster Rgb) := do
  let right := min (← word (x + size)) image.width.toNat
  let bottom := min (← word (y + size)) image.height.toNat
  (numbers (max y 0) bottom).foldlM (fun image py =>
    (numbers (max x 0) right).foldlM (fun image px => putWord image px py color) image) image

/-- Draws one cell of a row of a character, if it is set. -/
def cellWords (left top cell pad : Int) (color : Rgb) (row bits : Nat) (image : Raster Rgb)
    (column : Nat) : Except WordFault (Raster Rgb) :=
  if bits &&& (0x10 >>> column) = 0 then .ok image
  else do
    let x ← word ((← word (left + (← word (column * cell)))) - pad)
    let y ← word ((← word (top + (← word (row * cell)))) - pad)
    let size ← word (cell + (← word (2 * pad)))
    fillWords image x y size color

/-- Draws a character. -/
def characterWords (x top cell pad : Int) (color : Rgb) (image : Raster Rgb) (entry : Char × Nat) :
    Except WordFault (Raster Rgb) := do
  let (c, index) := entry
  let left ← word (x + (← word ((← word (index * advance)) * cell)))
  (glyph c).zipIdx.foldlM (fun image (bits, row) =>
    (List.range glyphWidth).foldlM (cellWords left top cell pad color row bits) image) image

/-- Draws a text with the left end of its base line at `(x, y)`. -/
def drawWords (image : Raster Rgb) (text : String) (x y : Int) (scale : Float) (thickness : Int)
    (color : Rgb) : Except WordFault (Raster Rgb) := do
  let cell := cellSize scale
  let pad := padding thickness
  let top ← word (y - (← word (glyphHeight * cell)))
  text.toList.zipIdx.foldlM (characterWords x top cell pad color) image

end Darkroom.Caption
