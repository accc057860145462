import Darkroom.Fault
import Darkroom.Numeric.Reading
import Darkroom.Text.Blank

/-!
# Regions

Rectangles in pixel coordinates.  A region may reach beyond an image or lie outside it; `clip`
gives the part within.

## Main definitions

* `Region` : a rectangle with its corner nearest to the origin and its size.
* `Region.contains` : the pixels of a region.
* `Region.clip` : the part of a region within an image.
* `Region.read` : a region written as four numbers.
-/

namespace Darkroom

/-- An axis-aligned rectangle in pixel coordinates. -/
structure Region where
  x : UInt32
  y : UInt32
  width : UInt32
  height : UInt32
  deriving DecidableEq, Repr, Inhabited

/-- The sum of two words, or the greatest word when the sum does not fit. -/
def addSaturating (a b : UInt32) : UInt32 :=
  if a + b < a then UInt32.ofNat (UInt32.size - 1) else a + b

namespace Region

/-- Whether a pixel belongs to a region. -/
def contains (r : Region) (px py : UInt32) : Bool :=
  px ≥ r.x && py ≥ r.y && px - r.x < r.width && py - r.y < r.height

/-- The part of a region within an image of the given size; `none` when there is none. -/
def clip (r : Region) (width height : UInt32) : Option Region :=
  if r.x ≥ width ∨ r.y ≥ height then none
  else
    let right := min (addSaturating r.x r.width) width
    let bottom := min (addSaturating r.y r.height) height
    if right ≤ r.x ∨ bottom ≤ r.y then none
    else some ⟨r.x, r.y, right - r.x, bottom - r.y⟩

/-- The written form of a region. -/
def text (r : Region) : String := s!"{r.x},{r.y},{r.width},{r.height}"

/-- Splits a text at every comma. -/
def splitAtCommas : List Char → List (List Char)
  | [] => [[]]
  | c :: rest =>
    if c = ',' then [] :: splitAtCommas rest
    else match splitAtCommas rest with
      | [] => [[c]]
      | part :: parts => (c :: part) :: parts

/-- A coordinate of a region written as `whole`. -/
def readCoordinate (whole : String) (part : List Char) : Except Fault UInt32 :=
  match Numeric.natural? UInt32.size part with
  | some n => .ok (UInt32.ofNat n)
  | none =>
    let shown := String.ofList part
    .error (.invalidValue "region" whole s!"'{shown}' is not a non-negative integer")

/-- A region written as `x,y,width,height`, with blanks allowed around the numbers. -/
def read (s : String) : Except Fault Region :=
  match (splitAtCommas s.toList).map Text.trim with
  | [x, y, width, height] => do
    let x ← readCoordinate s x
    let y ← readCoordinate s y
    let width ← readCoordinate s width
    let height ← readCoordinate s height
    return ⟨x, y, width, height⟩
  | _ => .error (.invalidValue "region" s "Expected x,y,width,height")

/-- Refuses a region without area. -/
def checkArea (field : String) (r : Region) : Except Fault Unit :=
  if r.width = 0 ∨ r.height = 0 then
    .error (.invalidValue field r.text "Region width and height must be greater than 0")
  else .ok ()

end Region

end Darkroom
