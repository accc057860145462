/-!
# Pixels

Colours of one pixel in the forms that images hold.

## Main definitions

* `Rgb`, `Rgba` : colours with eight bits a channel.
-/

namespace Darkroom

/-- A colour without alpha. -/
structure Rgb where
  r : UInt8
  g : UInt8
  b : UInt8
  deriving DecidableEq, Repr, Inhabited

/-- A colour with alpha. -/
structure Rgba where
  r : UInt8
  g : UInt8
  b : UInt8
  a : UInt8
  deriving DecidableEq, Repr, Inhabited

/-- Black, which borders and empty canvases have. -/
def Rgb.black : Rgb := ⟨0, 0, 0⟩

/-- The colour with full alpha. -/
def Rgb.toRgba (p : Rgb) : Rgba := ⟨p.r, p.g, p.b, 255⟩

/-- The colour with its alpha left out. -/
def Rgba.toRgb (p : Rgba) : Rgb := ⟨p.r, p.g, p.b⟩

end Darkroom
