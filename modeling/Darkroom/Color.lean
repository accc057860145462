import Darkroom.Fault
import Darkroom.Image.Pixel
import Darkroom.Json.Token
import Darkroom.Text.Blank

/-!
# Colours as text

A colour is written as six or eight hexadecimal digits, red first and alpha last.

## Main definitions

* `Color.read` : the colour that a text names.
-/

namespace Darkroom.Color

/-- The fault of a text that names no colour. -/
def invalid (text reason : String) : Fault := .invalidValue "color" text reason

/-- The value of two characters: two hexadecimal digits, or a plus sign and one. -/
def channel? (high low : Char) : Option UInt8 :=
  match Json.hexValue? low with
  | none => none
  | some l =>
    if high = '+' then some (UInt8.ofNat l)
    else (Json.hexValue? high).map fun h => UInt8.ofNat (16 * h + l)

/-- The values of a text's characters taken two by two. -/
def channels? : List Char → Option (List UInt8)
  | high :: low :: rest => do
    let c ← channel? high low
    return c :: (← channels? rest)
  | _ => some []

/-- The colour that a text names: six or eight digits after any number signs, with blanks around
them.  Without alpha digits the colour is solid. -/
def read (text : String) : Except Fault Rgba :=
  let digits := (Text.trim text.toList).dropWhile (· == '#')
  if ¬ ((digits.length = 6 ∨ digits.length = 8) ∧ digits.all fun c => c.toNat < 128) then
    .error (invalid text "Expected RRGGBB or RRGGBBAA")
  else match channels? digits with
    | some [r, g, b] => .ok ⟨r, g, b, 255⟩
    | some [r, g, b, a] => .ok ⟨r, g, b, a⟩
    | _ => .error (invalid text "Not a hexadecimal colour")

end Darkroom.Color
