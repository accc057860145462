import Darkroom.Numeric.Binary

/-!
# Reading numbers

Integers within bounds and decimal fractions, as they stand in command lines, value nodes and
region texts.  Every reader takes the whole text: no blanks, no digit separators.

## Main definitions

* `digitsValue?` : the value of a non-empty run of decimal digits.
* `natural?`, `integer?` : integers below a bound, with an optional sign.
* `Literal`, `decimalLiteral?` : a decimal number or one of the words for infinity and not-a-number.
* `single?` : the nearest single to a decimal text.
-/

namespace Darkroom.Numeric

/-- The value of a decimal digit. -/
def digitValue (c : Char) : Nat := c.toNat - '0'.toNat

/-- The number written by a list of decimal digits, after the digits read before it. -/
def digitsValueFrom (acc : Nat) (ds : List Char) : Nat :=
  ds.foldl (fun n c => 10 * n + digitValue c) acc

/-- The number written by decimal digits; `none` for no digits or any other character. -/
def digitsValue? (ds : List Char) : Option Nat :=
  if ds ≠ [] ∧ ds.all Char.isDigit then some (digitsValueFrom 0 ds) else none

/-- A natural number below `bound`, with an optional plus sign. -/
def natural? (bound : Nat) (s : List Char) : Option Nat :=
  let digits := match s with
    | '+' :: rest => rest
    | _ => s
  (digitsValue? digits).filter (· < bound)

/-- An integer from `-2 ^ bits` up to, not including, `2 ^ bits`, with an optional sign. -/
def integer? (bits : Nat) (s : List Char) : Option Int :=
  match s with
  | '-' :: rest =>
    (digitsValue? rest).bind fun n => if n ≤ Nat.pow 2 bits then some (-(n : Int)) else none
  | _ => (natural? (Nat.pow 2 bits) s).map Int.ofNat

/-- What a decimal text denotes. -/
inductive Literal where
  | finite (negative : Bool) (digits : Nat) (exponent : Int)
  | infinite (negative : Bool)
  | notANumber (negative : Bool)
  deriving DecidableEq, Repr

/-- The decimal exponent after the letter `e`: an optional sign and digits. -/
def exponentPart? : List Char → Option Int
  | [] => some 0
  | c :: rest =>
    if c = 'e' ∨ c = 'E' then
      match rest with
      | '-' :: ds => (digitsValue? ds).map fun n => -(n : Int)
      | '+' :: ds => (digitsValue? ds).map Int.ofNat
      | ds => (digitsValue? ds).map Int.ofNat
    else none

/-- An unsigned decimal: digits with an optional point among, before or after them, then an
optional exponent. -/
def unsignedDecimal? (s : List Char) : Option (Nat × Int) :=
  let whole := s.takeWhile Char.isDigit
  let afterWhole := s.dropWhile Char.isDigit
  let afterPoint := match afterWhole with
    | '.' :: rest => rest
    | _ => []
  let fraction := afterPoint.takeWhile Char.isDigit
  let rest := match afterWhole with
    | '.' :: _ => afterPoint.dropWhile Char.isDigit
    | _ => afterWhole
  if whole.isEmpty && fraction.isEmpty then none
  else (exponentPart? rest).map fun e =>
    (digitsValueFrom 0 (whole ++ fraction), e - (fraction.length : Int))

/-- A decimal literal: an optional sign, then a decimal, `inf`, `infinity` or `nan` in any case. -/
def decimalLiteral? (s : List Char) : Option Literal :=
  let negative := s.head? = some '-'
  let body := match s with
    | '-' :: rest => rest
    | '+' :: rest => rest
    | _ => s
  let word := String.ofList (body.map Char.toLower)
  if word = "inf" ∨ word = "infinity" then some (.infinite negative)
  else if word = "nan" then some (.notANumber negative)
  else (unsignedDecimal? body).map fun (digits, e) => .finite negative digits e

/-- The single nearest to what a literal denotes. -/
def Literal.toSingle : Literal → Float32
  | .finite negative digits e => single negative (BinaryFormat.single.ofDecimal digits e)
  | .infinite negative => single negative BinaryFormat.single.infinity
  | .notANumber negative => single negative (BinaryFormat.single.infinity + 0x400000)

/-- The double nearest to what a literal denotes. -/
def Literal.toDouble : Literal → Float
  | .finite negative digits e => double negative (BinaryFormat.double.ofDecimal digits e)
  | .infinite negative => double negative BinaryFormat.double.infinity
  | .notANumber negative => double negative (BinaryFormat.double.infinity + 0x8000000000000)

/-- The single nearest to a decimal text. -/
def single? (s : String) : Option Float32 := (decimalLiteral? s.toList).map Literal.toSingle

end Darkroom.Numeric
