import Darkroom.Numeric.Binary

/-!
# Decimal text of floating-point numbers

A number is written with the fewest significant digits that still read back as the same number;
where several decimals of that length qualify, the nearest one is written.  How the digits are
laid out (where exponent notation starts, whether an integer keeps `.0`, what stands for a number
that is not finite) is a `Layout`, chosen by the format that the text belongs to.

## Main definitions

* `Decimal` : digits and a power of ten.
* `shortest` : the shortest decimal that reads back.
* `Layout`, `Layout.text` : the text of a number in a given layout.
* `plain` : the layout of messages, always positional.
* `fixed` : a fixed number of places, ties to even.
-/

namespace Darkroom.Numeric

/-- The number `digits * 10 ^ exponent`. -/
structure Decimal where
  digits : Nat
  exponent : Int
  deriving DecidableEq, Repr

/-- Which of two equally near decimals is taken. -/
inductive Tie where
  | up
  | toEven
  deriving DecidableEq, Repr

namespace Decimal

/-- Moves factors of ten from the digits into the exponent, at most `fuel` of them. -/
def trim : Nat → Decimal → Decimal
  | 0, d => d
  | fuel + 1, d =>
    if d.digits ≠ 0 ∧ d.digits % 10 = 0 then trim fuel ⟨d.digits / 10, d.exponent + 1⟩ else d

end Decimal

/-- The number of decimal digits before the point of `m * 2 ^ e`; negative when zeros follow the
point. -/
def digitCount (m : Nat) (e : Int) : Int :=
  let guess := ((m.log2 : Int) + e) * 30103 / 100000
  let reaches (k : Int) : Bool :=
    let (num, den) := powerRatio e k
    m * num ≥ den
  if reaches (guess + 1) then guess + 2
  else if reaches guess then guess + 1
  else guess

/-- The decimal of `length` digits nearest to `m * 2 ^ e` among those strictly nearer to it than
to its neighbours in the format, if there is one.  The lower neighbour is `gap / 4` units of the
last place away from the midpoint; midpoints count when `m` is even. -/
def nearestOfLength (m : Nat) (e : Int) (gap : Nat) (tie : Tie) (point : Int) (length : Nat) :
    Option Decimal :=
  let k := point - (length : Int)
  let (num, den) := powerRatio e k
  let t := m * num / den
  let reads (x : Nat) : Bool :=
    let low := (4 * m - gap) * num
    let high := (4 * m + 2) * num
    let here := 4 * x * den
    if m % 2 = 0 then low ≤ here && here ≤ high else low < here && here < high
  let below := m * num - t * den
  let above := (t + 1) * den - m * num
  let takesUpper : Bool :=
    above < below || (above == below && (tie == .up || t % 2 == 1))
  if reads t && reads (t + 1) then some ⟨if takesUpper then t + 1 else t, k⟩
  else if reads t then some ⟨t, k⟩
  else if reads (t + 1) then some ⟨t + 1, k⟩
  else none

/-- The shortest decimal that reads back as the finite number with these magnitude bits. -/
def shortest (f : BinaryFormat) (tie : Tie) (bits : Nat) : Decimal :=
  let m := f.significand bits
  let e := f.exponent bits
  if m = 0 then ⟨0, 0⟩
  else
    let unit := Nat.pow 2 (f.precision - 1)
    -- just above a power of two the lower neighbour is half as far
    let gap := if m = unit ∧ e > f.minExponent then 1 else 2
    let found := (List.range 18).findSome? fun n =>
      nearestOfLength m e gap tie (digitCount m e) (n + 1)
    (found.getD ⟨m, e⟩).trim 20

/-- Layout decisions of a number's text. -/
structure Layout where
  /-- Positional notation covers these decimal exponents; `none` covers all. -/
  positional : Option (Int × Int)
  /-- Whether a number without fraction digits ends in `.0`. -/
  pointZero : Bool
  tie : Tie
  notANumber : String
  infinite : String
  negativeInfinite : String

namespace Layout

/-- The digits `d` with a point after `point` of them, zeros filled in where needed. -/
def positionalText (pointZero : Bool) (d : String) (point : Int) : String :=
  let n : Int := d.length
  if point ≤ 0 then "0." ++ String.ofList (List.replicate (-point).toNat '0') ++ d
  else if n ≤ point then
    d ++ String.ofList (List.replicate (point - n).toNat '0') ++ (if pointZero then ".0" else "")
  else
    String.ofList (d.toList.take point.toNat) ++ "." ++ String.ofList (d.toList.drop point.toNat)

/-- The digits `d` with a point after the first and a signed exponent. -/
def exponentText (d : String) (exponent : Int) : String :=
  let whole := String.ofList (d.toList.take 1)
  let fraction := String.ofList (d.toList.drop 1)
  whole ++ (if fraction.isEmpty then "" else "." ++ fraction) ++
    (if exponent < 0 then "e-" else "e+") ++ toString exponent.natAbs

/-- The text of the number with the given sign and magnitude bits. -/
def text (l : Layout) (f : BinaryFormat) (negative : Bool) (bits : Nat) : String :=
  if bits > f.infinity then l.notANumber
  else if bits = f.infinity then (if negative then l.negativeInfinite else l.infinite)
  else
    let sign := if negative then "-" else ""
    let decimal := shortest f l.tie bits
    let d := toString decimal.digits
    if decimal.digits = 0 then sign ++ (if l.pointZero then "0.0" else "0")
    else
      let point := (d.length : Int) + decimal.exponent
      let inRange : Bool := match l.positional with
        | none => true
        | some (low, high) => low ≤ point - 1 && point - 1 ≤ high
      sign ++ if inRange then positionalText l.pointZero d point else exponentText d (point - 1)

end Layout

/-- The layout of numbers in messages: always positional, integers without a point. -/
def plain : Layout := ⟨none, false, .up, "NaN", "inf", "-inf"⟩

/-- The text of a single in a message. -/
def plainText32 (x : Float32) : String := plain.text .single (isNegative32 x) (magnitude32 x)

/-- The text of a double with exactly `places` digits after the point. -/
def fixed (places : Nat) (x : Float) : String :=
  let bits := magnitude x
  let sign := if isNegative x then "-" else ""
  if bits > BinaryFormat.double.infinity then "NaN"
  else if bits = BinaryFormat.double.infinity then sign ++ "inf"
  else
    let (num, den) := powerRatio (BinaryFormat.double.exponent bits) (-(places : Int))
    let scaled := divNearest (BinaryFormat.double.significand bits * num) den
    let whole := toString (scaled / Nat.pow 10 places)
    let fraction := toString (scaled % Nat.pow 10 places)
    sign ++ whole ++
      if places = 0 then ""
      else "." ++ String.ofList (List.replicate (places - fraction.length) '0') ++ fraction

end Darkroom.Numeric
