/-!
# Binary floating-point formats

A finite positive number of a binary format is `m * 2 ^ e` with a bounded significand `m` and a
bounded exponent `e`.  This module moves between that form, the bit patterns that store it and the
rational numbers that it approximates.  Only natural-number arithmetic is used, so every rounding
is exact.

## Main definitions

* `BinaryFormat` : significand width and exponent range, with `single` and `double`.
* `divNearest` : division rounded to the nearest natural number, ties to even.
* `BinaryFormat.nearest` : the bit pattern of the representable number nearest to a fraction.
* `BinaryFormat.ofDecimal` : the bit pattern nearest to `digits * 10 ^ exponent`.
* `BinaryFormat.significand`, `BinaryFormat.exponent` : the two parts of a finite bit pattern.
* `nearestSingle`, `widened` : a double as a single, and a single as a double.
* `toWord`, `wholePart` : a double as an integer of 64 bits.
-/

namespace Darkroom.Numeric

/-- A binary format: `precision` counts the bits of a significand, and the last bit of a
significand weighs between `2 ^ minExponent` and `2 ^ maxExponent`. -/
structure BinaryFormat where
  precision : Nat
  minExponent : Int
  maxExponent : Int
  deriving DecidableEq, Repr

namespace BinaryFormat

/-- The 32-bit interchange format. -/
def single : BinaryFormat := ⟨24, -149, 104⟩

/-- The 64-bit interchange format. -/
def double : BinaryFormat := ⟨53, -1074, 971⟩

/-- The magnitude bits of infinity; larger patterns are not numbers. -/
def infinity (f : BinaryFormat) : Nat :=
  ((f.maxExponent - f.minExponent).toNat + 2) * Nat.pow 2 (f.precision - 1)

end BinaryFormat

/-- `num / den` rounded to the nearest natural number; a half goes to the even neighbour. -/
def divNearest (num den : Nat) : Nat :=
  let q := num / den
  let r := num % den
  if 2 * r > den ∨ (2 * r = den ∧ q % 2 = 1) then q + 1 else q

/-- `2 ^ twos / 10 ^ tens` as a numerator and a denominator. -/
def powerRatio (twos tens : Int) : Nat × Nat :=
  (Nat.pow 2 twos.toNat * Nat.pow 10 (-tens).toNat, Nat.pow 2 (-twos).toNat * Nat.pow 10 tens.toNat)

namespace BinaryFormat

/-- The exponent of the greatest power of two that does not exceed `num / den`. -/
def leadingExponent (num den : Nat) : Int :=
  let guess : Int := (num.log2 : Int) - (den.log2 : Int)
  let (up, down) := powerRatio guess 0
  if num * down < den * up then guess - 1 else guess

/-- The magnitude bits of the number of the format nearest to `num / den`; ties go to the even
significand, and what exceeds the greatest finite number is infinite. -/
def nearest (f : BinaryFormat) (num den : Nat) : Nat :=
  if num = 0 then 0
  else
    let e := max f.minExponent (leadingExponent num den - ((f.precision : Int) - 1))
    if e > f.maxExponent then f.infinity
    else
      let (up, down) := powerRatio (-e) 0
      divNearest (num * up) (den * down) + (e - f.minExponent).toNat * Nat.pow 2 (f.precision - 1)

/-- The magnitude bits of the number nearest to `digits * 10 ^ exponent`.  Exponents that are out
of reach of either format are cut short, so that no huge power is formed. -/
def ofDecimal (f : BinaryFormat) (digits : Nat) (exponent : Int) : Nat :=
  if digits = 0 then 0
  else if exponent > 400 then f.infinity
  else if exponent + (digits.log2 / 3 : Nat) + 2 < -400 then 0
  else
    let (up, down) := powerRatio 0 (-exponent)
    f.nearest (digits * up) down

/-- The significand of a finite number, from its magnitude bits. -/
def significand (f : BinaryFormat) (bits : Nat) : Nat :=
  let unit := Nat.pow 2 (f.precision - 1)
  if bits / unit = 0 then bits else bits % unit + unit

/-- The weight of the last significand bit of a finite number, from its magnitude bits. -/
def exponent (f : BinaryFormat) (bits : Nat) : Int :=
  f.minExponent + ((bits / Nat.pow 2 (f.precision - 1) - 1 : Nat) : Int)

/-- The magnitude bits in a format of the number with the given magnitude bits in another one: the
nearest, ties going to the even significand. -/
def convert (f g : BinaryFormat) (bits : Nat) : Nat :=
  if bits > f.infinity then g.infinity + Nat.pow 2 (g.precision - 2)
  else if bits = f.infinity then g.infinity
  else
    let (up, down) := powerRatio (f.exponent bits) 0
    g.nearest (f.significand bits * up) down

end BinaryFormat

/-- How a number is made whole: the fraction dropped, the next integer below, or the nearest one,
a half going away from zero. -/
inductive Rounding where
  | towardZero
  | down
  | nearest
  deriving DecidableEq, Repr

/-- The magnitude of a number of magnitude `num / den` that has been made whole. -/
def Rounding.apply (negative : Bool) (num den : Nat) : Rounding → Nat
  | towardZero => num / den
  | down => if negative then (num + den - 1) / den else num / den
  | nearest => (2 * num + den) / (2 * den)

/-- The nearest integer of `width` bits with sign. -/
def cut (width : Nat) (n : Int) : Int :=
  let bound : Int := Nat.pow 2 (width - 1)
  max (-bound) (min (bound - 1) n)

/-- A number as an integer of `width` bits, from its sign and its magnitude bits: made whole, what
is out of range cut, and zero for what is not a number. -/
def BinaryFormat.toInteger (f : BinaryFormat) (rounding : Rounding) (width : Nat)
    (negative : Bool) (bits : Nat) : Int :=
  if bits > f.infinity then 0
  else
    let (up, down) := powerRatio (f.exponent bits) 0
    let n : Int := rounding.apply negative (f.significand bits * up) down
    cut width (if negative then -n else n)

/-- The sign of a double: whether its sign bit is set. -/
def isNegative (x : Float) : Bool := x.toBits.toNat ≥ 0x8000000000000000

/-- The magnitude bits of a double. -/
def magnitude (x : Float) : Nat := x.toBits.toNat % 0x8000000000000000

/-- The sign of a single: whether its sign bit is set. -/
def isNegative32 (x : Float32) : Bool := x.toBits.toNat ≥ 0x80000000

/-- The magnitude bits of a single. -/
def magnitude32 (x : Float32) : Nat := x.toBits.toNat % 0x80000000

/-- The double with the given sign and magnitude bits. -/
def double (negative : Bool) (bits : Nat) : Float :=
  Float.ofBits (UInt64.ofNat (if negative then bits + 0x8000000000000000 else bits))

/-- The single with the given sign and magnitude bits. -/
def single (negative : Bool) (bits : Nat) : Float32 :=
  Float32.ofBits (UInt32.ofNat (if negative then bits + 0x80000000 else bits))

/-- The single nearest to a double; ties go to the even significand. -/
def nearestSingle (x : Float) : Float32 :=
  single (isNegative x) (BinaryFormat.double.convert .single (magnitude x))

/-- A single as a double, which is exact. -/
def widened (x : Float32) : Float :=
  double (isNegative32 x) (BinaryFormat.single.convert .double (magnitude32 x))

/-- A double as an integer of 64 bits. -/
def toWord (rounding : Rounding) (x : Float) : Int :=
  BinaryFormat.double.toInteger rounding 64 (isNegative x) (magnitude x)

/-- A double as an integer of 64 bits, the fraction dropped. -/
def wholePart (x : Float) : Int := toWord .towardZero x

/-- A single as an integer of 32 bits, the fraction dropped. -/
def wholePart32 (x : Float32) : Int :=
  BinaryFormat.single.toInteger .towardZero 32 (isNegative32 x) (magnitude32 x)

end Darkroom.Numeric
