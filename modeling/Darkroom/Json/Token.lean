import Darkroom.Fault
import Darkroom.Numeric.Binary
import Darkroom.Numeric.Reading

/-!
# JSON tokens

Strings, numbers and words of a JSON text, read from the start of a list of characters.  A reader
returns the value and the text after it, or the first problem in text order.  A string or number
that nobody asked for is skipped with fewer checks: its surrogates need not pair up and its size is
not limited.

## Main definitions

* `readStringBody`, `skipStringBody` : a string after its opening quote.
* `Number`, `readNumber`, `skipNumber` : a number after its minus sign, if it has one.
* `readWord` : the rest of `null`, `true` or `false`.
* `mistypedAt` : the problem with a value of the wrong kind.
-/

namespace Darkroom.Json

/-- The four characters that may stand between tokens. -/
def isSpace (c : Char) : Bool := c == ' ' || c == '\n' || c == '\t' || c == '\r'

/-- The text from its next token on. -/
def skipSpace (s : List Char) : List Char := s.dropWhile isSpace

/-! ### Strings -/

/-- The value of a hexadecimal digit. -/
def hexValue? (c : Char) : Option Nat :=
  if c.isDigit then some (c.toNat - 48)
  else if 'a' ≤ c ∧ c ≤ 'f' then some (c.toNat - 87)
  else if 'A' ≤ c ∧ c ≤ 'F' then some (c.toNat - 55)
  else none

/-- The number of bytes that a text takes in UTF-8. -/
def byteLength (s : List Char) : Nat := s.foldl (fun n c => n + c.utf8Size) 0

/-- The value of the four hexadecimal digits at the start of a text.  Fewer than four bytes count
as a text that ends too early. -/
def hexQuad (s : List Char) : Except JsonProblem Nat :=
  match s with
  | a :: b :: c :: d :: _ =>
    match hexValue? a, hexValue? b, hexValue? c, hexValue? d with
    | some a, some b, some c, some d => .ok (((a * 16 + b) * 16 + c) * 16 + d)
    | _, _, _, _ => .error .malformed
  | short => .error (if byteLength short ≥ 4 then .malformed else .truncated)

/-- The character that a one-letter escape stands for. -/
def plainEscape? (c : Char) : Option Char :=
  if c = '"' then some '"'
  else if c = '\\' then some '\\'
  else if c = '/' then some '/'
  else if c = 'b' then some '\x08'
  else if c = 'f' then some '\x0c'
  else if c = 'n' then some '\n'
  else if c = 'r' then some '\r'
  else if c = 't' then some '\t'
  else none

/-- The character of a four-digit escape whose digits start the text, and the number of characters
that the digits take.  A leading surrogate needs a second escape with a trailing one. -/
def readCodePoint (s : List Char) : Except JsonProblem (Char × Nat) := do
  let n ← hexQuad s
  if 0xDC00 ≤ n ∧ n ≤ 0xDFFF then .error .malformed
  else if n < 0xD800 ∨ 0xDBFF < n then .ok (Char.ofNat n, 4)
  else match s.drop 4 with
    | [] => .error .truncated
    | '\\' :: [] => .error .truncated
    | '\\' :: 'u' :: rest => do
      let low ← hexQuad rest
      if low < 0xDC00 ∨ 0xDFFF < low then .error .malformed
      else .ok (Char.ofNat ((n - 0xD800) * 0x400 + (low - 0xDC00) + 0x10000), 10)
    | _ => .error .malformed

/-- The character of the escape after a backslash, and the number of characters it takes. -/
def readEscape (s : List Char) : Except JsonProblem (Char × Nat) :=
  match s with
  | [] => .error .truncated
  | c :: rest =>
    if c = 'u' then (readCodePoint rest).map fun (d, n) => (d, n + 1)
    else match plainEscape? c with
      | some d => .ok (d, 1)
      | none => .error .malformed

/-- The number of characters of the escape after a backslash, surrogates unchecked. -/
def skipEscape (s : List Char) : Except JsonProblem Nat :=
  match s with
  | [] => .error .truncated
  | c :: rest =>
    if c = 'u' then (hexQuad rest).map fun _ => 5
    else if (plainEscape? c).isSome then .ok 1
    else .error .malformed

/-- The characters of a string after its opening quote. -/
def readStringBody (s : List Char) : Except JsonProblem (List Char × List Char) :=
  match s with
  | [] => .error .truncated
  | c :: rest =>
    if c = '"' then .ok ([], rest)
    else if c = '\\' then
      match readEscape rest with
      | .error p => .error p
      | .ok (d, n) => (readStringBody (rest.drop n)).map fun (t, r) => (d :: t, r)
    else if c.toNat < 0x20 then .error .malformed
    else (readStringBody rest).map fun (t, r) => (c :: t, r)
termination_by s.length
decreasing_by all_goals simp [List.length_drop]; try omega

/-- The text after a string whose opening quote has been read. -/
def skipStringBody (s : List Char) : Except JsonProblem (List Char) :=
  match s with
  | [] => .error .truncated
  | c :: rest =>
    if c = '"' then .ok rest
    else if c = '\\' then
      match skipEscape rest with
      | .error p => .error p
      | .ok n => skipStringBody (rest.drop n)
    else if c.toNat < 0x20 then .error .malformed
    else skipStringBody rest
termination_by s.length
decreasing_by all_goals simp [List.length_drop]; try omega

/-! ### Numbers -/

/-- A number as read: a natural number below `2 ^ 64`, a negative integer down to `-2 ^ 63`, or a
double. -/
inductive Number where
  | natural (n : Nat)
  | negative (n : Nat)
  | real (x : Float)

/-- The double nearest to a number. -/
def Number.toDouble : Number → Float
  | .natural n => Numeric.double false (Numeric.BinaryFormat.double.nearest n 1)
  | .negative n => Numeric.double true (Numeric.BinaryFormat.double.nearest n 1)
  | .real x => x

/-- The single nearest to a number. -/
def Number.toSingle : Number → Float32
  | .natural n => Numeric.single false (Numeric.BinaryFormat.single.nearest n 1)
  | .negative n => Numeric.single true (Numeric.BinaryFormat.single.nearest n 1)
  | .real x => Numeric.nearestSingle x

/-- A natural number below `bound`. -/
def Number.below? (bound : Nat) : Number → Option Nat
  | .natural n => if n < bound then some n else none
  | _ => none

/-- Takes digits into a significand of 64 bits, up to the first that does not fit; returns the
significand and the digits left over. -/
def absorb (significand : Nat) : List Char → Nat × List Char
  | [] => (significand, [])
  | d :: ds =>
    let next := 10 * significand + Numeric.digitValue d
    if next < UInt64.size then absorb next ds else (significand, d :: ds)

/-- The double nearest to a power of ten. -/
def tenTo (n : Nat) : Float := Numeric.double false (Numeric.BinaryFormat.double.ofDecimal 1 n)

/-- Scales a double by a power of ten in one multiplication or division, after dividing by
`10 ^ 308` as often as the exponent is out of the table's reach.  Two such divisions leave nothing
of a 64-bit significand, so `fuel` of four is enough. -/
def scaleByTen : (fuel : Nat) → Float → Int → Except JsonProblem Float
  | 0, x, _ => .ok x
  | fuel + 1, x, exponent =>
    if exponent.natAbs ≤ 308 then
      if exponent ≥ 0 then
        let y := x * tenTo exponent.natAbs
        if y.isInf then .error .malformed else .ok y
      else .ok (x / tenTo exponent.natAbs)
    else if x == 0 then .ok x
    else if exponent ≥ 0 then .error .malformed
    else scaleByTen fuel (x / tenTo 308) (exponent + 308)

/-- The double for a sign, a significand and a decimal exponent. -/
def ofParts (negative : Bool) (significand : Nat) (exponent : Int) : Except JsonProblem Number := do
  let start := Numeric.double false (Numeric.BinaryFormat.double.nearest significand 1)
  let x ← scaleByTen 4 start exponent
  return .real (if negative then -x else x)

/-- An integer bounded to 32 bits. -/
def clampExponent (e : Int) : Int := max (-0x80000000) (min 0x7FFFFFFF e)

/-- A number from the digits of its exponent on; `down` says that the exponent is negative. -/
def readExponentDigits (negative : Bool) (significand : Nat) (exponent : Int) (down : Bool)
    (s : List Char) : Except JsonProblem (Number × List Char) :=
  match s with
  | [] => .error .truncated
  | c :: _ =>
    if !c.isDigit then .error .malformed
    else
      let e := Numeric.digitsValueFrom 0 (s.takeWhile Char.isDigit)
      let rest := s.dropWhile Char.isDigit
      if e ≥ 0x80000000 then
        if significand ≠ 0 ∧ ¬ down then .error .malformed
        else .ok (.real (if negative then -0.0 else 0.0), rest)
      else
        let total := if down then exponent - (e : Int) else exponent + (e : Int)
        (ofParts negative significand (clampExponent total)).map fun x => (x, rest)

/-- A number from its exponent part on, the letter `e` already read. -/
def readExponent (negative : Bool) (significand : Nat) (exponent : Int) (s : List Char) :
    Except JsonProblem (Number × List Char) :=
  match s with
  | '+' :: rest => readExponentDigits negative significand exponent false rest
  | '-' :: rest => readExponentDigits negative significand exponent true rest
  | _ => readExponentDigits negative significand exponent false s

/-- The end of a number with a fraction or too many digits: an exponent part or nothing. -/
def readScaled (negative : Bool) (significand : Nat) (exponent : Int) (s : List Char) :
    Except JsonProblem (Number × List Char) :=
  match s with
  | 'e' :: rest => readExponent negative significand exponent rest
  | 'E' :: rest => readExponent negative significand exponent rest
  | _ => (ofParts negative significand exponent).map fun x => (x, s)

/-- The number without fraction and exponent. -/
def wholeNumber (negative : Bool) (n : Nat) : Number :=
  if !negative then .natural n
  else if n = 0 ∨ 0x8000000000000000 < n then
    .real (-(Numeric.double false (Numeric.BinaryFormat.double.nearest n 1)))
  else .negative n

/-- A number from after its whole digits on, of which the last `left` did not fit into the
significand. -/
def readFraction (negative : Bool) (significand left : Nat) (s : List Char) :
    Except JsonProblem (Number × List Char) :=
  match s with
  | '.' :: tail =>
    let fraction := tail.takeWhile Char.isDigit
    let after := tail.dropWhile Char.isDigit
    if fraction.isEmpty then .error (if after.isEmpty then .truncated else .malformed)
    else
      let (full, dropped) := absorb significand fraction
      let taken : Int := (fraction.length : Int) - dropped.length
      readScaled negative full ((left : Int) - taken) after
  | 'e' :: tail => readExponent negative significand left tail
  | 'E' :: tail => readExponent negative significand left tail
  | _ =>
    if left = 0 then .ok (wholeNumber negative significand, s)
    else (ofParts negative significand left).map fun x => (x, s)

/-- A number after its sign. -/
def readNumber (negative : Bool) (s : List Char) : Except JsonProblem (Number × List Char) :=
  match s with
  | [] => .error .truncated
  | c :: _ =>
    if !c.isDigit then .error .malformed
    else
      let digits := s.takeWhile Char.isDigit
      if c = '0' ∧ digits.length > 1 then .error .malformed
      else
        let (significand, left) := absorb 0 digits
        readFraction negative significand left.length (s.dropWhile Char.isDigit)

/-- The text after the exponent part of a number, the letter `e` already read. -/
def skipExponent (s : List Char) : Except JsonProblem (List Char) :=
  let unsigned := match s with
    | '+' :: rest => rest
    | '-' :: rest => rest
    | _ => s
  match unsigned with
  | [] => .error .malformed
  | c :: _ => if c.isDigit then .ok (unsigned.dropWhile Char.isDigit) else .error .malformed

/-- The text after a number whose sign has been read. -/
def skipNumber (s : List Char) : Except JsonProblem (List Char) :=
  match s with
  | [] => .error .malformed
  | c :: _ =>
    if !c.isDigit then .error .malformed
    else
      let digits := s.takeWhile Char.isDigit
      if c = '0' ∧ digits.length > 1 then .error .malformed
      else match s.dropWhile Char.isDigit with
        | '.' :: tail =>
          if (tail.takeWhile Char.isDigit).isEmpty then .error .malformed
          else match tail.dropWhile Char.isDigit with
            | 'e' :: rest => skipExponent rest
            | 'E' :: rest => skipExponent rest
            | rest => .ok rest
        | 'e' :: rest => skipExponent rest
        | 'E' :: rest => skipExponent rest
        | rest => .ok rest

/-! ### Words and wrong kinds -/

/-- The text after the given letters. -/
def readWord : (word : List Char) → List Char → Except JsonProblem (List Char)
  | [], s => .ok s
  | _ :: _, [] => .error .truncated
  | w :: ws, c :: rest => if w = c then readWord ws rest else .error .malformed

/-- The problem with a value where one of another kind is wanted: its own first problem if it has
one, otherwise that it is mistyped.  Lists and records are not looked into. -/
def mistypedAt (s : List Char) : JsonProblem :=
  let orMistyped {α : Type} : Except JsonProblem α → JsonProblem
    | .error p => p
    | .ok _ => .mistyped
  match s with
  | [] => .truncated
  | c :: rest =>
    if c = 'n' then orMistyped (readWord ['u', 'l', 'l'] rest)
    else if c = 't' then orMistyped (readWord ['r', 'u', 'e'] rest)
    else if c = 'f' then orMistyped (readWord ['a', 'l', 's', 'e'] rest)
    else if c = '-' then orMistyped (readNumber true rest)
    else if c.isDigit then orMistyped (readNumber false s)
    else if c = '"' then orMistyped (readStringBody rest)
    else if c = '[' ∨ c = '\x7b' then .mistyped
    else .malformed

end Darkroom.Json
