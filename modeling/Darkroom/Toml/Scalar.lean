import Darkroom.Instant
import Darkroom.Json.Token
import Darkroom.Toml.Value

/-!
# TOML scalars

Strings in their four forms, and the values that are written without quotes: integers, decimal
fractions, truth values and moments.

## Main definitions

* `basicBody?`, `literalBody?` : strings on one line, after the opening quote.
* `longBasicBody?`, `longLiteralBody?` : strings over several lines, after the opening quotes.
* `string?` : a string in any form.
* `unquoted?` : a value without quotes.
-/

namespace Darkroom.Toml

/-- The value of what was read, and the text after it. -/
abbrev Reader (α : Type) := List Char → Option (α × List Char)

/-! ### Characters -/

/-- The characters between tokens of a line. -/
def isGap (c : Char) : Bool := c == ' ' || c == '\t'

/-- The text without the gap at its start. -/
def skipGap (s : List Char) : List Char := s.dropWhile isGap

/-- The characters that strings and comments may hold as they are: all but controls, the tab
excepted. -/
def isPrintable (c : Char) : Bool := c == '\t' || (c.toNat ≥ 0x20 && c.toNat != 0x7F)

/-- The number of characters of the line end at the start of a text. -/
def lineEndLength : List Char → Nat
  | '\n' :: _ => 1
  | '\r' :: '\n' :: _ => 2
  | _ => 0

/-! ### Strings -/

/-- The number written by exactly `count` hexadecimal digits. -/
def hexNumber? (count : Nat) (s : List Char) : Option Nat :=
  let digits := (s.take count).filterMap Json.hexValue?
  if digits.length = count then some (digits.foldl (fun n d => 16 * n + d) 0) else none

/-- The character with a code given by `count` hexadecimal digits, and the length of its escape. -/
def coded? (count : Nat) (s : List Char) : Option (Char × Nat) := do
  let n ← hexNumber? count s
  if n.isValidChar then some (Char.ofNat n, count + 1) else none

/-- The character of the escape after a backslash, and the number of characters it takes. -/
def escape? : List Char → Option (Char × Nat)
  | [] => none
  | c :: rest =>
    if c = 'b' then some ('\x08', 1)
    else if c = 't' then some ('\t', 1)
    else if c = 'n' then some ('\n', 1)
    else if c = 'f' then some ('\x0c', 1)
    else if c = 'r' then some ('\r', 1)
    else if c = 'e' then some ('\x1b', 1)
    else if c = '"' then some ('"', 1)
    else if c = '\\' then some ('\\', 1)
    else if c = 'x' then coded? 2 rest
    else if c = 'u' then coded? 4 rest
    else if c = 'U' then coded? 8 rest
    else none

/-- The characters of a string in double quotes, after the opening quote. -/
def basicBody? (s : List Char) : Option (List Char × List Char) :=
  match s with
  | [] => none
  | c :: rest =>
    if c = '"' then some ([], rest)
    else if c = '\\' then
      match escape? rest with
      | some (d, n) => (basicBody? (rest.drop n)).map fun (t, r) => (d :: t, r)
      | none => none
    else if isPrintable c then (basicBody? rest).map fun (t, r) => (c :: t, r)
    else none
termination_by s.length
decreasing_by all_goals simp only [List.length_drop, List.length_cons]; omega

/-- The characters of a string in single quotes, after the opening quote. -/
def literalBody? : Reader (List Char)
  | [] => none
  | c :: rest =>
    if c = '\'' then some ([], rest)
    else if isPrintable c then (literalBody? rest).map fun (t, r) => (c :: t, r)
    else none

/-- The end of a string over several lines, at a run of its quotes: three of them close it, and up
to two more before them belong to it. -/
def closing? (quote : Char) (s : List Char) : Option (List Char × List Char) :=
  let run := (s.takeWhile (· = quote)).length
  if run < 3 then none
  else some (List.replicate (min run 5 - 3) quote, s.drop (min run 5))

/-- The number of characters that a backslash at the end of a line takes away after it: all gaps and
line ends.  Zero where the line goes on after the backslash. -/
def foldLength (s : List Char) : Nat :=
  let gap := s.takeWhile isGap
  if lineEndLength (s.drop gap.length) = 0 then 0
  else (s.takeWhile fun c => isGap c || c == '\n' || c == '\r').length

/-- The characters of a string in three double quotes, after the opening. -/
def longBasicBody? (s : List Char) : Option (List Char × List Char) :=
  match s with
  | [] => none
  | c :: rest =>
    match closing? '"' s with
    | some ending => some ending
    | none =>
      if c = '\\' then
        let folded := foldLength rest
        if folded > 0 then longBasicBody? (rest.drop folded)
        else match escape? rest with
          | some (d, n) => (longBasicBody? (rest.drop n)).map fun (t, r) => (d :: t, r)
          | none => none
      else if isPrintable c || c == '\n' || (c == '\r' && rest.head? == some '\n') then
        (longBasicBody? rest).map fun (t, r) => (c :: t, r)
      else none
termination_by s.length
decreasing_by all_goals simp only [List.length_drop, List.length_cons]; omega

/-- The characters of a string in three single quotes, after the opening. -/
def longLiteralBody? : Reader (List Char)
  | [] => none
  | c :: rest =>
    match closing? '\'' (c :: rest) with
    | some ending => some ending
    | none =>
      if isPrintable c || c == '\n' || (c == '\r' && rest.head? == some '\n') then
        (longLiteralBody? rest).map fun (t, r) => (c :: t, r)
      else none

/-- A string in any form.  A line end right after three opening quotes does not belong to it. -/
def string? : Reader String
  | '"' :: '"' :: '"' :: rest =>
    (longBasicBody? (rest.drop (lineEndLength rest))).map fun (t, r) => (String.ofList t, r)
  | '\'' :: '\'' :: '\'' :: rest =>
    (longLiteralBody? (rest.drop (lineEndLength rest))).map fun (t, r) => (String.ofList t, r)
  | '"' :: rest => (basicBody? rest).map fun (t, r) => (String.ofList t, r)
  | '\'' :: rest => (literalBody? rest).map fun (t, r) => (String.ofList t, r)
  | _ => none

/-! ### Numbers -/

/-- Digits without the underscores that may stand between any two of them. -/
def ungrouped? (isDigit : Char → Bool) : List Char → Option (List Char)
  | [] => none
  | [c] => if isDigit c then some [c] else none
  | c :: '_' :: rest => if isDigit c then (ungrouped? isDigit rest).map (c :: ·) else none
  | c :: rest => if isDigit c then (ungrouped? isDigit rest).map (c :: ·) else none

/-- Decimal digits without underscores; a zero stands in front only alone. -/
def wholeDigits? (s : List Char) : Option (List Char) := do
  let digits ← ungrouped? Char.isDigit s
  if digits.length > 1 ∧ digits.head? = some '0' then none else some digits

/-- The sign of a number, true for minus, and the number without it. -/
def splitSign : List Char → Bool × List Char
  | '-' :: rest => (true, rest)
  | '+' :: rest => (false, rest)
  | s => (false, s)

/-- The number written by digits of a base. -/
def based? (base : Nat) (isDigit : Char → Bool) (s : List Char) : Option Nat :=
  (ungrouped? isDigit s).map fun digits =>
    digits.foldl (fun n c => base * n + (Json.hexValue? c).getD 0) 0

/-- An integer in base ten with a sign, or in base sixteen, eight or two without one. -/
def integer? (s : List Char) : Option Int :=
  let n : Option Int := match s with
    | '0' :: 'x' :: digits => (based? 16 (fun c => (Json.hexValue? c).isSome) digits).map Int.ofNat
    | '0' :: 'o' :: digits => (based? 8 (fun c => '0' ≤ c && c ≤ '7') digits).map Int.ofNat
    | '0' :: 'b' :: digits => (based? 2 (fun c => c == '0' || c == '1') digits).map Int.ofNat
    | s =>
      let (negative, body) := splitSign s
      (wholeDigits? body).map fun digits =>
        let n : Int := Numeric.digitsValueFrom 0 digits
        if negative then -n else n
  n.filter fun n =>
    -0x80000000000000000000000000000000 ≤ n && n < 0x100000000000000000000000000000000

/-- The exponent of a decimal fraction, after its letter. -/
def exponent? (s : List Char) : Option Int :=
  let (negative, body) := splitSign s
  (ungrouped? Char.isDigit body).map fun digits =>
    let n : Int := Numeric.digitsValueFrom 0 digits
    if negative then -n else n

/-- The fraction and the exponent of a number, after its whole part; at least one is there. -/
def fractionAndExponent? (s : List Char) : Option (List Char × Int) :=
  let inDigits (c : Char) : Bool := c.isDigit || c == '_'
  match s with
  | '.' :: rest => do
    let fraction ← ungrouped? Char.isDigit (rest.takeWhile inDigits)
    match rest.dropWhile inDigits with
    | [] => some (fraction, 0)
    | c :: rest => if c = 'e' ∨ c = 'E' then (exponent? rest).map (fraction, ·) else none
  | c :: rest => if c = 'e' ∨ c = 'E' then (exponent? rest).map ([], ·) else none
  | [] => none

/-- A decimal fraction, infinity or not-a-number.  A fraction has to be finite as a double. -/
def real? (s : List Char) : Option Float :=
  let (negative, body) := splitSign s
  if body = "inf".toList then some (Numeric.Literal.infinite negative).toDouble
  else if body = "nan".toList then some (Numeric.Literal.notANumber negative).toDouble
  else do
    let inDigits (c : Char) : Bool := c.isDigit || c == '_'
    let whole ← wholeDigits? (body.takeWhile inDigits)
    let (fraction, e) ← fractionAndExponent? (body.dropWhile inDigits)
    let x := (Numeric.Literal.finite negative (Numeric.digitsValueFrom 0 (whole ++ fraction))
      (e - (fraction.length : Int))).toDouble
    if x.isFinite then some x else none

/-! ### Moments -/

/-- The number written by exactly `count` decimal digits, if it is within bounds. -/
def boundedDigits? (count low high : Nat) : Reader Nat := fun s =>
  let digits := (s.take count).takeWhile Char.isDigit
  let n := Numeric.digitsValueFrom 0 digits
  if digits.length = count ∧ low ≤ n ∧ n ≤ high then some (n, s.drop count) else none

/-- The text after a given character. -/
def after? (c : Char) : List Char → Option (List Char)
  | d :: rest => if d = c then some rest else none
  | [] => none

/-- The text after a date, which has to be in the calendar. -/
def afterDate? (s : List Char) : Option (List Char) := do
  let (year, s) ← boundedDigits? 4 0 9999 s
  let (month, s) ← boundedDigits? 2 1 12 (← after? '-' s)
  let (_, s) ← boundedDigits? 2 1 (Date.monthLength year month) (← after? '-' s)
  return s

/-- The text after the seconds of a time, which may be left out. -/
def afterSeconds? (s : List Char) : Option (List Char) :=
  match s with
  | ':' :: rest => do
    let (_, s) ← boundedDigits? 2 0 60 rest
    match s with
    | '.' :: fraction =>
      if (fraction.takeWhile Char.isDigit).isEmpty then none
      else some (fraction.dropWhile Char.isDigit)
    | s => some s
  | s => some s

/-- The text after a time of day. -/
def afterTime? (s : List Char) : Option (List Char) := do
  let (_, s) ← boundedDigits? 2 0 23 s
  let (_, s) ← boundedDigits? 2 0 59 (← after? ':' s)
  afterSeconds? s

/-- Whether a text is nothing or an offset from universal time. -/
def isOffset (s : List Char) : Bool :=
  match s with
  | [] => true
  | ['Z'] | ['z'] => true
  | sign :: s =>
    if sign = '+' ∨ sign = '-' then
      match afterTime? s with
      | some [] => s.length = 5
      | _ => false
    else false

/-- Whether a text is a date, a time of day, or both with or without an offset. -/
def isMoment (s : List Char) : Bool :=
  match afterDate? s with
  | some [] => true
  | some (c :: rest) =>
    if c = 'T' ∨ c = 't' ∨ c = ' ' then (afterTime? rest).any isOffset else false
  | none => afterTime? s == some []

/-! ### Values without quotes -/

/-- The characters of values without quotes. -/
def isUnquoted (c : Char) : Bool :=
  c.isAlphanum || c == '+' || c == '-' || c == '_' || c == '.' || c == ':'

/-- The length of the value without quotes at the start of a text.  A date may be followed by a
blank and a time. -/
def unquotedLength (s : List Char) : Nat :=
  let first := (s.takeWhile isUnquoted).length
  if afterDate? (s.take first) = some [] then
    match s.drop first with
    | ' ' :: c :: rest =>
      if c.isDigit then first + 1 + ((c :: rest).takeWhile isUnquoted).length else first
    | _ => first
  else first

/-- What a text without quotes stands for. -/
def unquotedValue? (s : List Char) : Option Value :=
  if s = "true".toList then some (.boolean true)
  else if s = "false".toList then some (.boolean false)
  else match integer? s with
    | some n => some (.integer n)
    | none =>
      match real? s with
      | some x => some (.real x)
      | none => if isMoment s then some .moment else none

/-- A value without quotes. -/
def unquoted? : Reader Value := fun s =>
  let n := unquotedLength s
  (unquotedValue? (s.take n)).map (·, s.drop n)

end Darkroom.Toml
