import Darkroom.Numeric.Reading
import Darkroom.Text.Blank

/-!
# Instants

Points in time with nanoseconds, read from and written as date, time of day and offset.  Reading
is lenient: blanks may stand around the numbers, numbers may be short, the year may carry a sign,
and the separator of date and time may be a blank or a `T` of either case.  Writing always uses
UTC and as few groups of three fraction digits as are needed.

## Main definitions

* `Instant` : a day, a second of that day and the nanoseconds after it.
* `Date` : a day of the proleptic Gregorian calendar.
* `Instant.read?`, `Instant.text` : the readable form.
-/

namespace Darkroom

/-- A day of the proleptic Gregorian calendar. -/
structure Date where
  year : Int
  month : Nat
  day : Nat
  deriving DecidableEq, Repr

namespace Date

/-- Whether a year has a 29th of February. -/
def isLeap (year : Int) : Bool := (year % 4 == 0 && year % 100 != 0) || year % 400 == 0

/-- The number of days of a month. -/
def monthLength (year : Int) (month : Nat) : Nat :=
  if month = 2 then (if isLeap year then 29 else 28)
  else if month = 4 ∨ month = 6 ∨ month = 9 ∨ month = 11 then 30
  else 31

/-- The years that dates may lie in. -/
def yearInRange (year : Int) : Bool := -262143 ≤ year && year ≤ 262142

/-- Whether the month and the day exist in a year that dates may lie in. -/
def isValid (d : Date) : Bool :=
  yearInRange d.year && 1 ≤ d.month && d.month ≤ 12 && 1 ≤ d.day &&
    d.day ≤ monthLength d.year d.month

/-- The number of days from the first of March of year 0, with years that begin in March. -/
def toDay (d : Date) : Int :=
  let year := if d.month ≤ 2 then d.year - 1 else d.year
  let month : Int := if d.month ≤ 2 then d.month + 9 else d.month - 3
  365 * year + year / 4 - year / 100 + year / 400 + (153 * month + 2) / 5 + d.day - 1

/-- The date a number of days after the first of March of year 0. -/
def ofDay (n : Int) : Date :=
  let era := n / 146097
  let dayOfEra := n % 146097
  let yearOfEra := (dayOfEra - dayOfEra / 1460 + dayOfEra / 36524 - dayOfEra / 146096) / 365
  let dayOfYear := dayOfEra - (365 * yearOfEra + yearOfEra / 4 - yearOfEra / 100)
  let month := (5 * dayOfYear + 2) / 153
  let day := dayOfYear - (153 * month + 2) / 5 + 1
  let civil := if month < 10 then month + 3 else month - 9
  ⟨yearOfEra + 400 * era + (if civil ≤ 2 then 1 else 0), civil.toNat, day.toNat⟩

end Date

/-- A point in time in UTC.  Nanoseconds from `1000000000` on belong to a leap second. -/
structure Instant where
  day : Int
  second : Nat
  nano : Nat
  deriving DecidableEq, Repr

namespace Instant

/-! ### Reading -/

/-- One to `most` digits and the text after them. -/
def digits? (most : Nat) (s : List Char) : Option (Nat × List Char) :=
  let ds := (s.take most).takeWhile Char.isDigit
  if ds.isEmpty then none else some (Numeric.digitsValueFrom 0 ds, s.drop ds.length)

/-- A year: up to four digits, or any number of them after a sign. -/
def year? (s : List Char) : Option (Int × List Char) :=
  match Text.trimStart s with
  | '-' :: rest => (digits? rest.length rest).map fun (n, r) => (-(n : Int), r)
  | '+' :: rest => (digits? rest.length rest).map fun (n, r) => ((n : Int), r)
  | rest => (digits? 4 rest).map fun (n, r) => ((n : Int), r)

/-- A number of one or two digits from `low` to `high`. -/
def field? (low high : Nat) (s : List Char) : Option (Nat × List Char) :=
  (digits? 2 (Text.trimStart s)).filter fun (n, _) => low ≤ n && n ≤ high

/-- The text after a separator, which blanks may precede. -/
def separator? (c : Char) (s : List Char) : Option (List Char) :=
  match Text.trimStart s with
  | d :: rest => if d = c then some rest else none
  | [] => none

/-- The nanoseconds of an optional fraction; digits after the ninth are dropped. -/
def fraction? (s : List Char) : Option (Nat × List Char) :=
  match s with
  | '.' :: rest => (digits? 9 rest).map fun (n, r) =>
    (n * Nat.pow 10 (9 - (rest.length - r.length)), r.dropWhile Char.isDigit)
  | _ => some (0, s)

/-- Two digits. -/
def twoDigits? (s : List Char) : Option (Nat × List Char) :=
  match s with
  | a :: b :: rest =>
    if a.isDigit && b.isDigit then some (Numeric.digitsValueFrom 0 [a, b], rest) else none
  | _ => none

/-- The seconds that an offset is ahead of UTC, less than a day. -/
def offset? (s : List Char) : Option (Int × List Char) :=
  let s := Text.trimStart s
  if String.ofList ((s.take 3).map Char.toLower) = "utc" then some (0, s.drop 3)
  else match s with
    | [] => none
    | c :: rest =>
      if c = 'Z' ∨ c = 'z' then some (0, rest)
      else if c = '+' ∨ c = '-' ∨ c = '\u2212' then do
        let (hours, rest) ← twoDigits? rest
        let rest := rest.dropWhile fun d => d == ':' || Text.isBlank d
        let (minutes, rest) ← twoDigits? rest
        let ahead : Int := hours * 3600 + minutes * 60
        if minutes < 60 ∧ ahead < 86400 then some (if c = '+' then ahead else -ahead, rest)
        else none
      else none

/-- The instant that a whole text names. -/
def read? (text : String) : Option Instant := do
  let (year, s) ← year? text.toList
  let s ← separator? '-' s
  let (month, s) ← field? 1 12 s
  let s ← separator? '-' s
  let (day, s) ← field? 1 31 s
  let s ← match s with
    | c :: rest => if c = 't' ∨ c = 'T' ∨ c = ' ' then some rest else none
    | [] => none
  let (hour, s) ← field? 0 23 s
  let s ← separator? ':' s
  let (minute, s) ← field? 0 59 s
  let s ← separator? ':' s
  let (second, s) ← field? 0 60 s
  let (nano, s) ← fraction? s
  let (ahead, s) ← offset? (Text.trimStart s)
  let date : Date := ⟨year, month, day⟩
  if !(Text.trimStart s).isEmpty || !date.isValid then none
  else
    let leap := second = 60
    let shifted : Int := hour * 3600 + minute * 60 + (if leap then 59 else second) - ahead
    let utcDay := date.toDay + shifted / 86400
    if Date.yearInRange (Date.ofDay utcDay).year then
      some ⟨utcDay, (shifted % 86400).toNat, if leap then nano + 1000000000 else nano⟩
    else none

/-! ### Writing -/

/-- A number with zeros in front up to a width. -/
def padded (width n : Nat) : String :=
  let digits := toString n
  String.ofList (List.replicate (width - digits.length) '0') ++ digits

/-- A year: four digits, or a sign and at least four digits when they do not suffice. -/
def yearText (year : Int) : String :=
  if 0 ≤ year ∧ year ≤ 9999 then padded 4 year.toNat
  else (if year < 0 then "-" else "+") ++ padded 4 year.natAbs

/-- A fraction of a second in groups of three digits. -/
def fractionText (nano : Nat) : String :=
  if nano = 0 then ""
  else if nano % 1000000 = 0 then "." ++ padded 3 (nano / 1000000)
  else if nano % 1000 = 0 then "." ++ padded 6 (nano / 1000)
  else "." ++ padded 9 nano

/-- The readable form of an instant, in UTC. -/
def text (t : Instant) : String :=
  let date := Date.ofDay t.day
  let leap := t.nano ≥ 1000000000
  let second := t.second % 60 + (if leap then 1 else 0)
  yearText date.year ++ "-" ++ padded 2 date.month ++ "-" ++ padded 2 date.day ++ "T" ++
    padded 2 (t.second / 3600) ++ ":" ++ padded 2 (t.second / 60 % 60) ++ ":" ++
    padded 2 second ++ fractionText (if leap then t.nano - 1000000000 else t.nano) ++ "Z"

end Instant

end Darkroom
