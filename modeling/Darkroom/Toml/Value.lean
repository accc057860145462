import Darkroom.Numeric.Reading

/-!
# TOML values

The values that a TOML text can hold, and access to them by expected shape.  An access gives `none`
for a value of another shape.

## Main definitions

* `Value` : texts, numbers, truth values, moments, lists and tables.
* `Value.text?`, `Value.boolean?`, `Value.word32?`, `Value.single?` : values of a basic shape.
* `Value.fields?` : the fields of a record.
* `Value.variant?` : the name of one of several alternatives.
-/

namespace Darkroom.Toml

/-- How a table came about: written in braces, under a header of its own, by a dotted key, or only
because a header names a table below it. -/
inductive Origin where
  | inline
  | header
  | dotted
  | implied
  deriving DecidableEq, Repr

/-- A value.  A list is `growing` when it holds the tables of headers in double brackets.  Moments
are dates and times; nothing is configured by one, so their digits are not kept. -/
inductive Value where
  | text (s : String)
  | integer (n : Int)
  | real (x : Float)
  | boolean (b : Bool)
  | moment
  | list (growing : Bool) (items : List Value)
  | table (origin : Origin) (members : List (String × Value))

/-- The members of a table, in the order in which they were written. -/
abbrev Members := List (String × Value)

namespace Value

/-- The text of a value. -/
def text? : Value → Option String
  | text s => some s
  | _ => none

/-- The truth value of a value. -/
def boolean? : Value → Option Bool
  | boolean b => some b
  | _ => none

/-- The value of an integer from zero up to, not including, `2 ^ 32`. -/
def word32? : Value → Option UInt32
  | integer n => if 0 ≤ n ∧ n < UInt32.size then some (UInt32.ofNat n.toNat) else none
  | _ => none

/-- The single nearest to a number; integers have to fit in 64 bits, with or without a sign. -/
def single? : Value → Option Float32
  | integer n =>
    if -0x8000000000000000 ≤ n ∧ n < UInt64.size then
      some (Numeric.single (n < 0) (Numeric.BinaryFormat.single.nearest n.natAbs 1))
    else none
  | real x => some (Numeric.nearestSingle x)
  | _ => none

/-- The items of a list. -/
def items? : Value → Option (List Value)
  | list _ items => some items
  | _ => none

/-- The fields of a record with these names.  A record is written as a table, or as a list of all
its fields in order; a moment is a record that has none of them. -/
def fields? (names : List String) : Value → Option (List (Option Value))
  | table _ members => some (names.map fun name => members.lookup name)
  | list _ items =>
    if names.length ≤ items.length then some ((items.take names.length).map some) else none
  | moment => some (names.map fun _ => none)
  | _ => none

/-- The name of an alternative: a text, or a table whose only member has that name and is empty. -/
def variant? : Value → Option String
  | text s => some s
  | table _ [(name, list _ [])] => some name
  | table _ [(name, table _ [])] => some name
  | _ => none

end Value

end Darkroom.Toml
