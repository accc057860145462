/-!
# Machine words

Positions and sizes are counted in words of 32 bits without sign and of 64 bits with sign.  A sum or
a product that does not fit breaks the computation off, and so does a look at something that is not
there; neither is a fault that a caller could answer.

## Main definitions

* `WordFault` : what breaks a computation on words off.
* `word`, `shortWord` : a number as a word, if it fits.
-/

namespace Darkroom.Numeric

/-- What breaks a computation on words off: a number that does not fit, or a look beyond an end. -/
inductive WordFault where
  | overflow
  | outside
  deriving DecidableEq, Repr

/-- Whether a number is a word of 64 bits with sign. -/
def Fits (n : Int) : Prop := -0x8000000000000000 ≤ n ∧ n < 0x8000000000000000

instance (n : Int) : Decidable (Fits n) := inferInstanceAs (Decidable (_ ∧ _))

/-- A number as a word of 64 bits with sign, if it fits. -/
def word (n : Int) : Except WordFault Int := if Fits n then .ok n else .error .overflow

/-- A number without sign as a word of 32 bits, if it fits. -/
def shortWord (n : Nat) : Except WordFault Nat :=
  if n < UInt32.size then .ok n else .error .overflow

end Darkroom.Numeric
