import Darkroom.Fault

/-!
# References to variables

A text may refer to a variable by its name between `${` and `}`.  References are replaced in one
pass from left to right; what is put in is not looked at again.

## Main definitions

* `Environment` : the values of the variables that are set.
* `nameAfter?` : the name of a reference, after its opening.
* `substitute` : a text with its references replaced.
* `references` : the names that a text refers to.
-/

namespace Darkroom.Text

/-- The values of the variables that are set. -/
abbrev Environment := String → Option String

/-- The name at the start of a text that follows `${`, and the text after its closing brace.  A name
has at least one character and ends at the first brace that closes. -/
def nameAfter? (s : List Char) : Option (List Char × List Char) :=
  match s.takeWhile (· ≠ '}'), s.dropWhile (· ≠ '}') with
  | [], _ => none
  | _ :: _, [] => none
  | c :: name, _ :: rest => some (c :: name, rest)

/-- The text after a reference is shorter than the text after its opening. -/
theorem nameAfter?_length {s name rest : List Char} (h : nameAfter? s = some (name, rest)) :
    rest.length < s.length := by
  unfold nameAfter? at h
  split at h
  · cases h
  · cases h
  · next hd =>
    cases h
    have := congrArg List.length hd
    have := (List.dropWhile_suffix (fun c : Char => decide (c ≠ '}')) (l := s)).length_le
    simp only [List.length_cons] at *
    omega

/-- What stands for a reference: the value of the variable, or the reference as written where the
variable is not set. -/
def replacement (env : Environment) (name : List Char) : List Char :=
  match env (String.ofList name) with
  | some value => value.toList
  | none => '$' :: '{' :: name ++ ['}']

/-- A text with its references replaced. -/
def substitute (env : Environment) : List Char → List Char
  | [] => []
  | '$' :: '{' :: after =>
    match h : nameAfter? after with
    | some (name, rest) =>
      have := nameAfter?_length h
      replacement env name ++ substitute env rest
    | none => '$' :: substitute env ('{' :: after)
  | c :: rest => c :: substitute env rest
termination_by s => s.length

/-- The names that a text refers to, in order. -/
def references : List Char → List String
  | [] => []
  | '$' :: '{' :: after =>
    match h : nameAfter? after with
    | some (name, rest) =>
      have := nameAfter?_length h
      String.ofList name :: references rest
    | none => references ('{' :: after)
  | _ :: rest => references rest
termination_by s => s.length

end Darkroom.Text
