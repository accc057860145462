import Darkroom.Toml.Scalar

/-!
# TOML sections

A TOML text is a list of sections: first the entries before any header, then for each header the
entries below it.  This module reads the sections and leaves it open whether they fit together.

## Main definitions

* `key?`, `keys?` : a key and a dotted key.
* `value?` : a value, with lists and tables nested in it.
* `Heading`, `Section`, `sections?` : the sections of a text.
-/

namespace Darkroom.Toml

/-! ### Space -/

/-- The text after the comment at its start, up to the end of the line. -/
def skipComment : List Char → List Char
  | '#' :: rest => rest.dropWhile isPrintable
  | s => s

theorem length_skipGap_le (s : List Char) : (skipGap s).length ≤ s.length :=
  (List.dropWhile_suffix isGap).length_le

theorem length_skipComment_le (s : List Char) : (skipComment s).length ≤ s.length := by
  unfold skipComment
  split
  · exact Nat.le_succ_of_le (List.dropWhile_suffix isPrintable).length_le
  · exact Nat.le_refl _

theorem lineEndLength_le (s : List Char) : lineEndLength s ≤ s.length := by
  unfold lineEndLength
  split <;> simp

/-- The text after gaps, comments and line ends. -/
def skipLines (s : List Char) : List Char :=
  match h : lineEndLength (skipComment (skipGap s)) with
  | 0 => skipComment (skipGap s)
  | n + 1 => skipLines ((skipComment (skipGap s)).drop (n + 1))
termination_by s.length
decreasing_by
  have := length_skipGap_le s
  have := length_skipComment_le (skipGap s)
  have := lineEndLength_le (skipComment (skipGap s))
  simp only [List.length_drop]
  omega

/-- The text after the end of a line, before which a gap and a comment may stand. -/
def afterLine? (s : List Char) : Option (List Char) :=
  match skipComment (skipGap s) with
  | [] => some []
  | s => if lineEndLength s = 0 then none else some (s.drop (lineEndLength s))

/-! ### Keys -/

/-- The characters of keys without quotes. -/
def isBare (c : Char) : Bool := c.isAlphanum || c == '_' || c == '-'

/-- A key: bare or a string on one line. -/
def key? : Reader String
  | '"' :: rest => (basicBody? rest).map fun (t, r) => (String.ofList t, r)
  | '\'' :: rest => (literalBody? rest).map fun (t, r) => (String.ofList t, r)
  | s =>
    let bare := s.takeWhile isBare
    if bare.isEmpty then none else some (String.ofList bare, s.drop bare.length)

/-- A dotted key, at most `fuel` keys long. -/
def keysWithin? : (fuel : Nat) → Reader (List String)
  | 0, _ => none
  | fuel + 1, s => do
    let (k, s) ← key? (skipGap s)
    match skipGap s with
    | '.' :: rest =>
      let (ks, s) ← keysWithin? fuel rest
      return (k :: ks, s)
    | s => return ([k], s)

/-- A dotted key. -/
def keys? : Reader (List String) := fun s => keysWithin? (s.length + 1) s

/-! ### Values -/

/-- The items of a list after its opening bracket, at most `fuel` of them. -/
def items? (item? : Reader Value) : (fuel : Nat) → Reader (List Value)
  | 0, _ => none
  | fuel + 1, s =>
    match skipLines s with
    | ']' :: rest => some ([], rest)
    | s => do
      let (v, s) ← item? s
      match skipLines s with
      | ']' :: rest => some ([v], rest)
      | ',' :: rest =>
        let (vs, s) ← items? item? fuel rest
        return (v :: vs, s)
      | _ => none

/-- A dotted key, an equals sign and a value. -/
def entry? (item? : Reader Value) : Reader (List String × Value) := fun s => do
  let (ks, s) ← keys? s
  let (v, s) ← item? (skipGap (← after? '=' s))
  return ((ks, v), s)

/-- The entries of a table after its opening brace, at most `fuel` of them. -/
def entries? (item? : Reader Value) : (fuel : Nat) → Reader (List (List String × Value))
  | 0, _ => none
  | fuel + 1, s =>
    match skipLines s with
    | '}' :: rest => some ([], rest)
    | s => do
      let (e, s) ← entry? item? s
      match skipLines s with
      | '}' :: rest => some ([e], rest)
      | ',' :: rest =>
        let (es, s) ← entries? item? fuel rest
        return (e :: es, s)
      | _ => none

/-! ### Tables from entries -/

/-- The members of a table with the value of a name set, at the place it had or at the end. -/
def Members.set (members : Members) (name : String) (value : Value) : Members :=
  match members with
  | [] => [(name, value)]
  | (n, v) :: rest => if n = name then (n, value) :: rest else (n, v) :: Members.set rest name value

/-- Changes a table below another one.  Tables on the way that do not exist are made; a list that
grows by headers stands for its last table.  Tables in braces are closed, and dotted keys do not
reach into tables with a header of their own. -/
def within (dotted : Bool) (change : Origin → Members → Option Members) :
    (path : List String) → Origin → Members → Option Members
  | [], origin, members => change origin members
  | name :: path, _, members =>
    match members.lookup name with
    | none => do
      let made := if dotted then Origin.dotted else Origin.implied
      return members.set name (.table made (← within dotted change path made []))
    | some (.table origin inner) =>
      if origin = .inline ∨ (dotted ∧ origin = .header) then none
      else do return members.set name (.table origin (← within dotted change path origin inner))
    | some (.list true items) =>
      match items.getLast? with
      | some (.table origin inner) => do
        let last := Value.table origin (← within dotted change path origin inner)
        return members.set name (.list true (items.dropLast ++ [last]))
      | _ => none
    | some _ => none

/-- Adds a member whose name is not taken. -/
def addMember (name : String) (value : Value) (members : Members) : Option Members :=
  if (members.lookup name).isSome then none else some (members ++ [(name, value)])

/-- Adds the entry of a dotted key to a table.  All names but the last lead to a table that dotted
keys have made. -/
def addEntry (members : Members) (entry : List String × Value) : Option Members :=
  match entry.1.dropLast, entry.1.getLast? with
  | _, none => none
  | [], some name => addMember name entry.2 members
  | path, some name =>
    within true
      (fun origin inner => if origin = .dotted then addMember name entry.2 inner else none)
      path .header members

/-- The value at the start of a text.  Lists and tables in braces may be nested to a given depth. -/
def value? : (depth : Nat) → Reader Value
  | _, '"' :: rest => (string? ('"' :: rest)).map fun (t, r) => (.text t, r)
  | _, '\'' :: rest => (string? ('\'' :: rest)).map fun (t, r) => (.text t, r)
  | depth + 1, '[' :: rest =>
    (items? (value? depth) (rest.length + 1) rest).map fun (vs, r) => (.list false vs, r)
  | depth + 1, '{' :: rest => do
    let (es, s) ← entries? (value? depth) (rest.length + 1) rest
    return (.table .inline (← es.foldlM addEntry []), s)
  | _, s => unquoted? s

/-- The greatest depth to which lists and tables in braces may be nested. -/
def maxDepth : Nat := 80

/-! ### Sections -/

/-- What a section is for: the whole text, the table of a header in single brackets, or a new table
at the end of the list of a header in double brackets. -/
inductive Heading where
  | root
  | table (path : List String)
  | element (path : List String)

/-- A heading and the entries below it. -/
structure Section where
  heading : Heading
  entries : List (List String × Value)

/-- The header in a line, after its first bracket. -/
def heading? : Reader Heading
  | '[' :: rest => do
    let (path, s) ← keys? rest
    match s with
    | ']' :: ']' :: s => some (.element path, s)
    | _ => none
  | rest => do
    let (path, s) ← keys? rest
    match s with
    | ']' :: s => some (.table path, s)
    | _ => none

/-- The sections of a text below a heading whose latest entries come first, at most `fuel` lines. -/
def sectionsFrom? (heading : Heading) (latest : List (List String × Value)) :
    (fuel : Nat) → List Char → Option (List Section)
  | 0, _ => none
  | fuel + 1, s =>
    match skipLines s with
    | [] => some [⟨heading, latest.reverse⟩]
    | '[' :: rest => do
      let (next, s) ← heading? rest
      let sections ← sectionsFrom? next [] fuel (← afterLine? s)
      return ⟨heading, latest.reverse⟩ :: sections
    | s => do
      let (e, s) ← entry? (value? maxDepth) s
      sectionsFrom? heading (e :: latest) fuel (← afterLine? s)

/-- The sections of a text.  A byte order mark at its start does not belong to it. -/
def sections? (s : List Char) : Option (List Section) :=
  let s := match s with
    | '\ufeff' :: rest => rest
    | s => s
  sectionsFrom? .root [] (s.length + 1) s

end Darkroom.Toml
