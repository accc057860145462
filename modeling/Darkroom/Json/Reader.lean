import Darkroom.Json.Token

/-!
# Reading JSON values

Readers for the kinds of values that files hold.  A reader takes the number of nesting levels left
and the text, and stops at the first problem.  Records come in two forms, as an object with named
members in any order or as a list of the members in order; members that the record does not have
are skipped, and a member given twice is refused.

## Main definitions

* `Reader` : readers of a type.
* `readText`, `readNat`, `readDouble`, `readOptional`, `readList` : scalars and lists.
* `Member`, `readRecord` : records in both forms.
* `Value`, `readValue` : values of any kind.
* `readWhole` : a value that takes up a whole text.
-/

namespace Darkroom.Json

/-- Reads a value at the start of a text, with `depth` levels of nesting left. -/
abbrev Reader (α : Type) := (depth : Nat) → List Char → Except JsonProblem (α × List Char)

/-- The nesting limit of a text: 127 levels may be open at once. -/
def nestingLimit : Nat := 128

/-! ### Scalars -/

/-- A string. -/
def readText : Reader String := fun _ s =>
  match skipSpace s with
  | '"' :: rest => (readStringBody rest).map fun (t, r) => (String.ofList t, r)
  | other => .error (mistypedAt other)

/-- A number of any kind. -/
def readAnyNumber : Reader Number := fun _ s =>
  match skipSpace s with
  | [] => .error .truncated
  | c :: rest =>
    if c = '-' then readNumber true rest
    else if c.isDigit then readNumber false (c :: rest)
    else .error (mistypedAt (c :: rest))

/-- A natural number below `bound`. -/
def readNat (bound : Nat) : Reader Nat := fun depth s => do
  let (x, rest) ← readAnyNumber depth s
  match x.below? bound with
  | some n => .ok (n, rest)
  | none => .error .mistyped

/-- A double. -/
def readDouble : Reader Float := fun depth s =>
  (readAnyNumber depth s).map fun (x, rest) => (x.toDouble, rest)

/-- A value or `null`. -/
def readOptional {α : Type} (item : Reader α) : Reader (Option α) := fun depth s =>
  match skipSpace s with
  | 'n' :: rest => (readWord ['u', 'l', 'l'] rest).map fun r => (none, r)
  | _ => (item depth s).map fun (x, r) => (some x, r)

/-! ### Lists -/

/-- Whether another item follows in a list, and the text from that item or the closing bracket
on. -/
def nextItem (first : Bool) (s : List Char) : Except JsonProblem (Bool × List Char) :=
  match skipSpace s with
  | [] => .error .truncated
  | c :: rest =>
    if c = ']' then .ok (false, c :: rest)
    else if first then .ok (true, c :: rest)
    else if c = ',' then
      match skipSpace rest with
      | [] => .error .truncated
      | ']' :: _ => .error .malformed
      | item => .ok (true, item)
    else .error .malformed

/-- The items of a list after its opening bracket, up to and with the closing one.  Each item takes
at least one character, so the length of the text bounds their number. -/
def readItems {α : Type} (item : List Char → Except JsonProblem (α × List Char)) :
    (fuel : Nat) → (first : Bool) → List Char → Except JsonProblem (List α × List Char)
  | 0, _, _ => .error .truncated
  | fuel + 1, first, s => do
    let (more, here) ← nextItem first s
    if more then
      let (x, rest) ← item here
      let (xs, after) ← readItems item fuel false rest
      return (x :: xs, after)
    else return ([], here.drop 1)

/-- The levels left inside a list or record; refuses when none is left. -/
def enter (depth : Nat) : Except JsonProblem Nat :=
  if depth ≤ 1 then .error .malformed else .ok (depth - 1)

/-- A list of values. -/
def readList {α : Type} (item : Reader α) : Reader (List α) := fun depth s =>
  match skipSpace s with
  | '[' :: rest => do
    let inner ← enter depth
    readItems (item inner) (rest.length + 1) true rest
  | other => .error (mistypedAt other)

/-! ### Skipping a value -/

/-- Skips a value nobody asked for, with the kinds of the open brackets around it on a stack
(`true` for a record).  `done` says that a value has just ended.  Every second step takes a
character. -/
def skipLoop : (fuel : Nat) → (done : Bool) → List Bool → List Char →
    Except JsonProblem (List Char)
  | 0, _, _, _ => .error .truncated
  | fuel + 1, done, frames, s =>
    let member (frames : List Bool) (s : List Char) : Except JsonProblem (List Char) :=
      match skipSpace s with
      | [] => .error .truncated
      | '"' :: rest => do
        let after ← skipStringBody rest
        match skipSpace after with
        | [] => .error .truncated
        | ':' :: value => skipLoop fuel false frames value
        | _ => .error .malformed
      | _ => .error .malformed
    if done then
      match frames with
      | [] => .ok s
      | isRecord :: outer =>
        match skipSpace s with
        | [] => .error .truncated
        | c :: rest =>
          if c = ',' then if isRecord then member frames rest else skipLoop fuel false frames rest
          else if c = (if isRecord then '\x7d' else ']') then skipLoop fuel true outer rest
          else .error .malformed
    else
      match skipSpace s with
      | [] => .error .truncated
      | c :: rest =>
        let scalar (after : Except JsonProblem (List Char)) : Except JsonProblem (List Char) := do
          skipLoop fuel true frames (← after)
        if c = 'n' then scalar (readWord ['u', 'l', 'l'] rest)
        else if c = 't' then scalar (readWord ['r', 'u', 'e'] rest)
        else if c = 'f' then scalar (readWord ['a', 'l', 's', 'e'] rest)
        else if c = '-' then scalar (skipNumber rest)
        else if c.isDigit then scalar (skipNumber (c :: rest))
        else if c = '"' then scalar (skipStringBody rest)
        else if c = '[' then
          match skipSpace rest with
          | [] => .error .truncated
          | ']' :: after => skipLoop fuel true frames after
          | item => skipLoop fuel false (false :: frames) item
        else if c = '\x7b' then
          match skipSpace rest with
          | [] => .error .truncated
          | '\x7d' :: after => skipLoop fuel true frames after
          | item => member (true :: frames) item
        else .error .malformed

/-- The text after the value at its start. -/
def skipValue (s : List Char) : Except JsonProblem (List Char) :=
  skipLoop (2 * s.length + 2) false [] s

/-! ### Records -/

/-- Whether another member follows in a record, and the text after the quote that opens its name,
or after the closing bracket. -/
def nextMember (first : Bool) (s : List Char) : Except JsonProblem (Bool × List Char) :=
  match skipSpace s with
  | [] => .error .truncated
  | c :: rest =>
    if c = '\x7d' then .ok (false, rest)
    else if first then if c = '"' then .ok (true, rest) else .error .malformed
    else if c = ',' then
      match skipSpace rest with
      | [] => .error .truncated
      | '"' :: name => .ok (true, name)
      | _ => .error .malformed
    else .error .malformed

/-- The text after the colon between a name and its value. -/
def readColon (s : List Char) : Except JsonProblem (List Char) :=
  match skipSpace s with
  | [] => .error .truncated
  | ':' :: rest => .ok rest
  | _ => .error .malformed

/-- The members of a record after its opening bracket.  `member` gets the members so far, a name
and the text after that name. -/
def readMembers {σ : Type} (member : σ → String → List Char → Except JsonProblem (σ × List Char)) :
    (fuel : Nat) → (first : Bool) → σ → List Char → Except JsonProblem (σ × List Char)
  | 0, _, _, _ => .error .truncated
  | fuel + 1, first, draft, s => do
    let (more, here) ← nextMember first s
    if more then
      let (name, rest) ← readStringBody here
      let (next, after) ← member draft (String.ofList name) rest
      readMembers member fuel false next after
    else return (draft, here)

/-- A member of a record that is read into a draft of type `σ`. -/
structure Member (σ : Type) where
  name : String
  /-- Whether the draft has this member already. -/
  present : σ → Bool
  /-- Whether the list form may end before this member. -/
  omissible : Bool
  /-- Reads the value and stores it in the draft. -/
  read : Reader (σ → σ)

/-- One member of the object form. -/
def readMember {σ : Type} (members : List (Member σ)) (depth : Nat) (draft : σ) (name : String)
    (s : List Char) : Except JsonProblem (σ × List Char) :=
  match members.find? (·.name = name) with
  | some m =>
    if m.present draft then .error .mistyped
    else do
      let value ← readColon s
      let (store, rest) ← m.read depth value
      return (store draft, rest)
  | none => do
    let value ← readColon s
    let rest ← skipValue value
    return (draft, rest)

/-- The members of the list form in order. -/
def readInOrder {σ : Type} (depth : Nat) : List (Member σ) → (first : Bool) → σ → List Char →
    Except JsonProblem (σ × List Char)
  | [], _, draft, s =>
    match skipSpace s with
    | [] => .error .truncated
    | ']' :: rest => .ok (draft, rest)
    | _ => .error .malformed
  | m :: ms, first, draft, s => do
    let (more, here) ← nextItem first s
    if more then
      let (store, rest) ← m.read depth here
      readInOrder depth ms false (store draft) rest
    else if m.omissible then readInOrder depth ms false draft here
    else .error .mistyped

/-- A record in either form.  `finish` turns the draft into the record, or refuses it when a
required member is missing. -/
def readRecord {σ α : Type} (members : List (Member σ)) (blank : σ) (finish : σ → Option α) :
    Reader α := fun depth s =>
  let complete : σ × List Char → Except JsonProblem (α × List Char) := fun (draft, rest) =>
    match finish draft with
    | some x => .ok (x, rest)
    | none => .error .mistyped
  match skipSpace s with
  | [] => .error .truncated
  | c :: rest =>
    if c = '\x7b' then do
      let inner ← enter depth
      complete (← readMembers (readMember members inner) (rest.length + 1) true blank rest)
    else if c = '[' then do
      let inner ← enter depth
      complete (← readInOrder inner members true blank rest)
    else .error (mistypedAt (c :: rest))

/-! ### Values of any kind -/

/-- A JSON value of any kind; members of a record in text order, repeated ones included. -/
inductive Value where
  | null
  | bool (b : Bool)
  | number (x : Number)
  | text (s : String)
  | list (items : List Value)
  | record (members : List (String × Value))

/-- Reads a value of any kind. -/
def readValue : Reader Value
  | 0, _ => .error .malformed
  | depth + 1, s =>
    match skipSpace s with
    | [] => .error .truncated
    | c :: rest =>
      if c = 'n' then (readWord ['u', 'l', 'l'] rest).map fun r => (.null, r)
      else if c = 't' then (readWord ['r', 'u', 'e'] rest).map fun r => (.bool true, r)
      else if c = 'f' then (readWord ['a', 'l', 's', 'e'] rest).map fun r => (.bool false, r)
      else if c = '-' then (readNumber true rest).map fun (x, r) => (.number x, r)
      else if c.isDigit then (readNumber false (c :: rest)).map fun (x, r) => (.number x, r)
      else if c = '"' then
        (readStringBody rest).map fun (t, r) => (.text (String.ofList t), r)
      else if c = '[' then
        if depth = 0 then .error .malformed
        else (readItems (readValue depth) (rest.length + 1) true rest).map fun (xs, r) =>
          (.list xs, r)
      else if c = '\x7b' then
        if depth = 0 then .error .malformed
        else
          let member (draft : List (String × Value)) (name : String) (s : List Char) :
              Except JsonProblem (List (String × Value) × List Char) := do
            let (x, r) ← readValue depth (← readColon s)
            return ((name, x) :: draft, r)
          (readMembers member (rest.length + 1) true [] rest).map fun (ms, r) =>
            (.record ms.reverse, r)
      else .error .malformed

/-! ### Whole texts -/

/-- A value with nothing but blanks after it. -/
def readWhole {α : Type} (reader : Reader α) (text : String) : Except JsonProblem α := do
  let (x, rest) ← reader nestingLimit text.toList
  if (skipSpace rest).isEmpty then return x else .error .malformed

end Darkroom.Json
