import Darkroom.Numeric.Decimal

/-!
# Writing JSON

Documents are written with one item or member to a line, two blanks of indentation a level, and
only the characters escaped that have to be.

## Main definitions

* `Document` : what can be written.
* `quote` : the written form of a string.
* `doubleText`, `singleText` : the written forms of numbers.
* `Document.text` : the written form of a document.
-/

namespace Darkroom.Json

/-- A document to be written; a number is given by its text. -/
inductive Document where
  | null
  | number (text : String)
  | text (s : String)
  | list (items : List Document)
  | record (members : List (String × Document))

/-- The lower-case hexadecimal digit of a number below 16. -/
def hexDigit (n : Nat) : Char := if n < 10 then Char.ofNat (48 + n) else Char.ofNat (87 + n)

/-- The written form of a character within quotes. -/
def escape (c : Char) : List Char :=
  if c = '"' then ['\\', '"']
  else if c = '\\' then ['\\', '\\']
  else if c = '\x08' then ['\\', 'b']
  else if c = '\x0c' then ['\\', 'f']
  else if c = '\n' then ['\\', 'n']
  else if c = '\r' then ['\\', 'r']
  else if c = '\t' then ['\\', 't']
  else if c.toNat < 0x20 then
    ['\\', 'u', '0', '0', hexDigit (c.toNat / 16), hexDigit (c.toNat % 16)]
  else [c]

/-- The written form of a string. -/
def quote (s : String) : List Char := '"' :: (s.toList.flatMap escape ++ ['"'])

/-- The layout of doubles in files. -/
def doubleLayout : Numeric.Layout := ⟨some (-5, 15), true, .toEven, "null", "null", "null"⟩

/-- The layout of singles in files. -/
def singleLayout : Numeric.Layout := ⟨some (-6, 12), true, .toEven, "null", "null", "null"⟩

/-- The written form of a double; a number that is not finite is written as `null`. -/
def doubleText (x : Float) : String :=
  doubleLayout.text .double (Numeric.isNegative x) (Numeric.magnitude x)

/-- The written form of a single; a number that is not finite is written as `null`. -/
def singleText (x : Float32) : String :=
  singleLayout.text .single (Numeric.isNegative32 x) (Numeric.magnitude32 x)

/-- A new line at a level of indentation. -/
def newLine (level : Nat) : List Char := '\n' :: List.replicate (2 * level) ' '

namespace Document

mutual

/-- The written form of a document whose first line starts at a level of indentation. -/
def write (level : Nat) : Document → List Char
  | .null => ['n', 'u', 'l', 'l']
  | .number t => t.toList
  | .text s => quote s
  | .list [] => ['[', ']']
  | .list (x :: xs) =>
    '[' :: newLine (level + 1) ++ (write (level + 1) x ++ writeItems level xs)
  | .record [] => ['\x7b', '\x7d']
  | .record ((name, x) :: ms) =>
    '\x7b' :: newLine (level + 1) ++
      (quote name ++ [':', ' '] ++ (write (level + 1) x ++ writeMembers level ms))

/-- The items of a list after the first, and the closing bracket. -/
def writeItems (level : Nat) : List Document → List Char
  | [] => newLine level ++ [']']
  | x :: xs => ',' :: newLine (level + 1) ++ (write (level + 1) x ++ writeItems level xs)

/-- The members of a record after the first, and the closing bracket. -/
def writeMembers (level : Nat) : List (String × Document) → List Char
  | [] => newLine level ++ ['\x7d']
  | (name, x) :: ms =>
    ',' :: newLine (level + 1) ++
      (quote name ++ [':', ' '] ++ (write (level + 1) x ++ writeMembers level ms))

end

/-- The written form of a document. -/
def print (d : Document) : String := String.ofList (d.write 0)

end Document

end Darkroom.Json
