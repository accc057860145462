import Darkroom.Fault

/-!
# Options on a command line

A command line is a list of words: options with one or two dashes, their values, and the name of a
further command, which ends the options of the command that it belongs to.  The value of an option
follows it as the next word, after an equals sign, or right after its letter.

A value that is the next word is only looked at when the next option comes, or the end.  So an
option that does not exist is reported before a value that is not usable.

## Main definitions

* `Misuse` : what is wrong with a command line.
* `Switch` : an option that a command knows.
* `Given` : the options read so far.
* `scan` : the options of a command, up to the name of a further command.
-/

namespace Darkroom.CommandLine

/-- What keeps a command line from being run.  Asking for help is one of the reasons. -/
inductive Misuse where
  | helpWanted
  | nothingGiven
  | unknownArgument
  | unknownCommand
  | missingCommand
  | missingArgument
  | conflict
  | missingValue
  | unknownAlternative
  | unusableValue
  | unwantedValue
  deriving DecidableEq, Repr

namespace Misuse

/-- The exit code of a program whose command line cannot be run. -/
def exitCode : Misuse → Nat
  | helpWanted => 0
  | _ => 2

/-- What is wrong with a command line, in words. -/
def message : Misuse → String
  | helpWanted => "help was asked for"
  | nothingGiven => "nothing was given"
  | unknownArgument => "an unexpected argument was found"
  | unknownCommand => "the command does not exist"
  | missingCommand => "a command has to be given"
  | missingArgument => "a required option was not given"
  | conflict => "an option was given twice or together with one that it excludes"
  | missingValue => "an option has no value"
  | unknownAlternative => "a value is not one of the possible ones"
  | unusableValue => "a value cannot be used"
  | unwantedValue => "an option without a value was given one"

end Misuse

/-- An option that a command knows; `check` gives what is wrong with a value. -/
structure Switch where
  name : String
  letter : Option Char
  takesValue : Bool
  repeatable : Bool
  check : String → Option Misuse

namespace Switch

/-- An option without a value. -/
def flag (name : String) : Switch := ⟨name, none, false, false, fun _ => none⟩

/-- An option with a value of any form. -/
def text (name : String) : Switch := ⟨name, none, true, false, fun _ => none⟩

/-- An option with a value that a reader has to accept. -/
def read {α : Type} (name : String) (reader : String → Option α) (misuse : Misuse) : Switch :=
  ⟨name, none, true, false, fun value => if (reader value).isSome then none else some misuse⟩

/-- The option also goes by a letter. -/
def withLetter (s : Switch) (letter : Char) : Switch := { s with letter := some letter }

/-- The option may be given any number of times. -/
def repeated (s : Switch) : Switch := { s with repeatable := true }

/-- The option that asks for help. -/
def help : Switch := ⟨"help", some 'h', false, false, fun _ => some .helpWanted⟩

end Switch

/-- The options read so far, with their values in order.  An option is `pending` from the moment it
is named until the next one or the end; its value is there once it has been read. -/
structure Given where
  values : List (String × String)
  pending : Option (Switch × Option String)

namespace Given

/-- No options. -/
def none : Given := ⟨[], .none⟩

/-- All values of an option. -/
def all (g : Given) (name : String) : List String :=
  (g.values.filter fun entry => entry.1 = name).map Prod.snd

/-- Whether an option was given. -/
def has (g : Given) (name : String) : Bool := g.values.any fun entry => entry.1 = name

/-- The value of an option. -/
def get? (g : Given) (name : String) : Option String := g.values.lookup name

/-- Whether a value has to come next. -/
def isWaiting (g : Given) : Bool :=
  match g.pending with
  | some (_, .none) => true
  | _ => false

/-- Adds the value of an option. -/
def add (g : Given) (s : Switch) (value : String) : Except Misuse Given :=
  if !s.repeatable && g.has s.name then .error .conflict
  else match s.check value with
    | some misuse => .error misuse
    | .none => .ok { g with values := g.values ++ [(s.name, value)] }

/-- Adds the pending option, if there is one. -/
def settle (g : Given) : Except Misuse Given :=
  match g.pending with
  | .none => .ok g
  | some (_, .none) => .error .missingValue
  | some (s, some value) => Given.add { g with pending := .none } s value

/-- Adds an option with its value, after the pending one. -/
def settleAndAdd (g : Given) (s : Switch) (value : String) : Except Misuse Given := do
  (← g.settle).add s value

/-- Makes an option pending, after the one that was. -/
def await (g : Given) (s : Switch) : Except Misuse Given := do
  return { (← g.settle) with pending := some (s, .none) }

/-- Gives the pending option its value. -/
def supply (g : Given) (value : String) : Given :=
  { g with pending := g.pending.map fun (s, _) => (s, some value) }

end Given

/-- A name and the value after the first equals sign, if there is one. -/
def splitAtEquals (s : List Char) : String × Option String :=
  match s.dropWhile (· ≠ '=') with
  | [] => (String.ofList s, none)
  | _ :: value => (String.ofList (s.takeWhile (· ≠ '=')), some (String.ofList value))

/-- Reads an option with two dashes, from the characters after them. -/
def readLong (switches : List Switch) (g : Given) (body : List Char) : Except Misuse Given :=
  let (name, value) := splitAtEquals body
  match switches.find? (·.name = name), value with
  | none, _ => .error .unknownArgument
  | some s, some value => if s.takesValue then g.settleAndAdd s value else .error .unwantedValue
  | some s, none => if s.takesValue then g.await s else g.settleAndAdd s ""

/-- Reads options by letter, from the characters after the dash.  What follows the letter of an
option with a value is the value. -/
def readLetters (switches : List Switch) (g : Given) : List Char → Except Misuse Given
  | [] => .ok g
  | c :: rest =>
    match switches.find? (·.letter = some c) with
    | none => .error .unknownArgument
    | some s =>
      if s.takesValue then
        match rest with
        | [] => g.await s
        | '=' :: value => g.settleAndAdd s (String.ofList value)
        | value => g.settleAndAdd s (String.ofList value)
      else do readLetters switches (← g.settleAndAdd s "") rest

/-- What is wrong with a word that is neither an option nor a value.  After two dashes, which end
the options, not even a command may follow. -/
def strayWord (commands : List String) (ended : Bool) (word : String) : Misuse :=
  if commands.isEmpty || (ended && commands.contains word) then .unknownArgument
  else .unknownCommand

/-- Reads the options of a command up to the name of a further one; gives that name and the words
after it. -/
def scan (switches : List Switch) (commands : List String) (g : Given) :
    List String → Except Misuse (Given × Option (String × List String))
  | [] => .ok (g, none)
  | word :: words =>
    if !g.isWaiting && commands.contains word then .ok (g, some (word, words))
    else match word.toList with
      | ['-', '-'] =>
        match words with
        | [] => .ok (g, none)
        | next :: _ => .error (strayWord commands true next)
      | '-' :: '-' :: body => do scan switches commands (← readLong switches g body) words
      | '-' :: c :: body => do scan switches commands (← readLetters switches g (c :: body)) words
      | _ =>
        if g.isWaiting then scan switches commands (g.supply word) words
        else .error (strayWord commands false word)

/-- The options of a command that no further one follows. -/
def scanAll (switches : List Switch) (words : List String) : Except Misuse Given := do
  (← scan switches [] Given.none words).1.settle

end Darkroom.CommandLine
