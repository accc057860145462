import Darkroom.FileTree

/-!
# Outcomes of commands

## Main definitions

* `Outcome` : what a command leaves behind.
-/

namespace Darkroom

/-- What a command leaves behind: its exit code, the lines of its output, the lines of its messages
about failures, and the files. -/
structure Outcome where
  exitCode : Nat
  output : List String
  messages : List String
  tree : FileTree

end Darkroom
