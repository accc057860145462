import Darkroom.FileTree
import Darkroom.Job.Codec

/-!
# Editing sessions

A session holds at most one job.  Its operations change it in place: a failed operation ends where
it fails, and what it has changed by then stays changed.  Each operation looks at its arguments
first, then at the open job, and changes the session last.

## Main definitions

* `Session` : the open job, if there is one.
* `Editing` : an operation on a session.
* `Editing.openImage`, `Editing.addRegion`, `Editing.updateRegion`, `Editing.removeRegion`,
  `Editing.setMode`, `Editing.setOutput`, `Editing.save`, `Editing.load`, `Editing.discard`.
* `Editing.on` : what an operation gives on a session, and the session after it.
* `Session.perform` : an operation for a caller that stops at the first failure.
-/

namespace Darkroom

/-- The open job of an editor. -/
structure Session where
  job : Option Job

namespace Session

/-- A session without a job. -/
def new : Session := ⟨none⟩

/-- Whether a job is open. -/
def isOpen (s : Session) : Bool := s.job.isSome

/-- The open job. -/
def require (s : Session) : Except Fault Job :=
  match s.job with
  | some job => .ok job
  | none => .error (.validation "No image is open")

/-- The fault of a region that does not exist. -/
def noRegion (index : Nat) : Fault := .validation s!"Region {index} does not exist"

end Session

/-- An operation on a session that may fail.  There is a session after it in either case. -/
abbrev Editing := ExceptT Fault (StateM Session)

namespace Editing

/-- A result that does not depend on the session. -/
def check {α : Type} : Except Fault α → Editing α
  | .ok x => pure x
  | .error fault => throw fault

/-- The open job. -/
def current : Editing Job := do check (← get).require

/-- Puts a job into the session, in place of any other. -/
def replace (job : Job) : Editing Unit := set (Session.mk (some job))

/-- Opens a new job for an image, in place of any other. -/
def openImage (path : String) (now : Instant) : Editing Job := do
  check (Check.path "source_image_path" path)
  let job := Job.new path Mode.initial now
  replace job
  return job

/-- Adds a region; gives its index. -/
def addRegion (region : Region) : Editing Nat := do
  check (region.checkArea "region")
  let job ← current
  replace { job with regions := job.regions ++ [region] }
  return job.regions.length

/-- Replaces a region. -/
def updateRegion (index : Nat) (region : Region) : Editing Unit := do
  check (region.checkArea "region")
  let job ← current
  if index < job.regions.length then
    replace { job with regions := job.regions.set index region }
  else check (.error (Session.noRegion index))

/-- Removes a region; gives it. -/
def removeRegion (index : Nat) : Editing Region := do
  let job ← current
  match job.regions[index]? with
  | some region =>
    replace { job with regions := job.regions.eraseIdx index }
    return region
  | none => check (.error (Session.noRegion index))

/-- Sets the mode. -/
def setMode (mode : Mode) : Editing Unit := do
  check mode.validate
  let job ← current
  replace { job with mode }

/-- Sets or clears the output. -/
def setOutput (output : Option String) : Editing Unit := do
  match output with
  | some path => check (Check.path "output_path" path)
  | none => pure ()
  let job ← current
  replace { job with output }

/-- Writes the open job to a file; gives the files afterwards. -/
def save (path : String) (tree : FileTree) : Editing FileTree := do
  let job ← current
  check job.validate
  check (tree.write path job.encode.toUTF8)

/-- Opens the job in a file, in place of any other. -/
def load (path : String) (tree : FileTree) : Editing Job := do
  let text ← check (tree.readText path)
  let job ← check (Job.decode text)
  replace job
  return job

/-- Closes the job; gives it. -/
def discard : Editing (Option Job) := do
  let s ← get
  set Session.new
  return s.job

end Editing

/-- What an operation gives on a session, and the session after it. -/
def Editing.on {α : Type} (operation : Editing α) (s : Session) : Except Fault α × Session :=
  operation.run.run s

/-- An operation for a caller that stops at the first failure. -/
def Session.perform {α : Type} (s : Session) (operation : Editing α) : Except Fault (α × Session) :=
  match operation.on s with
  | (.ok x, s) => .ok (x, s)
  | (.error fault, _) => .error fault

end Darkroom
