import Darkroom.Job
import Darkroom.Json.Document
import Darkroom.Json.Reader

/-!
# Job files

Jobs are stored as JSON records.  A mode is a record whose member `kind` names it; it may stand
anywhere among the members, so the others are kept until it is known.

## Main definitions

* `Job.encode`, `Job.decode` : the text of a job, and the valid job that a text holds.
* `Job.parse` : the job that a text holds, valid or not.
-/

namespace Darkroom

/-- A reader's result as a fault of the program. -/
def ofJson {α : Type} : Except JsonProblem α → Except Fault α
  | .ok x => .ok x
  | .error p => .error (.json p)

/-! ### Writing -/

/-- A natural number in a document. -/
def Json.Document.nat (n : Nat) : Json.Document := .number (toString n)

/-- The stored form of a region. -/
def Region.document (r : Region) : Json.Document :=
  .record [("x", .nat r.x.toNat), ("y", .nat r.y.toNat), ("width", .nat r.width.toNat),
    ("height", .nat r.height.toNat)]

/-- The stored form of a mode. -/
def Mode.document (mode : Mode) : Json.Document :=
  let parameter := match mode with
    | .fill c =>
      ("color", Json.Document.list [.nat c.r.toNat, .nat c.g.toNat, .nat c.b.toNat, .nat c.a.toNat])
    | .pixelate blockSize => ("block_size", .nat blockSize.toNat)
    | .blur sigma => ("sigma", .number (Json.singleText sigma))
  .record [("kind", .text mode.name), parameter]

/-- The stored form of a job; an output that is not given is left out. -/
def Job.document (job : Job) : Json.Document :=
  let output := match job.output with
    | some path => [("output_path", Json.Document.text path)]
    | none => []
  .record ([("source_image_path", .text job.source),
    ("regions", .list (job.regions.map Region.document)), ("mode", job.mode.document)] ++ output ++
    [("created_at", .text job.created.text)])

/-- The text of a job. -/
def Job.encode (job : Job) : String := job.document.print

/-! ### Reading -/

/-- The members of a region read so far. -/
structure RegionDraft where
  x : Option Nat := none
  y : Option Nat := none
  width : Option Nat := none
  height : Option Nat := none

/-- The members of a stored region. -/
def RegionDraft.members : List (Json.Member RegionDraft) :=
  let coordinate (name : String) (get : RegionDraft → Option Nat)
      (set : Nat → RegionDraft → RegionDraft) : Json.Member RegionDraft :=
    ⟨name, fun d => (get d).isSome, false, fun depth s =>
      (Json.readNat UInt32.size depth s).map fun (n, r) => (set n, r)⟩
  [coordinate "x" RegionDraft.x fun n d => { d with x := some n },
    coordinate "y" RegionDraft.y fun n d => { d with y := some n },
    coordinate "width" RegionDraft.width fun n d => { d with width := some n },
    coordinate "height" RegionDraft.height fun n d => { d with height := some n }]

/-- The region of a complete draft. -/
def RegionDraft.finish (d : RegionDraft) : Option Region := do
  return ⟨UInt32.ofNat (← d.x), UInt32.ofNat (← d.y), UInt32.ofNat (← d.width),
    UInt32.ofNat (← d.height)⟩

/-- Reads a region. -/
def readRegion : Json.Reader Region := Json.readRecord RegionDraft.members {} RegionDraft.finish

/-- A channel of a colour. -/
def channelOf? : Json.Value → Option UInt8
  | .number x => (x.below? 256).map UInt8.ofNat
  | _ => none

/-- The mode of a kind with the value of its parameter. -/
def modeOf? (kind : ModeKind) (value : Json.Value) : Option Mode :=
  match kind, value with
  | .fill, .list [r, g, b, a] => do
    return .fill ⟨← channelOf? r, ← channelOf? g, ← channelOf? b, ← channelOf? a⟩
  | .pixelate, .number x => (x.below? UInt32.size).map fun n => .pixelate (UInt32.ofNat n)
  | .blur, .number x => some (.blur x.toSingle)
  | _, _ => none

/-- The name of the parameter of a kind. -/
def ModeKind.parameter : ModeKind → String
  | .fill => "color"
  | .pixelate => "block_size"
  | .blur => "sigma"

/-- The mode of a record's members: the parameter is there exactly once. -/
def modeOfMembers? (kind : Option ModeKind) (members : List (String × Json.Value)) :
    Option Mode := do
  let kind ← kind
  match members.filter fun m => m.1 = kind.parameter with
  | [(_, value)] => modeOf? kind value
  | _ => none

/-- Reads the name of a kind. -/
def readModeKind : Json.Reader ModeKind := fun depth s => do
  let (name, rest) ← Json.readText depth s
  match ModeKind.ofName? name with
  | some kind => .ok (kind, rest)
  | none => .error .mistyped

/-- The kind of a mode, once read, and its other members. -/
abbrev ModeDraft := Option ModeKind × List (String × Json.Value)

/-- One member of a stored mode. -/
def readModeMember (depth : Nat) (draft : ModeDraft) (name : String) (s : List Char) :
    Except JsonProblem (ModeDraft × List Char) :=
  if name = "kind" then
    if draft.1.isSome then .error .mistyped
    else do
      let (kind, rest) ← readModeKind depth (← Json.readColon s)
      return ((some kind, draft.2), rest)
  else do
    let (value, rest) ← Json.readValue depth (← Json.readColon s)
    return ((draft.1, draft.2 ++ [(name, value)]), rest)

/-- Reads a mode: a record, or a list of the kind and its parameter. -/
def readMode : Json.Reader Mode := fun depth s =>
  let complete (mode : Option Mode) (rest : List Char) : Except JsonProblem (Mode × List Char) :=
    match mode with
    | some mode => .ok (mode, rest)
    | none => .error .mistyped
  match Json.skipSpace s with
  | [] => .error .truncated
  | c :: rest =>
    if c = '\x7b' then do
      let inner ← Json.enter depth
      let (draft, after) ←
        Json.readMembers (readModeMember inner) (rest.length + 1) true (none, []) rest
      complete (modeOfMembers? draft.1 draft.2) after
    else if c = '[' then do
      let inner ← Json.enter depth
      let (more, here) ← Json.nextItem true rest
      if more then
        let (kind, rest) ← readModeKind inner here
        let (values, after) ← Json.readItems (Json.readValue inner) (rest.length + 1) false rest
        match values with
        | [value] => complete (modeOf? kind value) after
        | _ => .error .mistyped
      else .error .mistyped
    else .error (Json.mistypedAt (c :: rest))

/-- Reads an instant. -/
def readInstant : Json.Reader Instant := fun depth s => do
  let (text, rest) ← Json.readText depth s
  match Instant.read? text with
  | some t => .ok (t, rest)
  | none => .error .mistyped

/-- The members of a job read so far. -/
structure JobDraft where
  source : Option String := none
  regions : Option (List Region) := none
  mode : Option Mode := none
  output : Option (Option String) := none
  created : Option Instant := none

/-- The members of a stored job. -/
def JobDraft.members : List (Json.Member JobDraft) :=
  [⟨"source_image_path", fun d => d.source.isSome, false, fun depth s =>
      (Json.readText depth s).map fun (x, r) => (fun d => { d with source := some x }, r)⟩,
    ⟨"regions", fun d => d.regions.isSome, false, fun depth s =>
      (Json.readList readRegion depth s).map fun (x, r) =>
        (fun d => { d with regions := some x }, r)⟩,
    ⟨"mode", fun d => d.mode.isSome, false, fun depth s =>
      (readMode depth s).map fun (x, r) => (fun d => { d with mode := some x }, r)⟩,
    ⟨"output_path", fun d => d.output.isSome, true, fun depth s =>
      (Json.readOptional Json.readText depth s).map fun (x, r) =>
        (fun d => { d with output := some x }, r)⟩,
    ⟨"created_at", fun d => d.created.isSome, false, fun depth s =>
      (readInstant depth s).map fun (x, r) => (fun d => { d with created := some x }, r)⟩]

/-- The job of a complete draft. -/
def JobDraft.finish (d : JobDraft) : Option Job := do
  return ⟨← d.source, ← d.regions, ← d.mode, d.output.getD none, ← d.created⟩

/-- Reads a job. -/
def readJob : Json.Reader Job := Json.readRecord JobDraft.members {} JobDraft.finish

/-- The job that a text holds, valid or not. -/
def Job.parse (text : String) : Except Fault Job := ofJson (Json.readWhole readJob text)

/-- The valid job that a text holds. -/
def Job.decode (text : String) : Except Fault Job := do
  let job ← Job.parse text
  job.validate
  return job

end Darkroom
