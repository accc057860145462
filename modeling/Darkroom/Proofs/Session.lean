import Darkroom.Session
import Darkroom.Proofs.Fault
import Mathlib.Tactic.Common

/-!
# Sessions hold valid jobs

An operation on a session may fail at any of its steps, and nothing takes back what it has changed
by then. That a failed operation changes nothing is therefore a matter of order: its steps only
look at the session (`Editing.ReadsOnly`) until nothing can fail any more.

The job of a session is valid after every operation, although no operation but saving and loading
checks a job as a whole. Each checks only what it is about to put into the job, and the validity of
a job is a conjunction of such parts (`Job.validate_eq_ok_iff`).

## Main definitions

* `Job.IsValid` : what a valid job satisfies, part by part.
* `Editing.ReadsOnly`, `Editing.Atomic`, `Editing.KeepsValid` : properties of operations.
* `Session.Edit`, `Session.after` : the operations with their arguments, and a run of them.

## Main results

* `Session.atomic_operation` : a failed operation leaves the session as it was.
* `Session.keepsValid_operation` : an operation keeps the job of the session valid.
* `Session.isValid_after` : the job of a session is valid after any run.
* `Session.editing_is_safe` : these facts together, and that an open job can always be saved unless
  its file cannot be written.
-/

namespace Darkroom

variable {α β : Type}

/-! ### Valid jobs -/

theorem Region.checkArea_eq_ok_iff (field : String) (r : Region) :
    r.checkArea field = .ok () ↔ r.width ≠ 0 ∧ r.height ≠ 0 := by
  rw [checkArea]
  split_ifs with h
  · simp only [false_iff]
    tauto
  · simp only [true_iff]
    exact not_or.mp h

namespace Job

theorem checkRegions_eq_ok_iff (index : Nat) (regions : List Region) :
    checkRegions index regions = .ok () ↔ ∀ r ∈ regions, r.width ≠ 0 ∧ r.height ≠ 0 := by
  induction regions generalizing index with
  | nil => simp [checkRegions]
  | cons r rs ih =>
    rw [checkRegions, check_bind_eq_ok_iff, List.forall_mem_cons, Region.checkArea_eq_ok_iff, ih]

/-- What a valid job satisfies. -/
structure IsValid (job : Job) : Prop where
  source : Check.path "source_image_path" job.source = .ok ()
  regions : ∀ r ∈ job.regions, r.width ≠ 0 ∧ r.height ≠ 0
  output : ∀ path, job.output = some path → Check.path "output_path" path = .ok ()
  mode : job.mode.validate = .ok ()

theorem validate_eq_ok_iff (job : Job) : job.validate = .ok () ↔ job.IsValid := by
  rw [validate, check_bind_eq_ok_iff, check_bind_eq_ok_iff, checkRegions_eq_ok_iff]
  cases houtput : job.output with
  | none =>
    dsimp only
    constructor
    · rintro ⟨hsource, hregions, hmode⟩
      exact ⟨hsource, hregions, by simp [houtput], hmode⟩
    · exact fun h => ⟨h.source, h.regions, h.mode⟩
  | some path =>
    dsimp only
    rw [check_bind_eq_ok_iff]
    constructor
    · rintro ⟨hsource, hregions, hpath, hmode⟩
      refine ⟨hsource, hregions, fun other hother => ?_, hmode⟩
      rwa [← Option.some.inj (houtput.symm.trans hother)]
    · exact fun h => ⟨h.source, h.regions, h.output path houtput, h.mode⟩

end Job

theorem Job.isValid_of_decode {text : String} {job : Job} (h : Job.decode text = .ok job) :
    job.IsValid := by
  rw [decode, bind_eq_ok_iff] at h
  obtain ⟨parsed, -, hchecked⟩ := h
  rw [check_bind_eq_ok_iff] at hchecked
  obtain ⟨hvalid, hjob⟩ := hchecked
  obtain rfl : parsed = job := Except.ok.inj hjob
  exact (validate_eq_ok_iff parsed).mp hvalid

/-- Every fault of writing a file is one of the file. -/
theorem FileTree.write_eq_error {tree : FileTree} {path : String} {data : ByteArray} {fault : Fault}
    (h : tree.write path data = .error fault) : ∃ problem detail, fault = .file problem detail := by
  rw [write] at h
  split at h
  · cases h
  · split_ifs at h
    exact ⟨_, _, (Except.error.inj h).symm⟩
  · exact ⟨_, _, (Except.error.inj h).symm⟩
  · exact ⟨_, _, (Except.error.inj h).symm⟩

/-- The open job of a session, if there is one, is valid. -/
def Session.IsValid (s : Session) : Prop := ∀ job, s.job = some job → job.IsValid

/-! ### Operations -/

namespace Editing

theorem on_pure (a : α) (s : Session) : (pure a : Editing α).on s = (.ok a, s) := rfl

theorem on_check (c : Except Fault α) (s : Session) : (check c).on s = (c, s) := by
  cases c <;> rfl

theorem on_current (s : Session) : current.on s = (s.require, s) := by
  rw [← on_check s.require s]
  rfl

theorem on_replace (job : Job) (s : Session) : (replace job).on s = (.ok (), ⟨some job⟩) := rfl

theorem on_bind_ok {x : Editing α} {f : α → Editing β} {s s' : Session} {a : α}
    (h : x.on s = (.ok a, s')) : (x >>= f).on s = (f a).on s' := by
  have hrun : x.run.run s = (.ok a, s') := h
  simp only [on, ExceptT.run_bind, StateT.run_bind, hrun]
  rfl

theorem on_bind_error {x : Editing α} {f : α → Editing β} {s s' : Session} {fault : Fault}
    (h : x.on s = (.error fault, s')) : (x >>= f).on s = (.error fault, s') := by
  have hrun : x.run.run s = (.error fault, s') := h
  simp only [on, ExceptT.run_bind, StateT.run_bind, hrun]
  rfl

/-! ### Failed operations -/

/-- The session after an operation is the one before it. -/
def ReadsOnly (x : Editing α) : Prop := ∀ s, (x.on s).2 = s

/-- An operation that gives a result on every session. -/
def Succeeds (x : Editing α) : Prop := ∀ s, ∃ a, (x.on s).1 = .ok a

/-- The session after a failed operation is the one before it. -/
def Atomic (x : Editing α) : Prop := ∀ s fault, (x.on s).1 = .error fault → (x.on s).2 = s

theorem readsOnly_check (c : Except Fault α) : ReadsOnly (check c) := by
  intro s
  rw [on_check]

theorem readsOnly_current : ReadsOnly current := by
  intro s
  rw [on_current]

theorem succeeds_pure (a : α) : Succeeds (pure a : Editing α) := fun s => ⟨a, by rw [on_pure]⟩

theorem ReadsOnly.atomic {x : Editing α} (h : ReadsOnly x) : Atomic x := fun s _ _ => h s

theorem Succeeds.atomic {x : Editing α} (h : Succeeds x) : Atomic x := by
  intro s fault hfault
  obtain ⟨a, ha⟩ := h s
  simp [ha] at hfault

theorem atomic_replace (job : Job) : Atomic (replace job) :=
  Succeeds.atomic fun s => ⟨(), by rw [on_replace]⟩

/-- Steps that only look at the session may stand before anything atomic. -/
theorem ReadsOnly.bind {x : Editing α} {f : α → Editing β} (hx : ReadsOnly x)
    (hf : ∀ a, Atomic (f a)) : Atomic (x >>= f) := by
  intro s fault hfault
  have hs := hx s
  cases hresult : x.on s with
  | mk result s' =>
    obtain rfl : s' = s := by simpa [hresult] using hs
    cases result with
    | ok a =>
      rw [on_bind_ok hresult] at hfault ⊢
      exact hf a s' fault hfault
    | error other => rw [on_bind_error hresult]

theorem ReadsOnly.bind_readsOnly {x : Editing α} {f : α → Editing β} (hx : ReadsOnly x)
    (hf : ∀ a, ReadsOnly (f a)) : ReadsOnly (x >>= f) := by
  intro s
  have hs := hx s
  cases hresult : x.on s with
  | mk result s' =>
    obtain rfl : s' = s := by simpa [hresult] using hs
    cases result with
    | ok a =>
      rw [on_bind_ok hresult]
      exact hf a s'
    | error fault => rw [on_bind_error hresult]

/-- What follows a change must not fail. -/
theorem Atomic.bind {x : Editing α} {f : α → Editing β} (hx : Atomic x)
    (hf : ∀ a, Succeeds (f a)) : Atomic (x >>= f) := by
  intro s fault hfault
  cases hresult : x.on s with
  | mk result s' =>
    cases result with
    | ok a =>
      obtain ⟨b, hb⟩ := hf a s'
      rw [on_bind_ok hresult, hb] at hfault
      cases hfault
    | error other =>
      rw [on_bind_error hresult]
      have hs := hx s other
      rw [hresult] at hs
      exact hs rfl

/-! ### Validity -/

/-- The job of the session stays valid, whether the operation fails or not. -/
def KeepsValid (x : Editing α) : Prop := ∀ s : Session, s.IsValid → (x.on s).2.IsValid

theorem ReadsOnly.keepsValid {x : Editing α} (h : ReadsOnly x) : KeepsValid x := by
  intro s hs
  rwa [h s]

theorem keepsValid_pure (a : α) : KeepsValid (pure a : Editing α) := fun _ hs => hs

theorem KeepsValid.bind {x : Editing α} {f : α → Editing β} (hx : KeepsValid x)
    (hf : ∀ a, KeepsValid (f a)) : KeepsValid (x >>= f) := by
  intro s hs
  have hafter := hx s hs
  cases hresult : x.on s with
  | mk result s' =>
    rw [hresult] at hafter
    cases result with
    | ok a =>
      rw [on_bind_ok hresult]
      exact hf a s' hafter
    | error fault =>
      rw [on_bind_error hresult]
      exact hafter

/-- After a check, its success is known. -/
theorem keepsValid_check_bind {c : Except Fault α} {f : α → Editing β}
    (hf : ∀ a, c = .ok a → KeepsValid (f a)) : KeepsValid (check c >>= f) := by
  intro s hs
  cases hc : c with
  | ok a =>
    rw [on_bind_ok (on_check _ _)]
    exact hf a hc s hs
  | error fault =>
    rw [on_bind_error (on_check _ _)]
    exact hs

/-- The open job of a valid session is valid. -/
theorem keepsValid_current_bind {f : Job → Editing β}
    (hf : ∀ job : Job, job.IsValid → KeepsValid (f job)) : KeepsValid (current >>= f) := by
  intro s hs
  have hcurrent := on_current s
  cases hjob : s.job with
  | some job =>
    rw [Session.require, hjob] at hcurrent
    rw [on_bind_ok hcurrent]
    exact hf job (hs job hjob) s hs
  | none =>
    rw [Session.require, hjob] at hcurrent
    rw [on_bind_error hcurrent]
    exact hs

theorem keepsValid_replace {job : Job} (h : job.IsValid) : KeepsValid (replace job) := by
  intro s _ other hother
  rw [← Option.some.inj hother]
  exact h

/-! ### The operations one by one -/

theorem atomic_openImage (path : String) (now : Instant) : Atomic (openImage path now) := by
  refine (readsOnly_check _).bind fun _ => ?_
  exact (atomic_replace _).bind fun _ => succeeds_pure _

theorem keepsValid_openImage (path : String) (now : Instant) : KeepsValid (openImage path now) := by
  refine keepsValid_check_bind fun _ hpath => ?_
  have hnew : (Job.new path Mode.initial now).IsValid :=
    ⟨hpath, by simp [Job.new], by simp [Job.new], rfl⟩
  exact (keepsValid_replace hnew).bind fun _ => keepsValid_pure _

theorem atomic_addRegion (region : Region) : Atomic (addRegion region) := by
  refine (readsOnly_check _).bind fun _ => readsOnly_current.bind fun job => ?_
  exact (atomic_replace _).bind fun _ => succeeds_pure _

theorem keepsValid_addRegion (region : Region) : KeepsValid (addRegion region) := by
  refine keepsValid_check_bind fun _ hregion => keepsValid_current_bind fun job hjob => ?_
  have hregions : ∀ r ∈ job.regions ++ [region], r.width ≠ 0 ∧ r.height ≠ 0 := by
    intro r hr
    rcases List.mem_append.mp hr with hold | hnew
    · exact hjob.regions r hold
    · rw [List.mem_singleton.mp hnew]
      exact (Region.checkArea_eq_ok_iff _ _).mp hregion
  have hadded : Job.IsValid { job with regions := job.regions ++ [region] } :=
    { hjob with regions := hregions }
  exact (keepsValid_replace hadded).bind fun _ => keepsValid_pure _

theorem atomic_updateRegion (index : Nat) (region : Region) :
    Atomic (updateRegion index region) := by
  refine (readsOnly_check _).bind fun _ => readsOnly_current.bind fun job => ?_
  split_ifs
  · exact atomic_replace _
  · exact (readsOnly_check _).atomic

theorem keepsValid_updateRegion (index : Nat) (region : Region) :
    KeepsValid (updateRegion index region) := by
  refine keepsValid_check_bind fun _ hregion => keepsValid_current_bind fun job hjob => ?_
  split_ifs
  · refine keepsValid_replace { hjob with regions := fun r hr => ?_ }
    rcases List.mem_or_eq_of_mem_set hr with hold | rfl
    · exact hjob.regions r hold
    · exact (Region.checkArea_eq_ok_iff _ _).mp hregion
  · exact (readsOnly_check _).keepsValid

theorem atomic_removeRegion (index : Nat) : Atomic (removeRegion index) := by
  refine readsOnly_current.bind fun job => ?_
  cases job.regions[index]? with
  | some region => exact (atomic_replace _).bind fun _ => succeeds_pure _
  | none => exact (readsOnly_check _).atomic

theorem keepsValid_removeRegion (index : Nat) : KeepsValid (removeRegion index) := by
  refine keepsValid_current_bind fun job hjob => ?_
  have hrest : Job.IsValid { job with regions := job.regions.eraseIdx index } :=
    { hjob with regions := fun r hr => hjob.regions r (List.mem_of_mem_eraseIdx hr) }
  cases job.regions[index]? with
  | some region =>
    exact (keepsValid_replace hrest).bind fun _ => keepsValid_pure _
  | none => exact (readsOnly_check _).keepsValid

theorem atomic_setMode (mode : Mode) : Atomic (setMode mode) :=
  (readsOnly_check _).bind fun _ => readsOnly_current.bind fun _ => atomic_replace _

theorem keepsValid_setMode (mode : Mode) : KeepsValid (setMode mode) := by
  refine keepsValid_check_bind fun _ hmode => keepsValid_current_bind fun job hjob => ?_
  exact keepsValid_replace { hjob with mode := hmode }

theorem atomic_setOutput (output : Option String) : Atomic (setOutput output) := by
  have hreplace : Atomic (do let job ← current; replace { job with output }) :=
    readsOnly_current.bind fun _ => atomic_replace _
  cases output with
  | some path => exact (readsOnly_check _).bind fun _ => hreplace
  | none => exact hreplace

theorem keepsValid_setOutput (output : Option String) : KeepsValid (setOutput output) := by
  have hreplace (houtput : ∀ path, output = some path → Check.path "output_path" path = .ok ()) :
      KeepsValid (do let job ← current; replace { job with output }) :=
    keepsValid_current_bind fun job hjob => keepsValid_replace { hjob with output := houtput }
  cases output with
  | some path =>
    refine keepsValid_check_bind fun _ hpath => hreplace fun other hother => ?_
    rw [← Option.some.inj hother]
    exact hpath
  | none => exact hreplace (by simp)

theorem readsOnly_save (path : String) (tree : FileTree) : ReadsOnly (save path tree) := by
  refine readsOnly_current.bind_readsOnly fun job => ?_
  exact (readsOnly_check _).bind_readsOnly fun _ => readsOnly_check _

theorem atomic_load (path : String) (tree : FileTree) : Atomic (load path tree) := by
  refine (readsOnly_check _).bind fun text => (readsOnly_check _).bind fun job => ?_
  exact (atomic_replace _).bind fun _ => succeeds_pure _

theorem keepsValid_load (path : String) (tree : FileTree) : KeepsValid (load path tree) := by
  refine keepsValid_check_bind fun text _ => keepsValid_check_bind fun job hdecode => ?_
  exact (keepsValid_replace (Job.isValid_of_decode hdecode)).bind fun _ => keepsValid_pure _

theorem succeeds_discard : Succeeds discard := fun s => ⟨s.job, rfl⟩

theorem keepsValid_discard : KeepsValid discard := fun _ _ _ hjob => nomatch hjob

/-- A valid open job is saved unless its file cannot be written. -/
theorem on_save {s : Session} {job : Job} (hjob : s.job = some job) (hs : s.IsValid)
    (path : String) (tree : FileTree) :
    (save path tree).on s = (tree.write path job.encode.toUTF8, s) := by
  have hcurrent : current.on s = (.ok job, s) := by rw [on_current, Session.require, hjob]
  have hvalid : (check job.validate).on s = (.ok (), s) := by
    rw [on_check, (Job.validate_eq_ok_iff job).mpr (hs job hjob)]
  rw [save, on_bind_ok hcurrent, on_bind_ok hvalid, on_check]

end Editing

namespace Session

open Editing

/-- The operations of a session with their arguments. An operation on files has any files there. -/
inductive Edit where
  | openImage (path : String) (now : Instant)
  | addRegion (region : Region)
  | updateRegion (index : Nat) (region : Region)
  | removeRegion (index : Nat)
  | setMode (mode : Mode)
  | setOutput (output : Option String)
  | save (path : String) (tree : FileTree)
  | load (path : String) (tree : FileTree)
  | discard

/-- The answer to an operation. -/
def Edit.Answer : Edit → Type
  | openImage .. | load .. => Job
  | addRegion .. => Nat
  | updateRegion .. | setMode .. | setOutput .. => Unit
  | removeRegion .. => Region
  | save .. => FileTree
  | discard => Option Job

/-- What an operation does. -/
def Edit.operation : (edit : Edit) → Editing edit.Answer
  | openImage path now => Editing.openImage path now
  | addRegion region => Editing.addRegion region
  | updateRegion index region => Editing.updateRegion index region
  | removeRegion index => Editing.removeRegion index
  | setMode mode => Editing.setMode mode
  | setOutput output => Editing.setOutput output
  | save path tree => Editing.save path tree
  | load path tree => Editing.load path tree
  | discard => Editing.discard

/-- The session after a run of operations, failed ones among them. -/
def after (s : Session) (edits : List Edit) : Session :=
  edits.foldl (fun s edit => (edit.operation.on s).2) s

theorem atomic_operation (edit : Edit) : Atomic edit.operation := by
  cases edit with
  | openImage path now => exact atomic_openImage path now
  | addRegion region => exact atomic_addRegion region
  | updateRegion index region => exact atomic_updateRegion index region
  | removeRegion index => exact atomic_removeRegion index
  | setMode mode => exact atomic_setMode mode
  | setOutput output => exact atomic_setOutput output
  | save path tree => exact (readsOnly_save path tree).atomic
  | load path tree => exact atomic_load path tree
  | discard => exact succeeds_discard.atomic

theorem keepsValid_operation (edit : Edit) : KeepsValid edit.operation := by
  cases edit with
  | openImage path now => exact keepsValid_openImage path now
  | addRegion region => exact keepsValid_addRegion region
  | updateRegion index region => exact keepsValid_updateRegion index region
  | removeRegion index => exact keepsValid_removeRegion index
  | setMode mode => exact keepsValid_setMode mode
  | setOutput output => exact keepsValid_setOutput output
  | save path tree => exact (readsOnly_save path tree).keepsValid
  | load path tree => exact keepsValid_load path tree
  | discard => exact keepsValid_discard

/-- The job of a session is valid after any run of operations. -/
theorem isValid_after {s : Session} (hs : s.IsValid) (edits : List Edit) :
    (s.after edits).IsValid := by
  induction edits generalizing s with
  | nil => exact hs
  | cons edit edits ih => exact ih (keepsValid_operation edit s hs)

/-- After any run of operations on a new session, with any arguments and any files: the open job is
valid, an operation that fails leaves the session as it was, and saving an open job fails only
where its file cannot be written. -/
theorem editing_is_safe (edits : List Edit) :
    (∀ job, (new.after edits).job = some job → job.validate = .ok ()) ∧
      (∀ (edit : Edit) (fault : Fault),
        (edit.operation.on (new.after edits)).1 = .error fault →
          (edit.operation.on (new.after edits)).2 = new.after edits) ∧
      ∀ (path : String) (tree : FileTree) (fault : Fault), (new.after edits).isOpen →
        ((Editing.save path tree).on (new.after edits)).1 = .error fault →
          ∃ problem detail, fault = .file problem detail := by
  have hvalid : (new.after edits).IsValid := isValid_after (fun job hjob => by cases hjob) edits
  refine ⟨fun job hjob => ?_, fun edit fault hfault => ?_, fun path tree fault hopen hfault => ?_⟩
  · exact (Job.validate_eq_ok_iff job).mpr (hvalid job hjob)
  · exact atomic_operation edit _ fault hfault
  · obtain ⟨job, hjob⟩ := Option.isSome_iff_exists.mp hopen
    rw [on_save hjob hvalid] at hfault
    exact FileTree.write_eq_error hfault

/-- A run in which most operations fail: regions without an image or without an area, a blur of no
width, an empty output, a file that is not there. -/
def mishaps : List Edit :=
  [.addRegion ⟨0, 0, 4, 4⟩, .openImage "team.png" ⟨738000, 0, 0⟩, .addRegion ⟨2, 3, 10, 0⟩,
    .addRegion ⟨2, 3, 10, 8⟩, .setMode (.blur 0.0), .updateRegion 1 ⟨1, 1, 1, 1⟩,
    .load "missing.json" ⟨[], [], []⟩, .setMode (.blur 0.5), .setOutput (some "")]

theorem mishaps_are_survived :
    (∃ job, (new.after mishaps).job = some job ∧ job.regions = [⟨2, 3, 10, 8⟩] ∧
      job.validate = .ok ()) ∧
    ((Edit.removeRegion 7).operation.on (new.after mishaps)).2 = new.after mishaps ∧
    ∃ problem detail, ((Editing.save "" ⟨[], [], []⟩).on (new.after mishaps)).1 =
      .error (.file problem detail) := by
  obtain ⟨hvalid, hatomic, hsave⟩ := editing_is_safe mishaps
  have hremove : ((Edit.removeRegion 7).operation.on (new.after mishaps)).1 =
      .error (noRegion 7) := by rfl
  have hwrite : ((Editing.save "" ⟨[], [], []⟩).on (new.after mishaps)).1 =
      .error (FileTree.fault .notFound) := by rfl
  obtain ⟨problem, detail, hfault⟩ := hsave "" _ _ rfl hwrite
  refine ⟨⟨_, rfl, rfl, hvalid _ rfl⟩, hatomic _ _ hremove, problem, detail, ?_⟩
  rw [hwrite, hfault]

end Session

end Darkroom
