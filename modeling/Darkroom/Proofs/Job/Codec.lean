import Darkroom.Job.Codec
import Darkroom.Proofs.Json.Reader

/-!
# Job files are read back

The text of a job holds that job again. Its regions, colours and block sizes are whole numbers that
are within their bounds because of their types. The width of a blur is asked to survive being
written as a number and read again, and the instant of the job being written as a date and read
again.

A mode is read in two steps: its members are collected with values of any kind, and the parameter
is looked up among them once the kind is known.

## Main results

* `Mode.reads_document` : the three modes.
* `Job.parse_encode` : a job file is read back as what was written, valid or not.
* `Job.decode_encode_of_valid` : and a valid job is not refused.
-/

namespace Darkroom

open Json (Reads Collects RereadsSingle)

/-! ### Regions -/

theorem Region.reads_document (r : Region) : Reads readRegion 1 r.document r := by
  have hcoordinate (n : UInt32) : Reads (Json.readNat UInt32.size) 0 (.nat n.toNat) n.toNat :=
    Json.reads_nat n.toNat_lt (by decide)
  refine Json.reads_record ⟨some r.x.toNat, some r.y.toNat, some r.width.toNat,
    some r.height.toNat⟩ (fun depth hdepth => ?_) ?_
  · refine .store (hcoordinate r.x) hdepth ?_
    refine .store (hcoordinate r.y) hdepth ?_
    refine .store (hcoordinate r.width) hdepth ?_
    refine .store (hcoordinate r.height) hdepth ?_
    exact .nil _
  · simp [RegionDraft.finish]

/-! ### Modes -/

theorem ModeKind.ofName?_name (kind : ModeKind) : ofName? kind.name = some kind := by
  cases kind <;> rfl

theorem ModeKind.parameter_ne_kind (kind : ModeKind) : kind.parameter ≠ "kind" := by
  cases kind <;> decide

theorem reads_modeKind (kind : ModeKind) : Reads readModeKind 0 (.text kind.name) kind := by
  intro depth hdepth level s rest hrest hs
  rw [readModeKind, Json.reads_text kind.name depth hdepth level s rest hrest hs, ok_bind]
  dsimp only
  rw [ModeKind.ofName?_name]

/-- The members of a stored mode are its kind and the value of its parameter. -/
theorem collects_mode (kind : ModeKind) {levels depth : Nat} {d : Json.Document}
    {value : Json.Value} (h : Reads Json.readValue levels d value) (hdepth : levels < depth) :
    Collects (readModeMember depth) (none, []) [("kind", .text kind.name), (kind.parameter, d)]
      (some kind, [(kind.parameter, value)]) := by
  have hzero : 0 < depth := Nat.zero_lt_of_lt hdepth
  have hkind : Collects (readModeMember depth) (some kind, []) [(kind.parameter, d)]
      (some kind, [(kind.parameter, value)]) := by
    refine .cons (fun level rest hrest => ?_) (.nil _)
    rw [readModeMember, if_neg kind.parameter_ne_kind, Json.readColon_blank, ok_bind,
      h.after_colon hdepth level hrest]
    rfl
  refine .cons (fun level rest hrest => ?_) hkind
  rw [readModeMember, if_pos rfl]
  dsimp only [Option.isSome_none]
  rw [if_neg Bool.false_ne_true, Json.readColon_blank, ok_bind,
    (reads_modeKind kind).after_colon hzero level hrest]
  rfl

theorem reads_mode (kind : ModeKind) {levels : Nat} {mode : Mode} {d : Json.Document}
    {value : Json.Value} (h : Reads Json.readValue levels d value)
    (hmode : modeOf? kind value = some mode) :
    Reads readMode (levels + 1) (.record [("kind", .text kind.name), (kind.parameter, d)])
      mode := by
  intro depth hdepth level s rest _ hs
  have hinner : levels < depth - 1 := by omega
  have hmembers := (collects_mode kind h hinner).readMembers_recordBody level rest
  have hcomplete : modeOfMembers? (some kind) [(kind.parameter, value)] = some mode := by
    simp [modeOfMembers?, hmode]
  rw [readMode, hs, Json.Document.skipSpace_write_record]
  dsimp only
  rw [if_pos rfl, Json.enter_of_lt hdepth, ok_bind, hmembers, ok_bind]
  dsimp only
  rw [hcomplete]

/-- A whole number where values of any kind are read. -/
theorem reads_value_nat {n : Nat} (h : n < UInt64.size) :
    Reads Json.readValue 0 (.nat n) (.number (.natural n)) :=
  Json.reads_value_number (Json.readAnyNumber_toString h _)

theorem channelOf?_natural (b : UInt8) : channelOf? (.number (.natural b.toNat)) = some b := by
  have hb : b.toNat < 256 := b.toNat_lt
  simp [channelOf?, Json.Number.below?, hb]

theorem Mode.reads_document {mode : Mode} (h : ∀ sigma, mode = .blur sigma → RereadsSingle sigma) :
    Reads readMode 2 mode.document mode := by
  cases mode with
  | fill c =>
    have hchannel (b : UInt8) : (Json.Document.nat b.toNat).IsItem ∧
        Reads Json.readValue 0 (.nat b.toNat) (.number (.natural b.toNat)) := by
      have hb : b.toNat < 256 := b.toNat_lt
      exact ⟨Json.Document.isItem_natural _, reads_value_nat (Nat.lt_trans hb (by decide))⟩
    have hcolor := Json.reads_value_list (.cons (hchannel c.r) (.cons (hchannel c.g)
      (.cons (hchannel c.b) (.cons (hchannel c.a) .nil))))
    refine reads_mode .fill hcolor ?_
    simp [modeOf?, channelOf?_natural]
  | pixelate blockSize =>
    have hbound : blockSize.toNat < UInt32.size := blockSize.toNat_lt
    have hsize := reads_value_nat (Nat.lt_trans hbound (by decide))
    refine reads_mode .pixelate (hsize.mono (Nat.zero_le 1)) ?_
    simp [modeOf?, Json.Number.below?, hbound]
  | blur sigma =>
    obtain ⟨number, hread, hsigma⟩ := h sigma rfl
    have hwidth := Json.reads_value_number hread
    refine reads_mode .blur (hwidth.mono (Nat.zero_le 1)) ?_
    rw [modeOf?, hsigma]

/-! ### Jobs -/

theorem reads_instant {t : Instant} (h : Instant.read? t.text = some t) :
    Reads readInstant 0 (.text t.text) t := by
  intro depth hdepth level s rest hrest hs
  rw [readInstant, Json.reads_text t.text depth hdepth level s rest hrest hs, ok_bind]
  dsimp only
  rw [h]

namespace Job

variable {job : Job}

theorem reads_document (hmode : Reads readMode 2 job.mode.document job.mode)
    (hcreated : Reads readInstant 0 (.text job.created.text) job.created) :
    Reads readJob 3 job.document job := by
  have hregions : Reads (Json.readList readRegion) 2
      (.list (job.regions.map Region.document)) job.regions :=
    Json.reads_list_map (fun _ => Json.Document.isItem_record _) fun r _ => r.reads_document
  refine Json.reads_record ⟨some job.source, some job.regions, some job.mode,
    job.output.map some, some job.created⟩ (fun depth hdepth => ?_) ?_
  · have hscalar : 0 < depth := by omega
    have hnested : 2 < depth := by omega
    refine .store (Json.reads_text job.source) hscalar ?_
    refine .store hregions hnested ?_
    refine .store hmode hnested ?_
    -- an output that is not given is not written, and its place in the draft stays empty
    cases job.output with
    | none => exact .store hcreated hscalar (.nil _)
    | some path =>
      have hpath := Json.reads_optional_some (Json.reads_text path) rfl rfl (by decide)
      refine .store hpath hscalar ?_
      exact .store hcreated hscalar (.nil _)
  · have houtput : (job.output.map some).getD none = job.output := by
      cases job.output <;> rfl
    simp [JobDraft.finish, houtput]

/-- A job file is read back as the job that was written, whether or not that job is valid. -/
theorem parse_encode (job : Job) (hsigma : ∀ sigma, job.mode = .blur sigma → RereadsSingle sigma)
    (hcreated : Instant.read? job.created.text = some job.created) :
    Job.parse job.encode = .ok job := by
  have hdocument := reads_document (Mode.reads_document hsigma) (reads_instant hcreated)
  have hread : Json.readWhole readJob job.encode = .ok job :=
    Json.readWhole_print hdocument (by decide)
  rw [Job.parse, hread]
  rfl

/-- **A valid job's file is read back as that job.** -/
theorem decode_encode_of_valid (job : Job) (hvalid : job.validate = .ok ())
    (hsigma : ∀ sigma, job.mode = .blur sigma → RereadsSingle sigma)
    (hcreated : Instant.read? job.created.text = some job.created) :
    Job.decode job.encode = .ok job := by
  rw [Job.decode, parse_encode job hsigma hcreated, ok_bind, hvalid]
  rfl

/-- A job whose paths have to be escaped, with regions at the bounds of their coordinates and a
width of blur that no binary number equals. -/
def oddPaths : Job where
  source := "scans/\"caf\u00e9\"\\😀\n\x01.png"
  regions := [⟨0, 4294967295, 1, 4294967295⟩, ⟨12, 7, 30, 1⟩]
  mode := .blur 0.1
  output := some "out/\u2028\t.jpg"
  created := ⟨738000, 86399, 123456789⟩

theorem oddPaths_read_back :
    oddPaths.validate = .ok () ∧ Instant.read? oddPaths.created.text = some oddPaths.created ∧
      RereadsSingle 0.1 ∧ Job.decode oddPaths.encode = .ok oddPaths := by
  have hvalid : oddPaths.validate = .ok () := by rfl
  have hcreated : Instant.read? oddPaths.created.text = some oddPaths.created := by rfl
  have hwidth : RereadsSingle 0.1 := ⟨_, rfl, rfl⟩
  have hsigma : ∀ sigma, oddPaths.mode = .blur sigma → RereadsSingle sigma := by
    intro sigma hmode
    rwa [← Mode.blur.inj hmode]
  exact ⟨hvalid, hcreated, hwidth, decode_encode_of_valid oddPaths hvalid hsigma hcreated⟩

end Job

end Darkroom
