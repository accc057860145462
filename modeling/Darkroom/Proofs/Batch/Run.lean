import Darkroom.Batch.Run
import Darkroom.Proofs.Task
import Mathlib.Data.List.Basic
import Mathlib.Data.List.Induction
import Mathlib.Tactic.Common

/-!
# What a batch accounts for

A batch attempts its items one after the other, and no attempt depends on what became of those
before it, other than through the files that they left. So the attempt at a place in the list is the
attempt of that item by itself, on the files that the items before it leave
(`getElem?_attemptAll`). Every attempt is either a line of the output or a fault in the messages,
and the exit code is that of the gravest fault. Exit codes do not grow with the severity, so that
the code follows from the greatest rank (`Batch.exitCode_eq_iff`) and is no greatest code.

## Main definitions

* `filesLeft` : the files that a list of items leaves.
* `BatchItem.attempt` : the attempt of an item by itself.
* `Severity.IsGravest` : the severity of the gravest faults.
* `BatchRequest.GoesAhead` : a request whose batch is worked through.

## Main results

* `getElem?_attemptAll`, `snd_attemptAll` : the attempts of a list of items.
* `Batch.exitCode_eq_iff` : what an exit code says about the faults.
* `BatchRequest.accounts_for_every_item` : the outcome of a request whose batch is worked through.
-/

namespace Darkroom

/-! ### Attempts -/

section Library

variable [ImageLibrary]

/-- The files that items leave when they are attempted in order. -/
def filesLeft (config : BatchConfig) (items : List BatchItem) (tree : FileTree) : FileTree :=
  items.foldl (fun tree item => (item.perform config tree).2) tree

/-- The attempt of an item by itself. -/
def BatchItem.attempt (config : BatchConfig) (tree : FileTree) (item : BatchItem) : Attempt :=
  ⟨item.label, (item.perform config tree).1⟩

section Attempts

variable (config : BatchConfig)

theorem attemptAll_cons (item : BatchItem) (items : List BatchItem) (tree : FileTree) :
    attemptAll config (item :: items) tree =
      (item.attempt config tree :: (attemptAll config items (item.perform config tree).2).1,
        (attemptAll config items (item.perform config tree).2).2) :=
  rfl

theorem snd_attemptAll (items : List BatchItem) (tree : FileTree) :
    (attemptAll config items tree).2 = filesLeft config items tree := by
  induction items generalizing tree with
  | nil => rfl
  | cons item items ih => exact ih _

theorem length_attemptAll (items : List BatchItem) (tree : FileTree) :
    (attemptAll config items tree).1.length = items.length := by
  induction items generalizing tree with
  | nil => rfl
  | cons item items ih => rw [attemptAll_cons, List.length_cons, List.length_cons, ih]

/-- An attempt is that of the item by itself, on the files that the items before it have left. -/
theorem getElem?_attemptAll (items : List BatchItem) (tree : FileTree) (i : Nat) :
    (attemptAll config items tree).1[i]? =
      items[i]?.map (BatchItem.attempt config (filesLeft config (items.take i) tree)) := by
  induction items generalizing tree i with
  | nil => rfl
  | cons item items ih =>
    rw [attemptAll_cons]
    cases i with
    | zero => rfl
    | succ i => exact ih _ i

end Attempts

end Library

/-- The jobs of a batch are those of its entries, in order. -/
theorem BatchConfig.resolveJobs_eq_ok {defaults : Option RedactionDefaults} {tree : FileTree}
    {now : Instant} {index : Nat} {entries : List JobEntry} {jobs : List Job}
    (h : resolveJobs defaults tree now index entries = .ok jobs) :
    jobs.length = entries.length ∧ ∀ (i : Nat) (entry : JobEntry), entries[i]? = some entry →
      ∃ job, jobs[i]? = some job ∧ entry.resolve defaults tree now (index + i) = .ok job := by
  induction entries generalizing index jobs with
  | nil =>
    obtain rfl : [] = jobs := Except.ok.inj h
    exact ⟨rfl, fun i entry hentry => by simp at hentry⟩
  | cons first entries ih =>
    rw [resolveJobs, bind_eq_ok_iff] at h
    obtain ⟨job, hjob, h⟩ := h
    obtain ⟨rest, hrest, h⟩ := bind_eq_ok_iff.mp h
    obtain rfl : job :: rest = jobs := Except.ok.inj h
    obtain ⟨hlength, hresolve⟩ := ih hrest
    refine ⟨by rw [List.length_cons, List.length_cons, hlength], fun i entry hentry => ?_⟩
    cases i with
    | zero =>
      obtain rfl : first = entry := by simpa using hentry
      exact ⟨job, rfl, hjob⟩
    | succ i =>
      obtain ⟨found, hfound, hresolved⟩ := hresolve i entry (by simpa using hentry)
      exact ⟨found, by simpa using hfound, by rwa [Nat.add_right_comm] at hresolved⟩

/-! ### Exit codes -/

/-- Whether a severity is that of the gravest of some faults. -/
structure Severity.IsGravest (severity : Severity) (faults : List Fault) : Prop where
  found : ∃ fault ∈ faults, fault.severity = severity
  greatest : ∀ fault ∈ faults, fault.severity.rank ≤ severity.rank

theorem Severity.rank_injective : Function.Injective Severity.rank := by
  intro a b h
  cases a <;> cases b <;> first | rfl | cases h

theorem Severity.IsGravest.unique {a b : Severity} {faults : List Fault} (ha : a.IsGravest faults)
    (hb : b.IsGravest faults) : a = b := by
  obtain ⟨fault, hmem, rfl⟩ := ha.found
  obtain ⟨other, hother, rfl⟩ := hb.found
  exact rank_injective (Nat.le_antisymm (hb.greatest fault hmem) (ha.greatest other hother))

/-- Nothing is graver than critical. -/
theorem Severity.isGravest_critical_iff (faults : List Fault) :
    Severity.critical.IsGravest faults ↔ ∃ fault ∈ faults, fault.severity = .critical := by
  refine ⟨fun h => h.found, fun h => ⟨h, fun fault _ => ?_⟩⟩
  cases fault.severity <;> decide

namespace Batch

theorem rank_graver (a b : Severity) :
    a.rank ≤ (graver a b).rank ∧ b.rank ≤ (graver a b).rank ∧
      (graver a b = a ∨ graver a b = b) := by
  rw [graver]
  split_ifs with h
  · exact ⟨h, Nat.le_refl _, .inr rfl⟩
  · exact ⟨Nat.le_refl _, Nat.le_of_not_le h, .inl rfl⟩

theorem foldl_graver_isGravest (first : Fault) (faults : List Fault) :
    (faults.foldl (fun s f => graver s f.severity) first.severity).IsGravest (first :: faults) := by
  induction faults using List.reverseRecOn with
  | nil => exact ⟨⟨first, List.mem_cons_self, rfl⟩, by simp⟩
  | append_singleton faults last ih =>
    obtain ⟨⟨gravest, hmem, hgravest⟩, hgreatest⟩ := ih
    rw [List.foldl_append, List.foldl_cons, List.foldl_nil, ← List.cons_append]
    obtain ⟨hbefore, hlast, hone⟩ :=
      rank_graver (faults.foldl (fun s f => graver s f.severity) first.severity) last.severity
    constructor
    · rcases hone with hone | hone
      · exact ⟨gravest, List.mem_append_left _ hmem, by rw [hone, hgravest]⟩
      · exact ⟨last, List.mem_append_right _ List.mem_cons_self, hone.symm⟩
    · intro fault hfault
      rcases List.mem_append.mp hfault with hfault | hfault
      · exact Nat.le_trans (hgreatest fault hfault) hbefore
      · rwa [List.mem_singleton.mp hfault]

/-- The exit code of a batch with faults is that of the gravest of them. -/
theorem exists_isGravest {faults : List Fault} (h : faults ≠ []) :
    ∃ severity : Severity, severity.IsGravest faults ∧ exitCode faults = severity.exitCode := by
  cases faults with
  | nil => exact absurd rfl h
  | cons first faults => exact ⟨_, foldl_graver_isGravest first faults, rfl⟩

/-- What an exit code says about the faults of a batch. -/
theorem exitCode_eq_iff (faults : List Fault) :
    (exitCode faults = 0 ↔ faults = []) ∧
      (exitCode faults = 1 ↔ Severity.low.IsGravest faults ∨ Severity.high.IsGravest faults) ∧
      (exitCode faults = 2 ↔ Severity.medium.IsGravest faults) ∧
      (exitCode faults = 3 ↔ Severity.critical.IsGravest faults) := by
  by_cases hempty : faults = []
  · subst hempty
    have hnone : ∀ severity : Severity, ¬ severity.IsGravest [] := fun severity h => by
      obtain ⟨fault, hmem, -⟩ := h.found
      exact List.not_mem_nil hmem
    simp [hnone, exitCode]
  · obtain ⟨gravest, hgravest, hcode⟩ := exists_isGravest hempty
    have honly : ∀ severity : Severity, severity.IsGravest faults ↔ severity = gravest :=
      fun severity => ⟨fun h => h.unique hgravest, fun h => h ▸ hgravest⟩
    simp only [hempty, honly, hcode, iff_false]
    cases gravest <;> decide

/-! ### Reports -/

/-- Every attempt is a line of the output or a fault in the messages. -/
theorem length_successes_add_failures (attempts : List Attempt) :
    (attempts.filterMap successLine?).length + (attempts.filterMap failure?).length =
      attempts.length := by
  induction attempts with
  | nil => rfl
  | cons attempt attempts ih =>
    obtain ⟨label, result⟩ := attempt
    cases result with
    | ok path =>
      simp only [List.filterMap_cons, successLine?, failure?, List.length_cons]
      omega
    | error fault =>
      simp only [List.filterMap_cons, successLine?, failure?, List.length_cons]
      omega

end Batch

/-! ### Requests -/

namespace BatchRequest

/-- A request whose batch is worked through: it can be loaded, the checks accept it, its jobs are
known, and it is not only looked at. -/
structure GoesAhead (request : BatchRequest) (env : Text.Environment) (now : Instant)
    (tree : FileTree) (config : BatchConfig) (jobs : List Job) : Prop where
  loads : request.load env tree = .ok config
  accepted : config.validate = .ok ()
  resolves : config.resolve tree now = .ok jobs
  real : request.dryRun = false

variable {request : BatchRequest} {env : Text.Environment} {now : Instant} {tree : FileTree}
  {config : BatchConfig} {jobs : List Job}

theorem GoesAhead.run_eq [ImageLibrary] (h : request.GoesAhead env now tree config jobs) :
    request.run env now tree = Batch.run config jobs tree := by
  simp only [run, h.loads, h.accepted, h.resolves, h.real, Bool.false_eq_true, if_false]

/-- **A batch accounts for every item.** The jobs are those of the entries, in order. Every job and
then every graph is attempted once, by itself on the files that those before it leave, whatever
became of them. The output has one line for each success, and then their number; the messages are
those of the faults of all other items. The exit code is zero where nothing failed, three where some
fault is critical, two where the gravest fault is of medium severity, and one otherwise. -/
theorem accounts_for_every_item [ImageLibrary] (h : request.GoesAhead env now tree config jobs) :
    let items := Batch.items config jobs
    let outcome := request.run env now tree
    (jobs.length = config.jobs.length ∧ ∀ (i : Nat) (entry : JobEntry),
      config.jobs[i]? = some entry →
        ∃ job, jobs[i]? = some job ∧ entry.resolve config.defaults tree now i = .ok job) ∧
    outcome.tree = filesLeft config items tree ∧
    ∃ attempts : List Attempt,
      attempts.length = config.jobs.length + config.graphs.length ∧
      (∀ (i : Nat) (item : BatchItem), items[i]? = some item →
        attempts[i]? = some (item.attempt config (filesLeft config (items.take i) tree))) ∧
      let successes := attempts.filterMap Batch.successLine?
      let failures := attempts.filterMap Batch.failure?
      let faults := failures.map Prod.snd
      successes.length + failures.length = config.jobs.length + config.graphs.length ∧
      outcome.output = Batch.summary config jobs false ++ successes ++
        [s!"📁 {successes.length} output(s) written to {config.outputPath}"] ∧
      outcome.messages = failures.flatMap Batch.itemLines ∧
      (outcome.exitCode = 0 ↔ failures = []) ∧
      (outcome.exitCode = 3 ↔ ∃ fault ∈ faults, fault.severity = .critical) ∧
      (outcome.exitCode = 2 ↔ Severity.medium.IsGravest faults) ∧
      (outcome.exitCode = 1 ↔
        Severity.low.IsGravest faults ∨ Severity.high.IsGravest faults) := by
  intro items outcome
  have houtcome : outcome = Batch.run config jobs tree := h.run_eq
  obtain ⟨hjobs, hresolve⟩ := BatchConfig.resolveJobs_eq_ok h.resolves
  have hlength : (attemptAll config items tree).1.length =
      config.jobs.length + config.graphs.length := by
    rw [length_attemptAll, ← hjobs]
    simp only [items, Batch.items, List.length_append, List.length_map]
  obtain ⟨hzero, hone, htwo, hthree⟩ := Batch.exitCode_eq_iff
    (((attemptAll config items tree).1.filterMap Batch.failure?).map Prod.snd)
  rw [List.map_eq_nil_iff] at hzero
  rw [Severity.isGravest_critical_iff] at hthree
  refine ⟨⟨hjobs, fun i entry hentry => ?_⟩, ?_, (attemptAll config items tree).1, hlength,
    fun i item hitem => ?_, ?_, ?_, ?_, ?_⟩
  · simpa only [Nat.zero_add] using hresolve i entry hentry
  · rw [houtcome]
    exact snd_attemptAll config items tree
  · rw [getElem?_attemptAll, hitem, Option.map_some]
  · rw [Batch.length_successes_add_failures, hlength]
  · rw [houtcome]
    rfl
  · rw [houtcome]
    rfl
  · rw [houtcome]
    exact ⟨hzero, hthree, htwo, hone⟩

/-! ### A batch with a missing image -/

/-- A batch file in which the image of the first job is not there. -/
def lateCardText : String :=
  "batch.name='late'\noutput.path='out'\n[[jobs]]\nsource='gone.bmp'\n[[jobs]]\nsource='card.bmp'"

/-- The batch file beside the image of the second job. -/
def lateCardTree : FileTree :=
  ⟨[], [(["late.toml"], lateCardText.toUTF8), (["card.bmp"], Task.cardFile)], []⟩

/-- The contents of the batch file. -/
def lateCardConfig : BatchConfig where
  name := "late"
  description := none
  version := none
  outputPath := "out"
  format := none
  defaults := none
  jobs := [⟨none, some "gone.bmp", [], none, none, none, none, none⟩,
    ⟨none, some "card.bmp", [], none, none, none, none, none⟩]
  graphs := []
  monitoring := none

/-- The request for the batch. -/
def lateCard : BatchRequest := ⟨"late.toml", false, none, false, false⟩

/-- The job of an entry with an image alone. -/
def plainJob (source : String) : Job := .new source .initial ⟨738000, 0, 0⟩

theorem lateCard_goesAhead :
    lateCard.GoesAhead (fun _ => none) ⟨738000, 0, 0⟩ lateCardTree lateCardConfig
      [plainJob "gone.bmp", plainJob "card.bmp"] where
  loads := by decide +kernel
  accepted := by rfl
  resolves := by rfl
  real := rfl

/-- The second job is done although the first fails, on the files as they were before: there is one
output, and the exit code is that of the missing file. -/
theorem lateCard_accounted_for :
    let jobs := [plainJob "gone.bmp", plainJob "card.bmp"]
    let outcome := lateCard.run (fun _ => none) ⟨738000, 0, 0⟩ lateCardTree
    lateCard.GoesAhead (fun _ => none) ⟨738000, 0, 0⟩ lateCardTree lateCardConfig jobs ∧
    outcome.output = Batch.summary lateCardConfig jobs false ++
      ["✅ card.bmp -> out/redacted_card.bmp", "📁 1 output(s) written to out"] ∧
    outcome.exitCode = 3 := by
  intro jobs outcome
  obtain ⟨-, -, attempts, hlength, hattempts, -, houtput, -, -, hthree, -⟩ :=
    accounts_for_every_item lateCard_goesAhead
  have hgone : (BatchItem.redaction (plainJob "gone.bmp")).perform lateCardConfig lateCardTree =
      (.error (FileTree.fault .notFound), lateCardTree) := by rfl
  have hcard : ((BatchItem.redaction (plainJob "card.bmp")).perform lateCardConfig
      lateCardTree).1 = .ok "out/redacted_card.bmp" := by decide +kernel
  obtain ⟨first, second, rfl⟩ := List.length_eq_two.mp hlength
  have hfirst := Option.some.inj (hattempts 0 _ rfl)
  have hsecond := Option.some.inj (hattempts 1 _ rfl)
  have hleft : filesLeft lateCardConfig [.redaction (plainJob "gone.bmp")] lateCardTree =
      lateCardTree := congrArg Prod.snd hgone
  obtain rfl : first = ⟨"gone.bmp", .error (FileTree.fault .notFound)⟩ := by
    rw [hfirst]
    exact congrArg (fun run => Attempt.mk "gone.bmp" run.1) hgone
  obtain rfl : second = ⟨"card.bmp", .ok "out/redacted_card.bmp"⟩ := by
    rw [hsecond]
    exact (congrArg (fun tree => BatchItem.attempt lateCardConfig tree
      (.redaction (plainJob "card.bmp"))) hleft).trans (congrArg (Attempt.mk "card.bmp") hcard)
  refine ⟨lateCard_goesAhead, houtput, hthree.mpr ?_⟩
  exact ⟨FileTree.fault .notFound, List.mem_cons_self, rfl⟩

end BatchRequest

end Darkroom
