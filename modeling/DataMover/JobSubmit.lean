import DataMover.JobApi
import DataMover.MakeTask

/-!
# Submitting a job

`dml::submit` (`c_api/include/impl.hpp`): the range check of `range_check.hpp`, the task of
the job, its validation and its submission on the path of the job.

A job that moves memory and promises that its buffers do not overlap
(`DML_FLAG_COPY_ONLY`) loses the promise on the way: the flag is cleared in the user's own
structure, through a setter for 16 of its 64 flag bits that also clears the rest.

The hardware device is a parameter: it gets the descriptor and the NUMA id and answers with
a submission status.

## Main definitions

* `ApiStatus` — the answers of the C API.
* `UserJob.rangeCheck` — what is checked before a task is made.
* `UserJob.submitted` — the job as a submission leaves it.
* `UserJob.submit` — the submission.

## Main results

* `submitted_eq_self_iff` — when the flags stay as they are.
* `submit_keeps_job_iff` — when a submission leaves the job alone.
-/

namespace DataMover

open ByteMemory

/-- The values of `dml_status_t` that setting up and submitting a job can answer with. -/
inductive ApiStatus
  | own (status : JobStatus)
  | nullPointerError | deltaRecordSizeError | deltaAlignError | batchTaskIndexOverflow
  | difStripAdjacentError | libaccelNotFound | workQueuesNotAvailable
  deriving DecidableEq, Repr

/-- `to_own_status` of a validation status. -/
def ValidationStatus.toOwnStatus : ValidationStatus → ApiStatus
  | .success => .own .ok
  | .nullAddress => .nullPointerError
  | .nullSize => .own .jobLengthError
  | .wrongSize => .own .deltaInputSizeError
  | .overlapping => .own .overlappingBufferError
  | .misalignment => .deltaAlignError
  | .largeSize => .own .deltaInputSizeError
  | .wrongDeltaSize => .deltaRecordSizeError
  | .wrongDualcastAddress => .own .dualcastAlignError
  | .wrongBatchSize => .own .batchSizeError
  | .wrongDifSize => .own .jobLengthError
  | .difStripAdjacent => .difStripAdjacentError
  | .unsupportedOperation => .own .jobOperationError
  | .error => .own .internalError

/-- `to_own_status` of a submission status. -/
def SubmissionStatus.toOwnStatus : SubmissionStatus → ApiStatus
  | .success => .own .ok
  | .queueBusy => .workQueuesNotAvailable
  | .failure => .libaccelNotFound

/-! ### Range checks -/

/-- `DML_FLAG_COPY_ONLY`. -/
def copyOnlyFlag : BitVec 16 := 0x20#16

/-- `flags & DML_FLAG_COPY_ONLY`. -/
def copyOnly (flags : BitVec 16) : Bool := flags &&& copyOnlyFlag != 0#16

/-- The source runs into the destination. -/
def RunsInto (src dst : BitVec 64) (size : BitVec 32) : Prop :=
  src ≤ dst ∧ src + size.setWidth 64 > dst

instance (src dst : BitVec 64) (size : BitVec 32) : Decidable (RunsInto src dst size) :=
  inferInstanceAs (Decidable (_ ∧ _))

/-- `range_check_mem_move`: with the promise, the source must not run into the destination. -/
def rangeCheckMemMove (src dst : BitVec 64) (size : BitVec 32) (flags : BitVec 16) : ApiStatus :=
  if copyOnly flags then
    if RunsInto src dst size then .own .overlappingBufferError else .own .ok
  else .own .ok

/-- The range check answers with an overlap, or lets the move pass. -/
theorem rangeCheckMemMove_eq_overlapping {src dst : BitVec 64} {size : BitVec 32}
    {flags : BitVec 16} :
    rangeCheckMemMove src dst size flags = .own .overlappingBufferError
      ↔ copyOnly flags = true ∧ RunsInto src dst size := by
  unfold rangeCheckMemMove
  by_cases hcopy : copyOnly flags = true
  · by_cases hinto : RunsInto src dst size
    · simp [hcopy, hinto]
    · simp [hcopy, hinto]
  · simp [hcopy]

theorem rangeCheckMemMove_cases (src dst : BitVec 64) (size : BitVec 32) (flags : BitVec 16) :
    rangeCheckMemMove src dst size flags = .own .ok
      ∨ rangeCheckMemMove src dst size flags = .own .overlappingBufferError := by
  unfold rangeCheckMemMove
  split_ifs
  · exact Or.inr rfl
  · exact Or.inl rfl
  · exact Or.inl rfl

/-- `range_check_crc` and `range_check_copy_crc` look at the checksum pointer only. -/
def rangeCheckCrc (crcPtr : BitVec 64) : ApiStatus :=
  if crcPtr = 0#64 then .nullPointerError else .own .ok

theorem rangeCheckCrc_eq_nullPointer {crcPtr : BitVec 64} :
    rangeCheckCrc crcPtr = .nullPointerError ↔ crcPtr = 0#64 := by
  unfold rangeCheckCrc
  split_ifs with hnull
  · exact iff_of_true rfl hnull
  · exact iff_of_false (by simp) hnull

theorem rangeCheckCrc_cases (crcPtr : BitVec 64) :
    rangeCheckCrc crcPtr = .own .ok ∨ rangeCheckCrc crcPtr = .nullPointerError := by
  unfold rangeCheckCrc
  split_ifs
  · exact Or.inr rfl
  · exact Or.inl rfl

namespace UserJob

/-- `range_check`. -/
def rangeCheck (job : UserJob) : ApiStatus :=
  match job.op with
  | some .memMove =>
    rangeCheckMemMove job.sourceFirstPtr job.destinationFirstPtr job.sourceLength job.jobFlags
  | some .crc | some .copyCrc => rangeCheckCrc job.crcChecksumPtr
  | some _ => .own .ok
  | none => .own .jobOperationError

/-- `set_flags`: the mask `0x0000` keeps none of the old bits. -/
def setFlags (job : UserJob) (flags : BitVec 16) : UserJob :=
  { job with flags := (job.flags &&& 0x0000#64) ||| flags.setWidth 64 }

/-- The job once its range check has passed. -/
def submitted (job : UserJob) : UserJob :=
  if job.op = some .memMove ∧ copyOnly job.jobFlags = true then
    job.setFlags (job.jobFlags &&& ~~~copyOnlyFlag)
  else job

end UserJob

/-! ### Submission -/

section Submit

/-- `hardware_device::submit`: the descriptor at an address and the NUMA id. -/
abbrev HardwareDevice := Memory → ℕ → BitVec 32 → Memory × SubmissionStatus

variable (hardware : HardwareDevice)

/-- `execution_path_t::submit`; the automatic path falls back to the software. -/
def submitOn (path : ExecutionPath) (m : Memory) (dsc : ℕ) (numaId : BitVec 32) :
    Memory × SubmissionStatus :=
  match path with
  | .software => Software.submit m dsc
  | .hardware => hardware m dsc numaId
  | .automatic =>
    let (m, status) := hardware m dsc numaId
    if status = .success then (m, status) else Software.submit m dsc

/-- `dml::submit`, for a job whose task has its descriptor at `dsc` and its record at
`record`; the temporary task it is assigned from has its record at `scratch`. -/
def UserJob.submit (path : ExecutionPath) (dsc record scratch : ℕ) (m : Memory) (job : UserJob) :
    Memory × UserJob × ApiStatus :=
  let status := job.rangeCheck
  if status ≠ .own .ok then (m, job, status)
  else
    let job := job.submitted
    let m := assignTask m dsc record (job.taskDescriptor m scratch)
    -- every path validates in the same way
    let validationStatus := validate m dsc
    if validationStatus ≠ .success then (m, job, validationStatus.toOwnStatus)
    else
      let (m, submissionStatus) := submitOn hardware path m dsc job.numaId
      (m, job, submissionStatus.toOwnStatus)

end Submit

/-! ### The job afterwards -/

theorem copyOnly_eq_getLsbD (flags : BitVec 16) : copyOnly flags = flags.getLsbD 5 := by
  have htwo : copyOnlyFlag = BitVec.twoPow 16 5 := by decide
  rw [copyOnly, htwo, BitVec.and_twoPow]
  cases flags.getLsbD 5 <;> decide

theorem getLsbD_flags16 {flags : BitVec 64} {i : ℕ} (hi : i < 16) :
    (flags16 flags).getLsbD i = flags.getLsbD i := by
  have hmask : ∀ i < 16, (0xFFFF#64).getLsbD i = true := by decide
  rw [flags16, BitVec.getLsbD_setWidth, BitVec.getLsbD_and, hmask i hi]
  simp [hi]

theorem getLsbD_not_copyOnlyFlag {i : ℕ} (hi : i < 16) :
    (~~~copyOnlyFlag).getLsbD i = decide (i ≠ 5) := by
  have hsmall : ∀ i < 16, (~~~copyOnlyFlag).getLsbD i = decide (i ≠ 5) := by decide
  exact hsmall i hi

/-- Clearing the flag when it is clear. -/
theorem and_not_copyOnlyFlag {flags : BitVec 16} (h : copyOnly flags = false) :
    flags &&& ~~~copyOnlyFlag = flags := by
  rw [copyOnly_eq_getLsbD] at h
  apply BitVec.eq_of_getLsbD_eq
  intro i hi
  rw [BitVec.getLsbD_and, getLsbD_not_copyOnlyFlag hi]
  by_cases h5 : i = 5
  · rw [h5, h, Bool.false_and]
  · rw [decide_eq_true h5, Bool.and_true]

/-- The flags a move is submitted with. -/
theorem jobFlags_submitted {job : UserJob} (hop : job.op = some .memMove) :
    job.submitted.jobFlags = job.jobFlags &&& ~~~copyOnlyFlag := by
  unfold UserJob.submitted
  by_cases hcopy : copyOnly job.jobFlags = true
  · rw [if_pos ⟨hop, hcopy⟩]
    apply BitVec.eq_of_getLsbD_eq
    intro i hi
    rw [UserJob.jobFlags, getLsbD_flags16 hi, UserJob.setFlags]
    simp [hi, show i < 64 by omega]
  · rw [if_neg fun h => hcopy h.2, and_not_copyOnlyFlag (Bool.eq_false_iff.mpr hcopy)]

/-- The task of a move that is submitted. -/
theorem makeTask_submitted_memMove {job : UserJob} (hop : job.op = some .memMove) (m : Memory) :
    job.submitted.makeTask m = .memMove job.sourceFirstPtr job.destinationFirstPtr job.sourceLength
      (job.jobFlags &&& ~~~copyOnlyFlag) := by
  have hfields : job.submitted.op = some .memMove
      ∧ job.submitted.sourceFirstPtr = job.sourceFirstPtr
      ∧ job.submitted.destinationFirstPtr = job.destinationFirstPtr
      ∧ job.submitted.sourceLength = job.sourceLength := by
    unfold UserJob.submitted
    split_ifs
    · exact ⟨hop, rfl, rfl, rfl⟩
    · exact ⟨hop, rfl, rfl, rfl⟩
  simp only [UserJob.makeTask, hfields, jobFlags_submitted hop]

/-- Clearing the flag when it is set changes the flag word. -/
theorem setFlags_ne_self {job : UserJob} (h : copyOnly job.jobFlags = true) :
    job.setFlags (job.jobFlags &&& ~~~copyOnlyFlag) ≠ job := by
  intro hself
  have hcleared : (job.setFlags (job.jobFlags &&& ~~~copyOnlyFlag)).flags.getLsbD 5 = false := by
    simp [UserJob.setFlags, copyOnlyFlag]
  rw [hself] at hcleared
  rw [copyOnly_eq_getLsbD, UserJob.jobFlags, getLsbD_flags16 (by omega), hcleared] at h
  exact absurd h (by decide)

theorem submitted_eq_self_iff (job : UserJob) :
    job.submitted = job ↔ ¬(job.op = some .memMove ∧ copyOnly job.jobFlags = true) := by
  unfold UserJob.submitted
  by_cases h : job.op = some .memMove ∧ copyOnly job.jobFlags = true
  · rw [if_pos h]
    exact ⟨fun hself => absurd hself (setFlags_ne_self h.2), fun hnot => absurd h hnot⟩
  · rw [if_neg h]
    exact ⟨fun _ => h, fun _ => rfl⟩

/-- A job that is rejected by the range check is left alone, any other one is `submitted`. -/
theorem submit_job (hardware : HardwareDevice) (path : ExecutionPath) (dsc record scratch : ℕ)
    (m : Memory) (job : UserJob) :
    (job.submit hardware path dsc record scratch m).2.1
      = if job.rangeCheck = .own .ok then job.submitted else job := by
  unfold UserJob.submit
  simp only
  split_ifs <;> first | rfl | contradiction

theorem rangeCheck_copyOnly {job : UserJob} (hop : job.op = some .memMove)
    (hcopy : copyOnly job.jobFlags = true) :
    job.rangeCheck = .own .ok
      ↔ ¬RunsInto job.sourceFirstPtr job.destinationFirstPtr job.sourceLength := by
  simp only [UserJob.rangeCheck, hop, rangeCheckMemMove, hcopy, if_true]
  split_ifs with h
  · simp [h]
  · simp [h]

/-- What a caller who uses a job again relies on: a submission leaves the job alone, so that
a second one, at any later time and on any path, does what it would have done with the
original; and a move that promises not to overlap is rejected whenever its buffers have
been moved into each other. -/
structure SubmitKeepsJob (hardware : HardwareDevice) (path : ExecutionPath)
    (dsc record scratch : ℕ) (m : Memory) (job : UserJob) : Prop where
  job_eq : (job.submit hardware path dsc record scratch m).2.1 = job
  again : ∀ hardware' path' dsc' record' scratch' m',
    (job.submit hardware path dsc record scratch m).2.1.submit hardware' path' dsc' record' scratch'
        m'
      = job.submit hardware' path' dsc' record' scratch' m'
  moved : job.op = some .memMove → copyOnly job.jobFlags = true →
    ∀ hardware' path' dsc' record' scratch' m' src dst size, RunsInto src dst size →
      (UserJob.submit hardware' path' dsc' record' scratch' m'
        { (job.submit hardware path dsc record scratch m).2.1 with
          sourceFirstPtr := src, destinationFirstPtr := dst, sourceLength := size }).2.2
        = .own .overlappingBufferError

/-- A move with the promise and overlapping buffers is rejected. -/
theorem submit_of_runsInto {job : UserJob} (hop : job.op = some .memMove)
    (hcopy : copyOnly job.jobFlags = true)
    (h : RunsInto job.sourceFirstPtr job.destinationFirstPtr job.sourceLength)
    (hardware : HardwareDevice) (path : ExecutionPath) (dsc record scratch : ℕ) (m : Memory) :
    (job.submit hardware path dsc record scratch m).2.2 = .own .overlappingBufferError := by
  have hrange : job.rangeCheck = .own .overlappingBufferError := by
    simp only [UserJob.rangeCheck, hop, rangeCheckMemMove, hcopy, h, if_true]
  simp [UserJob.submit, hrange]

/-- **When a submission leaves the job alone**: always, except for a move with the promise
not to overlap that passes the range check. -/
theorem submit_keeps_job_iff (hardware : HardwareDevice) (path : ExecutionPath)
    (dsc record scratch : ℕ) (m : Memory) (job : UserJob) :
    SubmitKeepsJob hardware path dsc record scratch m job
      ↔ ¬(job.op = some .memMove ∧ copyOnly job.jobFlags = true
          ∧ ¬RunsInto job.sourceFirstPtr job.destinationFirstPtr job.sourceLength) := by
  constructor
  · rintro ⟨hself, -, -⟩ ⟨hop, hcopy, hrange⟩
    rw [submit_job, if_pos ((rangeCheck_copyOnly hop hcopy).mpr hrange),
      submitted_eq_self_iff] at hself
    exact hself ⟨hop, hcopy⟩
  · intro h
    have hself : (job.submit hardware path dsc record scratch m).2.1 = job := by
      rw [submit_job]
      split_ifs with hrange
      · rw [submitted_eq_self_iff]
        rintro ⟨hop, hcopy⟩
        exact h ⟨hop, hcopy, (rangeCheck_copyOnly hop hcopy).mp hrange⟩
      · rfl
    refine ⟨hself, ?_, ?_⟩
    · intro hardware' path' dsc' record' scratch' m'
      rw [hself]
    · intro hop hcopy hardware' path' dsc' record' scratch' m' src dst size hinto
      rw [hself]
      exact @submit_of_runsInto
        { job with sourceFirstPtr := src, destinationFirstPtr := dst, sourceLength := size }
        hop hcopy hinto hardware' path' dsc' record' scratch' m'

/-- A move of 16 bytes to `dst` with the promise, and one flag above the low half. -/
def copyOnlyJob (dst : BitVec 64) : UserJob :=
  { sampleUpdateJob with
    destinationFirstPtr := dst, sourceLength := 16#32, operation := 3#32, flags := 0x10020#64 }

/-- A machine without a device. -/
def noHardware : HardwareDevice := fun m _ _ => (m, .failure)

/-- **The promise is lost**: with its buffers apart the job is accepted and loses both
flags; when they are moved into each other the second submission is accepted too, where
the original job is rejected. -/
theorem submit_copyOnly_twice :
    ((copyOnlyJob 0x2000#64).submit noHardware .software 0 64 0 emptyDescriptor).2.1.flags = 0#64
      ∧ (UserJob.submit noHardware .software 0 64 0 emptyDescriptor
          { ((copyOnlyJob 0x2000#64).submit noHardware .software 0 64 0 emptyDescriptor).2.1 with
            destinationFirstPtr := 0x1008#64 }).2.2 = .own .ok
      ∧ ((copyOnlyJob 0x1008#64).submit noHardware .software 0 64 0 emptyDescriptor).2.2
          = .own .overlappingBufferError
      ∧ ¬SubmitKeepsJob noHardware .software 0 64 0 emptyDescriptor (copyOnlyJob 0x2000#64) := by
  have hflags :
      ((copyOnlyJob 0x2000#64).submit noHardware .software 0 64 0 emptyDescriptor).2.1.flags
        = 0#64 := by
    rw [submit_job]
    decide
  refine ⟨hflags, by decide, by decide, fun hkeeps => ?_⟩
  rw [hkeeps.job_eq] at hflags
  exact absurd hflags (by decide)

end DataMover
