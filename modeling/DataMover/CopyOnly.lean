import DataMover.BatchApi

/-!
# Moves that promise not to overlap

With `DML_FLAG_COPY_ONLY` a move is to be rejected when its buffers overlap.  The check,
`range_check_mem_move`, is made where a single job is submitted and where a move is put into
a batch.  It asks whether the source runs into the destination; that the destination runs
into the source, from below, is not asked, where the other operations use `overlaps`, which
asks both.  And the end of a source that reaches up to the last address is 0 in the check.

## Main definitions

* `Intersect` — two ranges of one size have an address in common.
* `RejectsOverlap` — what the promise asks of both entry points.

## Main results

* `submit_overlapping_iff`, `set_overlapping_iff` — when each of them rejects a move.
* `rejectsOverlap_iff` — when they meet the promise.
-/

namespace DataMover

open ByteMemory

/-- Two ranges of `size` bytes have an address in common. -/
def Intersect (src dst : BitVec 64) (size : BitVec 32) : Prop :=
  ∃ x, x ∈ Region.addrs ⟨src.toNat, size.toNat⟩ ∧ x ∈ Region.addrs ⟨dst.toNat, size.toNat⟩

/-- The destination lies below the source and runs into it. -/
def RunsIntoFromBelow (src dst : BitVec 64) (size : BitVec 32) : Prop :=
  dst.toNat < src.toNat ∧ src.toNat < dst.toNat + size.toNat

/-- The destination begins in a source that reaches up to the last address. -/
def RunsIntoAtTop (src dst : BitVec 64) (size : BitVec 32) : Prop :=
  src.toNat ≤ dst.toNat ∧ src.toNat + size.toNat = 2 ^ 64

theorem intersect_iff {src dst : BitVec 64} {size : BitVec 32} :
    Intersect src dst size
      ↔ src.toNat < dst.toNat + size.toNat ∧ dst.toNat < src.toNat + size.toNat := by
  simp only [Intersect, Region.mem_addrs]
  constructor
  · rintro ⟨x, hsrc, hdst⟩
    omega
  · rintro ⟨hsrc, hdst⟩
    exact ⟨max src.toNat dst.toNat, by omega, by omega⟩

/-- What the check asks, for a source that does not wrap: the end of one that reaches up to the
last address is 0. -/
theorem runsInto_iff {src dst : BitVec 64} {size : BitVec 32}
    (hfit : src.toNat + size.toNat ≤ 2 ^ 64) :
    RunsInto src dst size ↔ src.toNat ≤ dst.toNat ∧ dst.toNat < src.toNat + size.toNat ∧
      src.toNat + size.toNat ≠ 2 ^ 64 := by
  have hsize : (size.setWidth 64).toNat = size.toNat := by
    rw [BitVec.toNat_setWidth, Nat.mod_eq_of_lt (by omega)]
  rw [RunsInto, BitVec.le_def, gt_iff_lt, BitVec.lt_def, BitVec.toNat_add, hsize]
  omega

/-- **The overlaps that the check misses.** -/
theorem intersect_iff_runsInto {src dst : BitVec 64} {size : BitVec 32}
    (hfit : src.toNat + size.toNat ≤ 2 ^ 64) (hsize : size ≠ 0#32) :
    Intersect src dst size ↔
      RunsInto src dst size ∨ RunsIntoFromBelow src dst size ∨ RunsIntoAtTop src dst size := by
  have hpos : size.toNat ≠ 0 := fun h => hsize (BitVec.eq_of_toNat_eq h)
  rw [intersect_iff, runsInto_iff hfit, RunsIntoFromBelow, RunsIntoAtTop]
  omega

/-- The check does not ask for any of these. -/
theorem not_runsInto {src dst : BitVec 64} {size : BitVec 32}
    (hfit : src.toNat + size.toNat ≤ 2 ^ 64)
    (h : RunsIntoFromBelow src dst size ∨ RunsIntoAtTop src dst size) :
    ¬RunsInto src dst size := by
  rw [RunsIntoFromBelow, RunsIntoAtTop] at h
  rw [runsInto_iff hfit]
  omega

/-! ### The two entry points -/

/-- The validation of a move does not look for an overlap. -/
theorem validate_memMove_ne_overlapping {m : Memory} {dsc : ℕ}
    (hop : operationOf m dsc = some .memMove) :
    (validate m dsc).toOwnStatus ≠ .own .overlappingBufferError := by
  rw [validate, hop]
  simp only [Validate.memMove]
  split_ifs <;> simp [ValidationStatus.toOwnStatus]

theorem submissionStatus_ne_overlapping (status : SubmissionStatus) :
    status.toOwnStatus ≠ .own .overlappingBufferError := by
  cases status <;> simp [SubmissionStatus.toOwnStatus]

/-- A temporary task has the operation of its arguments. -/
theorem operationOf_makeTaskDescriptor (args : DescriptorArgs) (scratch : ℕ) :
    operationOf (makeTaskDescriptor args scratch) 0 = some args.operation := by
  rw [operationOf, makeTaskDescriptor, get_rebind (by decide) (by decide)]
  exact operationOf_make args

/-- The task of a submitted move is a move. -/
theorem operationOf_submitted {m : Memory} {job : UserJob} {dsc record : ℕ} (scratch : ℕ)
    (hop : job.op = some .memMove)
    (hapart : Region.Apart ⟨dsc, descriptorSize⟩ ⟨record, recordSize⟩) :
    operationOf (assignTask m dsc record (job.submitted.taskDescriptor m scratch)) dsc
      = some .memMove := by
  have hholds := holdsDescriptor_assignTask (m := m) (d := (job.submitted.makeTask m).make) hapart
    scratch
  rw [operationOf, UserJob.taskDescriptor, hholds.get (by decide),
    get_rebind (by decide) (by decide), makeTask_submitted_memMove hop]
  exact operationOf_make _

/-- **When a submission rejects a move for an overlap**: when the range check does. -/
theorem submit_overlapping_iff (hardware : HardwareDevice) (path : ExecutionPath)
    {dsc record : ℕ} (scratch : ℕ) (m : Memory) {job : UserJob} (hop : job.op = some .memMove)
    (hapart : Region.Apart ⟨dsc, descriptorSize⟩ ⟨record, recordSize⟩) :
    (job.submit hardware path dsc record scratch m).2.2 = .own .overlappingBufferError
      ↔ copyOnly job.jobFlags = true
        ∧ RunsInto job.sourceFirstPtr job.destinationFirstPtr job.sourceLength := by
  have hrange : job.rangeCheck = rangeCheckMemMove job.sourceFirstPtr job.destinationFirstPtr
      job.sourceLength job.jobFlags := by
    rw [UserJob.rangeCheck, hop]
  rw [← rangeCheckMemMove_eq_overlapping, ← hrange]
  rcases rangeCheckMemMove_cases job.sourceFirstPtr job.destinationFirstPtr job.sourceLength
    job.jobFlags with hok | hover
  · -- past the range check, neither the validation nor the device answers with an overlap
    rw [← hrange] at hok
    have hvalid := validate_memMove_ne_overlapping
      (operationOf_submitted (m := m) scratch hop hapart)
    simp only [hok, UserJob.submit]
    refine iff_of_false ?_ (by simp)
    rw [if_neg (by simp)]
    split_ifs
    · exact hvalid
    · exact submissionStatus_ne_overlapping _
  · rw [← hrange] at hover
    simp [UserJob.submit, hover]

/-- The answer of a setter to a call within its batch. -/
theorem setByIndex_status {m : Memory} {job : UserJob} {taskIndex : BitVec 32} {scratch : ℕ}
    {rangeStatus : ApiStatus} {validated : Bool} {args : DescriptorArgs}
    (hindex : taskIndex.toNat < job.taskCount) :
    (setByIndex m (some job) taskIndex scratch [] rangeStatus validated args).2
      = if rangeStatus ≠ .own .ok then rangeStatus
        else if validated then (Automatic.validate (makeTaskDescriptor args scratch) 0).toOwnStatus
        else .own .ok := by
  have hlength : ¬(job.destinationLength = 0#32 ∨ 0#64 ∈ ([] : List (BitVec 64))) := by
    rintro (hzero | hmem)
    · rw [UserJob.taskCount, hzero, BitVec.toNat_zero, Nat.zero_div] at hindex
      exact Nat.not_lt_zero _ hindex
    · cases hmem
  unfold setByIndex
  simp only
  rw [if_neg hlength, if_neg (Nat.not_le.mpr hindex)]
  by_cases hrange : rangeStatus ≠ .own .ok
  · rw [if_pos hrange, if_pos hrange]
  · rw [if_neg hrange, if_neg hrange]
    -- a task that is stored has passed with `ok`
    split_ifs with hvalidated hstatus hok
    · rfl
    · exact (not_not.mp hstatus).symm
    · exact absurd rfl hok
    · rfl

/-- **When the setter rejects a move for an overlap**: when the range check does. -/
theorem set_overlapping_iff (m : Memory) {job : UserJob} {taskIndex : BitVec 32} (scratch : ℕ)
    (hindex : taskIndex.toNat < job.taskCount) (src dst : BitVec 64) (size : BitVec 32)
    (flags : BitVec 64) :
    (dmlBatchSetMemMoveByIndex m (some job) taskIndex scratch src dst size flags).2
        = .own .overlappingBufferError
      ↔ copyOnly (flags.setWidth 16) = true ∧ RunsInto src dst size := by
  have hvalid : ∀ options, (Automatic.validate (makeTaskDescriptor
      (.memMove src dst size options) scratch) 0).toOwnStatus ≠ .own .overlappingBufferError := by
    intro options
    have hop := operationOf_makeTaskDescriptor (.memMove src dst size options) scratch
    exact validate_memMove_ne_overlapping hop
  rw [← rangeCheckMemMove_eq_overlapping, dmlBatchSetMemMoveByIndex, setByIndex_status hindex]
  rcases rangeCheckMemMove_cases src dst size (flags.setWidth 16) with hok | hover
  · rw [hok, if_neg (by simp), if_pos rfl]
    exact iff_of_false (hvalid _) (by simp)
  · rw [hover, if_pos (by simp)]

/-! ### The promise -/

/-- **What the promise asks of both entry points**: a move is rejected for an overlap exactly
when it makes the promise and its ranges intersect. -/
structure RejectsOverlap (src dst : BitVec 64) (size : BitVec 32) (flags : BitVec 64) : Prop where
  single : ∀ (hardware : HardwareDevice) (path : ExecutionPath) (dsc record scratch : ℕ)
    (m : Memory) (job : UserJob), job.op = some .memMove → job.sourceFirstPtr = src →
      job.destinationFirstPtr = dst → job.sourceLength = size → job.flags = flags →
      Region.Apart ⟨dsc, descriptorSize⟩ ⟨record, recordSize⟩ →
      ((job.submit hardware path dsc record scratch m).2.2 = .own .overlappingBufferError
        ↔ flags.getLsbD 5 = true ∧ Intersect src dst size)
  batch : ∀ (m : Memory) (job : UserJob) (taskIndex : BitVec 32) (scratch : ℕ),
    taskIndex.toNat < job.taskCount →
      ((dmlBatchSetMemMoveByIndex m (some job) taskIndex scratch src dst size flags).2
          = .own .overlappingBufferError
        ↔ flags.getLsbD 5 = true ∧ Intersect src dst size)

/-- Both entry points look at the same bit of the flags. -/
theorem copyOnly_flags (flags : BitVec 64) :
    copyOnly (flags16 flags) = flags.getLsbD 5
      ∧ copyOnly (flags.setWidth 16) = flags.getLsbD 5 := by
  rw [copyOnly_eq_getLsbD, copyOnly_eq_getLsbD, getLsbD_flags16 (by decide)]
  simp

/-- A batch of four tasks, for a move to be put in. -/
def fourTasks : UserJob :=
  { initJob .batch 0#64 with destinationFirstPtr := 0x1000#64, destinationLength := 448#32 }

/-- Both readings of a source that does not wrap: its end address may be 0. -/
theorem rejectsOverlap_iff_of_le {src dst : BitVec 64} {size : BitVec 32} {flags : BitVec 64}
    (hsize : size ≠ 0#32) (hsrc : src.toNat + size.toNat ≤ 2 ^ 64) :
    RejectsOverlap src dst size flags
      ↔ ¬(flags.getLsbD 5 = true ∧
        (RunsIntoFromBelow src dst size ∨ RunsIntoAtTop src dst size)) := by
  obtain ⟨hsingle, hbatch⟩ := copyOnly_flags flags
  have hmissed := @intersect_iff_runsInto src dst size hsrc hsize
  constructor
  · rintro ⟨-, hset⟩ ⟨hcopy, hmiss⟩
    -- the setter of a batch lets the move pass
    have hindex : (0#32).toNat < fourTasks.taskCount := by decide
    have hreject := (hset emptyDescriptor fourTasks 0#32 0 hindex).mpr
      ⟨hcopy, hmissed.mpr (Or.inr hmiss)⟩
    rw [set_overlapping_iff _ _ hindex] at hreject
    exact not_runsInto hsrc hmiss hreject.2
  · intro hnot
    have hsame : flags.getLsbD 5 = true ∧ RunsInto src dst size
        ↔ flags.getLsbD 5 = true ∧ Intersect src dst size := by
      rw [hmissed]
      tauto
    constructor
    · rintro hardware path dsc record scratch m job hop rfl rfl rfl rfl hapart
      rw [submit_overlapping_iff hardware path scratch m hop hapart, UserJob.jobFlags, hsingle,
        hsame]
    · intro m job taskIndex scratch hindex
      rw [set_overlapping_iff m scratch hindex, hbatch, hsame]

/-- **When a move with the promise is handled as promised**: always, except where the destination
runs into the source from below.  A source that reaches up to the last address, so that its end
address wraps to 0, is not compared with any destination that begins in it either. -/
theorem rejectsOverlap_iff {src dst : BitVec 64} {size : BitVec 32} {flags : BitVec 64}
    (hsize : size ≠ 0#32) :
    (src.toNat + size.toNat < 2 ^ 64 →
      (RejectsOverlap src dst size flags
        ↔ ¬(flags.getLsbD 5 = true ∧ RunsIntoFromBelow src dst size))) ∧
    (src.toNat + size.toNat = 2 ^ 64 →
      (RejectsOverlap src dst size flags
        ↔ ¬(flags.getLsbD 5 = true ∧
          (RunsIntoFromBelow src dst size ∨ RunsIntoAtTop src dst size)))) := by
  constructor
  · intro hsrc
    have htop : ¬RunsIntoAtTop src dst size := fun h => hsrc.ne h.2
    rw [rejectsOverlap_iff_of_le hsize hsrc.le, or_iff_left htop]
  · intro hsrc
    exact rejectsOverlap_iff_of_le hsize hsrc.le

/-- Two ranges that are apart, and two that are the same at the last address. -/
theorem rejectsOverlap_iff_apart :
    (RejectsOverlap 0x1000#64 0x2000#64 16#32 0x20#64
        ↔ ¬((0x20#64).getLsbD 5 = true ∧ RunsIntoFromBelow 0x1000#64 0x2000#64 16#32))
      ∧ (RejectsOverlap 0xFFFFFFFFFFFFFFF0#64 0xFFFFFFFFFFFFFFF0#64 16#32 0x20#64
        ↔ ¬((0x20#64).getLsbD 5 = true ∧
          (RunsIntoFromBelow 0xFFFFFFFFFFFFFFF0#64 0xFFFFFFFFFFFFFFF0#64 16#32 ∨
            RunsIntoAtTop 0xFFFFFFFFFFFFFFF0#64 0xFFFFFFFFFFFFFFF0#64 16#32))) :=
  ⟨(rejectsOverlap_iff (by decide)).1 (by decide), (rejectsOverlap_iff (by decide)).2 (by decide)⟩

/-- A move down by 8 of 16 bytes makes the promise and is accepted, by both. -/
theorem rejectsOverlap_fails_below :
    Intersect 0x1008#64 0x1000#64 16#32
      ∧ ({ copyOnlyJob 0x1000#64 with sourceFirstPtr := 0x1008#64 }.submit noHardware .software 0 64
            0 emptyDescriptor).2.2 = .own .ok
      ∧ (dmlBatchSetMemMoveByIndex emptyDescriptor (some fourTasks) 0#32 0 0x1008#64 0x1000#64
            16#32 0x20#64).2 = .own .ok
      ∧ ¬RejectsOverlap 0x1008#64 0x1000#64 16#32 0x20#64 := by
  have hintersect : Intersect 0x1008#64 0x1000#64 16#32 := intersect_iff.mpr (by decide)
  have hset : (dmlBatchSetMemMoveByIndex emptyDescriptor (some fourTasks) 0#32 0 0x1008#64
      0x1000#64 16#32 0x20#64).2 = .own .ok := by decide
  refine ⟨hintersect, by decide, hset, fun h => ?_⟩
  have hreject := (h.batch emptyDescriptor fourTasks 0#32 0 (by decide)).mpr ⟨by decide, hintersect⟩
  rw [hset] at hreject
  exact absurd hreject (by decide)

end DataMover
