import DataMover.BatchApi
import DataMover.BatchKernel
import DataMover.Completes

/-!
# Reading the results of a batch

`dml_batch_get_result` and `dml_batch_get_status` (`c_api/dml_batch.cpp`).  Both read the
record of a task from the buffer of the batch; both call `get_status`, although the class
has a `get_result` for the first.

A task of a batch is compared with a single job that does the same on the same memory: its
task is somewhere else, with a record of its own, and waiting for it copies the result of
the record into the job.

## Main definitions

* `dmlBatchGetResult`, `dmlBatchGetStatus` — the getters.
* `Outcome`, `outcome` — what a kernel leaves for the caller, read off the descriptor and
  the buffers.
* `SingleRun` — a single job that does what a descriptor does.
* `BatchAnswers` — the getters answer what the single job would.

## Main results

* `outcome_congr` — the outcome does not depend on where the task is.
* `wait_single` — waiting for a single job gives the outcome.
* `batch_answers_iff` — when the getters answer what the single job would.
-/

namespace DataMover

open ByteMemory

/-! ### The getters -/

/-- The numbers of `dml_status_t`. -/
def JobStatus.code : JobStatus → ℕ
  | ok => 0
  | falsePredicateOk => 1
  | beingProcessed => 2
  | internalError => 3
  | batchError => 9
  | deltaAscendtError => 10
  | deltaOffsetError => 11
  | difCheckError => 12
  | jobOperationError => 13
  | jobFlagsError => 14
  | jobLengthError => 15
  | overlappingBufferError => 18
  | dualcastAlignError => 19
  | deltaInputSizeError => 21
  | pageFaultError => 25
  | batchSizeError => 29
  | intlInvalidPageRequest => 33
  | intlInvalidReservedField => 34
  | intlMisalignedDescLa => 35
  | intlInvalidCompletionHandle => 36
  | intlPageFaultOnTranslation => 37
  | intlMisalignedCrAddress => 38
  | intlMisalignedAddress => 39
  | intlPrivilegeError => 40
  | intlTrafficClassError => 41
  | intlReadbackAddressPageError => 42
  | intlHardwareReadbackTimeout => 43
  | intlHardwareTimeout => 44
  | intlAddressTranslationError => 45

/-- `batch::get_status`. -/
def batchGetStatus (m : Memory) (job : UserJob) (index : ℕ) : JobStatus :=
  toOwnStatus (getStatus m (job.batchRecord index))

/-- What the getters share: the checks, and the value that goes to the caller. -/
def getByIndex (m : Memory) (job : Option UserJob) (taskIndex : BitVec 32) (pointer : BitVec 64)
    (value : UserJob → ℕ) : Memory × ApiStatus :=
  match job with
  | none => (m, .nullPointerError)
  | some job =>
    if pointer = 0#64 then (m, .nullPointerError)
    else if job.taskCount ≤ taskIndex.toNat then (m, .batchTaskIndexOverflow)
    else (store m pointer.toNat 4 (value job), .own .ok)

/-- `dml_batch_get_result`: it is the status that goes to `*result_ptr`. -/
def dmlBatchGetResult (m : Memory) (job : Option UserJob) (taskIndex : BitVec 32)
    (resultPtr : BitVec 64) : Memory × ApiStatus :=
  getByIndex m job taskIndex resultPtr fun job => (batchGetStatus m job taskIndex.toNat).code

/-- `dml_batch_get_status`. -/
def dmlBatchGetStatus (m : Memory) (job : Option UserJob) (taskIndex : BitVec 32)
    (statusPtr : BitVec 64) : Memory × ApiStatus :=
  getByIndex m job taskIndex statusPtr fun job => (batchGetStatus m job taskIndex.toNat).code

theorem JobStatus.code_lt (status : JobStatus) : status.code < 2 ^ 32 := by
  cases status <;> decide

/-- The value a getter leaves for the caller. -/
theorem load_getByIndex {m : Memory} {job : UserJob} {taskIndex : BitVec 32} {pointer : BitVec 64}
    {value : UserJob → ℕ} (hpointer : pointer ≠ 0#64) (hindex : taskIndex.toNat < job.taskCount)
    (hvalue : value job < 2 ^ 32) :
    load (getByIndex m (some job) taskIndex pointer value).1 pointer.toNat 4 = value job := by
  simp only [getByIndex]
  rw [if_neg hpointer, if_neg (by omega), load_store_self, Nat.mod_eq_of_lt hvalue]

/-! ### Outcomes -/

/-- What a caller finds after an operation: the status of the record, and the result, which
stays 0 for the operations that do not have one. -/
structure Outcome where
  status : ExecutionStatus
  result : ℕ
  deriving DecidableEq, Repr

/-- The result of a record is one byte. -/
def compareOutcome (m : Memory) (dsc expectedResult result : ℕ) : Outcome where
  status := Kernels.compareStatus (intersects (AnyDescriptor.flags.get m dsc) Flag.checkResult)
    expectedResult (result % 2 ^ 8)
  result := result % 2 ^ 8

def createDeltaOutcome (m : Memory) (dsc result : ℕ) : Outcome where
  status := Kernels.createDeltaStatus (intersects (AnyDescriptor.flags.get m dsc) Flag.checkResult)
    (CreateDeltaDescriptor.expectedResultMask.get m dsc &&& 0b111) (result % 2 ^ 8)
  result := result % 2 ^ 8

def difOutcome (status : DmlStatus) (job : DmlJob) : Outcome where
  status := Kernels.difStatus status
  result := job.result % 2 ^ 8

/-- The outcome of a descriptor, without its record. -/
def outcome (m : Memory) (dsc : ℕ) : Outcome :=
  match operationOf m dsc with
  | some .compare => compareOutcome m dsc (CompareDescriptor.expectedResult.get m dsc)
      (dmlRefCompare m (CompareDescriptor.source1Address.get m dsc)
        (CompareDescriptor.source2Address.get m dsc) (AnyDescriptor.transferSize.get m dsc)).2
  | some .comparePattern => compareOutcome m dsc (ComparePatternDescriptor.expectedResult.get m dsc)
      (dmlRefComparePattern m (ComparePatternDescriptor.pattern.get m dsc)
        (AnyDescriptor.sourceAddress.get m dsc) (AnyDescriptor.transferSize.get m dsc)).2
  | some .createDelta => createDeltaOutcome m dsc
      (dmlRefCreateDelta m (CreateDeltaDescriptor.source1Address.get m dsc)
        (CreateDeltaDescriptor.source2Address.get m dsc) (AnyDescriptor.transferSize.get m dsc)
        (CreateDeltaDescriptor.deltaRecordAddress.get m dsc)
        (CreateDeltaDescriptor.maximumDeltaRecordSize.get m dsc)).2.2
  | some .difCheck =>
    let (status, job) := dmlLegacyDifCheck m (Kernels.difCheckJob m dsc)
    difOutcome status job
  | some .difStrip =>
    let (status, _, job) := dmlLegacyDifStrip m
      (Kernels.difJob m dsc (Kernels.sourceDifConfig m dsc))
    difOutcome status job
  | some .difUpdate =>
    let (status, _, job) := dmlLegacyDifUpdate m
      (Kernels.difJob m dsc (Kernels.updateDifConfig m dsc))
    difOutcome status job
  | _ => ⟨.success, 0⟩

/-- The operations whose kernel writes the result of the record. -/
def writesResult : Operation → Bool
  | .compare | .comparePattern | .createDelta | .difCheck | .difStrip | .difUpdate => true
  | _ => false

section Submit

variable {m : Memory} {dsc : ℕ} {op : Operation}

theorem completeCompare_outcome (record : ℕ) (check : Bool) (expected : ℕ) (r : ℕ × ℕ) :
    AnyCompletionRecord.status.get (Kernels.completeCompare m record check expected r) record
        = (Kernels.compareStatus check expected (r.2 % 2 ^ 8)).toUnderlying
      ∧ AnyCompletionRecord.result.get (Kernels.completeCompare m record check expected r) record
        = r.2 % 2 ^ 8 := by
  simp only [Kernels.completeCompare]
  rw [status_setStatus, get_setStatus (by decide), Field.get_set_self]
  exact ⟨rfl, rfl⟩

theorem completeDif_outcome (record : ℕ) (status : DmlStatus) (job : DmlJob) :
    AnyCompletionRecord.status.get (Kernels.completeDif m record status job) record
        = (difOutcome status job).status.toUnderlying
      ∧ AnyCompletionRecord.result.get (Kernels.completeDif m record status job) record
        = (difOutcome status job).result := by
  simp only [Kernels.completeDif]
  rw [status_setStatus, get_setStatus (by decide), Field.get_set_of_apart (by decide),
    Field.get_set_self]
  exact ⟨rfl, rfl⟩

/-- **The record after a submission**: the status of the outcome, and its result where the
kernel writes one. -/
theorem submit_outcome (hop : operationOf m dsc = some op) (hbatch : op ≠ .batch) :
    AnyCompletionRecord.status.get (SoftwareDevice.submit m dsc).1 (getCompletionRecord m dsc)
        = (outcome m dsc).status.toUnderlying
      ∧ (writesResult op = true →
          AnyCompletionRecord.result.get (SoftwareDevice.submit m dsc).1 (getCompletionRecord m dsc)
            = (outcome m dsc).result) := by
  unfold SoftwareDevice.submit outcome
  rw [hop]
  cases op with
  | batch => exact absurd rfl hbatch
  | compare | comparePattern =>
    obtain ⟨hstatus, hresult⟩ := completeCompare_outcome (m := m) (getCompletionRecord m dsc)
      (intersects (AnyDescriptor.flags.get m dsc) Flag.checkResult) _ _
    exact ⟨hstatus, fun _ => hresult⟩
  | createDelta =>
    simp only [Kernels.createDelta]
    rw [status_setStatus, get_setStatus (by decide), Field.get_set_self]
    exact ⟨rfl, fun _ => rfl⟩
  | difCheck | difStrip | difUpdate =>
    obtain ⟨hstatus, hresult⟩ := completeDif_outcome (getCompletionRecord m dsc) _ _
    exact ⟨hstatus, fun _ => hresult⟩
  | _ => exact ⟨status_setStatus _ _ _, fun h => by simp [writesResult] at h⟩

/-- The other operations succeed and have no result. -/
theorem outcome_of_not_writesResult (hop : operationOf m dsc = some op)
    (h : writesResult op = false) : outcome m dsc = ⟨.success, 0⟩ := by
  unfold outcome
  rw [hop]
  cases op with
  | compare | comparePattern | createDelta | difCheck | difStrip | difUpdate =>
    simp [writesResult] at h
  | _ => rfl

end Submit

/-! ### The same operation somewhere else -/

/-- Two descriptors with the same fields, but for the record they point to. -/
def SameFields (t : Memory) (d : ℕ) (t' : Memory) (d' : ℕ) : Prop :=
  ∀ f : Field, f.Within descriptorSize → f.Apart AnyDescriptor.completionRecordAddress →
    f.get t' d' = f.get t d

section SameFields

variable {t t' : Memory} {d d' : ℕ} (h : SameFields t d t' d')

include h

theorem SameFields.operationOf_eq : operationOf t' d' = operationOf t d := by
  rw [operationOf, operationOf, h _ (by decide) (by decide)]

theorem SameFields.difCheckJob_eq : Kernels.difCheckJob t' d' = Kernels.difCheckJob t d := by
  simp (disch := decide) only [Kernels.difCheckJob, Kernels.sourceDifConfig, h _]

theorem SameFields.stripJob_eq :
    Kernels.difJob t' d' (Kernels.sourceDifConfig t' d')
      = Kernels.difJob t d (Kernels.sourceDifConfig t d) := by
  simp (disch := decide) only [Kernels.difJob, Kernels.sourceDifConfig, h _]

theorem SameFields.updateJob_eq :
    Kernels.difJob t' d' (Kernels.updateDifConfig t' d')
      = Kernels.difJob t d (Kernels.updateDifConfig t d) := by
  simp (disch := decide) only [Kernels.difJob, Kernels.updateDifConfig, h _]

/-- **The outcome does not depend on where the task is**: it is read off the fields of the
descriptor and the sources. -/
theorem outcome_congr (hread : ∀ R ∈ sources t d, Set.EqOn t t' R.addrs) :
    outcome t' d' = outcome t d := by
  have hn := transferSize_lt t d
  unfold sources at hread
  unfold outcome
  rw [h.operationOf_eq]
  cases hop : operationOf t d with
  | none => rfl
  | some op =>
    rw [hop] at hread
    cases op with
    | compare =>
      simp (disch := decide) only [compareOutcome, h _]
      rw [dmlRefCompare_congr (fun i hi => eqOn_bytes (hread _ (by simp)) hi)
        (fun i hi => eqOn_bytes (hread _ (by simp)) hi)]
    | comparePattern =>
      simp (disch := decide) only [compareOutcome, h _]
      rw [dmlRefComparePattern_congr (Field.get_lt _ t d) hn (hread _ (by simp))]
    | createDelta =>
      simp (disch := decide) only [createDeltaOutcome, h _]
      obtain ⟨-, hout⟩ := dmlRefCreateDelta_sameChange
        (CreateDeltaDescriptor.deltaRecordAddress.get t d)
        (CreateDeltaDescriptor.maximumDeltaRecordSize.get t d)
        (hread _ (List.mem_cons_self ..)) (hread _ (List.mem_cons_of_mem _ (List.mem_cons_self ..)))
      rw [congrArg Prod.snd hout]
    | difCheck =>
      simp only [h.difCheckJob_eq]
      rw [dmlLegacyDifCheck_congr (hread _ (List.mem_cons_self ..))]
    | difStrip =>
      simp only [h.stripJob_eq]
      obtain ⟨hstatus, hjob, -⟩ := dmlLegacyDifStrip_sameChange
        (Kernels.difJob t d (Kernels.sourceDifConfig t d)) (hread _ (List.mem_cons_self ..))
      rw [hstatus, hjob]
    | difUpdate =>
      simp only [h.updateJob_eq]
      obtain ⟨hstatus, hjob, -⟩ := dmlLegacyDifUpdate_sameChange
        (Kernels.difJob t d (Kernels.updateDifConfig t d)) (hread _ (List.mem_cons_self ..))
      rw [hstatus, hjob]
    | _ => rfl

end SameFields

/-! ### The single job -/

/-- A single job on the software path that does what the descriptor at `d` does, on the
same memory: `t'` has its task somewhere, with a fresh record, and the same data in the
buffers that are read. -/
structure SingleRun (t : Memory) (d : ℕ) (t' : Memory) (job : Job) : Prop where
  path : job.path = .software
  operation : operationOf t' job.dsc = some job.operation
  record : getCompletionRecord t' job.dsc = job.record
  fields : SameFields t d t' job.dsc
  reads : ∀ R ∈ sources t d, Set.EqOn t t' R.addrs
  placed : Placed t' job.dsc
  notes : DeltaWithin t' job.dsc
  fresh : job.result = 0 ∧ AnyCompletionRecord.result.get t' job.record = 0
  crc_record : Region.Apart ⟨job.crcChecksumPtr, 4⟩ ⟨job.record, recordSize⟩

theorem getStatus_of_status {m : Memory} {record : ℕ} {s : ExecutionStatus}
    (h : AnyCompletionRecord.status.get m record = s.toUnderlying) :
    getStatus m record = some s := by
  rw [getStatus, h]
  cases s <;> decide

section Single

variable {t t' : Memory} {d : ℕ} {job : Job} (hrun : SingleRun t d t' job)
  (hbatch : job.operation ≠ .batch)

include hrun hbatch

/-- The descriptor still points to its record when the job is done. -/
theorem record_single :
    getCompletionRecord (SoftwareDevice.submit t' job.dsc).1 job.dsc = job.record := by
  have hne : operationOf t' job.dsc ≠ some .batch := by
    rw [hrun.operation]
    exact fun h => hbatch (Option.some.inj h)
  rw [← hrun.record]
  refine getCompletionRecord_congr fun x hx => ?_
  refine submit_apply hne hrun.notes ?_ fun R hR => ?_
  · exact hrun.placed.record_apart.symm.notMem hx
  · exact (hrun.placed.apart_descriptor R hR).symm.notMem hx

theorem status_single :
    AnyCompletionRecord.status.get (SoftwareDevice.submit t' job.dsc).1 job.record
      = (outcome t d).status.toUnderlying := by
  rw [← outcome_congr hrun.fields hrun.reads, ← hrun.record]
  exact (submit_outcome hrun.operation hbatch).1

/-- The wait finds the job done. -/
theorem wait_single_eq (umwait : Bool) :
    job.wait (SoftwareDevice.submit t' job.dsc).1 umwait
      = some (writeResult (SoftwareDevice.submit t' job.dsc).1 job) := by
  have hfinished : Software.finished (SoftwareDevice.submit t' job.dsc).1 job.dsc = true := by
    rw [Software.finished_iff, record_single hrun hbatch, ← hrun.record]
    refine status_submit_ne_zero ?_
    rw [hrun.operation]
    simp
  simp only [Job.wait, hrun.path, Software.wait_of_finished hfinished, Option.bind_eq_bind,
    Option.bind_some]
  rfl

omit hbatch in
/-- The result of a move is that of its fresh record. -/
theorem result_memMove (hop : job.operation = .memMove) :
    getResult (SoftwareDevice.submit t' job.dsc).1 job.record = 0 := by
  have hmove := hrun.operation
  rw [hop] at hmove
  have hapart := hrun.placed.apart_record
    ⟨AnyDescriptor.destinationAddress.get t' job.dsc, AnyDescriptor.transferSize.get t' job.dsc⟩
    (by rw [operands, hmove]; simp)
  rw [hrun.record] at hapart
  rw [← hrun.fresh.2, getResult, SoftwareDevice.submit, hmove]
  simp only [Kernels.memMove]
  rw [hrun.record, get_setStatus (by decide), dmlRefMemMove_eq _ _ _ (transferSize_lt t' job.dsc)]
  refine Field.get_congr (by decide) fun x
    (hx : x ∈ Region.addrs ⟨job.record, recordSize⟩) => ?_
  exact move_apply_of_notMem (notMem_addrs.mp (hapart.symm.notMem hx))

/-- **Waiting for a single job gives the outcome.** -/
theorem wait_single (umwait : Bool) : ∃ m'' job'',
    job.wait (SoftwareDevice.submit t' job.dsc).1 umwait
        = some (m'', job'', toOwnStatus (some (outcome t d).status))
      ∧ job''.result = (outcome t d).result := by
  have hstatus := getStatus_of_status (status_single hrun hbatch)
  have hsame : outcome t d = outcome t' job.dsc := (outcome_congr hrun.fields hrun.reads).symm
  have hcopied : writesResult job.operation = true →
      getResult (SoftwareDevice.submit t' job.dsc).1 job.record = (outcome t d).result := by
    intro hwrites
    rw [hsame, ← hrun.record]
    exact (submit_outcome hrun.operation hbatch).2 hwrites
  have hkept : writesResult job.operation = false → (outcome t d).result = 0 := by
    intro hwrites
    rw [hsame, outcome_of_not_writesResult hrun.operation hwrites]
  -- the checksum of the caller is apart from the record
  have hcrc : ∀ v, getStatus (store (SoftwareDevice.submit t' job.dsc).1 job.crcChecksumPtr 4 v)
      job.record = some (outcome t d).status := by
    intro v
    rw [← hstatus, getStatus, getStatus, Field.get, Field.get, load_store_of_apart]
    exact hrun.crc_record.mono (Region.Inside.refl _)
      ⟨by simp, by simp [AnyCompletionRecord.status]⟩
  rw [wait_single_eq hrun hbatch, writeResult]
  cases hop : job.operation with
  | batch => exact absurd hop hbatch
  | memMove =>
    refine ⟨_, _, by rw [writeResultMemMove, withStatus, hstatus], ?_⟩
    rw [hkept (by rw [hop]; rfl), result_memMove hrun hop]
  | compare | comparePattern | difCheck | difStrip | difUpdate =>
    exact ⟨_, _, by rw [← hstatus]; rfl, hcopied (by rw [hop]; rfl)⟩
  | createDelta => exact ⟨_, _, by rw [← hstatus]; rfl, hcopied (by rw [hop]; rfl)⟩
  | crc | copyCrc =>
    refine ⟨_, _, by rw [writeResultCrc, withStatus, hcrc], ?_⟩
    rw [hkept (by rw [hop]; rfl), hrun.fresh.1]
  | _ =>
    refine ⟨_, _, by rw [← hstatus]; rfl, ?_⟩
    rw [hkept (by rw [hop]; rfl), ← hrun.fresh.1]

end Single

/-! ### Statuses and results -/

/-- The error bits of a block are three checks, or the one that replaces them. -/
theorem difCheckBits_lt (m : Memory) (cfg : DifConfig) (sourcePtr : ℕ) (applicationTag : BitVec 16)
    (referenceTag : BitVec 32) : difCheckBits m cfg sourcePtr applicationTag referenceTag < 12 := by
  unfold difCheckBits
  simp only
  split
  · decide
  · split
    · split_ifs <;> decide
    · decide

theorem compareStatus_cases (check : Bool) (expected result : ℕ) :
    Kernels.compareStatus check expected result = .success
      ∨ Kernels.compareStatus check expected result = .falsePredicateSuccess := by
  unfold Kernels.compareStatus
  split_ifs <;> simp

theorem createDeltaStatus_cases (check : Bool) (expected result : ℕ) :
    Kernels.createDeltaStatus check expected result = .success
      ∨ Kernels.createDeltaStatus check expected result = .falsePredicateSuccess := by
  unfold Kernels.createDeltaStatus
  split_ifs <;> simp

/-- A check that fails reports the bits of a block. -/
theorem difOutcome_check (m : Memory) (job : DmlJob) :
    (difOutcome (dmlLegacyDifCheck m job).1 (dmlLegacyDifCheck m job).2).status = .success
      ∨ (difOutcome (dmlLegacyDifCheck m job).1 (dmlLegacyDifCheck m job).2).status
          = .difControlError
        ∧ (difOutcome (dmlLegacyDifCheck m job).1 (dmlLegacyDifCheck m job).2).result < 12 := by
  rw [dmlLegacyDifCheck_eq]
  cases Loop.search (fun j => difBitsAt m job j != 0) (job.sourceLength / job.difConfig.step) with
  | none => exact Or.inl rfl
  | some j => exact Or.inr ⟨rfl, lt_of_le_of_lt (Nat.mod_le _ _) (difCheckBits_lt _ _ _ _ _)⟩

/-- A strip and an update report what their check reports. -/
theorem dmlLegacyDifStrip_report (m : Memory) (job : DmlJob) :
    (dmlLegacyDifStrip m job).1 = (dmlLegacyDifCheck m job).1
      ∧ (dmlLegacyDifStrip m job).2.2 = (dmlLegacyDifCheck m job).2 := by
  unfold dmlLegacyDifStrip
  rw [dmlLegacyDifCheck_eq]
  cases Loop.search (fun j => difBitsAt m job j != 0) (job.sourceLength / job.difConfig.step) with
  | none => exact ⟨rfl, rfl⟩
  | some j => exact ⟨rfl, rfl⟩

theorem dmlLegacyDifUpdate_report (m : Memory) (job : DmlJob) :
    (dmlLegacyDifUpdate m job).1 = (dmlLegacyDifCheck m job).1
      ∧ (dmlLegacyDifUpdate m job).2.2 = (dmlLegacyDifCheck m job).2 := by
  unfold dmlLegacyDifUpdate
  rw [dmlLegacyDifCheck_eq]
  cases Loop.search (fun j => difBitsAt m job j != 0) (job.sourceLength / job.difConfig.step) with
  | none => exact ⟨rfl, rfl⟩
  | some j => exact ⟨rfl, rfl⟩

/-- An outcome is a success, a false predicate, or a failed check with bits below 12. -/
theorem outcome_cases (m : Memory) (dsc : ℕ) :
    (outcome m dsc).status = .success ∨ (outcome m dsc).status = .falsePredicateSuccess
      ∨ (outcome m dsc).status = .difControlError ∧ (outcome m dsc).result < 12 := by
  unfold outcome
  cases operationOf m dsc with
  | none => exact Or.inl rfl
  | some op =>
    cases op with
    | compare | comparePattern =>
      rcases compareStatus_cases (intersects (AnyDescriptor.flags.get m dsc) Flag.checkResult) _ _
        with h | h
      · exact Or.inl h
      · exact Or.inr (Or.inl h)
    | createDelta =>
      rcases createDeltaStatus_cases (intersects (AnyDescriptor.flags.get m dsc) Flag.checkResult)
        _ _ with h | h
      · exact Or.inl h
      · exact Or.inr (Or.inl h)
    | difCheck => exact (difOutcome_check m _).imp_right Or.inr
    | difStrip =>
      obtain ⟨hstatus, hjob⟩ := dmlLegacyDifStrip_report m
        (Kernels.difJob m dsc (Kernels.sourceDifConfig m dsc))
      simp only [hstatus, hjob]
      exact (difOutcome_check m _).imp_right Or.inr
    | difUpdate =>
      obtain ⟨hstatus, hjob⟩ := dmlLegacyDifUpdate_report m
        (Kernels.difJob m dsc (Kernels.updateDifConfig m dsc))
      simp only [hstatus, hjob]
      exact (difOutcome_check m _).imp_right Or.inr
    | _ => exact Or.inl rfl

/-- Outcomes whose status happens to be the number of the result. -/
theorem code_eq_result_iff (m : Memory) (dsc : ℕ) :
    (toOwnStatus (some (outcome m dsc).status)).code = (outcome m dsc).result
      ↔ outcome m dsc = ⟨.success, 0⟩ ∨ outcome m dsc = ⟨.falsePredicateSuccess, 1⟩ := by
  have hcases := outcome_cases m dsc
  generalize outcome m dsc = o at hcases ⊢
  obtain ⟨status, result⟩ := o
  simp only [Outcome.mk.injEq] at hcases ⊢
  rcases hcases with rfl | rfl | ⟨rfl, hlt⟩
  · simp [toOwnStatus, JobStatus.code, eq_comm]
  · simp [toOwnStatus, JobStatus.code, eq_comm]
  · simp only [toOwnStatus, JobStatus.code, reduceCtorEq, false_and, or_false, iff_false]
    omega

/-! ### The batch -/

/-- A batch job whose descriptors have been set: each points to its record in the buffer of
the batch, and the descriptor at `dsc` is that of the job. -/
structure BatchFilled (m : Memory) (dsc : ℕ) (batch : UserJob) : Prop where
  args : BatchArgs m dsc (align batch.destinationFirstPtr).toNat batch.taskCount
  placed : BatchPlaced m dsc (align batch.destinationFirstPtr).toNat batch.taskCount
  notes : NotesSafe m (align batch.destinationFirstPtr).toNat batch.taskCount
  records : ∀ i, i < batch.taskCount →
    innerRecord m (align batch.destinationFirstPtr).toNat i = batch.batchRecord i

/-- The memory when the turn of task `i` comes. -/
def inTurn (m : Memory) (batch : UserJob) (i : ℕ) : Memory :=
  runFirst m (align batch.destinationFirstPtr).toNat i

/-- How many tasks of a batch are executed. -/
def tasksExecuted (m : Memory) (batch : UserJob) : ℕ :=
  executed m (align batch.destinationFirstPtr).toNat batch.taskCount

/-- The batch kernel leaves what its tasks left, and its own record. -/
theorem batch_eq_executed (m : Memory) (dsc : ℕ) : ∃ index,
    Kernels.batch m dsc
      = completeBatch (runFirst m (BatchDescriptor.descriptorListAddress.get m dsc)
          (executed m (BatchDescriptor.descriptorListAddress.get m dsc)
            (BatchDescriptor.descriptorsCount.get m dsc)))
          (getCompletionRecord m dsc) (BatchDescriptor.descriptorsCount.get m dsc) index := by
  rw [batch_eq_leading]
  simp only [left_memory]
  exact ⟨_, rfl⟩

/-- The getters answer what a single job that does the same leaves in its `result`, and
returns. -/
structure BatchAnswers (m : Memory) (batch : UserJob) (taskIndex : BitVec 32)
    (pointer : BitVec 64) (result : ℕ) (status : JobStatus) : Prop where
  result_eq : load (dmlBatchGetResult m (some batch) taskIndex pointer).1 pointer.toNat 4 = result
  status_eq : load (dmlBatchGetStatus m (some batch) taskIndex pointer).1 pointer.toNat 4
    = status.code

section Filled

variable {m : Memory} {dsc : ℕ} {batch : UserJob} (h : BatchFilled m dsc batch)

include h

/-- **The record of a task that was executed**: the status of its outcome. -/
theorem status_batchRecord {i : ℕ} (hi : i < tasksExecuted m batch) :
    AnyCompletionRecord.status.get (SoftwareDevice.submit m dsc).1 (batch.batchRecord i)
      = (outcome (inTurn m batch i) (batch.batchDescriptor i)).status.toUnderlying := by
  have hcount : tasksExecuted m batch ≤ batch.taskCount := executed_le _ _ _
  have hrecord := h.records i (by omega)
  have hlist := runFirst_list_of_le h.args h.placed (fun _ _ => rfl) h.notes
    (show i ≤ batch.taskCount by omega)
  have hdsc := eqOn_innerDescriptor hlist (show i < batch.taskCount by omega)
  -- the kernel of the batch writes its own record only
  have hsubmit : (SoftwareDevice.submit m dsc).1 = Kernels.batch m dsc := by
    rw [SoftwareDevice.submit, h.args.operation]
  obtain ⟨index, hbatch⟩ := batch_eq_executed m dsc
  rw [h.args.list, h.args.size] at hbatch
  have hbytes : Set.EqOn (SoftwareDevice.submit m dsc).1
      (runFirst m (align batch.destinationFirstPtr).toNat (i + 1))
      (Region.addrs ⟨batch.batchRecord i, recordSize⟩) := by
    intro x hx
    rw [← hrecord] at hx
    have hapart := h.placed.apart_record i (by omega)
      ⟨innerRecord m (align batch.destinationFirstPtr).toNat i, recordSize⟩ (List.mem_cons_self ..)
    rw [hsubmit, hbatch, completeBatch_apply (hapart.notMem hx)]
    exact runFirst_record h.args h.placed (fun _ _ => rfl) h.notes hi hcount hx
  obtain ⟨op, hsupported, hop⟩ := h.args.supported i (by omega)
  have hne : op ≠ .batch := by
    rintro rfl
    exact absurd hsupported (by decide)
  rw [← operationOf_congr hdsc] at hop
  have hstatus := (submit_outcome hop hne).1
  rw [getCompletionRecord_congr hdsc] at hstatus
  rw [Field.get_congr (by decide) hbytes, ← hrecord, runFirst_succ]
  exact hstatus

/-- Both getters answer with the status of the outcome. -/
theorem load_batchGet {taskIndex : BitVec 32} {pointer : BitVec 64}
    (hi : taskIndex.toNat < tasksExecuted m batch) (hpointer : pointer ≠ 0#64) :
    load (getByIndex (SoftwareDevice.submit m dsc).1 (some batch) taskIndex pointer fun job =>
        (batchGetStatus (SoftwareDevice.submit m dsc).1 job taskIndex.toNat).code).1
        pointer.toNat 4
      = (toOwnStatus (some (outcome (inTurn m batch taskIndex.toNat)
          (batch.batchDescriptor taskIndex.toNat)).status)).code := by
  have hcount : tasksExecuted m batch ≤ batch.taskCount := executed_le _ _ _
  rw [load_getByIndex hpointer (by omega) (JobStatus.code_lt _), batchGetStatus,
    getStatus_of_status (status_batchRecord h hi)]

end Filled

/-- **When the getters answer what a single job would.**  The status is always right; what
is returned as the result is the number of the status, which is the result of a success
without one, or of a false predicate with the result 1, and of nothing else. -/
theorem batch_answers_iff {m t : Memory} {dsc : ℕ} {batch : UserJob} (taskIndex : BitVec 32)
    (pointer : BitVec 64) {job : Job} (h : BatchFilled m dsc batch)
    (hi : taskIndex.toNat < tasksExecuted m batch) (hpointer : pointer ≠ 0#64)
    (hrun : SingleRun (inTurn m batch taskIndex.toNat) (batch.batchDescriptor taskIndex.toNat) t
      job)
    (umwait : Bool) :
    ∃ m' job' status,
      job.wait (SoftwareDevice.submit t job.dsc).1 umwait = some (m', job', status)
        ∧ load (dmlBatchGetStatus (SoftwareDevice.submit m dsc).1 (some batch) taskIndex
            pointer).1 pointer.toNat 4 = status.code
        ∧ (BatchAnswers (SoftwareDevice.submit m dsc).1 batch taskIndex pointer job'.result status
            ↔ outcome (inTurn m batch taskIndex.toNat) (batch.batchDescriptor taskIndex.toNat)
                = ⟨.success, 0⟩
              ∨ outcome (inTurn m batch taskIndex.toNat) (batch.batchDescriptor taskIndex.toNat)
                = ⟨.falsePredicateSuccess, 1⟩) := by
  have hbatch : job.operation ≠ .batch := by
    intro hop
    have hcount : tasksExecuted m batch ≤ batch.taskCount := executed_le _ _ _
    have hlist := runFirst_list_of_le h.args h.placed (fun _ _ => rfl) h.notes
      (show taskIndex.toNat ≤ batch.taskCount by omega)
    refine inner_ne_batch h.args hlist (show taskIndex.toNat < batch.taskCount by omega) ?_
    exact hrun.fields.operationOf_eq.symm.trans (hop ▸ hrun.operation)
  obtain ⟨m', job', hwait, hresult⟩ := wait_single hrun hbatch umwait
  have hget := load_batchGet h hi hpointer
  refine ⟨m', job', _, hwait, hget, ?_⟩
  rw [← code_eq_result_iff, ← hresult]
  constructor
  · intro hanswers
    rw [← hget]
    exact hanswers.result_eq
  · intro heq
    exact ⟨hget.trans heq, hget⟩

/-- Bytes are enough for the fields. -/
theorem sameFields_of_bytes {t t' : Memory} {d d' : ℕ}
    (h : ∀ i, i < descriptorSize → i < 8 ∨ 16 ≤ i → t' (d' + i) = t (d + i)) :
    SameFields t d t' d' := by
  intro f hwithin hrecord
  unfold Field.Within at hwithin
  simp only [Field.Apart, AnyDescriptor.completionRecordAddress] at hrecord
  refine load_congr fun i hi => ?_
  rw [Nat.add_assoc, Nat.add_assoc]
  exact h _ (by omega) (by omega)

/-- Three empty operations and a comparison of eight bytes that differ in the first, in the
buffer of `sampleBatch`; the descriptor of the batch is at `0x100`. -/
def compareBatch : Memory :=
  let m := store emptyDescriptor 0x2000 1 1
  let m := (BatchOperation.nop.set m (some sampleBatch) 0#32 0 0#64).1
  let m := (BatchOperation.nop.set m (some sampleBatch) 1#32 0 0#64).1
  let m := (BatchOperation.nop.set m (some sampleBatch) 2#32 0 0#64).1
  let m := ((BatchOperation.compare 0x2000#64 0x3000#64 8#32 0#32).set m (some sampleBatch) 3#32 0
    0#64).1
  assignTask m 0x100 0x140 (sampleBatch.taskDescriptor m 0)

/-- The memory when a task comes up, with a copy of it at `0x6000`. -/
def soloMemory (i : ℕ) : Memory :=
  assignTask (inTurn compareBatch sampleBatch i) 0x6000 0x6040
    (clone (inTurn compareBatch sampleBatch i) (sampleBatch.batchDescriptor i) descriptorSize)

/-- The single job of that copy. -/
def soloJob (operation : Operation) : Job where
  path := .software
  dsc := 0x6000
  record := 0x6040
  operation := operation
  destinationFirstPtr := 0
  crcChecksumPtr := 0x7000
  destinationLength := 0
  offset := 0
  result := 0

theorem batchFilled_compareBatch : BatchFilled compareBatch 0x100 sampleBatch := by
  have halign : (align sampleBatch.destinationFirstPtr).toNat = 0x4000 := by decide
  have hcount : sampleBatch.taskCount = 4 := by decide
  have hargs : BatchArgs compareBatch 0x100 0x4000 4 :=
    ⟨by decide, by decide, by decide, by decide⟩
  have hplaced : BatchPlaced compareBatch 0x100 0x4000 4 :=
    ⟨by decide, by decide, by decide, by decide, by decide,
      by decide⟩
  refine ⟨?_, ?_, ?_, ?_⟩ <;> rw [halign, hcount]
  · exact hargs
  · exact hplaced
  · exact notesSafe_of_ne hargs hplaced (fun _ _ => rfl) (by decide)
  · decide

/-- The copy is a single job for the task. -/
theorem singleRun_solo (i : ℕ) (operation : Operation)
    (hop : operationOf (soloMemory i) 0x6000 = some operation) (hdelta : operation ≠ .applyDelta)
    (hbytes : ∀ j, j < descriptorSize → j < 8 ∨ 16 ≤ j →
      soloMemory i (0x6000 + j)
        = inTurn compareBatch sampleBatch i (sampleBatch.batchDescriptor i + j))
    (hsources : ∀ R ∈ sources (inTurn compareBatch sampleBatch i) (sampleBatch.batchDescriptor i),
      R.Apart ⟨0x6000, 0x60⟩)
    (hplaced : Placed (soloMemory i) 0x6000)
    (hresult : AnyCompletionRecord.result.get (soloMemory i) 0x6040 = 0)
    (hrecord : getCompletionRecord (soloMemory i) 0x6000 = 0x6040) :
    SingleRun (inTurn compareBatch sampleBatch i) (sampleBatch.batchDescriptor i) (soloMemory i)
      (soloJob operation) where
  path := rfl
  operation := hop
  record := hrecord
  fields := sameFields_of_bytes hbytes
  reads R hR := by
    intro x hx
    have hapart := (hsources R hR).notMem hx
    rw [Region.mem_addrs] at hapart
    simp only at hapart
    refine (assignTask_apply ?_ ?_).symm <;>
      simp only [Region.mem_addrs, descriptorSize, recordSize] <;> omega
  placed := hplaced
  notes happly := absurd (Option.some.inj (hop.symm.trans happly)) hdelta
  fresh := ⟨rfl, hresult⟩
  crc_record := by simp [soloJob, Region.Apart, recordSize]

/-- The getters are right about an empty operation. -/
theorem batch_answers_nop :
    ∃ m' job' status,
      (soloJob .nop).wait (SoftwareDevice.submit (soloMemory 0) 0x6000).1 false
          = some (m', job', status)
        ∧ BatchAnswers (SoftwareDevice.submit compareBatch 0x100).1 sampleBatch 0#32 0x7000#64
            job'.result status := by
  have hrun := singleRun_solo 0 .nop (by decide) (by decide) (by decide)
    (by decide) (by decide) (by decide) (by decide)
  obtain ⟨m', job', status, hwait, -, hanswers⟩ := batch_answers_iff 0#32 0x7000#64
    batchFilled_compareBatch (by decide) (by decide) hrun false
  exact ⟨m', job', status, hwait, hanswers.mpr (Or.inl (by decide))⟩

/-- **The result of a comparison is lost**: the buffers differ and the comparison succeeds,
so the single job has the result 1; the batch answers 0. -/
theorem batch_answers_compare :
    ∃ m' job' status,
      (soloJob .compare).wait (SoftwareDevice.submit (soloMemory 3) 0x6000).1 false
          = some (m', job', status)
        ∧ job'.result = 1
        ∧ load (dmlBatchGetResult (SoftwareDevice.submit compareBatch 0x100).1 (some sampleBatch)
            3#32 0x7000#64).1 0x7000 4 = 0
        ∧ ¬BatchAnswers (SoftwareDevice.submit compareBatch 0x100).1 sampleBatch 3#32 0x7000#64
            job'.result status := by
  have hrun := singleRun_solo 3 .compare (by decide) (by decide) (by decide)
    (by decide) (by decide) (by decide) (by decide)
  obtain ⟨m', job', hwait, hresult⟩ := wait_single hrun (by decide) false
  have hone : job'.result = 1 := hresult.trans (by decide)
  have hzero : load (dmlBatchGetResult (SoftwareDevice.submit compareBatch 0x100).1
      (some sampleBatch) 3#32 0x7000#64).1 0x7000 4 = 0 := by decide
  refine ⟨m', job', _, hwait, hone, hzero, fun hanswers => ?_⟩
  have hsame := hanswers.result_eq
  rw [hone] at hsame
  exact absurd (hzero.symm.trans hsame) (by decide)

end DataMover
