import DataMover.JobSubmit
import DataMover.OperationResult

/-!
# Executing a job

`dml_execute_job` submits a job and waits for it (`dml::execute`, `c_api/include/impl.hpp`).

On the software path it is compared with `execute<software>` of the same operation.  The two
interfaces share the task, the validation and the kernels; each has its own range check, its own
statuses, and its own place for what an operation finds out: the result structure on one side,
the job and the checksum of the caller on the other.

## Main definitions

* `UserJob.execute` — submit and wait.
* `OperationResult.CarriedBy` — the job carries the result.
* `SameAnswer` — the answers of the two interfaces.
* `UserJob.TurnedAway` — the jobs that only one of them turns away.

## Main results

* `assignTask_rebind` — the temporary task of a submission leaves no trace.
* `execute_software` — a job on the software path.
* `job_execute_agrees` — both interfaces do the same.
* `job_execute_differs` — and where they do not.
-/

namespace DataMover

open ByteMemory

/-! ### The calls -/

/-- The fields of `dml_job_t` that only an outcome is written to. -/
structure JobOutput where
  offset : ℕ
  result : ℕ
  deriving DecidableEq, Repr

/-- The job as `wait` sees it, with the path and the task from its state. -/
def UserJob.toJob (job : UserJob) (op : Operation) (path : ExecutionPath) (dsc record : ℕ)
    (output : JobOutput) : Job where
  path := path
  dsc := dsc
  record := record
  operation := op
  destinationFirstPtr := job.destinationFirstPtr.toNat
  crcChecksumPtr := job.crcChecksumPtr.toNat
  destinationLength := job.destinationLength.toNat
  offset := output.offset
  result := output.result

/-- `dml::execute`; `none` when the wait does not return. -/
def UserJob.execute (hardware : HardwareDevice) (path : ExecutionPath) (dsc record scratch : ℕ)
    (umwait : Bool) (m : Memory) (job : UserJob) (output : JobOutput) :
    Option (Memory × UserJob × JobOutput × ApiStatus) :=
  let (m, job, status) := job.submit hardware path dsc record scratch m
  if status ≠ .own .ok then some (m, job, output, status)
  else
    match job.op with
    -- the range check has turned it away
    | none => some (m, job, output, .own .jobOperationError)
    | some op => do
      let (m, waited, status) ← (job.toJob op path dsc record output).wait m umwait
      return (m, { job with destinationLength := BitVec.ofNat 32 waited.destinationLength },
        ⟨waited.offset, waited.result⟩, .own status)

/-! ### The task of a submission -/

section Task

variable {m d : Memory} {dsc record : ℕ} {job : UserJob}

/-- **The temporary task leaves no trace**: the record it was tied to is forgotten. -/
theorem assignTask_rebind (hapart : Region.Apart ⟨dsc, descriptorSize⟩ ⟨record, recordSize⟩)
    (scratch : ℕ) : assignTask m dsc record (rebind d 0 scratch) = assignTask m dsc record d := by
  funext x
  by_cases hdsc : x ∈ Region.addrs ⟨dsc, descriptorSize⟩
  · obtain ⟨hlo, hhi⟩ := Region.mem_addrs.mp hdsc
    simp only at hlo hhi
    obtain ⟨i, rfl⟩ := Nat.exists_eq_add_of_le hlo
    have hi : i < descriptorSize := by omega
    rw [holdsDescriptor_assignTask hapart scratch i hi, holdsDescriptor_assign hapart i hi]
  · have hfields : x ∉ Region.addrs ⟨dsc + 4, 2⟩ ∧ x ∉ Region.addrs ⟨dsc + 8, 8⟩ := by
      rw [Region.mem_addrs] at hdsc
      simp only [Region.mem_addrs, descriptorSize] at hdsc ⊢
      omega
    rw [assignTask, assignTask, rebind_apply hfields.1 hfields.2, rebind_apply hfields.1 hfields.2]
    by_cases hrecord : x ∈ Region.addrs ⟨record, recordSize⟩
    · have hzero : ∀ t : Memory, paste t record recordSize (fun _ => 0#8) x = 0#8 :=
        fun t => if_pos (Region.mem_addrs.mp hrecord)
      rw [hzero, hzero]
    · rw [paste_apply_of_notMem hrecord, paste_apply_of_notMem hrecord,
        paste_apply_of_notMem hdsc, paste_apply_of_notMem hdsc]

theorem assignTask_taskDescriptor (hp : TaskPlaced dsc record) (scratch : ℕ) :
    assignTask m dsc record (job.taskDescriptor m scratch)
      = constructTask m dsc record (job.makeTask m) :=
  assignTask_rebind hp.apart scratch

/-- The operation a job stands for. -/
theorem operation_makeTask (m : Memory) {op : Operation} (h : job.op = some op) :
    (job.makeTask m).operation = op := by
  rw [UserJob.makeTask, h]
  cases op <;> rfl

theorem op_submitted (job : UserJob) : job.submitted.op = job.op := by
  unfold UserJob.submitted
  split <;> rfl

theorem crcChecksumPtr_submitted (job : UserJob) :
    job.submitted.crcChecksumPtr = job.crcChecksumPtr := by
  unfold UserJob.submitted
  split <;> rfl

theorem op_ne_none (h : job.rangeCheck = .own .ok) : job.op ≠ none := by
  intro hop
  rw [UserJob.rangeCheck, hop] at h
  exact absurd h (by simp)

end Task

/-! ### A job on the software path -/

section Software

variable {hardware : HardwareDevice} {m : Memory} {job : UserJob} {args : DescriptorArgs}
  {dsc record scratch : ℕ} {umwait : Bool} {output : JobOutput}
  (hp : TaskPlaced dsc record) (hrange : job.rangeCheck = .own .ok)
  (hargs : job.submitted.makeTask m = args)
include hp hrange hargs

theorem submit_software_invalid
    (hvalid : validate (constructTask m dsc record args) dsc ≠ .success) :
    job.submit hardware .software dsc record scratch m
      = (constructTask m dsc record args, job.submitted,
          (validate (constructTask m dsc record args) dsc).toOwnStatus) := by
  rw [UserJob.submit, if_neg (not_not.mpr hrange)]
  simp only [assignTask_taskDescriptor hp, hargs]
  exact if_pos hvalid

theorem submit_software_valid
    (hvalid : validate (constructTask m dsc record args) dsc = .success) :
    job.submit hardware .software dsc record scratch m
      = ((SoftwareDevice.submit (constructTask m dsc record args) dsc).1, job.submitted,
          .own .ok) := by
  have hdone := submit_of_ne_none (validate_none hvalid)
  rw [UserJob.submit, if_neg (not_not.mpr hrange)]
  simp only [assignTask_taskDescriptor hp, hargs, hvalid, ne_eq, not_true_eq_false, if_false,
    submitOn, Software.submit, hdone]
  rfl

/-- A job that validation rejects. -/
theorem execute_software_invalid
    (hvalid : validate (constructTask m dsc record args) dsc ≠ .success) :
    job.execute hardware .software dsc record scratch umwait m output
      = some (constructTask m dsc record args, job.submitted, output,
          (validate (constructTask m dsc record args) dsc).toOwnStatus) := by
  have hstatus : (validate (constructTask m dsc record args) dsc).toOwnStatus ≠ .own .ok := by
    cases hv : validate (constructTask m dsc record args) dsc
    case success => exact absurd hv hvalid
    all_goals simp [ValidationStatus.toOwnStatus]
  rw [UserJob.execute, submit_software_invalid hp hrange hargs hvalid]
  exact if_pos hstatus

/-- **A job on the software path** that validation accepts and whose task is left alone: what
the kernel leaves in the record is copied to the job. -/
theorem execute_software
    (hvalid : validate (constructTask m dsc record args) dsc = .success)
    (hkept : Set.EqOn (SoftwareDevice.submit (constructTask m dsc record args) dsc).1
      (constructTask m dsc record args) (Region.addrs ⟨dsc, descriptorSize⟩)) :
    ∃ m' waited status,
      writeResult (SoftwareDevice.submit (constructTask m dsc record args) dsc).1
          (job.submitted.toJob args.operation .software dsc record output) = (m', waited, status)
        ∧ job.execute hardware .software dsc record scratch umwait m output
          = some (m', { job.submitted with
              destinationLength := BitVec.ofNat 32 waited.destinationLength },
            ⟨waited.offset, waited.result⟩, .own status) := by
  obtain ⟨op, hop⟩ := Option.ne_none_iff_exists'.mp (op_ne_none hrange)
  have hsubmitted : job.submitted.op = some args.operation := by
    rw [← hargs, operation_makeTask m ((op_submitted job).trans hop), op_submitted, hop]
  have hwait := wait_submit (validate_none hvalid) (getCompletionRecord_congr hkept) umwait
  refine ⟨_, _, _, rfl, ?_⟩
  rw [UserJob.execute, submit_software_valid hp hrange hargs hvalid]
  simp only [ne_eq, not_true_eq_false, if_false, hsubmitted, Job.wait, UserJob.toJob, hwait,
    Option.bind_eq_bind, Option.bind_some]
  rfl

end Software

/-! ### The answers -/

/-- The status of a result. -/
def OperationResult.code : OperationResult → StatusCode
  | .status code => code
  | .compare code _ _ => code
  | .createDelta made => made.status
  | .crc code _ => code

/-- What an operation has found out is in the job, and the checksum in the memory of the
caller. -/
def OperationResult.CarriedBy (m : Memory) (job : UserJob) (output : JobOutput) :
    OperationResult → Prop
  | .status _ => True
  | .compare _ result mismatch =>
    ComparisonResult.ofUnderlying output.result = result ∧ output.offset = mismatch
  | .createDelta made =>
    ComparisonResult.ofUnderlying output.result = made.result
      ∧ job.destinationLength.toNat = made.deltaRecordSize
  | .crc _ crcValue => load m job.crcChecksumPtr.toNat 4 = crcValue

/-- The answers of the two interfaces: both reject the operation for the same reason and find
nothing out, or both report what the kernel did. -/
inductive SameAnswer (type : ResultType) (m : Memory) (job : UserJob) (before after : JobOutput) :
    OperationResult → ApiStatus → Prop
  | rejected (reason : ValidationStatus) (hreason : reason ≠ .success) (hkept : after = before) :
    SameAnswer type m job before after (type.ofStatus reason.toOwn) reason.toOwnStatus
  | executed (result : OperationResult) (status : ExecutionStatus)
      (hcode : result.code = ExecutionStatus.toOwn (some status))
      (hcarried : result.CarriedBy m job after) :
    SameAnswer type m job before after result (.own (toOwnStatus (some status)))

theorem code_ofStatus (type : ResultType) (code : StatusCode) :
    (type.ofStatus code).code = code := by
  cases type <;> rfl

theorem code_makeResult (type : ResultType) {m : Memory} {record : ℕ} {status : ExecutionStatus}
    (hstatus : getStatus m record = some status) :
    (type.makeResult m record).code = ExecutionStatus.toOwn (some status) := by
  rw [← hstatus]
  cases type <;> rfl

theorem ok_iff_of_executed (status : ExecutionStatus) :
    ExecutionStatus.toOwn (some status) = .ok
      ↔ ApiStatus.own (toOwnStatus (some status)) = .own .ok := by
  cases status <;> decide

theorem ok_iff_of_rejected (reason : ValidationStatus) :
    reason.toOwn = .ok ↔ reason.toOwnStatus = .own .ok := by
  cases reason <;> decide

/-- One interface reports success when the other does. -/
theorem SameAnswer.ok_iff {type : ResultType} {m : Memory} {job : UserJob}
    {before after : JobOutput} {result : OperationResult} {status : ApiStatus}
    (h : SameAnswer type m job before after result status) :
    result.code = .ok ↔ status = .own .ok := by
  cases h with
  | rejected reason hreason hkept =>
    rw [code_ofStatus]
    exact ok_iff_of_rejected reason
  | executed result status hcode hcarried =>
    rw [hcode]
    exact ok_iff_of_executed status

/-! ### Both interfaces -/

section Agree

variable {m : Memory} {dsc record dsc' record' : ℕ} {job : UserJob} {op : SequenceOperation}

/-- Where a job and a call of the same operation are: each task is apart from the buffers, and
the checksum of the caller from the record of the job; the notes of an `apply_delta` point into
its destination. -/
structure CallPlaced (m : Memory) (dsc record dsc' record' : ℕ) (job : UserJob)
    (op : SequenceOperation) : Prop where
  jobTask : TaskPlaced dsc record
  callTask : TaskPlaced dsc' record'
  buffers : ∀ R ∈ op.buffers, ApartFromTask dsc record R ∧ ApartFromTask dsc' record' R
  checksum : op.resultType = .crc →
    Region.Apart ⟨job.crcChecksumPtr.toNat, 4⟩ ⟨record, recordSize⟩
  notes : DeltaWithin (constructTask m dsc record op.args) dsc

/-- What the job carries after a kernel: the result that is read off the same record. -/
theorem carriedBy_writeResult {t : Memory} {status : ExecutionStatus}
    (hstatus : getStatus t record = some status) (dsc : ℕ) (output : JobOutput)
    (hchecksum : op.resultType = .crc →
      Region.Apart ⟨job.crcChecksumPtr.toNat, 4⟩ ⟨record, recordSize⟩) :
    ∃ m' waited, writeResult t (job.toJob op.args.operation .software dsc record output)
        = (m', waited, toOwnStatus (some status))
      ∧ (op.resultType.makeResult t record).code = ExecutionStatus.toOwn (some status)
      ∧ (op.resultType.makeResult t record).CarriedBy m'
          { job with destinationLength := BitVec.ofNat 32 waited.destinationLength }
          ⟨waited.offset, waited.result⟩
      ∧ ∀ x, (op.resultType = .crc → x ∉ Region.addrs ⟨job.crcChecksumPtr.toNat, 4⟩) →
          m' x = t x := by
  -- the checksum of the caller is apart from the record
  have hcrc : op.resultType = .crc → ∀ v,
      getStatus (store t job.crcChecksumPtr.toNat 4 v) record = some status := by
    intro htype v
    rw [← hstatus, getStatus, getStatus, Field.get, Field.get, load_store_of_apart]
    exact (hchecksum htype).mono (Region.Inside.refl _)
      ⟨by simp, by simp [AnyCompletionRecord.status]⟩
  have hcode := fun type => code_makeResult type hstatus
  cases op with
  | nop | fill | dualcast | applyDelta | cacheFlush =>
    exact ⟨_, _, by rw [← hstatus]; rfl, hcode .status, trivial, fun x _ => rfl⟩
  | memMove | memCopy =>
    exact ⟨_, _, by rw [← hstatus]; rfl, hcode .status, trivial, fun x _ => rfl⟩
  | compare | comparePattern =>
    exact ⟨_, _, by rw [← hstatus]; rfl, hcode .compare, ⟨rfl, rfl⟩, fun x _ => rfl⟩
  | createDelta =>
    refine ⟨_, _, by rw [← hstatus]; rfl, hcode .createDelta, ⟨rfl, ?_⟩, fun x _ => rfl⟩
    exact BitVec.toNat_ofNat _ _ |>.trans (Nat.mod_eq_of_lt (Field.get_lt _ t record))
  | crc | copyCrc =>
    refine ⟨_, _, by rw [← hcrc rfl]; rfl, hcode .crc, ?_, fun x hx => ?_⟩
    · exact (load_store_self _ _ _ _).trans (Nat.mod_eq_of_lt (Field.get_lt _ t record))
    · exact store_apply_of_notMem (notMem_addrs.mp (hx rfl))

/-- The buffers of an operation are the operands of its task. -/
theorem operands_constructTask (hp : TaskPlaced dsc record) :
    operands (constructTask m dsc record op.args) dsc = op.buffers := by
  have hcopy : HoldsDescriptor (makeTaskDescriptor op.args 0) 0 (rebind op.args.make 0 0) :=
    fun i _ => by rw [Nat.zero_add]; rfl
  exact (sameFields_of_holds hcopy (holdsDescriptor_constructTask hp)).operands_eq

/-- The operands of the task of the job are the buffers, which it leaves as they are. -/
theorem CallPlaced.operands_apart (hp : CallPlaced m dsc record dsc' record' job op) :
    ∀ R ∈ operands (constructTask m dsc record op.args) dsc,
      ApartFromTask dsc record R ∧ ApartFromTask dsc' record' R
        ∧ Set.EqOn (constructTask m dsc record op.args) m R.addrs := by
  intro R hR
  rw [operands_constructTask hp.jobTask] at hR
  obtain ⟨hown, hother⟩ := hp.buffers R hR
  exact ⟨hown, hother, fun x hx => constructTask_apply hown hx⟩

/-- **A call has the result of the kernel**, run on a task of the job's own. -/
theorem CallPlaced.execute_eq (hp : CallPlaced m dsc record dsc' record' job op)
    (hcall : op.rangeCheck = .ok)
    (hvalid : validate (constructTask m dsc record op.args) dsc = .success) :
    ∃ m₁, op.execute dsc' record' m
        = some (m₁, op.resultType.makeResult
          (SoftwareDevice.submit (constructTask m dsc record op.args) dsc).1 record)
      ∧ ∀ x, x ∉ Region.addrs ⟨dsc, descriptorSize⟩ → x ∉ Region.addrs ⟨record, recordSize⟩ →
          x ∉ Region.addrs ⟨dsc', descriptorSize⟩ → x ∉ Region.addrs ⟨record', recordSize⟩ →
          m₁ x = (SoftwareDevice.submit (constructTask m dsc record op.args) dsc).1 x := by
  have hoperands := hp.operands_apart
  obtain ⟨m₁, hexecute, hm₁⟩ := execute_result (m := m) hp.callTask
    (@holdsDescriptor_constructTask m dsc record op.args hp.jobTask) hp.jobTask.fits hcall
    hvalid hp.notes (fun R hR => (hoperands R hR).2) (fun R hR => (hoperands R hR).1.record)
    fun x hx => constructTask_record hp.jobTask hx
  exact ⟨m₁, hexecute, fun x hdsc hrec hdsc' hrec' =>
    hm₁ x hrec hdsc' hrec' (assignTask_apply hdsc hrec)⟩

/-- The kernel has left the status of its outcome. -/
theorem CallPlaced.getStatus_eq (hp : CallPlaced m dsc record dsc' record' job op) :
    getStatus (SoftwareDevice.submit (constructTask m dsc record op.args) dsc).1 record
      = some (outcome (constructTask m dsc record op.args) dsc).status := by
  have hstatus := getStatus_of_status
    (submit_outcome (@operationOf_constructTask m dsc record op.args hp.jobTask)
      op.operation_ne_batch).1
  rwa [@getCompletionRecord_constructTask m dsc record op.args hp.jobTask] at hstatus

/-- **Both interfaces do the same**: a job on the software path and `execute<software>` of the
operation it stands for leave the same memory to the caller, up to their tasks and the checksum,
and their answers say the same. -/
theorem job_execute_agrees (hardware : HardwareDevice) (scratch : ℕ) (umwait : Bool)
    (output : JobOutput) (hargs : job.submitted.makeTask m = op.args)
    (hjob : job.rangeCheck = .own .ok) (hcall : op.rangeCheck = .ok)
    (hp : CallPlaced m dsc record dsc' record' job op) :
    ∃ m₁ result m₂ job' output' status,
      op.execute dsc' record' m = some (m₁, result)
      ∧ job.execute hardware .software dsc record scratch umwait m output
        = some (m₂, job', output', status)
      ∧ SameAnswer op.resultType m₂ job' output output' result status
      ∧ (result.code = .ok ↔ status = .own .ok)
      ∧ ∀ x, x ∉ Region.addrs ⟨dsc, descriptorSize⟩ → x ∉ Region.addrs ⟨record, recordSize⟩ →
          x ∉ Region.addrs ⟨dsc', descriptorSize⟩ → x ∉ Region.addrs ⟨record', recordSize⟩ →
          (op.resultType = .crc → x ∉ Region.addrs ⟨job.crcChecksumPtr.toNat, 4⟩) →
          m₁ x = m₂ x := by
  -- the job makes the task that a call at the same place would make
  have hholds := @holdsDescriptor_constructTask m dsc record op.args hp.jobTask
  by_cases hvalid : validate (constructTask m dsc record op.args) dsc = .success
  · -- both run the kernel
    have hkept := eqOn_descriptor_constructTask hp.jobTask hholds op.operation_ne_batch hp.notes
      fun R hR => ⟨(hp.operands_apart R hR).1, (hp.operands_apart R hR).2.2⟩
    obtain ⟨m₁, hexecute, hm₁⟩ := hp.execute_eq hcall hvalid
    obtain ⟨m', waited', code, hwritten, hdone⟩ := @execute_software hardware m job op.args dsc
      record scratch umwait output hp.jobTask hjob hargs hvalid hkept
    obtain ⟨m₂, waited, hwrite, hcode, hcarried, hm₂⟩ := @carriedBy_writeResult record job.submitted
      op _ _ hp.getStatus_eq dsc output (crcChecksumPtr_submitted job ▸ hp.checksum)
    rw [hwrite] at hwritten
    obtain ⟨rfl, rfl, rfl⟩ := by simpa using hwritten
    have hanswer := @SameAnswer.executed op.resultType m₂
      { job.submitted with destinationLength := BitVec.ofNat 32 waited.destinationLength } output
      ⟨waited.offset, waited.result⟩ _ _ hcode hcarried
    refine ⟨m₁, _, m₂, _, _, _, hexecute, hdone, hanswer, hanswer.ok_iff,
      fun x hdsc hrec hdsc' hrec' hcrc => ?_⟩
    rw [hm₂ x (crcChecksumPtr_submitted job ▸ hcrc)]
    exact hm₁ x hdsc hrec hdsc' hrec'
  · -- neither does
    have hdone := @execute_software_invalid hardware m job op.args dsc record scratch umwait output
      hp.jobTask hjob hargs hvalid
    have hexecute := @execute_rejected m _ dsc' record' dsc record op hp.callTask hholds hcall
      hvalid
    have hanswer := @SameAnswer.rejected op.resultType (constructTask m dsc record op.args)
      job.submitted output output _ hvalid rfl
    refine ⟨_, _, _, _, _, _, hexecute, hdone, hanswer, hanswer.ok_iff,
      fun x hdsc hrec hdsc' hrec' _ => ?_⟩
    exact (assignTask_apply hdsc' hrec').trans (assignTask_apply hdsc hrec).symm

end Agree

/-- The task of a job is at `0x6000`, that of a call at `0x5000`, and all else below them. -/
theorem callPlaced_below {m : Memory} {job : UserJob} {op : SequenceOperation}
    (hbuffers : ∀ R ∈ op.buffers, R.base + R.size ≤ 0x5000)
    (hchecksum : job.crcChecksumPtr.toNat + 4 ≤ 0x5000) (hop : op.args.operation ≠ .applyDelta) :
    CallPlaced m 0x6000 0x6040 0x5000 0x5040 job op := by
  have hjob : TaskPlaced 0x6000 0x6040 := ⟨by decide, by decide⟩
  have hbelow : ∀ R : Region, R.base + R.size ≤ 0x5000 → ∀ base size, 0x5000 ≤ base →
      R.Apart ⟨base, size⟩ := by
    intro R hR base size hbase
    unfold Region.Apart
    simp only
    omega
  refine ⟨hjob, ⟨by decide, by decide⟩, fun R hR => ?_, fun _ => hbelow ⟨_, 4⟩ hchecksum _ _
    (by decide), fun happly => ?_⟩
  · have hR' := hbelow R (hbuffers R hR)
    exact ⟨⟨hR' _ _ (by decide), hR' _ _ (by decide)⟩, ⟨hR' _ _ (by decide), hR' _ _ (by decide)⟩⟩
  · rw [operationOf_constructTask hjob] at happly
    exact absurd (Option.some_injective _ happly) hop

/-- A checksum of nine bytes, which goes to address `0x3000`. -/
def sampleCrcJob : UserJob :=
  { sampleUpdateJob with sourceLength := 9#32, operation := 0x10#32, crcChecksumPtr := 0x3000#64 }

/-- A job and a call of the same checksum. -/
theorem job_execute_agrees_crc :
    ∃ m₁ result m₂ job' output' status,
      (SequenceOperation.crc ⟨0x1000#64, 9#32⟩ 0#32 0#16 0#8).execute 0x5000 0x5040 emptyDescriptor
        = some (m₁, result)
      ∧ sampleCrcJob.execute noHardware .software 0x6000 0x6040 0x7000 false emptyDescriptor ⟨0, 0⟩
        = some (m₂, job', output', status)
      ∧ (result.code = .ok ↔ status = .own .ok) := by
  have hp : CallPlaced emptyDescriptor 0x6000 0x6040 0x5000 0x5040 sampleCrcJob
      (.crc ⟨0x1000#64, 9#32⟩ 0#32 0#16 0#8) :=
    callPlaced_below (by decide) (by decide) (by decide)
  obtain ⟨m₁, result, m₂, job', output', status, hexecute, hdone, -, hok, -⟩ :=
    job_execute_agrees noHardware 0x7000 false ⟨0, 0⟩ (by decide) (by decide) rfl hp
  exact ⟨m₁, result, m₂, job', output', status, hexecute, hdone, hok⟩

/-! ### Where the interfaces differ -/

/-- The jobs that their range check turns away: a copy-only move whose source runs into its
destination, and a checksum that has no place to go to. -/
inductive UserJob.TurnedAway (job : UserJob) : ApiStatus → Prop
  | overlap (hop : job.op = some .memMove) (hcopy : copyOnly job.jobFlags = true)
      (hinto : RunsInto job.sourceFirstPtr job.destinationFirstPtr job.sourceLength) :
      TurnedAway job (.own .overlappingBufferError)
  | checksum (hop : job.op = some .crc ∨ job.op = some .copyCrc)
      (hnull : job.crcChecksumPtr = 0#64) : TurnedAway job .nullPointerError

section Differ

variable {m : Memory} {dsc record dsc' record' : ℕ} {job : UserJob} {op : SequenceOperation}

/-- What the range check of a job with an operation answers. -/
theorem rangeCheck_iff_turnedAway (hop : job.op ≠ none) (status : ApiStatus) :
    job.rangeCheck = status ∧ status ≠ .own .ok ↔ job.TurnedAway status := by
  constructor
  · rintro ⟨rfl, hne⟩
    obtain ⟨o, ho⟩ := Option.ne_none_iff_exists'.mp hop
    -- a checksum is turned away for its pointer
    have hcrc : job.op = some .crc ∨ job.op = some .copyCrc →
        rangeCheckCrc job.crcChecksumPtr ≠ .own .ok →
        job.TurnedAway (rangeCheckCrc job.crcChecksumPtr) := by
      intro h hfails
      have hnull := (rangeCheckCrc_cases job.crcChecksumPtr).resolve_left hfails
      rw [hnull]
      exact .checksum h (rangeCheckCrc_eq_nullPointer.mp hnull)
    rw [UserJob.rangeCheck, ho] at hne ⊢
    cases o
    case memMove =>
      have hover := (rangeCheckMemMove_cases _ _ _ _).resolve_left hne
      obtain ⟨hcopy, hinto⟩ := rangeCheckMemMove_eq_overlapping.mp hover
      simp only [hover]
      exact .overlap ho hcopy hinto
    case crc => exact hcrc (Or.inl ho) hne
    case copyCrc => exact hcrc (Or.inr ho) hne
    all_goals exact absurd rfl hne
  · rintro (⟨hmove, hcopy, hinto⟩ | ⟨hcrc, hnull⟩)
    · refine ⟨?_, by simp⟩
      rw [UserJob.rangeCheck, hmove]
      exact rangeCheckMemMove_eq_overlapping.mpr ⟨hcopy, hinto⟩
    · refine ⟨?_, by simp⟩
      have hcheck : job.rangeCheck = rangeCheckCrc job.crcChecksumPtr := by
        rcases hcrc with h | h <;> rw [UserJob.rangeCheck, h]
      rw [hcheck]
      exact rangeCheckCrc_eq_nullPointer.mpr hnull

/-- The operation of such a job has no result of its own but a status or a checksum. -/
theorem outcome_of_turnedAway {status : ApiStatus} (haway : job.TurnedAway status)
    (hargs : job.submitted.makeTask m = op.args) (hp : TaskPlaced dsc record) :
    (outcome (constructTask m dsc record op.args) dsc).status = .success := by
  have hop := @operationOf_constructTask m dsc record op.args hp
  have hof : ∀ o, job.op = some o → op.args.operation = o := by
    intro o ho
    rw [← hargs, operation_makeTask m ((op_submitted job).trans ho)]
  have hwrites : writesResult op.args.operation = false := by
    rcases haway with ⟨hmove, -, -⟩ | ⟨hcrc | hcrc, -⟩
    · rw [hof _ hmove]
      rfl
    · rw [hof _ hcrc]
      rfl
    · rw [hof _ hcrc]
      rfl
  rw [outcome_of_not_writesResult hop hwrites]

/-- **Where the interfaces differ**: a job is turned away by its range check, with an overlap or a
null pointer, and then nothing happens; `execute<software>` runs the kernel on the same operation
all the same, and reports success. -/
theorem job_execute_differs (hardware : HardwareDevice) (path : ExecutionPath) (scratch : ℕ)
    (umwait : Bool) (output : JobOutput) (hop : job.op ≠ none)
    (hargs : job.submitted.makeTask m = op.args) (hcall : op.rangeCheck = .ok)
    (hp : CallPlaced m dsc record dsc' record' job op)
    (hvalid : validate (constructTask m dsc record op.args) dsc = .success) (status : ApiStatus) :
    (job.rangeCheck = status ∧ status ≠ .own .ok ↔ job.TurnedAway status)
      ∧ (job.TurnedAway status →
        job.execute hardware path dsc record scratch umwait m output = some (m, job, output, status)
        ∧ ∃ m₁ result, op.execute dsc' record' m = some (m₁, result)
          ∧ result.code = .ok
          ∧ ∀ x, x ∉ Region.addrs ⟨dsc, descriptorSize⟩ → x ∉ Region.addrs ⟨record, recordSize⟩ →
            x ∉ Region.addrs ⟨dsc', descriptorSize⟩ → x ∉ Region.addrs ⟨record', recordSize⟩ →
            m₁ x = (SoftwareDevice.submit (constructTask m dsc record op.args) dsc).1 x) := by
  have hrange := rangeCheck_iff_turnedAway hop status
  refine ⟨hrange, fun haway => ?_⟩
  obtain ⟨hrejected, hne⟩ := hrange.mpr haway
  obtain ⟨m₁, hexecute, hm₁⟩ := hp.execute_eq hcall hvalid
  refine ⟨?_, m₁, _, hexecute, ?_, hm₁⟩
  · rw [UserJob.execute, UserJob.submit, hrejected, if_pos hne]
    exact if_pos hne
  · have hstatus := hp.getStatus_eq
    rw [outcome_of_turnedAway haway hargs hp.jobTask] at hstatus
    exact code_makeResult op.resultType hstatus

end Differ

/-- A copy-only move of sixteen bytes by eight, and a checksum with no place to go to: the jobs are
turned away, the calls are carried out. -/
theorem job_execute_differs_sample :
    (copyOnlyJob 0x1008#64).execute noHardware .software 0x6000 0x6040 0x7000 false
        (BitVec.ofNat 8) ⟨0, 0⟩
      = some (BitVec.ofNat 8, copyOnlyJob 0x1008#64, ⟨0, 0⟩, .own .overlappingBufferError)
      ∧ (∃ m₁ result, (SequenceOperation.memCopy ⟨0x1000#64, 16#32⟩ ⟨0x1008#64, 16#32⟩
            0#16).execute 0x5000 0x5040 (BitVec.ofNat 8) = some (m₁, result)
          ∧ result.code = .ok ∧ m₁ 0x1010 = 0x08)
      ∧ UserJob.execute noHardware .software 0x6000 0x6040 0x7000 false (BitVec.ofNat 8)
          { sampleCrcJob with crcChecksumPtr := 0#64 } ⟨0, 0⟩
        = some (BitVec.ofNat 8, { sampleCrcJob with crcChecksumPtr := 0#64 }, ⟨0, 0⟩,
          .nullPointerError)
      ∧ ∃ m₁ result, (SequenceOperation.crc ⟨0x1000#64, 9#32⟩ 0#32 0#16 0#8).execute 0x5000 0x5040
          (BitVec.ofNat 8) = some (m₁, result) ∧ result.code = .ok := by
  have hmove : CallPlaced (BitVec.ofNat 8) 0x6000 0x6040 0x5000 0x5040 (copyOnlyJob 0x1008#64)
      (.memCopy ⟨0x1000#64, 16#32⟩ ⟨0x1008#64, 16#32⟩ 0#16) :=
    callPlaced_below (by decide) (by decide) (by decide)
  have hcrc : CallPlaced (BitVec.ofNat 8) 0x6000 0x6040 0x5000 0x5040
      { sampleCrcJob with crcChecksumPtr := 0#64 } (.crc ⟨0x1000#64, 9#32⟩ 0#32 0#16 0#8) :=
    callPlaced_below (by decide) (by decide) (by decide)
  obtain ⟨hrejected, m₁, result, hexecute, hok, hm₁⟩ :=
    (job_execute_differs noHardware .software 0x7000 false ⟨0, 0⟩ (by decide) (by decide) rfl hmove
      (by decide) _).2 (.overlap (by decide) (by decide) (by decide))
  obtain ⟨hrejected', m₂, result', hexecute', hok', -⟩ :=
    (job_execute_differs noHardware .software 0x7000 false ⟨0, 0⟩ (by decide) (by decide) rfl hcrc
      (by decide) _).2 (.checksum (by decide) rfl)
  refine ⟨hrejected, ⟨m₁, result, hexecute, hok, ?_⟩, hrejected', m₂, result', hexecute', hok'⟩
  rw [hm₁ _ (notMem_addrs.mpr (by decide)) (notMem_addrs.mpr (by decide))
    (notMem_addrs.mpr (by decide)) (notMem_addrs.mpr (by decide))]
  decide

end DataMover
