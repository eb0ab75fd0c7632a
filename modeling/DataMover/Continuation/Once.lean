import DataMover.Continuation.Wait
import DataMover.DeltaRecord
import DataMover.JobApi

/-!
# At most one continuation

Both `wait` and `finished` of the automatic path continue a descriptor in software when
its record shows a page fault.  The continuation rewrites the descriptor, so a second one
would work on a shifted range.  It cannot happen: whatever the operation, the software
leaves a status that is neither zero nor a page fault, the merge of the records does not
touch it, and from then on every call finds the job finished.

## Main definitions

* `settled` — what one call makes of the memory.
* `AutomaticJob` — a submitted job on the automatic path.
* `HardwareStop` — what the hardware promises of a record with a page fault.

## Main results

* `wait_eq_settled`, `finished_eq_settled` — both entry points make the same of it.
* `settled_final` — after it the job is finished and shows no page fault.
* `continuation_once` — a sequence of calls of any kind.
-/

namespace DataMover

open ByteMemory

/-! ### The merge of two records -/

section Merge

variable {t prevRecord : Memory} {dsc x : ℕ}

/-- The notes the merge of a delta rebases, in the memory the software left. -/
def rebasedNotes (t : Memory) (dsc : ℕ) : Region :=
  ⟨CreateDeltaDescriptor.deltaRecordAddress.get t dsc,
    10 * ((CreateDeltaCompletionRecord.deltaRecordSize.get t (getCompletionRecord t dsc) + 9) / 10)⟩

theorem rebaseNotes_of_notMem_ceil {m : Memory} {begin size blocks : ℕ}
    (hx : x ∉ Region.addrs ⟨begin, 10 * ((size + 9) / 10)⟩) :
    rebaseNotes m begin size blocks x = m x := by
  have hx := notMem_addrs.mp hx
  unfold rebaseNotes
  refine Loop.iter_preserves (fun m : Memory => m x) (fun i t hi => ?_) m
  exact store_apply_of_notMem (by omega)

/-- Merging two records keeps the status byte, and all memory but the record and the
notes of a delta. -/
theorem accumulateRecords_apply
    (hdsc : Region.Apart ⟨getCompletionRecord t dsc, recordSize⟩ ⟨dsc, descriptorSize⟩)
    (hrec : x = getCompletionRecord t dsc
      ∨ x ∉ Region.addrs ⟨getCompletionRecord t dsc, recordSize⟩)
    (hnotes : operationOf t dsc = some .createDelta → x ∉ (rebasedNotes t dsc).addrs) :
    accumulateRecords t dsc prevRecord x = t x := by
  have hset : ∀ (u : Memory) (f : Field) (v : ℕ), 0 < f.offset → f.Within recordSize →
      f.set u (getCompletionRecord t dsc) v x = u x := by
    intro u f v hpos hf
    rcases hrec with rfl | hrec
    · exact store_apply_of_notMem (by omega)
    · exact set_apply_of_notMem hrec hf v
  -- every merge writes record fields past the status; one also rebases notes
  unfold accumulateRecords
  cases hop : operationOf t dsc with
  | none => rfl
  | some op =>
    cases op with
    | nop | drain | batch => rfl
    | compare => exact hset _ _ _ (by decide) (by decide)
    | createDelta =>
      simp only [accumulateRecordsCreateDelta]
      rw [Field.addAssign, hset _ _ _ (by decide) (by decide), rebaseNotes_of_notMem_ceil,
        Field.addAssign, hset _ _ _ (by decide) (by decide)]
      rw [Field.get_addAssign_elsewhere hdsc (by decide) (by decide),
        Field.get_addAssign_of_apart (by decide)]
      exact hnotes hop
    | _ => exact hset _ _ _ (by decide) (by decide)

end Merge

/-! ### One call -/

/-- What the hardware promises of a record that shows a page fault: it claims no more
work than was asked for, and the notes left of a delta point into its destination. -/
structure HardwareStop (m : Memory) (dsc : ℕ) : Prop where
  bytes_le : AnyCompletionRecord.bytesCompleted.get m (getCompletionRecord m dsc) ≤ requested m dsc
  delta_le : operationOf m dsc = some .createDelta →
    CreateDeltaCompletionRecord.deltaRecordSize.get m (getCompletionRecord m dsc)
      ≤ CreateDeltaDescriptor.maximumDeltaRecordSize.get m dsc
  notes : DeltaWithin (updateForContinuation m dsc) dsc

/-- The record of the descriptor shows a page fault. -/
def faulted (m : Memory) (dsc : ℕ) : Bool :=
  isPageFault (AnyCompletionRecord.status.get m (getCompletionRecord m dsc))

/-- What one call makes of the memory: the continuation if there is a page fault. -/
def settled (m : Memory) (dsc : ℕ) : Memory :=
  if faulted m dsc then
    accumulateRecords (resumed m dsc) dsc (clone m (getCompletionRecord m dsc) recordSize)
  else m

theorem operationOf_ne_none {m : Memory} {dsc : ℕ} (hvalid : validate m dsc = .success) :
    operationOf m dsc ≠ none := by
  intro h
  rw [validate, h] at hvalid
  exact absurd hvalid (by simp)

theorem HardwareStop.resumable {m : Memory} {dsc : ℕ} (h : HardwareStop m dsc)
    (hvalid : validate m dsc = .success) : Resumable m dsc where
  bytes_le := h.bytes_le
  delta_le := h.delta_le
  insert_size hop := validate_difInsert hop hvalid

/-- A final status is not zero and does not show a page fault. -/
theorem FinalStatus.settles {s : ExecutionStatus} (hs : FinalStatus s) :
    s.toUnderlying ≠ 0 ∧ isPageFault s.toUnderlying = false := by
  cases s with
  | processing => exact absurd rfl hs.1
  | pageFaultDuringProcessing => exact absurd rfl hs.2
  | _ => decide

/-- The software leaves a final status in the record. -/
theorem exists_status_resumed {m : Memory} {dsc : ℕ} (hop : operationOf m dsc ≠ none) :
    ∃ s, FinalStatus s
      ∧ AnyCompletionRecord.status.get (resumed m dsc) (getCompletionRecord m dsc)
        = s.toUnderlying := by
  have hop' : operationOf (updateForContinuation m dsc) dsc ≠ none := by
    rw [operationOf_updateForContinuation]
    exact hop
  obtain ⟨t, s, hs, heq⟩ := exists_submit_eq_setStatus hop'
  refine ⟨s, hs, ?_⟩
  rw [resumed, heq, getCompletionRecord_updateForContinuation, status_setStatus]

section Settled

variable {m : Memory} {dsc : ℕ} (hp : Placed m dsc) (hvalid : validate m dsc = .success)
  (hbatch : operationOf m dsc ≠ some .batch) (hstop : faulted m dsc = true → HardwareStop m dsc)
include hp hvalid hbatch

/-- The notes that are rebased lie in the buffer of the continued descriptor. -/
theorem rebasedNotes_inside (h : HardwareStop m dsc) (hop : operationOf m dsc = some .createDelta) :
    ∃ R ∈ operands (updateForContinuation m dsc) dsc,
      (rebasedNotes (resumed m dsc) dsc).Inside R := by
  have hr := h.resumable hvalid
  have hop' : operationOf (updateForContinuation m dsc) dsc = some .createDelta := by
    rw [operationOf_updateForContinuation, hop]
  refine ⟨⟨CreateDeltaDescriptor.deltaRecordAddress.get (updateForContinuation m dsc) dsc,
    CreateDeltaDescriptor.maximumDeltaRecordSize.get (updateForContinuation m dsc) dsc⟩, ?_, ?_⟩
  · simp [operands, hop']
  · obtain ⟨hsize, -⟩ := submit_createDelta hop' rfl rfl rfl rfl rfl
    have hlt : CreateDeltaDescriptor.maximumDeltaRecordSize.get (updateForContinuation m dsc) dsc
        < 2 ^ 32 := Field.get_lt _ _ _
    have hwhole := dmlRefCreateDelta_size (updateForContinuation m dsc)
      (CreateDeltaDescriptor.source1Address.get (updateForContinuation m dsc) dsc)
      (CreateDeltaDescriptor.source2Address.get (updateForContinuation m dsc) dsc)
      (AnyDescriptor.transferSize.get (updateForContinuation m dsc) dsc)
      (CreateDeltaDescriptor.deltaRecordAddress.get (updateForContinuation m dsc) dsc) _ hlt
    rw [getCompletionRecord_updateForContinuation] at hsize
    have hdsc := Field.get_congr (f := CreateDeltaDescriptor.deltaRecordAddress) (by decide)
      (resumed_descriptor hp hr hbatch h.notes)
    unfold rebasedNotes
    rw [getCompletionRecord_resumed hp hr hbatch h.notes, hdsc, resumed, hsize]
    refine ⟨le_rfl, ?_⟩
    simp only
    omega

/-- The merge keeps the status byte and the descriptor the software left. -/
theorem settled_eq_resumed (hf : faulted m dsc = true) (h : HardwareStop m dsc) {x : ℕ}
    (hx : x = getCompletionRecord m dsc ∨ x ∈ Region.addrs ⟨dsc, descriptorSize⟩) :
    settled m dsc x = resumed m dsc x := by
  have hr := h.resumable hvalid
  have hrec := getCompletionRecord_resumed hp hr hbatch h.notes
  have hp' := hp.updateForContinuation hr
  rw [settled, if_pos hf]
  refine accumulateRecords_apply ?_ ?_ fun hop hmem => ?_
  · rw [hrec]
    exact hp.record_apart
  · rw [hrec]
    exact hx.imp_right fun hx => hp.record_apart.symm.notMem hx
  · rw [operationOf_resumed hp hr hbatch h.notes] at hop
    obtain ⟨R, hR, hin⟩ := rebasedNotes_inside hp hvalid hbatch h hop
    have hxR : x ∈ R.addrs := by
      rw [Region.mem_addrs] at hmem ⊢
      exact ⟨hin.1.trans hmem.1, lt_of_lt_of_le hmem.2 hin.2⟩
    rcases hx with rfl | hx
    · have hrecord := (hp'.apart_record R hR).notMem hxR
      rw [getCompletionRecord_updateForContinuation] at hrecord
      refine hrecord (Region.mem_addrs.mpr ⟨le_rfl, ?_⟩)
      simp
    · exact (hp'.apart_descriptor R hR).notMem hxR hx

include hstop in
/-- The descriptor of a settled job still has its record. -/
theorem getCompletionRecord_settled :
    getCompletionRecord (settled m dsc) dsc = getCompletionRecord m dsc := by
  cases hf : faulted m dsc with
  | false => rw [settled, hf]; rfl
  | true =>
    have h := hstop hf
    rw [← getCompletionRecord_resumed hp (h.resumable hvalid) hbatch h.notes]
    exact getCompletionRecord_congr fun x hx =>
      settled_eq_resumed hp hvalid hbatch hf h (Or.inr hx)

/-- The status byte of a settled job. -/
theorem status_settled (hf : faulted m dsc = true) (h : HardwareStop m dsc) :
    AnyCompletionRecord.status.get (settled m dsc) (getCompletionRecord m dsc)
      = AnyCompletionRecord.status.get (resumed m dsc) (getCompletionRecord m dsc) := by
  refine load_congr fun i hi => ?_
  obtain rfl : i = 0 := Nat.lt_one_iff.mp hi
  exact settled_eq_resumed hp hvalid hbatch hf h (Or.inl rfl)

include hstop in
/-- **A settled job is finished and shows no page fault.** -/
theorem settled_final (hdone : Software.finished m dsc = true) :
    Software.finished (settled m dsc) dsc = true ∧ faulted (settled m dsc) dsc = false := by
  rw [Software.finished_iff, faulted, getCompletionRecord_settled hp hvalid hbatch hstop]
  cases hf : faulted m dsc with
  | false =>
    rw [Software.finished_iff] at hdone
    rw [settled, hf]
    exact ⟨hdone, hf⟩
  | true =>
    obtain ⟨s, hs, hstatus⟩ := exists_status_resumed (operationOf_ne_none hvalid)
    rw [status_settled hp hvalid hbatch hf (hstop hf), hstatus]
    exact hs.settles

end Settled

/-! ### Both entry points -/

section Calls

variable {m : Memory} {dsc : ℕ}

/-- Without a page fault a finished job is returned as it is. -/
theorem settled_of_not_faulted (h : faulted m dsc = false) : settled m dsc = m := by
  rw [settled, h]
  rfl

variable (hp : Placed m dsc) (hvalid : validate m dsc = .success)
  (hbatch : operationOf m dsc ≠ some .batch) (hstop : faulted m dsc = true → HardwareStop m dsc)
  (hdone : Software.finished m dsc = true)
include hp hvalid hbatch hstop hdone

/-- **A wait settles the job.** -/
theorem wait_eq_settled (umwait : Bool) :
    Automatic.wait m dsc umwait = some (settled m dsc) := by
  cases hf : faulted m dsc with
  | false =>
    rw [settled_of_not_faulted hf]
    exact Automatic.wait_of_no_pageFault hf hdone umwait
  | true =>
    have h := hstop hf
    rw [settled, if_pos hf]
    exact wait_eq hp (h.resumable hvalid) hbatch h.notes hf (operationOf_ne_none hvalid) umwait

/-- **A check settles it as well**, and says that it is finished. -/
theorem finished_eq_settled : Automatic.finished m dsc = some (settled m dsc, true) := by
  have hfinal := (settled_final hp hvalid hbatch hstop hdone).1
  cases hf : faulted m dsc with
  | false =>
    have hno : isPageFault (AnyCompletionRecord.status.get m (getCompletionRecord m dsc)) = false :=
      hf
    rw [settled_of_not_faulted hf]
    simp [Automatic.finished, Hardware.finished, hdone, hno]
  | true =>
    have h := hstop hf
    have hwait := wait_eq_settled hp hvalid hbatch hstop hdone true
    have hyes : isPageFault (AnyCompletionRecord.status.get m (getCompletionRecord m dsc)) = true :=
      hf
    -- `finished` runs the code of `wait` once the hardware is done
    simp only [Automatic.wait, Hardware.wait, Software.wait_of_finished hdone true,
      Option.bind_eq_bind, Option.bind_some, hyes, if_true] at hwait
    simp only [Automatic.finished, Hardware.finished, hdone, hyes, Bool.and_self, if_true]
    cases hrest : Software.wait (Software.submit (updateForContinuation m dsc) dsc).1 dsc true with
    | none =>
      rw [hrest] at hwait
      simp at hwait
    | some t =>
      rw [hrest] at hwait
      simp only [Option.bind_eq_bind, Option.bind_some, Option.pure_def, Option.some.injEq]
        at hwait ⊢
      rw [hwait, hfinal]

end Calls

/-! ### The calls of the API -/

/-- A job on the automatic path, submitted and validated, that is not a batch: its task
has the descriptor and the record, all its objects are apart, and so is the caller's
checksum from the task. -/
structure AutomaticJob (m : Memory) (job : Job) : Prop where
  path : job.path = .automatic
  record : getCompletionRecord m job.dsc = job.record
  operation : operationOf m job.dsc = some job.operation
  valid : validate m job.dsc = .success
  not_batch : job.operation ≠ .batch
  placed : Placed m job.dsc
  crc_descriptor : Region.Apart ⟨job.crcChecksumPtr, 4⟩ ⟨job.dsc, descriptorSize⟩
  crc_record : Region.Apart ⟨job.crcChecksumPtr, 4⟩ ⟨job.record, recordSize⟩

theorem AutomaticJob.not_batch_of {m : Memory} {job : Job} (hjob : AutomaticJob m job) :
    operationOf m job.dsc ≠ some .batch := by
  rw [hjob.operation]
  exact fun h => hjob.not_batch (Option.some.inj h)

section Outcome

variable {m : Memory} {job : Job}

/-- Writing the outcome keeps what a call reads of the job, and all memory but the
checksum. -/
theorem writeResult_frame (m : Memory) (job : Job) :
    ((writeResult m job).2.1.path = job.path ∧ (writeResult m job).2.1.dsc = job.dsc
        ∧ (writeResult m job).2.1.record = job.record)
      ∧ ∀ x, x ∉ Region.addrs ⟨job.crcChecksumPtr, 4⟩ → (writeResult m job).1 x = m x := by
  unfold writeResult
  cases job.operation with
  | crc | copyCrc =>
    refine ⟨⟨rfl, rfl, rfl⟩, fun x hx => ?_⟩
    exact store_apply_of_notMem (notMem_addrs.mp hx)
  | _ => exact ⟨⟨rfl, rfl, rfl⟩, fun _ _ => rfl⟩

theorem store_store_self (m : Memory) (a w v : ℕ) :
    store (store m a w v) a w v = store m a w v := by
  funext x
  rw [store_apply]
  split
  · next h => rw [store_apply, if_pos h]
  · rfl

/-- **Writing the outcome a second time changes nothing** and gives the same answer. -/
theorem writeResult_writeResult
    (hcrc : Region.Apart ⟨job.crcChecksumPtr, 4⟩ ⟨job.record, recordSize⟩) :
    writeResult (writeResult m job).1 (writeResult m job).2.1 = writeResult m job := by
  have hstore : ∀ (f : Field) (v : ℕ), f.Within recordSize →
      f.get (store m job.crcChecksumPtr 4 v) job.record = f.get m job.record := by
    intro f v hf
    refine Field.get_congr hf fun x hx => ?_
    exact store_apply_of_notMem (notMem_addrs.mp (hcrc.symm.notMem hx))
  -- only a checksum is written to memory, and the record is not there
  obtain ⟨path, dsc, record, op, dst, crc, length, offset, result⟩ := job
  cases op with
  | crc | copyCrc =>
    have hstatus := fun v => hstore AnyCompletionRecord.status v (by decide)
    have hvalue := fun v => hstore CrcCompletionRecord.crcValue v (by decide)
    simp only [writeResult, writeResultCrc, withStatus, getStatus, getCrcValue] at hstatus hvalue ⊢
    rw [hvalue, hstatus, store_store_self, hstatus]
  | _ => rfl

end Outcome

section Once

variable {m : Memory} {job : Job} (hjob : AutomaticJob m job)
  (hstop : faulted m job.dsc = true → HardwareStop m job.dsc)
  (hdone : Software.finished m job.dsc = true)
include hjob hstop hdone

/-- One call of either kind settles the job and writes the outcome. -/
theorem call_eq (c : Job.Call) : job.call m c = some (writeResult (settled m job.dsc) job) := by
  have hbatch := hjob.not_batch_of
  cases c with
  | check =>
    have hfinished := finished_eq_settled hjob.placed hjob.valid hbatch hstop hdone
    simp [Job.call, Job.check, hjob.path, hfinished]
  | wait umwait =>
    have hwait := wait_eq_settled hjob.placed hjob.valid hbatch hstop hdone umwait
    simp [Job.call, Job.wait, hjob.path, hwait]

/-- The outcome written does not bring the page fault back. -/
theorem faulted_writeResult :
    faulted (writeResult (settled m job.dsc) job).1 job.dsc = false
      ∧ Software.finished (writeResult (settled m job.dsc) job).1 job.dsc = true := by
  have hbatch := hjob.not_batch_of
  obtain ⟨hfinal, hno⟩ := settled_final hjob.placed hjob.valid hbatch hstop hdone
  have hrecord := getCompletionRecord_settled hjob.placed hjob.valid hbatch hstop
  have hframe := (writeResult_frame (settled m job.dsc) job).2
  have hrec : getCompletionRecord (writeResult (settled m job.dsc) job).1 job.dsc
      = getCompletionRecord (settled m job.dsc) job.dsc :=
    getCompletionRecord_congr fun x hx => hframe x (hjob.crc_descriptor.symm.notMem hx)
  have hkept : Set.EqOn (writeResult (settled m job.dsc) job).1 (settled m job.dsc)
      (Region.addrs ⟨job.record, recordSize⟩) := fun x hx =>
    hframe x (hjob.crc_record.symm.notMem hx)
  have hstatus : AnyCompletionRecord.status.get (writeResult (settled m job.dsc) job).1 job.record
      = AnyCompletionRecord.status.get (settled m job.dsc) job.record :=
    Field.get_congr (by decide) hkept
  -- status and record address are read from places the checksum is apart from
  rw [hrecord, hjob.record] at hrec
  rw [Software.finished_iff, hrecord, hjob.record] at hfinal
  rw [faulted, hrecord, hjob.record] at hno
  constructor
  · rw [faulted, hrec, hstatus]
    exact hno
  · rw [Software.finished_iff, hrec, hstatus]
    exact hfinal

end Once

/-- A finished job without a page fault is only read. -/
theorem call_of_not_faulted {m : Memory} {job : Job} (hpath : job.path = .automatic)
    (hdone : Software.finished m job.dsc = true) (hno : faulted m job.dsc = false) (c : Job.Call) :
    job.call m c = some (writeResult m job) := by
  have hstatus : isPageFault (AnyCompletionRecord.status.get m (getCompletionRecord m job.dsc))
      = false := hno
  cases c with
  | check =>
    simp [Job.call, Job.check, hpath, Automatic.finished, Hardware.finished, hdone, hstatus]
  | wait umwait =>
    simp [Job.call, Job.wait, hpath, Automatic.wait_of_no_pageFault hstatus hdone umwait]

/-- Calls that change nothing and give one answer give it any number of times. -/
theorem calls_of_fixed {m : Memory} {job : Job} {status : JobStatus}
    (h : ∀ c, job.call m c = some (m, job, status)) (cs : List Job.Call) :
    job.calls m cs = some (m, job, List.replicate cs.length status) := by
  induction cs with
  | nil => rfl
  | cons c cs ih => simp [Job.calls, h c, ih, List.replicate_succ]

/-- **The continuation runs at most once.**  The first call runs it if the record shows a
page fault; after it there is none, and every further sequence of calls returns, leaves
descriptor, record, memory and job as they are and repeats the answer. -/
theorem continuation_once {m : Memory} {job : Job} (hjob : AutomaticJob m job)
    (hstop : faulted m job.dsc = true → HardwareStop m job.dsc)
    (hdone : Software.finished m job.dsc = true) (first : Job.Call) :
    ∃ m' job' status, job.call m first = some (m', job', status)
      ∧ (faulted m job.dsc = true →
          (m', job', status) = writeResult (accumulateRecords (resumed m job.dsc) job.dsc
            (clone m (getCompletionRecord m job.dsc) recordSize)) job)
      ∧ (faulted m job.dsc = false → (m', job', status) = writeResult m job)
      ∧ faulted m' job'.dsc = false
      ∧ ∀ later : List Job.Call,
          job'.calls m' later = some (m', job', List.replicate later.length status) := by
  obtain ⟨⟨hpath, hdsc, -⟩, -⟩ := writeResult_frame (settled m job.dsc) job
  obtain ⟨hno, hfinished⟩ := faulted_writeResult hjob hstop hdone
  have hfixed := writeResult_writeResult (m := settled m job.dsc) hjob.crc_record
  refine ⟨(writeResult (settled m job.dsc) job).1, (writeResult (settled m job.dsc) job).2.1,
    (writeResult (settled m job.dsc) job).2.2, call_eq hjob hstop hdone first, fun hf => ?_,
    fun hf => ?_, ?_, fun later => ?_⟩
  · rw [settled, if_pos hf]
  · rw [settled_of_not_faulted hf]
  · rw [hdsc]
    exact hno
  · refine calls_of_fixed (fun c => ?_) later
    rw [call_of_not_faulted (hpath.trans hjob.path) (by rw [hdsc]; exact hfinished)
      (by rw [hdsc]; exact hno) c, hfixed]

/-- A copy of eight bytes that faulted on a write after four. -/
def faultedMove : Memory :=
  AnyCompletionRecord.status.set (writeFault (rawDescriptor .memMove 64 32 128 160 8) 32 4) 32 0x83

/-- The job of the faulted copy. -/
def faultedJob : Job where
  path := .automatic
  dsc := 64
  record := 32
  operation := .memMove
  destinationFirstPtr := 160
  crcChecksumPtr := 512
  destinationLength := 8
  offset := 0
  result := 0

/-- Three calls on the faulted copy: one continuation, three times the same answer. -/
theorem continuation_once_move :
    faulted faultedMove 64 = true
      ∧ ∃ m' job' status, faultedJob.call faultedMove .check = some (m', job', status)
        ∧ job'.calls m' [.wait true, .check]
          = some (m', job', List.replicate 2 status) := by
  have hfault : faulted faultedMove 64 = true := by decide
  have hjob : AutomaticJob faultedMove faultedJob := by
    constructor <;> decide
  have hop : operationOf faultedMove 64 = some .memMove := by decide
  have hstop : HardwareStop faultedMove 64 := by
    refine ⟨by decide, fun h => ?_, fun h => ?_⟩
    · rw [hop] at h
      exact nomatch h
    · rw [operationOf_updateForContinuation, hop] at h
      exact nomatch h
  obtain ⟨m', job', status, hcall, -, -, -, hlater⟩ :=
    continuation_once hjob (fun _ => hstop) (by decide) .check
  exact ⟨hfault, m', job', status, hcall, hlater [.wait true, .check]⟩

end DataMover
