import DataMover.DeltaResult
import DataMover.SequenceBatch

/-!
# The results of the operations

`execute` and a handler read the result of an operation off its completion record
(`make_result.hpp`); an operation that is not run has a result with a status only.

A kernel leaves the same result wherever its task is, so that the result of a call is that of any
other task with the same operation.

## Main definitions

* `ResultType`, `OperationResult` — the result structures and their values.
* `ResultType.makeResult` — what is read off a record.
* `SequenceOperation.execute` — `execute<software>` with its whole result.

## Main results

* `makeResult_relocated` — a kernel leaves the same result wherever its task is.
* `execute_result` — the result of a call is that of any other task.
-/

namespace DataMover

open ByteMemory

/-! ### Result types -/

/-- The result structures: seven of them have a status only. -/
inductive ResultType
  | status | compare | createDelta | crc
  deriving DecidableEq, Repr

/-- The values of the result structures. -/
inductive OperationResult
  | status (status : StatusCode)
  | compare (status : StatusCode) (result : Option ComparisonResult) (mismatch : ℕ)
  | createDelta (result : MadeDeltaResult)
  | crc (status : StatusCode) (crcValue : ℕ)
  deriving DecidableEq, Repr

namespace ResultType

/-- `result_type{ status }`: the other members are zero. -/
def ofStatus : ResultType → StatusCode → OperationResult
  | .status, code => .status code
  | .compare, code => .compare code (some .equal) 0
  | .createDelta, code => .createDelta ⟨code, some .equal, 0, 0⟩
  | .crc, code => .crc code 0

/-- `make_result`. -/
def makeResult (type : ResultType) (m : Memory) (record : ℕ) : OperationResult :=
  match type with
  | .status => .status (ExecutionStatus.toOwn (getStatus m record))
  | .compare => .compare (ExecutionStatus.toOwn (getStatus m record))
      (ComparisonResult.ofUnderlying (getResult m record)) (getBytesCompleted m record)
  | .createDelta => .createDelta (DataMover.makeResult m record)
  | .crc => .crc (ExecutionStatus.toOwn (getStatus m record)) (getCrcValue m record)

/-- The fields of a record that a result is made of. -/
def fields : ResultType → List Field
  | .status => [AnyCompletionRecord.status]
  | .compare => [AnyCompletionRecord.status, AnyCompletionRecord.result,
      AnyCompletionRecord.bytesCompleted]
  | .createDelta => [AnyCompletionRecord.status, AnyCompletionRecord.result,
      AnyCompletionRecord.bytesCompleted, CreateDeltaCompletionRecord.deltaRecordSize]
  | .crc => [AnyCompletionRecord.status, CrcCompletionRecord.crcValue]

theorem status_mem_fields (type : ResultType) : AnyCompletionRecord.status ∈ type.fields := by
  cases type <;> exact List.mem_cons_self ..

theorem within_of_mem_fields {type : ResultType} : ∀ f ∈ type.fields, f.Within recordSize := by
  cases type <;> decide

/-- A result is made of its fields. -/
theorem makeResult_congr {type : ResultType} {m m' : Memory} {record record' : ℕ}
    (h : ∀ f ∈ type.fields, f.get m record = f.get m' record') :
    type.makeResult m record = type.makeResult m' record' := by
  have hstatus := h _ (status_mem_fields type)
  cases type with
  | status => simp only [makeResult, getStatus, hstatus]
  | compare =>
    simp only [makeResult, getStatus, getResult, getBytesCompleted, hstatus,
      h AnyCompletionRecord.result (by decide), h AnyCompletionRecord.bytesCompleted (by decide)]
  | createDelta =>
    simp only [makeResult, DataMover.makeResult, getStatus, getResult, getBytesCompleted,
      getDeltaRecordSize, hstatus, h AnyCompletionRecord.result (by decide),
      h AnyCompletionRecord.bytesCompleted (by decide),
      h CreateDeltaCompletionRecord.deltaRecordSize (by decide)]
  | crc =>
    simp only [makeResult, getStatus, getCrcValue, hstatus,
      h CrcCompletionRecord.crcValue (by decide)]

end ResultType

/-- `operation_t::result_type`. -/
def SequenceOperation.resultType : SequenceOperation → ResultType
  | .nop _ | .memMove _ _ _ | .memCopy _ _ _ | .fill _ _ _ | .dualcast _ _ _ _ _
  | .applyDelta _ _ _ _ | .cacheFlush _ _ => .status
  | .compare _ _ _ _ | .comparePattern _ _ _ _ => .compare
  | .createDelta _ _ _ _ _ => .createDelta
  | .crc _ _ _ _ | .copyCrc _ _ _ _ _ => .crc

/-- `execute<software>`, with the whole result. -/
def SequenceOperation.execute (op : SequenceOperation) (dsc record : ℕ) (m : Memory) :
    Option (Memory × OperationResult) :=
  if op.rangeCheck ≠ .ok then some (m, op.resultType.ofStatus op.rangeCheck)
  else
    let m := constructTask m dsc record op.args
    let validationStatus := Software.validate m dsc
    if validationStatus ≠ .success then some (m, op.resultType.ofStatus validationStatus.toOwn)
    else
      let (m, submissionStatus) := Software.submit m dsc
      if submissionStatus ≠ .success then some (m, op.resultType.ofStatus .error)
      else do
        let m ← Software.wait m dsc false
        return (m, op.resultType.makeResult m record)

/-! ### The result does not depend on the place -/

section Fields

variable {m : Memory} {dsc : ℕ}

/-- A comparison reports how far it went. -/
theorem bytesCompleted_completeCompare (record : ℕ) (check : Bool) (expected : ℕ) (r : ℕ × ℕ) :
    AnyCompletionRecord.bytesCompleted.get (Kernels.completeCompare m record check expected r)
      record = r.1 % 2 ^ 32 := by
  simp only [Kernels.completeCompare]
  rw [get_setStatus (by decide), Field.get_set_of_apart (by decide), Field.get_set_self]
  rfl

/-- A delta leaves the bytes completed as they were. -/
theorem bytesCompleted_createDelta (hop : operationOf m dsc = some .createDelta)
    (hdst : ∀ R ∈ destinations m dsc, R.Apart ⟨getCompletionRecord m dsc, recordSize⟩) :
    AnyCompletionRecord.bytesCompleted.get (SoftwareDevice.submit m dsc).1
        (getCompletionRecord m dsc)
      = AnyCompletionRecord.bytesCompleted.get m (getCompletionRecord m dsc) := by
  rw [SoftwareDevice.submit, hop]
  simp only [Kernels.createDelta]
  rw [get_setStatus (by decide), Field.get_set_of_apart (by decide),
    Field.get_set_of_apart (by decide)]
  have hwithin : AnyCompletionRecord.bytesCompleted.Within recordSize := by decide
  refine Field.get_congr hwithin fun x hx => ?_
  have hap := hdst _ (by rw [destinations, hop]; exact List.mem_cons_self ..)
  exact dmlRefCreateDelta_of_notMem (notMem_addrs.mp (hap.symm.notMem hx))

theorem deltaRecordSize_createDelta (hop : operationOf m dsc = some .createDelta) :
    CreateDeltaCompletionRecord.deltaRecordSize.get (SoftwareDevice.submit m dsc).1
        (getCompletionRecord m dsc)
      = (dmlRefCreateDelta m (CreateDeltaDescriptor.source1Address.get m dsc)
          (CreateDeltaDescriptor.source2Address.get m dsc) (AnyDescriptor.transferSize.get m dsc)
          (CreateDeltaDescriptor.deltaRecordAddress.get m dsc)
          (CreateDeltaDescriptor.maximumDeltaRecordSize.get m dsc)).2.1 % 2 ^ 32 := by
  rw [SoftwareDevice.submit, hop]
  simp only [Kernels.createDelta]
  rw [get_setStatus (by decide), Field.get_set_of_apart (by decide), Field.get_set_self]
  rfl

end Fields

theorem SequenceOperation.operation_ne_batch (op : SequenceOperation) :
    op.args.operation ≠ .batch := by
  cases op <;> simp [SequenceOperation.args, DescriptorArgs.operation]

section Relocated

variable {t t' : Memory} {d d' : ℕ} (h : SameFields t d t' d')
  (hread : ∀ R ∈ sources t d, Set.EqOn t t' R.addrs)
include h hread

theorem status_relocated {op : Operation} (hop : operationOf t d = some op) (hbatch : op ≠ .batch) :
    AnyCompletionRecord.status.get (SoftwareDevice.submit t d).1 (getCompletionRecord t d)
      = AnyCompletionRecord.status.get (SoftwareDevice.submit t' d').1
          (getCompletionRecord t' d') := by
  rw [(submit_outcome hop hbatch).1, (submit_outcome (h.operationOf_eq.trans hop) hbatch).1,
    outcome_congr h hread]

theorem result_relocated {op : Operation} (hop : operationOf t d = some op) (hbatch : op ≠ .batch)
    (hwrites : writesResult op = true) :
    AnyCompletionRecord.result.get (SoftwareDevice.submit t d).1 (getCompletionRecord t d)
      = AnyCompletionRecord.result.get (SoftwareDevice.submit t' d').1
          (getCompletionRecord t' d') := by
  rw [(submit_outcome hop hbatch).2 hwrites,
    (submit_outcome (h.operationOf_eq.trans hop) hbatch).2 hwrites, outcome_congr h hread]

/-- How far a comparison goes is read off the descriptor and the sources. -/
theorem bytesCompleted_relocated
    (hop : operationOf t d = some .compare ∨ operationOf t d = some .comparePattern) :
    AnyCompletionRecord.bytesCompleted.get (SoftwareDevice.submit t d).1 (getCompletionRecord t d)
      = AnyCompletionRecord.bytesCompleted.get (SoftwareDevice.submit t' d').1
          (getCompletionRecord t' d') := by
  have hn := transferSize_lt t d
  rcases hop with hop | hop
  · rw [SoftwareDevice.submit, SoftwareDevice.submit, h.operationOf_eq, hop]
    rw [sources, hop] at hread
    simp only [Kernels.compare, bytesCompleted_completeCompare]
    simp (disch := decide) only [h _]
    rw [dmlRefCompare_congr (fun i hi => eqOn_bytes (hread _ (by simp)) hi)
      (fun i hi => eqOn_bytes (hread _ (by simp)) hi)]
  · rw [SoftwareDevice.submit, SoftwareDevice.submit, h.operationOf_eq, hop]
    rw [sources, hop] at hread
    simp only [Kernels.comparePattern, bytesCompleted_completeCompare]
    simp (disch := decide) only [h _]
    rw [dmlRefComparePattern_congr (Field.get_lt _ t d) hn (hread _ (by simp))]

theorem deltaRecordSize_relocated (hop : operationOf t d = some .createDelta) :
    CreateDeltaCompletionRecord.deltaRecordSize.get (SoftwareDevice.submit t d).1
        (getCompletionRecord t d)
      = CreateDeltaCompletionRecord.deltaRecordSize.get (SoftwareDevice.submit t' d').1
          (getCompletionRecord t' d') := by
  rw [deltaRecordSize_createDelta hop, deltaRecordSize_createDelta (h.operationOf_eq.trans hop)]
  rw [sources, hop] at hread
  simp (disch := decide) only [h _]
  rw [(dmlRefCreateDelta_sameChange _ _ (hread _ (List.mem_cons_self ..))
    (hread _ (List.mem_cons_of_mem _ (List.mem_cons_self ..)))).2]

/-- The checksum is that of the source, after the copy where there is one. -/
theorem crcValue_relocated
    (hop : operationOf t d = some .crc ∨ operationOf t d = some .copyCrc) :
    CrcCompletionRecord.crcValue.get (SoftwareDevice.submit t d).1 (getCompletionRecord t d)
      = CrcCompletionRecord.crcValue.get (SoftwareDevice.submit t' d').1
          (getCompletionRecord t' d') := by
  have hn := transferSize_lt t d
  rcases hop with hop | hop
  · rw [SoftwareDevice.submit, SoftwareDevice.submit, h.operationOf_eq, hop]
    rw [sources, hop] at hread
    simp only [Kernels.crc]
    rw [get_setStatus (by decide), get_setStatus (by decide), Field.get_set_self,
      Field.get_set_self]
    simp (disch := decide) only [h _]
    rw [crcOf_congr fun i hi => eqOn_bytes (hread _ (by simp)) hi]
  · rw [SoftwareDevice.submit, SoftwareDevice.submit, h.operationOf_eq, hop]
    rw [sources, hop] at hread
    simp only [Kernels.copyCrc]
    rw [get_setStatus (by decide), get_setStatus (by decide), Field.get_set_self,
      Field.get_set_self]
    simp (disch := decide) only [h _]
    have hsrc := hread _ (List.mem_cons_self ..)
    have hcopy := dmlRefMemMove_sameChange (AnyDescriptor.destinationAddress.get t d) hn hsrc
    rw [crcOf_congr fun i hi => eqOn_bytes (hcopy.eqOn hsrc) hi]

/-- **A kernel leaves the same result wherever its task is**, when the records were cleared
before. -/
theorem makeResult_relocated {op : SequenceOperation}
    (hop : operationOf t d = some op.args.operation)
    (hdst : ∀ R ∈ destinations t d, R.Apart ⟨getCompletionRecord t d, recordSize⟩
      ∧ R.Apart ⟨getCompletionRecord t' d', recordSize⟩)
    (hclear : AnyCompletionRecord.bytesCompleted.get t (getCompletionRecord t d)
      = AnyCompletionRecord.bytesCompleted.get t' (getCompletionRecord t' d')) :
    op.resultType.makeResult (SoftwareDevice.submit t d).1 (getCompletionRecord t d)
      = op.resultType.makeResult (SoftwareDevice.submit t' d').1 (getCompletionRecord t' d') := by
  have hbatch := op.operation_ne_batch
  have hstatus := status_relocated h hread hop hbatch
  refine ResultType.makeResult_congr ?_
  cases op with
  | nop | memMove | memCopy | fill | dualcast | applyDelta | cacheFlush =>
    simpa [SequenceOperation.resultType, ResultType.fields] using hstatus
  | compare =>
    simp only [SequenceOperation.resultType, ResultType.fields, List.mem_cons, List.not_mem_nil,
      or_false, forall_eq_or_imp, forall_eq]
    exact ⟨hstatus, result_relocated h hread hop hbatch rfl,
      bytesCompleted_relocated h hread (Or.inl hop)⟩
  | comparePattern =>
    simp only [SequenceOperation.resultType, ResultType.fields, List.mem_cons, List.not_mem_nil,
      or_false, forall_eq_or_imp, forall_eq]
    exact ⟨hstatus, result_relocated h hread hop hbatch rfl,
      bytesCompleted_relocated h hread (Or.inr hop)⟩
  | createDelta =>
    simp only [SequenceOperation.resultType, ResultType.fields, List.mem_cons, List.not_mem_nil,
      or_false, forall_eq_or_imp, forall_eq]
    refine ⟨hstatus, result_relocated h hread hop hbatch rfl, ?_,
      deltaRecordSize_relocated h hread hop⟩
    rw [bytesCompleted_createDelta hop fun R hR => (hdst R hR).1,
      bytesCompleted_createDelta (h.operationOf_eq.trans hop) fun R hR => (hdst R (by
        rwa [h.destinations_eq] at hR)).2, hclear]
  | crc =>
    simp only [SequenceOperation.resultType, ResultType.fields, List.mem_cons, List.not_mem_nil,
      or_false, forall_eq_or_imp, forall_eq]
    exact ⟨hstatus, crcValue_relocated h hread (Or.inl hop)⟩
  | copyCrc =>
    simp only [SequenceOperation.resultType, ResultType.fields, List.mem_cons, List.not_mem_nil,
      or_false, forall_eq_or_imp, forall_eq]
    exact ⟨hstatus, crcValue_relocated h hread (Or.inr hop)⟩

end Relocated

/-! ### A call -/

section Call

variable {m t : Memory} {dsc record d slotRecord : ℕ} {op : SequenceOperation}

/-- A task starts with a record of zeros. -/
theorem constructTask_record (hp : TaskPlaced dsc record) {x : ℕ}
    (hx : x ∈ Region.addrs ⟨record, recordSize⟩) {args : DescriptorArgs} :
    constructTask m dsc record args x = 0#8 := by
  have hnot := hp.apart.symm.notMem hx
  rw [constructTask, assignTask, rebind_apply, paste, if_pos (Region.mem_addrs.mp hx)]
  · rw [Region.mem_addrs] at hnot ⊢
    simp only [descriptorSize] at hnot ⊢
    omega
  · rw [Region.mem_addrs] at hnot ⊢
    simp only [descriptorSize] at hnot ⊢
    omega

/-- A call that validation rejects. -/
theorem execute_rejected (hp : TaskPlaced dsc record)
    (hholds : HoldsDescriptor t d (rebind op.args.make 0 slotRecord))
    (hrange : op.rangeCheck = .ok) (hvalid : validate t d ≠ .success) :
    op.execute dsc record m = some (constructTask m dsc record op.args,
      op.resultType.ofStatus (validate t d).toOwn) := by
  have hsame := sameFields_of_holds hholds (@holdsDescriptor_constructTask m dsc record op.args hp)
  rw [SequenceOperation.execute, if_neg (not_not.mpr hrange)]
  simp only [Software.validate, hsame.validate_eq]
  exact if_pos hvalid

/-- **The result of a call** is that of any other task with the same operation, whose record was
cleared. -/
theorem execute_result (hp : TaskPlaced dsc record)
    (hholds : HoldsDescriptor t d (rebind op.args.make 0 slotRecord)) (hslot : slotRecord < 2 ^ 64)
    (hrange : op.rangeCheck = .ok) (hvalid : validate t d = .success) (hdelta : DeltaWithin t d)
    (hoperands : ∀ R ∈ operands t d, ApartFromTask dsc record R ∧ Set.EqOn t m R.addrs)
    (hapart : ∀ R ∈ operands t d, R.Apart ⟨slotRecord, recordSize⟩)
    (hclear : ∀ x ∈ Region.addrs ⟨slotRecord, recordSize⟩, t x = 0#8) :
    ∃ m', op.execute dsc record m
        = some (m', op.resultType.makeResult (SoftwareDevice.submit t d).1 slotRecord)
      ∧ ∀ x, x ∉ Region.addrs ⟨slotRecord, recordSize⟩ → x ∉ Region.addrs ⟨dsc, descriptorSize⟩ →
          x ∉ Region.addrs ⟨record, recordSize⟩ → t x = m x →
          m' x = (SoftwareDevice.submit t d).1 x := by
  have hbatch := op.operation_ne_batch
  have hsame := sameFields_of_holds hholds (@holdsDescriptor_constructTask m dsc record op.args hp)
  have hkept := eqOn_descriptor_constructTask hp hholds hbatch hdelta hoperands
  have hop : operationOf t d = some op.args.operation := by
    rw [← hsame.operationOf_eq, operationOf_constructTask hp]
  have hrecord := @getCompletionRecord_constructTask m dsc record op.args hp
  have hslotRecord : getCompletionRecord t d = slotRecord := by
    rw [getCompletionRecord, hholds.get (by decide), completionRecordAddress_rebind hslot]
  have hknown := validate_none (hsame.validate_eq.trans hvalid)
  have hdone := submit_of_ne_none hknown
  have hwait := wait_submit hknown (getCompletionRecord_congr hkept) false
  have hfresh : AnyCompletionRecord.bytesCompleted.get t slotRecord
      = AnyCompletionRecord.bytesCompleted.get (constructTask m dsc record op.args) record := by
    refine load_congr fun i hi => ?_
    have hlt : 4 + i < recordSize := by
      simp only [AnyCompletionRecord.bytesCompleted] at hi
      simp only [recordSize]
      omega
    simp only [AnyCompletionRecord.bytesCompleted]
    rw [Nat.add_assoc, Nat.add_assoc, hclear _ (Region.add_mem_addrs hlt),
      constructTask_record hp (Region.add_mem_addrs hlt)]
  have hresult := makeResult_relocated hsame (eqOn_sources_constructTask hoperands) hop
    (fun R hR => ?_) (hslotRecord.symm ▸ hrecord.symm ▸ hfresh)
  · rw [hslotRecord, hrecord] at hresult
    refine ⟨(SoftwareDevice.submit (constructTask m dsc record op.args) dsc).1, ?_,
      fun x hslotx hdsc hrec heq =>
        submit_constructTask_apply hp hholds hslot hbatch hoperands hslotx hdsc hrec heq⟩
    rw [hresult, SequenceOperation.execute, if_neg (not_not.mpr hrange)]
    simp only [Software.validate, hsame.validate_eq.trans hvalid, ne_eq, not_true_eq_false,
      if_false, Software.submit, hdone, hwait, Option.bind_eq_bind, Option.bind_some]
    rfl
  · have hin := destinations_subset_operands t d hR
    rw [hslotRecord, hrecord]
    exact ⟨hapart R hin, (hoperands R hin).1.record⟩

end Call

end DataMover
