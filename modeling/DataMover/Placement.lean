import DataMover.PartialCompletion

/-!
# Where the objects lie

A task owns its descriptor and its completion record, and its buffers are other
objects: none of them overlaps the descriptor or the record.  `Placed` says so.
Under it a kernel leaves the descriptor alone.

## Main definitions

* `operands`, `destinations` — the buffers of a descriptor, and those it writes.
* `Placed` — buffers, record and descriptor do not overlap.

## Main results

* `submit_of_notMem_destinations` — a kernel writes its record and its destinations
  only.
* `exists_submit_eq_setStatus` — and its status byte last.
-/

namespace DataMover

open ByteMemory

/-- The bytes of a protected block without its integrity field, as the descriptor
selects them. -/
def difBlockBytes (m : Memory) (dsc : ℕ) : ℕ :=
  ownDifBlockSizes (Kernels.difBlockSize (DifDescriptor.difFlags.get m dsc))

/-- The buffers of a descriptor.  A strip is given the room of its source: its
continuation may reach that far. -/
def operands (m : Memory) (dsc : ℕ) : List Region :=
  let src := AnyDescriptor.sourceAddress.get m dsc
  let dst := AnyDescriptor.destinationAddress.get m dsc
  let n := AnyDescriptor.transferSize.get m dsc
  match operationOf m dsc with
  | some .memMove | some .compare | some .copyCrc | some .difStrip | some .difUpdate =>
    [⟨src, n⟩, ⟨dst, n⟩]
  | some .fill | some .cacheFlush => [⟨dst, n⟩]
  | some .comparePattern | some .crc | some .difCheck => [⟨src, n⟩]
  | some .createDelta =>
    [⟨src, n⟩, ⟨dst, n⟩, ⟨CreateDeltaDescriptor.deltaRecordAddress.get m dsc,
      CreateDeltaDescriptor.maximumDeltaRecordSize.get m dsc⟩]
  | some .applyDelta => [⟨src, ApplyDeltaDescriptor.deltaRecordSize.get m dsc⟩, ⟨dst, n⟩]
  | some .dualcast => [⟨src, n⟩, ⟨dst, n⟩, ⟨DualcastDescriptor.destination2Address.get m dsc, n⟩]
  | some .difInsert =>
    [⟨src, n⟩, ⟨dst, n / difBlockBytes m dsc * (difBlockBytes m dsc + 8)⟩]
  | some .nop | some .drain | some .batch | none => []

/-- The buffers among them that the kernel writes. -/
def destinations (m : Memory) (dsc : ℕ) : List Region :=
  let dst := AnyDescriptor.destinationAddress.get m dsc
  let n := AnyDescriptor.transferSize.get m dsc
  match operationOf m dsc with
  | some .memMove | some .fill | some .applyDelta | some .copyCrc | some .difStrip
  | some .difUpdate => [⟨dst, n⟩]
  | some .createDelta => [⟨CreateDeltaDescriptor.deltaRecordAddress.get m dsc,
      CreateDeltaDescriptor.maximumDeltaRecordSize.get m dsc⟩]
  | some .dualcast => [⟨dst, n⟩, ⟨DualcastDescriptor.destination2Address.get m dsc, n⟩]
  | some .difInsert => [⟨dst, n / difBlockBytes m dsc * (difBlockBytes m dsc + 8)⟩]
  | some .nop | some .drain | some .compare | some .comparePattern | some .crc | some .difCheck
  | some .cacheFlush | some .batch | none => []

theorem destinations_subset_operands (m : Memory) (dsc : ℕ) :
    destinations m dsc ⊆ operands m dsc := by
  unfold destinations operands
  cases operationOf m dsc with
  | none => exact List.Subset.refl _
  | some op => cases op <;> simp

/-- Descriptor, record and buffers are objects of their own. -/
structure Placed (m : Memory) (dsc : ℕ) : Prop where
  record_apart : Region.Apart ⟨getCompletionRecord m dsc, recordSize⟩ ⟨dsc, descriptorSize⟩
  apart_descriptor : ∀ R ∈ operands m dsc, R.Apart ⟨dsc, descriptorSize⟩
  apart_record : ∀ R ∈ operands m dsc, R.Apart ⟨getCompletionRecord m dsc, recordSize⟩
  fits : ∀ R ∈ operands m dsc, R.base + R.size < 2 ^ 64

instance (m : Memory) (dsc : ℕ) : Decidable (Placed m dsc) :=
  decidable_of_iff
    (Region.Apart ⟨getCompletionRecord m dsc, recordSize⟩ ⟨dsc, descriptorSize⟩
      ∧ (∀ R ∈ operands m dsc, R.Apart ⟨dsc, descriptorSize⟩)
      ∧ (∀ R ∈ operands m dsc, R.Apart ⟨getCompletionRecord m dsc, recordSize⟩)
      ∧ ∀ R ∈ operands m dsc, R.base + R.size < 2 ^ 64)
    ⟨fun ⟨h1, h2, h3, h4⟩ => ⟨h1, h2, h3, h4⟩, fun h => ⟨h.1, h.2, h.3, h.4⟩⟩

/-! ### Writes to the record -/

section Record

variable {f : Field} {m : Memory} {record x : ℕ}

theorem set_apply_of_notMem (hx : x ∉ Region.addrs ⟨record, recordSize⟩) (hf : f.Within recordSize)
    (v : ℕ) : f.set m record v x = m x :=
  Field.set_eqOn hf m record v hx

theorem addAssign_apply_of_notMem (hx : x ∉ Region.addrs ⟨record, recordSize⟩)
    (hf : f.Within recordSize) (v : ℕ) : f.addAssign m record v x = m x :=
  set_apply_of_notMem hx hf _

theorem setStatus_apply (hx : x ∉ Region.addrs ⟨record, recordSize⟩) (s : ExecutionStatus) :
    Kernels.setStatus m record s x = m x :=
  set_apply_of_notMem hx (by decide) _

theorem status_setStatus (m : Memory) (record : ℕ) (s : ExecutionStatus) :
    AnyCompletionRecord.status.get (Kernels.setStatus m record s) record = s.toUnderlying := by
  refine Field.get_set_self_of_lt m record ?_
  cases s <;> decide

theorem get_setStatus (hf : f.Apart AnyCompletionRecord.status) (s : ExecutionStatus) :
    f.get (Kernels.setStatus m record s) record = f.get m record :=
  Field.get_set_of_apart hf m record _

theorem completeCompare_apply (hx : x ∉ Region.addrs ⟨record, recordSize⟩) (check : Bool)
    (expected : ℕ) (outcome : ℕ × ℕ) :
    Kernels.completeCompare m record check expected outcome x = m x := by
  simp only [Kernels.completeCompare]
  rw [setStatus_apply hx, set_apply_of_notMem hx (by decide), set_apply_of_notMem hx (by decide)]

theorem completeDif_apply (hx : x ∉ Region.addrs ⟨record, recordSize⟩) (status : DmlStatus)
    (job : DmlJob) : Kernels.completeDif m record status job x = m x := by
  simp only [Kernels.completeDif]
  rw [setStatus_apply hx, set_apply_of_notMem hx (by decide), set_apply_of_notMem hx (by decide)]

end Record

/-! ### What a kernel writes -/

/-- The notes an `apply_delta` reads point into its destination, and it does not
read what it writes. -/
def DeltaWithin (m : Memory) (dsc : ℕ) : Prop :=
  operationOf m dsc = some .applyDelta →
    NotesWithin m (ApplyDeltaDescriptor.deltaRecordAddress.get m dsc)
        (ApplyDeltaDescriptor.deltaRecordSize.get m dsc) (AnyDescriptor.transferSize.get m dsc)
      ∧ Region.Apart ⟨ApplyDeltaDescriptor.deltaRecordAddress.get m dsc,
          ApplyDeltaDescriptor.deltaRecordSize.get m dsc⟩
        ⟨AnyDescriptor.destinationAddress.get m dsc, AnyDescriptor.transferSize.get m dsc⟩

section Kernels

variable {m : Memory} {dsc x : ℕ}

theorem transferSize_lt (m : Memory) (dsc : ℕ) : AnyDescriptor.transferSize.get m dsc < 2 ^ 32 :=
  Field.get_lt _ m dsc

theorem notMem_addrs {a n : ℕ} : x ∉ Region.addrs ⟨a, n⟩ ↔ x < a ∨ a + n ≤ x := by
  rw [Region.mem_addrs]; simp only; omega

theorem dmlLegacyDifStrip_apply {job : DmlJob}
    (hx : x < job.destinationFirstPtr ∨ job.destinationFirstPtr + job.sourceLength ≤ x) :
    (dmlLegacyDifStrip m job).2.1 x = m x := by
  unfold dmlLegacyDifStrip
  rw [dmlLegacyDifCheck_eq]
  cases Loop.search (fun j => difBitsAt m job j != 0) (job.sourceLength / job.difConfig.step) with
  | some j => rfl
  | none =>
    refine difStripBlocks_of_notMem ?_
    have hle : job.sourceLength / job.difConfig.step * job.difConfig.blockBytes
        ≤ job.sourceLength := by
      refine le_trans (Nat.mul_le_mul_left _ (Nat.le_add_right _ 8)) ?_
      exact Nat.div_mul_le_self _ _
    simp only
    omega

theorem dmlLegacyDifUpdate_apply {job : DmlJob}
    (hx : x < job.destinationFirstPtr ∨ job.destinationFirstPtr + job.sourceLength ≤ x) :
    (dmlLegacyDifUpdate m job).2.1 x = m x := by
  unfold dmlLegacyDifUpdate
  rw [dmlLegacyDifCheck_eq]
  cases Loop.search (fun j => difBitsAt m job j != 0) (job.sourceLength / job.difConfig.step) with
  | some j => rfl
  | none =>
    refine difUpdateBlocks_of_notMem ?_
    have hle := Nat.div_mul_le_self job.sourceLength job.difConfig.step
    simp only
    omega

/-- **A kernel writes its record and its destinations only.** -/
theorem submit_of_notMem_destinations (hbatch : operationOf m dsc ≠ some .batch)
    (hdelta : DeltaWithin m dsc) (hrec : x ∉ Region.addrs ⟨getCompletionRecord m dsc, recordSize⟩)
    (hbuf : ∀ R ∈ destinations m dsc, x ∉ R.addrs) : (SoftwareDevice.submit m dsc).1 x = m x := by
  have hn := transferSize_lt m dsc
  unfold destinations at hbuf
  unfold SoftwareDevice.submit
  cases hop : operationOf m dsc with
  | none => rfl
  | some op =>
    rw [hop] at hbuf
    cases op with
    | batch => exact absurd hop hbatch
    | nop | drain => exact setStatus_apply hrec _
    | memMove =>
      simp only [List.mem_singleton, forall_eq, notMem_addrs] at hbuf
      simp only [Kernels.memMove]
      rw [setStatus_apply hrec, dmlRefMemMove_eq _ _ _ hn, move_apply_of_notMem hbuf]
    | fill =>
      simp only [List.mem_singleton, forall_eq, notMem_addrs] at hbuf
      simp only [Kernels.fill]
      rw [setStatus_apply hrec, dmlRefFillU64_eq, if_neg (by omega)]
    | compare => exact completeCompare_apply hrec _ _ _
    | comparePattern => exact completeCompare_apply hrec _ _ _
    | createDelta =>
      simp only [List.mem_singleton, forall_eq, notMem_addrs] at hbuf
      simp only [Kernels.createDelta]
      rw [setStatus_apply hrec, set_apply_of_notMem hrec (by decide),
        set_apply_of_notMem hrec (by decide), dmlRefCreateDelta_of_notMem hbuf]
    | applyDelta =>
      simp only [List.mem_singleton, forall_eq, notMem_addrs] at hbuf
      -- where `apply_delta` writes is up to the notes
      obtain ⟨hnotes, hap⟩ := hdelta hop
      simp only [Kernels.applyDelta]
      rw [setStatus_apply hrec, dmlRefApplyDelta_of_notMem hnotes hap hbuf]
    | dualcast =>
      simp only [List.mem_cons, List.not_mem_nil, or_false, forall_eq_or_imp, forall_eq,
        notMem_addrs] at hbuf
      simp only [Kernels.dualcast]
      rw [setStatus_apply hrec, dmlRefDualcast_of_notMem hbuf.1 hbuf.2]
    | crc =>
      simp only [Kernels.crc]
      rw [setStatus_apply hrec, set_apply_of_notMem hrec (by decide)]
    | copyCrc =>
      simp only [List.mem_singleton, forall_eq, notMem_addrs] at hbuf
      simp only [Kernels.copyCrc]
      rw [setStatus_apply hrec, set_apply_of_notMem hrec (by decide), dmlRefMemMove_eq _ _ _ hn,
        move_apply_of_notMem hbuf]
    | difCheck =>
      simp only [Kernels.difCheck]
      exact completeDif_apply hrec _ _
    | difInsert =>
      simp only [List.mem_singleton, forall_eq, notMem_addrs] at hbuf
      simp only [Kernels.difInsert]
      rw [setStatus_apply hrec, set_apply_of_notMem hrec (by decide)]
      exact dmlLegacyDifInsert_of_notMem hbuf
    | difStrip =>
      simp only [List.mem_singleton, forall_eq, notMem_addrs] at hbuf
      simp only [Kernels.difStrip]
      rw [completeDif_apply hrec, dmlLegacyDifStrip_apply hbuf]
    | difUpdate =>
      simp only [List.mem_singleton, forall_eq, notMem_addrs] at hbuf
      simp only [Kernels.difUpdate]
      rw [completeDif_apply hrec, dmlLegacyDifUpdate_apply hbuf]
    | cacheFlush =>
      simp only [Kernels.cacheFlush, Kernels.dmlClflush, Kernels.dmlClwbUnsupported, ite_self]
      exact setStatus_apply hrec _

/-- A kernel writes its record and its buffers only. -/
theorem submit_apply (hbatch : operationOf m dsc ≠ some .batch) (hdelta : DeltaWithin m dsc)
    (hrec : x ∉ Region.addrs ⟨getCompletionRecord m dsc, recordSize⟩)
    (hbuf : ∀ R ∈ operands m dsc, x ∉ R.addrs) : (SoftwareDevice.submit m dsc).1 x = m x :=
  submit_of_notMem_destinations hbatch hdelta hrec fun R hR =>
    hbuf R (destinations_subset_operands m dsc hR)

/-- A status a kernel may end with. -/
def FinalStatus (s : ExecutionStatus) : Prop :=
  s ≠ .processing ∧ s ≠ .pageFaultDuringProcessing

theorem finalStatus_success : FinalStatus .success := ⟨by simp, by simp⟩

theorem finalStatus_falsePredicateSuccess : FinalStatus .falsePredicateSuccess :=
  ⟨by simp, by simp⟩

theorem finalStatus_compareStatus (check : Bool) (expected result : ℕ) :
    FinalStatus (Kernels.compareStatus check expected result) := by
  unfold Kernels.compareStatus
  split
  · split
    · exact finalStatus_success
    · exact finalStatus_falsePredicateSuccess
  · exact finalStatus_success

theorem finalStatus_createDeltaStatus (check : Bool) (expected result : ℕ) :
    FinalStatus (Kernels.createDeltaStatus check expected result) := by
  unfold Kernels.createDeltaStatus
  split
  · split
    · exact finalStatus_falsePredicateSuccess
    · split
      · exact finalStatus_success
      · split
        · exact finalStatus_success
        · exact finalStatus_falsePredicateSuccess
  · exact finalStatus_success

theorem finalStatus_difStatus (status : DmlStatus) : FinalStatus (Kernels.difStatus status) := by
  cases status with
  | ok => exact finalStatus_success
  | difCheckError => exact ⟨by simp [Kernels.difStatus], by simp [Kernels.difStatus]⟩

theorem finalStatus_batch (index count : ℕ) :
    FinalStatus (if index = count then ExecutionStatus.success else .batchError) := by
  split
  · exact finalStatus_success
  · exact ⟨by simp, by simp⟩

/-- Every kernel writes the status byte last, and a final status. -/
theorem exists_submit_eq_setStatus (h : operationOf m dsc ≠ none) :
    ∃ t s, FinalStatus s
      ∧ (SoftwareDevice.submit m dsc).1 = Kernels.setStatus t (getCompletionRecord m dsc) s := by
  unfold SoftwareDevice.submit
  cases hop : operationOf m dsc with
  | none => exact absurd hop h
  | some op =>
    cases op with
    | compare => exact ⟨_, _, finalStatus_compareStatus _ _ _, rfl⟩
    | comparePattern => exact ⟨_, _, finalStatus_compareStatus _ _ _, rfl⟩
    | createDelta => exact ⟨_, _, finalStatus_createDeltaStatus _ _ _, rfl⟩
    | difCheck => exact ⟨_, _, finalStatus_difStatus _, rfl⟩
    | difInsert => exact ⟨_, _, finalStatus_difStatus .ok, rfl⟩
    | difStrip => exact ⟨_, _, finalStatus_difStatus _, rfl⟩
    | difUpdate => exact ⟨_, _, finalStatus_difStatus _, rfl⟩
    | batch => exact ⟨_, _, finalStatus_batch _ _, rfl⟩
    | _ => exact ⟨_, .success, finalStatus_success, rfl⟩

end Kernels

end DataMover
