import DataMover.JobSubmit

/-!
# Filling a batch

`c_api/dml_batch.cpp`: one setter for each operation that a batch can hold.  The buffer of
the batch holds all descriptors first and all records behind them; a setter checks its
arguments, makes the task, validates it and copies it to its index.

The setters repeat by hand what `make_task` does for a single job.  They agree with it,
except for the checksums: a setter always takes the seed of the caller and keeps the flag
that asks for it, while a single job has the seed 0 unless the flag is set, and drops the
flag.

## Main definitions

* `dmlBatchSetNopByIndex` and its siblings — the setters.
* `BatchOperation` — a call of one of them without the batch: `set` is the call, `single`
  the job with the same parameters.
* `SameDescriptor` — the same descriptor up to the completion record.

## Main results

* `sameDescriptor_set` — what a setter stores.
* `batch_set_same_iff` — when it is the descriptor of the single job.
-/

namespace DataMover

open ByteMemory

/-! ### The buffer of a batch -/

/-- `get_task_size`. -/
def taskSize : ℕ := descriptorSize + recordSize

namespace UserJob

variable (job : UserJob)

/-- The number of tasks a buffer has room for. -/
def taskCount : ℕ := job.destinationLength.toNat / taskSize

/-- `descriptors[index]`. -/
def batchDescriptor (index : ℕ) : ℕ :=
  (align job.destinationFirstPtr).toNat + descriptorSize * index

/-- `records[index]`. -/
def batchRecord (index : ℕ) : ℕ :=
  (align job.destinationFirstPtr).toNat + descriptorSize * job.taskCount + recordSize * index

end UserJob

/-- What the setters share: the null checks, the check of the index, the range check and the
validation, and `add_by_index`. -/
def setByIndex (m : Memory) (job : Option UserJob) (taskIndex : BitVec 32) (scratch : ℕ)
    (pointers : List (BitVec 64)) (rangeStatus : ApiStatus) (validated : Bool)
    (args : DescriptorArgs) : Memory × ApiStatus :=
  match job with
  | none => (m, .nullPointerError)
  | some job =>
    if job.destinationLength = 0#32 ∨ 0#64 ∈ pointers then (m, .nullPointerError)
    else if job.taskCount ≤ taskIndex.toNat then (m, .batchTaskIndexOverflow)
    else if rangeStatus ≠ .own .ok then (m, rangeStatus)
    else
      let task := makeTaskDescriptor args scratch
      let status := if validated then (Automatic.validate task 0).toOwnStatus else .own .ok
      if status ≠ .own .ok then (m, status)
      else
        (assignTask m (job.batchDescriptor taskIndex.toNat) (job.batchRecord taskIndex.toNat) task,
          .own .ok)

/-! ### The setters -/

/-- The `dml_dif_config_t` at a pointer. -/
def readDifConfig (m : Memory) (pointer : BitVec 64) : JobDifConfig where
  flags := BitVec.ofNat 32 (load m pointer.toNat 4)
  sourceReferenceTagSeed := BitVec.ofNat 32 (load m (pointer.toNat + 4) 4)
  sourceApplicationTagSeed := BitVec.ofNat 16 (load m (pointer.toNat + 8) 2)
  sourceApplicationTagMask := BitVec.ofNat 16 (load m (pointer.toNat + 10) 2)
  destinationReferenceTagSeed := BitVec.ofNat 32 (load m (pointer.toNat + 12) 4)
  destinationApplicationTagSeed := BitVec.ofNat 16 (load m (pointer.toNat + 16) 2)
  destinationApplicationTagMask := BitVec.ofNat 16 (load m (pointer.toNat + 18) 2)
  blockSize := BitVec.ofNat 32 (load m (pointer.toNat + 20) 4)

/-- The eight bytes of a pattern. -/
def readPattern (m : Memory) (pointer : BitVec 64) : BitVec 64 :=
  BitVec.ofNat 64 (load m pointer.toNat 8)

/-- The checksum at a pointer. -/
def readCrcSeed (m : Memory) (pointer : BitVec 64) : BitVec 32 :=
  BitVec.ofNat 32 (load m pointer.toNat 4)

section Setters

variable (m : Memory) (job : Option UserJob) (taskIndex : BitVec 32) (scratch : ℕ)

/-- The only setter that does not validate. -/
def dmlBatchSetNopByIndex (flags : BitVec 64) : Memory × ApiStatus :=
  setByIndex m job taskIndex scratch [] (.own .ok) false (.nop (flags16 flags))

/-- The promise not to overlap is checked here and dropped. -/
def dmlBatchSetMemMoveByIndex (sourcePtr destinationPtr : BitVec 64) (byteLength : BitVec 32)
    (flags : BitVec 64) : Memory × ApiStatus :=
  let rangeStatus := rangeCheckMemMove sourcePtr destinationPtr byteLength (flags.setWidth 16)
  let flags := if flags &&& copyOnlyFlag.setWidth 64 ≠ 0#64 then
      flags &&& ~~~(copyOnlyFlag.setWidth 64) else flags
  setByIndex m job taskIndex scratch [] rangeStatus true
    (.memMove sourcePtr destinationPtr byteLength (flags16 flags))

def dmlBatchSetDualcastByIndex (sourcePtr destinationFirstPtr destinationSecondPtr : BitVec 64)
    (byteLength : BitVec 32) (flags : BitVec 64) : Memory × ApiStatus :=
  setByIndex m job taskIndex scratch [] (.own .ok) true
    (.dualcast sourcePtr destinationFirstPtr destinationSecondPtr byteLength (flags16 flags)
      (specificFlags8 flags))

def dmlBatchSetCompareByIndex (sourceFirstPtr sourceSecondPtr : BitVec 64)
    (byteLength expectedResult : BitVec 32) (flags : BitVec 64) : Memory × ApiStatus :=
  setByIndex m job taskIndex scratch [] (.own .ok) true
    (.compare sourceFirstPtr sourceSecondPtr byteLength (flags16 flags)
      (expectedResult.setWidth 8))

def dmlBatchSetComparePatternByIndex (sourcePtr patternPtr : BitVec 64)
    (byteLength expectedResult : BitVec 32) (flags : BitVec 64) : Memory × ApiStatus :=
  setByIndex m job taskIndex scratch [patternPtr] (.own .ok) true
    (.comparePattern (readPattern m patternPtr) sourcePtr byteLength (flags16 flags)
      (expectedResult.setWidth 8))

/-- The seed and the flags are taken as they are. -/
def dmlBatchSetCrcByIndex (sourcePtr : BitVec 64) (byteLength : BitVec 32) (crcSeedPtr : BitVec 64)
    (flags : BitVec 64) : Memory × ApiStatus :=
  setByIndex m job taskIndex scratch [crcSeedPtr] (rangeCheckCrc crcSeedPtr) true
    (.crc sourcePtr byteLength (readCrcSeed m crcSeedPtr) (flags16 flags) (specificFlags8 flags))

def dmlBatchSetCopyCrcByIndex (sourcePtr : BitVec 64) (byteLength : BitVec 32)
    (crcSeedPtr destinationPtr : BitVec 64) (flags : BitVec 64) : Memory × ApiStatus :=
  setByIndex m job taskIndex scratch [crcSeedPtr] (rangeCheckCrc crcSeedPtr) true
    (.copyCrc sourcePtr destinationPtr byteLength (readCrcSeed m crcSeedPtr) (flags16 flags)
      (specificFlags8 flags))

def dmlBatchSetFillByIndex (patternPtr destinationPtr : BitVec 64) (byteLength : BitVec 32)
    (flags : BitVec 64) : Memory × ApiStatus :=
  setByIndex m job taskIndex scratch [patternPtr] (.own .ok) true
    (.fill (readPattern m patternPtr) destinationPtr byteLength (flags16 flags))

def dmlBatchSetCacheFlushByIndex (destinationPtr : BitVec 64) (byteLength : BitVec 32)
    (flags : BitVec 64) : Memory × ApiStatus :=
  setByIndex m job taskIndex scratch [] (.own .ok) true
    (.cacheFlush destinationPtr byteLength (flags16 flags))

def dmlBatchSetDeltaCreateByIndex (sourcePtr referencePtr : BitVec 64) (compareLength : BitVec 32)
    (deltaRecordPtr : BitVec 64) (deltaRecordLength expectedResult : BitVec 32)
    (flags : BitVec 64) : Memory × ApiStatus :=
  setByIndex m job taskIndex scratch [] (.own .ok) true
    (.createDelta sourcePtr referencePtr compareLength deltaRecordPtr deltaRecordLength
      (flags16 flags) (expectedResult.setWidth 8))

def dmlBatchSetDeltaApplyByIndex (deltaRecordPtr : BitVec 64) (deltaRecordLength : BitVec 32)
    (destinationPtr : BitVec 64) (destinationLength : BitVec 32) (flags : BitVec 64) :
    Memory × ApiStatus :=
  setByIndex m job taskIndex scratch [] (.own .ok) true
    (.applyDelta deltaRecordPtr deltaRecordLength destinationPtr destinationLength (flags16 flags))

def dmlBatchSetDifCheckByIndex (sourcePtr : BitVec 64) (sourceLength : BitVec 32)
    (difConfigPtr : BitVec 64) (flags : BitVec 64) : Memory × ApiStatus :=
  let cfg := readDifConfig m difConfigPtr
  setByIndex m job taskIndex scratch [sourcePtr, difConfigPtr] (.own .ok) true
    (.difCheck sourcePtr sourceLength cfg.srcParameters (flags16 flags) cfg.difFlags
      cfg.difSrcFlags)

/-- The length of the destination is not used, here and below. -/
def dmlBatchSetDifUpdateByIndex (sourcePtr : BitVec 64) (sourceLength : BitVec 32)
    (difConfigPtr destinationPtr : BitVec 64) (_destinationLength : BitVec 32)
    (flags : BitVec 64) : Memory × ApiStatus :=
  let cfg := readDifConfig m difConfigPtr
  setByIndex m job taskIndex scratch [sourcePtr, difConfigPtr, destinationPtr] (.own .ok) true
    (.difUpdate sourcePtr destinationPtr sourceLength cfg.srcParameters cfg.dstParameters
      (flags16 flags) cfg.difFlags cfg.difSrcFlags cfg.difDstFlags)

def dmlBatchSetDifInsertByIndex (sourcePtr : BitVec 64) (sourceLength : BitVec 32)
    (difConfigPtr destinationPtr : BitVec 64) (_destinationLength : BitVec 32)
    (flags : BitVec 64) : Memory × ApiStatus :=
  let cfg := readDifConfig m difConfigPtr
  setByIndex m job taskIndex scratch [sourcePtr, difConfigPtr, destinationPtr] (.own .ok) true
    (.difInsert sourcePtr destinationPtr sourceLength cfg.dstParameters (flags16 flags)
      cfg.difFlags cfg.difDstFlags)

def dmlBatchSetDifStripByIndex (sourcePtr : BitVec 64) (sourceLength : BitVec 32)
    (difConfigPtr destinationPtr : BitVec 64) (_destinationLength : BitVec 32)
    (flags : BitVec 64) : Memory × ApiStatus :=
  let cfg := readDifConfig m difConfigPtr
  setByIndex m job taskIndex scratch [sourcePtr, difConfigPtr, destinationPtr] (.own .ok) true
    (.difStrip sourcePtr destinationPtr sourceLength cfg.srcParameters (flags16 flags)
      cfg.difFlags cfg.difSrcFlags)

end Setters

/-! ### Calls -/

/-- A call of a setter, without the batch, the index and the flags. -/
inductive BatchOperation
  | nop
  | memMove (sourcePtr destinationPtr : BitVec 64) (byteLength : BitVec 32)
  | dualcast (sourcePtr destinationFirstPtr destinationSecondPtr : BitVec 64)
      (byteLength : BitVec 32)
  | compare (sourceFirstPtr sourceSecondPtr : BitVec 64) (byteLength expectedResult : BitVec 32)
  | comparePattern (sourcePtr patternPtr : BitVec 64) (byteLength expectedResult : BitVec 32)
  | crc (sourcePtr : BitVec 64) (byteLength : BitVec 32) (crcSeedPtr : BitVec 64)
  | copyCrc (sourcePtr : BitVec 64) (byteLength : BitVec 32) (crcSeedPtr destinationPtr : BitVec 64)
  | fill (patternPtr destinationPtr : BitVec 64) (byteLength : BitVec 32)
  | cacheFlush (destinationPtr : BitVec 64) (byteLength : BitVec 32)
  | deltaCreate (sourcePtr referencePtr : BitVec 64) (compareLength : BitVec 32)
      (deltaRecordPtr : BitVec 64) (deltaRecordLength expectedResult : BitVec 32)
  | deltaApply (deltaRecordPtr : BitVec 64) (deltaRecordLength : BitVec 32)
      (destinationPtr : BitVec 64) (destinationLength : BitVec 32)
  | difCheck (sourcePtr : BitVec 64) (sourceLength : BitVec 32) (difConfigPtr : BitVec 64)
  | difUpdate (sourcePtr : BitVec 64) (sourceLength : BitVec 32)
      (difConfigPtr destinationPtr : BitVec 64) (destinationLength : BitVec 32)
  | difInsert (sourcePtr : BitVec 64) (sourceLength : BitVec 32)
      (difConfigPtr destinationPtr : BitVec 64) (destinationLength : BitVec 32)
  | difStrip (sourcePtr : BitVec 64) (sourceLength : BitVec 32)
      (difConfigPtr destinationPtr : BitVec 64) (destinationLength : BitVec 32)
  deriving DecidableEq, Repr

/-- A job as `dml_init_job` leaves it, apart from its operation and flags. -/
def initJob (operation : Operation) (flags : BitVec 64) : UserJob where
  sourceFirstPtr := 0#64
  sourceSecondPtr := 0#64
  destinationFirstPtr := 0#64
  destinationSecondPtr := 0#64
  crcChecksumPtr := 0#64
  sourceLength := 0#32
  destinationLength := 0#32
  pattern := 0#64
  operation := BitVec.ofNat 32 operation.code
  expectedResult := 0#32
  flags := flags
  difConfig := ⟨0#32, 0#32, 0#16, 0#16, 0#32, 0#16, 0#16, 0#32⟩
  numaId := 0#32

namespace BatchOperation

/-- The call. -/
def set (m : Memory) (job : Option UserJob) (taskIndex : BitVec 32) (scratch : ℕ)
    (flags : BitVec 64) : BatchOperation → Memory × ApiStatus
  | nop => dmlBatchSetNopByIndex m job taskIndex scratch flags
  | memMove s d n => dmlBatchSetMemMoveByIndex m job taskIndex scratch s d n flags
  | dualcast s d e n => dmlBatchSetDualcastByIndex m job taskIndex scratch s d e n flags
  | compare s t n r => dmlBatchSetCompareByIndex m job taskIndex scratch s t n r flags
  | comparePattern s p n r => dmlBatchSetComparePatternByIndex m job taskIndex scratch s p n r flags
  | crc s n c => dmlBatchSetCrcByIndex m job taskIndex scratch s n c flags
  | copyCrc s n c d => dmlBatchSetCopyCrcByIndex m job taskIndex scratch s n c d flags
  | fill p d n => dmlBatchSetFillByIndex m job taskIndex scratch p d n flags
  | cacheFlush d n => dmlBatchSetCacheFlushByIndex m job taskIndex scratch d n flags
  | deltaCreate s t n d k r =>
    dmlBatchSetDeltaCreateByIndex m job taskIndex scratch s t n d k r flags
  | deltaApply d k t n => dmlBatchSetDeltaApplyByIndex m job taskIndex scratch d k t n flags
  | difCheck s n c => dmlBatchSetDifCheckByIndex m job taskIndex scratch s n c flags
  | difUpdate s n c d k => dmlBatchSetDifUpdateByIndex m job taskIndex scratch s n c d k flags
  | difInsert s n c d k => dmlBatchSetDifInsertByIndex m job taskIndex scratch s n c d k flags
  | difStrip s n c d k => dmlBatchSetDifStripByIndex m job taskIndex scratch s n c d k flags

/-- The single job with the same parameters.  A job has its pattern and its dif
configuration in itself, where a setter gets a pointer. -/
def single (m : Memory) (flags : BitVec 64) : BatchOperation → UserJob
  | nop => initJob .nop flags
  | memMove s d n => { initJob .memMove flags with
      sourceFirstPtr := s, destinationFirstPtr := d, sourceLength := n }
  | dualcast s d e n => { initJob .dualcast flags with
      sourceFirstPtr := s, destinationFirstPtr := d, destinationSecondPtr := e, sourceLength := n }
  | compare s t n r => { initJob .compare flags with
      sourceFirstPtr := s, sourceSecondPtr := t, sourceLength := n, expectedResult := r }
  | comparePattern s p n r => { initJob .comparePattern flags with
      sourceFirstPtr := s, pattern := readPattern m p, sourceLength := n, expectedResult := r }
  | crc s n c => { initJob .crc flags with
      sourceFirstPtr := s, sourceLength := n, crcChecksumPtr := c }
  | copyCrc s n c d => { initJob .copyCrc flags with
      sourceFirstPtr := s, sourceLength := n, crcChecksumPtr := c, destinationFirstPtr := d }
  | fill p d n => { initJob .fill flags with
      pattern := readPattern m p, destinationFirstPtr := d, destinationLength := n }
  | cacheFlush d n => { initJob .cacheFlush flags with
      destinationFirstPtr := d, destinationLength := n }
  | deltaCreate s t n d k r => { initJob .createDelta flags with
      sourceFirstPtr := s, sourceSecondPtr := t, sourceLength := n, destinationFirstPtr := d,
      destinationLength := k, expectedResult := r }
  | deltaApply d k t n => { initJob .applyDelta flags with
      sourceFirstPtr := d, sourceLength := k, destinationFirstPtr := t, destinationLength := n }
  | difCheck s n c => { initJob .difCheck flags with
      sourceFirstPtr := s, sourceLength := n, difConfig := readDifConfig m c }
  | difUpdate s n c d k => { initJob .difUpdate flags with
      sourceFirstPtr := s, sourceLength := n, difConfig := readDifConfig m c,
      destinationFirstPtr := d, destinationLength := k }
  | difInsert s n c d k => { initJob .difInsert flags with
      sourceFirstPtr := s, sourceLength := n, difConfig := readDifConfig m c,
      destinationFirstPtr := d, destinationLength := k }
  | difStrip s n c d k => { initJob .difStrip flags with
      sourceFirstPtr := s, sourceLength := n, difConfig := readDifConfig m c,
      destinationFirstPtr := d, destinationLength := k }

end BatchOperation

/-! ### Descriptors up to the completion record -/

/-- The same descriptor, apart from the record address and the two completion flags. -/
structure SameDescriptor (m : Memory) (a : ℕ) (m' : Memory) (a' : ℕ) : Prop where
  bytes : ∀ i, i < descriptorSize → i ∉ Region.addrs ⟨4, 2⟩ → i ∉ Region.addrs ⟨8, 8⟩ →
    m (a + i) = m' (a' + i)
  flags : ∀ i, i ≠ 2 → i ≠ 3 →
    (AnyDescriptor.flags.get m a).testBit i = (AnyDescriptor.flags.get m' a').testBit i

namespace SameDescriptor

variable {m m' m'' : Memory} {a a' a'' : ℕ}

theorem refl (m : Memory) (a : ℕ) : SameDescriptor m a m a := ⟨fun _ _ _ _ => rfl, fun _ _ _ => rfl⟩

theorem symm (h : SameDescriptor m a m' a') : SameDescriptor m' a' m a where
  bytes i hi hflags hrecord := (h.bytes i hi hflags hrecord).symm
  flags i h2 h3 := (h.flags i h2 h3).symm

theorem trans (h : SameDescriptor m a m' a') (h' : SameDescriptor m' a' m'' a'') :
    SameDescriptor m a m'' a'' where
  bytes i hi hflags hrecord := (h.bytes i hi hflags hrecord).trans (h'.bytes i hi hflags hrecord)
  flags i h2 h3 := (h.flags i h2 h3).trans (h'.flags i h2 h3)

/-- A field apart from the record address and the flags. -/
theorem get (h : SameDescriptor m a m' a') {f : Field} (hwithin : f.Within descriptorSize)
    (hflags : f.Apart AnyDescriptor.flags)
    (hrecord : f.Apart AnyDescriptor.completionRecordAddress) : f.get m a = f.get m' a' := by
  unfold Field.Within at hwithin
  simp only [Field.Apart, AnyDescriptor.flags] at hflags
  simp only [Field.Apart, AnyDescriptor.completionRecordAddress] at hrecord
  refine load_congr fun i hi => ?_
  rw [Nat.add_assoc, Nat.add_assoc]
  refine h.bytes _ (by omega) ?_ ?_ <;> rw [Region.mem_addrs] <;> simp only <;> omega

/-- A copy is the same descriptor. -/
theorem of_holds (h : HoldsDescriptor m a m') : SameDescriptor m a m' 0 where
  bytes i hi _ _ := by rw [h i hi, Nat.zero_add]
  flags i _ _ := by rw [h.get (by decide)]

/-- Tying a descriptor to a record does not matter. -/
theorem rebind (m : Memory) (a record : ℕ) : SameDescriptor (rebind m a record) a m a where
  bytes i hi hflags hrecord := by
    rw [Region.mem_addrs] at hflags hrecord
    refine rebind_apply ?_ ?_ <;> rw [Region.mem_addrs] <;> simp only at hflags hrecord ⊢ <;> omega
  flags i h2 h3 := by
    rw [flags_rebind, Nat.testBit_or, testBit_completionRecordFlags, decide_eq_false (by omega),
      Bool.or_false]

end SameDescriptor

/-! ### What a setter stores -/

/-- The call of `make_*_task` that a setter makes. -/
def BatchOperation.args (m : Memory) (flags : BitVec 64) : BatchOperation → DescriptorArgs
  | nop => .nop (flags16 flags)
  | memMove s d n => .memMove s d n (flags16
      (if flags &&& copyOnlyFlag.setWidth 64 ≠ 0#64 then flags &&& ~~~(copyOnlyFlag.setWidth 64)
        else flags))
  | dualcast s d e n => .dualcast s d e n (flags16 flags) (specificFlags8 flags)
  | compare s t n r => .compare s t n (flags16 flags) (r.setWidth 8)
  | comparePattern s p n r => .comparePattern (readPattern m p) s n (flags16 flags) (r.setWidth 8)
  | crc s n c => .crc s n (readCrcSeed m c) (flags16 flags) (specificFlags8 flags)
  | copyCrc s n c d => .copyCrc s d n (readCrcSeed m c) (flags16 flags) (specificFlags8 flags)
  | fill p d n => .fill (readPattern m p) d n (flags16 flags)
  | cacheFlush d n => .cacheFlush d n (flags16 flags)
  | deltaCreate s t n d k r => .createDelta s t n d k (flags16 flags) (r.setWidth 8)
  | deltaApply d k t n => .applyDelta d k t n (flags16 flags)
  | difCheck s n c =>
    let cfg := readDifConfig m c
    .difCheck s n cfg.srcParameters (flags16 flags) cfg.difFlags cfg.difSrcFlags
  | difUpdate s n c d _ =>
    let cfg := readDifConfig m c
    .difUpdate s d n cfg.srcParameters cfg.dstParameters (flags16 flags) cfg.difFlags
      cfg.difSrcFlags cfg.difDstFlags
  | difInsert s n c d _ =>
    let cfg := readDifConfig m c
    .difInsert s d n cfg.dstParameters (flags16 flags) cfg.difFlags cfg.difDstFlags
  | difStrip s n c d _ =>
    let cfg := readDifConfig m c
    .difStrip s d n cfg.srcParameters (flags16 flags) cfg.difFlags cfg.difSrcFlags

section Set

variable {m : Memory} {job : UserJob} {taskIndex : BitVec 32} {scratch : ℕ} {flags : BitVec 64}

theorem exists_set_eq (op : BatchOperation) : ∃ pointers rangeStatus validated,
    op.set m (some job) taskIndex scratch flags
      = setByIndex m (some job) taskIndex scratch pointers rangeStatus validated
          (op.args m flags) := by
  cases op <;> exact ⟨_, _, _, rfl⟩

/-- A call that is accepted has assigned the task. -/
theorem setByIndex_of_ok {pointers : List (BitVec 64)} {rangeStatus : ApiStatus} {validated : Bool}
    {args : DescriptorArgs}
    (h : (setByIndex m (some job) taskIndex scratch pointers rangeStatus validated args).2
      = .own .ok) :
    taskIndex.toNat < job.taskCount
      ∧ (setByIndex m (some job) taskIndex scratch pointers rangeStatus validated args).1
        = assignTask m (job.batchDescriptor taskIndex.toNat) (job.batchRecord taskIndex.toNat)
            (makeTaskDescriptor args scratch) := by
  unfold setByIndex at h ⊢
  simp only at h ⊢
  split_ifs at h ⊢ with hnull hindex hrange hvalid
  all_goals first
    | contradiction
    | exact ⟨by omega, rfl⟩

/-- The descriptors come before the records. -/
theorem apart_batchDescriptor_batchRecord (h : taskIndex.toNat < job.taskCount) (i : ℕ) :
    Region.Apart ⟨job.batchDescriptor taskIndex.toNat, descriptorSize⟩
      ⟨job.batchRecord i, recordSize⟩ := by
  unfold UserJob.batchDescriptor UserJob.batchRecord Region.Apart descriptorSize recordSize
  simp only
  omega

/-- **What a setter stores**: the descriptor of its call. -/
theorem sameDescriptor_set {op : BatchOperation}
    (h : (op.set m (some job) taskIndex scratch flags).2 = .own .ok) :
    SameDescriptor (op.set m (some job) taskIndex scratch flags).1
      (job.batchDescriptor taskIndex.toNat) (op.args m flags).make 0 := by
  obtain ⟨pointers, rangeStatus, validated, hset⟩ := exists_set_eq op
  rw [hset] at h ⊢
  obtain ⟨hindex, hassign⟩ := setByIndex_of_ok h
  rw [hassign, makeTaskDescriptor]
  exact (SameDescriptor.of_holds (holdsDescriptor_assignTask
    (apart_batchDescriptor_batchRecord hindex _) scratch)).trans (SameDescriptor.rebind _ _ _)

end Set

/-! ### The single job -/

namespace BatchOperation

/-- The seed pointer of the operations that compute a checksum. -/
def crcSeedPtr : BatchOperation → Option (BitVec 64)
  | crc _ _ c => some c
  | copyCrc _ _ c _ => some c
  | _ => none

/-- The operation is a move. -/
def isMemMove : BatchOperation → Bool
  | memMove .. => true
  | _ => false

end BatchOperation

section Single

variable {m : Memory} {flags : BitVec 64}

/-- The setter of a move drops the promise as a submission does. -/
theorem flags16_submitted (flags : BitVec 64) :
    flags16 (if flags &&& copyOnlyFlag.setWidth 64 ≠ 0#64 then
        flags &&& ~~~(copyOnlyFlag.setWidth 64) else flags)
      = flags16 flags &&& ~~~copyOnlyFlag := by
  have htwo : copyOnlyFlag.setWidth 64 = BitVec.twoPow 64 5 := by decide
  have hbit : flags &&& copyOnlyFlag.setWidth 64 ≠ 0#64 ↔ copyOnly (flags16 flags) = true := by
    rw [copyOnly_eq_getLsbD, getLsbD_flags16 (by omega), htwo, BitVec.and_twoPow]
    cases flags.getLsbD 5 <;> decide
  by_cases hcopy : copyOnly (flags16 flags) = true
  · rw [if_pos (hbit.mpr hcopy)]
    apply BitVec.eq_of_getLsbD_eq
    intro i hi
    rw [getLsbD_flags16 hi, BitVec.getLsbD_and, BitVec.getLsbD_and, getLsbD_flags16 hi,
      getLsbD_not_copyOnlyFlag hi, htwo]
    simp [show i < 64 by omega]
  · rw [if_neg fun h => hcopy (hbit.mp h), and_not_copyOnlyFlag (Bool.eq_false_iff.mpr hcopy)]

/-- Without a checksum the setter and the single job make the same call. -/
theorem makeTask_single {op : BatchOperation} (h : op.crcSeedPtr = none) :
    (op.single m flags).submitted.makeTask m = op.args m flags := by
  cases op
  case memMove s d n =>
    rw [makeTask_submitted_memMove rfl, BatchOperation.args, flags16_submitted]
    rfl
  case crc => simp [BatchOperation.crcSeedPtr] at h
  case copyCrc => simp [BatchOperation.crcSeedPtr] at h
  all_goals rfl

/-- The promise of a move is still there before the submission. -/
theorem makeTask_single_of_not_memMove {op : BatchOperation} (h : op.isMemMove = false) :
    (op.single m flags).submitted = op.single m flags := by
  cases op
  case memMove => simp [BatchOperation.isMemMove] at h
  all_goals rfl

theorem getLsbD_specificFlags8 (flags : BitVec 64) :
    (specificFlags8 flags).getLsbD 0 = flags.getLsbD 16 := by
  simp [specificFlags8]

/-- `intersects` with the flag that asks for the seed. -/
theorem intersects_readCrcSeed (flags : BitVec 8) :
    intersects flags.toNat CrcSpecificFlag.readCrcSeed = flags.getLsbD 0 := by
  have hone : flags.toNat &&& 1 = flags.toNat % 2 := Nat.and_one_is_mod _
  rw [intersects, CrcSpecificFlag.readCrcSeed, hone, ← BitVec.testBit_toNat,
    Nat.testBit_zero]
  rfl

/-- Dropping the flag changes nothing just when it is clear. -/
theorem and_eq_self_iff (flags : BitVec 8) :
    flags &&& (0xFF#8 ^^^ BitVec.ofNat 8 CrcSpecificFlag.readCrcSeed) = flags
      ↔ flags.getLsbD 0 = false := by
  constructor
  · intro h
    rw [← h]
    simp [CrcSpecificFlag.readCrcSeed]
  · intro h
    apply BitVec.eq_of_getLsbD_eq
    intro i hi
    have hmask : ∀ i < 8, i ≠ 0 →
        (0xFF#8 ^^^ BitVec.ofNat 8 CrcSpecificFlag.readCrcSeed).getLsbD i = true := by decide
    rw [BitVec.getLsbD_and]
    by_cases h0 : i = 0
    · rw [h0, h, Bool.false_and]
    · rw [hmask i hi h0, Bool.and_true]

/-- The seed and the flags of the caller are those of the single job just when the flag is
clear and the seed is zero: a flag that is set is dropped, and a seed that is not asked for
is replaced. -/
theorem crcArgs_eq_iff (m : Memory) (job : UserJob) (hflags : job.flags = flags) :
    readCrcSeed m job.crcChecksumPtr = job.crcSeed m ∧ specificFlags8 flags = job.crcOptions
      ↔ flags.getLsbD 16 = false ∧ readCrcSeed m job.crcChecksumPtr = 0#32 := by
  have hoptions : specificFlags8 flags = job.crcOptions ↔ flags.getLsbD 16 = false := by
    rw [UserJob.crcOptions, UserJob.specificFlags, hflags, eq_comm, and_eq_self_iff,
      getLsbD_specificFlags8]
  have hseed : job.crcSeed m
      = if flags.getLsbD 16 then readCrcSeed m job.crcChecksumPtr else 0#32 := by
    rw [UserJob.crcSeed, intersects_readCrcSeed, UserJob.specificFlags, hflags,
      getLsbD_specificFlags8, readCrcSeed]
  rw [hoptions, hseed]
  constructor
  · rintro ⟨hread, hbit⟩
    rw [hbit] at hread
    exact ⟨hbit, hread⟩
  · rintro ⟨hbit, hzero⟩
    rw [hbit]
    exact ⟨hzero, rfl⟩

/-- The seed and the flags of the operation in a checksum descriptor. -/
def ReadsCrc (args : DescriptorArgs) (seed : BitVec 32) (options : BitVec 8) : Prop :=
  readBits args.make 0 CrcDescriptor.crcSeed 32 = seed
    ∧ readBits args.make 0 AnyDescriptor.operationSpecificFlags 8 = options

theorem readsCrc_crc (s : BitVec 64) (n c : BitVec 32) (o : BitVec 16) (p : BitVec 8) :
    ReadsCrc (.crc s n c o p) c p := by
  have hview := viewDescriptor_make (.crc s n c o p)
  simp only [viewDescriptor, operationOf_make, DescriptorArgs.operation, Option.some.injEq,
    DescriptorArgs.crc.injEq] at hview
  exact ⟨hview.2.2.1, hview.2.2.2.2⟩

theorem readsCrc_copyCrc (s d : BitVec 64) (n c : BitVec 32) (o : BitVec 16) (p : BitVec 8) :
    ReadsCrc (.copyCrc s d n c o p) c p := by
  have hview := viewDescriptor_make (.copyCrc s d n c o p)
  simp only [viewDescriptor, operationOf_make, DescriptorArgs.operation, Option.some.injEq,
    DescriptorArgs.copyCrc.injEq] at hview
  exact ⟨hview.2.2.2.1, hview.2.2.2.2.2⟩

/-- Two checksum descriptors are told apart by the seed and the flags of the operation. -/
theorem sameDescriptor_crc_iff {make : BitVec 32 → BitVec 8 → DescriptorArgs}
    (hmake : ∀ seed options, ReadsCrc (make seed options) seed options) {seed seed' : BitVec 32}
    {options options' : BitVec 8} :
    SameDescriptor (make seed options).make 0 (make seed' options').make 0
      ↔ seed = seed' ∧ options = options' := by
  constructor
  · intro h
    obtain ⟨hseed, hoptions⟩ := hmake seed options
    obtain ⟨hseed', hoptions'⟩ := hmake seed' options'
    have hget : CrcDescriptor.crcSeed.get (make seed options).make 0
        = CrcDescriptor.crcSeed.get (make seed' options').make 0 :=
      h.get (by decide) (by decide) (by decide)
    have hget' : AnyDescriptor.operationSpecificFlags.get (make seed options).make 0
        = AnyDescriptor.operationSpecificFlags.get (make seed' options').make 0 :=
      h.get (by decide) (by decide) (by decide)
    unfold readBits at hseed hseed' hoptions hoptions'
    rw [hget] at hseed
    rw [hget'] at hoptions
    exact ⟨hseed.symm.trans hseed', hoptions.symm.trans hoptions'⟩
  · rintro ⟨rfl, rfl⟩
    exact SameDescriptor.refl _ _

/-- What a setter of a checksum needs to agree with the single job. -/
def BatchOperation.SeedAgrees (m : Memory) (flags : BitVec 64) (op : BatchOperation) : Prop :=
  ∀ c, op.crcSeedPtr = some c → flags.getLsbD 16 = false ∧ readCrcSeed m c = 0#32

theorem seedAgrees_iff {op : BatchOperation} {c : BitVec 64} (h : op.crcSeedPtr = some c) :
    op.SeedAgrees m flags ↔ flags.getLsbD 16 = false ∧ readCrcSeed m c = 0#32 := by
  constructor
  · intro hagrees
    exact hagrees c h
  · intro hagrees c' hc
    rw [h, Option.some.injEq] at hc
    rw [← hc]
    exact hagrees

/-- When the two calls make the same descriptor. -/
theorem sameDescriptor_args_iff (op : BatchOperation) :
    SameDescriptor (op.args m flags).make 0 ((op.single m flags).submitted.makeTask m).make 0
      ↔ op.SeedAgrees m flags := by
  cases op with
  | crc s n c =>
    rw [seedAgrees_iff rfl]
    refine Iff.trans ?_ (crcArgs_eq_iff m (BatchOperation.single m flags (.crc s n c)) rfl)
    exact sameDescriptor_crc_iff fun seed options => readsCrc_crc s n seed (flags16 flags) options
  | copyCrc s n c d =>
    rw [seedAgrees_iff rfl]
    refine Iff.trans ?_ (crcArgs_eq_iff m (BatchOperation.single m flags (.copyCrc s n c d)) rfl)
    exact sameDescriptor_crc_iff fun seed options =>
      readsCrc_copyCrc s d n seed (flags16 flags) options
  | _ =>
    rw [makeTask_single rfl]
    exact ⟨fun _ c hc => by simp [BatchOperation.crcSeedPtr] at hc,
      fun _ => SameDescriptor.refl _ _⟩

/-- The promise of a move is still in its flags before the submission. -/
theorem sameDescriptor_memMove_iff (s d : BitVec 64) (n : BitVec 32) (o : BitVec 16) :
    SameDescriptor (DescriptorArgs.memMove s d n (o &&& ~~~copyOnlyFlag)).make 0
        (DescriptorArgs.memMove s d n o).make 0
      ↔ copyOnly o = false := by
  have hoptions : ∀ o : BitVec 16,
      AnyDescriptor.flags.get (DescriptorArgs.memMove s d n o).make 0 = o.toNat := by
    intro o
    have hview := viewDescriptor_make (.memMove s d n o)
    simp only [viewDescriptor, operationOf_make, DescriptorArgs.operation, Option.some.injEq,
      DescriptorArgs.memMove.injEq] at hview
    exact get_of_readBits (w := 16) rfl hview.2.2.2
  constructor
  · intro h
    have hbit := h.flags 5 (by omega) (by omega)
    rw [hoptions, hoptions, BitVec.testBit_toNat, BitVec.testBit_toNat, BitVec.getLsbD_and,
      getLsbD_not_copyOnlyFlag (by omega)] at hbit
    rw [copyOnly_eq_getLsbD, ← hbit]
    simp
  · intro h
    rw [and_not_copyOnlyFlag h]
    exact SameDescriptor.refl _ _

end Single

/-- **When a setter stores the descriptor of the single job**: unless it computes a
checksum, and then only with a clear flag and a seed of zero.  Compared with `make_task` on
a job that has not been through the submission, a move must not make its promise either. -/
theorem batch_set_same_iff {m : Memory} {job : UserJob} {taskIndex : BitVec 32} {scratch : ℕ}
    {flags : BitVec 64} {op : BatchOperation}
    (h : (op.set m (some job) taskIndex scratch flags).2 = .own .ok) :
    (SameDescriptor (op.set m (some job) taskIndex scratch flags).1
        (job.batchDescriptor taskIndex.toNat)
        ((op.single m flags).submitted.makeTask m).make 0
      ↔ op.SeedAgrees m flags)
    ∧ (SameDescriptor (op.set m (some job) taskIndex scratch flags).1
          (job.batchDescriptor taskIndex.toNat) ((op.single m flags).makeTask m).make 0
        ↔ op.SeedAgrees m flags
          ∧ ¬(op.isMemMove = true ∧ copyOnly (flags16 flags) = true)) := by
  have hstored := sameDescriptor_set h
  have hcompare : ∀ d : Memory,
      SameDescriptor (op.set m (some job) taskIndex scratch flags).1
          (job.batchDescriptor taskIndex.toNat) d 0
        ↔ SameDescriptor (op.args m flags).make 0 d 0 :=
    fun d => ⟨hstored.symm.trans, hstored.trans⟩
  refine ⟨(hcompare _).trans (sameDescriptor_args_iff op), (hcompare _).trans ?_⟩
  cases hmove : op.isMemMove with
  | false =>
    rw [← makeTask_single_of_not_memMove hmove, sameDescriptor_args_iff]
    simp
  | true =>
    cases op with
    | memMove s d n =>
      rw [BatchOperation.args, flags16_submitted]
      refine (sameDescriptor_memMove_iff s d n (flags16 flags)).trans ?_
      simp [BatchOperation.SeedAgrees, BatchOperation.crcSeedPtr]
    | _ => simp [BatchOperation.isMemMove] at hmove

/-- A batch with room for four tasks, in a buffer at `0x4000`. -/
def sampleBatch : UserJob :=
  { initJob .batch 0#64 with destinationFirstPtr := 0x4000#64, destinationLength := 384#32 }

/-- A memory of zeros, with the seed 7 at `0x100`. -/
def seedMemory : Memory := store emptyDescriptor 0x100 4 7

theorem batch_set_same_fill :
    SameDescriptor
      ((BatchOperation.fill 0x100#64 0x2000#64 64#32).set seedMemory (some sampleBatch) 2#32 0
        0#64).1
      (sampleBatch.batchDescriptor 2)
      (((BatchOperation.fill 0x100#64 0x2000#64 64#32).single seedMemory 0#64).submitted.makeTask
        seedMemory).make 0 :=
  (batch_set_same_iff (by decide)).1.mpr fun c hc => by
    simp [BatchOperation.crcSeedPtr] at hc

/-- **A seed that nobody asked for**: a checksum set in a batch with the flag clear has the
seed 7, the single job has the seed 0. -/
theorem batch_set_crc_seed :
    ((BatchOperation.crc 0x2000#64 64#32 0x100#64).set seedMemory (some sampleBatch) 2#32 0 0#64).2
        = .own .ok
      ∧ ¬SameDescriptor
          ((BatchOperation.crc 0x2000#64 64#32 0x100#64).set seedMemory (some sampleBatch) 2#32 0
            0#64).1
          (sampleBatch.batchDescriptor 2)
          (((BatchOperation.crc 0x2000#64 64#32 0x100#64).single seedMemory 0#64).makeTask
            seedMemory).make 0 := by
  have hset : ((BatchOperation.crc 0x2000#64 64#32 0x100#64).set seedMemory (some sampleBatch) 2#32
      0 0#64).2 = .own .ok := by decide
  refine ⟨hset, fun hsame => ?_⟩
  have hseed : CrcDescriptor.crcSeed.get
      (BatchOperation.args seedMemory 0#64 (.crc 0x2000#64 64#32 0x100#64)).make 0
      = CrcDescriptor.crcSeed.get (((BatchOperation.crc 0x2000#64 64#32 0x100#64).single seedMemory
          0#64).makeTask seedMemory).make 0 :=
    ((sameDescriptor_set hset).symm.trans hsame).get (by decide) (by decide) (by decide)
  exact absurd hseed (by decide)

end DataMover
