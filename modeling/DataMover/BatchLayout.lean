import DataMover.BatchResult
import DataMover.CopyOnly

/-!
# The buffer of a batch

The caller asks `dml_get_batch_size` for the size of a buffer for `n` tasks; every setter,
every getter and `make_task` take the number of tasks back from that size, and the places of
the descriptors and records from it and from the aligned start of the buffer
(`c_api/dml_batch.cpp`).

The size is computed in 32 bits and no upper bound is checked.  Up to `96 * n + 64 < 2 ^ 32`
it is right, the slots lie inside the buffer and apart from each other, and a setter touches
the two slots of its index or nothing; beyond, the size is too small for the count.

## Main definitions

* `dmlGetBatchSize` — the size of the buffer.
* `BatchBuffer` — a buffer of that size.
* `LayoutSound`, `RecoversCount` — where the slots are, and how many.
* `SetCall`, `runCalls` — a sequence of calls of the setters.

## Main results

* `dmlGetBatchSize_sufficient_iff` — when the size suffices.
* `batchBuffer_sound` — the layout, and what calls do to it.
-/

namespace DataMover

open ByteMemory

/-! ### The size of the buffer -/

/-- `get_task_size() * task_count + required_alignment`, in 32 bits. -/
def batchByteSize (taskCount : BitVec 32) : BitVec 32 :=
  BitVec.ofNat 32 taskSize * taskCount + 64#32

/-- `dml_get_batch_size`. -/
def dmlGetBatchSize (m : Memory) (job : Option UserJob) (taskCount : BitVec 32)
    (byteSizePtr : BitVec 64) : Memory × ApiStatus :=
  match job with
  | none => (m, .nullPointerError)
  | some _ =>
    if byteSizePtr = 0#64 then (m, .nullPointerError)
    else if taskCount < 4#32 then (m, .own .batchSizeError)
    else (store m byteSizePtr.toNat 4 (batchByteSize taskCount).toNat, .own .ok)

theorem toNat_batchByteSize (n : BitVec 32) :
    (batchByteSize n).toNat = (96 * n.toNat + 64) % 2 ^ 32 := by
  rw [batchByteSize, BitVec.toNat_add, BitVec.toNat_mul]
  simp only [taskSize, descriptorSize, recordSize, BitVec.toNat_ofNat]
  omega

/-- **What a caller gets.** -/
theorem dmlGetBatchSize_of_ok {m : Memory} {job : Option UserJob} {n : BitVec 32}
    {byteSizePtr : BitVec 64} (h : (dmlGetBatchSize m job n byteSizePtr).2 = .own .ok) :
    4 ≤ n.toNat ∧ load (dmlGetBatchSize m job n byteSizePtr).1 byteSizePtr.toNat 4
      = (96 * n.toNat + 64) % 2 ^ 32 := by
  cases job with
  | none => cases h
  | some job =>
    unfold dmlGetBatchSize at h ⊢
    simp only at h ⊢
    split_ifs at h ⊢ with hnull hsmall
    · cases h
    · rw [BitVec.lt_def] at hsmall
      refine ⟨Nat.not_lt.mp hsmall, ?_⟩
      rw [load_store_self, toNat_batchByteSize, Nat.mod_mod]

/-- The size has room for the tasks and for aligning them, and gives their number back. -/
def Sufficient (byteSize n : ℕ) : Prop :=
  descriptorSize * n + recordSize * n + 64 ≤ byteSize
    ∧ ∀ job : UserJob, job.destinationLength = BitVec.ofNat 32 byteSize → job.taskCount = n

/-- The number of tasks in a buffer of the right size. -/
theorem taskCount_of_length {job : UserJob} {n : ℕ}
    (h : job.destinationLength.toNat = 96 * n + 64) : job.taskCount = n := by
  rw [UserJob.taskCount, h]
  simp only [taskSize, descriptorSize, recordSize]
  omega

/-- **When the size that `dml_get_batch_size` returns suffices**: when it fits in 32 bits. -/
theorem dmlGetBatchSize_sufficient_iff {m : Memory} {job : Option UserJob} {n : BitVec 32}
    {byteSizePtr : BitVec 64} (h : (dmlGetBatchSize m job n byteSizePtr).2 = .own .ok) :
    Sufficient (load (dmlGetBatchSize m job n byteSizePtr).1 byteSizePtr.toNat 4) n.toNat
      ↔ 96 * n.toNat + 64 < 2 ^ 32 := by
  obtain ⟨-, hsize⟩ := dmlGetBatchSize_of_ok h
  rw [hsize, Sufficient]
  simp only [descriptorSize, recordSize]
  constructor
  · rintro ⟨hroom, -⟩
    omega
  · intro hfit
    rw [Nat.mod_eq_of_lt hfit]
    refine ⟨by omega, fun job hlength => taskCount_of_length ?_⟩
    rw [hlength, BitVec.toNat_ofNat, Nat.mod_eq_of_lt hfit]

theorem dmlGetBatchSize_sufficient_iff_4 :
    Sufficient (load (dmlGetBatchSize emptyDescriptor (some fourTasks) 4#32 0x100#64).1
        (0x100#64).toNat 4) (4#32).toNat
      ↔ 96 * (4#32).toNat + 64 < 2 ^ 32 :=
  dmlGetBatchSize_sufficient_iff (by decide)

/-- For 44739243 tasks the answer is a buffer of 96 bytes, which gives back one task. -/
theorem dmlGetBatchSize_wraps :
    (dmlGetBatchSize emptyDescriptor (some fourTasks) 44739243#32 0x100#64).2 = .own .ok
      ∧ load (dmlGetBatchSize emptyDescriptor (some fourTasks) 44739243#32 0x100#64).1
          (0x100#64).toNat 4 = 96
      ∧ { fourTasks with destinationLength := 96#32 }.taskCount = 1
      ∧ ¬Sufficient (load (dmlGetBatchSize emptyDescriptor (some fourTasks) 44739243#32
          0x100#64).1 (0x100#64).toNat 4) 44739243 := by
  have hsize : load (dmlGetBatchSize emptyDescriptor (some fourTasks) 44739243#32 0x100#64).1
      (0x100#64).toNat 4 = 96 := by decide
  refine ⟨by decide, hsize, by decide, ?_⟩
  rw [hsize]
  rintro ⟨hroom, -⟩
  exact absurd hroom (by decide)

/-! ### The slots -/

/-- **Where the slots are**: inside the buffer, aligned, and apart from each other. -/
structure LayoutSound (job : UserJob) (n : ℕ) : Prop where
  descriptor_inside : ∀ i, i < n → Region.Inside ⟨job.batchDescriptor i, descriptorSize⟩
    ⟨job.destinationFirstPtr.toNat, job.destinationLength.toNat⟩
  record_inside : ∀ i, i < n → Region.Inside ⟨job.batchRecord i, recordSize⟩
    ⟨job.destinationFirstPtr.toNat, job.destinationLength.toNat⟩
  descriptor_aligned : ∀ i, job.batchDescriptor i % 64 = 0
  record_aligned : ∀ i, job.batchRecord i % 32 = 0
  descriptors_apart : ∀ i j, i ≠ j → Region.Apart ⟨job.batchDescriptor i, descriptorSize⟩
    ⟨job.batchDescriptor j, descriptorSize⟩
  records_apart : ∀ i j, i ≠ j → Region.Apart ⟨job.batchRecord i, recordSize⟩
    ⟨job.batchRecord j, recordSize⟩
  descriptor_record_apart : ∀ i j, i < n → Region.Apart ⟨job.batchDescriptor i, descriptorSize⟩
    ⟨job.batchRecord j, recordSize⟩

/-- **A buffer for `n` tasks**: of the size that `dml_get_batch_size` returned, which has
fitted in 32 bits, somewhere in the address space. -/
structure BatchBuffer (job : UserJob) (n : BitVec 32) : Prop where
  sized : ∃ m caller byteSizePtr, (dmlGetBatchSize m caller n byteSizePtr).2 = .own .ok
    ∧ load (dmlGetBatchSize m caller n byteSizePtr).1 byteSizePtr.toNat 4
      = job.destinationLength.toNat
  fits : 96 * n.toNat + 64 < 2 ^ 32
  placed : job.destinationFirstPtr.toNat + job.destinationLength.toNat ≤ 2 ^ 64

/-- The aligned start lies in the slack. -/
theorem toNat_align {pointer : BitVec 64} (h : pointer.toNat + 64 ≤ 2 ^ 64) :
    (align pointer).toNat = pointer.toNat + (64 - pointer.toNat % 64) % 64 := by
  have hoffset : (pointer &&& 63#64).toNat = pointer.toNat % 64 := by
    rw [BitVec.toNat_and]
    exact Nat.and_two_pow_sub_one_eq_mod pointer.toNat 6
  unfold align
  by_cases hzero : pointer &&& 63#64 = 0#64
  · rw [hzero, BitVec.toNat_zero] at hoffset
    simp only [hzero, ne_eq, not_true_eq_false, if_false, BitVec.add_zero]
    omega
  · have hne : (pointer &&& 63#64).toNat ≠ 0 := fun h => hzero (BitVec.eq_of_toNat_eq h)
    simp only [ne_eq, hzero, not_false_eq_true, if_true]
    rw [BitVec.toNat_add, BitVec.toNat_sub, hoffset] at *
    simp only [BitVec.toNat_ofNat]
    omega

namespace BatchBuffer

variable {job : UserJob} {n : BitVec 32}

theorem length (h : BatchBuffer job n) : job.destinationLength.toNat = 96 * n.toNat + 64 := by
  obtain ⟨m, caller, byteSizePtr, hok, hsize⟩ := h.sized
  rw [← hsize, (dmlGetBatchSize_of_ok hok).2, Nat.mod_eq_of_lt h.fits]

theorem taskCount (h : BatchBuffer job n) : job.taskCount = n.toNat := taskCount_of_length h.length

/-- The start of the slots, and where they are from it. -/
theorem exists_start (h : BatchBuffer job n) :
    ∃ start, job.destinationFirstPtr.toNat ≤ start ∧ start < job.destinationFirstPtr.toNat + 64
      ∧ start % 64 = 0 ∧ (∀ i, job.batchDescriptor i = start + 64 * i)
      ∧ ∀ i, job.batchRecord i = start + 64 * n.toNat + 32 * i := by
  have hlength := h.length
  have hplaced := h.placed
  have halign : (align job.destinationFirstPtr).toNat
      = job.destinationFirstPtr.toNat + (64 - job.destinationFirstPtr.toNat % 64) % 64 :=
    toNat_align (by omega)
  refine ⟨(align job.destinationFirstPtr).toNat, by omega, by omega, by omega, fun i => rfl, ?_⟩
  intro i
  rw [UserJob.batchRecord, h.taskCount]

/-- **The layout is sound.** -/
theorem layoutSound (h : BatchBuffer job n) : LayoutSound job n.toNat := by
  obtain ⟨start, hlow, hhigh, haligned, hdescriptor, hrecord⟩ := h.exists_start
  have hlength := h.length
  constructor
  case descriptor_inside =>
    intro i hi
    rw [hdescriptor, hlength, Region.Inside]
    simp only [descriptorSize]
    omega
  case record_inside =>
    intro i hi
    rw [hrecord, hlength, Region.Inside]
    simp only [recordSize]
    omega
  case descriptor_aligned =>
    intro i
    rw [hdescriptor]
    omega
  case record_aligned =>
    intro i
    rw [hrecord]
    omega
  case descriptors_apart =>
    intro i j hij
    rw [hdescriptor, hdescriptor, Region.Apart]
    simp only [descriptorSize]
    omega
  case records_apart =>
    intro i j hij
    rw [hrecord, hrecord, Region.Apart]
    simp only [recordSize]
    omega
  case descriptor_record_apart =>
    intro i j hi
    rw [hdescriptor, hrecord, Region.Apart]
    simp only [descriptorSize, recordSize]
    omega

/-- **The batch descriptor** that `make_task` builds: the first slot, and the count. -/
theorem makeTask_batch (h : BatchBuffer job n) (hop : job.op = some .batch) (m : Memory) :
    BatchDescriptor.descriptorListAddress.get (job.makeTask m).make 0 = job.batchDescriptor 0
      ∧ BatchDescriptor.descriptorsCount.get (job.makeTask m).make 0 = n.toNat := by
  have hmake : job.makeTask m = .batch (align job.destinationFirstPtr)
      (job.destinationLength / 96#32) job.jobFlags := by
    rw [UserJob.makeTask, hop]
  have hcount : (job.destinationLength / 96#32).toNat = n.toNat := by
    have h96 : (96#32).toNat = 96 := rfl
    rw [BitVec.toNat_udiv, h.length, h96]
    omega
  have hview := viewDescriptor_make (job.makeTask m)
  rw [hmake] at hview ⊢
  simp only [viewDescriptor, operationOf_make, DescriptorArgs.operation, Option.some.injEq,
    DescriptorArgs.batch.injEq] at hview
  obtain ⟨hlist, hdescriptors, -⟩ := hview
  constructor
  · exact get_of_readBits rfl hlist
  · exact (get_of_readBits rfl hdescriptors).trans hcount

end BatchBuffer

/-! ### Calls of the setters -/

section Calls

variable {m : Memory} {job : UserJob} {taskIndex : BitVec 32} {scratch : ℕ} {flags : BitVec 64}

/-- A call that is rejected leaves the memory alone. -/
theorem setByIndex_of_error {pointers : List (BitVec 64)} {rangeStatus : ApiStatus}
    {validated : Bool} {args : DescriptorArgs} (caller : Option UserJob)
    (h : (setByIndex m caller taskIndex scratch pointers rangeStatus validated args).2
      ≠ .own .ok) :
    (setByIndex m caller taskIndex scratch pointers rangeStatus validated args).1 = m := by
  cases caller with
  | none => rfl
  | some job =>
    unfold setByIndex at h ⊢
    simp only at h ⊢
    split_ifs at h ⊢
    all_goals first
      | rfl
      | contradiction

theorem set_none (op : BatchOperation) :
    (op.set m none taskIndex scratch flags) = (m, .nullPointerError) := by
  cases op <;> rfl

/-- **A rejected call changes nothing**: a null argument, an index past the end, a range check
or a validation. -/
theorem set_of_error {op : BatchOperation} (caller : Option UserJob)
    (h : (op.set m caller taskIndex scratch flags).2 ≠ .own .ok) :
    (op.set m caller taskIndex scratch flags).1 = m := by
  cases caller with
  | none => rw [set_none]
  | some job =>
    obtain ⟨pointers, rangeStatus, validated, hset⟩ := exists_set_eq op
    rw [hset] at h ⊢
    exact setByIndex_of_error (some job) h

/-- **An accepted call changes the two slots of its index**, which is one of the batch. -/
theorem set_of_ok {op : BatchOperation}
    (h : (op.set m (some job) taskIndex scratch flags).2 = .own .ok) :
    taskIndex.toNat < job.taskCount ∧
      ∀ x, x ∉ Region.addrs ⟨job.batchDescriptor taskIndex.toNat, descriptorSize⟩ →
        x ∉ Region.addrs ⟨job.batchRecord taskIndex.toNat, recordSize⟩ →
        (op.set m (some job) taskIndex scratch flags).1 x = m x := by
  obtain ⟨pointers, rangeStatus, validated, hset⟩ := exists_set_eq op
  rw [hset] at h ⊢
  obtain ⟨hindex, hassign⟩ := setByIndex_of_ok h
  refine ⟨hindex, fun x hdescriptor hrecord => ?_⟩
  rw [hassign]
  exact assignTask_apply hdescriptor hrecord

/-- The range checks of the setters do not look at the index. -/
theorem exists_set_eq_range (op : BatchOperation) : ∃ pointers rangeStatus validated,
    rangeStatus ≠ .batchTaskIndexOverflow ∧
      op.set m (some job) taskIndex scratch flags
        = setByIndex m (some job) taskIndex scratch pointers rangeStatus validated
            (op.args m flags) := by
  have hmove : ∀ (s d : BitVec 64) (n : BitVec 32) (o : BitVec 16),
      rangeCheckMemMove s d n o ≠ .batchTaskIndexOverflow := by
    intro s d n o
    rcases rangeCheckMemMove_cases s d n o with h | h
    · simp [h]
    · simp [h]
  have hcrc : ∀ c : BitVec 64, rangeCheckCrc c ≠ .batchTaskIndexOverflow := by
    intro c
    unfold rangeCheckCrc
    split_ifs <;> simp
  cases op
  case memMove s d n => exact ⟨_, _, _, hmove s d n _, rfl⟩
  case crc s n c => exact ⟨_, _, _, hcrc c, rfl⟩
  case copyCrc s n c d => exact ⟨_, _, _, hcrc c, rfl⟩
  all_goals exact ⟨_, .own .ok, _, by simp, rfl⟩

theorem validationStatus_ne_overflow (status : ValidationStatus) :
    status.toOwnStatus ≠ .batchTaskIndexOverflow := by
  cases status <;> simp [ValidationStatus.toOwnStatus]

/-- **A setter and the number of tasks**: an index is past the end when the answer says so,
and an index past the end is answered so, unless an argument is null. -/
theorem set_overflow (op : BatchOperation) :
    ((op.set m (some job) taskIndex scratch flags).2 = .batchTaskIndexOverflow →
        job.taskCount ≤ taskIndex.toNat) ∧
      (job.taskCount ≤ taskIndex.toNat →
        (op.set m (some job) taskIndex scratch flags).2 = .batchTaskIndexOverflow ∨
          (op.set m (some job) taskIndex scratch flags).2 = .nullPointerError) := by
  obtain ⟨pointers, rangeStatus, validated, hrange, hset⟩ := exists_set_eq_range op
  rw [hset]
  unfold setByIndex
  simp only
  by_cases hnull : job.destinationLength = 0#32 ∨ 0#64 ∈ pointers
  · rw [if_pos hnull]
    exact ⟨fun h => (by cases h), fun _ => Or.inr rfl⟩
  · rw [if_neg hnull]
    by_cases hindex : job.taskCount ≤ taskIndex.toNat
    · rw [if_pos hindex]
      exact ⟨fun _ => hindex, fun _ => Or.inl rfl⟩
    · rw [if_neg hindex]
      refine ⟨fun h => ?_, fun h => absurd h hindex⟩
      -- no later check answers with an overflow of the index
      split_ifs at h
      · exact absurd h hrange
      · exact absurd h (validationStatus_ne_overflow _)

end Calls

/-! ### The count, and sequences of calls -/

/-- **Everyone recovers `n`** from the length of the buffer. -/
structure RecoversCount (job : UserJob) (n : ℕ) : Prop where
  setter : ∀ (op : BatchOperation) (m : Memory) (taskIndex : BitVec 32) (scratch : ℕ)
    (flags : BitVec 64),
    ((op.set m (some job) taskIndex scratch flags).2 = .batchTaskIndexOverflow →
        n ≤ taskIndex.toNat) ∧
      (n ≤ taskIndex.toNat →
        (op.set m (some job) taskIndex scratch flags).2 = .batchTaskIndexOverflow ∨
          (op.set m (some job) taskIndex scratch flags).2 = .nullPointerError)
  getter : ∀ (m : Memory) (taskIndex : BitVec 32) (pointer : BitVec 64) (value : UserJob → ℕ),
    pointer ≠ 0#64 → (getByIndex m (some job) taskIndex pointer value).2
      = if taskIndex.toNat < n then .own .ok else .batchTaskIndexOverflow
  makeTask : job.op = some .batch → ∀ m : Memory,
    BatchDescriptor.descriptorListAddress.get (job.makeTask m).make 0 = job.batchDescriptor 0
      ∧ BatchDescriptor.descriptorsCount.get (job.makeTask m).make 0 = n

theorem BatchBuffer.recoversCount {job : UserJob} {n : BitVec 32} (h : BatchBuffer job n) :
    RecoversCount job n.toNat := by
  have hcount := h.taskCount
  constructor
  case setter =>
    intro op m taskIndex scratch flags
    rw [← hcount]
    exact set_overflow op
  case getter =>
    intro m taskIndex pointer value hpointer
    unfold getByIndex
    simp only
    rw [if_neg hpointer, hcount]
    split_ifs with hle hlt
    · omega
    · rfl
    · rfl
    · omega
  case makeTask =>
    intro hop m
    exact h.makeTask_batch hop m

/-- A call of a setter: the batch, or a null pointer. -/
structure SetCall where
  nullJob : Bool
  op : BatchOperation
  taskIndex : BitVec 32
  scratch : ℕ
  flags : BitVec 64

/-- The call. -/
def SetCall.run (job : UserJob) (c : SetCall) (m : Memory) : Memory × ApiStatus :=
  c.op.set m (if c.nullJob then none else some job) c.taskIndex c.scratch c.flags

/-- The memory after a sequence of calls. -/
def runCalls (job : UserJob) (m : Memory) : List SetCall → Memory
  | [] => m
  | c :: calls => runCalls job (c.run job m).1 calls

/-- One of the calls stores a task at index `i`. -/
def StoresAt (job : UserJob) (i : ℕ) : Memory → List SetCall → Prop
  | _, [] => False
  | m, c :: calls =>
    ((c.run job m).2 = .own .ok ∧ c.taskIndex.toNat = i) ∨ StoresAt job i (c.run job m).1 calls

/-- **A call is atomic**: rejected, it changes nothing; accepted, it changes the two slots of
its index. -/
structure Atomic (job : UserJob) (n : ℕ) (m : Memory) (c : SetCall) : Prop where
  error : (c.run job m).2 ≠ .own .ok → (c.run job m).1 = m
  ok : (c.run job m).2 = .own .ok → c.taskIndex.toNat < n ∧
    ∀ x, x ∉ Region.addrs ⟨job.batchDescriptor c.taskIndex.toNat, descriptorSize⟩ →
      x ∉ Region.addrs ⟨job.batchRecord c.taskIndex.toNat, recordSize⟩ → (c.run job m).1 x = m x

theorem atomic_run (job : UserJob) (m : Memory) (c : SetCall) : Atomic job job.taskCount m c := by
  constructor
  case error => exact set_of_error _
  case ok =>
    intro h
    unfold SetCall.run at h ⊢
    cases hnull : c.nullJob with
    | true =>
      rw [hnull, if_pos rfl, set_none] at h
      cases h
    | false =>
      simp only [hnull, Bool.false_eq_true, if_false] at h ⊢
      exact set_of_ok h

/-- The bytes of slot `i`, of the descriptor and of the record. -/
def slotBytes (job : UserJob) (i : ℕ) : Set ℕ :=
  Region.addrs ⟨job.batchDescriptor i, descriptorSize⟩ ∪
    Region.addrs ⟨job.batchRecord i, recordSize⟩

/-- The slots of different tasks share no byte. -/
theorem LayoutSound.slotBytes_disjoint {job : UserJob} {n i j x : ℕ} (h : LayoutSound job n)
    (hi : i < n) (hj : j < n) (hij : i ≠ j) (hx : x ∈ slotBytes job i) :
    x ∉ Region.addrs ⟨job.batchDescriptor j, descriptorSize⟩ ∧
      x ∉ Region.addrs ⟨job.batchRecord j, recordSize⟩ := by
  rcases hx with hx | hx
  · exact ⟨(h.descriptors_apart i j hij).notMem hx, (h.descriptor_record_apart i j hi).notMem hx⟩
  · exact ⟨(h.descriptor_record_apart j i hj).symm.notMem hx, (h.records_apart i j hij).notMem hx⟩

/-- **One call and a slot**: only a call that stores a task there changes it. -/
theorem run_keeps_slot {job : UserJob} {m : Memory} {c : SetCall} {i x : ℕ}
    (hlayout : LayoutSound job job.taskCount) (hi : i < job.taskCount)
    (hc : ¬((c.run job m).2 = .own .ok ∧ c.taskIndex.toNat = i)) (hx : x ∈ slotBytes job i) :
    (c.run job m).1 x = m x := by
  obtain ⟨herror, hok⟩ := atomic_run job m c
  by_cases hstatus : (c.run job m).2 = .own .ok
  · obtain ⟨hindex, hframe⟩ := hok hstatus
    have hne : i ≠ c.taskIndex.toNat := fun heq => hc ⟨hstatus, heq.symm⟩
    obtain ⟨hdescriptor, hrecord⟩ := hlayout.slotBytes_disjoint hi hindex hne hx
    exact hframe x hdescriptor hrecord
  · rw [herror hstatus]

/-- **A sequence of calls and a slot.** -/
theorem runCalls_keeps_slot {job : UserJob} {i x : ℕ} (hlayout : LayoutSound job job.taskCount)
    (hi : i < job.taskCount) (hx : x ∈ slotBytes job i) {m : Memory} {calls : List SetCall}
    (hcalls : ¬StoresAt job i m calls) : runCalls job m calls x = m x := by
  induction calls generalizing m with
  | nil => rfl
  | cons c calls ih =>
    rw [StoresAt, not_or] at hcalls
    obtain ⟨hc, hrest⟩ := hcalls
    calc runCalls job m (c :: calls) x = (c.run job m).1 x := ih hrest
      _ = m x := run_keeps_slot hlayout hi hc hx

/-- **The buffer of a batch**: the layout is sound, everyone recovers the number of tasks, and
in every sequence of calls each call is atomic and a slot is what the calls that store a task
there made it. -/
theorem batchBuffer_sound {job : UserJob} {n : BitVec 32} (h : BatchBuffer job n) :
    LayoutSound job n.toNat ∧ RecoversCount job n.toNat ∧
      ∀ (m : Memory) (calls : List SetCall),
        (∀ before c after, calls = before ++ c :: after →
          Atomic job n.toNat (runCalls job m before) c) ∧
        ∀ i, i < n.toNat → ¬StoresAt job i m calls →
          Set.EqOn (runCalls job m calls) m (slotBytes job i) := by
  have hlayout := h.layoutSound
  refine ⟨hlayout, h.recoversCount, fun m calls => ⟨fun before c _ _ => ?_, ?_⟩⟩
  · rw [← h.taskCount]
    exact atomic_run job _ c
  · intro i hi hcalls x hx
    rw [← h.taskCount] at hlayout hi
    exact runCalls_keeps_slot hlayout hi hx hcalls

/-- A buffer for four tasks. -/
theorem batchBuffer_fourTasks : BatchBuffer fourTasks 4#32 where
  sized := ⟨emptyDescriptor, some fourTasks, 0x100#64, by decide, by decide⟩
  fits := by decide
  placed := by decide

theorem batchBuffer_sound_fourTasks :
    LayoutSound fourTasks 4 ∧ RecoversCount fourTasks 4 ∧
      ∀ (m : Memory) (calls : List SetCall),
        (∀ before c after, calls = before ++ c :: after →
          Atomic fourTasks 4 (runCalls fourTasks m before) c) ∧
        ∀ i, i < 4 → ¬StoresAt fourTasks i m calls →
          Set.EqOn (runCalls fourTasks m calls) m (slotBytes fourTasks i) :=
  batchBuffer_sound batchBuffer_fourTasks

end DataMover
