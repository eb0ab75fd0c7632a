import DataMover.CoreInterconnect
import DataMover.MakeDescriptor

/-!
# Sequences of operations

`sequence.hpp`: the container of the high-level interface that collects the operations of
a batch.  Every overload of `add` writes the operation into the next free slot and only
then validates it; a rejected operation stays in the slot, and the length hides it.

## Main definitions

* `SequenceOperation` — a call of one of the overloads of `add`.
* `SequenceBuffers` — the two arrays of a sequence.
* `Sequence.add`, `Sequence.run` — one call, and a run of calls.
* `Sequence.accepted` — the calls of a run that returned `ok`.
* `Sequence.Holds` — the invariant: the slots below the length hold the accepted calls.

## Main results

* `Sequence.add_cases` — what one call can do.
* `Sequence.holds_run` — every run keeps the invariant.
* `sequence_holds_accepted` — what a sequence holds after any run.
-/

namespace DataMover

open ByteMemory

/-! ### Statuses -/

/-- `dml::status_code`. -/
inductive StatusCode
  | ok | falsePredicate | partialCompletion | nullptrError | badSize | badLength
  | inconsistentSize | dualcastBadPadding | badAlignment | buffersOverlapping | deltaBadSize
  | deltaDeltaEmpty | batchOverflow | executionFailed | unsupportedOperation | queueBusy | error
  | configError
  deriving DecidableEq, Repr

/-- `to_own` of a validation status.  The two statuses of the dif checks have no code of
their own. -/
def ValidationStatus.toOwn : ValidationStatus → StatusCode
  | .success => .ok
  | .nullAddress => .nullptrError
  | .nullSize => .badSize
  | .wrongSize => .badSize
  | .largeSize => .badSize
  | .overlapping => .buffersOverlapping
  | .misalignment => .badAlignment
  | .wrongDeltaSize => .deltaBadSize
  | .wrongDualcastAddress => .dualcastBadPadding
  | .wrongBatchSize => .badLength
  | .unsupportedOperation => .unsupportedOperation
  | .wrongDifSize => .error
  | .difStripAdjacent => .error
  | .error => .error

theorem ValidationStatus.toOwn_eq_ok {status : ValidationStatus} :
    status.toOwn = .ok ↔ status = .success := by
  cases status <;> decide

/-- `to_own` of an execution status. -/
def ExecutionStatus.toOwn : Option ExecutionStatus → StatusCode
  | some .success => .ok
  | some .falsePredicateSuccess => .falsePredicate
  | some .pageFaultDuringProcessing => .partialCompletion
  | some .flagError => .configError
  | _ => .error

/-! ### Operations -/

/-- `data_view` and `const_data_view`: the size is 32 bits wide. -/
structure DataView where
  data : BitVec 64
  size : BitVec 32
  deriving DecidableEq, Repr

/-- `comparison_result`. -/
inductive ComparisonResult
  | equal | notEqual | overflow
  deriving DecidableEq, Repr

/-- `create_delta_result`: what applying a delta record reads of it. -/
structure CreateDeltaResult where
  result : ComparisonResult
  deltaRecordSize : BitVec 64
  deriving DecidableEq, Repr

/-- A call of one of the overloads of `sequence::add`, with the options and the expected
result of the operation. -/
inductive SequenceOperation
  | nop (options : BitVec 16)
  | memMove (src dst : DataView) (options : BitVec 16)
  | memCopy (src dst : DataView) (options : BitVec 16)
  | fill (pattern : BitVec 64) (dst : DataView) (options : BitVec 16)
  | dualcast (src dst1 dst2 : DataView) (options : BitVec 16) (specificOptions : BitVec 8)
  | compare (src1 src2 : DataView) (options : BitVec 16) (expectedResult : BitVec 8)
  | comparePattern (pattern : BitVec 64) (src : DataView) (options : BitVec 16)
      (expectedResult : BitVec 8)
  | createDelta (src1 src2 delta : DataView) (options : BitVec 16) (expectedResult : BitVec 8)
  | applyDelta (delta dst : DataView) (deltaResult : CreateDeltaResult) (options : BitVec 16)
  | crc (src : DataView) (crcSeed : BitVec 32) (options : BitVec 16) (specificOptions : BitVec 8)
  | copyCrc (src dst : DataView) (crcSeed : BitVec 32) (options : BitVec 16)
      (specificOptions : BitVec 8)
  | cacheFlush (dst : DataView) (options : BitVec 16)
  deriving DecidableEq, Repr

/-- The task a call makes: a copy is a move, and the size of a delta record is cut to the
32 bits of a transfer size. -/
def SequenceOperation.args : SequenceOperation → DescriptorArgs
  | nop options => .nop options
  | memMove src dst options => .memMove src.data dst.data src.size options
  | memCopy src dst options => .memMove src.data dst.data src.size options
  | fill pattern dst options => .fill pattern dst.data dst.size options
  | dualcast src dst1 dst2 options specificOptions =>
    .dualcast src.data dst1.data dst2.data src.size options specificOptions
  | compare src1 src2 options expectedResult =>
    .compare src1.data src2.data src1.size options expectedResult
  | comparePattern pattern src options expectedResult =>
    .comparePattern pattern src.data src.size options expectedResult
  | createDelta src1 src2 delta options expectedResult =>
    .createDelta src1.data src2.data src1.size delta.data delta.size options expectedResult
  | applyDelta delta dst deltaResult options =>
    .applyDelta delta.data (deltaResult.deltaRecordSize.setWidth 32) dst.data dst.size options
  | crc src crcSeed options specificOptions =>
    .crc src.data src.size crcSeed options specificOptions
  | copyCrc src dst crcSeed options specificOptions =>
    .copyCrc src.data dst.data src.size crcSeed options specificOptions
  | cacheFlush dst options => .cacheFlush dst.data dst.size options

/-- The arrays `operations_` and `results_`: as many descriptors as records, allocated apart
from each other. -/
structure SequenceBuffers where
  operations : ℕ
  results : ℕ
  count : ℕ
  fits : results + recordSize * count ≤ 2 ^ 64
  apart : Region.Apart ⟨operations, descriptorSize * count⟩ ⟨results, recordSize * count⟩

namespace SequenceBuffers

variable (b : SequenceBuffers)

/-- `operations_.get(i)`. -/
def operation (i : ℕ) : ℕ := b.operations + descriptorSize * i

/-- `results_.get(i)`. -/
def result (i : ℕ) : ℕ := b.results + recordSize * i

/-- The bytes of slot `i`: its descriptor and its record. -/
def slot (i : ℕ) : Set ℕ :=
  Region.addrs ⟨b.operation i, descriptorSize⟩ ∪ Region.addrs ⟨b.result i, recordSize⟩

end SequenceBuffers

/-- A sequence: the memory with its arrays, and the number of operations in them. -/
structure Sequence where
  memory : Memory
  currentLength : ℕ

namespace Sequence

variable (b : SequenceBuffers)

/-! ### Adding an operation -/

/-- The private `add`: the task is assigned to the next slot, which is validated there.
The record of the temporary task is at `scratch`. -/
def addTask (s : Sequence) (args : DescriptorArgs) (scratch : ℕ) : StatusCode × Sequence :=
  if s.currentLength = b.count then (.batchOverflow, s)
  else
    let dsc := b.operation s.currentLength
    let record := b.result s.currentLength
    let m := assignTask s.memory dsc record (makeTaskDescriptor args scratch)
    let status := Automatic.validate m dsc
    if status ≠ .success then (status.toOwn, ⟨m, s.currentLength⟩)
    else (.ok, ⟨m, s.currentLength + 1⟩)

/-- `DML_VALIDATE_SIZE_CONSISTENCY`. -/
def ifConsistent (s : Sequence) (lhs rhs : BitVec 32) (rest : StatusCode × Sequence) :
    StatusCode × Sequence :=
  if lhs ≠ rhs then (.inconsistentSize, s) else rest

/-- The overloads of `add`. -/
def add (s : Sequence) (op : SequenceOperation) (scratch : ℕ) : StatusCode × Sequence :=
  match op with
  | .nop _ => s.addTask b op.args scratch
  | .memMove src dst _ => s.ifConsistent src.size dst.size (s.addTask b op.args scratch)
  | .memCopy src dst _ => s.ifConsistent src.size dst.size (s.addTask b op.args scratch)
  | .fill _ _ _ => s.addTask b op.args scratch
  | .dualcast src dst1 dst2 _ _ =>
    s.ifConsistent src.size dst1.size
      (s.ifConsistent src.size dst2.size (s.addTask b op.args scratch))
  | .compare src1 src2 _ _ => s.ifConsistent src1.size src2.size (s.addTask b op.args scratch)
  | .comparePattern _ _ _ _ => s.addTask b op.args scratch
  | .createDelta src1 src2 _ _ _ =>
    s.ifConsistent src1.size src2.size (s.addTask b op.args scratch)
  | .applyDelta _ _ deltaResult _ =>
    if deltaResult.result ≠ .notEqual then (.deltaDeltaEmpty, s)
    else s.addTask b op.args scratch
  | .crc _ _ _ _ => s.addTask b op.args scratch
  | .copyCrc src dst _ _ _ => s.ifConsistent src.size dst.size (s.addTask b op.args scratch)
  | .cacheFlush _ _ => s.addTask b op.args scratch

/-- A run of calls.  Each has its own temporary task. -/
def run (s : Sequence) (calls : List (SequenceOperation × ℕ)) : Sequence :=
  calls.foldl (fun s call => (s.add b call.1 call.2).2) s

/-- The calls of a run that returned `ok`, in order. -/
def accepted (s : Sequence) : List (SequenceOperation × ℕ) → List SequenceOperation
  | [] => []
  | call :: calls =>
    if (s.add b call.1 call.2).1 = .ok then
      call.1 :: accepted (s.add b call.1 call.2).2 calls
    else accepted (s.add b call.1 call.2).2 calls

variable {b}

/-! ### One call -/

/-- The memory once the task of a call is in the next slot. -/
def written (b : SequenceBuffers) (s : Sequence) (args : DescriptorArgs) (scratch : ℕ) : Memory :=
  assignTask s.memory (b.operation s.currentLength) (b.result s.currentLength)
    (makeTaskDescriptor args scratch)

/-- What a call can do: nothing, or write the next slot and reject it, or write it and count
it. -/
inductive AddOutcome (b : SequenceBuffers) (s : Sequence) (args : DescriptorArgs) (scratch : ℕ) :
    StatusCode × Sequence → Prop
  | refused (status : StatusCode) (h : status ≠ .ok) : AddOutcome b s args scratch (status, s)
  | rejected (hroom : s.currentLength ≠ b.count)
      (h : Automatic.validate (written b s args scratch) (b.operation s.currentLength)
        ≠ .success) :
      AddOutcome b s args scratch
        ((Automatic.validate (written b s args scratch) (b.operation s.currentLength)).toOwn,
          ⟨written b s args scratch, s.currentLength⟩)
  | added (hroom : s.currentLength ≠ b.count)
      (h : Automatic.validate (written b s args scratch) (b.operation s.currentLength)
        = .success) :
      AddOutcome b s args scratch (.ok, ⟨written b s args scratch, s.currentLength + 1⟩)

theorem addTask_cases (s : Sequence) (args : DescriptorArgs) (scratch : ℕ) :
    AddOutcome b s args scratch (s.addTask b args scratch) := by
  by_cases hroom : s.currentLength = b.count
  · rw [addTask, if_pos hroom]
    exact .refused _ (by decide)
  · rw [addTask, if_neg hroom]
    by_cases h : Automatic.validate (written b s args scratch) (b.operation s.currentLength)
        = .success
    · exact (if_neg (not_not.mpr h)) ▸ .added hroom h
    · exact (if_pos h) ▸ .rejected hroom h

theorem ifConsistent_cases {s : Sequence} {args : DescriptorArgs} {scratch : ℕ}
    {rest : StatusCode × Sequence} (lhs rhs : BitVec 32) (h : AddOutcome b s args scratch rest) :
    AddOutcome b s args scratch (s.ifConsistent lhs rhs rest) := by
  unfold ifConsistent
  split
  · exact .refused _ (by decide)
  · exact h

/-- **One call**, whichever operation it adds. -/
theorem add_cases (s : Sequence) (op : SequenceOperation) (scratch : ℕ) :
    AddOutcome b s op.args scratch (s.add b op scratch) := by
  have htask := addTask_cases (b := b) s op.args scratch
  cases op with
  | nop | fill | comparePattern | crc | cacheFlush => exact htask
  | memMove | memCopy | compare | createDelta | copyCrc => exact ifConsistent_cases _ _ htask
  | dualcast => exact ifConsistent_cases _ _ (ifConsistent_cases _ _ htask)
  | applyDelta _ _ deltaResult =>
    by_cases hresult : deltaResult.result = .notEqual
    · rw [add, if_neg (not_not.mpr hresult)]
      exact htask
    · rw [add, if_pos hresult]
      exact .refused _ (by decide)

end Sequence

/-! ### Slots -/

theorem SequenceBuffers.slot_apart (b : SequenceBuffers) {i j : ℕ} (hij : i < j)
    (hj : j < b.count) {x : ℕ} (hx : x ∈ b.slot i) : x ∉ b.slot j := by
  have hapart := b.apart
  have hstep : descriptorSize * i + descriptorSize ≤ descriptorSize * j
      ∧ descriptorSize * j + descriptorSize ≤ descriptorSize * b.count
      ∧ recordSize * i + recordSize ≤ recordSize * j
      ∧ recordSize * j + recordSize ≤ recordSize * b.count := by
    simp only [descriptorSize, recordSize]
    omega
  unfold Region.Apart at hapart
  simp only [slot, operation, result, Set.mem_union, Region.mem_addrs] at hapart hx ⊢
  simp only [descriptorSize, recordSize] at *
  omega

/-- The record of a slot ends below the top of the address space. -/
theorem SequenceBuffers.result_lt (b : SequenceBuffers) {i : ℕ} (hi : i < b.count) :
    b.result i < 2 ^ 64 := by
  have hfits := b.fits
  simp only [result, recordSize] at *
  omega

theorem SequenceBuffers.operation_apart_result (b : SequenceBuffers) {i : ℕ} (hi : i < b.count) :
    Region.Apart ⟨b.operation i, descriptorSize⟩ ⟨b.result i, recordSize⟩ := by
  refine b.apart.mono ?_ ?_
  all_goals
    simp only [Region.Inside, operation, result, descriptorSize, recordSize]
    omega

/-- A copy of a descriptor passes validation when the descriptor does. -/
theorem HoldsDescriptor.validate {m d : Memory} {a : ℕ} (h : HoldsDescriptor m a d) :
    Automatic.validate m a = Automatic.validate d 0 :=
  validate_congr fun _ hf => h.get hf

namespace Sequence

variable {b : SequenceBuffers}

/-- The descriptor of an operation in slot `i`. -/
def slotDescriptor (b : SequenceBuffers) (i : ℕ) (op : SequenceOperation) : Memory :=
  rebind op.args.make 0 (b.result i)

/-- Writing the next slot leaves the slots before it alone. -/
theorem written_apply {s : Sequence} {args : DescriptorArgs} {scratch i x : ℕ}
    (hlen : s.currentLength < b.count) (hi : i < s.currentLength) (hx : x ∈ b.slot i) :
    written b s args scratch x = s.memory x := by
  have hnot := b.slot_apart hi hlen hx
  rw [SequenceBuffers.slot, Set.mem_union, not_or] at hnot
  exact assignTask_apply hnot.1 hnot.2

theorem holdsDescriptor_written {s : Sequence} (hlen : s.currentLength < b.count)
    (op : SequenceOperation) (scratch : ℕ) :
    HoldsDescriptor (written b s op.args scratch) (b.operation s.currentLength)
      (slotDescriptor b s.currentLength op) :=
  holdsDescriptor_assignTask (b.operation_apart_result hlen) scratch

/-! ### The invariant -/

/-- The sequence holds the operations of the list and no others: each in its slot, tied to
the record of the slot, and valid. -/
structure Holds (b : SequenceBuffers) (s : Sequence) (ops : List SequenceOperation) : Prop where
  length : s.currentLength = ops.length
  le_count : s.currentLength ≤ b.count
  descriptor : ∀ i op, ops[i]? = some op →
    HoldsDescriptor s.memory (b.operation i) (slotDescriptor b i op)
  valid : ∀ i op, ops[i]? = some op → Automatic.validate (slotDescriptor b i op) 0 = .success

theorem holds_empty (b : SequenceBuffers) (m : Memory) : Holds b ⟨m, 0⟩ [] where
  length := rfl
  le_count := Nat.zero_le _
  descriptor := by simp
  valid := by simp

section Step

variable {s : Sequence} {ops : List SequenceOperation}

/-- The slots of the operations stay, whatever is written beyond them. -/
theorem Holds.congr (h : Holds b s ops) {m : Memory}
    (hm : ∀ i < s.currentLength, ∀ x ∈ b.slot i, m x = s.memory x) {i : ℕ}
    {op : SequenceOperation} (hi : ops[i]? = some op) :
    HoldsDescriptor m (b.operation i) (slotDescriptor b i op) := by
  have hlt : i < s.currentLength := by
    rw [h.length]
    exact (List.getElem?_eq_some_iff.mp hi).1
  intro j hj
  rw [hm i hlt _ (Or.inl (Region.add_mem_addrs hj)), h.descriptor i op hi j hj]

/-- **A call that returns an error** leaves the length and the slots below it alone. -/
theorem Holds.add_error (h : Holds b s ops) (op : SequenceOperation) (scratch : ℕ)
    (herror : (s.add b op scratch).1 ≠ .ok) :
    (s.add b op scratch).2.currentLength = s.currentLength
      ∧ ∀ i < s.currentLength, ∀ x ∈ b.slot i,
          (s.add b op scratch).2.memory x = s.memory x := by
  have hcases := add_cases (b := b) s op scratch
  generalize s.add b op scratch = r at hcases herror ⊢
  cases hcases with
  | refused => exact ⟨rfl, fun _ _ _ _ => rfl⟩
  | rejected hroom _ =>
    have hlen := lt_of_le_of_ne h.le_count hroom
    exact ⟨rfl, fun i hi x hx => written_apply hlen hi hx⟩
  | added => exact absurd rfl herror

theorem Holds.step_error (h : Holds b s ops) (op : SequenceOperation) (scratch : ℕ)
    (herror : (s.add b op scratch).1 ≠ .ok) : Holds b (s.add b op scratch).2 ops := by
  obtain ⟨hlen, hslots⟩ := h.add_error op scratch herror
  exact ⟨hlen.trans h.length, hlen.trans_le h.le_count, fun i op' hi => h.congr hslots hi, h.valid⟩

/-- An index of the longer list is one of the old ones, or that of the new slot. -/
theorem Holds.getElem?_append (h : Holds b s ops) {i : ℕ} {op op' : SequenceOperation}
    (hi : (ops ++ [op])[i]? = some op') : ops[i]? = some op' ∨ i = s.currentLength ∧ op' = op := by
  rcases Nat.lt_trichotomy i ops.length with hlt | rfl | hgt
  · rw [List.getElem?_append_left hlt] at hi
    exact Or.inl hi
  · rw [List.getElem?_concat_length] at hi
    exact Or.inr ⟨h.length.symm, (Option.some.inj hi).symm⟩
  · have hlt := (List.getElem?_eq_some_iff.mp hi).1
    rw [List.length_append, List.length_singleton] at hlt
    omega

/-- A call that returns `ok` puts its operation behind the others. -/
theorem Holds.step_ok (h : Holds b s ops) (op : SequenceOperation) (scratch : ℕ)
    (hok : (s.add b op scratch).1 = .ok) : Holds b (s.add b op scratch).2 (ops ++ [op]) := by
  have hcases := add_cases (b := b) s op scratch
  generalize s.add b op scratch = r at hcases hok ⊢
  cases hcases with
  | refused _ hne => exact absurd hok hne
  | rejected _ hinvalid => exact absurd (ValidationStatus.toOwn_eq_ok.mp hok) hinvalid
  | added hroom hvalid =>
    have hlen := lt_of_le_of_ne h.le_count hroom
    have hdescriptor := holdsDescriptor_written hlen op scratch
    rw [hdescriptor.validate] at hvalid
    refine ⟨?_, hlen, ?_, ?_⟩
    · rw [List.length_append, List.length_singleton, h.length]
    · intro i op' hi
      rcases h.getElem?_append hi with hold | ⟨rfl, rfl⟩
      · exact h.congr (fun _ hi x hx => written_apply hlen hi hx) hold
      · exact hdescriptor
    · intro i op' hi
      rcases h.getElem?_append hi with hold | ⟨rfl, rfl⟩
      · exact h.valid i op' hold
      · exact hvalid

end Step

/-! ### Runs -/

/-- **Every run keeps the invariant**: the operations it accepts come behind those there
were. -/
theorem holds_run {s : Sequence} {ops : List SequenceOperation} (h : Holds b s ops)
    (calls : List (SequenceOperation × ℕ)) :
    Holds b (s.run b calls) (ops ++ s.accepted b calls) := by
  induction calls generalizing s ops with
  | nil =>
    rw [accepted, List.append_nil]
    exact h
  | cons call calls ih =>
    rw [run, List.foldl_cons, ← run, accepted]
    by_cases hok : (s.add b call.1 call.2).1 = .ok
    · have hrun := ih (h.step_ok call.1 call.2 hok)
      rw [List.append_assoc, List.singleton_append] at hrun
      rw [if_pos hok]
      exact hrun
    · rw [if_neg hok]
      exact ih (h.step_error call.1 call.2 hok)

end Sequence

/-- **A sequence holds exactly the accepted operations**, after any run of calls: no more
than there is room for, each in the slot of its turn, valid and tied to the record of the
slot; and a further call that returns an error changes neither the length nor a byte of
the slots below it. -/
theorem sequence_holds_accepted (b : SequenceBuffers) (m : Memory)
    (calls : List (SequenceOperation × ℕ)) :
    let s := Sequence.run b ⟨m, 0⟩ calls
    let ops := Sequence.accepted b ⟨m, 0⟩ calls
    s.currentLength ≤ b.count
      ∧ s.currentLength = ops.length
      ∧ (∀ i op, ops[i]? = some op →
          HoldsDescriptor s.memory (b.operation i) (rebind op.args.make 0 (b.result i))
          ∧ Automatic.validate s.memory (b.operation i) = .success
          ∧ AnyDescriptor.completionRecordAddress.get s.memory (b.operation i) = b.result i
          ∧ AnyDescriptor.flags.get s.memory (b.operation i) &&& completionRecordFlags
            = completionRecordFlags)
      ∧ ∀ op scratch, (s.add b op scratch).1 ≠ .ok →
          (s.add b op scratch).2.currentLength = s.currentLength
          ∧ ∀ i < s.currentLength, ∀ x ∈ b.slot i,
              (s.add b op scratch).2.memory x = s.memory x := by
  intro s ops
  have h : Sequence.Holds b s ops := Sequence.holds_run (Sequence.holds_empty b m) calls
  refine ⟨h.le_count, h.length, ?_, h.add_error⟩
  intro i op hi
  have hdescriptor := h.descriptor i op hi
  have hcount : i < b.count := by
    have hlt := (List.getElem?_eq_some_iff.mp hi).1
    exact lt_of_lt_of_le (h.length ▸ hlt) h.le_count
  refine ⟨hdescriptor, ?_, ?_, ?_⟩
  · rw [hdescriptor.validate]
    exact h.valid i op hi
  · rw [hdescriptor.get (by decide)]
    exact completionRecordAddress_rebind (b.result_lt hcount)
  · rw [hdescriptor.get (by decide), Sequence.slotDescriptor, flags_rebind]
    refine Nat.eq_of_testBit_eq fun j => ?_
    rw [Nat.testBit_and, Nat.testBit_or]
    cases completionRecordFlags.testBit j <;> simp

/-- Two slots: the descriptors at 1024, the records at 2048. -/
def twoSlots : SequenceBuffers := ⟨1024, 2048, 2, by decide, by decide⟩

def eightBytes (ptr : ℕ) : DataView := ⟨BitVec.ofNat 64 ptr, 8⟩

/-- A fill that is added, a move of inconsistent sizes, a fill of no bytes, which stays in the
second slot until the next call, and a move that is added. -/
def sampleCalls : List (SequenceOperation × ℕ) :=
  [(.fill 0x11 (eightBytes 4096) 0, 0), (.memMove (eightBytes 4096) ⟨8192, 4⟩ 0, 0),
    (.fill 0x22 ⟨4096, 0⟩ 0, 0), (.memMove (eightBytes 4096) (eightBytes 8192) 0, 0)]

/-- The sequence is full then: the next call is rejected, and both slots keep their bytes. -/
theorem sequence_holds_accepted_sample :
    let s := Sequence.run twoSlots ⟨fun _ => 0, 0⟩ sampleCalls
    s.currentLength = 2
      ∧ HoldsDescriptor s.memory 1024 (rebind
          (SequenceOperation.fill 0x11 (eightBytes 4096) 0).args.make 0 2048)
      ∧ HoldsDescriptor s.memory 1088 (rebind
          (SequenceOperation.memMove (eightBytes 4096) (eightBytes 8192) 0).args.make 0 2080)
      ∧ (s.add twoSlots (.nop 0) 0).1 = .batchOverflow
      ∧ ∀ i < 2, ∀ x ∈ twoSlots.slot i, (s.add twoSlots (.nop 0) 0).2.memory x = s.memory x := by
  intro s
  have haccepted : Sequence.accepted twoSlots ⟨fun _ => 0, 0⟩ sampleCalls
      = [.fill 0x11 (eightBytes 4096) 0, .memMove (eightBytes 4096) (eightBytes 8192) 0] := by
    decide
  obtain ⟨-, hlength, hslots, herror⟩ := sequence_holds_accepted twoSlots (fun _ => 0) sampleCalls
  rw [haccepted] at hlength hslots
  have hfull : (s.add twoSlots (.nop 0) 0).1 = .batchOverflow := by
    have hroom : s.currentLength = twoSlots.count := hlength
    rw [Sequence.add, Sequence.addTask, if_pos hroom]
  refine ⟨hlength, (hslots 0 _ rfl).1, (hslots 1 _ rfl).1, hfull, fun i hi => ?_⟩
  exact (herror (.nop 0) 0 (by rw [hfull]; decide)).2 i (by rw [hlength]; exact hi)

end DataMover
