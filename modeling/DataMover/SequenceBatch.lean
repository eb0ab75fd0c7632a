import DataMover.Execute
import DataMover.Jobs
import DataMover.Lib.InOrder
import DataMover.Relocation

/-!
# A sequence executed as a batch

`execute<software>(batch, sequence)`: the descriptors of a sequence are handed to the batch
kernel as they lie in its array, tied to the records of the sequence.

The batch is compared with the program it stands for: the operations the sequence has accepted,
executed one after another with `execute`, each with a task of its own somewhere, up to the
first that does not answer `ok`.  Both leave the same memory to the caller.  The batch answers
`ok` when all of them do, and says no more than that.

## Main definitions

* `SequenceOperation.rangeCheck` — the checks of sizes that `execute` and `add` make.
* `executeBatch` — the sequence as a batch.
* `executeInOrder` — the operations one after another.

## Main results

* `execute_outcome` — one operation: what its kernel leaves, and its status.
* `executeInOrder_eq` — the operations in order are a run of the list of the sequence.
* `sequence_batch` — the batch does what the operations do.
-/

namespace DataMover

open ByteMemory

/-! ### The calls -/

/-- The range check of the overloads of `execute`, which `add` makes as well. -/
def SequenceOperation.rangeCheck : SequenceOperation → StatusCode
  | .memMove src dst _ => if src.size ≠ dst.size then .inconsistentSize else .ok
  | .memCopy src dst _ => if src.size ≠ dst.size then .inconsistentSize else .ok
  | .dualcast src dst1 dst2 _ _ =>
    if src.size ≠ dst1.size then .inconsistentSize
    else if src.size ≠ dst2.size then .inconsistentSize
    else .ok
  | .compare src1 src2 _ _ => if src1.size ≠ src2.size then .inconsistentSize else .ok
  | .createDelta src1 src2 _ _ _ => if src1.size ≠ src2.size then .inconsistentSize else .ok
  | .applyDelta _ _ deltaResult _ =>
    if deltaResult.result ≠ .notEqual then .deltaDeltaEmpty else .ok
  | .copyCrc src dst _ _ _ => if src.size ≠ dst.size then .inconsistentSize else .ok
  | .nop _ | .fill _ _ _ | .comparePattern _ _ _ _ | .crc _ _ _ _ | .cacheFlush _ _ => .ok

/-- `execute<software>(batch, seq)`: the address of the array and the length, which has 32
bits. -/
def executeBatch (dsc record : ℕ) (b : SequenceBuffers) (s : Sequence) (options : BitVec 16) :
    Option (Memory × StatusCode) :=
  execute dsc record s.memory .ok
    (.batch (BitVec.ofNat 64 b.operations) (BitVec.ofNat 32 s.currentLength) options)

/-- A call of one of the overloads of `execute`, with the place of its task. -/
structure ExecuteCall where
  op : SequenceOperation
  dsc : ℕ
  record : ℕ

/-- `execute<software>(operation, ...)`. -/
def ExecuteCall.execute (call : ExecuteCall) (m : Memory) : Option (Memory × StatusCode) :=
  DataMover.execute call.dsc call.record m call.op.rangeCheck call.op.args

/-- The calls one after another, up to the first that does not answer `ok`, with their
answers. -/
def executeInOrder (m : Memory) : List ExecuteCall → Option (Memory × List StatusCode)
  | [] => some (m, [])
  | call :: calls => do
    let (m, status) ← call.execute m
    if status ≠ .ok then return (m, [status])
    let (m, statuses) ← executeInOrder m calls
    return (m, status :: statuses)

theorem executeInOrder_eq_inOrder (m : Memory) (calls : List ExecuteCall) :
    executeInOrder m calls
      = InOrder.inOrder (fun call m => ExecuteCall.execute call m) (· == .ok) m calls := by
  induction calls generalizing m with
  | nil => rfl
  | cons call calls ih =>
    rw [executeInOrder, InOrder.inOrder]
    cases call.execute m with
    | none => rfl
    | some answer =>
      by_cases hok : answer.2 = .ok
      · simp [hok, ih]
      · simp [hok]

/-- An accepted operation passes the check. -/
theorem rangeCheck_of_add {b : SequenceBuffers} {s : Sequence} {op : SequenceOperation}
    {scratch : ℕ} (h : (s.add b op scratch).1 = .ok) : op.rangeCheck = .ok := by
  have hconsistent : ∀ {lhs rhs : BitVec 32} {rest : StatusCode × Sequence},
      (s.ifConsistent lhs rhs rest).1 = .ok → lhs = rhs ∧ rest.1 = .ok := by
    intro lhs rhs rest hok
    unfold Sequence.ifConsistent at hok
    by_cases heq : lhs = rhs
    · rw [if_neg (not_not.mpr heq)] at hok
      exact ⟨heq, hok⟩
    · rw [if_pos heq] at hok
      exact absurd hok (by simp)
  cases op with
  | nop | fill | comparePattern | crc | cacheFlush => rfl
  | memMove | memCopy | compare | createDelta | copyCrc =>
    exact if_neg (not_not.mpr (hconsistent h).1)
  | dualcast =>
    obtain ⟨hfirst, hrest⟩ := hconsistent h
    rw [SequenceOperation.rangeCheck, if_neg (not_not.mpr hfirst),
      if_neg (not_not.mpr (hconsistent hrest).1)]
  | applyDelta _ _ deltaResult =>
    by_cases hresult : deltaResult.result = .notEqual
    · exact if_neg (not_not.mpr hresult)
    · rw [Sequence.add, if_pos hresult] at h
      exact absurd h (by simp)

theorem rangeCheck_of_accepted {b : SequenceBuffers} (adds : List (SequenceOperation × ℕ))
    {s : Sequence} : ∀ op ∈ s.accepted b adds, op.rangeCheck = .ok := by
  induction adds generalizing s with
  | nil => exact fun op hop => absurd hop List.not_mem_nil
  | cons call adds ih =>
    rw [Sequence.accepted]
    split
    · next hok =>
      rintro op hop
      rcases List.mem_cons.mp hop with rfl | hrest
      · exact rangeCheck_of_add hok
      · exact ih op hrest
    · exact ih

/-! ### One operation -/

section Operation

variable {m t : Memory} {dsc record d : ℕ} {args : DescriptorArgs}

/-- **An accepted call** that leaves its own descriptor alone ends with the status of the
record. -/
theorem execute_of_kept
    (hvalid : validate (constructTask m dsc record args) dsc = .success)
    (hkept : Set.EqOn (SoftwareDevice.submit (constructTask m dsc record args) dsc).1
      (constructTask m dsc record args) (Region.addrs ⟨dsc, descriptorSize⟩)) :
    execute dsc record m .ok args
      = some ((SoftwareDevice.submit (constructTask m dsc record args) dsc).1,
          ExecutionStatus.toOwn (getStatus
            (SoftwareDevice.submit (constructTask m dsc record args) dsc).1 record)) := by
  have hknown := validate_none hvalid
  have hdone := submit_of_ne_none hknown
  have hwait := wait_submit hknown (getCompletionRecord_congr hkept) false
  rw [execute, if_neg (by simp)]
  simp only [Software.validate, hvalid, ne_eq, not_true_eq_false, if_false, Software.submit, hdone,
    hwait, Option.bind_eq_bind, Option.bind_some]
  rfl

/-- The bytes of a descriptor do not depend on the record it is tied to, but for the address of
that record. -/
theorem rebind_apply_eq (d : Memory) (record record' : ℕ) {i : ℕ} (hi : i < 8 ∨ 16 ≤ i) :
    rebind d 0 record i = rebind d 0 record' i := by
  have houtside : ∀ r, AnyDescriptor.completionRecordAddress.set d 0 r i = d i := by
    intro r
    rw [Field.set, store_apply_of_notMem]
    simp only [AnyDescriptor.completionRecordAddress]
    omega
  rw [rebind_eq, rebind_eq]
  simp only [Field.set, store_apply] at houtside ⊢
  split
  · rfl
  · exact (houtside record).trans (houtside record').symm

/-- Copies of a descriptor that are tied to different records have the same fields. -/
theorem sameFields_of_holds {t' e : Memory} {d' r r' : ℕ}
    (h : HoldsDescriptor t d (rebind e 0 r)) (h' : HoldsDescriptor t' d' (rebind e 0 r')) :
    SameFields t d t' d' := by
  refine sameFields_of_bytes fun i hi houtside => ?_
  rw [h' i hi, h i hi, rebind_apply_eq e r' r houtside]

theorem holdsDescriptor_constructTask (hp : TaskPlaced dsc record) :
    HoldsDescriptor (constructTask m dsc record args) dsc (rebind args.make 0 record) :=
  holdsDescriptor_assign hp.apart

section Copy

variable {slotRecord : ℕ} (hp : TaskPlaced dsc record)
  (hholds : HoldsDescriptor t d (rebind args.make 0 slotRecord)) (hslot : slotRecord < 2 ^ 64)
  (hbatch : args.operation ≠ .batch) (hdelta : DeltaWithin t d)
  (hoperands : ∀ R ∈ operands t d, ApartFromTask dsc record R ∧ Set.EqOn t m R.addrs)
include hoperands

/-- The task of a call has the sources of any other copy of its descriptor. -/
theorem eqOn_sources_constructTask :
    ∀ R ∈ sources t d, Set.EqOn t (constructTask m dsc record args) R.addrs := by
  intro R hR x hx
  obtain ⟨hap, heq⟩ := hoperands R (sources_subset_operands t d hR)
  rw [constructTask_apply hap hx, heq hx]

include hp hholds hbatch

include hdelta in
/-- A call leaves the descriptor of its task alone. -/
theorem eqOn_descriptor_constructTask :
    Set.EqOn (SoftwareDevice.submit (constructTask m dsc record args) dsc).1
      (constructTask m dsc record args) (Region.addrs ⟨dsc, descriptorSize⟩) := by
  have hsame := sameFields_of_holds hholds (@holdsDescriptor_constructTask m dsc record args hp)
  intro x hx
  refine submit_apply ?_ (hsame.deltaWithin (eqOn_sources_constructTask hoperands) hdelta)
    ?_ fun R hR => ?_
  · rw [operationOf_constructTask hp]
    exact fun h => hbatch (Option.some.inj h)
  · rw [getCompletionRecord_constructTask hp]
    exact hp.apart.notMem hx
  · rw [hsame.operands_eq] at hR
    exact (hoperands R hR).1.descriptor.symm.notMem hx

include hslot

/-- The task of a call changes what any other copy of its descriptor changes. -/
theorem submit_constructTask_apply {x : ℕ} (hslotx : x ∉ Region.addrs ⟨slotRecord, recordSize⟩)
    (hdsc : x ∉ Region.addrs ⟨dsc, descriptorSize⟩) (hrec : x ∉ Region.addrs ⟨record, recordSize⟩)
    (heq : t x = m x) :
    (SoftwareDevice.submit (constructTask m dsc record args) dsc).1 x
      = (SoftwareDevice.submit t d).1 x := by
  have hsame := sameFields_of_holds hholds (@holdsDescriptor_constructTask m dsc record args hp)
  have hne : operationOf t d ≠ some .batch := by
    rw [← hsame.operationOf_eq, operationOf_constructTask hp]
    exact fun h => hbatch (Option.some.inj h)
  have hslotRecord : getCompletionRecord t d = slotRecord := by
    rw [getCompletionRecord, hholds.get (by decide), completionRecordAddress_rebind hslot]
  have hrecord := @getCompletionRecord_constructTask m dsc record args hp
  rcases submit_relocated hsame hne (eqOn_sources_constructTask hoperands)
    (hslotRecord.symm ▸ hslotx) (hrecord.symm ▸ hrec) with h | ⟨h, h'⟩
  · exact h.symm
  · rw [h, h', heq]
    exact assignTask_apply hdsc hrec

end Copy

/-- **One operation**: the call of `execute` ends with the status of the kernel that runs the
copy of its descriptor, and leaves the same memory, when both memories agree on the operands. -/
theorem execute_outcome {slotRecord : ℕ} (hp : TaskPlaced dsc record)
    (hholds : HoldsDescriptor t d (rebind args.make 0 slotRecord)) (hslot : slotRecord < 2 ^ 64)
    (hvalid : validate t d = .success) (hbatch : args.operation ≠ .batch)
    (hdelta : DeltaWithin t d)
    (hoperands : ∀ R ∈ operands t d, ApartFromTask dsc record R ∧ Set.EqOn t m R.addrs) :
    ∃ m', execute dsc record m .ok args
        = some (m', ExecutionStatus.toOwn (some (outcome t d).status))
      ∧ ∀ x, x ∉ Region.addrs ⟨slotRecord, recordSize⟩ → x ∉ Region.addrs ⟨dsc, descriptorSize⟩ →
          x ∉ Region.addrs ⟨record, recordSize⟩ → t x = m x →
          m' x = (SoftwareDevice.submit t d).1 x := by
  have hsame := sameFields_of_holds hholds (@holdsDescriptor_constructTask m dsc record args hp)
  have hkept := eqOn_descriptor_constructTask hp hholds hbatch hdelta hoperands
  refine ⟨(SoftwareDevice.submit (constructTask m dsc record args) dsc).1, ?_,
    fun x hslotx hdsc hrec heq =>
      submit_constructTask_apply hp hholds hslot hbatch hoperands hslotx hdsc hrec heq⟩
  have hstatus := (submit_outcome (@operationOf_constructTask m dsc record args hp) hbatch).1
  rw [getCompletionRecord_constructTask hp,
    outcome_congr hsame (eqOn_sources_constructTask hoperands)] at hstatus
  rw [execute_of_kept (hsame.validate_eq.trans hvalid) hkept, getStatus_of_status hstatus]

end Operation

/-! ### The batch of a sequence -/

/-- An operation of a sequence is one the batch kernel supports. -/
theorem SequenceOperation.mem_batchOperations (op : SequenceOperation) :
    op.args.operation ∈ batchOperations := by
  refine DataMover.mem_batchOperations ?_ ?_ <;> cases op <;>
    simp [SequenceOperation.args, DescriptorArgs.operation]

/-- The buffers of the task of an operation. -/
def SequenceOperation.buffers (op : SequenceOperation) : List Region :=
  operands (makeTaskDescriptor op.args 0) 0

/-- What is not the caller's: the arrays of the sequence, the task of the batch, and the tasks
of the calls. -/
def privateRegions (b : SequenceBuffers) (dsc record : ℕ) (calls : List ExecuteCall) :
    List Region :=
  [⟨b.operations, descriptorSize * b.count⟩, ⟨b.results, recordSize * b.count⟩,
    ⟨dsc, descriptorSize⟩, ⟨record, recordSize⟩]
  ++ calls.flatMap fun call => [⟨call.dsc, descriptorSize⟩, ⟨call.record, recordSize⟩]

/-- Where everything is: the arrays of the sequence are apart from the task of the batch, and
the buffers of the operations from all of them; the notes an `apply_delta` finds when its turn
comes point into its destination. -/
structure BatchCall (b : SequenceBuffers) (s : Sequence) (dsc record : ℕ)
    (calls : List ExecuteCall) : Prop where
  task : TaskPlaced dsc record
  operations : ApartFromTask dsc record ⟨b.operations, descriptorSize * b.count⟩
  results : ApartFromTask dsc record ⟨b.results, recordSize * b.count⟩
  tasks : ∀ call ∈ calls, TaskPlaced call.dsc call.record
  buffers : ∀ call ∈ calls, ∀ R ∈ call.op.buffers, ∀ Q ∈ privateRegions b dsc record calls,
    R.Apart Q
  address : 0 < b.operations ∧ b.operations < 2 ^ 64
  count : b.count < 2 ^ 32
  notes : NotesSafe s.memory b.operations s.currentLength

/-- The memory in which the batch kernel starts. -/
def batchMemory (dsc record : ℕ) (b : SequenceBuffers) (s : Sequence) (options : BitVec 16) :
    Memory :=
  constructTask s.memory dsc record
    (.batch (BitVec.ofNat 64 b.operations) (BitVec.ofNat 32 s.currentLength) options)

section Batch

variable {b : SequenceBuffers} {s : Sequence} {dsc record : ℕ} {calls : List ExecuteCall}
  (options : BitVec 16) (hcall : BatchCall b s dsc record calls)
  (hholds : Sequence.Holds b s (calls.map ExecuteCall.op))
include hcall hholds

omit hcall in
theorem length_le_count : calls.length ≤ b.count := by
  rw [← List.length_map ExecuteCall.op, ← hholds.length]
  exact hholds.le_count

omit hcall in
theorem slot_lt_count {i : ℕ} {call : ExecuteCall} (hi : calls[i]? = some call) : i < b.count :=
  lt_of_lt_of_le (List.getElem?_eq_some_iff.mp hi).1 (length_le_count hholds)

/-- The list is in place when the task of the batch is made. -/
theorem batchMemory_list :
    Set.EqOn (batchMemory dsc record b s options) s.memory
      (Region.addrs ⟨b.operations, descriptorSize * s.currentLength⟩) := by
  intro x hx
  refine constructTask_apply hcall.operations (Region.mem_addrs.mpr ?_)
  rw [Region.mem_addrs] at hx
  have hle := Nat.mul_le_mul_left descriptorSize hholds.le_count
  simp only at hx ⊢
  omega

/-- **The slots**: in every memory that has the list. -/
theorem holds_slot {t : Memory}
    (ht : Set.EqOn t (batchMemory dsc record b s options)
      (Region.addrs ⟨b.operations, descriptorSize * s.currentLength⟩))
    {i : ℕ} {call : ExecuteCall} (hi : calls[i]? = some call) :
    HoldsDescriptor t (innerDescriptor b.operations i)
      (rebind call.op.args.make 0 (b.result i)) := by
  have hlt : i < s.currentLength := by
    rw [hholds.length, List.length_map]
    exact (List.getElem?_eq_some_iff.mp hi).1
  have hslot := hholds.descriptor i call.op (by rw [List.getElem?_map, hi]; rfl)
  intro j hj
  refine ((ht.trans (batchMemory_list options hcall hholds)) ?_).trans (hslot j hj)
  rw [Region.mem_addrs, innerDescriptor]
  have hle := Nat.mul_le_mul_left descriptorSize hlt
  rw [Nat.mul_succ] at hle
  simp only
  omega

theorem operands_slot {t : Memory}
    (ht : Set.EqOn t (batchMemory dsc record b s options)
      (Region.addrs ⟨b.operations, descriptorSize * s.currentLength⟩))
    {i : ℕ} {call : ExecuteCall} (hi : calls[i]? = some call) :
    operands t (innerDescriptor b.operations i) = call.op.buffers := by
  have hcopy : HoldsDescriptor (makeTaskDescriptor call.op.args 0) 0
      (rebind call.op.args.make 0 0) := fun j _ => by rw [Nat.zero_add]; rfl
  exact (sameFields_of_holds hcopy (holds_slot options hcall hholds ht hi)).operands_eq

theorem record_slot {t : Memory}
    (ht : Set.EqOn t (batchMemory dsc record b s options)
      (Region.addrs ⟨b.operations, descriptorSize * s.currentLength⟩))
    {i : ℕ} {call : ExecuteCall} (hi : calls[i]? = some call) :
    getCompletionRecord t (innerDescriptor b.operations i) = b.result i := by
  rw [getCompletionRecord, (holds_slot options hcall hholds ht hi).get (by decide),
    completionRecordAddress_rebind (b.result_lt (slot_lt_count hholds hi))]

theorem operation_slot {t : Memory}
    (ht : Set.EqOn t (batchMemory dsc record b s options)
      (Region.addrs ⟨b.operations, descriptorSize * s.currentLength⟩))
    {i : ℕ} {call : ExecuteCall} (hi : calls[i]? = some call) :
    operationOf t (innerDescriptor b.operations i) = some call.op.args.operation := by
  have hholdsSlot := holds_slot options hcall hholds ht hi
  rw [operationOf, hholdsSlot.get (by decide), get_rebind (by decide) (by decide), ← operationOf,
    operationOf_make]

omit hcall in
/-- The call at an index of the list. -/
theorem exists_call {i : ℕ} (hi : i < s.currentLength) : ∃ call, calls[i]? = some call := by
  rw [hholds.length, List.length_map] at hi
  exact ⟨calls[i], List.getElem?_eq_getElem hi⟩

/-- **The arguments of the batch** are the list of the sequence. -/
theorem batchArgs_batchMemory :
    BatchArgs (batchMemory dsc record b s options) dsc b.operations s.currentLength := by
  have hview := viewDescriptor_make
    (.batch (BitVec.ofNat 64 b.operations) (BitVec.ofNat 32 s.currentLength) options)
  simp only [viewDescriptor, operationOf_make, DescriptorArgs.operation, Option.some.injEq,
    DescriptorArgs.batch.injEq] at hview
  obtain ⟨hlist, hsize, -⟩ := hview
  have hlength : s.currentLength < 2 ^ 32 := lt_of_le_of_lt hholds.le_count hcall.count
  refine ⟨operationOf_constructTask hcall.task, ?_, ?_, fun i hi => ?_⟩
  · refine (get_constructTask_of_readBits hcall.task rfl hlist (by decide) (by decide)
      (by decide)).trans ?_
    exact Nat.mod_eq_of_lt hcall.address.2
  · refine (get_constructTask_of_readBits hcall.task rfl hsize (by decide) (by decide)
      (by decide)).trans ?_
    exact Nat.mod_eq_of_lt hlength
  · obtain ⟨call, hi⟩ := exists_call hholds hi
    exact ⟨_, call.op.mem_batchOperations, operation_slot options hcall hholds (fun _ _ => rfl) hi⟩

/-- What a descriptor of the list uses is apart from whatever is apart from its record and is
not the caller's. -/
theorem innerRegions_apart {i : ℕ} (hi : i < s.currentLength) {Q Q' : Region}
    (hQ : Q' ∈ privateRegions b dsc record calls) (hinside : Q.Inside Q')
    (hrecord : Region.Apart ⟨b.result i, recordSize⟩ Q) :
    ∀ R ∈ innerRegions (batchMemory dsc record b s options) b.operations i, R.Apart Q := by
  obtain ⟨call, hi⟩ := exists_call hholds hi
  intro R hR
  rw [innerRegions, innerRecord, record_slot options hcall hholds (fun _ _ => rfl) hi,
    operands_slot options hcall hholds (fun _ _ => rfl) hi] at hR
  rcases List.mem_cons.mp hR with rfl | hR
  · exact hrecord
  · exact (hcall.buffers call (List.mem_of_getElem? hi) R hR Q' hQ).mono (Region.Inside.refl R)
      hinside

/-- **The objects of the batch are apart.** -/
theorem batchPlaced_batchMemory :
    BatchPlaced (batchMemory dsc record b s options) dsc b.operations s.currentLength := by
  have hrecord : getCompletionRecord (batchMemory dsc record b s options) dsc = record :=
    getCompletionRecord_constructTask hcall.task
  have hlist : Region.Inside ⟨b.operations, descriptorSize * s.currentLength⟩
      ⟨b.operations, descriptorSize * b.count⟩ :=
    ⟨le_rfl, Nat.add_le_add_left (Nat.mul_le_mul_left _ hholds.le_count) _⟩
  have hresult : ∀ i, i < s.currentLength →
      Region.Inside ⟨b.result i, recordSize⟩ ⟨b.results, recordSize * b.count⟩ := by
    intro i hi
    have hle := hholds.le_count
    simp only [Region.Inside, SequenceBuffers.result, recordSize]
    omega
  have hself := Region.Inside.refl
  have hprivate : ∀ Q ∈ [(⟨b.operations, descriptorSize * b.count⟩ : Region),
      ⟨b.results, recordSize * b.count⟩, ⟨dsc, descriptorSize⟩, ⟨record, recordSize⟩],
      Q ∈ privateRegions b dsc record calls := fun Q hQ => List.mem_append_left _ hQ
  refine ⟨?_, ?_, fun i hi => ?_, fun i hi => ?_, fun i hi => ?_, fun i hi j hj hij => ?_⟩
  · rw [hrecord]
    exact hcall.task.apart.symm
  · rw [hrecord]
    exact hcall.operations.record.symm.mono (hself _) hlist
  · exact innerRegions_apart options hcall hholds hi (hprivate _ (by simp)) (hself _)
      (hcall.results.descriptor.mono (hresult i hi) (hself _))
  · exact innerRegions_apart options hcall hholds hi (hprivate _ (List.mem_cons_self ..)) hlist
      (b.apart.symm.mono (hresult i hi) hlist)
  · rw [hrecord]
    exact innerRegions_apart options hcall hholds hi (hprivate _ (by simp)) (hself _)
      (hcall.results.record.mono (hresult i hi) (hself _))
  · obtain ⟨call, hcallj⟩ := exists_call hholds hj
    have hslot := record_slot options hcall hholds (fun _ _ => rfl) hcallj
    rw [innerRecord, hslot]
    refine innerRegions_apart options hcall hholds hi (hprivate _ (by simp)) (hresult j hj) ?_
    simp only [Region.Apart, SequenceBuffers.result, recordSize]
    omega

/-- The notes are as safe when the task of the batch has been made. -/
theorem notesSafe_batchMemory :
    NotesSafe (batchMemory dsc record b s options) b.operations s.currentLength := by
  have hlist := batchMemory_list options hcall hholds
  have hready : BatchReady (batchMemory dsc record b s options) s.memory dsc b.operations
      s.currentLength :=
    ⟨batchArgs_batchMemory options hcall hholds, batchPlaced_batchMemory options hcall hholds,
      hlist.symm, hcall.notes⟩
  refine (hready.congr hlist.symm fun i hi R hR x hx => ?_).notes
  -- the task of the batch is apart from the buffers
  have hap : ∀ Q ∈ [(⟨dsc, descriptorSize⟩ : Region), ⟨record, recordSize⟩], R.Apart Q := by
    intro Q hQ
    obtain ⟨call, hi⟩ := exists_call hholds hi
    refine hcall.buffers call (List.mem_of_getElem? hi) R ?_ Q
      (List.mem_append_left _ (List.mem_cons_of_mem _ (List.mem_cons_of_mem _ hQ)))
    have hR := sources_subset_operands _ _ hR
    rwa [operands_slot options hcall hholds (fun _ _ => rfl) hi] at hR
  exact (assignTask_apply ((hap _ (List.mem_cons_self ..)).notMem hx)
    ((hap _ (by simp)).notMem hx)).symm

/-! ### The operations in order -/

omit hcall hholds in
theorem toOwn_eq_ok {status : ExecutionStatus} :
    ExecutionStatus.toOwn (some status) = .ok ↔ status = .success := by
  cases status <;> simp [ExecutionStatus.toOwn]

omit hcall hholds in
/-- A descriptor of a list ends well when its outcome is a success. -/
theorem endsWell_iff {m : Memory} {operations i : ℕ} {op : Operation}
    (hop : operationOf (runFirst m operations i) (innerDescriptor operations i) = some op)
    (hbatch : op ≠ .batch) :
    EndsWell m operations i
      ↔ (outcome (runFirst m operations i) (innerDescriptor operations i)).status = .success := by
  rw [EndsWell, SaysSuccess, runFirst_succ, recordInTurn, innerRecord,
    (submit_outcome hop hbatch).1]
  constructor
  · intro h
    generalize (outcome _ _).status = status at h ⊢
    cases status <;> first | rfl | exact absurd h (by decide)
  · exact fun h => by rw [h]

omit hcall hholds in
/-- The first descriptor that does not succeed is the last that is executed, when it is one the
kernel supports. -/
theorem leading_eq_of_first {m : Memory} {operations i count : ℕ} (hi : i < count)
    (hbefore : ∀ j, j < i → Succeeds m operations j) (hnot : ¬Succeeds m operations i)
    (hsupported : SupportedInTurn m operations i) :
    leading m operations count = i ∧ executed m operations count = i + 1 := by
  have hsearch : Loop.search (fun i => !decide (Succeeds m operations i)) count = some i :=
    Loop.search_eq_some.mpr ⟨hi, by simpa using hnot, fun j hj => by simpa using hbefore j hj⟩
  have hleading : leading m operations count = i := by rw [leading, hsearch, Option.getD_some]
  exact ⟨hleading, by rw [executed, hleading, if_pos ⟨hi, hsupported⟩]⟩

/-- **One call and one descriptor**: a call of `execute` on a memory that is, to the caller, the
one in which the turn of its slot comes. -/
theorem execute_slot {i : ℕ} {call : ExecuteCall} (hi : calls[i]? = some call)
    (hcheck : call.op.rangeCheck = .ok) {m : Memory}
    (hm : Set.EqOn (runFirst (batchMemory dsc record b s options) b.operations i) m
      (addresses (privateRegions b dsc record calls))ᶜ) :
    ∃ m' status, call.execute m = some (m', status)
      ∧ (status = .ok ↔ Succeeds (batchMemory dsc record b s options) b.operations i)
      ∧ SupportedInTurn (batchMemory dsc record b s options) b.operations i
      ∧ Set.EqOn (runFirst (batchMemory dsc record b s options) b.operations (i + 1)) m'
          (addresses (privateRegions b dsc record calls))ᶜ := by
  have hlt : i < s.currentLength := by
    rw [hholds.length, List.length_map]
    exact (List.getElem?_eq_some_iff.mp hi).1
  have hargs := batchArgs_batchMemory options hcall hholds
  have hplaced := batchPlaced_batchMemory options hcall hholds
  have hnotes := notesSafe_batchMemory options hcall hholds
  have hlist := runFirst_list_of_le hargs hplaced (fun _ _ => rfl) hnotes hlt.le
  have hmem := List.mem_of_getElem? hi
  set t := runFirst (batchMemory dsc record b s options) b.operations i with ht
  have hslot := holds_slot options hcall hholds hlist hi
  have hop := operation_slot options hcall hholds hlist hi
  have hvalid : validate t (innerDescriptor b.operations i) = .success :=
    hslot.validate.trans (hholds.valid i call.op (by rw [List.getElem?_map, hi]; rfl))
  have hbatch : call.op.args.operation ≠ .batch := by
    intro h
    exact absurd (h ▸ call.op.mem_batchOperations) (by decide)
  -- the tasks of the call and of the batch are no buffers
  have hoperands : ∀ R ∈ operands t (innerDescriptor b.operations i),
      ApartFromTask call.dsc call.record R ∧ Set.EqOn t m R.addrs := by
    intro R hR
    rw [operands_slot options hcall hholds hlist hi] at hR
    have hap := hcall.buffers call hmem R hR
    have htask : ∀ Q ∈ [(⟨call.dsc, descriptorSize⟩ : Region), ⟨call.record, recordSize⟩],
        Q ∈ privateRegions b dsc record calls := fun Q hQ =>
      List.mem_append_right _ (List.mem_flatMap.mpr ⟨call, hmem, hQ⟩)
    refine ⟨⟨hap _ (htask _ (List.mem_cons_self ..)), hap _ (htask _ (by simp))⟩, fun x hx => ?_⟩
    exact hm fun ⟨Q, hQ, hin⟩ => (hap Q hQ).notMem hx hin
  obtain ⟨m', hexecute, hm'⟩ := execute_outcome (m := m) (hcall.tasks call hmem) hslot
    (b.result_lt (slot_lt_count hholds hi)) hvalid hbatch (hnotes i hlt) hoperands
  have hsupported : SupportedInTurn (batchMemory dsc record b s options) b.operations i :=
    ⟨_, call.op.mem_batchOperations, hop⟩
  refine ⟨m', ExecutionStatus.toOwn (some (outcome t (innerDescriptor b.operations i)).status), ?_,
    ?_, hsupported, fun x hx => ?_⟩
  · rw [ExecuteCall.execute, hcheck]
    exact hexecute
  · rw [toOwn_eq_ok, Succeeds, endsWell_iff hop hbatch]
    exact (and_iff_right hsupported).symm
  · have hout : ∀ Q ∈ privateRegions b dsc record calls, x ∉ Q.addrs := fun Q hQ hin =>
      hx ⟨Q, hQ, hin⟩
    have htask : ∀ Q ∈ [(⟨call.dsc, descriptorSize⟩ : Region), ⟨call.record, recordSize⟩],
        x ∉ Q.addrs := fun Q hQ =>
      hout Q (List.mem_append_right _ (List.mem_flatMap.mpr ⟨call, hmem, hQ⟩))
    have hresult : x ∉ Region.addrs ⟨b.result i, recordSize⟩ := by
      have harray := hout ⟨b.results, recordSize * b.count⟩ (List.mem_append_left _ (by simp))
      have hcount := slot_lt_count hholds hi
      simp only [Region.mem_addrs, SequenceBuffers.result, recordSize] at harray ⊢
      omega
    rw [runFirst_succ]
    exact (hm' x hresult (htask _ (List.mem_cons_self ..)) (htask _ (by simp)) (hm hx)).symm

omit hcall hholds in
/-- A run of calls that stops as the list does has executed what the kernel executes. -/
theorem executed_of_stopsAt {m : Memory} {operations count k : ℕ}
    (hstops : InOrder.StopsAt (Succeeds m operations) count k)
    (hsupported : ∀ i, i < k → SupportedInTurn m operations i) :
    executed m operations count = k := by
  cases hstops with
  | all h => rw [executed, leading_eq_iff.mpr h, if_neg (by omega)]
  | first k hk h hnot => exact (leading_eq_of_first hk h hnot (hsupported k (by omega))).2

/-- **The operations in order** are a run of the list of the sequence: each call starts where the
turn of its slot comes. -/
theorem executeInOrder_eq (hcheck : ∀ call ∈ calls, call.op.rangeCheck = .ok) {m : Memory}
    (hm : Set.EqOn (batchMemory dsc record b s options) m
      (addresses (privateRegions b dsc record calls))ᶜ) :
    ∃ m' statuses, executeInOrder m calls = some (m', statuses)
      ∧ ((∀ status ∈ statuses, status = .ok)
        ↔ leading (batchMemory dsc record b s options) b.operations s.currentLength
          = s.currentLength)
      ∧ Set.EqOn (runFirst (batchMemory dsc record b s options) b.operations
          (executed (batchMemory dsc record b s options) b.operations s.currentLength)) m'
          (addresses (privateRegions b dsc record calls))ᶜ := by
  have hlength : calls.length = s.currentLength := by rw [hholds.length, List.length_map]
  set t := batchMemory dsc record b s options with ht
  obtain ⟨m', statuses, hrun, hstops, hm', hanswers⟩ :=
    @InOrder.inOrder_simulates _ _ _ (fun call m => ExecuteCall.execute call m) (· == .ok) calls
      (fun i m => Set.EqOn (runFirst t b.operations i) m
        (addresses (privateRegions b dsc record calls))ᶜ)
      (Succeeds t b.operations) (fun i _ => SupportedInTurn t b.operations i)
      (fun i call hi m hm => by
        obtain ⟨m', status, hexecute, hstatus, hsupported, hm'⟩ :=
          execute_slot options hcall hholds hi (hcheck call (List.mem_of_getElem? hi)) hm
        exact ⟨m', status, hexecute, beq_iff_eq.trans hstatus, hsupported, hm'⟩)
      m hm
  rw [hlength] at hstops
  refine ⟨m', statuses, (executeInOrder_eq_inOrder m calls).trans hrun, ?_, ?_⟩
  · have haccepts := InOrder.forall_accepts_iff hstops fun i status hi => (hanswers i status hi).1
    rw [leading_eq_iff, ← haccepts]
    simp only [beq_iff_eq]
  · rw [executed_of_stopsAt hstops fun i hi => (hanswers i _ (List.getElem?_eq_getElem hi)).2]
    exact hm'

/-- **The batch**: it runs the list of the sequence, and answers `ok` when every descriptor
succeeds. -/
theorem executeBatch_eq (hlength : 4 ≤ s.currentLength) :
    ∃ m' status, executeBatch dsc record b s options = some (m', status)
      ∧ status = (if leading (batchMemory dsc record b s options) b.operations s.currentLength
          = s.currentLength then .ok else .error)
      ∧ Set.EqOn (runFirst (batchMemory dsc record b s options) b.operations
          (executed (batchMemory dsc record b s options) b.operations s.currentLength)) m'
          (Region.addrs ⟨record, recordSize⟩)ᶜ := by
  have hargs := batchArgs_batchMemory options hcall hholds
  have hplaced := batchPlaced_batchMemory options hcall hholds
  have hnotes := notesSafe_batchMemory options hcall hholds
  have hrecord : getCompletionRecord (batchMemory dsc record b s options) dsc = record :=
    getCompletionRecord_constructTask hcall.task
  have hready : BatchReady (batchMemory dsc record b s options)
      (batchMemory dsc record b s options) dsc b.operations s.currentLength :=
    ⟨hargs, hplaced, fun _ _ => rfl, hnotes⟩
  have hsubmit := hready.submit_eq fun _ _ => rfl
  rw [hrecord] at hsubmit
  have hvalid : validate (batchMemory dsc record b s options) dsc = .success := by
    rw [validate, hargs.operation]
    have haddress := hcall.address.1
    simp only [Validate.batch, anyEqualZero_one, hargs.list, hargs.size]
    rw [if_neg (by omega), if_neg (by omega)]
  have hkept : Set.EqOn (runJob (batchMemory dsc record b s options) dsc)
      (batchMemory dsc record b s options) (Region.addrs ⟨dsc, descriptorSize⟩) := by
    intro x hx
    refine hready.frame (fun _ _ => rfl) ?_ fun i hi R hR => ?_
    · rw [hrecord]
      exact hcall.task.apart.notMem hx
    · exact (hplaced.apart_descriptor i hi R (innerWrites_subset _ _ _ hR)).symm.notMem hx
  refine ⟨_, _, execute_of_kept hvalid hkept, ?_, fun x hx => ?_⟩
  · have hstatus := status_setStatus (BatchCompletionRecord.descriptorsCompleted.set
      (runFirst (batchMemory dsc record b s options) b.operations
        (executed (batchMemory dsc record b s options) b.operations s.currentLength)) record
        (leading (batchMemory dsc record b s options) b.operations s.currentLength)) record
      (if leading (batchMemory dsc record b s options) b.operations s.currentLength
        = s.currentLength then .success else .batchError)
    rw [← completeBatch, ← hsubmit] at hstatus
    rw [runJob] at hstatus
    rw [← batchMemory, getStatus_of_status hstatus]
    split <;> rfl
  · rw [← batchMemory, ← runJob, hsubmit, completeBatch_apply hx]

/-- A short sequence is rejected. -/
theorem executeBatch_short (hlength : s.currentLength < 4) :
    executeBatch dsc record b s options
      = some (batchMemory dsc record b s options, .badLength) := by
  have hargs := batchArgs_batchMemory options hcall hholds
  have haddress := hcall.address.1
  have hvalid : validate (batchMemory dsc record b s options) dsc = .wrongBatchSize := by
    rw [validate, hargs.operation]
    simp only [Validate.batch, anyEqualZero_one, hargs.list, hargs.size]
    rw [if_neg (by omega), if_pos hlength]
  have hinvalid : validate (batchMemory dsc record b s options) dsc ≠ .success := by
    rw [hvalid]
    decide
  refine (execute_of_invalid hinvalid).trans ?_
  rw [← batchMemory, hvalid]
  rfl

end Batch

/-- **A sequence executed as a batch** does what the operations it has accepted do, executed one
after another up to the first that does not answer `ok`: the caller finds the same memory, and
the batch answers `ok` when all of them do.  A sequence of fewer than four operations is
rejected. -/
theorem sequence_batch (b : SequenceBuffers) (m : Memory)
    (adds : List (SequenceOperation × ℕ)) {calls : List ExecuteCall} {dsc record : ℕ}
    (options : BitVec 16)
    (hops : calls.map ExecuteCall.op = Sequence.accepted b ⟨m, 0⟩ adds)
    (hcall : BatchCall b (Sequence.run b ⟨m, 0⟩ adds) dsc record calls) :
    (calls.length < 4 → ∃ m', executeBatch dsc record b (Sequence.run b ⟨m, 0⟩ adds) options
        = some (m', .badLength)
      ∧ Set.EqOn m' (Sequence.run b ⟨m, 0⟩ adds).memory
          (addresses (privateRegions b dsc record calls))ᶜ) ∧
    (4 ≤ calls.length → ∃ m' status m'' statuses,
      executeBatch dsc record b (Sequence.run b ⟨m, 0⟩ adds) options = some (m', status)
      ∧ executeInOrder (Sequence.run b ⟨m, 0⟩ adds).memory calls = some (m'', statuses)
      ∧ status = (if ∀ status ∈ statuses, status = .ok then .ok else .error)
      ∧ Set.EqOn m' m'' (addresses (privateRegions b dsc record calls))ᶜ) := by
  have hholds : Sequence.Holds b (Sequence.run b ⟨m, 0⟩ adds) (calls.map ExecuteCall.op) := by
    have h := Sequence.holds_run (Sequence.holds_empty b m) adds
    rwa [List.nil_append, ← hops] at h
  have hcheck : ∀ call ∈ calls, call.op.rangeCheck = .ok := fun call hmem =>
    rangeCheck_of_accepted adds call.op (hops ▸ List.mem_map_of_mem hmem)
  have hlength := hholds.length
  rw [List.length_map] at hlength
  generalize Sequence.run b ⟨m, 0⟩ adds = s at *
  -- the task of the batch is all that is written before the kernel starts
  have hstart : Set.EqOn (batchMemory dsc record b s options) s.memory
      (addresses (privateRegions b dsc record calls))ᶜ := by
    intro x hx
    have hout : ∀ Q ∈ privateRegions b dsc record calls, x ∉ Q.addrs := fun Q hQ hin =>
      hx ⟨Q, hQ, hin⟩
    exact assignTask_apply (hout _ (List.mem_append_left _ (by simp)))
      (hout _ (List.mem_append_left _ (by simp)))
  constructor
  · intro hshort
    exact ⟨_, executeBatch_short options hcall hholds (by omega), hstart⟩
  · intro hlong
    obtain ⟨m', status, hbatch, hstatus, hm'⟩ :=
      executeBatch_eq options hcall hholds (by omega)
    obtain ⟨m'', statuses, horder, hall, hm''⟩ :=
      executeInOrder_eq options hcall hholds hcheck hstart
    refine ⟨m', status, m'', statuses, hbatch, horder, ?_, fun x hx => ?_⟩
    · rw [hstatus]
      exact if_congr hall.symm rfl rfl
    · refine (hm' fun hin => hx ⟨_, List.mem_append_left _ ?_, hin⟩).symm.trans (hm'' hx)
      simp

/-- A sequence with room for four operations. -/
def fourSlots : SequenceBuffers where
  operations := 0x1000
  results := 0x2000
  count := 4
  fits := by decide
  apart := by decide

/-- Four operations: a fill and a move of what it writes, with an operation between them that is
rejected, and two empty ones. -/
def fourAdds : List (SequenceOperation × ℕ) :=
  [(.fill 0x5a#64 ⟨0x4000#64, 8#32⟩ 0#16, 0), (.fill 0#64 ⟨0#64, 8#32⟩ 0#16, 0),
    (.memMove ⟨0x4000#64, 8#32⟩ ⟨0x4010#64, 8#32⟩ 0#16, 0), (.nop 0#16, 0), (.nop 0#16, 0)]

/-- The four that are accepted, with their tasks at `0x5000`. -/
def fourCalls : List ExecuteCall :=
  [⟨.fill 0x5a#64 ⟨0x4000#64, 8#32⟩ 0#16, 0x5000, 0x5040⟩,
    ⟨.memMove ⟨0x4000#64, 8#32⟩ ⟨0x4010#64, 8#32⟩ 0#16, 0x5000, 0x5040⟩,
    ⟨.nop 0#16, 0x5000, 0x5040⟩, ⟨.nop 0#16, 0x5000, 0x5040⟩]

/-- The batch does what the four operations do. -/
theorem sequence_batch_fourCalls :
    ∃ m' status m'' statuses,
      executeBatch 0x3000 0x3040 fourSlots (Sequence.run fourSlots ⟨fun _ => 0, 0⟩ fourAdds) 0#16
        = some (m', status)
      ∧ executeInOrder (Sequence.run fourSlots ⟨fun _ => 0, 0⟩ fourAdds).memory fourCalls
        = some (m'', statuses)
      ∧ status = (if ∀ status ∈ statuses, status = .ok then .ok else .error)
      ∧ Set.EqOn m' m'' (addresses (privateRegions fourSlots 0x3000 0x3040 fourCalls))ᶜ := by
  have hops : fourCalls.map ExecuteCall.op
      = Sequence.accepted fourSlots ⟨fun _ => 0, 0⟩ fourAdds := by decide
  have htasks : ∀ call ∈ fourCalls, call.dsc = 0x5000 ∧ call.record = 0x5040 := by decide
  have hnotes : ∀ i, i < 4 → operationOf (runFirst
      (Sequence.run fourSlots ⟨fun _ => 0, 0⟩ fourAdds).memory 0x1000 i) (innerDescriptor 0x1000 i)
        ≠ some .applyDelta := by decide
  have hlength : (Sequence.run fourSlots ⟨fun _ => 0, 0⟩ fourAdds).currentLength = 4 := by decide
  have hcall : BatchCall fourSlots (Sequence.run fourSlots ⟨fun _ => 0, 0⟩ fourAdds) 0x3000 0x3040
      fourCalls := by
    refine ⟨⟨by decide, by decide⟩, ⟨by decide, by decide⟩, ⟨by decide, by decide⟩,
      fun call hmem => ?_, by decide, by decide, by decide, fun i hi hop => ?_⟩
    · rw [(htasks call hmem).1, (htasks call hmem).2]
      exact ⟨by decide, by decide⟩
    · exact absurd hop (hnotes i (hlength ▸ hi))
  exact (sequence_batch fourSlots (fun _ => 0) fourAdds 0#16 hops hcall).2 (by decide)

end DataMover
