import DataMover.Continuation.Once
import DataMover.Handler

/-!
# Programs with handlers

A program constructs, submits into, moves, assigns and destroys handlers in any order, while a
device executes what it has been given and the caller writes to memory of its own.

Every block stays with exactly one variable, wherever it is moved, so that none is given back
twice and none is lost; and whoever holds the handler of an operation gets the result that
`execute` would have returned in the memory in which the operation was executed, as often as it
asks, and nothing before that.

## Main definitions

* `Phase` — what has become of the operation in a block.
* `HandlerState.Reaches` — the runs of a program.
* `HandlerInvariant` — what holds in every state of a run.
* `Handler.Answers` — what a handler answers.

## Main results

* `HandlerState.submit_cases` — what a submission can lead to.
* `HandlerState.Reaches.invariant` — the invariant of the runs.
* `handlers_own_blocks` — every block has one owner.
* `handlers_deliver` — every handler answers for the operation in its block.
-/

namespace DataMover

open ByteMemory Ownership

/-! ### The operation in a block -/

/-- The answer of validation, which does not depend on where the task is. -/
def SequenceOperation.validation (op : SequenceOperation) : ValidationStatus :=
  validate (makeTaskDescriptor op.args 0) 0

/-- The operation passes the range check and validation. -/
def SequenceOperation.Accepted (op : SequenceOperation) : Prop :=
  op.rangeCheck = .ok ∧ op.validation = .success

/-- The operation is turned down with a status. -/
def SequenceOperation.TurnedDown (op : SequenceOperation) (status : StatusCode) : Prop :=
  (op.rangeCheck ≠ .ok ∧ status = op.rangeCheck)
    ∨ (op.rangeCheck = .ok ∧ op.validation ≠ .success ∧ status = op.validation.toOwn)

/-- What has become of the operation in a block: there is none; it was turned down; no device
took it; it waits for its execution; it was executed in one memory and left another. -/
inductive Phase
  | empty
  | rejected (op : SequenceOperation)
  | refused (op : SequenceOperation)
  | pending (op : SequenceOperation)
  | executed (op : SequenceOperation) (before after : Memory)

/-- The task of the operation is in the block. -/
def TaskHeld (m : Memory) (block : BitVec 64) (op : SequenceOperation) : Prop :=
  HoldsDescriptor m (taskDescriptorAt block) (rebind op.args.make 0 (taskRecordAt block))

/-- An execution of the operation: the memory is as the software leaves it, except for the bytes
of the record that no result is made of. -/
structure Executes (m memory : Memory) (block : BitVec 64) (op : SequenceOperation) : Prop where
  agrees : Set.EqOn memory (runJob m (taskDescriptorAt block))
    (Region.addrs ⟨taskRecordAt block, recordSize⟩)ᶜ
  fields : ∀ f ∈ op.resultType.fields, f.get memory (taskRecordAt block)
    = f.get (runJob m (taskDescriptorAt block)) (taskRecordAt block)

theorem executes_runJob (m : Memory) (block : BitVec 64) (op : SequenceOperation) :
    Executes m (runJob m (taskDescriptorAt block)) block op where
  agrees := fun _ _ => rfl
  fields := fun _ _ => rfl

/-- The operation is ready in its block: it was accepted, its record is cleared, and its buffers
are apart from the block. -/
structure BlockReady (m : Memory) (block : BitVec 64) (op : SequenceOperation) : Prop where
  fits : BlockFits block
  accepted : op.Accepted
  held : TaskHeld m block op
  clear : ∀ x ∈ Region.addrs ⟨taskRecordAt block, recordSize⟩, m x = 0#8
  apart : ∀ R ∈ op.buffers, R.Apart (blockRegion block)

section BlockReady

variable {m m' memory : Memory} {block : BitVec 64} {op : SequenceOperation}

theorem eqOn_descriptor_of_block (hfits : BlockFits block)
    (h : Set.EqOn m' m (blockRegion block).addrs) :
    Set.EqOn m' m (Region.addrs ⟨taskDescriptorAt block, descriptorSize⟩) := by
  intro x hx
  refine h (Region.mem_addrs.mpr ?_)
  have hinside := hfits.descriptor_inside
  rw [Region.mem_addrs] at hx
  exact ⟨hinside.1.trans hx.1, hx.2.trans_le hinside.2⟩

theorem eqOn_record_of_block (hfits : BlockFits block)
    (h : Set.EqOn m' m (blockRegion block).addrs) :
    Set.EqOn m' m (Region.addrs ⟨taskRecordAt block, recordSize⟩) := by
  intro x hx
  refine h (Region.mem_addrs.mpr ?_)
  have hinside := hfits.record_inside
  rw [Region.mem_addrs] at hx
  exact ⟨hinside.1.trans hx.1, hx.2.trans_le hinside.2⟩

theorem TaskHeld.congr (h : TaskHeld m block op)
    (heq : Set.EqOn m' m (Region.addrs ⟨taskDescriptorAt block, descriptorSize⟩)) :
    TaskHeld m' block op :=
  fun i hi => (heq (Region.add_mem_addrs hi)).trans (h i hi)

theorem TaskHeld.record (h : TaskHeld m block op) (hfits : BlockFits block) :
    getCompletionRecord m (taskDescriptorAt block) = taskRecordAt block := by
  rw [getCompletionRecord, HoldsDescriptor.get h (by decide),
    completionRecordAddress_rebind hfits.taskPlaced.fits]

theorem TaskHeld.sameFields (h : TaskHeld m block op) :
    SameFields (makeTaskDescriptor op.args 0) 0 m (taskDescriptorAt block) := by
  have hcopy : HoldsDescriptor (makeTaskDescriptor op.args 0) 0 (rebind op.args.make 0 0) :=
    fun j _ => by rw [Nat.zero_add]; rfl
  exact sameFields_of_holds hcopy h

theorem TaskHeld.operation (h : TaskHeld m block op) :
    operationOf m (taskDescriptorAt block) = some op.args.operation :=
  h.sameFields.operationOf_eq.trans (operationOf_makeTaskDescriptor op.args 0)

theorem TaskHeld.operation_ne_batch (h : TaskHeld m block op) :
    operationOf m (taskDescriptorAt block) ≠ some .batch := by
  rw [h.operation]
  exact fun hbatch => op.operation_ne_batch (Option.some.inj hbatch)

theorem TaskHeld.validate_eq (h : TaskHeld m block op) :
    validate m (taskDescriptorAt block) = op.validation :=
  h.sameFields.validate_eq

theorem TaskHeld.operands_eq (h : TaskHeld m block op) :
    operands m (taskDescriptorAt block) = op.buffers :=
  h.sameFields.operands_eq

/-- What happens outside of the block makes no difference. -/
theorem BlockReady.congr (h : BlockReady m block op)
    (heq : Set.EqOn m' m (blockRegion block).addrs) : BlockReady m' block op where
  fits := h.fits
  accepted := h.accepted
  held := h.held.congr (eqOn_descriptor_of_block h.fits heq)
  clear := fun x hx => (eqOn_record_of_block h.fits heq hx).trans (h.clear x hx)
  apart := h.apart

/-- **What an execution changes**: the buffers of the operation and its record. -/
theorem BlockReady.apply (h : BlockReady m block op)
    (hnotes : DeltaWithin m (taskDescriptorAt block)) (hexec : Executes m memory block op) {x : ℕ}
    (hrecord : x ∉ Region.addrs ⟨taskRecordAt block, recordSize⟩)
    (hbuffers : ∀ R ∈ op.buffers, x ∉ R.addrs) : memory x = m x := by
  rw [hexec.agrees hrecord]
  refine submit_apply h.held.operation_ne_batch hnotes ?_ ?_
  · rwa [h.held.record h.fits]
  · rwa [h.held.operands_eq]

/-- An execution leaves the descriptor in its block alone. -/
theorem BlockReady.held_after (h : BlockReady m block op)
    (hnotes : DeltaWithin m (taskDescriptorAt block)) (hexec : Executes m memory block op) :
    TaskHeld memory block op := by
  refine h.held.congr fun x hx => h.apply hnotes hexec ?_ fun R hR => ?_
  · exact h.fits.taskPlaced.apart.notMem hx
  · exact (h.fits.apartFromTask (h.apart R hR)).descriptor.symm.notMem hx

/-- An execution leaves the other blocks alone. -/
theorem BlockReady.eqOn_block (h : BlockReady m block op)
    (hnotes : DeltaWithin m (taskDescriptorAt block)) (hexec : Executes m memory block op)
    {other : BitVec 64} (hother : (blockRegion other).Apart (blockRegion block))
    (hbuffers : ∀ R ∈ op.buffers, R.Apart (blockRegion other)) :
    Set.EqOn memory m (blockRegion other).addrs := by
  intro x hx
  refine h.apply hnotes hexec (fun hin => ?_) fun R hR => (hbuffers R hR).symm.notMem hx
  have hinside := h.fits.record_inside
  rw [Region.mem_addrs] at hin
  refine hother.notMem hx (Region.mem_addrs.mpr ?_)
  exact ⟨hinside.1.trans hin.1, hin.2.trans_le hinside.2⟩

/-- **After an execution** the operation is finished, and there is no page fault. -/
theorem BlockReady.finished_after (h : BlockReady m block op)
    (hexec : Executes m memory block op) {later : Memory} (hheld : TaskHeld later block op)
    (hfields : ∀ f ∈ op.resultType.fields,
      f.get later (taskRecordAt block) = f.get memory (taskRecordAt block)) :
    Software.finished later (taskDescriptorAt block) = true
      ∧ isPageFault (AnyCompletionRecord.status.get later
          (getCompletionRecord later (taskDescriptorAt block))) = false := by
  have hrecord := hheld.record h.fits
  have hin := op.resultType.status_mem_fields
  have hknown : operationOf m (taskDescriptorAt block) ≠ none := by
    rw [h.held.operation]
    exact fun hnone => absurd hnone (by simp)
  obtain ⟨t, s, hfinal, hrun⟩ := exists_submit_eq_setStatus hknown
  have hstatus : AnyCompletionRecord.status.get later (taskRecordAt block) = s.toUnderlying := by
    rw [hfields _ hin, hexec.fields _ hin, runJob, hrun, h.held.record h.fits, status_setStatus]
  rw [Software.finished_iff, hrecord, hstatus]
  exact FinalStatus.settles hfinal

end BlockReady

/-! ### Runs -/

namespace HandlerState

/-- A block that the allocator may give out: it is apart from the blocks that are allocated and
from the buffers that are still in use. -/
structure FreshBlock (s : HandlerState) (phase : BitVec 64 → Phase) (block : BitVec 64) : Prop where
  fits : BlockFits block
  apart : ∀ b ∈ s.allocated, (blockRegion b).Apart (blockRegion block)
  unused : ∀ b ∈ s.allocated, ∀ op, phase b = .pending op →
    ∀ R ∈ op.buffers, R.Apart (blockRegion block)

/-- The memory in which the task of a submission has been made. -/
def taskMade (s : HandlerState) (op : SequenceOperation) (block : BitVec 64) : Memory :=
  constructTask s.machine.memory (taskDescriptorAt block) (taskRecordAt block) op.args

/-- What a submission leads to. -/
def submitPhase (t : HwDispatcher) (s : HandlerState) (path : ExecutionPath)
    (op : SequenceOperation) (block : BitVec 64) (q : Submission) : Phase :=
  let q := { q with dsc := taskDescriptorAt block }
  let m := s.taskMade op block
  if op.rangeCheck ≠ .ok then .rejected op
  else if validate m q.dsc ≠ .success then .rejected op
  else
    let r := submitTask t path { s.machine with memory := m } q
    if r.2 ≠ .success then .refused op
    else if r.1.pending.length = s.machine.pending.length then .executed op m r.1.memory
    else .pending op

/-- **The runs of a program**, with the phases of the blocks.  The buffers of an operation are
apart from the blocks of the handlers, and the notes an `apply_delta` finds when it is executed
point into its destination.  A handler is not destroyed while its operation is pending.  Its type
is fixed: a handler is assigned to one of the same type. -/
inductive Reaches (t : HwDispatcher) (m : Memory) (threads : ℕ → ThreadState) :
    HandlerState → (BitVec 64 → Phase) → Prop
  | start : Reaches t m threads ⟨⟨m, threads, [], []⟩, fun _ => none, []⟩ fun _ => .empty
  | construct {s : HandlerState} {phase : BitVec 64 → Phase} (i : ℕ) (type : ResultType)
      (block : BitVec 64) (h : Reaches t m threads s phase) (hdead : s.handlers i = none)
      (hfresh : s.FreshBlock phase block) :
      Reaches t m threads (s.construct i type block) (Function.update phase block .empty)
  | submit {s : HandlerState} {phase : BitVec 64 → Phase} (i : ℕ) (path : ExecutionPath)
      (op : SequenceOperation) (block : BitVec 64) (q : Submission)
      (h : Reaches t m threads s phase) (hdead : s.handlers i = none)
      (hfresh : s.FreshBlock phase block)
      (hbuffers : ∀ R ∈ op.buffers, ∀ b ∈ block :: s.allocated, R.Apart (blockRegion b))
      (hnotes : ∀ before after, s.submitPhase t path op block q = .executed op before after →
        DeltaWithin before (taskDescriptorAt block)) :
      Reaches t m threads (s.submit t i path op block q)
        (Function.update phase block (s.submitPhase t path op block q))
  | moveConstruct {s : HandlerState} {phase : BitVec 64 → Phase} (i j : ℕ) {handler : Handler}
      (h : Reaches t m threads s phase) (hdead : s.handlers i = none)
      (hlive : s.handlers j = some handler) : Reaches t m threads (s.moveConstruct i j) phase
  | moveAssign {s : HandlerState} {phase : BitVec 64 → Phase} (i j : ℕ) {handler other : Handler}
      (h : Reaches t m threads s phase) (hi : s.handlers i = some handler)
      (hj : s.handlers j = some other) (htype : handler.resultType = other.resultType) :
      Reaches t m threads (s.moveAssign i j) phase
  | destroy {s s' : HandlerState} {phase : BitVec 64 → Phase} (i : ℕ) {handler : Handler}
      (h : Reaches t m threads s phase) (hlive : s.handlers i = some handler)
      (hsettled : ∀ block op, handler.task = some block → phase block ≠ .pending op)
      (hdestroy : s.destroy i = some s') : Reaches t m threads s' phase
  | execute {s : HandlerState} {phase : BitVec 64 → Phase} (block : BitVec 64)
      {op : SequenceOperation} (memory : Memory) (h : Reaches t m threads s phase)
      (hblock : block ∈ s.allocated) (hpending : phase block = .pending op)
      (hnotes : DeltaWithin s.machine.memory (taskDescriptorAt block))
      (hexec : Executes s.machine.memory memory block op) :
      Reaches t m threads
        { s with machine := { s.machine with
            memory := memory
            pending := s.machine.pending.filter fun d => decide (d ≠ taskDescriptorAt block)
            ran := s.machine.ran ++ [taskDescriptorAt block] } }
        (Function.update phase block (.executed op s.machine.memory memory))
  | write {s : HandlerState} {phase : BitVec 64 → Phase} (memory : Memory)
      (h : Reaches t m threads s phase)
      (hkept : ∀ b ∈ s.allocated, Set.EqOn memory s.machine.memory (blockRegion b).addrs) :
      Reaches t m threads { s with machine := { s.machine with memory := memory } } phase

end HandlerState

/-! ### A submission -/

section Submit

variable {t : HwDispatcher} {s : HandlerState} {path : ExecutionPath} {op : SequenceOperation}
  {block : BitVec 64} {q : Submission} (hfits : BlockFits block)

include hfits

theorem taskHeld_taskMade : TaskHeld (s.taskMade op block) block op :=
  holdsDescriptor_constructTask hfits.taskPlaced

theorem taskMade_eqOn {other : BitVec 64} (hap : (blockRegion other).Apart (blockRegion block)) :
    Set.EqOn (s.taskMade op block) s.machine.memory (blockRegion other).addrs :=
  fun _ hx => constructTask_apply (hfits.apartFromTask hap) hx

theorem blockReady_taskMade (haccepted : op.Accepted)
    (hapart : ∀ R ∈ op.buffers, R.Apart (blockRegion block)) :
    BlockReady (s.taskMade op block) block op where
  fits := hfits
  accepted := haccepted
  held := taskHeld_taskMade hfits
  clear := fun _ hx => constructTask_record hfits.taskPlaced hx
  apart := hapart

/-- What a submission leaves in the new variable, and in the machine. -/
structure SubmitLeaves (s s' : HandlerState) (i : ℕ) (op : SequenceOperation) (block : BitVec 64)
    (status : StatusCode) (memory : Memory) (pending : List ℕ) : Prop where
  handlers : ∃ path, s'.handlers
    = Function.update s.handlers i (some ⟨some block, status, path, op.resultType⟩)
  allocated : s'.allocated = block :: s.allocated
  memory : s'.machine.memory = memory
  pending : s'.machine.pending = pending

/-- **What a submission can lead to**: the operation is turned down, no device takes it, it waits
for one, or it has been executed. -/
theorem HandlerState.submit_cases (i : ℕ) :
    (∃ status, s.submitPhase t path op block q = .rejected op ∧ op.TurnedDown status
        ∧ SubmitLeaves s (s.submit t i path op block q) i op block status (s.taskMade op block)
            s.machine.pending) ∨
      (∃ status, s.submitPhase t path op block q = .refused op
        ∧ (status = .queueBusy ∨ status = .error)
        ∧ SubmitLeaves s (s.submit t i path op block q) i op block status (s.taskMade op block)
            s.machine.pending) ∨
      (op.Accepted ∧ s.submitPhase t path op block q = .pending op
        ∧ SubmitLeaves s (s.submit t i path op block q) i op block .ok (s.taskMade op block)
            (s.machine.pending ++ [taskDescriptorAt block])) ∨
      (op.Accepted ∧ s.submitPhase t path op block q
          = .executed op (s.taskMade op block)
              (runJob (s.taskMade op block) (taskDescriptorAt block))
        ∧ SubmitLeaves s (s.submit t i path op block q) i op block .ok
            (runJob (s.taskMade op block) (taskDescriptorAt block)) s.machine.pending) := by
  have hheld := @taskHeld_taskMade s op block hfits
  have hvalidation := hheld.validate_eq
  have hop : operationOf (s.taskMade op block) (taskDescriptorAt block) ≠ none := by
    rw [hheld.operation]
    exact fun hnone => absurd hnone (by simp)
  have hcases := @submitTask_cases t { q with dsc := taskDescriptorAt block } path
    { s.machine with memory := s.taskMade op block } hop (by
      rw [hheld.record hfits]
      exact fun x hx => constructTask_record hfits.taskPlaced hx)
  by_cases hrange : op.rangeCheck = .ok
  · by_cases hvalid : op.validation = .success
    · -- the checks are passed, and the path decides
      have hpassed : validate (s.taskMade op block) (taskDescriptorAt block) = .success :=
        hvalidation.trans hvalid
      generalize hr : submitTask t path { s.machine with memory := s.taskMade op block }
        { q with dsc := taskDescriptorAt block } = r at hcases
      have hphase : s.submitPhase t path op block q
          = if r.2 ≠ .success then .refused op
            else if r.1.pending.length = s.machine.pending.length then
              .executed op (s.taskMade op block) r.1.memory
            else .pending op := by
        simp only [HandlerState.submitPhase, hrange, hpassed, hr, ne_eq, not_true_eq_false,
          if_false]
      have hleaves : SubmitLeaves s (s.submit t i path op block q) i op block r.2.toOwn r.1.memory
          r.1.pending := by
        unfold HandlerState.taskMade at hr
        have hchecked : Software.validate (constructTask s.machine.memory (taskDescriptorAt block)
            (taskRecordAt block) op.args) (taskDescriptorAt block) = .success := hpassed
        unfold HandlerState.submit
        simp only [hrange, hchecked, hr, ne_eq, not_true_eq_false, if_false]
        cases hstatus : r.2 <;> exact ⟨⟨_, rfl⟩, rfl, rfl, rfl⟩
      rw [hphase]
      rcases hcases with ⟨hstatus, hmemory, hpending⟩ | ⟨hstatus, hmemory, hpending⟩
          | ⟨hstatus, hmemory, hpending⟩
      · rw [hmemory, hpending] at hleaves
        refine Or.inr (Or.inl ⟨_, if_pos hstatus, ?_, hleaves⟩)
        cases h : r.2 with
        | success => exact absurd h hstatus
        | queueBusy => exact Or.inl rfl
        | failure => exact Or.inr rfl
      · rw [hmemory, hpending, hstatus] at hleaves
        refine Or.inr (Or.inr (Or.inl ⟨⟨hrange, hvalid⟩, ?_, hleaves⟩))
        rw [if_neg (not_not.mpr hstatus), hpending, if_neg (by simp)]
      · rw [hmemory, hpending, hstatus] at hleaves
        refine Or.inr (Or.inr (Or.inr ⟨⟨hrange, hvalid⟩, ?_, hleaves⟩))
        rw [if_neg (not_not.mpr hstatus), hpending, if_pos rfl, hmemory]
    · have hfailed : validate (s.taskMade op block) (taskDescriptorAt block) ≠ .success :=
        fun h => hvalid (hvalidation.symm.trans h)
      refine Or.inl ⟨op.validation.toOwn, ?_, Or.inr ⟨hrange, hvalid, rfl⟩, ?_⟩
      · simp only [HandlerState.submitPhase, hrange, hfailed, ne_eq, not_true_eq_false, if_false,
          not_false_eq_true, if_true]
      · have hchecked : Software.validate (constructTask s.machine.memory (taskDescriptorAt block)
            (taskRecordAt block) op.args) (taskDescriptorAt block) = op.validation := hvalidation
        unfold HandlerState.submit
        simp only [hrange, hchecked, hvalid, ne_eq, not_true_eq_false, if_false, not_false_eq_true,
          if_true]
        exact ⟨⟨_, rfl⟩, rfl, rfl, rfl⟩
  · refine Or.inl ⟨op.rangeCheck, if_pos hrange, Or.inl ⟨hrange, rfl⟩, ?_⟩
    unfold HandlerState.submit
    simp only [hrange, ne_eq, not_false_eq_true, if_true]
    exact ⟨⟨_, rfl⟩, rfl, rfl, rfl⟩

/-- What was executed is the task that was made. -/
theorem taskHeld_of_executed {op' : SequenceOperation} {before after : Memory}
    (h : s.submitPhase t path op block q = .executed op' before after) :
    TaskHeld before block op := by
  rcases @HandlerState.submit_cases t s path op block q hfits 0 with
    ⟨_, hphase, -⟩ | ⟨_, hphase, -⟩ | ⟨-, hphase, -⟩ | ⟨-, hphase, -⟩
  · rw [hphase] at h
    exact absurd h (by simp)
  · rw [hphase] at h
    exact absurd h (by simp)
  · rw [hphase] at h
    exact absurd h (by simp)
  · rw [hphase, Phase.executed.injEq] at h
    rw [← h.2.1]
    exact taskHeld_taskMade hfits

end Submit

/-- Only an `apply_delta` reads notes. -/
theorem TaskHeld.deltaWithin {m : Memory} {block : BitVec 64} {op : SequenceOperation}
    (h : TaskHeld m block op) (hop : op.args.operation ≠ .applyDelta) :
    DeltaWithin m (taskDescriptorAt block) := by
  intro happly
  rw [h.operation, Option.some.injEq] at happly
  exact absurd happly hop

/-! ### The invariant -/

/-- What a handler shows of the phase of its block. -/
def Handler.Carries (h : Handler) : Phase → Prop
  | .empty => h.status = .error
  | .rejected op => op.TurnedDown h.status ∧ h.resultType = op.resultType
  | .refused op => (h.status = .queueBusy ∨ h.status = .error) ∧ h.resultType = op.resultType
  | .pending op => h.status = .ok ∧ h.resultType = op.resultType
  | .executed op _ _ => h.status = .ok ∧ h.resultType = op.resultType

/-- What a block holds: a task that is ready, while it waits; afterwards the task still, with the
fields of its result as the execution left them. -/
def InPlace (m : Memory) (allocated : List (BitVec 64)) (block : BitVec 64) : Phase → Prop
  | .empty | .rejected _ | .refused _ => True
  | .pending op => BlockReady m block op
      ∧ ∀ R ∈ op.buffers, ∀ b ∈ allocated, R.Apart (blockRegion b)
  | .executed op before after => BlockReady before block op
      ∧ DeltaWithin before (taskDescriptorAt block) ∧ Executes before after block op
      ∧ TaskHeld m block op
      ∧ ∀ f ∈ op.resultType.fields, f.get m (taskRecordAt block) = f.get after (taskRecordAt block)

/-- Who holds which block. -/
def HandlerState.hold (s : HandlerState) (i : ℕ) : Option (BitVec 64) :=
  (s.handlers i).bind Handler.task

/-- **What holds in every state of a run.** -/
structure HandlerInvariant (s : HandlerState) (phase : BitVec 64 → Phase) : Prop where
  owned : Owned s.hold s.allocated
  fits : ∀ b ∈ s.allocated, BlockFits b
  apart : ∀ b ∈ s.allocated, ∀ c ∈ s.allocated, b ≠ c → (blockRegion b).Apart (blockRegion c)
  moved : ∀ i h, s.handlers i = some h → h.task = none → h.status = .error
  carries : ∀ i h b, s.handlers i = some h → h.task = some b → h.Carries (phase b)
  place : ∀ b ∈ s.allocated, InPlace s.machine.memory s.allocated b (phase b)
  queued_nodup : s.machine.pending.Nodup
  queued : ∀ d, d ∈ s.machine.pending
    ↔ ∃ b ∈ s.allocated, taskDescriptorAt b = d ∧ ∃ op, phase b = .pending op

/-- What is outside of a block makes no difference to it. -/
theorem InPlace.congr {m m' : Memory} {allocated allocated' : List (BitVec 64)} {block : BitVec 64}
    {p : Phase} (h : InPlace m allocated block p) (hfits : BlockFits block)
    (heq : Set.EqOn m' m (blockRegion block).addrs)
    (hnew : ∀ op, p = .pending op → ∀ b ∈ allocated', b ∈ allocated
      ∨ ∀ R ∈ op.buffers, R.Apart (blockRegion b)) : InPlace m' allocated' block p := by
  cases p with
  | empty | rejected | refused => trivial
  | pending op =>
    refine ⟨h.1.congr heq, fun R hR b hb => ?_⟩
    rcases hnew op rfl b hb with hin | hap
    · exact h.2 R hR b hin
    · exact hap R hR
  | executed op before after =>
    obtain ⟨hready, hnotes, hexec, hheld, hfields⟩ := h
    refine ⟨hready, hnotes, hexec, hheld.congr (eqOn_descriptor_of_block hfits heq),
      fun f hf => ?_⟩
    rw [← hfields f hf]
    exact Field.get_congr (ResultType.within_of_mem_fields f hf) (eqOn_record_of_block hfits heq)

/-- An executed operation is in place. -/
theorem BlockReady.inPlace {m memory : Memory} {allocated : List (BitVec 64)} {block : BitVec 64}
    {op : SequenceOperation} (h : BlockReady m block op)
    (hnotes : DeltaWithin m (taskDescriptorAt block)) (hexec : Executes m memory block op) :
    InPlace memory allocated block (.executed op m memory) :=
  ⟨h, hnotes, hexec, h.held_after hnotes hexec, fun _ _ => rfl⟩

/-- Blocks that are apart have their descriptors at different addresses. -/
theorem taskDescriptorAt_inj {b c : BitVec 64} (hb : BlockFits b) (hc : BlockFits c)
    (hap : b ≠ c → (blockRegion b).Apart (blockRegion c))
    (heq : taskDescriptorAt b = taskDescriptorAt c) : b = c := by
  by_contra hne
  have hinb := hb.descriptor_inside
  have hinc := hc.descriptor_inside
  rw [heq] at hinb
  refine (hap hne).notMem (x := taskDescriptorAt c) ?_ ?_
  · exact Region.mem_addrs.mpr ⟨hinb.1, lt_of_lt_of_le (by simp [descriptorSize]) hinb.2⟩
  · exact Region.mem_addrs.mpr ⟨hinc.1, lt_of_lt_of_le (by simp [descriptorSize]) hinc.2⟩

section Steps

variable {t : HwDispatcher} {s : HandlerState} {phase : BitVec 64 → Phase}

/-- A fresh block is not allocated. -/
theorem HandlerState.FreshBlock.notMem {block : BitVec 64}
    (hfresh : s.FreshBlock phase block) : block ∉ s.allocated := by
  intro hin
  have hself := hfresh.apart block hin
  have hmem : block.toNat ∈ (blockRegion block).addrs :=
    Region.mem_addrs.mpr ⟨le_rfl, by
      simp only [blockRegion, taskAllocateSize, taskMemorySize, taskMemoryAlignment]; omega⟩
  exact hself.notMem hmem hmem

variable (h : HandlerInvariant s phase)
include h

/-- **A variable is constructed** with a fresh block. -/
theorem HandlerInvariant.enter {s' : HandlerState} {i : ℕ} {block : BitVec 64} {handler : Handler}
    {p : Phase} (hdead : s.handlers i = none) (hfresh : s.FreshBlock phase block)
    (hhandlers : s'.handlers = Function.update s.handlers i (some handler))
    (htask : handler.task = some block) (hallocated : s'.allocated = block :: s.allocated)
    (hcarries : handler.Carries p)
    (hmemory : ∀ b ∈ s.allocated,
      Set.EqOn s'.machine.memory s.machine.memory (blockRegion b).addrs)
    (hplace : InPlace s'.machine.memory s'.allocated block p)
    (hpending : (∃ op, p = .pending op)
        ∧ s'.machine.pending = s.machine.pending ++ [taskDescriptorAt block]
      ∨ (∀ op, p ≠ .pending op) ∧ s'.machine.pending = s.machine.pending) :
    HandlerInvariant s' (Function.update phase block p) := by
  have hnot := hfresh.notMem
  have hne : ∀ b ∈ s.allocated, b ≠ block := fun b hb heq => hnot (heq ▸ hb)
  have hold : s'.hold = Function.update s.hold i (some block) := by
    funext k
    rw [HandlerState.hold, hhandlers]
    by_cases hk : k = i
    · rw [hk, Function.update_self, Function.update_self, Option.bind_some, htask]
    · rw [Function.update_of_ne hk, Function.update_of_ne hk, HandlerState.hold]
  have hfree : s.hold i = none := by rw [HandlerState.hold, hdead]; rfl
  refine ⟨?_, ?_, ?_, ?_, ?_, ?_, ?_, ?_⟩
  · rw [hold, hallocated]
    exact h.owned.acquire hfree hnot
  · rw [hallocated]
    exact List.forall_mem_cons.mpr ⟨hfresh.fits, h.fits⟩
  · rw [hallocated]
    intro b hb c hc hbc
    rcases List.mem_cons.mp hb with rfl | hold_b
    · exact (hfresh.apart c ((List.mem_cons.mp hc).resolve_left hbc.symm)).symm
    · rcases List.mem_cons.mp hc with rfl | hold_c
      · exact hfresh.apart b hold_b
      · exact h.apart b hold_b c hold_c hbc
  · intro k v hk hnone
    rw [hhandlers] at hk
    by_cases hki : k = i
    · rw [hki, Function.update_self, Option.some.injEq] at hk
      rw [← hk, htask] at hnone
      exact absurd hnone (by simp)
    · rw [Function.update_of_ne hki] at hk
      exact h.moved k v hk hnone
  · intro k v b hk hb
    rw [hhandlers] at hk
    by_cases hki : k = i
    · rw [hki, Function.update_self, Option.some.injEq] at hk
      rw [← hk, htask, Option.some.injEq] at hb
      rw [← hb, ← hk, Function.update_self]
      exact hcarries
    · rw [Function.update_of_ne hki] at hk
      have hin : b ∈ s.allocated := h.owned.mem (i := k) (by rw [HandlerState.hold, hk]; exact hb)
      rw [Function.update_of_ne (hne b hin)]
      exact h.carries k v b hk hb
  · rw [hallocated]
    refine List.forall_mem_cons.mpr ⟨?_, fun b hb => ?_⟩
    · rw [Function.update_self, ← hallocated]
      exact hplace
    · rw [Function.update_of_ne (hne b hb)]
      refine (h.place b hb).congr (h.fits b hb) (hmemory b hb) fun op hop c hc => ?_
      rcases List.mem_cons.mp hc with rfl | hc
      · exact Or.inr (hfresh.unused b hb op hop)
      · exact Or.inl hc
  · rcases hpending with ⟨-, hpending⟩ | ⟨-, hpending⟩
    · rw [hpending]
      refine List.nodup_append.mpr ⟨h.queued_nodup, List.nodup_singleton _, fun d hd e he hde => ?_⟩
      obtain ⟨b, hb, hbd, -⟩ := (h.queued d).mp hd
      rw [List.mem_singleton.mp he] at hde
      exact hne b hb (taskDescriptorAt_inj (h.fits b hb) hfresh.fits
        (fun _ => hfresh.apart b hb) (hbd.trans hde))
    · rw [hpending]
      exact h.queued_nodup
  · intro d
    have hother : (∃ b ∈ s.allocated, taskDescriptorAt b = d
          ∧ ∃ op, Function.update phase block p b = .pending op) ↔ d ∈ s.machine.pending := by
      rw [h.queued]
      constructor
      · rintro ⟨b, hb, hd, hop⟩
        rw [Function.update_of_ne (hne b hb)] at hop
        exact ⟨b, hb, hd, hop⟩
      · rintro ⟨b, hb, hd, hop⟩
        refine ⟨b, hb, hd, ?_⟩
        rw [Function.update_of_ne (hne b hb)]
        exact hop
    rw [hallocated, List.exists_mem_cons_iff, hother, Function.update_self]
    rcases hpending with ⟨hop, hpending⟩ | ⟨hop, hpending⟩
    · rw [hpending, List.mem_append, List.mem_singleton, or_comm]
      exact or_congr_left ⟨fun hd => ⟨hd.symm, hop⟩, fun hd => hd.1.symm⟩
    · rw [hpending]
      exact ⟨Or.inr, fun hd => hd.resolve_left fun ⟨_, op, hp⟩ => hop op hp⟩

/-- A variable without an operation. -/
theorem HandlerInvariant.construct {i : ℕ} (type : ResultType) {block : BitVec 64}
    (hdead : s.handlers i = none) (hfresh : s.FreshBlock phase block) :
    HandlerInvariant (s.construct i type block) (Function.update phase block .empty) := by
  refine h.enter hdead hfresh rfl rfl rfl rfl (fun b hb x hx => ?_) trivial
    (Or.inr ⟨fun op => by simp, rfl⟩)
  simp only [HandlerState.construct]
  refine paste_apply_of_notMem fun hin => (hfresh.apart b hb).notMem hx ?_
  have haligned := hfresh.fits.aligned
  rw [Region.mem_addrs] at hin ⊢
  simp only [blockRegion, taskAllocateSize, taskMemorySize, taskMemoryAlignment, descriptorSize,
    recordSize] at hin ⊢
  omega

/-- **A submission**, on any path and with any outcome. -/
theorem HandlerInvariant.submit {i : ℕ} {path : ExecutionPath} {op : SequenceOperation}
    {block : BitVec 64} {q : Submission} (hdead : s.handlers i = none)
    (hfresh : s.FreshBlock phase block)
    (hbuffers : ∀ R ∈ op.buffers, ∀ b ∈ block :: s.allocated, R.Apart (blockRegion b))
    (hnotes : ∀ before after, s.submitPhase t path op block q = .executed op before after →
      DeltaWithin before (taskDescriptorAt block)) :
    HandlerInvariant (s.submit t i path op block q)
      (Function.update phase block (s.submitPhase t path op block q)) := by
  have hmade : ∀ b ∈ s.allocated,
      Set.EqOn (s.taskMade op block) s.machine.memory (blockRegion b).addrs :=
    fun b hb => taskMade_eqOn hfresh.fits (hfresh.apart b hb)
  have hown : ∀ R ∈ op.buffers, R.Apart (blockRegion block) := fun R hR =>
    hbuffers R hR block (List.mem_cons_self ..)
  rcases @HandlerState.submit_cases t s path op block q hfresh.fits i with
    ⟨status, hphase, hdown, hleaves⟩ | ⟨status, hphase, hstatus, hleaves⟩
      | ⟨haccepted, hphase, hleaves⟩ | ⟨haccepted, hphase, hleaves⟩
  all_goals
    obtain ⟨⟨path', hhandlers⟩, hallocated, hmemory, hpending⟩ := hleaves
    rw [hphase]
  · refine h.enter hdead hfresh hhandlers rfl hallocated ⟨hdown, rfl⟩ ?_ trivial
      (Or.inr ⟨fun op => by simp, hpending⟩)
    rw [hmemory]
    exact hmade
  · refine h.enter hdead hfresh hhandlers rfl hallocated ⟨hstatus, rfl⟩ ?_ trivial
      (Or.inr ⟨fun op => by simp, hpending⟩)
    rw [hmemory]
    exact hmade
  · refine h.enter hdead hfresh hhandlers rfl hallocated ⟨rfl, rfl⟩ ?_ ?_
      (Or.inl ⟨⟨op, rfl⟩, hpending⟩)
    · rw [hmemory]
      exact hmade
    · rw [hmemory, hallocated]
      exact ⟨blockReady_taskMade hfresh.fits haccepted hown, hbuffers⟩
  · have hready := blockReady_taskMade (s := s) hfresh.fits haccepted hown
    have hdelta := hnotes _ _ hphase
    have hexec := executes_runJob (s.taskMade op block) block op
    refine h.enter hdead hfresh hhandlers rfl hallocated ⟨rfl, rfl⟩ (fun b hb => ?_) ?_
      (Or.inr ⟨fun op => by simp, hpending⟩)
    · rw [hmemory]
      exact (hready.eqOn_block hdelta hexec (hfresh.apart b hb) fun R hR =>
        hbuffers R hR b (List.mem_cons_of_mem _ hb)).trans (hmade b hb)
    · rw [hmemory]
      exact hready.inPlace hdelta hexec

/-- The variables hold other handlers, of the same blocks. -/
theorem HandlerInvariant.handlers {handlers : ℕ → Option Handler}
    (howned : Owned (fun i => (handlers i).bind Handler.task) s.allocated)
    (hfrom : ∀ i v, handlers i = some v → (v.task = none ∧ v.status = .error)
      ∨ ∃ j, s.handlers j = some v) : HandlerInvariant { s with handlers := handlers } phase where
  owned := howned
  fits := h.fits
  apart := h.apart
  moved i v hi hnone := by
    rcases hfrom i v hi with ⟨-, hstatus⟩ | ⟨j, hj⟩
    · exact hstatus
    · exact h.moved j v hj hnone
  carries i v b hi hb := by
    rcases hfrom i v hi with ⟨hnone, -⟩ | ⟨j, hj⟩
    · rw [hnone] at hb
      exact absurd hb (by simp)
    · exact h.carries j v b hj hb
  place := h.place
  queued_nodup := h.queued_nodup
  queued := h.queued

theorem HandlerInvariant.moveConstruct {i j : ℕ} {v : Handler} (hdead : s.handlers i = none)
    (hlive : s.handlers j = some v) : HandlerInvariant (s.moveConstruct i j) phase := by
  have hij : i ≠ j := by
    rintro rfl
    rw [hdead] at hlive
    exact absurd hlive (by simp)
  refine h.handlers ?_ fun k u hk => ?_
  · -- the empty variable and the one moved from have exchanged their blocks
    have hswap : (fun k => (Function.update (Function.update s.handlers i (s.handlers j)) j
          ((s.handlers j).map Handler.movedFrom) k).bind Handler.task)
        = s.hold ∘ Equiv.swap i j := by
      funext k
      rw [Function.comp_apply, HandlerState.hold]
      by_cases hkj : k = j
      · rw [hkj, Function.update_self, Equiv.swap_apply_right, hdead, hlive]
        rfl
      · rw [Function.update_of_ne hkj]
        by_cases hki : k = i
        · rw [hki, Function.update_self, Equiv.swap_apply_left]
        · rw [Function.update_of_ne hki, Equiv.swap_apply_of_ne_of_ne hki hkj]
    rw [hswap]
    exact h.owned.exchange i j
  · by_cases hkj : k = j
    · rw [hkj, Function.update_self, hlive, Option.map_some, Option.some.injEq] at hk
      rw [← hk]
      exact Or.inl ⟨rfl, rfl⟩
    · rw [Function.update_of_ne hkj] at hk
      by_cases hki : k = i
      · rw [hki, Function.update_self] at hk
        exact Or.inr ⟨j, hk⟩
      · rw [Function.update_of_ne hki] at hk
        exact Or.inr ⟨k, hk⟩

theorem HandlerInvariant.moveAssign (i j : ℕ) : HandlerInvariant (s.moveAssign i j) phase := by
  unfold HandlerState.moveAssign
  split
  · exact h.handlers (h.owned.exchange i j) fun k v hk => Or.inr ⟨_, hk⟩
  · exact h

/-- The variable that is destroyed gives back the block it has. -/
theorem HandlerInvariant.destroy_eq {i : ℕ} {v : Handler} (hlive : s.handlers i = some v) :
    s.destroy i = some { s with
      handlers := Function.update s.handlers i none
      allocated := match v.task with
        | none => s.allocated
        | some block => s.allocated.filter fun b => decide (b ≠ block) } := by
  have hin : ∀ block, v.task = some block → block ∈ s.allocated := fun block hblock =>
    h.owned.mem (i := i) (by rw [HandlerState.hold, hlive]; exact hblock)
  rw [HandlerState.destroy, hlive, Option.bind_some]
  cases htask : v.task with
  | none => rfl
  | some block =>
    have hany : (s.allocated.any fun b => decide (b = block)) = true :=
      List.any_eq_true.mpr ⟨block, hin block htask, decide_eq_true rfl⟩
    simp only [hany, if_true]

/-- **A variable is destroyed.** -/
theorem HandlerInvariant.destroy {s' : HandlerState} {i : ℕ} {v : Handler}
    (hlive : s.handlers i = some v)
    (hsettled : ∀ block op, v.task = some block → phase block ≠ .pending op)
    (hdestroy : s.destroy i = some s') : HandlerInvariant s' phase := by
  rw [h.destroy_eq hlive, Option.some.injEq] at hdestroy
  subst hdestroy
  have hhold : (fun k => (Function.update s.handlers i none k).bind Handler.task)
      = Function.update s.hold i none := by
    funext k
    by_cases hk : k = i
    · rw [hk, Function.update_self, Function.update_self]
      rfl
    · rw [Function.update_of_ne hk, Function.update_of_ne hk, HandlerState.hold]
  have hfrom : ∀ k u, Function.update s.handlers i none k = some u →
      (u.task = none ∧ u.status = .error) ∨ ∃ j, s.handlers j = some u := by
    intro k u hk
    by_cases hki : k = i
    · rw [hki, Function.update_self] at hk
      exact absurd hk (by simp)
    · rw [Function.update_of_ne hki] at hk
      exact Or.inr ⟨k, hk⟩
  have hi : s.hold i = v.task := by rw [HandlerState.hold, hlive]; rfl
  cases htask : v.task with
  | none =>
    refine h.handlers ?_ hfrom
    rw [hhold, ← htask, ← hi, Function.update_eq_self]
    exact h.owned
  | some block =>
    rw [htask] at hi
    have howned := h.owned.release hi
    rw [← hhold] at howned
    have hsub : ∀ b ∈ s.allocated.filter (fun b => decide (b ≠ block)),
        b ∈ s.allocated ∧ b ≠ block := fun b hb => by
      rw [List.mem_filter, decide_eq_true_eq] at hb
      exact hb
    refine ⟨howned, fun b hb => h.fits b (hsub b hb).1, fun b hb c hc =>
      h.apart b (hsub b hb).1 c (hsub c hc).1, ?_, ?_, fun b hb => ?_, h.queued_nodup, fun d => ?_⟩
    · intro k u hk hnone
      rcases hfrom k u hk with ⟨-, hstatus⟩ | ⟨j, hj⟩
      · exact hstatus
      · exact h.moved j u hj hnone
    · intro k u b hk hb
      rcases hfrom k u hk with ⟨hnone, -⟩ | ⟨j, hj⟩
      · rw [hnone] at hb
        exact absurd hb (by simp)
      · exact h.carries j u b hj hb
    · exact (h.place b (hsub b hb).1).congr (h.fits b (hsub b hb).1) (fun _ _ => rfl)
        fun op _ c hc => Or.inl (hsub c hc).1
    · rw [h.queued]
      constructor
      · rintro ⟨b, hb, hd, op, hop⟩
        refine ⟨b, List.mem_filter.mpr ⟨hb, decide_eq_true ?_⟩, hd, op, hop⟩
        rintro rfl
        exact hsettled b op htask hop
      · rintro ⟨b, hb, hd, hop⟩
        exact ⟨b, (hsub b hb).1, hd, hop⟩

/-- **A device executes an operation.** -/
theorem HandlerInvariant.execute {block : BitVec 64} {op : SequenceOperation} {memory : Memory}
    (hblock : block ∈ s.allocated) (hpending : phase block = .pending op)
    (hnotes : DeltaWithin s.machine.memory (taskDescriptorAt block))
    (hexec : Executes s.machine.memory memory block op) :
    HandlerInvariant
      { s with machine := { s.machine with
          memory := memory
          pending := s.machine.pending.filter fun d => decide (d ≠ taskDescriptorAt block)
          ran := s.machine.ran ++ [taskDescriptorAt block] } }
      (Function.update phase block (.executed op s.machine.memory memory)) := by
  have hplace := h.place block hblock
  rw [hpending] at hplace
  obtain ⟨hready, hbuffers⟩ := hplace
  have hother : ∀ b ∈ s.allocated, b ≠ block →
      Set.EqOn memory s.machine.memory (blockRegion b).addrs := fun b hb hne =>
    hready.eqOn_block hnotes hexec (h.apart b hb block hblock hne) fun R hR => hbuffers R hR b hb
  refine ⟨h.owned, h.fits, h.apart, h.moved, fun i v b hi hb => ?_, fun b hb => ?_,
    h.queued_nodup.filter _, fun d => ?_⟩
  · have hcarries := h.carries i v b hi hb
    by_cases hbb : b = block
    · rw [hbb, hpending] at hcarries
      rw [hbb, Function.update_self]
      exact hcarries
    · rw [Function.update_of_ne hbb]
      exact hcarries
  · by_cases hbb : b = block
    · rw [hbb, Function.update_self]
      exact hready.inPlace hnotes hexec
    · rw [Function.update_of_ne hbb]
      exact (h.place b hb).congr (h.fits b hb) (hother b hb hbb) fun _ _ _ hc => Or.inl hc
  · rw [List.mem_filter, decide_eq_true_eq, h.queued]
    constructor
    · rintro ⟨⟨b, hb, hd, op', hop⟩, hne⟩
      have hbb : b ≠ block := fun heq => hne (heq ▸ hd).symm
      exact ⟨b, hb, hd, op', by rw [Function.update_of_ne hbb, hop]⟩
    · rintro ⟨b, hb, hd, op', hop⟩
      have hbb : b ≠ block := by
        rintro rfl
        rw [Function.update_self] at hop
        exact absurd hop (by simp)
      rw [Function.update_of_ne hbb] at hop
      refine ⟨⟨b, hb, hd, op', hop⟩, fun heq => hbb ?_⟩
      exact taskDescriptorAt_inj (h.fits b hb) (h.fits block hblock) (h.apart b hb block hblock)
        (hd.trans heq)

/-- The caller writes to memory of its own. -/
theorem HandlerInvariant.write {memory : Memory}
    (hkept : ∀ b ∈ s.allocated, Set.EqOn memory s.machine.memory (blockRegion b).addrs) :
    HandlerInvariant { s with machine := { s.machine with memory := memory } } phase :=
  ⟨h.owned, h.fits, h.apart, h.moved, h.carries, fun b hb =>
    (h.place b hb).congr (h.fits b hb) (hkept b hb) fun _ _ _ hc => Or.inl hc,
    h.queued_nodup, h.queued⟩

end Steps

/-- **The invariant holds in every state of a run.** -/
theorem HandlerState.Reaches.invariant {t : HwDispatcher} {m : Memory} {threads : ℕ → ThreadState}
    {s : HandlerState} {phase : BitVec 64 → Phase} (h : Reaches t m threads s phase) :
    HandlerInvariant s phase := by
  induction h with
  | start =>
    exact ⟨Owned.start fun _ => rfl, by simp, by simp, by simp, by simp, by simp, List.nodup_nil,
      by simp⟩
  | construct i type block _ hdead hfresh ih => exact ih.construct type hdead hfresh
  | submit i path op block q _ hdead hfresh hbuffers hnotes ih =>
    exact ih.submit hdead hfresh hbuffers hnotes
  | moveConstruct i j _ hdead hlive ih => exact ih.moveConstruct hdead hlive
  | moveAssign i j _ _ _ _ ih => exact ih.moveAssign i j
  | destroy i _ hlive hsettled hdestroy ih => exact ih.destroy hlive hsettled hdestroy
  | execute block memory _ hblock hpending hnotes hexec ih =>
    exact ih.execute hblock hpending hnotes hexec
  | write memory _ hkept ih => exact ih.write hkept

/-! ### What a program sees -/

/-- **Every block has one owner**: it is held by exactly one variable, so that no end of a variable
gives a block back twice, and nothing is left when all variables have ended.  What waits for a
device are the operations in the blocks that are pending. -/
theorem handlers_own_blocks {t : HwDispatcher} {m : Memory} {threads : ℕ → ThreadState}
    {s : HandlerState} {phase : BitVec 64 → Phase}
    (h : HandlerState.Reaches t m threads s phase) :
    Owned s.hold s.allocated
      ∧ (∀ b ∈ s.allocated, ∀ c ∈ s.allocated, b ≠ c → (blockRegion b).Apart (blockRegion c))
      ∧ (∀ i v, s.handlers i = some v → (s.destroy i).isSome = true)
      ∧ ((∀ i, s.handlers i = none) → s.allocated = [] ∧ s.machine.pending = [])
      ∧ ∀ d, d ∈ s.machine.pending
          ↔ ∃ b ∈ s.allocated, taskDescriptorAt b = d ∧ ∃ op, phase b = .pending op := by
  have hinv := h.invariant
  refine ⟨hinv.owned, hinv.apart, fun i v hlive => ?_, fun hended => ?_, hinv.queued⟩
  · rw [hinv.destroy_eq hlive]
    rfl
  · have hnone : s.allocated = [] :=
      hinv.owned.nil_of_none fun i => by rw [HandlerState.hold, hended i]; rfl
    refine ⟨hnone, List.eq_nil_iff_forall_not_mem.mpr fun d hd => ?_⟩
    obtain ⟨b, hb, -⟩ := (hinv.queued d).mp hd
    rw [hnone] at hb
    exact absurd hb List.not_mem_nil

/-- A fill, and a move of what is filled. -/
def sampleFill : SequenceOperation := .fill 0x0102030405060708#64 ⟨0x2000#64, 16#32⟩ 0#16

def sampleMove : SequenceOperation := .memMove ⟨0x2000#64, 16#32⟩ ⟨0x3000#64, 16#32⟩ 0#16

theorem buffers_samples : sampleFill.buffers = [⟨0x2000, 16⟩]
    ∧ sampleMove.buffers = [⟨0x2000, 16⟩, ⟨0x3000, 16⟩] := by decide

/-- The move is submitted to a device, and the fill is executed in software.  The two handlers are
swapped, and then the one of the move goes to a new variable. -/
theorem reaches_twoHandlers :
    ∃ s phase, HandlerState.Reaches twoNodes emptyDescriptor (fun _ => ⟨0, none⟩) s phase
      ∧ s.handlers 0 = some ⟨some 0x20000#64, .ok, .software, .status⟩
      ∧ s.handlers 1 = some ⟨none, .error, .hardware, .status⟩
      ∧ s.handlers 2 = some ⟨some 0x10000#64, .ok, .hardware, .status⟩
      ∧ phase 0x10000#64 = .pending sampleMove
      ∧ s.allocated = [0x20000#64, 0x10000#64] := by
  obtain ⟨hfill, hmove⟩ := buffers_samples
  have hfits : BlockFits 0x10000#64 ∧ BlockFits 0x20000#64 :=
    ⟨⟨by decide, by decide⟩, ⟨by decide, by decide⟩⟩
  have hapart : (blockRegion 0x10000#64).Apart (blockRegion 0x20000#64) := by decide
  have hbuffers : ∀ R ∈ [⟨0x2000, 16⟩, ⟨0x3000, 16⟩], Region.Apart R (blockRegion 0x10000#64)
      ∧ Region.Apart R (blockRegion 0x20000#64) := by decide
  have h₀ := @HandlerState.Reaches.start twoNodes emptyDescriptor fun _ => ⟨0, none⟩
  have h₁ := h₀.submit 0 .hardware sampleMove 0x10000#64 ⟨0, 0, 0#32, 0#32, fun _ _ => true⟩ rfl
    ⟨hfits.1, by simp, by simp⟩
    (fun R hR b hb => by
      rw [List.mem_singleton.mp hb]
      exact (hbuffers R (hmove ▸ hR)).1)
    (fun before after hphase =>
      (taskHeld_of_executed hfits.1 hphase).deltaWithin (by decide))
  have h₂ := h₁.submit 1 .software sampleFill 0x20000#64 ⟨0, 0, 0#32, 0#32, fun _ _ => true⟩ rfl
    ⟨hfits.2, fun b hb => by rw [List.mem_singleton.mp hb]; exact hapart, fun b hb op hop => by
      rw [List.mem_singleton.mp hb, Function.update_self] at hop
      have hphase : Phase.pending sampleMove = .pending op := hop
      rw [Phase.pending.injEq] at hphase
      rw [← hphase, hmove]
      exact fun R hR => (hbuffers R hR).2⟩
    (fun R hR b hb => by
      rw [hfill] at hR
      have hin := hbuffers R (List.mem_cons.mpr (Or.inl (List.mem_singleton.mp hR)))
      rcases List.mem_cons.mp hb with rfl | hb
      · exact hin.2
      · rw [List.mem_singleton.mp hb]
        exact hin.1)
    (fun before after hphase =>
      (taskHeld_of_executed hfits.2 hphase).deltaWithin (by decide))
  have h₃ := h₂.moveAssign 0 1 rfl rfl rfl
  have h₄ := h₃.moveConstruct 2 1 rfl rfl
  exact ⟨_, _, h₄, rfl, rfl, rfl, rfl, rfl⟩

/-- Both blocks are where the moves have brought them. -/
theorem handlers_own_blocks_twoHandlers :
    ∃ s phase, HandlerState.Reaches twoNodes emptyDescriptor (fun _ => ⟨0, none⟩) s phase
      ∧ s.allocated = [0x20000#64, 0x10000#64]
      ∧ Owned s.hold [0x20000#64, 0x10000#64]
      ∧ (s.destroy 0).isSome = true ∧ (s.destroy 1).isSome = true
      ∧ 0x10000 ∈ s.machine.pending := by
  obtain ⟨s, phase, hs, h0, h1, -, hphase, hallocated⟩ := reaches_twoHandlers
  obtain ⟨howned, -, hdestroy, -, hqueued⟩ := handlers_own_blocks hs
  rw [hallocated] at howned
  refine ⟨s, phase, hs, hallocated, howned, hdestroy 0 _ h0, hdestroy 1 _ h1, ?_⟩
  refine (hqueued 0x10000).mpr ⟨0x10000#64, ?_, by decide, sampleMove, hphase⟩
  rw [hallocated]
  exact List.mem_cons_of_mem _ (List.mem_cons_self ..)

/-- What a handler answers for the operation in its block.  The result of an operation that was
turned down or has been executed is the one `execute` returns, wherever its task is: in any memory,
or in the memory of the execution, of which it leaves the same. -/
def Handler.Answers (h : Handler) (m : Memory) (block : BitVec 64) : Phase → Prop
  | .empty => h.isFinished m = some (m, true)
      ∧ h.get m = some (m, h.resultType.ofStatus .error)
  | .rejected op => h.isFinished m = some (m, true) ∧ ∃ r, h.get m = some (m, r)
      ∧ ∀ dsc record before, TaskPlaced dsc record →
          ∃ left, op.execute dsc record before = some (left, r)
  | .refused op => h.isFinished m = some (m, true)
      ∧ (h.get m = some (m, op.resultType.ofStatus .queueBusy)
          ∨ h.get m = some (m, op.resultType.ofStatus .error))
  | .pending _ => h.isFinished m = some (m, false) ∧ h.get m = none
  | .executed op before after => h.isFinished m = some (m, true) ∧ ∃ r, h.get m = some (m, r)
      ∧ ∀ dsc record, TaskPlaced dsc record → (∀ R ∈ op.buffers, ApartFromTask dsc record R) →
          ∃ left, op.execute dsc record before = some (left, r)
            ∧ ∀ x, x ∉ (blockRegion block).addrs → x ∉ Region.addrs ⟨dsc, descriptorSize⟩ →
                x ∉ Region.addrs ⟨record, recordSize⟩ → left x = after x

/-- An operation that is turned down is turned down by `execute` as well. -/
theorem SequenceOperation.TurnedDown.execute {op : SequenceOperation} {status : StatusCode}
    (h : op.TurnedDown status) {dsc record : ℕ} (hp : TaskPlaced dsc record) (m : Memory) :
    ∃ left, op.execute dsc record m = some (left, op.resultType.ofStatus status) := by
  rcases h with ⟨hrange, rfl⟩ | ⟨hrange, hvalid, rfl⟩
  · exact ⟨m, if_pos hrange⟩
  · have hcopy : HoldsDescriptor (makeTaskDescriptor op.args 0) 0 (rebind op.args.make 0 0) :=
      fun j _ => by rw [Nat.zero_add]; rfl
    exact ⟨_, execute_rejected hp hcopy hrange hvalid⟩

theorem SequenceOperation.TurnedDown.ne_ok {op : SequenceOperation} {status : StatusCode}
    (h : op.TurnedDown status) : status ≠ .ok := by
  rcases h with ⟨hrange, rfl⟩ | ⟨-, hvalid, rfl⟩
  · exact hrange
  · exact fun hok => hvalid (ValidationStatus.toOwn_eq_ok.mp hok)

/-- An operation that has been executed leaves the result that `execute` returns. -/
theorem BlockReady.execute {before after : Memory} {block : BitVec 64} {op : SequenceOperation}
    (h : BlockReady before block op) (hnotes : DeltaWithin before (taskDescriptorAt block))
    (hexec : Executes before after block op) {dsc record : ℕ} (hp : TaskPlaced dsc record)
    (hbuffers : ∀ R ∈ op.buffers, ApartFromTask dsc record R) :
    ∃ left, op.execute dsc record before
        = some (left, op.resultType.makeResult after (taskRecordAt block))
      ∧ ∀ x, x ∉ (blockRegion block).addrs → x ∉ Region.addrs ⟨dsc, descriptorSize⟩ →
          x ∉ Region.addrs ⟨record, recordSize⟩ → left x = after x := by
  have hoperands := h.held.operands_eq
  obtain ⟨left, hcall, hleft⟩ := execute_result hp h.held h.fits.taskPlaced.fits h.accepted.1
    (h.held.validate_eq.trans h.accepted.2) hnotes
    (fun R hR => ⟨hbuffers R (hoperands ▸ hR), fun _ _ => rfl⟩)
    (fun R hR => (h.fits.apartFromTask (h.apart R (hoperands ▸ hR))).record) h.clear
  refine ⟨left, ?_, fun x hblock hdsc hrecord => ?_⟩
  · rw [hcall, ResultType.makeResult_congr hexec.fields]
    rfl
  · have hslot : x ∉ Region.addrs ⟨taskRecordAt block, recordSize⟩ := by
      intro hin
      have hinside := h.fits.record_inside
      rw [Region.mem_addrs] at hin
      exact hblock (Region.mem_addrs.mpr ⟨hinside.1.trans hin.1, hin.2.trans_le hinside.2⟩)
    rw [hleft x hslot hdsc hrecord rfl, hexec.agrees hslot, runJob]

/-- **Every handler answers for the operation in its block**, wherever it has been moved: nothing
before the operation has been executed, and from then on the result that `execute` would have
returned in its place.  A handler that has been moved from answers with an error. -/
theorem handlers_deliver {t : HwDispatcher} {m : Memory} {threads : ℕ → ThreadState}
    {s : HandlerState} {phase : BitVec 64 → Phase}
    (h : HandlerState.Reaches t m threads s phase) :
    (∀ i v, s.handlers i = some v → v.task = none →
        v.isFinished s.machine.memory = some (s.machine.memory, true)
          ∧ v.get s.machine.memory = some (s.machine.memory, v.resultType.ofStatus .error))
      ∧ ∀ i v block, s.handlers i = some v → v.task = some block →
          v.Answers s.machine.memory block (phase block) := by
  have hinv := h.invariant
  constructor
  · intro i v hi hnone
    have hstatus := hinv.moved i v hi hnone
    have hanswers := @Handler.get_of_status_ne_ok v s.machine.memory (by rw [hstatus]; simp)
    rwa [hstatus] at hanswers
  · intro i v block hi htask
    have hblock : block ∈ s.allocated :=
      hinv.owned.mem (i := i) (by rw [HandlerState.hold, hi]; exact htask)
    have hcarries := hinv.carries i v block hi htask
    have hplace := hinv.place block hblock
    cases hphase : phase block with
    | empty =>
      rw [hphase] at hcarries
      have hstatus : v.status = .error := hcarries
      have hanswers := @Handler.get_of_status_ne_ok v s.machine.memory (by rw [hstatus]; simp)
      rwa [hstatus] at hanswers
    | rejected op =>
      rw [hphase] at hcarries
      obtain ⟨hdown, htype⟩ := hcarries
      obtain ⟨hfinished, hget⟩ := @Handler.get_of_status_ne_ok v s.machine.memory hdown.ne_ok
      rw [htype] at hget
      exact ⟨hfinished, _, hget, fun dsc record before hp => hdown.execute hp before⟩
    | refused op =>
      rw [hphase] at hcarries
      obtain ⟨hstatus, htype⟩ := hcarries
      have hne : v.status ≠ .ok := by
        rcases hstatus with hstatus | hstatus <;> rw [hstatus] <;> simp
      obtain ⟨hfinished, hget⟩ := @Handler.get_of_status_ne_ok v s.machine.memory hne
      rw [htype] at hget
      refine ⟨hfinished, ?_⟩
      rcases hstatus with hstatus | hstatus
      · exact Or.inl (hstatus ▸ hget)
      · exact Or.inr (hstatus ▸ hget)
    | pending op =>
      rw [hphase] at hcarries hplace
      obtain ⟨hready, -⟩ := hplace
      refine Handler.get_of_waiting hcarries.1 htask ?_
      rw [hready.held.record hready.fits]
      exact hready.clear _ (Region.mem_addrs.mpr ⟨le_rfl, by simp [recordSize]⟩)
    | executed op before after =>
      rw [hphase] at hcarries hplace
      obtain ⟨hready, hnotes, hexec, hheld, hfields⟩ := hplace
      obtain ⟨hdone, hfault⟩ := hready.finished_after hexec hheld hfields
      obtain ⟨hfinished, hget⟩ := Handler.get_of_done hcarries.1 htask hdone hfault
      rw [hcarries.2, ResultType.makeResult_congr hfields] at hget
      exact ⟨hfinished, _, hget, fun dsc record hp hbuffers =>
        hready.execute hnotes hexec hp hbuffers⟩

/-- The move is pending when its handler has come to the third variable; there it has a result
when the device has executed it, the one of `execute`. -/
theorem handlers_deliver_twoHandlers :
    ∃ s phase, HandlerState.Reaches twoNodes emptyDescriptor (fun _ => ⟨0, none⟩) s phase
      ∧ (Handler.get ⟨some 0x10000#64, .ok, .hardware, .status⟩ s.machine.memory = none)
      ∧ ∃ s' phase' r, HandlerState.Reaches twoNodes emptyDescriptor (fun _ => ⟨0, none⟩) s' phase'
        ∧ s'.handlers 2 = some ⟨some 0x10000#64, .ok, .hardware, .status⟩
        ∧ Handler.get ⟨some 0x10000#64, .ok, .hardware, .status⟩ s'.machine.memory
          = some (s'.machine.memory, r)
        ∧ ∃ left, sampleMove.execute 0x80000 0x80040 s.machine.memory = some (left, r) := by
  obtain ⟨s, phase, hs, -, -, h2, hphase, hallocated⟩ := reaches_twoHandlers
  have hblock : 0x10000#64 ∈ s.allocated := by
    rw [hallocated]
    exact List.mem_cons_of_mem _ (List.mem_cons_self ..)
  have hwaiting := (handlers_deliver hs).2 2 _ _ h2 rfl
  have hplace := hs.invariant.place _ hblock
  rw [hphase] at hwaiting hplace
  have hs' := hs.execute _ _ hblock hphase (hplace.1.held.deltaWithin (by decide))
    (executes_runJob ..)
  have hdone := (handlers_deliver hs').2 2 _ _ h2 rfl
  rw [Function.update_self] at hdone
  obtain ⟨-, r, hget, hexecute⟩ := hdone
  have hbuffers : ∀ R ∈ [⟨0x2000, 16⟩, ⟨0x3000, 16⟩],
      Region.Apart R ⟨0x80000, descriptorSize⟩ ∧ Region.Apart R ⟨0x80040, recordSize⟩ := by decide
  obtain ⟨left, hleft, -⟩ := hexecute 0x80000 0x80040 ⟨by decide, by decide⟩ fun R hR =>
    ⟨(hbuffers R (buffers_samples.2 ▸ hR)).1, (hbuffers R (buffers_samples.2 ▸ hR)).2⟩
  exact ⟨s, phase, hs, hwaiting.2, _, _, r, hs', h2, hget, left, hleft⟩

end DataMover
