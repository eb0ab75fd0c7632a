import DataMover.AutomaticPath
import DataMover.BatchLayout
import DataMover.Lib.Ownership
import DataMover.OperationResult

/-!
# Handlers

`dml::submit` (`hl/submit.hpp`, `hl/detail/submit.hpp`) gives the caller a handler, through which
the result of the operation is asked for later (`hl/handler.hpp`).  A handler owns its task: a
block of memory that the allocator of the caller gave out (`ml/buffer.hpp`), in which the
descriptor and the record are aligned.  Handlers are moved, never copied; a move exchanges the
pointers and leaves the block where it is, since a device may be working on it.

The variables of a program are the natural numbers.  A variable that has not been constructed, or
has been destroyed, is `none`.

## Main definitions

* `Handler`, `Handler.get`, `Handler.isFinished` — a handler and what it answers.
* `HandlerState` — the machine, the variables and the blocks that are allocated.
* `HandlerState.submit`, …, `HandlerState.destroy` — what a program does with its variables.

## Main results

* `submitTask_cases` — what a submission to a path does with a fresh task.
* `Handler.get_of_waiting`, `Handler.get_of_done` — the answers before and after the execution.
-/

namespace DataMover

open ByteMemory

/-! ### Tasks in blocks -/

/-- `sizeof(element_type)`: a descriptor of 64 bytes and a record of 32, aligned to 64. -/
def taskMemorySize : ℕ := 128

/-- `alignof(element_type)`. -/
def taskMemoryAlignment : ℕ := 64

/-- `allocate_size`, a number of elements. -/
def taskAllocateSize : ℕ := taskMemorySize + taskMemoryAlignment

/-- The block at `allocated_memory_`. -/
def blockRegion (block : BitVec 64) : Region := ⟨block.toNat, taskAllocateSize * taskMemorySize⟩

/-- The descriptor, at `aligned_memory_`. -/
def taskDescriptorAt (block : BitVec 64) : ℕ := (align block).toNat

/-- The record, behind the descriptor. -/
def taskRecordAt (block : BitVec 64) : ℕ := taskDescriptorAt block + descriptorSize

/-- A block the allocator may give out: not null, and not beyond the end of the memory. -/
structure BlockFits (block : BitVec 64) : Prop where
  ne_null : block ≠ 0#64
  le : block.toNat + taskAllocateSize * taskMemorySize ≤ 2 ^ 64

section Block

variable {block : BitVec 64} (h : BlockFits block)
include h

theorem BlockFits.aligned :
    block.toNat ≤ taskDescriptorAt block ∧ taskDescriptorAt block < block.toNat + 64 := by
  have hle := h.le
  simp only [taskAllocateSize, taskMemorySize, taskMemoryAlignment] at hle
  rw [taskDescriptorAt, toNat_align (by omega)]
  omega

theorem BlockFits.descriptor_inside :
    Region.Inside ⟨taskDescriptorAt block, descriptorSize⟩ (blockRegion block) := by
  have haligned := h.aligned
  simp only [Region.Inside, blockRegion, taskAllocateSize, taskMemorySize, taskMemoryAlignment,
    descriptorSize]
  omega

theorem BlockFits.record_inside :
    Region.Inside ⟨taskRecordAt block, recordSize⟩ (blockRegion block) := by
  have haligned := h.aligned
  simp only [Region.Inside, blockRegion, taskAllocateSize, taskMemorySize, taskMemoryAlignment,
    taskRecordAt, descriptorSize, recordSize]
  omega

/-- The task of a block is well placed. -/
theorem BlockFits.taskPlaced : TaskPlaced (taskDescriptorAt block) (taskRecordAt block) where
  apart := Or.inr (Or.inr (Or.inl le_rfl))
  fits := by
    have haligned := h.aligned
    have hle := h.le
    simp only [taskAllocateSize, taskMemorySize, taskMemoryAlignment] at hle
    simp only [taskRecordAt, descriptorSize]
    omega

/-- What is apart from a block is apart from its task. -/
theorem BlockFits.apartFromTask {R : Region} (hR : R.Apart (blockRegion block)) :
    ApartFromTask (taskDescriptorAt block) (taskRecordAt block) R where
  descriptor := hR.mono (Region.Inside.refl R) h.descriptor_inside
  record := hR.mono (Region.Inside.refl R) h.record_inside

end Block

/-! ### Handlers -/

/-- `handler`: the block of its task, unless it has been moved away, the status and the path; the
type of the results belongs to the type of the variable. -/
structure Handler where
  task : Option (BitVec 64)
  status : StatusCode
  path : ExecutionPath
  resultType : ResultType
  deriving DecidableEq, Repr

/-- `to_own` of a submission status. -/
def SubmissionStatus.toOwn : SubmissionStatus → StatusCode
  | .success => .ok
  | .queueBusy => .queueBusy
  | .failure => .error

/-- `wait<execution_path>`. -/
def waitOn (path : ExecutionPath) (m : Memory) (dsc : ℕ) : Option Memory :=
  match path with
  | .automatic => Automatic.wait m dsc false
  | .software => Software.wait m dsc false
  | .hardware => Hardware.wait m dsc false

/-- `finished<execution_path>`. -/
def finishedOn (path : ExecutionPath) (m : Memory) (dsc : ℕ) : Option (Memory × Bool) :=
  match path with
  | .automatic => Automatic.finished m dsc
  | .software => some (m, Software.finished m dsc)
  | .hardware => some (m, Hardware.finished m dsc)

namespace Handler

/-- `handler::valid`. -/
def valid (h : Handler) : Bool := h.status == .ok

/-- `handler::get`; `none` when the wait does not return. -/
def get (h : Handler) (m : Memory) : Option (Memory × OperationResult) :=
  if h.status = .ok then do
    let block ← h.task
    let m ← waitOn h.path m (taskDescriptorAt block)
    return (m, h.resultType.makeResult m (taskRecordAt block))
  else some (m, h.resultType.ofStatus h.status)

/-- `handler::is_finished`. -/
def isFinished (h : Handler) (m : Memory) : Option (Memory × Bool) :=
  if h.status = .ok then do
    let block ← h.task
    finishedOn h.path m (taskDescriptorAt block)
  else some (m, true)

/-- What is left in a handler that has been moved from. -/
def movedFrom (h : Handler) : Handler := { h with task := none, status := .error }

end Handler

/-! ### What a program does with its variables -/

/-- The machine, the variables of the program, and the blocks that are allocated. -/
structure HandlerState where
  machine : AutomaticState
  handlers : ℕ → Option Handler
  allocated : List (BitVec 64)

/-- `execution_path_t::submit`. -/
def submitTask (t : HwDispatcher) (path : ExecutionPath) (s : AutomaticState) (q : Submission) :
    AutomaticState × SubmissionStatus :=
  match path with
  | .software =>
    let (m, status) := Software.submit s.memory q.dsc
    ({ s with memory := m, ran := s.ran ++ [q.dsc] }, status)
  | .hardware =>
    let r := Hardware.submit t q (s.threads q.thread) s.memory
    let threads := Function.update s.threads q.thread ⟨r.currentDeviceIdx, r.state.2⟩
    let pending := if r.status = .success then s.pending ++ [q.dsc] else s.pending
    (⟨r.state.1, threads, pending, s.ran⟩, r.status)
  | .automatic => Automatic.submit t s q

namespace HandlerState

/-- `handler()`: a task is allocated for it as well. -/
def construct (s : HandlerState) (i : ℕ) (type : ResultType) (block : BitVec 64) : HandlerState :=
  let dsc := taskDescriptorAt block
  let m := paste s.machine.memory dsc (descriptorSize + recordSize) fun _ => 0#8
  { machine := { s.machine with memory := m }
    handlers := Function.update s.handlers i (some ⟨some block, .error, .software, type⟩)
    allocated := block :: s.allocated }

/-- `handler i = submit<path>(op, ...)`: the task is made before anything is checked.  The path
of the handler is set when the submission has succeeded. -/
def submit (t : HwDispatcher) (s : HandlerState) (i : ℕ) (path : ExecutionPath)
    (op : SequenceOperation) (block : BitVec 64) (q : Submission) : HandlerState :=
  let q := { q with dsc := taskDescriptorAt block }
  let m := constructTask s.machine.memory q.dsc (taskRecordAt block) op.args
  let machine := { s.machine with memory := m }
  let (machine, status, path) :=
    if op.rangeCheck ≠ .ok then (machine, op.rangeCheck, .software)
    else
      let validationStatus := Software.validate m q.dsc
      if validationStatus ≠ .success then (machine, validationStatus.toOwn, .software)
      else
        let (machine, submissionStatus) := submitTask t path machine q
        if submissionStatus ≠ .success then (machine, submissionStatus.toOwn, .software)
        else (machine, .ok, path)
  { machine := machine
    handlers := Function.update s.handlers i (some ⟨some block, status, path, op.resultType⟩)
    allocated := block :: s.allocated }

/-- `handler i(std::move(j))`. -/
def moveConstruct (s : HandlerState) (i j : ℕ) : HandlerState :=
  let handlers := Function.update s.handlers i (s.handlers j)
  { s with handlers := Function.update handlers j ((s.handlers j).map Handler.movedFrom) }

/-- `i = std::move(j)`: the members are swapped. -/
def moveAssign (s : HandlerState) (i j : ℕ) : HandlerState :=
  if i ≠ j then { s with handlers := s.handlers ∘ Equiv.swap i j } else s

/-- The end of a variable; `none` when a block is given back that is not allocated. -/
def destroy (s : HandlerState) (i : ℕ) : Option HandlerState :=
  let handlers := Function.update s.handlers i none
  match (s.handlers i).bind Handler.task with
  | none => some { s with handlers := handlers }
  | some block =>
    if s.allocated.any fun b => decide (b = block) then
      let allocated := s.allocated.filter fun b => decide (b ≠ block)
      some { s with handlers := handlers, allocated := allocated }
    else none

end HandlerState

/-! ### A submission -/

section Submit

variable {t : HwDispatcher} {m : Memory} {q : Submission} {thread : ThreadState}

/-- Offers clear the record, which makes no difference to a record of zeros. -/
theorem hardwareSubmit_of_cleared
    (hzero : ∀ x ∈ Region.addrs ⟨getCompletionRecord m q.dsc, recordSize⟩, m x = 0#8) :
    (Hardware.submit t q thread m).state.1 = m := by
  rw [Hardware.submit, HwDispatcher.submit]
  split
  · refine HwDispatcher.submitLoop_invariant (fun s : Memory × Option ℕ => s.1 = m)
      (fun d s hs => ?_) _ _ rfl
    simp only [enqueue, hs]
    funext x
    rw [paste]
    split
    · next hx => exact (hzero x (Region.mem_addrs.mpr hx)).symm
    · rfl
  · rfl

/-- **A task with a cleared record, submitted to a path**: it is refused and the memory is as
before, or it waits for a device and the memory is as before, or it has been executed. -/
theorem submitTask_cases (path : ExecutionPath) {s : AutomaticState}
    (hop : operationOf s.memory q.dsc ≠ none)
    (hzero : ∀ x ∈ Region.addrs ⟨getCompletionRecord s.memory q.dsc, recordSize⟩,
      s.memory x = 0#8) :
    ((submitTask t path s q).2 ≠ .success ∧ (submitTask t path s q).1.memory = s.memory
        ∧ (submitTask t path s q).1.pending = s.pending) ∨
      ((submitTask t path s q).2 = .success ∧ (submitTask t path s q).1.memory = s.memory
        ∧ (submitTask t path s q).1.pending = s.pending ++ [q.dsc]) ∨
      ((submitTask t path s q).2 = .success
        ∧ (submitTask t path s q).1.memory = runJob s.memory q.dsc
        ∧ (submitTask t path s q).1.pending = s.pending) := by
  have hmemory := @hardwareSubmit_of_cleared t s.memory q (s.threads q.thread) hzero
  have hdone := (@submit_of_ne_none s.memory q.dsc hop)
  cases path with
  | software => exact Or.inr (Or.inr ⟨hdone, rfl, rfl⟩)
  | hardware =>
    by_cases hsuccess : (Hardware.submit t q (s.threads q.thread) s.memory).status = .success
    · refine Or.inr (Or.inl ⟨hsuccess, hmemory, ?_⟩)
      simp only [submitTask, if_pos hsuccess]
    · refine Or.inl ⟨hsuccess, hmemory, ?_⟩
      simp only [submitTask, if_neg hsuccess]
  | automatic =>
    by_cases hsuccess : (Hardware.submit t q (s.threads q.thread) s.memory).status = .success
    · refine Or.inr (Or.inl ?_)
      simp only [submitTask, Automatic.submit, hsuccess, ne_eq, not_true_eq_false, if_false]
      exact ⟨trivial, hmemory, trivial⟩
    · refine Or.inr (Or.inr ?_)
      simp only [submitTask, Automatic.submit, ne_eq, hsuccess, not_false_eq_true, if_true,
        hmemory, Software.submit]
      exact ⟨hdone, rfl, trivial⟩

end Submit

/-! ### The answers of a handler -/

namespace Handler

variable {h : Handler} {m : Memory} {block : BitVec 64}

theorem get_of_status_ne_ok (hstatus : h.status ≠ .ok) :
    h.isFinished m = some (m, true) ∧ h.get m = some (m, h.resultType.ofStatus h.status) :=
  ⟨if_neg hstatus, if_neg hstatus⟩

/-- **Before the execution** the operation is not finished, and `get` does not return. -/
theorem get_of_waiting (hstatus : h.status = .ok) (htask : h.task = some block)
    (hzero : m (getCompletionRecord m (taskDescriptorAt block)) = 0#8) :
    h.isFinished m = some (m, false) ∧ h.get m = none := by
  have hfinished : Software.finished m (taskDescriptorAt block) = false := by
    rw [Software.finished, hzero]
    decide
  have hwait : Software.wait m (taskDescriptorAt block) false = none := by
    simp [Software.wait, hfinished, waitPoll, hzero]
  rw [isFinished, get, if_pos hstatus, if_pos hstatus, htask]
  cases h.path with
  | software | hardware =>
    simp only [Option.bind_eq_bind, Option.bind_some, finishedOn, waitOn, Hardware.finished,
      Hardware.wait, hfinished, hwait, Option.bind_none, and_self]
  | automatic =>
    simp only [Option.bind_eq_bind, Option.bind_some, finishedOn, waitOn, Automatic.finished,
      Automatic.wait, Hardware.finished, Hardware.wait, hfinished, hwait, Option.bind_none,
      Bool.false_and]
    exact ⟨rfl, trivial⟩

/-- **After the execution** the operation is finished, and `get` reads the record; when no page
fault is reported the memory stays as it is. -/
theorem get_of_done (hstatus : h.status = .ok) (htask : h.task = some block)
    (hdone : Software.finished m (taskDescriptorAt block) = true)
    (hfault : isPageFault (AnyCompletionRecord.status.get m
      (getCompletionRecord m (taskDescriptorAt block))) = false) :
    h.isFinished m = some (m, true)
      ∧ h.get m = some (m, h.resultType.makeResult m (taskRecordAt block)) := by
  have hwait := Software.wait_of_finished hdone false
  rw [isFinished, get, if_pos hstatus, if_pos hstatus, htask]
  cases h.path with
  | software | hardware =>
    simp only [Option.bind_eq_bind, Option.bind_some, finishedOn, waitOn, Hardware.finished,
      Hardware.wait, hdone, hwait]
    exact ⟨trivial, rfl⟩
  | automatic =>
    simp only [Option.bind_eq_bind, Option.bind_some, finishedOn, waitOn,
      Automatic.wait_of_no_pageFault hfault hdone, Automatic.finished, Hardware.finished, hdone,
      hfault, Bool.true_and]
    exact ⟨rfl, rfl⟩

end Handler

end DataMover
