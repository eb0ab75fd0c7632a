import DataMover.AccumulateRecords
import DataMover.PartialCompletion
import DataMover.Validation

/-!
# The execution paths

`core_interconnect.cpp`: validating, submitting and waiting on the software path,
and the automatic path, whose `wait` continues a descriptor in software when the
hardware stopped it on a page fault.

A wait polls the status byte.  Nothing else runs in this model, so a wait on a
record whose status byte is zero never returns: it is `none`.

## Main definitions

* `Software.wait`, `Software.finished`, `Automatic.wait`, `Automatic.finished`.

## Main results

* `Automatic.wait_of_pageFault` — the three steps of a continuation.
* `Automatic.wait_of_no_pageFault` — without a page fault nothing happens.
-/

namespace DataMover

open ByteMemory

/-- `dml_wait_busy_poll` and `dml_wait_umwait`: poll until the byte is not zero. -/
def waitPoll (m : Memory) (pointer : ℕ) : Option Memory :=
  if m pointer ≠ 0 then some m else none

namespace Software

def validate (m : Memory) (dsc : ℕ) : ValidationStatus := DataMover.validate m dsc

def submit (m : Memory) (dsc : ℕ) : Memory × SubmissionStatus := SoftwareDevice.submit m dsc

def finished (m : Memory) (dsc : ℕ) : Bool := m (getCompletionRecord m dsc) != 0

/-- `umwait` selects how to poll, which makes no difference to the outcome. -/
def wait (m : Memory) (dsc : ℕ) (umwait : Bool) : Option Memory :=
  if finished m dsc then some m
  else
    let record := getCompletionRecord m dsc
    if umwait then waitPoll m record else waitPoll m record

end Software

namespace Hardware

def validate (m : Memory) (dsc : ℕ) : ValidationStatus := Software.validate m dsc

def wait (m : Memory) (dsc : ℕ) (umwait : Bool) : Option Memory := Software.wait m dsc umwait

def finished (m : Memory) (dsc : ℕ) : Bool := Software.finished m dsc

end Hardware

/-- The status byte without the bit that tells a read fault from a write fault. -/
def removeRwBitMask : ℕ := 0x7f

/-- `(status & remove_rw_bit_mask) == page_fault_status`. -/
def isPageFault (status : ℕ) : Bool :=
  status &&& removeRwBitMask == ExecutionStatus.pageFaultDuringProcessing.toUnderlying

namespace Automatic

def validate (m : Memory) (dsc : ℕ) : ValidationStatus := Hardware.validate m dsc

/-- `automatic::wait`. -/
def wait (m : Memory) (dsc : ℕ) (umwait : Bool) : Option Memory := do
  let m ← Hardware.wait m dsc umwait
  let record := getCompletionRecord m dsc
  if isPageFault (AnyCompletionRecord.status.get m record) then
    let prevRecord := clone m record recordSize
    let m := updateForContinuation m dsc
    let m := (Software.submit m dsc).1
    let m ← Software.wait m dsc umwait
    return accumulateRecords m dsc prevRecord
  else
    return m

/-- `automatic::finished`, which does the work of `wait` when there is a fault. -/
def finished (m : Memory) (dsc : ℕ) : Option (Memory × Bool) := do
  let isFinished := Hardware.finished m dsc
  let record := getCompletionRecord m dsc
  if isFinished && isPageFault (AnyCompletionRecord.status.get m record) then
    let prevRecord := clone m record recordSize
    let m := updateForContinuation m dsc
    let m := (Software.submit m dsc).1
    let m ← Software.wait m dsc true
    let m := accumulateRecords m dsc prevRecord
    return (m, Software.finished m dsc)
  else
    return (m, isFinished)

end Automatic

/-! ### Waiting -/

theorem Software.wait_of_finished {m : Memory} {dsc : ℕ} (h : Software.finished m dsc = true)
    (umwait : Bool) : Software.wait m dsc umwait = some m := by
  rw [Software.wait, if_pos h]

/-- The status byte is the first byte of the record. -/
theorem Software.finished_iff {m : Memory} {dsc : ℕ} :
    Software.finished m dsc = true
      ↔ AnyCompletionRecord.status.get m (getCompletionRecord m dsc) ≠ 0 := by
  have hstatus : AnyCompletionRecord.status.get m (getCompletionRecord m dsc)
      = (m (getCompletionRecord m dsc)).toNat := by
    simp [Field.get, AnyCompletionRecord.status, load]
  rw [hstatus, Software.finished, bne_iff_ne, ne_eq, ne_eq, BitVec.toNat_eq]
  rfl

section Wait

variable {m : Memory} {dsc : ℕ}

theorem Software.finished_of_isPageFault
    (h : isPageFault (AnyCompletionRecord.status.get m (getCompletionRecord m dsc)) = true) :
    Software.finished m dsc = true := by
  rw [Software.finished_iff]
  intro h0
  rw [h0] at h
  exact absurd h (by decide)

/-- **A continuation in three steps**: the descriptor is rewritten, the software
runs it, and the records are merged. -/
theorem Automatic.wait_of_pageFault
    (hfault : isPageFault (AnyCompletionRecord.status.get m (getCompletionRecord m dsc)) = true)
    (hdone : Software.finished (SoftwareDevice.submit (updateForContinuation m dsc) dsc).1 dsc
      = true) (umwait : Bool) :
    Automatic.wait m dsc umwait
      = some (accumulateRecords (SoftwareDevice.submit (updateForContinuation m dsc) dsc).1 dsc
          (clone m (getCompletionRecord m dsc) recordSize)) := by
  have hwait := Software.wait_of_finished (Software.finished_of_isPageFault hfault) umwait
  have hrest := Software.wait_of_finished hdone umwait
  simp only [Automatic.wait, Hardware.wait, hwait, Option.bind_eq_bind, Option.bind_some, hfault,
    if_true, Software.submit, hrest]
  rfl

/-- Without a page fault the record is returned as it is. -/
theorem Automatic.wait_of_no_pageFault
    (hfault : isPageFault (AnyCompletionRecord.status.get m (getCompletionRecord m dsc)) = false)
    (hdone : Software.finished m dsc = true) (umwait : Bool) :
    Automatic.wait m dsc umwait = some m := by
  simp [Automatic.wait, Hardware.wait, Software.wait_of_finished hdone umwait, hfault]

end Wait

end DataMover
