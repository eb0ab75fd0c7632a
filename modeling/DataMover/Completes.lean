import DataMover.CoreInterconnect
import DataMover.Placement

/-!
# Every accepted descriptor completes

Validation, the switch of the software device and the kernels agree on the operations
there are: what validation accepts, the device runs to the end, and the last thing a kernel
writes is a status that is not *processing*.

A kernel looks its record up when it starts, and a caller that waits looks it up again
afterwards.  The two agree unless the operation, or one of those of a batch, writes over
the record address of the descriptor itself.

## Main results

* `validate_none`, `submit_of_ne_none` — the two switches cover the same operations.
* `status_submit_ne_zero` — the status byte after a submission.
* `software_completes` — an accepted descriptor completes.
-/

namespace DataMover

open ByteMemory

variable {m : Memory} {dsc : ℕ}

/-- An unknown operation does not pass validation. -/
theorem validate_none (h : validate m dsc = .success) : operationOf m dsc ≠ none := by
  intro hop
  rw [validate, hop] at h
  exact absurd h (by simp)

/-- The device runs every known operation. -/
theorem submit_of_ne_none (h : operationOf m dsc ≠ none) :
    (SoftwareDevice.submit m dsc).2 = .success := by
  unfold SoftwareDevice.submit
  cases hop : operationOf m dsc with
  | none => exact absurd hop h
  | some op => cases op <;> rfl

theorem toUnderlying_ne_zero {s : ExecutionStatus} (h : FinalStatus s) : s.toUnderlying ≠ 0 := by
  obtain ⟨hprocessing, -⟩ := h
  cases s with
  | processing => exact absurd rfl hprocessing
  | _ => simp [ExecutionStatus.toUnderlying]

/-- **The status byte after a submission**, in the record the descriptor pointed to. -/
theorem status_submit_ne_zero (h : operationOf m dsc ≠ none) :
    AnyCompletionRecord.status.get (SoftwareDevice.submit m dsc).1 (getCompletionRecord m dsc)
      ≠ 0 := by
  obtain ⟨t, s, hs, hrun⟩ := exists_submit_eq_setStatus h
  rw [hrun, status_setStatus]
  exact toUnderlying_ne_zero hs

/-- A descriptor that still points to its record is done after the submission, and a wait returns
at once. -/
theorem wait_submit (h : operationOf m dsc ≠ none)
    (hrec : getCompletionRecord (SoftwareDevice.submit m dsc).1 dsc = getCompletionRecord m dsc)
    (umwait : Bool) :
    Software.wait (SoftwareDevice.submit m dsc).1 dsc umwait
      = some (SoftwareDevice.submit m dsc).1 := by
  refine Software.wait_of_finished ?_ umwait
  rw [Software.finished_iff, hrec]
  exact status_submit_ne_zero h

/-- **An accepted descriptor completes on the software path**: the submission succeeds and
leaves a status in the record, and while the descriptor still points to that record it is
finished and a wait returns at once. -/
theorem software_completes (m : Memory) (dsc : ℕ) (h : validate m dsc = .success) :
    (SoftwareDevice.submit m dsc).2 = .success
      ∧ AnyCompletionRecord.status.get (SoftwareDevice.submit m dsc).1 (getCompletionRecord m dsc)
        ≠ 0
      ∧ (getCompletionRecord (SoftwareDevice.submit m dsc).1 dsc = getCompletionRecord m dsc →
          Software.finished (SoftwareDevice.submit m dsc).1 dsc = true
            ∧ ∀ umwait, Software.wait (SoftwareDevice.submit m dsc).1 dsc umwait
              = some (SoftwareDevice.submit m dsc).1) := by
  have hop := validate_none h
  have hstatus := status_submit_ne_zero hop
  refine ⟨submit_of_ne_none hop, hstatus, fun hrec => ?_⟩
  have hfinished : Software.finished (SoftwareDevice.submit m dsc).1 dsc = true := by
    rw [Software.finished_iff, hrec]
    exact hstatus
  exact ⟨hfinished, Software.wait_of_finished hfinished⟩

/-- A fill of eight bytes at `dst`, with the descriptor at 64 and the record at 256; the
pattern is the number 512. -/
def fillEight (dst : ℕ) : Memory := rawDescriptor .fill 64 256 512 dst 8

/-- A fill somewhere else completes. -/
theorem software_completes_fill :
    Software.finished (SoftwareDevice.submit (fillEight 1024) 64).1 64 = true := by
  obtain ⟨-, -, hwait⟩ := software_completes (fillEight 1024) 64 (by decide)
  exact (hwait (by decide)).1

/-- **A fill over its own record address**: the descriptor is accepted and the status is
written to the old record, but the descriptor points to another one, whose status byte is
zero, and a wait would never return. -/
theorem software_fill_over_record_address :
    validate (fillEight 72) 64 = .success
      ∧ Software.finished (SoftwareDevice.submit (fillEight 72) 64).1 64 = false
      ∧ Software.wait (SoftwareDevice.submit (fillEight 72) 64).1 64 false = none := by
  have hfinished : Software.finished (SoftwareDevice.submit (fillEight 72) 64).1 64 = false := by
    decide
  refine ⟨by decide, hfinished, ?_⟩
  have hbyte : (SoftwareDevice.submit (fillEight 72) 64).1
      (getCompletionRecord (SoftwareDevice.submit (fillEight 72) 64).1 64) = 0 := by
    rw [Software.finished, bne_eq_false_iff_eq] at hfinished
    exact hfinished
  rw [Software.wait, hfinished]
  simp [waitPoll, hbyte]

end DataMover
