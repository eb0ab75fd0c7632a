import DataMover.Kernels

/-!
# Preparing a descriptor for its continuation

`partial_completion.hpp`: after a page fault the descriptor is rewritten so that
it asks for the rest of the work.  Addresses move forward by the bytes the record
says were completed, sizes shrink by as much, and seeds and tags are taken over
from the record.

`update_for_continuation` starts by zeroing `auto record = get_completion_record(dsc)`.
That `record` is a copy, so the completion record in memory keeps what the
hardware wrote and the zeroing leaves no trace here.

## Main results

* `updateForContinuation_apply` — only the last 48 bytes of the descriptor change.
* `get_advance_self`, `get_shrink_self`, `get_takeOver_self` — the updated fields.
-/

namespace DataMover

open ByteMemory

/-! ### The updates -/

/-- `field += record.bytes_completed()` on the descriptor. -/
def advance (f : Field) (m : Memory) (dsc record : ℕ) : Memory :=
  f.addAssign m dsc (AnyCompletionRecord.bytesCompleted.get m record)

/-- `field -= record.bytes_completed()` on the descriptor. -/
def shrink (f : Field) (m : Memory) (dsc record : ℕ) : Memory :=
  f.subAssign m dsc (AnyCompletionRecord.bytesCompleted.get m record)

/-- `field = record.other()`: a field of the descriptor takes over a field of the
record. -/
def takeOver (f g : Field) (m : Memory) (dsc record : ℕ) : Memory :=
  f.set m dsc (g.get m record)

/-- The addresses move only when the hardware worked forward; it left the *last*
bytes done when it worked backward. -/
def updateMemMoveForContinuation (m : Memory) (dsc : ℕ) : Memory :=
  let record := getCompletionRecord m dsc
  let m := if AnyCompletionRecord.result.get m record = 0 then
      let m := advance AnyDescriptor.sourceAddress m dsc record
      advance AnyDescriptor.destinationAddress m dsc record
    else m
  shrink AnyDescriptor.transferSize m dsc record

def updateFillForContinuation (m : Memory) (dsc : ℕ) : Memory :=
  let record := getCompletionRecord m dsc
  let m := shrink AnyDescriptor.transferSize m dsc record
  advance AnyDescriptor.destinationAddress m dsc record

def updateCompareForContinuation (m : Memory) (dsc : ℕ) : Memory :=
  let record := getCompletionRecord m dsc
  let m := shrink AnyDescriptor.transferSize m dsc record
  let m := advance CompareDescriptor.source1Address m dsc record
  advance CompareDescriptor.source2Address m dsc record

def updateComparePatternForContinuation (m : Memory) (dsc : ℕ) : Memory :=
  let record := getCompletionRecord m dsc
  let m := shrink AnyDescriptor.transferSize m dsc record
  advance AnyDescriptor.sourceAddress m dsc record

def updateCreateDeltaForContinuation (m : Memory) (dsc : ℕ) : Memory :=
  let record := getCompletionRecord m dsc
  let m := shrink AnyDescriptor.transferSize m dsc record
  let m := advance CreateDeltaDescriptor.source1Address m dsc record
  let m := advance CreateDeltaDescriptor.source2Address m dsc record
  let m := CreateDeltaDescriptor.maximumDeltaRecordSize.subAssign m dsc
    (CreateDeltaCompletionRecord.deltaRecordSize.get m record)
  CreateDeltaDescriptor.deltaRecordAddress.addAssign m dsc
    (CreateDeltaCompletionRecord.deltaRecordSize.get m record)

def updateApplyDeltaForContinuation (m : Memory) (dsc : ℕ) : Memory :=
  let record := getCompletionRecord m dsc
  let m := shrink ApplyDeltaDescriptor.deltaRecordSize m dsc record
  advance ApplyDeltaDescriptor.deltaRecordAddress m dsc record

def updateDualcastForContinuation (m : Memory) (dsc : ℕ) : Memory :=
  let record := getCompletionRecord m dsc
  let m := advance DualcastDescriptor.destination1Address m dsc record
  let m := advance DualcastDescriptor.destination2Address m dsc record
  let m := advance AnyDescriptor.sourceAddress m dsc record
  shrink AnyDescriptor.transferSize m dsc record

def updateCrcForContinuation (m : Memory) (dsc : ℕ) : Memory :=
  let record := getCompletionRecord m dsc
  let m := takeOver CrcDescriptor.crcSeed CrcCompletionRecord.crcValue m dsc record
  let m := advance AnyDescriptor.sourceAddress m dsc record
  shrink AnyDescriptor.transferSize m dsc record

def updateCopyCrcForContinuation (m : Memory) (dsc : ℕ) : Memory :=
  let record := getCompletionRecord m dsc
  let m := takeOver CrcDescriptor.crcSeed CrcCompletionRecord.crcValue m dsc record
  let m := advance AnyDescriptor.sourceAddress m dsc record
  let m := advance AnyDescriptor.destinationAddress m dsc record
  shrink AnyDescriptor.transferSize m dsc record

def updateDifCheckForContinuation (m : Memory) (dsc : ℕ) : Memory :=
  let record := getCompletionRecord m dsc
  let m := takeOver DifDescriptor.sourceAppTag DifCompletionRecord.sourceAppTag m dsc record
  let m := takeOver DifDescriptor.sourceRefTag DifCompletionRecord.sourceRefTag m dsc record
  let m := advance AnyDescriptor.sourceAddress m dsc record
  shrink AnyDescriptor.transferSize m dsc record

/-- Source and destination advance by the same number of bytes. -/
def updateDifInsertForContinuation (m : Memory) (dsc : ℕ) : Memory :=
  let record := getCompletionRecord m dsc
  let m := takeOver DifDescriptor.destinationAppTag DifCompletionRecord.destinationAppTag m dsc
    record
  let m := takeOver DifDescriptor.destinationRefTag DifCompletionRecord.destinationRefTag m dsc
    record
  let m := advance AnyDescriptor.sourceAddress m dsc record
  let m := advance AnyDescriptor.destinationAddress m dsc record
  shrink AnyDescriptor.transferSize m dsc record

/-- Source and destination advance by the same number of bytes. -/
def updateDifStripForContinuation (m : Memory) (dsc : ℕ) : Memory :=
  let record := getCompletionRecord m dsc
  let m := takeOver DifDescriptor.sourceAppTag DifCompletionRecord.sourceAppTag m dsc record
  let m := takeOver DifDescriptor.sourceRefTag DifCompletionRecord.sourceRefTag m dsc record
  let m := advance AnyDescriptor.sourceAddress m dsc record
  let m := advance AnyDescriptor.destinationAddress m dsc record
  shrink AnyDescriptor.transferSize m dsc record

/-- The source application tag is assigned twice. -/
def updateDifUpdateForContinuation (m : Memory) (dsc : ℕ) : Memory :=
  let record := getCompletionRecord m dsc
  let m := takeOver DifDescriptor.sourceAppTag DifCompletionRecord.sourceAppTag m dsc record
  let m := takeOver DifDescriptor.sourceAppTag DifCompletionRecord.sourceAppTag m dsc record
  let m := takeOver DifDescriptor.destinationAppTag DifCompletionRecord.destinationAppTag m dsc
    record
  let m := takeOver DifDescriptor.destinationRefTag DifCompletionRecord.destinationRefTag m dsc
    record
  let m := takeOver DifDescriptor.sourceRefTag DifCompletionRecord.sourceRefTag m dsc record
  let m := advance AnyDescriptor.sourceAddress m dsc record
  let m := advance AnyDescriptor.destinationAddress m dsc record
  shrink AnyDescriptor.transferSize m dsc record

def updateCacheFlushForContinuation (m : Memory) (dsc : ℕ) : Memory :=
  let record := getCompletionRecord m dsc
  let m := advance AnyDescriptor.destinationAddress m dsc record
  shrink AnyDescriptor.transferSize m dsc record

/-- `update_for_continuation`. -/
def updateForContinuation (m : Memory) (dsc : ℕ) : Memory :=
  match operationOf m dsc with
  | some .nop | some .drain | some .batch => m
  | some .memMove => updateMemMoveForContinuation m dsc
  | some .fill => updateFillForContinuation m dsc
  | some .compare => updateCompareForContinuation m dsc
  | some .comparePattern => updateComparePatternForContinuation m dsc
  | some .createDelta => updateCreateDeltaForContinuation m dsc
  | some .applyDelta => updateApplyDeltaForContinuation m dsc
  | some .dualcast => updateDualcastForContinuation m dsc
  | some .crc => updateCrcForContinuation m dsc
  | some .copyCrc => updateCopyCrcForContinuation m dsc
  | some .difCheck => updateDifCheckForContinuation m dsc
  | some .difInsert => updateDifInsertForContinuation m dsc
  | some .difStrip => updateDifStripForContinuation m dsc
  | some .difUpdate => updateDifUpdateForContinuation m dsc
  | some .cacheFlush => updateCacheFlushForContinuation m dsc
  | none => m

/-! ### What an update leaves alone -/

section Frame

variable {m : Memory} {dsc x : ℕ}

theorem set_apply_of_tail {f : Field} (hx : x < dsc + 16 ∨ dsc + descriptorSize ≤ x)
    (h16 : 16 ≤ f.offset) (hf : f.Within descriptorSize) (m : Memory) (v : ℕ) :
    f.set m dsc v x = m x := by
  unfold Field.Within at hf
  refine store_apply_of_notMem ?_
  rcases hx with hx | hx
  · left; omega
  · right; exact le_trans (by rw [Nat.add_assoc]; exact Nat.add_le_add_left hf dsc) hx

/-- **An update writes the last 48 bytes of the descriptor only**, whatever the
operation: flags, operation and record address stay. -/
theorem updateForContinuation_apply (hx : x < dsc + 16 ∨ dsc + descriptorSize ≤ x) :
    updateForContinuation m dsc x = m x := by
  unfold updateForContinuation
  cases operationOf m dsc with
  | none => rfl
  | some op =>
    cases op with
    | nop | drain | batch => rfl
    | memMove =>
      -- a memory move advances its addresses or leaves them
      simp only [updateMemMoveForContinuation, shrink, Field.subAssign]
      rw [set_apply_of_tail hx (by decide) (by decide)]
      split
      · simp (disch := decide) only [advance, Field.addAssign, set_apply_of_tail hx]
      · rfl
    | _ =>
      simp (disch := decide) only [updateFillForContinuation, updateCompareForContinuation,
        updateComparePatternForContinuation, updateCreateDeltaForContinuation,
        updateApplyDeltaForContinuation, updateDualcastForContinuation, updateCrcForContinuation,
        updateCopyCrcForContinuation, updateDifCheckForContinuation,
        updateDifInsertForContinuation, updateDifStripForContinuation,
        updateDifUpdateForContinuation, updateCacheFlushForContinuation, advance, shrink, takeOver,
        Field.addAssign, Field.subAssign, set_apply_of_tail hx]

end Frame

/-! ### Reading through an update

Each update of a field is seen by that field alone, and the record is seen by
none.  With the layout of the views decided, `simp` reads any field of the
updated descriptor off the original one. -/

section Reading

variable {f g h : Field} {m : Memory} {dsc record : ℕ}

theorem get_advance_of_apart (hfg : f.Apart g) :
    f.get (advance g m dsc record) dsc = f.get m dsc := Field.get_set_of_apart hfg m dsc _

theorem get_shrink_of_apart (hfg : f.Apart g) :
    f.get (shrink g m dsc record) dsc = f.get m dsc := Field.get_set_of_apart hfg m dsc _

theorem get_takeOver_of_apart (hfg : f.Apart g) :
    f.get (takeOver g h m dsc record) dsc = f.get m dsc := Field.get_set_of_apart hfg m dsc _

theorem get_advance_self :
    f.get (advance f m dsc record) dsc
      = (f.get m dsc + AnyCompletionRecord.bytesCompleted.get m record) % 2 ^ (8 * f.width) :=
  Field.get_set_self f m dsc _

theorem get_shrink_self :
    f.get (shrink f m dsc record) dsc
      = (f.get m dsc + (2 ^ (8 * f.width)
          - AnyCompletionRecord.bytesCompleted.get m record % 2 ^ (8 * f.width)))
        % 2 ^ (8 * f.width) :=
  Field.get_set_self f m dsc _

theorem get_takeOver_self (hw : f.width = g.width) :
    f.get (takeOver f g m dsc record) dsc = g.get m record := by
  refine Field.get_set_self_of_lt m dsc ?_
  rw [hw]
  exact g.get_lt m record

variable (hap : Region.Apart ⟨record, recordSize⟩ ⟨dsc, descriptorSize⟩)
include hap

theorem get_record_advance (hf : f.Within recordSize) (hg : g.Within descriptorSize) :
    f.get (advance g m dsc record) record = f.get m record :=
  Field.get_set_elsewhere hap.symm hf hg m _

theorem get_record_shrink (hf : f.Within recordSize) (hg : g.Within descriptorSize) :
    f.get (shrink g m dsc record) record = f.get m record :=
  Field.get_set_elsewhere hap.symm hf hg m _

theorem get_record_takeOver (hf : f.Within recordSize) (hg : g.Within descriptorSize) :
    f.get (takeOver g h m dsc record) record = f.get m record :=
  Field.get_set_elsewhere hap.symm hf hg m _

end Reading

/-- A subtraction modulo `M` that does not go below zero. -/
theorem wrapSub {n k M : ℕ} (h : k ≤ n) (hn : n < M) : (n + (M - k % M)) % M = n - k := by
  rw [Nat.mod_eq_of_lt (by omega : k < M), show n + (M - k) = n - k + M by omega,
    Nat.add_mod_right, Nat.mod_eq_of_lt (by omega)]

end DataMover
