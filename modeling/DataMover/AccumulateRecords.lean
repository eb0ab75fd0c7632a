import DataMover.Kernels

/-!
# Merging two completion records

`accumulate_records.hpp`: after the software has done the rest of the work, the
record it wrote is merged with the clone of the record the hardware had left.
The clone is an object of its own, read at address 0.

Most operations add the bytes completed.  Two do something else: `compare`
overwrites them, and `create_delta` also rebases the notes of the second part and
adds the record sizes.

The leading zeroing of `auto record = get_completion_record(dsc)` acts on a copy,
as in `update_for_continuation`.

## Main results

* `rebaseNotes_of_notMem`, `rebaseNotes_apply` — the rebasing loop byte by byte.
* `rebaseNotes_notes` — the rebasing loop over a list of notes.
-/

namespace DataMover

open ByteMemory

/-- `record.bytes_completed() += prev_record.bytes_completed()`. -/
def accumulateBytesCompleted (m : Memory) (dsc : ℕ) (prevRecord : Memory) : Memory :=
  let record := getCompletionRecord m dsc
  AnyCompletionRecord.bytesCompleted.addAssign m record
    (AnyCompletionRecord.bytesCompleted.get prevRecord 0)

def accumulateRecordsMemMove := accumulateBytesCompleted
def accumulateRecordsFill := accumulateBytesCompleted
def accumulateRecordsComparePattern := accumulateBytesCompleted
def accumulateRecordsApplyDelta := accumulateBytesCompleted
def accumulateRecordsDualcast := accumulateBytesCompleted
def accumulateRecordsCrc := accumulateBytesCompleted
def accumulateRecordsCopyCrc := accumulateBytesCompleted
def accumulateRecordsDifCheck := accumulateBytesCompleted
def accumulateRecordsDifInsert := accumulateBytesCompleted
def accumulateRecordsDifStrip := accumulateBytesCompleted
def accumulateRecordsDifUpdate := accumulateBytesCompleted
def accumulateRecordsCacheFlush := accumulateBytesCompleted

/-- `compare_record.bytes_completed() = compare_prev_record.bytes_completed()`: an
assignment where the others add. -/
def accumulateRecordsCompare (m : Memory) (dsc : ℕ) (prevRecord : Memory) : Memory :=
  let record := getCompletionRecord m dsc
  AnyCompletionRecord.bytesCompleted.set m record
    (AnyCompletionRecord.bytesCompleted.get prevRecord 0)

/-- The loop of `accumulate_records_create_delta`: the 16-bit offset of every note
from `begin` up to `begin + size` grows by `blocks`. -/
def rebaseNotes (m : Memory) (begin size blocks : ℕ) : Memory :=
  let singleDeltaRecordSize := 10
  Loop.iter (fun i m =>
    let deltaRecordAddr := begin + singleDeltaRecordSize * i
    store m deltaRecordAddr 2 (load m deltaRecordAddr 2 + blocks))
    ((size + (singleDeltaRecordSize - 1)) / singleDeltaRecordSize) m

/-- The rebasing loop writes inside the notes only. -/
theorem rebaseNotes_of_notMem {m : Memory} {begin c blocks x : ℕ}
    (hx : x < begin ∨ begin + 10 * c ≤ x) : rebaseNotes m begin (10 * c) blocks x = m x := by
  unfold rebaseNotes
  refine Loop.iter_preserves (fun m : Memory => m x) (fun i t hi => ?_) m
  exact store_apply_of_notMem (by omega)

/-- **One note after the rebasing loop**: its index has grown, its data stays. -/
theorem rebaseNotes_apply {m : Memory} {begin c blocks j t : ℕ} (hj : j < c) (ht : t < 10) :
    rebaseNotes m begin (10 * c) blocks (begin + 10 * j + t)
      = if t < 2 then byteAt (load m (begin + 10 * j) 2 + blocks) t
        else m (begin + 10 * j + t) := by
  unfold rebaseNotes
  simp only [show (10 * c + (10 - 1)) / 10 = c by omega]
  -- iteration `j` is the only one that touches note `j`
  have key : ∀ n, Loop.iter (fun i m => store m (begin + 10 * i) 2
        (load m (begin + 10 * i) 2 + blocks)) n m (begin + 10 * j + t)
      = if j < n ∧ t < 2 then byteAt (load m (begin + 10 * j) 2 + blocks) t
        else m (begin + 10 * j + t) := by
    intro n
    induction n with
    | zero => rw [Loop.iter_zero, if_neg (by omega)]
    | succ n ih =>
      rw [Loop.iter_succ]
      by_cases hjn : j = n ∧ t < 2
      · obtain ⟨rfl, ht2⟩ := hjn
        have hread : load (Loop.iter (fun i m => store m (begin + 10 * i) 2
            (load m (begin + 10 * i) 2 + blocks)) j m) (begin + 10 * j) 2
              = load m (begin + 10 * j) 2 := by
          refine load_congr fun i hi => ?_
          exact Loop.iter_preserves (fun m : Memory => m (begin + 10 * j + i))
            (fun i' t' hi' => store_apply_of_notMem (by omega)) m
        rw [store_apply_of_lt ht2, hread, if_pos (by omega)]
      · rw [store_apply_of_notMem (by omega), ih]
        by_cases hlt : j < n ∧ t < 2
        · rw [if_pos hlt, if_pos (by omega)]
        · rw [if_neg hlt, if_neg (by omega)]
  rw [key c]
  by_cases ht2 : t < 2
  · rw [if_pos ⟨hj, ht2⟩, if_pos ht2]
  · rw [if_neg (by omega), if_neg ht2]

/-- **Rebasing a list of notes**: their indices, which are 16 bits wide, grow by
`blocks`. -/
theorem rebaseNotes_notes {m : Memory} {begin blocks : ℕ} {notes : List (ℕ × ℕ)}
    (hm : ∀ i, i < 10 * notes.length → m (begin + i) = notesByte notes i)
    (hidx : ∀ j, j < notes.length → (notes.getD j (0, 0)).1 < 2 ^ 16) {i : ℕ}
    (hi : i < 10 * notes.length) :
    rebaseNotes m begin (10 * notes.length) blocks (begin + i)
      = notesByte (notes.map fun p => (blocks + p.1, p.2)) i := by
  have hj : i / 10 < notes.length := by omega
  have hread : load m (begin + 10 * (i / 10)) 2 = (notes.getD (i / 10) (0, 0)).1 := by
    rw [load_eq_iff (hidx _ hj)]
    intro t ht
    rw [Nat.add_assoc, hm _ (by omega), notesByte, show (10 * (i / 10) + t) / 10 = i / 10 by omega,
      show (10 * (i / 10) + t) % 10 = t by omega, if_pos ht]
  have hget : (notes.map fun p => (blocks + p.1, p.2)).getD (i / 10) (0, 0)
      = (blocks + (notes.getD (i / 10) (0, 0)).1, (notes.getD (i / 10) (0, 0)).2) := by
    rw [List.getD_eq_getElem _ _ (by rw [List.length_map]; exact hj), List.getElem_map,
      List.getD_eq_getElem _ _ hj]
  have hsplit : begin + i = begin + 10 * (i / 10) + i % 10 := by omega
  rw [hsplit, rebaseNotes_apply hj (Nat.mod_lt _ (by decide)), hread, ← hsplit, hm i hi, notesByte,
    notesByte, hget]
  by_cases h2 : i % 10 < 2
  · rw [if_pos h2, if_pos h2, Nat.add_comm]
  · rw [if_neg h2, if_neg h2, if_neg h2]

def accumulateRecordsCreateDelta (m : Memory) (dsc : ℕ) (prevRecord : Memory) : Memory :=
  let record := getCompletionRecord m dsc
  let m := AnyCompletionRecord.bytesCompleted.addAssign m record
    (AnyCompletionRecord.bytesCompleted.get prevRecord 0)
  let partialBlocksCompleted := AnyCompletionRecord.bytesCompleted.get prevRecord 0 / 8
  let m := rebaseNotes m (CreateDeltaDescriptor.deltaRecordAddress.get m dsc)
    (CreateDeltaCompletionRecord.deltaRecordSize.get m record) partialBlocksCompleted
  CreateDeltaCompletionRecord.deltaRecordSize.addAssign m record
    (CreateDeltaCompletionRecord.deltaRecordSize.get prevRecord 0)

/-- `accumulate_records`. -/
def accumulateRecords (m : Memory) (dsc : ℕ) (prevRecord : Memory) : Memory :=
  match operationOf m dsc with
  | some .nop | some .drain | some .batch => m
  | some .memMove => accumulateRecordsMemMove m dsc prevRecord
  | some .fill => accumulateRecordsFill m dsc prevRecord
  | some .compare => accumulateRecordsCompare m dsc prevRecord
  | some .comparePattern => accumulateRecordsComparePattern m dsc prevRecord
  | some .createDelta => accumulateRecordsCreateDelta m dsc prevRecord
  | some .applyDelta => accumulateRecordsApplyDelta m dsc prevRecord
  | some .dualcast => accumulateRecordsDualcast m dsc prevRecord
  | some .crc => accumulateRecordsCrc m dsc prevRecord
  | some .copyCrc => accumulateRecordsCopyCrc m dsc prevRecord
  | some .difCheck => accumulateRecordsDifCheck m dsc prevRecord
  | some .difInsert => accumulateRecordsDifInsert m dsc prevRecord
  | some .difStrip => accumulateRecordsDifStrip m dsc prevRecord
  | some .difUpdate => accumulateRecordsDifUpdate m dsc prevRecord
  | some .cacheFlush => accumulateRecordsCacheFlush m dsc prevRecord
  | none => m

end DataMover
