import DataMover.Ref.Compare
import Mathlib.Data.List.GetD

/-!
# Reference delta kernels

`dml_ref_create_delta` walks two buffers 8 bytes at a time and appends, for each
block in which they differ, a 10-byte note to the delta record: the 16-bit index
of the block and the block of the second buffer.  It stops with the result
*overflow* when a note does not fit.  `dml_ref_apply_delta` writes the noted
blocks back.

The loop is characterised once, by the list of differing blocks: the record
holds the notes of the first `max / 10` of them, and the loop overflows when
there are more.

## Main definitions

* `writeNotes`, `notesByte` — a list of notes laid out in memory, and byte `i` of
  that layout.
* `differingBlocks` — the indices of the blocks in which two buffers differ.

## Main results

* `dmlRefCreateDelta_eq` — the record, its size and the result of a run.
* `differingBlocks_add` — the differing blocks of a prefix and of the rest.
* `dmlRefCreateDelta_of_notMem`, `dmlRefApplyDelta_of_notMem` — where the two
  cannot write.
-/

namespace DataMover

open ByteMemory

/-- The result of a delta that did not fit. -/
def resultOverflow : ℕ := 0x2

/-! ### Creating a delta -/

/-- The two buffers differ in the 8-byte block `index`. -/
def blockDiffers (m : Memory) (src1 src2 index : ℕ) : Bool :=
  load m (src1 + 8 * index) 8 != load m (src2 + 8 * index) 8

/-- One iteration of `dml_ref_create_delta` over the memory and the size of the
record so far; `error` is the return on overflow. -/
def createDeltaStep (src1 src2 deltaRecord deltaRecordMaxSize index : ℕ) :
    Memory × ℕ → Except (Memory × ℕ) (Memory × ℕ)
  | (m, deltaRecordSize) =>
    if blockDiffers m src1 src2 index then
      if deltaRecordSize + 10 > deltaRecordMaxSize then
        .error (m, deltaRecordSize)
      else
        let block2 := load m (src2 + 8 * index) 8
        let deltaPosition := deltaRecord + deltaRecordSize
        let m := store m deltaPosition 2 index
        let m := store m (deltaPosition + 2) 8 block2
        .ok (m, (deltaRecordSize + 10) % 2 ^ 32)
    else
      .ok (m, deltaRecordSize)

/-- `dml_ref_create_delta`: the memory, the size of the record and the result. -/
def dmlRefCreateDelta (m : Memory) (src1 src2 transferSize deltaRecord deltaRecordMaxSize : ℕ) :
    Memory × ℕ × ℕ :=
  match Loop.iterUntil (createDeltaStep src1 src2 deltaRecord deltaRecordMaxSize)
      (transferSize / 8) (m, 0) with
  | .error (m, deltaRecordSize) => (m, deltaRecordSize, resultOverflow)
  | .ok (m, deltaRecordSize) =>
    (m, deltaRecordSize, if deltaRecordSize ≠ 0 then resultNotEqual else resultEqual)

/-! ### Notes in memory -/

/-- The notes of a delta record, each a block index and the block, laid out from
`a` on. -/
def writeNotes (m : Memory) (a : ℕ) : List (ℕ × ℕ) → Memory
  | [] => m
  | (offset, data) :: notes =>
    writeNotes (store (store m a 2 offset) (a + 2) 8 data) (a + 10) notes

/-- Byte `i` of a delta record. -/
def notesByte (notes : List (ℕ × ℕ)) (i : ℕ) : BitVec 8 :=
  let note := notes.getD (i / 10) (0, 0)
  if i % 10 < 2 then byteAt note.1 (i % 10) else byteAt note.2 (i % 10 - 2)

theorem writeNotes_append (notes : List (ℕ × ℕ)) (offset data : ℕ) : ∀ (m : Memory) (a : ℕ),
    writeNotes m a (notes ++ [(offset, data)])
      = store (store (writeNotes m a notes) (a + 10 * notes.length) 2 offset)
          (a + 10 * notes.length + 2) 8 data := by
  induction notes with
  | nil => intro m a; rfl
  | cons note notes ih =>
    intro m a
    obtain ⟨o, d⟩ := note
    rw [List.cons_append, writeNotes, ih, writeNotes, List.length_cons,
      show a + 10 + 10 * notes.length = a + 10 * (notes.length + 1) by omega]

/-- Notes are written into `[a, a + 10 * length)` only. -/
theorem writeNotes_of_notMem (notes : List (ℕ × ℕ)) : ∀ (m : Memory) (a x : ℕ),
    (x < a ∨ a + 10 * notes.length ≤ x) → writeNotes m a notes x = m x := by
  induction notes with
  | nil => intro m a x _; rfl
  | cons note notes ih =>
    intro m a x hx
    obtain ⟨o, d⟩ := note
    rw [List.length_cons] at hx
    rw [writeNotes, ih _ _ _ (by omega), store_apply_of_notMem (by omega),
      store_apply_of_notMem (by omega)]

/-- The bytes of the notes do not depend on the memory they are written to. -/
theorem writeNotes_of_lt (notes : List (ℕ × ℕ)) : ∀ (m : Memory) (a i : ℕ),
    i < 10 * notes.length → writeNotes m a notes (a + i) = notesByte notes i := by
  induction notes with
  | nil => intro m a i hi; simp at hi
  | cons note notes ih =>
    intro m a i hi
    obtain ⟨o, d⟩ := note
    rw [List.length_cons] at hi
    rw [writeNotes]
    rcases Nat.lt_or_ge i 10 with h | h
    · rw [writeNotes_of_notMem _ _ _ _ (by omega), notesByte, Nat.mod_eq_of_lt h,
        Nat.div_eq_of_lt h, List.getD_cons_zero]
      by_cases h2 : i < 2
      · rw [if_pos h2, store_apply_of_notMem (by omega), store_apply_of_lt h2]
      · rw [if_neg h2, show a + i = a + 2 + (i - 2) by omega, store_apply_of_lt (by omega)]
    · rw [show a + i = a + 10 + (i - 10) by omega, ih _ _ _ (by omega), notesByte, notesByte,
        show i / 10 = (i - 10) / 10 + 1 by omega, show i % 10 = (i - 10) % 10 by omega,
        List.getD_cons_succ]

/-- The first notes of a longer record. -/
theorem notesByte_append_left {l₁ l₂ : List (ℕ × ℕ)} {i : ℕ} (hi : i < 10 * l₁.length) :
    notesByte (l₁ ++ l₂) i = notesByte l₁ i := by
  unfold notesByte
  rw [List.getD_append _ _ _ _ (by omega)]

/-- The notes after them. -/
theorem notesByte_append_right (l₁ l₂ : List (ℕ × ℕ)) (i : ℕ) :
    notesByte (l₁ ++ l₂) (10 * l₁.length + i) = notesByte l₂ i := by
  unfold notesByte
  rw [List.getD_append_right _ _ _ _ (by omega),
    show (10 * l₁.length + i) / 10 - l₁.length = i / 10 by omega,
    show (10 * l₁.length + i) % 10 = i % 10 by omega]

/-! ### The differing blocks -/

/-- The blocks below `n` in which the buffers differ, in order. -/
def differingBlocks (m : Memory) (src1 src2 n : ℕ) : List ℕ :=
  (List.range n).filter (blockDiffers m src1 src2)

/-- The note of a differing block. -/
def noteOf (m : Memory) (src2 index : ℕ) : ℕ × ℕ := (index, load m (src2 + 8 * index) 8)

theorem differingBlocks_succ (m : Memory) (src1 src2 n : ℕ) :
    differingBlocks m src1 src2 (n + 1)
      = differingBlocks m src1 src2 n ++ if blockDiffers m src1 src2 n then [n] else [] := by
  unfold differingBlocks
  rw [List.range_succ, List.filter_append]
  cases h : blockDiffers m src1 src2 n <;> simp [h]

/-- **The differing blocks of a prefix and of the rest.** -/
theorem differingBlocks_add (m : Memory) (src1 src2 k n : ℕ) :
    differingBlocks m src1 src2 (k + n)
      = differingBlocks m src1 src2 k
        ++ (differingBlocks m (src1 + 8 * k) (src2 + 8 * k) n).map (k + ·) := by
  unfold differingBlocks
  rw [List.range_add, List.filter_append, List.filter_map]
  congr 2
  refine List.filter_congr fun i _ => ?_
  simp only [Function.comp, blockDiffers]
  rw [Nat.mul_add, ← Nat.add_assoc, ← Nat.add_assoc]

theorem mem_differingBlocks {m : Memory} {src1 src2 n b : ℕ} :
    b ∈ differingBlocks m src1 src2 n ↔ b < n ∧ blockDiffers m src1 src2 b = true := by
  rw [differingBlocks, List.mem_filter, List.mem_range]

theorem differingBlocks_eq_nil_iff {m : Memory} {src1 src2 n : ℕ} :
    differingBlocks m src1 src2 n = [] ↔ ∀ i, i < n → blockDiffers m src1 src2 i = false := by
  unfold differingBlocks
  rw [List.filter_eq_nil_iff]
  simp

theorem blockDiffers_eq_false_iff {m : Memory} {src1 src2 index : ℕ} :
    blockDiffers m src1 src2 index = false
      ↔ ∀ t, t < 8 → m (src1 + 8 * index + t) = m (src2 + 8 * index + t) := by
  unfold blockDiffers
  rw [bne_eq_false_iff_eq, load_eq_iff (load_lt m _ 8)]
  refine forall₂_congr fun t ht => ?_
  rw [byteAt_load m _ ht]

/-- No block differs when no byte does. -/
theorem differingBlocks_eq_nil_iff_bytes {m : Memory} {src1 src2 n : ℕ} :
    differingBlocks m src1 src2 n = [] ↔ ∀ i, i < 8 * n → m (src1 + i) = m (src2 + i) := by
  rw [differingBlocks_eq_nil_iff]
  constructor
  · intro h i hi
    have hbyte := blockDiffers_eq_false_iff.mp (h (i / 8) (by omega)) (i % 8) (by omega)
    rwa [Nat.add_assoc, Nat.add_assoc, Nat.div_add_mod] at hbyte
  · intro h index hindex
    refine blockDiffers_eq_false_iff.mpr fun t ht => ?_
    rw [Nat.add_assoc, Nat.add_assoc]
    exact h _ (by omega)

/-- The differing blocks are read off the two sources. -/
theorem differingBlocks_congr {m m' : Memory} {src1 src2 n : ℕ}
    (h1 : ∀ i, i < 8 * n → m (src1 + i) = m' (src1 + i))
    (h2 : ∀ i, i < 8 * n → m (src2 + i) = m' (src2 + i)) :
    differingBlocks m src1 src2 n = differingBlocks m' src1 src2 n := by
  unfold differingBlocks
  refine List.filter_congr fun i hi => ?_
  rw [List.mem_range] at hi
  unfold blockDiffers
  have e1 : load m (src1 + 8 * i) 8 = load m' (src1 + 8 * i) 8 :=
    load_congr fun j hj => by
      rw [Nat.add_assoc]
      exact h1 _ (by omega)
  have e2 : load m (src2 + 8 * i) 8 = load m' (src2 + 8 * i) 8 :=
    load_congr fun j hj => by
      rw [Nat.add_assoc]
      exact h2 _ (by omega)
  rw [e1, e2]

/-! ### What a run leaves -/

/-- The notes a run over `n` blocks puts into a record of `max` bytes: those of
the first `max / 10` differing blocks. -/
def recordedNotes (m : Memory) (src1 src2 n max : ℕ) : List (ℕ × ℕ) :=
  ((differingBlocks m src1 src2 n).take (max / 10)).map (noteOf m src2)

/-- The result of a run: `d` differing blocks against room for `max / 10`. -/
def deltaResult (d max : ℕ) : ℕ :=
  if max / 10 < d then resultOverflow else if d ≠ 0 then resultNotEqual else resultEqual

/-- **The notes of a prefix and of the rest**: the rest has the room the prefix
leaves, and its block indices count from the end of the prefix. -/
theorem recordedNotes_add {m : Memory} {src1 src2 k n max : ℕ}
    (hfit : (differingBlocks m src1 src2 k).length ≤ max / 10) :
    recordedNotes m src1 src2 (k + n) max
      = recordedNotes m src1 src2 k max
        ++ (recordedNotes m (src1 + 8 * k) (src2 + 8 * k) n
            (max - 10 * (differingBlocks m src1 src2 k).length)).map fun p => (k + p.1, p.2) := by
  unfold recordedNotes
  set D := differingBlocks m src1 src2 k with hD
  have hroom : (max - 10 * D.length) / 10 = max / 10 - D.length := by omega
  have hnote : ∀ j, noteOf m src2 (k + j) = (k + (noteOf m (src2 + 8 * k) j).1,
      (noteOf m (src2 + 8 * k) j).2) := by
    intro j
    simp only [noteOf]
    rw [Nat.mul_add, ← Nat.add_assoc]
  rw [differingBlocks_add, ← hD, List.take_append, List.take_of_length_le hfit, List.map_append,
    hroom, ← List.map_take, List.map_map, List.map_map]
  congr 1
  exact List.map_congr_left fun j _ => hnote j

theorem length_recordedNotes (m : Memory) (src1 src2 n max : ℕ) :
    (recordedNotes m src1 src2 n max).length
      = min (max / 10) (differingBlocks m src1 src2 n).length := by
  rw [recordedNotes, List.length_map, List.length_take]

/-- The recorded notes are read off the two sources. -/
theorem recordedNotes_congr {m m' : Memory} {src1 src2 n max : ℕ}
    (h1 : ∀ i, i < 8 * n → m (src1 + i) = m' (src1 + i))
    (h2 : ∀ i, i < 8 * n → m (src2 + i) = m' (src2 + i)) :
    recordedNotes m src1 src2 n max = recordedNotes m' src1 src2 n max := by
  unfold recordedNotes
  rw [differingBlocks_congr h1 h2]
  refine List.map_congr_left fun j hj => ?_
  have hmem := List.mem_of_mem_take hj
  have hlt : j < n := (mem_differingBlocks.mp hmem).1
  rw [noteOf, noteOf]
  congr 1
  refine load_congr fun i hi => ?_
  rw [Nat.add_assoc]
  exact h2 _ (by omega)

/-- The block index of a recorded note is below the number of blocks. -/
theorem recordedNotes_index_lt {m : Memory} {src1 src2 n max j : ℕ}
    (hj : j < (recordedNotes m src1 src2 n max).length) :
    ((recordedNotes m src1 src2 n max).getD j (0, 0)).1 < n := by
  have hmem : (recordedNotes m src1 src2 n max).getD j (0, 0)
      ∈ recordedNotes m src1 src2 n max := by
    rw [List.getD_eq_getElem _ _ hj]
    exact List.getElem_mem hj
  unfold recordedNotes at hmem
  obtain ⟨i, hi, heq⟩ := List.mem_map.mp hmem
  unfold recordedNotes
  rw [← heq]
  exact (mem_differingBlocks.mp (List.mem_of_mem_take hi)).1

section CreateDelta

variable {m : Memory} {src1 src2 n rec max : ℕ}

/-- The loop state after `n` iterations: it has returned exactly when the
differing blocks so far do not fit. -/
theorem iterUntil_createDeltaStep (hmax : max < 2 ^ 32)
    (h1 : Region.Apart ⟨src1, 8 * n⟩ ⟨rec, max⟩) (h2 : Region.Apart ⟨src2, 8 * n⟩ ⟨rec, max⟩) :
    ∀ j, j ≤ n →
      Loop.iterUntil (createDeltaStep src1 src2 rec max) j (m, 0)
        = if (differingBlocks m src1 src2 j).length ≤ max / 10 then
            .ok (writeNotes m rec ((differingBlocks m src1 src2 j).map (noteOf m src2)),
              10 * (differingBlocks m src1 src2 j).length)
          else
            .error (writeNotes m rec (recordedNotes m src1 src2 j max), 10 * (max / 10)) := by
  intro j
  induction j with
  | zero => intro _; simp [differingBlocks, writeNotes]
  | succ j ih =>
    intro hj
    rw [Loop.iterUntil_succ, ih (by omega)]
    have hD := differingBlocks_succ m src1 src2 j
    set D := differingBlocks m src1 src2 j with hDdef
    by_cases hfit : D.length ≤ max / 10
    · -- the loop is still running: the next block is read through the notes written so far
      rw [if_pos hfit]
      have hread : ∀ s, Region.Apart ⟨s, 8 * n⟩ ⟨rec, max⟩ →
          load (writeNotes m rec (D.map (noteOf m src2))) (s + 8 * j) 8 = load m (s + 8 * j) 8 := by
        intro s hs
        refine load_congr fun i hi => writeNotes_of_notMem _ _ _ _ ?_
        rw [List.length_map]
        unfold Region.Apart at hs
        simp only at hs
        omega
      simp only [Except.bind, createDeltaStep]
      have hdiff : blockDiffers (writeNotes m rec (D.map (noteOf m src2))) src1 src2 j
          = blockDiffers m src1 src2 j := by
        unfold blockDiffers
        rw [hread src1 h1, hread src2 h2]
      rw [hdiff, hread src2 h2]
      by_cases hb : blockDiffers m src1 src2 j = true
      · rw [if_pos hb] at hD ⊢
        by_cases hroom : 10 * D.length + 10 > max
        · rw [if_pos hroom, if_neg (by
            rw [hD, List.length_append]
            simp only [List.length_singleton]
            omega)]
          have hlen : D.length = max / 10 := by omega
          have htake : (D ++ [j]).take (max / 10) = D := by rw [← hlen, List.take_left]
          rw [recordedNotes, hD, htake, hlen]
        · rw [if_neg hroom, if_pos (by
              rw [hD, List.length_append]
              simp only [List.length_singleton]
              omega),
            hD, List.map_append, List.map_singleton, noteOf, writeNotes_append, List.length_map,
            List.length_append, List.length_singleton, Nat.mod_eq_of_lt (by omega), Nat.mul_add]
      · rw [if_neg hb] at hD ⊢
        rw [List.append_nil] at hD
        rw [hD, if_pos hfit]
    · -- the loop has returned
      have hlonger : ¬(differingBlocks m src1 src2 (j + 1)).length ≤ max / 10 := by
        rw [hD, List.length_append]; omega
      rw [if_neg hfit, if_neg hlonger]
      have htake : (differingBlocks m src1 src2 (j + 1)).take (max / 10) = D.take (max / 10) := by
        rw [hD, List.take_append_of_le_length (by omega)]
      rw [recordedNotes, recordedNotes, htake]
      rfl

/-- **The record, its size and the result of `create_delta`.** -/
theorem dmlRefCreateDelta_eq (hmax : max < 2 ^ 32)
    (h1 : Region.Apart ⟨src1, n⟩ ⟨rec, max⟩) (h2 : Region.Apart ⟨src2, n⟩ ⟨rec, max⟩) :
    dmlRefCreateDelta m src1 src2 n rec max
      = (writeNotes m rec (recordedNotes m src1 src2 (n / 8) max),
          10 * (recordedNotes m src1 src2 (n / 8) max).length,
          deltaResult (differingBlocks m src1 src2 (n / 8)).length max) := by
  have h1' : Region.Apart ⟨src1, 8 * (n / 8)⟩ ⟨rec, max⟩ :=
    h1.mono ⟨le_rfl, by simp only; omega⟩ (Region.Inside.refl _)
  have h2' : Region.Apart ⟨src2, 8 * (n / 8)⟩ ⟨rec, max⟩ :=
    h2.mono ⟨le_rfl, by simp only; omega⟩ (Region.Inside.refl _)
  have hloop := iterUntil_createDeltaStep (m := m) hmax h1' h2' (n / 8) le_rfl
  unfold dmlRefCreateDelta
  rw [hloop]
  set D := differingBlocks m src1 src2 (n / 8) with hD
  by_cases hfit : D.length ≤ max / 10
  · have hnotes : recordedNotes m src1 src2 (n / 8) max = D.map (noteOf m src2) := by
      rw [recordedNotes, ← hD, List.take_of_length_le hfit]
    rw [if_pos hfit, hnotes, List.length_map, deltaResult, if_neg (by omega)]
    simp only
    by_cases h0 : D.length = 0
    · rw [h0]
    · rw [if_pos (by omega), if_pos h0]
  · have hlen : (recordedNotes m src1 src2 (n / 8) max).length = max / 10 := by
      rw [recordedNotes, ← hD, List.length_map, List.length_take]; omega
    rw [if_neg hfit, hlen, deltaResult, if_pos (by omega)]

end CreateDelta

/-- One iteration writes the record only, whether it returns or goes on. -/
theorem createDeltaStep_of_notMem {src1 src2 rec max index x : ℕ} {t : Memory × ℕ}
    (hx : x < rec ∨ rec + max ≤ x) :
    (∀ u, createDeltaStep src1 src2 rec max index t = .ok u → u.1 x = t.1 x)
      ∧ ∀ r, createDeltaStep src1 src2 rec max index t = .error r → r.1 x = t.1 x := by
  obtain ⟨m, size⟩ := t
  simp only [createDeltaStep]
  by_cases hb : blockDiffers m src1 src2 index = true
  · rw [if_pos hb]
    by_cases hroom : size + 10 > max
    · rw [if_pos hroom]
      exact ⟨fun u hu => (nomatch hu), fun r hr => by cases hr; rfl⟩
    · rw [if_neg hroom]
      refine ⟨fun u hu => ?_, fun r hr => nomatch hr⟩
      cases hu
      simp only
      rw [store_apply_of_notMem (by omega), store_apply_of_notMem (by omega)]
  · rw [if_neg hb]
    exact ⟨fun u hu => by cases hu; rfl, fun r hr => nomatch hr⟩

/-- `create_delta` writes its record only. -/
theorem dmlRefCreateDelta_of_notMem {m : Memory} {src1 src2 n rec max x : ℕ}
    (hx : x < rec ∨ rec + max ≤ x) : (dmlRefCreateDelta m src1 src2 n rec max).1 x = m x := by
  obtain ⟨hok, herr⟩ := Loop.iterUntil_invariant (f := createDeltaStep src1 src2 rec max)
    (n := n / 8) (s := (m, 0)) (fun _ t => t.1 x = m x) (fun r => r.1 x = m x) rfl
    (fun i t u _ ht hu => ((createDeltaStep_of_notMem hx).1 u hu).trans ht)
    (fun i t r _ ht hr => ((createDeltaStep_of_notMem hx).2 r hr).trans ht)
  unfold dmlRefCreateDelta
  split
  · next h => exact herr _ h
  · next h => exact hok _ h

/-- The size of a record is a whole number of notes that fit. -/
theorem dmlRefCreateDelta_size (m : Memory) (src1 src2 n rec max : ℕ) (hmax : max < 2 ^ 32) :
    (dmlRefCreateDelta m src1 src2 n rec max).2.1 ≤ max
      ∧ (dmlRefCreateDelta m src1 src2 n rec max).2.1 % 10 = 0 := by
  obtain ⟨hok, herr⟩ := Loop.iterUntil_invariant (f := createDeltaStep src1 src2 rec max)
    (n := n / 8) (s := (m, 0)) (fun _ t => t.2 ≤ max ∧ t.2 % 10 = 0)
    (fun r => r.2 ≤ max ∧ r.2 % 10 = 0) ⟨Nat.zero_le _, rfl⟩
    (fun i t u _ ht hu => by
      obtain ⟨t, size⟩ := t
      simp only [createDeltaStep] at hu ht
      split at hu
      · split at hu
        · cases hu
        · cases hu
          simp only
          rw [Nat.mod_eq_of_lt (by omega)]
          omega
      · cases hu
        exact ht)
    (fun i t r _ ht hr => by
      obtain ⟨t, size⟩ := t
      simp only [createDeltaStep] at hr ht
      split at hr
      · split at hr
        · cases hr
          exact ht
        · cases hr
      · cases hr)
  unfold dmlRefCreateDelta
  split
  · next h => exact herr _ h
  · next h => exact hok _ h

theorem deltaResult_ne_overflow_iff {d max : ℕ} :
    deltaResult d max ≠ resultOverflow ↔ d ≤ max / 10 := by
  unfold deltaResult resultOverflow resultNotEqual resultEqual
  split
  · constructor
    · intro h; exact absurd rfl h
    · intro h; omega
  · split <;> simp <;> omega

/-- **The result of a prefix and of the rest.**  The rest alone gives the result
of the whole unless only the prefix has a difference. -/
theorem deltaResult_add_eq_iff {d e max : ℕ} (hd : d ≤ max / 10) :
    deltaResult e (max - 10 * d) = deltaResult (d + e) max ↔ d = 0 ∨ e ≠ 0 := by
  unfold deltaResult resultOverflow resultNotEqual resultEqual
  have hroom : (max - 10 * d) / 10 < e ↔ max / 10 < d + e := by omega
  simp only [hroom]
  by_cases hover : max / 10 < d + e
  · rw [if_pos hover, if_pos hover]
    simp only [true_iff]
    omega
  · rw [if_neg hover, if_neg hover]
    by_cases he : e = 0
    · by_cases h0 : d = 0
      · simp [he, h0]
      · simp [he, h0]
    · simp [he]

/-! ### Applying a delta -/

/-- `dml_ref_apply_delta`: each note's block to its place in the destination. -/
def dmlRefApplyDelta (m : Memory) (deltaRecord dst deltaRecordSize : ℕ) : Memory :=
  Loop.iter (fun index m =>
    let deltaNotePosition := deltaRecord + 10 * index
    let offset := load m deltaNotePosition 2
    let data := load m (deltaNotePosition + 2) 8
    store m (dst + 8 * offset) 8 data) (deltaRecordSize / 10) m

/-- Every note of a delta record points into the first `transferSize` bytes of
the destination. -/
def NotesWithin (m : Memory) (deltaRecord deltaRecordSize transferSize : ℕ) : Prop :=
  ∀ index, index < deltaRecordSize / 10 →
    8 * load m (deltaRecord + 10 * index) 2 + 8 ≤ transferSize

theorem NotesWithin.congr {m m' : Memory} {deltaRecord size n : ℕ}
    (h : NotesWithin m' deltaRecord size n)
    (hread : ∀ i, i < size → m (deltaRecord + i) = m' (deltaRecord + i)) :
    NotesWithin m deltaRecord size n := by
  intro index hindex
  have hload : load m (deltaRecord + 10 * index) 2 = load m' (deltaRecord + 10 * index) 2 :=
    load_congr fun j hj => by
      rw [Nat.add_assoc]
      exact hread _ (by omega)
  rw [hload]
  exact h index hindex

/-- `apply_delta` with notes that point into the destination writes there only. -/
theorem dmlRefApplyDelta_of_notMem {m : Memory} {deltaRecord dst size n x : ℕ}
    (hnotes : NotesWithin m deltaRecord size n)
    (hap : Region.Apart ⟨deltaRecord, size⟩ ⟨dst, n⟩) (hx : x < dst ∨ dst + n ≤ x) :
    dmlRefApplyDelta m deltaRecord dst size x = m x := by
  unfold dmlRefApplyDelta
  -- outside the destination, the delta record included, nothing changes
  refine Loop.iter_invariant (fun _ (t : Memory) => ∀ y, y < dst ∨ dst + n ≤ y → t y = m y)
    (fun y _ => rfl) (fun i t hi ht y hy => ?_) x hx
  have hread : load t (deltaRecord + 10 * i) 2 = load m (deltaRecord + 10 * i) 2 := by
    refine load_congr fun j hj => ht _ ?_
    have hn := hnotes i hi
    unfold Region.Apart at hap
    simp only at hap
    omega
  have hn := hnotes i hi
  rw [hread, store_apply_of_notMem (by omega)]
  exact ht y hy

end DataMover
