import DataMover.Lib.Loop
import DataMover.Lib.Memory

/-!
# Reference kernels that write data

`dml_ref_mem_move`, `dml_ref_fill_u64` and `dml_ref_dualcast` of
`sw_dispatcher/ref`, loop by loop, and what each of them leaves in memory.

## Main results

* `dmlRefMemMove_eq` — the reference memory move is the block move, for every
  overlap of the two ranges.
* `dmlRefFillU64_eq` — byte `j` of the filled range is byte `j mod 8` of the
  pattern.
* `dmlRefDualcast_of_notMem` — a dualcast writes its two destinations only;
  `dmlRefDualcast_eq` — and what it writes there.
-/

namespace DataMover

open ByteMemory

/-! ### Memory move -/

/-- `own_copy_forward`: ascending byte copy. -/
def ownCopyForward (m : Memory) (src dst transferSize : ℕ) : Memory :=
  Loop.iter (fun index m => Function.update m (dst + index) (m (src + index))) transferSize m

/-- `own_copy_backward`: descending byte copy.  The loop stops before index 0,
which is copied after it; `transfer_size - 1` is a 32-bit subtraction. -/
def ownCopyBackward (m : Memory) (src dst transferSize : ℕ) : Memory :=
  let lastIndex := (transferSize + (2 ^ 32 - 1)) % 2 ^ 32
  let m := Loop.iter (fun i m =>
    let index := lastIndex - i
    Function.update m (dst + index) (m (src + index))) lastIndex m
  Function.update m dst (m src)

/-- `dml_ref_mem_move`: the direction is chosen from the overlap. -/
def dmlRefMemMove (m : Memory) (src dst transferSize : ℕ) : Memory :=
  let srcEnd := src + transferSize
  let dstEnd := dst + transferSize
  if srcEnd ≤ dst ∨ src ≥ dstEnd then
    ownCopyForward m src dst transferSize
  else if src < dstEnd ∧ srcEnd > dstEnd then
    ownCopyForward m src dst transferSize
  else if src < dst ∧ srcEnd > dst then
    ownCopyBackward m src dst transferSize
  else
    -- the same memory region
    m

theorem ownCopyForward_eq (m : Memory) {src dst n : ℕ} (h : ForwardSafe src dst n) :
    ownCopyForward m src dst n = move m src dst n := by
  unfold ownCopyForward
  induction n with
  | zero => exact (move_zero m src dst).symm
  | succ n ih =>
    have hsafe : ForwardSafe src dst n := by unfold ForwardSafe at *; omega
    rw [Loop.iter_succ, ih hsafe, ← move_one, move_forward m h]

theorem ownCopyBackward_eq (m : Memory) {src dst n : ℕ} (hle : src ≤ dst) (hpos : 0 < n)
    (hn : n < 2 ^ 32) : ownCopyBackward m src dst n = move m src dst n := by
  have hlast : (n + (2 ^ 32 - 1)) % 2 ^ 32 = n - 1 := by omega
  unfold ownCopyBackward
  simp only [hlast]
  -- after `i` iterations the last `i` bytes are in place
  have hloop : ∀ i, i ≤ n - 1 →
      Loop.iter (fun i m => Function.update m (dst + (n - 1 - i)) (m (src + (n - 1 - i)))) i m
        = move m (src + (n - i)) (dst + (n - i)) i := by
    intro i
    induction i with
    | zero => intro _; simp
    | succ i ih =>
      intro hi
      rw [Loop.iter_succ, ih (by omega), ← move_one,
        show src + (n - i) = src + (n - 1 - i) + 1 by omega,
        show dst + (n - i) = dst + (n - 1 - i) + 1 by omega, move_backward m (by left; omega),
        show src + (n - (i + 1)) = src + (n - 1 - i) by omega,
        show dst + (n - (i + 1)) = dst + (n - 1 - i) by omega, Nat.add_comm 1 i]
  rw [hloop (n - 1) le_rfl, ← move_one, show n - (n - 1) = 1 by omega,
    move_backward m (by left; omega), show 1 + (n - 1) = n by omega]

/-- **The reference memory move is the block move**, whatever the overlap. -/
theorem dmlRefMemMove_eq (m : Memory) (src dst : ℕ) {n : ℕ} (hn : n < 2 ^ 32) :
    dmlRefMemMove m src dst n = move m src dst n := by
  unfold dmlRefMemMove
  simp only
  split
  · next h =>
    refine ownCopyForward_eq m ?_
    unfold ForwardSafe; omega
  · split
    · next h =>
      refine ownCopyForward_eq m ?_
      unfold ForwardSafe; omega
    · split
      · next h => exact ownCopyBackward_eq m (by omega) (by omega) hn
      · next h1 h2 h3 =>
        have heq : src = dst := by omega
        rw [heq, move_self]

/-! ### Fill -/

/-- `dml_ref_fill_u64`: the 8 bytes of the pattern, over and over. -/
def dmlRefFillU64 (m : Memory) (pattern dst transferSize : ℕ) : Memory :=
  Loop.iter (fun index m => Function.update m (dst + index) (byteAt pattern (index % 8)))
    transferSize m

/-- **What a fill leaves in memory.** -/
theorem dmlRefFillU64_eq (m : Memory) (pattern dst n x : ℕ) :
    dmlRefFillU64 m pattern dst n x
      = if dst ≤ x ∧ x < dst + n then byteAt pattern ((x - dst) % 8) else m x := by
  unfold dmlRefFillU64
  induction n with
  | zero => rw [Loop.iter_zero, if_neg (by omega)]
  | succ n ih =>
    rw [Loop.iter_succ, Function.update_apply]
    by_cases hx : x = dst + n
    · rw [if_pos hx, if_pos (by omega), hx, Nat.add_sub_cancel_left]
    · rw [if_neg hx, ih]
      by_cases hin : dst ≤ x ∧ x < dst + n
      · rw [if_pos hin, if_pos (by omega)]
      · rw [if_neg hin, if_neg (by omega)]

/-! ### Dualcast -/

/-- `dml_ref_dualcast`: each source byte to both destinations. -/
def dmlRefDualcast (m : Memory) (src dst1 dst2 transferSize : ℕ) : Memory :=
  Loop.iter (fun index m =>
    let m := Function.update m (dst1 + index) (m (src + index))
    Function.update m (dst2 + index) (m (src + index))) transferSize m

/-- A dualcast writes its two destinations only. -/
theorem dmlRefDualcast_of_notMem {m : Memory} {src dst1 dst2 n x : ℕ}
    (h1 : x < dst1 ∨ dst1 + n ≤ x) (h2 : x < dst2 ∨ dst2 + n ≤ x) :
    dmlRefDualcast m src dst1 dst2 n x = m x := by
  refine Loop.iter_preserves (fun m : Memory => m x) (fun i t hi => ?_) m
  rw [Function.update_of_ne (by omega), Function.update_of_ne (by omega)]

/-- **What a dualcast leaves in memory** when its source and its two destinations do
not overlap. -/
theorem dmlRefDualcast_eq {m : Memory} {src dst1 dst2 n : ℕ}
    (h1 : Region.Apart ⟨src, n⟩ ⟨dst1, n⟩) (h2 : Region.Apart ⟨src, n⟩ ⟨dst2, n⟩)
    (h12 : Region.Apart ⟨dst1, n⟩ ⟨dst2, n⟩) (x : ℕ) :
    dmlRefDualcast m src dst1 dst2 n x
      = if dst1 ≤ x ∧ x < dst1 + n then m (src + (x - dst1))
        else if dst2 ≤ x ∧ x < dst2 + n then m (src + (x - dst2))
        else m x := by
  unfold Region.Apart at h1 h2 h12
  simp only at h1 h2 h12
  unfold dmlRefDualcast
  revert x
  -- after `j` bytes both destinations hold the first `j` bytes of the source
  refine Loop.iter_invariant (fun j (t : Memory) => ∀ x, t x
      = if dst1 ≤ x ∧ x < dst1 + j then m (src + (x - dst1))
        else if dst2 ≤ x ∧ x < dst2 + j then m (src + (x - dst2))
        else m x) (fun x => ?_) fun j t hj ht x => ?_
  · rw [if_neg (by omega), if_neg (by omega)]
  · have hsrc : t (src + j) = m (src + j) := by
      rw [ht, if_neg (by omega), if_neg (by omega)]
    rw [Function.update_of_ne (show src + j ≠ dst1 + j by omega), hsrc]
    by_cases hx2 : x = dst2 + j
    · rw [hx2, Function.update_self, if_neg (by omega), if_pos (by omega), Nat.add_sub_cancel_left]
    · rw [Function.update_of_ne hx2]
      by_cases hx1 : x = dst1 + j
      · rw [hx1, Function.update_self, if_pos (by omega), Nat.add_sub_cancel_left]
      · rw [Function.update_of_ne hx1, ht]
        by_cases hin1 : dst1 ≤ x ∧ x < dst1 + j
        · rw [if_pos hin1, if_pos (by omega)]
        · rw [if_neg hin1, if_neg (show ¬(dst1 ≤ x ∧ x < dst1 + (j + 1)) by omega)]
          by_cases hin2 : dst2 ≤ x ∧ x < dst2 + j
          · rw [if_pos hin2, if_pos (by omega)]
          · rw [if_neg hin2, if_neg (by omega)]

end DataMover
