import DataMover.Lib.Loop
import DataMover.Lib.Memory

/-!
# Writing a range block by block

A loop that writes one fixed-size block per iteration, each block a function of
its index alone, leaves the concatenation of the blocks.

## Main definitions

* `writeBlock` — one block of `d` bytes.
* `writeBlocks` — `n` consecutive blocks.
* `Coincide` — misplaced blocks leave the right bytes by coincidence.

## Main results

* `writeBlock_append` — two blocks, one behind the other.
* `writeBlocks_add` — blocks written in two parts.
* `writeBlocks_misplaced_iff` — blocks written in two parts, the second misplaced.
* `source_unchanged` — the blocks do not reach a source that is apart from them.
* `iter_writeBlock` — the loop, when each iteration writes its block from any
  memory that agrees with the initial one outside the blocks.
-/

namespace ByteMemory

/-- The `d` bytes from `a` on become `out 0, …, out (d - 1)`. -/
def writeBlock (m : Memory) (a d : ℕ) (out : ℕ → BitVec 8) : Memory := fun x =>
  if a ≤ x ∧ x < a + d then out (x - a) else m x

/-- `n` blocks of `d` bytes from `a` on; block `j` holds `out j 0, …, out j (d - 1)`. -/
def writeBlocks (m : Memory) (a d n : ℕ) (out : ℕ → ℕ → BitVec 8) : Memory := fun x =>
  if a ≤ x ∧ x < a + n * d then out ((x - a) / d) ((x - a) % d) else m x

theorem writeBlock_of_lt {m : Memory} {a d i : ℕ} {out : ℕ → BitVec 8} (hi : i < d) :
    writeBlock m a d out (a + i) = out i := by
  rw [writeBlock, if_pos (by omega), Nat.add_sub_cancel_left]

theorem writeBlock_of_notMem {m : Memory} {a d x : ℕ} {out : ℕ → BitVec 8}
    (hx : x < a ∨ a + d ≤ x) : writeBlock m a d out x = m x := by
  rw [writeBlock, if_neg (by omega)]

theorem writeBlock_zero (m : Memory) (a : ℕ) (out : ℕ → BitVec 8) : writeBlock m a 0 out = m := by
  funext x
  rw [writeBlock, if_neg (by omega)]

theorem writeBlock_congr {m : Memory} {a d : ℕ} {out out' : ℕ → BitVec 8}
    (h : ∀ i, i < d → out i = out' i) : writeBlock m a d out = writeBlock m a d out' := by
  funext x
  simp only [writeBlock]
  split
  · next hx => exact h _ (by omega)
  · rfl

/-- **Two blocks, one behind the other**, are one block. -/
theorem writeBlock_append (m : Memory) (a : ℕ) {k l : ℕ} {out out' : ℕ → BitVec 8}
    (h : ∀ i, i < l → out' i = out (k + i)) :
    writeBlock (writeBlock m a k out) (a + k) l out' = writeBlock m a (k + l) out := by
  funext x
  simp only [writeBlock]
  by_cases hx : a + k ≤ x ∧ x < a + k + l
  · rw [if_pos hx, if_pos (by omega), h _ (by omega), show k + (x - (a + k)) = x - a by omega]
  · rw [if_neg hx]
    by_cases hin : a ≤ x ∧ x < a + k
    · rw [if_pos hin, if_pos (by omega)]
    · rw [if_neg hin, if_neg (by omega)]

theorem writeBlocks_of_notMem {m : Memory} {a d n x : ℕ} {out : ℕ → ℕ → BitVec 8}
    (h : x < a ∨ a + n * d ≤ x) : writeBlocks m a d n out x = m x := by
  unfold writeBlocks
  rw [if_neg (by omega)]

theorem add_mul_lt {j n d i : ℕ} (hj : j < n) (hi : i < d) : j * d + i < n * d := by
  have h : (j + 1) * d ≤ n * d := Nat.mul_le_mul_right d hj
  rw [Nat.add_mul, Nat.one_mul] at h
  omega

theorem writeBlocks_of_lt {m : Memory} {a d n j i : ℕ} {out : ℕ → ℕ → BitVec 8} (hj : j < n)
    (hi : i < d) : writeBlocks m a d n out (a + j * d + i) = out j i := by
  have hlt := add_mul_lt hj hi
  unfold writeBlocks
  rw [if_pos (by omega), show a + j * d + i - a = i + d * j by rw [Nat.mul_comm]; omega,
    Nat.add_mul_div_left _ _ (by omega), Nat.div_eq_of_lt hi, Nat.zero_add,
    Nat.add_mul_mod_self_left, Nat.mod_eq_of_lt hi]

theorem writeBlocks_succ (m : Memory) (a d n : ℕ) (out : ℕ → ℕ → BitVec 8) :
    writeBlocks m a d (n + 1) out
      = writeBlock (writeBlocks m a d n out) (a + n * d) d (out n) := by
  funext x
  rw [writeBlock]
  have hsucc : (n + 1) * d = n * d + d := by rw [Nat.add_mul, Nat.one_mul]
  by_cases hx : a + n * d ≤ x ∧ x < a + n * d + d
  · rw [if_pos hx, show x = a + n * d + (x - (a + n * d)) by omega,
      writeBlocks_of_lt (Nat.lt_succ_self n) (by omega), Nat.add_sub_cancel_left]
  · rw [if_neg hx, writeBlocks, writeBlocks]
    by_cases hin : a ≤ x ∧ x < a + n * d
    · rw [if_pos hin, if_pos (by omega)]
    · rw [if_neg hin, if_neg (by omega)]

/-- **Blocks written in two parts**: the first `b` blocks are in place, and the
rest is written behind them. -/
theorem writeBlocks_add {m m' : Memory} {a d b n x : ℕ} {out out' : ℕ → ℕ → BitVec 8}
    (hfirst : x < a + b * d → m' x = writeBlocks m a d b out x)
    (hout : ∀ j i, j < n → i < d → out' j i = out (b + j) i)
    (hx : a ≤ x ∧ x < a + (b + n) * d) :
    writeBlocks m' (a + b * d) d n out' x = writeBlocks m a d (b + n) out x := by
  have hsum : (b + n) * d = b * d + n * d := Nat.add_mul b n d
  rcases Nat.lt_or_ge x (a + b * d) with hlt | hge
  · rw [writeBlocks_of_notMem (Or.inl hlt), hfirst hlt, writeBlocks, writeBlocks,
      if_pos (by omega), if_pos hx]
  · obtain ⟨t, rfl⟩ := Nat.exists_eq_add_of_le hge
    have hd : 0 < d := by
      rcases Nat.eq_zero_or_pos d with rfl | hd
      · omega
      · exact hd
    have hj : t / d < n := Nat.div_lt_of_lt_mul (by rw [Nat.mul_comm]; omega)
    have hi : t % d < d := Nat.mod_lt t hd
    have ht : t = t / d * d + t % d := by rw [Nat.mul_comm]; exact (Nat.div_add_mod t d).symm
    have hsplit : a + b * d + t = a + (b + t / d) * d + t % d := by
      rw [Nat.add_mul]
      omega
    have hleft : writeBlocks m' (a + b * d) d n out' (a + b * d + t) = out' (t / d) (t % d) := by
      rw [show a + b * d + t = a + b * d + t / d * d + t % d by omega]
      exact writeBlocks_of_lt hj hi
    rw [hleft, hsplit, writeBlocks_of_lt (by omega) hi, hout _ _ hj hi]

theorem writeBlocks_congr {m m' : Memory} {a d n x : ℕ} {out out' : ℕ → ℕ → BitVec 8}
    (hm : m x = m' x) (hout : ∀ j i, j < n → i < d → out j i = out' j i) :
    writeBlocks m a d n out x = writeBlocks m' a d n out' x := by
  unfold writeBlocks
  split
  · next hx =>
    have hlt : x - a < n * d := by omega
    have hd : 0 < d := Nat.pos_of_lt_mul_left hlt
    exact hout _ _ (Nat.div_lt_of_lt_mul (by rw [Nat.mul_comm]; exact hlt)) (Nat.mod_lt _ hd)
  · exact hm

/-! ### Misplaced blocks -/

/-- Byte `p` of a sequence of blocks of `d` bytes. -/
def blockByte (out : ℕ → ℕ → BitVec 8) (d p : ℕ) : BitVec 8 := out (p / d) (p % d)

/-- Of `b + r` blocks, the last `r` are written from offset `c` on, rather than
behind the first `b`.  The bytes come out right by coincidence: those that are
covered equal those meant for there, and those that are missed were right before. -/
def Coincide (m : Memory) (a d b r c : ℕ) (out : ℕ → ℕ → BitVec 8) : Prop :=
  (∀ t, t < r * d → c + t < (b + r) * d → blockByte out d (b * d + t) = blockByte out d (c + t))
    ∧ ∀ p, b * d ≤ p → p < (b + r) * d → (p < c ∨ c + r * d ≤ p) → m (a + p) = blockByte out d p

theorem writeBlocks_blockByte {m : Memory} {a d n p : ℕ} {out : ℕ → ℕ → BitVec 8}
    (hp : p < n * d) : writeBlocks m a d n out (a + p) = blockByte out d p := by
  unfold writeBlocks blockByte
  rw [if_pos (by omega), Nat.add_sub_cancel_left]

/-- Shifting the blocks shifts the bytes. -/
theorem blockByte_add {out : ℕ → ℕ → BitVec 8} {d : ℕ} (hd : 0 < d) (b t : ℕ) :
    blockByte (fun j => out (b + j)) d t = blockByte out d (b * d + t) := by
  unfold blockByte
  rw [Nat.add_comm (b * d) t, Nat.add_mul_div_right _ _ hd, Nat.add_mul_mod_self_right,
    Nat.add_comm (t / d) b]

/-- **Misplaced blocks leave the right bytes exactly when they coincide.** -/
theorem writeBlocks_misplaced_iff {m : Memory} {a d b r c : ℕ} {out : ℕ → ℕ → BitVec 8}
    (hd : 0 < d) :
    (∀ p, p < (b + r) * d →
      writeBlocks (writeBlocks m a d b out) (a + c) d r (fun j => out (b + j)) (a + p)
        = writeBlocks m a d (b + r) out (a + p)) ↔ Coincide m a d b r c out := by
  have hsum : (b + r) * d = b * d + r * d := Nat.add_mul b r d
  -- a byte the misplaced blocks cover, and one they miss
  have hcover : ∀ t, t < r * d →
      writeBlocks (writeBlocks m a d b out) (a + c) d r (fun j => out (b + j)) (a + (c + t))
        = blockByte out d (b * d + t) := by
    intro t ht
    rw [← Nat.add_assoc, writeBlocks_blockByte ht, blockByte_add hd]
  have hmiss : ∀ p, p < c ∨ c + r * d ≤ p →
      writeBlocks (writeBlocks m a d b out) (a + c) d r (fun j => out (b + j)) (a + p)
        = writeBlocks m a d b out (a + p) := by
    intro p hp
    exact writeBlocks_of_notMem (by omega)
  constructor
  · intro h
    constructor
    · intro t ht hct
      rw [← hcover t ht, h _ hct, writeBlocks_blockByte hct]
    · intro p hbp hp hout
      have hbyte := h p hp
      rwa [hmiss p hout, writeBlocks_of_notMem (by omega), writeBlocks_blockByte hp] at hbyte
  · rintro ⟨hcovered, hmissed⟩ p hp
    rw [writeBlocks_blockByte hp]
    by_cases hin : c ≤ p ∧ p < c + r * d
    · obtain ⟨t, rfl⟩ := Nat.exists_eq_add_of_le hin.1
      rw [hcover t (by omega), hcovered t (by omega) hp]
    · rw [hmiss p (by omega)]
      rcases Nat.lt_or_ge p (b * d) with hlt | hge
      · exact writeBlocks_blockByte hlt
      · rw [writeBlocks_of_notMem (by omega)]
        exact hmissed p hge hp (by omega)

/-- In place, blocks coincide. -/
theorem coincide_of_eq (m : Memory) (a d b r : ℕ) (out : ℕ → ℕ → BitVec 8) :
    Coincide m a d b r (b * d) out := by
  have hsum : (b + r) * d = b * d + r * d := Nat.add_mul b r d
  refine ⟨fun _ _ _ => rfl, fun p hbp hp hout => ?_⟩
  omega

/-- So does the empty rest. -/
theorem coincide_of_none (m : Memory) (a d b c : ℕ) (out : ℕ → ℕ → BitVec 8) :
    Coincide m a d b 0 c out := by
  refine ⟨fun t ht => ?_, fun p hbp hp => ?_⟩
  · omega
  · rw [Nat.add_zero] at hp
    omega

/-- The blocks written so far are not in a source that is apart from them. -/
theorem source_unchanged {m t : Memory} {src dst c d n j i : ℕ}
    (hap : Region.Apart ⟨src, n * c⟩ ⟨dst, n * d⟩)
    (ht : ∀ x, x < dst ∨ dst + n * d ≤ x → t x = m x) (hj : j < n) (hi : i < c) :
    t (src + j * c + i) = m (src + j * c + i) := by
  have hlt := add_mul_lt hj hi
  refine ht _ ?_
  unfold Region.Apart at hap
  simp only at hap
  omega

/-- **A loop that writes block `j` in iteration `j`.**  Each iteration may read
the memory, but only where the blocks do not reach. -/
theorem iter_writeBlock {m : Memory} {a d n : ℕ} {out : ℕ → ℕ → BitVec 8}
    {body : ℕ → Memory → Memory}
    (h : ∀ j t, j < n → (∀ x, x < a ∨ a + n * d ≤ x → t x = m x) →
      body j t = writeBlock t (a + j * d) d (out j)) :
    Loop.iter body n m = writeBlocks m a d n out := by
  have key : ∀ k, k ≤ n → Loop.iter body k m = writeBlocks m a d k out := by
    intro k
    induction k with
    | zero => intro _; funext x; rw [Loop.iter_zero, writeBlocks_of_notMem (by omega)]
    | succ k ih =>
      intro hk
      have hmono : k * d ≤ n * d := Nat.mul_le_mul_right d (by omega)
      rw [Loop.iter_succ, ih (by omega), writeBlocks_succ]
      refine h k _ hk fun x hx => writeBlocks_of_notMem ?_
      omega
  exact key n le_rfl

end ByteMemory
