import DataMover.Lib.SimdCompare
import DataMover.Ref.Compare

/-!
# The vector kernel of the pattern comparison

`dml_avx512_compare_pattern` of `sw_dispatcher/avx512/compare_pattern.c`, in three stages:
registers of eight chunks of 8 bytes, one load under a mask of the chunks left, and the bytes
left, one by one, against a pattern that is shifted along.  The first two report a chunk, eight
times its index; the last reports a byte.

## Main definitions

* `dmlAvx512ComparePattern` — the kernel.

## Main results

* `dmlAvx512ComparePattern_window` — the kernel returns what the reference kernel returns.
* `dmlRefComparePattern_answer` — and what that says about the buffer.
-/

namespace DataMover

open ByteMemory Simd

/-! ### The kernel -/

/-- The test of the vector loop, in 32 bits. -/
def comparePatternCond (patternChunkCount i : ℕ) : Bool :=
  decide ((i + 8) % 2 ^ 32 ≤ patternChunkCount)

/-- What a mask of differing chunks from `i` on makes the kernel return, if anything. -/
def returnAtChunk (i : ℕ) (msk8 : BitVec 8) : Option (ℕ × ℕ) :=
  if msk8 ≠ 0#8 then some ((i + tzcnt (msk8.setWidth 32)) * 8 % 2 ^ 32, resultNotEqual) else none

/-- The body of the vector loop. -/
def comparePatternBody (pattern : BitVec 64) (src : Buffer) (i : ℕ) :
    Option (Except (ℕ × ℕ) ℕ) := do
  let a ← loadu src (8 * i)
  match returnAtChunk i (cmpneqMask 8 8 a (mm512Set1Epi64 pattern)) with
  | some answer => some (.error answer)
  | none => some (.ok ((i + 8) % 2 ^ 32))

/-- The chunks left: a load, and a comparison, under a mask. -/
def comparePatternPartial (pattern : BitVec 64) (src : Buffer) (patternChunkCount i : ℕ) :
    Option (Option (ℕ × ℕ)) :=
  let tail := patternChunkCount % 8
  if tail ≠ 0 then do
    let msk8 := ((1#32 <<< tail) - 1#32).setWidth 8
    let a ← maskzLoadu 8 msk8 src (8 * i)
    some (returnAtChunk i (msk8 &&& cmpneqMask 8 8 a (mm512Set1Epi64 pattern)))
  else some none

/-- The body of the loop over the bytes left, which start at `tail`.  A read outside the
buffer is returned like an answer. -/
def patternTailBody (src : Buffer) (patternChunkCount tail i : ℕ) (bytePattern : BitVec 64) :
    Except (Option (ℕ × ℕ)) (BitVec 64) :=
  match src (tail + i) with
  | some x =>
    if x != bytePattern.setWidth 8 then
      .error (some ((patternChunkCount * 8 + i) % 2 ^ 32, resultNotEqual))
    else .ok (bytePattern >>> 8)
  | none => .error none

/-- `if (tail_bytes_count)`, to the end of the function. -/
def comparePatternTail (pattern : BitVec 64) (src : Buffer) (transferSize patternChunkCount : ℕ) :
    Option (ℕ × ℕ) :=
  let tailBytesCount := transferSize % 8
  match Loop.iterUntil (patternTailBody src patternChunkCount (transferSize - tailBytesCount))
      tailBytesCount pattern with
  | .error answer => answer
  | .ok _ => some (0, resultEqual)

/-- `dml_avx512_compare_pattern`: the offset and the result.  A read outside the buffer has no
result, nor has a loop that does not end within `fuel` iterations. -/
def dmlAvx512ComparePattern (fuel : ℕ) (pattern : BitVec 64) (src : Buffer) (transferSize : ℕ) :
    Option (ℕ × ℕ) := do
  let patternChunkCount := transferSize / 8
  match ← Loop.whileUntil (comparePatternCond patternChunkCount) (comparePatternBody pattern src)
      fuel 0 with
  | .error answer => some answer
  | .ok i =>
    match ← comparePatternPartial pattern src patternChunkCount i with
    | some answer => some answer
    | none => comparePatternTail pattern src transferSize patternChunkCount

/-! ### One register of chunks -/

/-- Chunk `c` of the buffer is not the pattern. -/
def chunkDiffers (m : Memory) (pattern : BitVec 64) (src c : ℕ) : Bool :=
  load m (src + 8 * c) 8 != pattern.toNat

theorem byte_mm512Set1Epi64_chunk (pattern : BitVec 64) {j t : ℕ} (hj : j < 8) (ht : t < 8) :
    byte (mm512Set1Epi64 pattern) (8 * j + t) = byteAt pattern.toNat t := by
  rw [mm512Set1Epi64, byte_set1Epi64 pattern (by omega), byteAt_toNat,
    show (8 * j + t) % 8 = t by omega]

/-- **The mask of differing chunks**, for a register that holds the chunks from `i` on in its
first `w` lanes. -/
theorem tells_chunks {m : Memory} {pattern : BitVec 64} {src i w : ℕ} {a : BitVec 512}
    {msk8 : BitVec 8} (hmask : ∀ j, msk8.getLsbD j = decide (j < w))
    (ha : ∀ k, k < 64 → byte a k = if k / 8 < w then m (src + (8 * i + k)) else 0#8) :
    Tells (msk8 &&& cmpneqMask 8 8 a (mm512Set1Epi64 pattern))
      (fun j => chunkDiffers m pattern src (i + j)) w := by
  intro j hj
  have hdiffers : chunkDiffers m pattern src (i + j) = true ↔
      ∃ t, t < 8 ∧ m (src + 8 * (i + j) + t) ≠ byteAt pattern.toNat t := by
    unfold chunkDiffers
    rw [bne_iff_ne, ne_eq, load_ne_pattern_iff pattern.isLt]
    simp only [not_forall, exists_prop, ne_eq]
  rw [BitVec.getLsbD_and, Bool.and_eq_true, hmask, decide_eq_true_eq, getLsbD_cmpneqMask _ _ hj,
    hdiffers]
  refine and_congr_right fun hw => exists_congr fun t => and_congr_right fun ht => ?_
  rw [ha _ (by omega), if_pos (by omega), byte_mm512Set1Epi64_chunk pattern hj ht,
    show src + (8 * i + (8 * j + t)) = src + 8 * (i + j) + t by omega]

/-- **What a mask of differing chunks returns**: the first of them. -/
theorem returnAtChunk_eq {p : ℕ → Bool} {i w : ℕ} {msk8 : BitVec 8} (hw : w ≤ 8)
    (h : Tells msk8 p w) :
    returnAtChunk i msk8
      = (Loop.search p w).map fun j => ((i + j) * 8 % 2 ^ 32, resultNotEqual) := by
  rw [h.search_eq hw, returnAtChunk]
  by_cases hzero : msk8 = 0#8
  · rw [if_neg (not_not_intro hzero), if_neg (not_not_intro hzero)]
    rfl
  · rw [if_pos hzero, if_pos hzero, tzcnt_setWidth (by decide) hzero]
    rfl

/-- **One register of the loop**: what it returns is the first differing chunk of its eight. -/
theorem comparePatternBody_window {m : Memory} {pattern : BitVec 64} {src n i : ℕ}
    (hi : 8 * (i + 8) ≤ n) :
    comparePatternBody pattern (window m src n) i
      = match Loop.search (fun j => chunkDiffers m pattern src (i + j)) 8 with
        | some j => some (.error ((i + j) * 8 % 2 ^ 32, resultNotEqual))
        | none => some (.ok ((i + 8) % 2 ^ 32)) := by
  obtain ⟨a, hload, ha⟩ := loadu_eq (b := window m src n) (a := 8 * i)
    fun j hj => window_of_lt m src (show 8 * i + j < n by omega)
  have htells : Tells (BitVec.allOnes 8 &&& cmpneqMask 8 8 a (mm512Set1Epi64 pattern))
      (fun j => chunkDiffers m pattern src (i + j)) 8 :=
    tells_chunks (fun j => BitVec.getLsbD_allOnes) fun k hk => by
      rw [ha k hk, if_pos (by omega)]
  rw [BitVec.allOnes_and] at htells
  simp only [comparePatternBody, hload, Option.bind_eq_bind, Option.bind_some,
    returnAtChunk_eq (Nat.le_refl 8) htells]
  cases Loop.search (fun j => chunkDiffers m pattern src (i + j)) 8 <;> rfl

/-- **The chunks left**: the first that differs, if there is one. -/
theorem comparePatternPartial_window {m : Memory} {pattern : BitVec 64} {src n c i : ℕ}
    (hi : i + c % 8 = c) (hc : 8 * c ≤ n) :
    comparePatternPartial pattern (window m src n) c i
      = some ((Loop.search (fun j => chunkDiffers m pattern src (i + j)) (c % 8)).map
          fun j => ((i + j) * 8 % 2 ^ 32, resultNotEqual)) := by
  have htail : c % 8 < 8 := Nat.mod_lt c (by decide)
  have hmask : ∀ j, (((1#32 <<< (c % 8)) - 1#32).setWidth 8).getLsbD j = decide (j < c % 8) := by
    intro j
    rw [BitVec.getLsbD_setWidth, getLsbD_oneShiftSub (by omega), ← Bool.decide_and]
    exact decide_eq_decide.mpr (by omega)
  have hread : ∀ k, (((1#32 <<< (c % 8)) - 1#32).setWidth 8).getLsbD (k / 8) = true →
      8 * i + k < n := by
    intro k hk
    rw [hmask, decide_eq_true_eq] at hk
    omega
  obtain ⟨a, hload, ha⟩ := maskzLoadu_eq (w := 8) (b := window m src n) (a := 8 * i)
    fun k _ hk => window_of_lt m src (hread k hk)
  simp only [hmask, decide_eq_true_eq] at ha
  unfold comparePatternPartial
  simp only
  split
  · rw [hload]
    simp only [Option.bind_eq_bind, Option.bind_some,
      returnAtChunk_eq (Nat.le_of_lt htail) (tells_chunks hmask ha)]
  · next hzero =>
    rw [not_not.mp hzero]
    rfl

/-! ### The bytes left -/

/-- The pattern after `i` shifts: its low byte is byte `i`. -/
theorem setWidth_shifted (pattern : BitVec 64) (i : ℕ) :
    (pattern >>> (8 * i)).setWidth 8 = byteAt pattern.toNat i := by
  apply BitVec.eq_of_getLsbD_eq
  intro j hj
  rw [byteAt_toNat, getLsbD_byte, BitVec.getLsbD_setWidth, BitVec.getLsbD_ushiftRight]

/-- **The bytes left**: the first that differs from the pattern's. -/
theorem comparePatternTail_window (m : Memory) (pattern : BitVec 64) (src n : ℕ) :
    comparePatternTail pattern (window m src n) n (n / 8)
      = match Loop.search (fun i => m (src + 8 * (n / 8) + i) != byteAt pattern.toNat i)
            (n % 8) with
        | some i => some ((8 * (n / 8) + i) % 2 ^ 32, resultNotEqual)
        | none => some (0, resultEqual) := by
  have hbody : ∀ i, i < n % 8 →
      patternTailBody (window m src n) (n / 8) (n - n % 8) i (pattern >>> (8 * i))
        = if m (src + 8 * (n / 8) + i) != byteAt pattern.toNat i then
            .error (some ((8 * (n / 8) + i) % 2 ^ 32, resultNotEqual))
          else .ok (pattern >>> (8 * (i + 1))) := by
    intro i hi
    have hread : window m src n (n - n % 8 + i) = some (m (src + 8 * (n / 8) + i)) := by
      rw [window_of_lt m src (by omega),
        show src + (n - n % 8 + i) = src + 8 * (n / 8) + i by omega]
    unfold patternTailBody
    rw [hread, setWidth_shifted, Nat.mul_comm (n / 8), Nat.mul_succ, BitVec.shiftRight_add]
  have hloop := @Loop.iterUntil_eq_search _ _ _ _
    (fun i => some ((8 * (n / 8) + i) % 2 ^ 32, resultNotEqual)) (fun i => pattern >>> (8 * i)) _
    hbody
  rw [Nat.mul_zero, BitVec.ushiftRight_zero] at hloop
  unfold comparePatternTail
  simp only
  rw [hloop]
  cases Loop.search (fun i => m (src + 8 * (n / 8) + i) != byteAt pattern.toNat i) (n % 8) <;> rfl

/-! ### The whole kernel -/

/-- **The kernel returns what the reference kernel returns**, and reads nothing outside the
buffer. -/
theorem dmlAvx512ComparePattern_window {m : Memory} {pattern : BitVec 64} {src n fuel : ℕ}
    (hn : n < 2 ^ 32) (hfuel : n < fuel) :
    dmlAvx512ComparePattern fuel pattern (window m src n) n
      = some (dmlRefComparePattern m pattern.toNat src n) := by
  have hcond : ∀ i, Loop.MissedSoFar (chunkDiffers m pattern src) 8 (n / 8) i →
      comparePatternCond (n / 8) i = decide (i + 8 ≤ n / 8) := by
    intro i hI
    have hle := hI.le
    rw [comparePatternCond, Nat.mod_eq_of_lt (by omega)]
  have hbody : ∀ i, 8 ∣ i → i + 8 ≤ n / 8 → comparePatternBody pattern (window m src n) i
      = match Loop.search (fun j => chunkDiffers m pattern src (i + j)) 8 with
        | some j => some (.error ((i + j) * 8 % 2 ^ 32, resultNotEqual))
        | none => some (.ok (i + 8)) := by
    intro i _ hi
    rw [comparePatternBody_window (by omega), Nat.mod_eq_of_lt (show i + 8 < 2 ^ 32 by omega)]
  have hloop := @Loop.whileUntil_searchBlocks _ _ (fun i => (i * 8 % 2 ^ 32, resultNotEqual)) _ _
    (by decide) _ _ hcond hbody fuel (by omega)
  have hsplit : 8 * (n / 8 / 8) + n / 8 % 8 = n / 8 := Nat.div_add_mod (n / 8) 8
  unfold dmlAvx512ComparePattern dmlRefComparePattern
  simp only [hloop]
  cases hhead : Loop.search (chunkDiffers m pattern src) (8 * (n / 8 / 8)) with
  | some c =>
    -- the registers hold the first differing chunk
    have hsearch := Loop.search_of_le hhead (Nat.mul_div_le (n / 8) 8)
    unfold chunkDiffers at hsearch
    rw [hsearch]
    rfl
  | none =>
    have hsearch := Loop.search_add (Loop.search_eq_none.mp hhead) (n / 8 % 8)
    rw [hsplit] at hsearch
    simp only [Option.bind_eq_bind, Option.bind_some,
      comparePatternPartial_window hsplit (show 8 * (n / 8) ≤ n by omega)]
    cases hmasked : Loop.search (fun j => chunkDiffers m pattern src (8 * (n / 8 / 8) + j))
        (n / 8 % 8) with
    | some c =>
      -- the partial register does
      rw [hmasked, Option.map_some] at hsearch
      unfold chunkDiffers at hsearch
      rw [hsearch]
      rfl
    | none =>
      rw [hmasked, Option.map_none] at hsearch
      unfold chunkDiffers at hsearch
      rw [hsearch]
      simp only [Option.map_none, comparePatternTail_window]
      cases Loop.search (fun i => m (src + 8 * (n / 8) + i) != byteAt pattern.toNat i) (n % 8) <;>
        rfl

/-! ### What the answer says -/

/-- What a pattern comparison of `n` bytes answers: no difference, or a place that is not past
the first difference and lies in its chunk of 8 bytes. -/
def IsPatternComparison (m : Memory) (pattern : BitVec 64) (src n : ℕ) (answer : ℕ × ℕ) : Prop :=
  (answer.2 = resultEqual ∨ answer.2 = resultNotEqual) ∧
    (answer.2 = resultEqual ↔ ∀ j, j < n → m (src + j) = byte pattern (j % 8)) ∧
    (answer.2 = resultNotEqual → ∃ first, first < n ∧ m (src + first) ≠ byte pattern (first % 8) ∧
      (∀ j, j < first → m (src + j) = byte pattern (j % 8)) ∧
      answer.1 ≤ first ∧ answer.1 / 8 = first / 8)

/-- **The answer of the reference kernel.** -/
theorem dmlRefComparePattern_answer {m : Memory} {pattern : BitVec 64} {src n : ℕ}
    (hn : n < 2 ^ 32) :
    IsPatternComparison m pattern src n (dmlRefComparePattern m pattern.toNat src n) := by
  have hequal : ∀ j, differsFromPattern m pattern.toNat src j = false
      ↔ m (src + j) = byte pattern (j % 8) := by
    intro j
    rw [differsFromPattern, byteAt_toNat, bne_eq_false_iff_eq]
  rw [dmlRefComparePattern_eq pattern.isLt hn]
  cases hsearch : Loop.search (differsFromPattern m pattern.toNat src) n with
  | none =>
    have hall := Loop.search_eq_none.mp hsearch
    refine ⟨Or.inl rfl, ⟨fun _ j hj => (hequal j).mp (hall j hj), fun _ => rfl⟩, fun h => ?_⟩
    cases h
  | some first =>
    obtain ⟨hfirst, hdiff, hbefore⟩ := Loop.search_eq_some.mp hsearch
    have hne : m (src + first) ≠ byte pattern (first % 8) := by
      intro heq
      rw [(hequal first).mpr heq] at hdiff
      cases hdiff
    refine ⟨Or.inr rfl, ⟨fun h => ?_, fun h => absurd (h first hfirst) hne⟩, fun _ => ?_⟩
    · cases h
    · refine ⟨first, hfirst, hne, fun j hj => (hequal j).mp (hbefore j hj), chunkStart_le n first,
        ?_⟩
      simp only [chunkStart]
      split <;> omega

/-- **The vector pattern comparison is the reference one**, for every size of 32 bits. -/
theorem dmlAvx512ComparePattern_refines (m : Memory) (pattern : BitVec 64) (src : ℕ) {n : ℕ}
    (hn : n < 2 ^ 32) :
    ∃ answer, (∀ fuel, n < fuel →
        dmlAvx512ComparePattern fuel pattern (window m src n) n = some answer) ∧
      dmlRefComparePattern m pattern.toNat src n = answer ∧
      IsPatternComparison m pattern src n answer := by
  refine ⟨_, ?_, rfl, dmlRefComparePattern_answer hn⟩
  intro fuel hfuel
  exact dmlAvx512ComparePattern_window hn hfuel

theorem dmlAvx512ComparePattern_refines_77 :
    ∃ answer, (∀ fuel, 77 < fuel → dmlAvx512ComparePattern fuel 0x0706050403020100#64
        (window (fun a => BitVec.ofNat 8 (a % 8)) 0 77) 77 = some answer) ∧
      dmlRefComparePattern (fun a => BitVec.ofNat 8 (a % 8)) (0x0706050403020100#64).toNat 0 77
        = answer ∧
      IsPatternComparison (fun a => BitVec.ofNat 8 (a % 8)) 0x0706050403020100#64 0 77 answer :=
  dmlAvx512ComparePattern_refines _ _ 0 (by decide)

end DataMover
