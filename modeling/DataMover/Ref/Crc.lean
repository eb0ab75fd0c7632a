import DataMover.Lib.Loop
import DataMover.Lib.Memory

/-!
# Reference CRC-32

The bitwise CRC of `sw_dispatcher/ref/crc.c`, one byte at a time over a 32-bit
register, with the data byte either as it is or bit-reversed.

## Main results

* `dmlRefCrc32u_add`, `dmlRefCrcReflectedU32_add` — the register after `k + n`
  bytes is the register after the last `n` bytes started from the register after
  the first `k`.
-/

namespace DataMover

open ByteMemory

/-- `reverse`: the bits of a byte in the opposite order. -/
def reverse8 (byte : BitVec 8) : BitVec 8 :=
  let byte := ((byte &&& 0x55#8) <<< 1) ||| ((byte &&& 0xAA#8) >>> 1)
  let byte := ((byte &&& 0x33#8) <<< 2) ||| ((byte &&& 0xCC#8) >>> 2)
  ((byte &&& 0x0F#8) <<< 4) ||| ((byte &&& 0xF0#8) >>> 4)

/-- One bit of the CRC register. -/
def crc32Bit (polynomial crcValue : BitVec 32) : BitVec 32 :=
  if crcValue &&& 0x80000000#32 ≠ 0#32 then (crcValue <<< 1) ^^^ polynomial else crcValue <<< 1

/-- `calculate_crc_32u`: one data byte. -/
def calculateCrc32u (crcValue : BitVec 32) (data : BitVec 8) (polynomial : BitVec 32) :
    BitVec 32 :=
  Loop.iter (fun _ crcValue => crc32Bit polynomial crcValue) 8
    (crcValue ^^^ (data.setWidth 32 <<< 24))

/-- `dml_ref_crc_32u`: the bytes most significant bit first. -/
def dmlRefCrc32u (m : Memory) (src transferSize : ℕ) (crcValue polynomial : BitVec 32) :
    BitVec 32 :=
  Loop.iter (fun byte crcValue => calculateCrc32u crcValue (m (src + byte)) polynomial)
    transferSize crcValue

/-- `dml_ref_crc_reflected_u32`: the bytes least significant bit first. -/
def dmlRefCrcReflectedU32 (m : Memory) (src transferSize : ℕ) (crcValue polynomial : BitVec 32) :
    BitVec 32 :=
  Loop.iter (fun byte crcValue => calculateCrc32u crcValue (reverse8 (m (src + byte))) polynomial)
    transferSize crcValue

/-- The polynomial of the dispatcher, CRC-32C without its leading term. -/
def crcPolynomial : BitVec 32 := 0x1EDC6F41#32

/-! ### Splitting the data -/

theorem dmlRefCrc32u_add (m : Memory) (src k n : ℕ) (crcValue polynomial : BitVec 32) :
    dmlRefCrc32u m src (k + n) crcValue polynomial
      = dmlRefCrc32u m (src + k) n (dmlRefCrc32u m src k crcValue polynomial) polynomial := by
  unfold dmlRefCrc32u
  rw [Loop.iter_add]
  simp only [Nat.add_assoc]

theorem dmlRefCrcReflectedU32_add (m : Memory) (src k n : ℕ) (crcValue polynomial : BitVec 32) :
    dmlRefCrcReflectedU32 m src (k + n) crcValue polynomial
      = dmlRefCrcReflectedU32 m (src + k) n
          (dmlRefCrcReflectedU32 m src k crcValue polynomial) polynomial := by
  unfold dmlRefCrcReflectedU32
  rw [Loop.iter_add]
  simp only [Nat.add_assoc]

/-- The CRC reads its source bytes only. -/
theorem dmlRefCrc32u_congr {m m' : Memory} {src n : ℕ}
    (h : ∀ i, i < n → m (src + i) = m' (src + i)) (crcValue polynomial : BitVec 32) :
    dmlRefCrc32u m src n crcValue polynomial = dmlRefCrc32u m' src n crcValue polynomial := by
  refine Loop.iter_congr (fun i hi => ?_) crcValue
  rw [h i hi]

theorem dmlRefCrcReflectedU32_congr {m m' : Memory} {src n : ℕ}
    (h : ∀ i, i < n → m (src + i) = m' (src + i)) (crcValue polynomial : BitVec 32) :
    dmlRefCrcReflectedU32 m src n crcValue polynomial
      = dmlRefCrcReflectedU32 m' src n crcValue polynomial := by
  refine Loop.iter_congr (fun i hi => ?_) crcValue
  rw [h i hi]

/-! ### The inversion and reflection around the register -/

/-- `reverse` of the kernels: the bits of a 32-bit value in the opposite order. -/
def reverse32 (value : BitVec 32) : BitVec 32 :=
  let value := (value &&& 0x55555555#32) <<< 1 ||| (value &&& 0xAAAAAAAA#32) >>> 1
  let value := (value &&& 0x33333333#32) <<< 2 ||| (value &&& 0xCCCCCCCC#32) >>> 2
  let value := (value &&& 0x0F0F0F0F#32) <<< 4 ||| (value &&& 0xF0F0F0F0#32) >>> 4
  let value := (value &&& 0x00FF00FF#32) <<< 8 ||| (value &&& 0xFF00FF00#32) >>> 8
  (value &&& 0x0000FFFF#32) <<< 16 ||| (value &&& 0xFFFF0000#32) >>> 16

/-- Where a swap of neighbouring groups of `k` bits takes bit `i` from. -/
def swapAt (k i : ℕ) : ℕ := if i / k % 2 = 0 then i + k else i - k

/-- The groups of the swaps. -/
def SwapWidth (k : ℕ) : Prop := k = 1 ∨ k = 2 ∨ k = 4 ∨ k = 8 ∨ k = 16

theorem swapAt_lt {k i : ℕ} (hk : SwapWidth k) (hi : i < 32) : swapAt k i < 32 := by
  unfold swapAt
  rcases hk with rfl | rfl | rfl | rfl | rfl <;> split <;> omega

/-- **One swap**: `lo` masks the lower of two neighbouring groups, `hi` the upper. -/
theorem getLsbD_swap (value : BitVec 32) {lo hi : BitVec 32} {k i : ℕ} (hk : SwapWidth k)
    (hlo : ∀ j < 32, lo.getLsbD j = decide (j / k % 2 = 0))
    (hhi : ∀ j < 32, hi.getLsbD j = decide (j / k % 2 = 1)) (hi32 : i < 32) :
    ((value &&& lo) <<< k ||| (value &&& hi) >>> k).getLsbD i = value.getLsbD (swapAt k i) := by
  rw [BitVec.getLsbD_or, BitVec.getLsbD_shiftLeft, BitVec.getLsbD_ushiftRight, BitVec.getLsbD_and,
    BitVec.getLsbD_and, hlo (i - k) (by omega), decide_eq_true hi32, swapAt]
  by_cases h : i / k % 2 = 0
  · -- a bit of the lower group comes from above
    have hup : k + i < 32 ∧ (k + i) / k % 2 = 1 ∧ (i < k ∨ (i - k) / k % 2 = 1) := by
      rcases hk with rfl | rfl | rfl | rfl | rfl <;> omega
    obtain ⟨hlt, hset, hlow⟩ := hup
    rw [if_pos h, hhi _ hlt, decide_eq_true hset, Nat.add_comm k]
    rcases hlow with hlow | hlow <;> simp [hlow]
  · have hdown : k ≤ i ∧ (i - k) / k % 2 = 0 ∧ (32 ≤ k + i ∨ (k + i) / k % 2 = 0) := by
      rcases hk with rfl | rfl | rfl | rfl | rfl <;> omega
    obtain ⟨hle, hclear, hhigh⟩ := hdown
    rw [if_neg h, hclear]
    rcases Nat.lt_or_ge (k + i) 32 with hlt | hge
    · simp [hhi _ hlt, show (k + i) / k % 2 = 0 by omega, show ¬ i < k by omega]
    · rw [BitVec.getLsbD_of_ge value _ hge]
      simp [show ¬ i < k by omega]

theorem swapAt_all :
    ∀ i < 32, swapAt 1 (swapAt 2 (swapAt 4 (swapAt 8 (swapAt 16 i)))) = 31 - i := by
  decide

/-- The five swaps put bit `i` at position `31 - i`. -/
theorem getLsbD_reverse32 (value : BitVec 32) {i : ℕ} (hi : i < 32) :
    (reverse32 value).getLsbD i = value.getLsbD (31 - i) := by
  have h16 : SwapWidth 16 := by unfold SwapWidth; omega
  have h8 : SwapWidth 8 := by unfold SwapWidth; omega
  have h4 : SwapWidth 4 := by unfold SwapWidth; omega
  have h2 : SwapWidth 2 := by unfold SwapWidth; omega
  have h1 : SwapWidth 1 := by unfold SwapWidth; omega
  have hi16 := swapAt_lt h16 hi
  have hi8 := swapAt_lt h8 hi16
  have hi4 := swapAt_lt h4 hi8
  have hi2 := swapAt_lt h2 hi4
  simp only [reverse32]
  rw [getLsbD_swap _ h16 (by decide) (by decide) hi, getLsbD_swap _ h8 (by decide) (by decide) hi16,
    getLsbD_swap _ h4 (by decide) (by decide) hi8, getLsbD_swap _ h2 (by decide) (by decide) hi4,
    getLsbD_swap _ h1 (by decide) (by decide) hi2, swapAt_all i hi]

/-- **Reversing twice is the identity.** -/
@[simp] theorem reverse32_reverse32 (value : BitVec 32) : reverse32 (reverse32 value) = value := by
  apply BitVec.eq_of_getLsbD_eq
  intro i hi
  rw [getLsbD_reverse32 _ hi, getLsbD_reverse32 _ (by omega)]
  congr 1
  omega

end DataMover
