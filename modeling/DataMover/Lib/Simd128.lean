import DataMover.Lib.Carryless
import DataMover.Lib.Simd

/-!
# Vector registers of 128 bits

The instructions a carry-less checksum is made of: loads, byte shuffles, shifts by whole
bytes, exclusive or and the carry-less product, on registers of 16 bytes.  What a shuffle
does is said byte by byte; what the others do is said of the polynomial of the register.

## Main definitions

* `mmLoaduSi128`, `mmMaskzLoaduEpi8`, `mmShuffleEpi8`, `mmBlendvEpi8`, `mmAlignrEpi8`,
  `mmSlliSi128`, `mmSrliSi128`, `mmSrliEpi16` — movements of bytes.
* `mmClmulepi64Si128` — the carry-less product of two halves.

## Main results

* `toPoly_of_bytes`, `toPoly_eq_message` — a register whose bytes are a sequence backwards
  is the message of the sequence.
* `mmClmul_lo_lo` and the like — the products that fold a register.
* `byte_reverse`, `reverse_mmAlignrEpi8` — a register with its bits in the opposite order.
-/

namespace Simd

open ByteMemory Carryless Polynomial

/-! ### Instructions -/

/-- The upper half of a register. -/
def hi64 (v : BitVec 128) : BitVec 64 := v.extractLsb' 64 64

/-- The lower half of a register. -/
def lo64 (v : BitVec 128) : BitVec 64 := v.extractLsb' 0 64

/-- `_mm_set_epi64x`. -/
def mmSetEpi64x (e1 e0 : BitVec 64) : BitVec 128 := e1 ++ e0

/-- `_mm_set_epi8`, the most significant byte first. -/
def mmSetEpi8 (bytes : List (BitVec 8)) : BitVec 128 := ofBytes 128 fun i => bytes.getD (15 - i) 0#8

/-- `_mm_set1_epi8`. -/
def mmSet1Epi8 (b : BitVec 8) : BitVec 128 := ofBytes 128 fun _ => b

/-- `_mm_cvtsi32_si128`. -/
def mmCvtsi32Si128 (a : BitVec 32) : BitVec 128 := a.setWidth 128

/-- `_mm_extract_epi32`. -/
def mmExtractEpi32 (a : BitVec 128) (imm : ℕ) : BitVec 32 := a.extractLsb' (32 * (imm % 4)) 32

/-- `_mm_loadu_si128`. -/
def mmLoaduSi128 (m : Memory) (a : ℕ) : BitVec 128 := ofBytes 128 fun i => m (a + i)

/-- `_mm_maskz_loadu_epi8`. -/
def mmMaskzLoaduEpi8 (mask : BitVec 16) (m : Memory) (a : ℕ) : BitVec 128 :=
  ofBytes 128 fun i => if mask.getLsbD i then m (a + i) else 0#8

/-- `_mm_slli_si128`: bytes to the left. -/
def mmSlliSi128 (a : BitVec 128) (imm : ℕ) : BitVec 128 := a <<< (8 * imm)

/-- `_mm_srli_si128`: bytes to the right. -/
def mmSrliSi128 (a : BitVec 128) (imm : ℕ) : BitVec 128 := a >>> (8 * imm)

/-- `_mm_alignr_epi8`: `a` above `b`, shifted right by bytes. -/
def mmAlignrEpi8 (a b : BitVec 128) (imm : ℕ) : BitVec 128 :=
  ((a ++ b) >>> (8 * imm)).extractLsb' 0 128

/-- `_mm_srli_epi16`: every word to the right by bits. -/
def mmSrliEpi16 (a : BitVec 128) (imm : ℕ) : BitVec 128 :=
  ofBytes 128 fun i => byte (word a (i / 2) >>> imm) (i % 2)

/-- `_mm_shuffle_epi8`: byte `i` of `b` selects a byte of `a`, or zero when its top bit is
set. -/
def mmShuffleEpi8 (a b : BitVec 128) : BitVec 128 :=
  ofBytes 128 fun i => if (byte b i).getLsbD 7 then 0#8 else byte a ((byte b i).toNat % 16)

/-- `_mm_blendv_epi8`: the bytes of `b` where the top bit of the mask's byte is set, of `a`
elsewhere. -/
def mmBlendvEpi8 (a b mask : BitVec 128) : BitVec 128 :=
  ofBytes 128 fun i => if (byte mask i).getLsbD 7 then byte b i else byte a i

/-- `_mm_clmulepi64_si128`: bits 0 and 4 of `imm` select the halves. -/
def mmClmulepi64Si128 (a b : BitVec 128) (imm : ℕ) : BitVec 128 :=
  clmul (if imm.testBit 0 then hi64 a else lo64 a) (if imm.testBit 4 then hi64 b else lo64 b)

/-! ### Bytes -/

theorem byte_mmLoaduSi128 (m : Memory) (a : ℕ) {i : ℕ} (hi : i < 16) :
    byte (mmLoaduSi128 m a) i = m (a + i) := byte_ofBytes _ (by omega)

theorem byte_mmMaskzLoaduEpi8 (mask : BitVec 16) (m : Memory) (a : ℕ) {i : ℕ} (hi : i < 16) :
    byte (mmMaskzLoaduEpi8 mask m a) i = if mask.getLsbD i then m (a + i) else 0#8 :=
  byte_ofBytes _ (by omega)

theorem byte_mmShuffleEpi8 (a b : BitVec 128) {i : ℕ} (hi : i < 16) :
    byte (mmShuffleEpi8 a b) i
      = if (byte b i).getLsbD 7 then 0#8 else byte a ((byte b i).toNat % 16) :=
  byte_ofBytes _ (by omega)

theorem byte_mmBlendvEpi8 (a b mask : BitVec 128) {i : ℕ} (hi : i < 16) :
    byte (mmBlendvEpi8 a b mask) i = if (byte mask i).getLsbD 7 then byte b i else byte a i :=
  byte_ofBytes _ (by omega)

theorem byte_xor (a b : BitVec 128) (i : ℕ) : byte (a ^^^ b) i = byte a i ^^^ byte b i := by
  apply BitVec.eq_of_getLsbD_eq
  intro j hj
  simp only [getLsbD_byte, BitVec.getLsbD_xor, hj, decide_true, Bool.true_and]

theorem byte_and (a b : BitVec 128) (i : ℕ) : byte (a &&& b) i = byte a i &&& byte b i := by
  apply BitVec.eq_of_getLsbD_eq
  intro j hj
  simp only [getLsbD_byte, BitVec.getLsbD_and, hj, decide_true, Bool.true_and]

theorem byte_or (a b : BitVec 128) (i : ℕ) : byte (a ||| b) i = byte a i ||| byte b i := by
  apply BitVec.eq_of_getLsbD_eq
  intro j hj
  simp only [getLsbD_byte, BitVec.getLsbD_or, hj, decide_true, Bool.true_and]

theorem byte_ushiftRight (v : BitVec 128) (k i : ℕ) : byte (v >>> (8 * k)) i = byte v (i + k) := by
  apply BitVec.eq_of_getLsbD_eq
  intro j _
  rw [getLsbD_byte, getLsbD_byte, BitVec.getLsbD_ushiftRight, Nat.mul_add]
  congr 2; omega

theorem byte_of_ge (v : BitVec 128) {i : ℕ} (hi : 16 ≤ i) : byte v i = 0#8 := by
  apply BitVec.eq_of_getLsbD_eq
  intro j _
  rw [getLsbD_byte, BitVec.getLsbD_of_ge v _ (by omega)]
  simp

theorem byte_mmAlignrEpi8 (a b : BitVec 128) (k : ℕ) {i : ℕ} (hi : i < 16) :
    byte (mmAlignrEpi8 a b k) i = if i + k < 16 then byte b (i + k) else byte a (i + k - 16) := by
  apply BitVec.eq_of_getLsbD_eq
  intro j hj
  rw [getLsbD_byte, mmAlignrEpi8, BitVec.getLsbD_extractLsb', BitVec.getLsbD_ushiftRight,
    BitVec.getLsbD_append, decide_eq_true hj, decide_eq_true (show 8 * i + j < 128 by omega)]
  by_cases h : i + k < 16
  · rw [if_pos h, if_pos (by omega), getLsbD_byte, decide_eq_true hj,
      show 8 * k + (0 + (8 * i + j)) = 8 * (i + k) + j by omega]
    rfl
  · rw [if_neg h, if_neg (by omega), getLsbD_byte, decide_eq_true hj,
      show 8 * k + (0 + (8 * i + j)) - 128 = 8 * (i + k - 16) + j by omega]
    rfl

/-- **A register whose low bytes are a sequence backwards** and whose other bytes are those
of a second register, moved up. -/
theorem toPoly_of_bytes {w v : BitVec 128} (f : ℕ → BitVec 8) {z : ℕ} (hz : z ≤ 16)
    (h : ∀ i, i < 16 → byte w i = if i < z then f (z - 1 - i) else byte v (i - z)) :
    toPoly w = X ^ (8 * z) * toPoly (v.extractLsb' 0 (128 - 8 * z)) + message f z := by
  ext j
  rw [coeff_add, coeff_X_pow_mul', coeff_toPoly, coeff_toPoly, coeff_message,
    BitVec.getLsbD_extractLsb', Nat.zero_add]
  by_cases hj : j < 128
  · have hb := congrArg (fun b : BitVec 8 => b.getLsbD (j % 8)) (h (j / 8) (by omega))
    simp only [getLsbD_byte, Nat.mod_lt j (show 8 > 0 by omega), decide_true, Bool.true_and,
      Nat.div_add_mod] at hb
    rw [hb]
    by_cases hlow : j / 8 < z
    · simp [hlow, show ¬ 8 * z ≤ j by omega, show j < 8 * z by omega]
    · rw [if_neg hlow, getLsbD_byte, show 8 * (j / 8 - z) + j % 8 = j - 8 * z by omega]
      simp [show 8 * z ≤ j by omega, show ¬ j < 8 * z by omega, Nat.mod_lt,
        show j - 8 * z < 128 - 8 * z by omega]
  · rw [BitVec.getLsbD_of_ge w j (by omega)]
    simp [show 8 * z ≤ j by omega, show ¬ j < 8 * z by omega,
      show ¬ j - 8 * z < 128 - 8 * z by omega]

/-- A register whose bytes are a sequence backwards is the message of the sequence. -/
theorem toPoly_eq_message {v : BitVec 128} {f : ℕ → BitVec 8}
    (h : ∀ i, i < 16 → byte v i = f (15 - i)) : toPoly v = message f 16 := by
  have hz := toPoly_of_bytes f (v := v) (le_refl 16) fun i hi => by rw [if_pos hi]; exact h i hi
  have hnone : v.extractLsb' 0 (128 - 8 * 16) = 0#0 := BitVec.eq_nil _
  rw [hz, hnone, toPoly_zero, mul_zero, zero_add]

/-! ### Polynomials -/

theorem toPoly_halves (v : BitVec 128) :
    toPoly v = X ^ 64 * toPoly (hi64 v) + toPoly (lo64 v) := by
  rw [toPoly_split v (show 64 + 64 = 128 by rfl), hi64, lo64]

theorem hi64_mmSetEpi64x (e1 e0 : BitVec 64) : hi64 (mmSetEpi64x e1 e0) = e1 := by
  apply BitVec.eq_of_getLsbD_eq
  intro i hi
  have happend : (e1 ++ e0).getLsbD (64 + i) = e1.getLsbD i := by
    rw [BitVec.getLsbD_append, if_neg (by omega), Nat.add_sub_cancel_left]
  rw [hi64, mmSetEpi64x, BitVec.getLsbD_extractLsb', ← happend]
  simp [hi]

theorem lo64_mmSetEpi64x (e1 e0 : BitVec 64) : lo64 (mmSetEpi64x e1 e0) = e0 := by
  apply BitVec.eq_of_getLsbD_eq
  intro i hi
  have happend : (e1 ++ e0).getLsbD (0 + i) = e0.getLsbD i := by
    rw [BitVec.getLsbD_append, if_pos (by omega), Nat.zero_add]
  rw [lo64, mmSetEpi64x, BitVec.getLsbD_extractLsb', ← happend]
  simp [hi]

/-! ### Products with a pair -/

section

variable (a : BitVec 128) (e1 e0 : BitVec 64)

theorem mmClmul_lo_lo : mmClmulepi64Si128 a (mmSetEpi64x e1 e0) 0x00 = clmul (lo64 a) e0 := by
  rw [mmClmulepi64Si128, if_neg (by decide), if_neg (by decide), lo64_mmSetEpi64x]

theorem mmClmul_hi_lo : mmClmulepi64Si128 a (mmSetEpi64x e1 e0) 0x01 = clmul (hi64 a) e0 := by
  rw [mmClmulepi64Si128, if_pos (by decide), if_neg (by decide), lo64_mmSetEpi64x]

theorem mmClmul_lo_hi : mmClmulepi64Si128 a (mmSetEpi64x e1 e0) 0x10 = clmul (lo64 a) e1 := by
  rw [mmClmulepi64Si128, if_neg (by decide), if_pos (by decide), hi64_mmSetEpi64x]

theorem mmClmul_hi_hi : mmClmulepi64Si128 a (mmSetEpi64x e1 e0) 0x11 = clmul (hi64 a) e1 := by
  rw [mmClmulepi64Si128, if_pos (by decide), if_pos (by decide), hi64_mmSetEpi64x]

end

/-! ### The bits in the opposite order -/

theorem getLsbD_reverse_of_lt {n : ℕ} (v : BitVec n) {i : ℕ} (hi : i < n) :
    v.reverse.getLsbD i = v.getLsbD (n - 1 - i) := by
  rw [BitVec.getLsbD_reverse, BitVec.getMsbD_eq_getLsbD, decide_eq_true hi, Bool.true_and]

theorem reverse_xor {n : ℕ} (a b : BitVec n) : (a ^^^ b).reverse = a.reverse ^^^ b.reverse := by
  apply BitVec.eq_of_getLsbD_eq
  intro i hi
  rw [BitVec.getLsbD_xor, getLsbD_reverse_of_lt _ hi, getLsbD_reverse_of_lt _ hi,
    getLsbD_reverse_of_lt _ hi, BitVec.getLsbD_xor]

theorem reverse_and {n : ℕ} (a b : BitVec n) : (a &&& b).reverse = a.reverse &&& b.reverse := by
  apply BitVec.eq_of_getLsbD_eq
  intro i hi
  rw [BitVec.getLsbD_and, getLsbD_reverse_of_lt _ hi, getLsbD_reverse_of_lt _ hi,
    getLsbD_reverse_of_lt _ hi, BitVec.getLsbD_and]

/-- A shift of a reversed vector is a shift the other way. -/
theorem reverse_shiftLeft {n : ℕ} (v : BitVec n) (k : ℕ) :
    (v <<< k).reverse = v.reverse >>> k := by
  apply BitVec.eq_of_getLsbD_eq
  intro i hi
  rw [getLsbD_reverse_of_lt _ hi, BitVec.getLsbD_ushiftRight, BitVec.getLsbD_shiftLeft,
    decide_eq_true (show n - 1 - i < n by omega)]
  by_cases h : k + i < n
  · rw [getLsbD_reverse_of_lt _ h, decide_eq_false (show ¬ n - 1 - i < k by omega),
      show n - 1 - i - k = n - 1 - (k + i) by omega]
    rfl
  · rw [BitVec.getLsbD_of_ge _ _ (Nat.not_lt.mp h), decide_eq_true (show n - 1 - i < k by omega)]
    rfl

theorem reverse_ushiftRight {n : ℕ} (v : BitVec n) (k : ℕ) :
    (v >>> k).reverse = v.reverse <<< k := by
  have h := congrArg BitVec.reverse (reverse_shiftLeft v.reverse k)
  rwa [BitVec.reverse_reverse_eq, BitVec.reverse_reverse_eq, eq_comm] at h

/-- The bytes of a reversed vector. -/
theorem byte_reverse {n : ℕ} (hn : n % 8 = 0) (v : BitVec n) {i : ℕ} (hi : 8 * i + 8 ≤ n) :
    byte v.reverse i = (byte v (n / 8 - 1 - i)).reverse := by
  apply BitVec.eq_of_getLsbD_eq
  intro j hj
  rw [getLsbD_byte, decide_eq_true hj, getLsbD_reverse_of_lt _ (show 8 * i + j < n by omega),
    getLsbD_reverse_of_lt _ hj, getLsbD_byte, decide_eq_true (show 8 - 1 - j < 8 by omega),
    show n - 1 - (8 * i + j) = 8 * (n / 8 - 1 - i) + (8 - 1 - j) by omega]

theorem lo64_reverse (v : BitVec 128) : lo64 v.reverse = (hi64 v).reverse := by
  apply BitVec.eq_of_getLsbD_eq
  intro i hi
  rw [lo64, hi64, BitVec.getLsbD_extractLsb', getLsbD_reverse_of_lt _ hi,
    BitVec.getLsbD_extractLsb', getLsbD_reverse_of_lt _ (show 0 + i < 128 by omega),
    decide_eq_true hi, decide_eq_true (show 64 - 1 - i < 64 by omega),
    show 128 - 1 - (0 + i) = 64 + (64 - 1 - i) by omega]

theorem hi64_reverse (v : BitVec 128) : hi64 v.reverse = (lo64 v).reverse := by
  have h := congrArg BitVec.reverse (lo64_reverse v.reverse)
  rwa [BitVec.reverse_reverse_eq, BitVec.reverse_reverse_eq, eq_comm] at h

/-- A pair of registers shifted together. -/
theorem reverse_mmAlignrEpi8 (a b : BitVec 128) {k : ℕ} (hk : k ≤ 16) :
    (mmAlignrEpi8 a b k).reverse = mmAlignrEpi8 b.reverse a.reverse (16 - k) := by
  refine eq_of_byte_eq (by rfl) fun i hi => ?_
  rw [byte_reverse (by rfl) _ hi, byte_mmAlignrEpi8 _ _ _ (show 128 / 8 - 1 - i < 16 by omega),
    byte_mmAlignrEpi8 _ _ _ (show i < 16 by omega)]
  by_cases h : i + (16 - k) < 16
  · rw [if_pos h, if_neg (by omega), byte_reverse (by rfl) _ (by omega),
      show 128 / 8 - 1 - i + k - 16 = 128 / 8 - 1 - (i + (16 - k)) by omega]
  · rw [if_neg h, if_pos (by omega), byte_reverse (by rfl) _ (by omega),
      show 128 / 8 - 1 - i + k = 128 / 8 - 1 - (i + (16 - k) - 16) by omega]

end Simd
