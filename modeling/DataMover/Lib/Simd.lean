import DataMover.Lib.Blocks

/-!
# Vector registers

A vector register is a bit vector, and the instructions that move data between its
lanes are read byte by byte: byte `i` of the result is some byte of an operand, or
zero.  `byte` names the bytes, `ofBytes` builds a register from them, and every
instruction below comes with the lemma that says which byte goes where.

An aligned access to an address that is not a multiple of the register's size
faults; such an access has no result.

## Main definitions

* `byte`, `ofBytes` — a register and its bytes, least significant first.
* `mm512LoaduSi512`, `mm512LoadSi512`, `mm512StoreSi512`, `mm512MaskzLoaduEpi8` —
  memory accesses of 64 bytes.
* `maskStoreuEpi8`, `set1Epi64` — masked stores, and registers of one value over and over,
  for any size of register.
* `mm512AlignrEpi32`, `mm512Permutex2varEpi16`, `mm512BsrliEpi128`,
  `mm512BslliEpi128`, `mm512MaskMovEpi8` — movements between lanes.

## Main results

* `byte_ofBytes`, `eq_of_byte_eq` — a register is determined by its bytes.
* `byte_mm512…` — the byte a lane of the result holds.
* `maskStoreuEpi8_eq` — a store under a mask of low bits writes a block.
-/

namespace Simd

open ByteMemory

/-! ### Registers and their bytes -/

/-- Byte `i` of a register. -/
def byte {n : ℕ} (v : BitVec n) (i : ℕ) : BitVec 8 := v.extractLsb' (8 * i) 8

/-- The register of `n` bits whose bytes are `f 0, f 1, …`. -/
def ofBytes (n : ℕ) (f : ℕ → BitVec 8) : BitVec n := BitVec.ofNat n (load f 0 (n / 8))

theorem byteAt_toNat {n : ℕ} (v : BitVec n) (i : ℕ) : byteAt v.toNat i = byte v i := by
  apply BitVec.eq_of_toNat_eq
  rw [byteAt, byte, BitVec.extractLsb'_toNat, BitVec.toNat_ofNat, Nat.shiftRight_eq_div_pow]

theorem getLsbD_byte {n : ℕ} (v : BitVec n) (i j : ℕ) :
    (byte v i).getLsbD j = (decide (j < 8) && v.getLsbD (8 * i + j)) := by
  rw [byte, BitVec.getLsbD_extractLsb']

theorem byte_ofBytes {n : ℕ} (f : ℕ → BitVec 8) {i : ℕ} (hi : 8 * i + 8 ≤ n) :
    byte (ofBytes n f) i = f i := by
  have hlt : load f 0 (n / 8) < 2 ^ n :=
    lt_of_lt_of_le (load_lt f 0 (n / 8)) (Nat.pow_le_pow_right (by omega) (by omega))
  rw [← byteAt_toNat, ofBytes, BitVec.toNat_ofNat, Nat.mod_eq_of_lt hlt,
    byteAt_load f 0 (by omega), Nat.zero_add]

theorem getLsbD_byteAt (v i j : ℕ) :
    (byteAt v i).getLsbD j = (decide (j < 8) && v.testBit (8 * i + j)) := by
  rw [byteAt, BitVec.getLsbD_ofNat, Nat.testBit_div_two_pow, Nat.add_comm]

theorem getLsbD_ofBytes {n : ℕ} (f : ℕ → BitVec 8) {k : ℕ} (hk : 8 * (k / 8) + 8 ≤ n) :
    (ofBytes n f).getLsbD k = (f (k / 8)).getLsbD (k % 8) := by
  rw [← byte_ofBytes f hk, getLsbD_byte, Nat.div_add_mod]
  simp [Nat.mod_lt]

/-- **A register is determined by its bytes.** -/
theorem eq_of_byte_eq {n : ℕ} (hn : n % 8 = 0) {a b : BitVec n}
    (h : ∀ i, 8 * i + 8 ≤ n → byte a i = byte b i) : a = b := by
  apply BitVec.eq_of_getLsbD_eq
  intro j hj
  have hb := congrArg (fun v : BitVec 8 => v.getLsbD (j % 8)) (h (j / 8) (by omega))
  simp only [getLsbD_byte, Nat.mod_lt j (show 8 > 0 by omega), decide_true, Bool.true_and,
    Nat.div_add_mod] at hb
  exact hb

/-! ### Accesses of 64 bytes -/

/-- `_mm512_loadu_si512`. -/
def mm512LoaduSi512 (m : Memory) (a : ℕ) : BitVec 512 := ofBytes 512 fun i => m (a + i)

/-- `_mm512_load_si512`: the address must be a multiple of 64. -/
def mm512LoadSi512 (m : Memory) (a : ℕ) : Option (BitVec 512) :=
  if a % 64 = 0 then some (mm512LoaduSi512 m a) else none

/-- `_mm512_store_si512`: the address must be a multiple of 64. -/
def mm512StoreSi512 (m : Memory) (a : ℕ) (v : BitVec 512) : Option Memory :=
  if a % 64 = 0 then some (store m a 64 v.toNat) else none

/-- `_mm512_maskz_loadu_epi8`: byte `i` is read when bit `i` of the mask is set and is
zero otherwise. -/
def mm512MaskzLoaduEpi8 (mask : BitVec 64) (m : Memory) (a : ℕ) : BitVec 512 :=
  ofBytes 512 fun i => if mask.getLsbD i then m (a + i) else 0#8

theorem byte_mm512LoaduSi512 (m : Memory) (a : ℕ) {i : ℕ} (hi : i < 64) :
    byte (mm512LoaduSi512 m a) i = m (a + i) := byte_ofBytes _ (by omega)

theorem byte_mm512MaskzLoaduEpi8 {mask : BitVec 64} (m : Memory) (a : ℕ) {i : ℕ} (hi : i < 64)
    (hmask : mask.getLsbD i = true) : byte (mm512MaskzLoaduEpi8 mask m a) i = m (a + i) := by
  rw [mm512MaskzLoaduEpi8, byte_ofBytes _ (by omega), if_pos hmask]

theorem mm512LoadSi512_eq {m : Memory} {a : ℕ} (ha : a % 64 = 0) :
    mm512LoadSi512 m a = some (mm512LoaduSi512 m a) := if_pos ha

theorem mm512StoreSi512_eq {m : Memory} {a : ℕ} {v : BitVec 512} (ha : a % 64 = 0) :
    mm512StoreSi512 m a v = some (store m a 64 v.toNat) := if_pos ha

/-! ### Masked stores -/

/-- Byte `i` is written when bit `i` of the mask is set. -/
def maskStoreuEpi8 {k n : ℕ} (m : Memory) (a : ℕ) (mask : BitVec k) (v : BitVec n) : Memory :=
  fun x => if a ≤ x ∧ mask.getLsbD (x - a) = true then byte v (x - a) else m x

/-- `_mm512_mask_storeu_epi8`. -/
def mm512MaskStoreuEpi8 (m : Memory) (a : ℕ) (mask : BitVec 64) (v : BitVec 512) : Memory :=
  maskStoreuEpi8 m a mask v

/-- `_mm256_mask_storeu_epi8`. -/
def mm256MaskStoreuEpi8 (m : Memory) (a : ℕ) (mask : BitVec 32) (v : BitVec 256) : Memory :=
  maskStoreuEpi8 m a mask v

/-- The value in every lane of 8 bytes. -/
def set1Epi64 (n : ℕ) (a : BitVec 64) : BitVec n := ofBytes n fun i => byte a (i % 8)

/-- `_mm512_set1_epi64`. -/
def mm512Set1Epi64 (a : BitVec 64) : BitVec 512 := set1Epi64 512 a

/-- `_mm256_set1_epi64x`. -/
def mm256Set1Epi64x (a : BitVec 64) : BitVec 256 := set1Epi64 256 a

/-- **A store under a mask of the low `w` bits** writes a block of `w` bytes. -/
theorem maskStoreuEpi8_eq {k n w : ℕ} {mask : BitVec k} (m : Memory) (a : ℕ) (v : BitVec n)
    (hmask : ∀ i, mask.getLsbD i = decide (i < w)) :
    maskStoreuEpi8 m a mask v = writeBlock m a w (byte v) := by
  funext x
  simp only [maskStoreuEpi8, writeBlock, hmask, decide_eq_true_eq]
  by_cases hx : a ≤ x ∧ x < a + w
  · rw [if_pos hx, if_pos (by omega)]
  · rw [if_neg hx, if_neg (by omega)]

theorem byte_set1Epi64 {n i : ℕ} (a : BitVec 64) (hi : 8 * i + 8 ≤ n) :
    byte (set1Epi64 n a) i = byte a (i % 8) := byte_ofBytes _ hi

/-- A register stored whole. -/
theorem store_eq_writeBlock (m : Memory) (a w : ℕ) {n : ℕ} (v : BitVec n) :
    store m a w v.toNat = writeBlock m a w (byte v) := by
  funext x
  rw [store_apply, writeBlock]
  simp only [byteAt_toNat]

/-! ### Movements between lanes -/

/-- Word `j` of a register. -/
def word {n : ℕ} (v : BitVec n) (j : ℕ) : BitVec 16 := v.extractLsb' (16 * j) 16

/-- The register whose words are those of an array of 16-bit values. -/
def ofWords (n : ℕ) (f : ℕ → ℕ) : BitVec n := ofBytes n fun i => byteAt (f (i / 2)) (i % 2)

/-- `_mm512_alignr_epi32`: `a` above `b`, shifted right by `imm` lanes of 4 bytes. -/
def mm512AlignrEpi32 (a b : BitVec 512) (imm : ℕ) : BitVec 512 :=
  ((a ++ b) >>> (32 * (imm % 16))).setWidth 512

/-- `_mm512_permutex2var_epi16`: each word of `idx` selects a word of `a`, or of `b`
when its bit 5 is set. -/
def mm512Permutex2varEpi16 (a idx b : BitVec 512) : BitVec 512 :=
  ofBytes 512 fun i =>
    let sel := (word idx (i / 2)).toNat
    byte (if sel.testBit 5 then b else a) (2 * (sel % 32) + i % 2)

/-- `_mm512_bsrli_epi128`: every lane of 16 bytes shifted right by `imm` bytes. -/
def mm512BsrliEpi128 (a : BitVec 512) (imm : ℕ) : BitVec 512 :=
  ofBytes 512 fun i => if i % 16 + imm < 16 then byte a (i + imm) else 0#8

/-- `_mm512_bslli_epi128`: every lane of 16 bytes shifted left by `imm` bytes. -/
def mm512BslliEpi128 (a : BitVec 512) (imm : ℕ) : BitVec 512 :=
  ofBytes 512 fun i => if imm ≤ i % 16 then byte a (i - imm) else 0#8

/-- `_mm512_mask_mov_epi8`: the bytes of `a` where the mask is set, of `src` elsewhere. -/
def mm512MaskMovEpi8 (src : BitVec 512) (mask : BitVec 64) (a : BitVec 512) : BitVec 512 :=
  ofBytes 512 fun i => if mask.getLsbD i then byte a i else byte src i

theorem byte_mm512AlignrEpi32 (a b : BitVec 512) {imm i : ℕ} (himm : imm < 16) (hi : i < 64) :
    byte (mm512AlignrEpi32 a b imm) i
      = if i + 4 * imm < 64 then byte b (i + 4 * imm) else byte a (i + 4 * imm - 64) := by
  apply BitVec.eq_of_getLsbD_eq
  intro j hj
  have hpos : 32 * imm + (8 * i + j) = 8 * (i + 4 * imm) + j := by ring
  rw [getLsbD_byte, mm512AlignrEpi32, BitVec.getLsbD_setWidth, BitVec.getLsbD_ushiftRight,
    Nat.mod_eq_of_lt himm, hpos, BitVec.getLsbD_append]
  split
  · next h =>
    rw [if_pos (by omega), getLsbD_byte]
    simp [show 8 * i + j < 512 by omega]
  · next h =>
    rw [if_neg (by omega), getLsbD_byte, Nat.mul_sub, show 8 * 64 = 512 by rfl,
      ← Nat.sub_add_comm (by omega)]
    simp [show 8 * i + j < 512 by omega]

theorem word_ofWords {n : ℕ} (f : ℕ → ℕ) {j : ℕ} (hj : 16 * j + 16 ≤ n) :
    word (ofWords n f) j = BitVec.ofNat 16 (f j) := by
  apply BitVec.eq_of_getLsbD_eq
  intro i hi
  rw [word, BitVec.getLsbD_extractLsb', ofWords, getLsbD_ofBytes _ (by omega), getLsbD_byteAt,
    BitVec.getLsbD_ofNat, show (16 * j + i) / 8 / 2 = j by omega,
    show 8 * ((16 * j + i) / 8 % 2) + (16 * j + i) % 8 = i by omega]
  simp [hi, Nat.mod_lt]

/-- What a permutation by consecutive words does: the bytes of `a`, then those of `b`,
from `2 * s` on. -/
theorem byte_mm512Permutex2varEpi16 (a b : BitVec 512) {f : ℕ → ℕ} {s i : ℕ} (hs : s < 32)
    (hf : ∀ j, j < 32 → f j = j + s) (hi : i < 64) :
    byte (mm512Permutex2varEpi16 a (ofWords 512 f) b) i
      = if i + 2 * s < 64 then byte a (i + 2 * s) else byte b (i + 2 * s - 64) := by
  have hsel : (word (ofWords 512 f) (i / 2)).toNat = i / 2 + s := by
    rw [word_ofWords f (by omega), hf _ (by omega), BitVec.toNat_ofNat]
    omega
  rw [mm512Permutex2varEpi16, byte_ofBytes _ (by omega)]
  simp only [hsel, Nat.testBit_eq_decide_div_mod_eq, decide_eq_true_eq]
  by_cases h : i + 2 * s < 64
  · rw [if_neg (by omega), if_pos h]
    congr 1; omega
  · rw [if_pos (by omega), if_neg h]
    congr 1; omega

theorem byte_mm512BsrliEpi128 (a : BitVec 512) (imm : ℕ) {i : ℕ} (hi : i < 64) :
    byte (mm512BsrliEpi128 a imm) i = if i % 16 + imm < 16 then byte a (i + imm) else 0#8 :=
  byte_ofBytes _ (by omega)

theorem byte_mm512BslliEpi128 (a : BitVec 512) (imm : ℕ) {i : ℕ} (hi : i < 64) :
    byte (mm512BslliEpi128 a imm) i = if imm ≤ i % 16 then byte a (i - imm) else 0#8 :=
  byte_ofBytes _ (by omega)

theorem byte_mm512MaskMovEpi8 (src : BitVec 512) (mask : BitVec 64) (a : BitVec 512) {i : ℕ}
    (hi : i < 64) :
    byte (mm512MaskMovEpi8 src mask a) i = if mask.getLsbD i then byte a i else byte src i :=
  byte_ofBytes _ (by omega)

end Simd
