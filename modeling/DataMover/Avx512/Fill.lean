import DataMover.Lib.Simd
import DataMover.Ref.Move

/-!
# The vector kernel of the fill

`dml_avx512_fill_u64` of `sw_dispatcher/avx512/fill.c`.  Fewer than 64 bytes are written by
two masked stores of 32 bytes.  From 64 bytes on, a masked store fills the destination up to
the first multiple of 64, whole registers are stored from there, and a masked store ends the
range.  Past the unaligned part the pattern is rotated, so that its bytes go on where that
part left off.

The rotation shifts a 64-bit value right by 64 when the unaligned part is a multiple of 8
bytes.  The language leaves the value of that shift open; it is a parameter here.

## Main definitions

* `rotatePattern` — the pattern past an unaligned part.
* `fillBigAvx512`, `fillSmallAvx512`, `dmlAvx512FillU64` — the kernel.
* `IsFill` — what a fill promises.

## Main results

* `byte_rotatePattern` — the bytes of the rotated pattern.
* `dmlAvx512FillU64_isFill` — the kernel does not fault, and fills as the reference kernel.
-/

namespace DataMover

open ByteMemory Simd

/-! ### The kernel -/

/-- The value of `v >> 64`: every bit shifted out, or the shift count taken modulo 64. -/
inductive ShiftBy64
  | zero | same
  deriving DecidableEq, Repr

/-- `v >> k` for `k` up to 64. -/
def shiftRight64 (by64 : ShiftBy64) (v : BitVec 64) (k : ℕ) : BitVec 64 :=
  if k < 64 then v >>> k
  else match by64 with
    | .zero => 0#64
    | .same => v

/-- The pattern for the bytes past `64 - unalignedBytes` ones. -/
def rotatePattern (by64 : ShiftBy64) (pattern : BitVec 64) (unalignedBytes : ℕ) : BitVec 64 :=
  (pattern <<< (unalignedBytes % 8 * 8))
    ||| shiftRight64 by64 pattern (64 - unalignedBytes % 8 * 8)

/-- The body of the loop over the head: one register, stored at an aligned address. -/
def fillRegister (zmmPattern : BitVec 512) (c : Memory × ℕ) : Option (Memory × ℕ) := do
  let m ← mm512StoreSi512 c.1 c.2 zmmPattern
  some (m, c.2 + 64)

/-- `while (head_ptr != tail_ptr)`. -/
def fillHead (m : Memory) (headPtr tailPtr headSize : ℕ) (zmmPattern : BitVec 512) :
    Option (Memory × ℕ) :=
  Loop.whileLoop (fun c => c.2 != tailPtr) (fillRegister zmmPattern) headSize (m, headPtr)

/-- The aligned part of `fill_big_avx512`: the head, and a masked store of the tail. -/
def fillAligned (m : Memory) (alignedSrc alignedPartSize : ℕ) (zmmPattern : BitVec 512) :
    Option Memory := do
  let headSize := alignedPartSize / 64
  let tailSize := alignedPartSize % 64
  let tailPtr := alignedSrc + 64 * headSize
  let m ← (if headSize ≠ 0 then
      (fillHead m alignedSrc tailPtr headSize zmmPattern).map Prod.fst
    else some m)
  if tailSize ≠ 0 then
    let mask := ~~~(0xFFFFFFFFFFFFFFFF#64 <<< tailSize)
    some (mm512MaskStoreuEpi8 m tailPtr mask zmmPattern)
  else some m

/-- `fill_big_avx512`. -/
def fillBigAvx512 (by64 : ShiftBy64) (m : Memory) (pattern : BitVec 64) (src transferSize : ℕ) :
    Option Memory :=
  let unalignedBytes := src % 64
  let unalignedPartSize := if unalignedBytes = 0 then 0 else 64 - unalignedBytes
  let zmmPattern := mm512Set1Epi64 pattern
  if unalignedPartSize ≠ 0 then
    let mask := 0xFFFFFFFFFFFFFFFF#64 >>> unalignedBytes
    let m := mm512MaskStoreuEpi8 m src mask zmmPattern
    let pattern := rotatePattern by64 pattern unalignedBytes
    let zmmPattern := mm512Set1Epi64 pattern
    fillAligned m (src + unalignedPartSize) (transferSize - unalignedPartSize) zmmPattern
  else
    fillAligned m (src + unalignedPartSize) (transferSize - unalignedPartSize) zmmPattern

/-- `_load_mask32((uint32_t *)&mask_value + word)`. -/
def loadMask32 (maskValue : BitVec 64) (word : ℕ) : BitVec 32 :=
  maskValue.extractLsb' (32 * word) 32

/-- `fill_small_avx512`: two masked stores of 32 bytes. -/
def fillSmallAvx512 (m : Memory) (pattern : BitVec 64) (src transferSize : ℕ) : Memory :=
  let tailSize := transferSize % 64
  let ymm1Pattern := mm256Set1Epi64x pattern
  let maskValue := ~~~(0xFFFFFFFFFFFFFFFF#64 <<< tailSize)
  let m := mm256MaskStoreuEpi8 m src (loadMask32 maskValue 0) ymm1Pattern
  mm256MaskStoreuEpi8 m (src + 32) (loadMask32 maskValue 1) ymm1Pattern

/-- `dml_avx512_fill_u64`. -/
def dmlAvx512FillU64 (by64 : ShiftBy64) (m : Memory) (pattern : BitVec 64) (dst transferSize : ℕ) :
    Option Memory :=
  if transferSize < 64 then some (fillSmallAvx512 m pattern dst transferSize)
  else fillBigAvx512 by64 m pattern dst transferSize

/-! ### Masks and patterns -/

theorem getLsbD_shiftedOnes (u i : ℕ) :
    (0xFFFFFFFFFFFFFFFF#64 >>> u).getLsbD i = decide (i < 64 - u) := by
  have hones : 0xFFFFFFFFFFFFFFFF#64 = BitVec.allOnes 64 := by decide
  rw [hones, BitVec.getLsbD_ushiftRight, BitVec.getLsbD_allOnes]
  exact decide_eq_decide.mpr (by omega)

theorem getLsbD_lowOnes {t : ℕ} (ht : t < 64) (i : ℕ) :
    (~~~(0xFFFFFFFFFFFFFFFF#64 <<< t)).getLsbD i = decide (i < t) := by
  have hones : 0xFFFFFFFFFFFFFFFF#64 = BitVec.allOnes 64 := by decide
  rw [hones, BitVec.getLsbD_not, BitVec.getLsbD_shiftLeft, BitVec.getLsbD_allOnes]
  by_cases h64 : i < 64
  · by_cases hi : i < t
    · simp [h64, hi]
    · simp [h64, hi, show i - t < 64 by omega]
  · simp [h64, show ¬i < t by omega]

/-- **The bytes of the rotated pattern** go on past an unaligned part, whatever the value of
a shift by 64. -/
theorem byte_rotatePattern (by64 : ShiftBy64) (pattern : BitVec 64) {u : ℕ} (hu : u < 64) (i : ℕ) :
    byte (rotatePattern by64 pattern u) (i % 8) = byte pattern ((64 - u + i) % 8) := by
  have hindex : (64 - u + i) % 8 = (i % 8 + (8 - u % 8)) % 8 := by omega
  have hi : i % 8 < 8 := Nat.mod_lt i (by decide)
  have hk : u % 8 < 8 := Nat.mod_lt u (by decide)
  rw [hindex, rotatePattern]
  generalize i % 8 = i at hi ⊢
  generalize u % 8 = k at hk ⊢
  apply BitVec.eq_of_getLsbD_eq
  intro j hj
  rw [getLsbD_byte, getLsbD_byte, BitVec.getLsbD_or, BitVec.getLsbD_shiftLeft]
  rcases Nat.eq_zero_or_pos k with rfl | hpos
  · -- no rotation: the shift by 64 adds nothing to the pattern
    have hsame : (i + (8 - 0)) % 8 = i := by omega
    unfold shiftRight64
    rw [hsame, if_neg (by decide)]
    cases by64 <;> simp [hj, show 8 * i + j < 64 by omega]
  · unfold shiftRight64
    rw [if_pos (by omega), BitVec.getLsbD_ushiftRight]
    rcases Nat.lt_or_ge i k with hlt | hge
    · -- the byte comes from the top of the pattern
      have hfrom : 64 - k * 8 + (8 * i + j) = 8 * ((i + (8 - k)) % 8) + j := by
        rw [Nat.mod_eq_of_lt (by omega)]
        omega
      simp [hj, hfrom, show 8 * i + j < k * 8 by omega]
    · have hfrom : 8 * i + j - k * 8 = 8 * ((i + (8 - k)) % 8) + j := by
        rw [show i + (8 - k) = i - k + 8 by omega, Nat.add_mod_right, Nat.mod_eq_of_lt (by omega)]
        omega
      have hout : pattern.getLsbD (64 - k * 8 + (8 * i + j)) = false :=
        BitVec.getLsbD_of_ge _ _ (by omega)
      simp [hj, hfrom, hout, show 8 * i + j < 64 by omega, show ¬8 * i + j < k * 8 by omega]

/-! ### Filled ranges -/

/-- The `n` bytes from `a` on hold the bytes of the pattern, over and over. -/
def filled (m : Memory) (pattern : BitVec 64) (a n : ℕ) : Memory :=
  writeBlock m a n fun j => byte pattern (j % 8)

theorem dmlRefFillU64_eq_filled (m : Memory) (pattern : BitVec 64) (dst n : ℕ) :
    dmlRefFillU64 m pattern.toNat dst n = filled m pattern dst n := by
  funext x
  rw [dmlRefFillU64_eq, filled, writeBlock]
  simp only [byteAt_toNat]

theorem filled_zero (m : Memory) (pattern : BitVec 64) (a : ℕ) : filled m pattern a 0 = m :=
  writeBlock_zero m a _

/-- **A range filled in two parts**, the second by the bytes of the pattern that come next. -/
theorem filled_append (m : Memory) (a : ℕ) {k l n : ℕ} {pattern moved : BitVec 64}
    (hmoved : ∀ i, byte moved (i % 8) = byte pattern ((k + i) % 8)) (hn : n = k + l) :
    filled (filled m pattern a k) moved (a + k) l = filled m pattern a n := by
  rw [hn]
  exact writeBlock_append m a fun i _ => hmoved i

/-- The same pattern comes next after whole words. -/
theorem byte_next {k : ℕ} (hk : k % 8 = 0) (pattern : BitVec 64) (i : ℕ) :
    byte pattern (i % 8) = byte pattern ((k + i) % 8) := by
  rw [show (k + i) % 8 = i % 8 by omega]

/-- A masked store of a pattern. -/
theorem maskStoreuEpi8_set1Epi64 {k n w : ℕ} {mask : BitVec k} (m : Memory) (a : ℕ)
    (pattern : BitVec 64) (hmask : ∀ i, mask.getLsbD i = decide (i < w)) (hw : 8 * w ≤ n) :
    maskStoreuEpi8 m a mask (set1Epi64 n pattern) = filled m pattern a w := by
  rw [maskStoreuEpi8_eq m a _ hmask]
  exact writeBlock_congr fun i hi => byte_set1Epi64 _ (by omega)

/-! ### The parts of the range -/

theorem fillRegister_eq (m : Memory) (pattern : BitVec 64) {a : ℕ} (ha : a % 64 = 0) (k : ℕ) :
    fillRegister (mm512Set1Epi64 pattern) (filled m pattern a (64 * k), a + 64 * k)
      = some (filled m pattern a (64 * (k + 1)), a + 64 * (k + 1)) := by
  have hstore : ∀ m, store m (a + 64 * k) 64 (mm512Set1Epi64 pattern).toNat
      = filled m pattern (a + 64 * k) 64 := by
    intro m
    rw [store_eq_writeBlock]
    exact writeBlock_congr fun i hi => byte_set1Epi64 _ (by omega)
  simp only [fillRegister, Option.bind_eq_bind]
  rw [mm512StoreSi512_eq (by omega), Option.bind_some, hstore,
    filled_append m a (byte_next (by omega) pattern) (Nat.mul_succ 64 k), Nat.mul_succ,
    Nat.add_assoc]

/-- **The head** is filled to its end: after `k` iterations, `k` registers are stored. -/
theorem fillHead_eq (m : Memory) (pattern : BitVec 64) {a : ℕ} (ha : a % 64 = 0) (n : ℕ) :
    fillHead m a (a + 64 * n) n (mm512Set1Epi64 pattern)
      = some (filled m pattern a (64 * n), a + 64 * n) := by
  have hstep : ∀ c : Memory × ℕ,
      (∃ k, k ≤ n ∧ c = (filled m pattern a (64 * k), a + 64 * k)) →
      (c.2 != a + 64 * n) = true → ∃ t, fillRegister (mm512Set1Epi64 pattern) c = some t
        ∧ (∃ k, k ≤ n ∧ t = (filled m pattern a (64 * k), a + 64 * k))
        ∧ (a + 64 * n - t.2) / 64 < (a + 64 * n - c.2) / 64 := by
    rintro _ ⟨k, hk, rfl⟩ hne
    simp only [bne_iff_ne] at hne
    exact ⟨_, fillRegister_eq m pattern ha k, ⟨k + 1, by omega, rfl⟩, by simp only; omega⟩
  have hstart : (m, a) = (filled m pattern a (64 * 0), a + 64 * 0) := by
    rw [Nat.mul_zero, filled_zero, Nat.add_zero]
  have hfuel : (a + 64 * n - (m, a).2) / 64 ≤ n := by
    simp only
    omega
  obtain ⟨_, ht, ⟨k, _, rfl⟩, hexit⟩ :=
    Loop.whileLoop_total _ (fun c : Memory × ℕ => (a + 64 * n - c.2) / 64) hstep
      ⟨0, Nat.zero_le n, hstart⟩ hfuel
  simp only [bne_eq_false_iff_eq] at hexit
  rw [fillHead, ht, show k = n by omega]

/-- **The aligned part**: the head, and what is left of the range. -/
theorem fillAligned_eq (m : Memory) (pattern : BitVec 64) {a : ℕ} (ha : a % 64 = 0) (n : ℕ) :
    fillAligned m a n (mm512Set1Epi64 pattern) = some (filled m pattern a n) := by
  have hhead : (if n / 64 ≠ 0 then
      (fillHead m a (a + 64 * (n / 64)) (n / 64) (mm512Set1Epi64 pattern)).map Prod.fst
      else some m) = some (filled m pattern a (64 * (n / 64))) := by
    by_cases h : n / 64 = 0
    · rw [if_neg (not_not.mpr h), h, Nat.mul_zero, filled_zero]
    · rw [if_pos h, fillHead_eq m pattern ha]
      rfl
  have htail := filled_append m a (byte_next (show 64 * (n / 64) % 8 = 0 by omega) pattern)
    (show n = 64 * (n / 64) + n % 64 by omega)
  simp only [fillAligned, hhead, Option.bind_eq_bind, Option.bind_some]
  by_cases h : n % 64 = 0
  · rw [if_neg (not_not.mpr h), ← htail, h, filled_zero]
  · rw [if_pos h, ← htail, mm512MaskStoreuEpi8, mm512Set1Epi64,
      maskStoreuEpi8_set1Epi64 _ _ _ (getLsbD_lowOnes (Nat.mod_lt n (by decide))) (by omega)]

/-- **From 64 bytes on**: the bytes up to the first multiple of 64, and the aligned part. -/
theorem fillBigAvx512_eq (by64 : ShiftBy64) (m : Memory) (pattern : BitVec 64) (dst : ℕ) {n : ℕ}
    (hn : 64 ≤ n) : fillBigAvx512 by64 m pattern dst n = some (filled m pattern dst n) := by
  simp only [fillBigAvx512]
  by_cases h : dst % 64 = 0
  · rw [if_pos h, if_neg (not_not.mpr rfl), Nat.add_zero, Nat.sub_zero, fillAligned_eq m pattern h]
  · rw [if_neg h, if_pos (by omega), mm512MaskStoreuEpi8, mm512Set1Epi64,
      maskStoreuEpi8_set1Epi64 _ _ _ (getLsbD_shiftedOnes (dst % 64)) (by omega),
      fillAligned_eq _ _ (by omega),
      filled_append m dst (byte_rotatePattern by64 pattern (Nat.mod_lt dst (by decide)))
        (show n = 64 - dst % 64 + (n - (64 - dst % 64)) by omega)]

/-- **Fewer than 64 bytes**: the second store is empty up to 32. -/
theorem fillSmallAvx512_eq (m : Memory) (pattern : BitVec 64) (dst : ℕ) {n : ℕ} (hn : n < 64) :
    fillSmallAvx512 m pattern dst n = filled m pattern dst n := by
  have hmask : ∀ word i, (loadMask32 (~~~(0xFFFFFFFFFFFFFFFF#64 <<< n)) word).getLsbD i
      = decide (i < min 32 (n - 32 * word)) := by
    intro word i
    rw [loadMask32, BitVec.getLsbD_extractLsb', getLsbD_lowOnes hn, ← Bool.decide_and]
    exact decide_eq_decide.mpr (by omega)
  simp only [fillSmallAvx512, Nat.mod_eq_of_lt hn, mm256MaskStoreuEpi8, mm256Set1Epi64x]
  rw [maskStoreuEpi8_set1Epi64 _ _ _ (hmask 0) (by omega),
    maskStoreuEpi8_set1Epi64 _ _ _ (hmask 1) (by omega), Nat.mul_zero, Nat.sub_zero]
  rcases Nat.lt_or_ge n 32 with hlt | hge
  · rw [show min 32 n = n by omega, show min 32 (n - 32 * 1) = 0 by omega, filled_zero]
  · rw [show min 32 n = 32 by omega]
    exact filled_append m dst (byte_next (by decide) pattern) (by omega)

/-- What a fill promises: byte `j` of the destination is byte `j` modulo 8 of the pattern,
and nothing else has changed. -/
structure IsFill (m m' : Memory) (pattern : BitVec 64) (dst n : ℕ) : Prop where
  repeats : ∀ j, j < n → m' (dst + j) = byte pattern (j % 8)
  untouched : ∀ x, x < dst ∨ dst + n ≤ x → m' x = m x

theorem isFill_filled (m : Memory) (pattern : BitVec 64) (dst n : ℕ) :
    IsFill m (filled m pattern dst n) pattern dst n := by
  constructor
  · intro j hj
    exact writeBlock_of_lt hj
  · intro x hx
    exact writeBlock_of_notMem hx

/-- **The vector fill is the reference fill**, for every destination, every size and every
pattern, whatever the value of a shift by 64; it never faults. -/
theorem dmlAvx512FillU64_isFill (by64 : ShiftBy64) (m : Memory) (pattern : BitVec 64)
    (dst n : ℕ) :
    dmlAvx512FillU64 by64 m pattern dst n = some (dmlRefFillU64 m pattern.toNat dst n)
      ∧ IsFill m (dmlRefFillU64 m pattern.toNat dst n) pattern dst n := by
  rw [dmlRefFillU64_eq_filled]
  refine ⟨?_, isFill_filled m pattern dst n⟩
  unfold dmlAvx512FillU64
  split
  · next h => rw [fillSmallAvx512_eq m pattern dst h]
  · next h => exact fillBigAvx512_eq by64 m pattern dst (by omega)

end DataMover
