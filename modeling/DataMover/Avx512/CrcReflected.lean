import DataMover.Avx512.CrcLong

/-!
# The reflected CRC

The two reflected paths against the reference CRC of the reversed bytes.  On the `opt` path
`D_REFL` reverses the bytes of every register it loads, and nothing else changes.  On the
`long` path every register of `own_crc32_long_be_k0` holds the bits of the register of
`own_crc32_long_le_k0` in the opposite order, when the latter reads the reversed bytes: the
reflected path is the mirror image of the other, loop by loop.

## Main results

* `reflectsBytes_dRefl` — the table lookups of `D_REFL` reverse every byte.
* `longBe_foldLong` — the folds are mirror images.
* `ownCrc32LongBeK0_eq` — the reflected path is the other path on the reversed bytes.
* `dmlAvx512CrcReflectedU32_eq` — the reflected kernel is the reflected reference CRC.
-/

namespace DataMover

open ByteMemory Carryless Simd Polynomial

/-! ### The reflection of bytes -/

theorem reverse8_eq : ∀ b : BitVec 8, reverse8 b = b.reverse := by
  decide

/-- The two lookups, for every byte. -/
theorem nibbleLookups : ∀ b : BitVec 8,
    (if (b &&& 0x0f#8).getLsbD 7 then 0#8 else byte xmmShL ((b &&& 0x0f#8).toNat % 16))
      ||| (if (b >>> 4).getLsbD 7 then 0#8 else byte xmmShH ((b >>> 4).toNat % 16))
      = reverse8 b := by
  decide

theorem byte_xmmF {i : ℕ} (hi : i < 16) : byte xmmF i = 0x0f#8 := byte_ofBytes _ (by omega)

/-- A shift of words and a mask take the upper half of every byte. -/
theorem byte_srli_and (v : BitVec 128) {i : ℕ} (hi : i < 16) :
    byte (mmSrliEpi16 v 4 &&& xmmF) i = byte v i >>> 4 := by
  have hmask : ∀ j < 8, (0x0f#8).getLsbD j = decide (j < 4) := by decide
  apply BitVec.eq_of_getLsbD_eq
  intro j hj
  rw [byte_and, byte_xmmF hi, BitVec.getLsbD_and, hmask j hj, mmSrliEpi16,
    byte_ofBytes _ (by omega), BitVec.getLsbD_ushiftRight, getLsbD_byte, getLsbD_byte,
    BitVec.getLsbD_ushiftRight, word, BitVec.getLsbD_extractLsb']
  by_cases h4 : j < 4
  · simp [h4, hj, show 4 + j < 8 by omega, show 4 + (8 * (i % 2) + j) < 16 by omega,
      show 16 * (i / 2) + (4 + (8 * (i % 2) + j)) = 8 * i + (4 + j) by omega]
  · simp [h4, show ¬ 4 + j < 8 by omega]

/-- **`D_REFL` reverses every byte.** -/
theorem reflectsBytes_dRefl : ReflectsBytes dRefl reverse8 := by
  refine ⟨fun v i hi => ?_, by decide⟩
  simp only [dRefl]
  rw [byte_or, byte_mmShuffleEpi8 _ _ hi, byte_mmShuffleEpi8 _ _ hi, byte_and, byte_xmmF hi,
    byte_srli_and v hi]
  exact nibbleLookups (byte v i)

/-- Reversed bytes in the opposite order are the reversed register. -/
theorem shuffle_dRefl (v : BitVec 128) : mmShuffleEpi8 (dRefl v) endiaShufMask = v.reverse := by
  refine eq_of_byte_eq (by rfl) fun i hi => ?_
  rw [byte_shuffle_endia _ (by omega), reflectsBytes_dRefl.byte _ _ (by omega), reverse8_eq,
    byte_reverse (by rfl) _ hi]

theorem byte_bitReflectMask : ∀ i < 4, byte (mmCvtsi32Si128 0x00010203#32) i
    = BitVec.ofNat 8 (3 - i) := by
  decide

/-- **`bit_reflect_32` reverses a word.** -/
theorem bitReflect32_eq (x : BitVec 32) : bitReflect32 x = x.reverse := by
  have hlow : ∀ (v : BitVec 128) i, i < 4 → byte (v.extractLsb' 0 32) i = byte v i := by
    intro v i hi
    apply BitVec.eq_of_getLsbD_eq
    intro j hj
    simp only [getLsbD_byte, BitVec.getLsbD_extractLsb', hj, decide_true, Bool.true_and,
      show 8 * i + j < 32 by omega, Nat.zero_add]
  have hword : ∀ i, i < 4 → byte (mmCvtsi32Si128 x) i = byte x i := by
    intro i hi
    apply BitVec.eq_of_getLsbD_eq
    intro j hj
    simp only [getLsbD_byte, mmCvtsi32Si128, BitVec.getLsbD_setWidth, hj, decide_true,
      Bool.true_and, show 8 * i + j < 128 by omega]
  refine eq_of_byte_eq (by rfl) fun i hi => ?_
  obtain ⟨htop, -, hval, -⟩ := shuffle_byte (3 - i) (by omega)
  simp only [bitReflect32]
  rw [hlow _ _ (by omega), byte_mmShuffleEpi8 _ _ (by omega), byte_bitReflectMask i (by omega),
    htop, hval, byte_reverse (by rfl) _ hi]
  exact (reflectsBytes_dRefl.byte _ _ (by omega)).trans (by rw [hword _ (by omega), reverse8_eq])

/-! ### Coefficients and loads -/

/-- The coefficients of the two paths are reflections of each other. -/
theorem reflect_longBeK (e : BitVec 32) :
    (toPoly (longBeK e)).reflect 64 = toPoly (longLeK e.reverse) := by
  ext i
  rw [coeff_reflect, coeff_toPoly, coeff_toPoly, longBeK, longLeK, BitVec.getLsbD_shiftLeft,
    BitVec.getLsbD_shiftLeft, BitVec.getLsbD_setWidth, BitVec.getLsbD_setWidth]
  rcases Nat.lt_or_ge 64 i with hgt | hle
  · rw [revAt_eq_self_of_lt hgt, decide_eq_false (show ¬ i < 64 by omega)]
    rfl
  · rw [revAt_le hle]
    rcases (show i < 32 ∨ (32 ≤ i ∧ i < 64) ∨ i = 64 by omega) with hlow | ⟨hlo, hhi⟩ | rfl
    · simp [hlow, BitVec.getLsbD_of_ge e (64 - i - 1) (by omega)]
    · rw [getLsbD_reverse_of_lt e (show i - 32 < 32 by omega),
        show 32 - 1 - (i - 32) = 64 - i - 1 by omega]
      simp [hhi, show ¬ i < 32 by omega, show i - 32 < 64 by omega, show 64 - i < 64 by omega,
        show 64 - i - 1 < 64 by omega, show ¬ 64 - i = 0 by omega]
    · simp

theorem clmul_longBeK (a : BitVec 64) (e : BitVec 32) :
    (clmul a (longBeK e)).reverse = clmul a.reverse (longLeK e.reverse) :=
  clmul_reverse (reflect_longBeK e) a

theorem foldInto_reverse (e1 e0 : BitVec 32) (x d : BitVec 128) :
    (longBe.foldInto (mmSetEpi64x (longBeK e1) (longBeK e0)) x d).reverse
      = longLe.foldInto (mmSetEpi64x (longLeK e1.reverse) (longLeK e0.reverse)) x.reverse
        d.reverse := by
  simp only [LongOps.foldInto, longBe, longLe]
  rw [mmClmul_hi_lo, mmClmul_lo_hi, mmClmul_lo_lo, mmClmul_hi_hi, reverse_xor, reverse_xor,
    clmul_longBeK, clmul_longBeK, lo64_reverse, hi64_reverse]

/-- The constants of the two paths. -/
theorem koef_reverse : (0x3a077781#32).reverse = 0x81eee05c#32 ∧
    (0x4f256efc#32).reverse = 0x3f76a4f2#32 ∧ (0x790606ff#32).reverse = 0xff60609e#32 ∧
    (0xa66805eb#32).reverse = 0xd7a01665#32 ∧ (0x6ea2d55c#32).reverse = 0x3aab4576#32 := by
  set_option maxRecDepth 2000 in
  decide

theorem fold512_reverse (x d : BitVec 128) :
    (longBe.foldInto longBe.koef512 x d).reverse
      = longLe.foldInto longLe.koef512 x.reverse d.reverse := by
  obtain ⟨h576, h512, -⟩ := koef_reverse
  have h := foldInto_reverse 0x3a077781#32 0x4f256efc#32 x d
  rw [h576, h512] at h
  exact h

theorem fold128_reverse (x d : BitVec 128) :
    (longBe.foldInto longBe.koef128 x d).reverse
      = longLe.foldInto longLe.koef128 x.reverse d.reverse := by
  obtain ⟨-, -, h192, h128, -⟩ := koef_reverse
  have h := foldInto_reverse 0x790606ff#32 0xa66805eb#32 x d
  rw [h192, h128] at h
  exact h

section

variable (m : Memory)

theorem loadOrdered_reverse (a : ℕ) :
    (longBe.loadOrdered m a).reverse = longLe.loadOrdered (fun a => reverse8 (m a)) a := by
  refine eq_of_byte_eq (by rfl) fun i hi => ?_
  have hle : byte (longLe.loadOrdered (fun a => reverse8 (m a)) a) i
      = reverse8 (m (a + (15 - i))) :=
    byte_loadEndia reflectsBytes_id _ a (by omega)
  rw [byte_reverse (by rfl) _ hi, hle, reverse8_eq]
  exact congrArg BitVec.reverse (byte_mmLoaduSi128 m a (by omega))

/-- The last bytes as the two paths load them. -/
theorem tailLoad_reverse (a : ℕ) {z : ℕ} (hz : z < 16) :
    (mmMaskzLoaduEpi8 ((1#16 <<< z) - 1#16) m a).reverse
      = longLe.order (mmMaskzLoaduEpi8 ((1#16 <<< z) - 1#16) (fun a => reverse8 (m a)) a) := by
  refine eq_of_byte_eq (by rfl) fun i hi => ?_
  rw [byte_reverse (by rfl) _ hi, byte_longLe_tail _ a hz (by omega),
    byte_mmMaskzLoaduEpi8 _ _ _ (show 128 / 8 - 1 - i < 16 by omega),
    getLsbD_tailMask z hz _ (by omega)]
  by_cases h : 15 - i < z
  · simp [h, reverse8_eq]
  · simp [h]

/-! ### The loops -/

/-- The registers of a state in the opposite order. -/
def FoldState.mirror (s : FoldState (BitVec 128)) : FoldState (BitVec 128) :=
  { s with xmm := s.xmm.reverse }

/-- The same of several registers. -/
def FoldState.mirrorLanes (s : FoldState (ℕ → BitVec 128)) : FoldState (ℕ → BitVec 128) :=
  { s with xmm := fun i => (s.xmm i).reverse }

theorem fold16B_mirror (s : FoldState (BitVec 128)) :
    longLe.fold16B (fun a => reverse8 (m a)) s.mirror = (longBe.fold16B m s).mirror := by
  simp only [LongOps.fold16B, FoldState.mirror, fold128_reverse, loadOrdered_reverse]

theorem fold64B_mirror (s : FoldState (ℕ → BitVec 128)) :
    longLe.fold64B (fun a => reverse8 (m a)) s.mirrorLanes
      = (longBe.fold64B m s).mirrorLanes := by
  simp only [LongOps.fold64B, FoldState.mirrorLanes, fold512_reverse, loadOrdered_reverse]

/-- **Four registers** keep mirror images in step. -/
theorem foldFour_mirror (s : FoldState (BitVec 128)) :
    longLe.foldFour (fun a => reverse8 (m a)) s.mirror
      = (longBe.foldFour m s).map FoldState.mirror := by
  let start : FoldState (ℕ → BitVec 128) :=
    { xmm := fun i => if i = 0 then s.xmm else longBe.loadOrdered m (s.src + 16 * (i - 1)),
      src := s.src + 48, len := s.len }
  have hstart : start.mirrorLanes
      = { xmm := fun i => if i = 0 then s.xmm.reverse
            else longLe.loadOrdered (fun a => reverse8 (m a)) (s.src + 16 * (i - 1)),
          src := s.src + 48, len := s.len } := by
    simp only [start, FoldState.mirrorLanes, apply_ite BitVec.reverse, loadOrdered_reverse]
  -- the loops run in step: the test reads the counter only
  have hloop : Loop.whileLoop (fun t => decide (128 ≤ t.len))
        (fun t => some (longLe.fold64B (fun a => reverse8 (m a)) t)) s.len.toNat start.mirrorLanes
      = (Loop.whileLoop (fun t => decide (128 ≤ t.len)) (fun t => some (longBe.fold64B m t))
          s.len.toNat start).map FoldState.mirrorLanes :=
    Loop.whileLoop_map _ (fun _ => rfl) (fun t => congrArg some (fold64B_mirror m t)) _ _
  rw [hstart] at hloop
  simp only [LongOps.foldFour, FoldState.mirror, Option.bind_eq_bind]
  rw [hloop]
  cases Loop.whileLoop (fun t => decide (128 ≤ t.len)) (fun t => some (longBe.fold64B m t))
      s.len.toNat start with
  | none => rfl
  | some t =>
    simp only [Option.map_some, Option.bind_some, FoldState.mirror, FoldState.mirrorLanes,
      fold128_reverse]

theorem longBe_foldTail_eq {z : ℕ} (h1 : 1 ≤ z) (h15 : z ≤ 15) (s : FoldState (BitVec 128)) :
    longBe.foldTail m z s = longBe.foldInto longBe.koef128 (s.xmm <<< (8 * (16 - z)))
      (mmAlignrEpi8 (mmMaskzLoaduEpi8 ((1#16 <<< z) - 1#16) m s.src) s.xmm z) := by
  have hshift : (if 1 ≤ z ∧ z ≤ 15 then z else 0) = z := if_pos ⟨h1, h15⟩
  simp only [LongOps.foldTail, LongOps.foldInto, if_pos (show z ≠ 0 by omega), longBe,
    ownShiftTwoLanesBe, hshift, mmSlliSi128]
  rw [BitVec.xor_assoc, BitVec.xor_assoc, BitVec.xor_comm (mmClmulepi64Si128 _ _ 0x10)]

/-- **The last bytes** do as well. -/
theorem foldTail_mirror {z : ℕ} (hz : z < 16) (s : FoldState (BitVec 128)) :
    longLe.foldTail (fun a => reverse8 (m a)) z s.mirror = (longBe.foldTail m z s).reverse := by
  rcases Nat.eq_zero_or_pos z with rfl | hpos
  · rfl
  · rw [longLe_foldTail_eq _ hpos (by omega), longBe_foldTail_eq m hpos (by omega),
      fold128_reverse, reverse_shiftLeft, reverse_mmAlignrEpi8 _ _ (by omega),
      tailLoad_reverse m _ hz]
    rfl

/-- **The folds of the two paths are mirror images.** -/
theorem longBe_foldLong (src n : ℕ) (xCrc : BitVec 128) :
    longLe.foldLong (fun a => reverse8 (m a)) src n xCrc.reverse
      = (longBe.foldLong m src n xCrc).map BitVec.reverse := by
  -- the part both lengths share, from mirrored states
  have hrest : ∀ s : FoldState (BitVec 128),
      (Loop.whileLoop (fun s => decide (32 ≤ s.len))
          (fun s => some (longLe.fold16B (fun a => reverse8 (m a)) s)) s.len.toNat s.mirror).bind
        (fun s => some (longLe.foldTail (fun a => reverse8 (m a)) (n % 16) s))
      = ((Loop.whileLoop (fun s => decide (32 ≤ s.len)) (fun s => some (longBe.fold16B m s))
          s.len.toNat s).bind fun s => some (longBe.foldTail m (n % 16) s)).map
            BitVec.reverse := by
    intro s
    have hloop : Loop.whileLoop (fun s => decide (32 ≤ s.len))
          (fun s => some (longLe.fold16B (fun a => reverse8 (m a)) s)) s.len.toNat s.mirror
        = (Loop.whileLoop (fun s => decide (32 ≤ s.len)) (fun s => some (longBe.fold16B m s))
            s.len.toNat s).map FoldState.mirror :=
      Loop.whileLoop_map _ (fun _ => rfl) (fun t => congrArg some (fold16B_mirror m t)) _ _
    rw [hloop]
    cases Loop.whileLoop (fun s => decide (32 ≤ s.len)) (fun s => some (longBe.fold16B m s))
        s.len.toNat s with
    | none => rfl
    | some t =>
      simp only [Option.map_some, Option.bind_some, foldTail_mirror m (show n % 16 < 16 by omega)]
  have hstart : FoldState.mirror
        { xmm := longBe.loadOrdered m src ^^^ xCrc, src := src + 16, len := n }
      = { xmm := longLe.loadOrdered (fun a => reverse8 (m a)) src ^^^ xCrc.reverse,
          src := src + 16, len := n } := by
    simp only [FoldState.mirror, reverse_xor, loadOrdered_reverse]
  simp only [LongOps.foldLong, Option.bind_eq_bind, ← hstart, foldFour_mirror]
  split
  · cases longBe.foldFour m _ with
    | none => rfl
    | some s => exact hrest s
  · rw [Option.bind_some, Option.bind_some]
    exact hrest { xmm := longBe.loadOrdered m src ^^^ xCrc, src := src + 16, len := n }

end

/-! ### The whole path -/

/-- From 128 bits to 96: what is reversed at the end is the other path on the reversed
register. -/
theorem longBeReduce_eq (x : BitVec 128) : longBeReduce x = longLeReduce x.reverse := by
  obtain ⟨-, -, -, h96, h64⟩ := koef_reverse
  have hmask : (mmSetEpi64x 0xFFFFFFFFFFFFFFFF#64 0xFFFFFFFF00000000#64).reverse = mask2 := by
    set_option maxRecDepth 2000 in
    decide
  simp only [longBeReduce, longLeReduce, shuffle_dRefl, mmClmul_hi_lo, mmClmul_lo_hi, mmSlliSi128,
    mmSrliSi128]
  simp only [reverse_xor, reverse_and, clmul_longBeK, hmask, h96, h64, ← lo64_reverse,
    ← hi64_reverse, reverse_ushiftRight, reverse_shiftLeft]

/-- The seed as the two paths place it. -/
theorem crcRegister_reverse (crc : BitVec 32) :
    (mmCvtsi32Si128 crc.reverse).reverse = mmSlliSi128 (mmCvtsi32Si128 crc) 12 := by
  apply BitVec.eq_of_getLsbD_eq
  intro i hi
  rw [getLsbD_reverse_of_lt _ hi, mmSlliSi128, mmCvtsi32Si128, mmCvtsi32Si128,
    BitVec.getLsbD_shiftLeft, BitVec.getLsbD_setWidth, BitVec.getLsbD_setWidth,
    decide_eq_true hi, decide_eq_true (show 128 - 1 - i < 128 by omega)]
  by_cases h : i < 96
  · rw [BitVec.getLsbD_of_ge _ _ (by omega), decide_eq_true (show i < 8 * 12 by omega)]
    rfl
  · rw [getLsbD_reverse_of_lt _ (show 128 - 1 - i < 32 by omega),
      decide_eq_false (show ¬ i < 8 * 12 by omega),
      decide_eq_true (show i - 8 * 12 < 128 by omega),
      show 32 - 1 - (128 - 1 - i) = i - 8 * 12 by omega]
    rfl

/-- One bit of the reflected register. -/
theorem reflectedBit_reverse (p v : BitVec 32) :
    ((v >>> 1) ^^^ (-(v &&& 1#32) &&& p.reverse)).reverse = crc32Bit p v.reverse := by
  have hbit : v &&& 1#32 = if v.getLsbD 0 then 1#32 else 0#32 := BitVec.and_twoPow v 0
  rw [crc32Bit_eq, crcBit, getLsbD_reverse_of_lt v (show 32 - 1 < 32 by omega), hbit, reverse_xor,
    reverse_and, reverse_ushiftRight, BitVec.reverse_reverse_eq]
  cases v.getLsbD 0 with
  | true =>
    have hones : (-(1#32)).reverse = BitVec.allOnes 32 := by
      set_option maxRecDepth 2000 in decide
    rw [if_pos rfl, if_pos rfl, hones, BitVec.allOnes_and]
  | false =>
    have hzero : (-(0#32)).reverse = 0#32 := by
      set_option maxRecDepth 2000 in decide
    rw [if_neg (by decide), if_neg (by decide), hzero, BitVec.zero_and, BitVec.xor_zero]

/-- One byte of the reflected register. -/
theorem reflectedByte_reverse (p v : BitVec 32) (b : BitVec 8) :
    (Loop.iter (fun _ (crc : BitVec 32) => (crc >>> 1) ^^^ (-(crc &&& 1#32) &&& p.reverse)) 8
        (v ^^^ b.setWidth 32)).reverse
      = calculateCrc32u v.reverse (reverse8 b) p := by
  have hbyte : (b.setWidth 32).reverse = b.reverse.setWidth 32 <<< 24 := by
    apply BitVec.eq_of_getLsbD_eq
    intro i hi
    rw [getLsbD_reverse_of_lt _ hi, BitVec.getLsbD_shiftLeft, BitVec.getLsbD_setWidth,
      BitVec.getLsbD_setWidth, decide_eq_true hi, decide_eq_true (show 32 - 1 - i < 32 by omega)]
    by_cases h : i < 24
    · rw [BitVec.getLsbD_of_ge _ _ (by omega), decide_eq_true h]
      rfl
    · rw [getLsbD_reverse_of_lt _ (show i - 24 < 8 by omega), decide_eq_false h,
        decide_eq_true (show i - 24 < 32 by omega),
        show 8 - 1 - (i - 24) = 32 - 1 - i by omega]
      rfl
  have hstart : (v ^^^ b.setWidth 32).reverse
      = v.reverse ^^^ ((reverse8 b).setWidth 32 <<< 24) := by
    rw [reverse_xor, hbyte, reverse8_eq]
  rw [calculateCrc32u, ← hstart]
  exact Loop.iter_map BitVec.reverse (fun _ s => reflectedBit_reverse p s) 8 _

/-- **The reflected path is the other path on the reversed bytes**, so it is their reference
CRC. -/
theorem ownCrc32LongBeK0_eq (m : Memory) (src n : ℕ) (crc : BitVec 32) :
    ownCrc32LongBeK0 m src n crc
      = some (dmlRefCrc32u (fun a => reverse8 (m a)) src n crc crcPolynomial) := by
  have hle := ownCrc32LongLeK0_eq (fun a => reverse8 (m a)) src n crc
  simp only [ownCrc32LongBeK0, bitReflect32_eq]
  split
  · next hn =>
    -- the seed is reversed on the way in, the register on the way out
    have hfold := longBe_foldLong m src n (mmCvtsi32Si128 crc.reverse)
    rw [crcRegister_reverse] at hfold
    simp only [ownCrc32LongLeK0, if_pos hn, hfold] at hle
    rw [← hle]
    cases longBe.foldLong m src n (mmCvtsi32Si128 crc.reverse) with
    | none => simp only [Option.map_none, Option.bind_eq_bind, Option.bind_none]
    | some v => simp only [Option.map_some, Option.bind_eq_bind, Option.bind_some, longBeReduce_eq]
  · have hloop : (Loop.iter (fun i (crc : BitVec 32) => Loop.iter
          (fun _ (crc : BitVec 32) =>
            (crc >>> 1) ^^^ (-(crc &&& 1#32) &&& crcPolynomial.reverse)) 8
          (crc ^^^ (m (src + i)).setWidth 32)) n crc.reverse).reverse
        = dmlRefCrc32u (fun a => reverse8 (m a)) src n crc.reverse.reverse crcPolynomial :=
      Loop.iter_map BitVec.reverse
        (fun i s => reflectedByte_reverse crcPolynomial s (m (src + i))) n crc.reverse
    rw [hloop, BitVec.reverse_reverse_eq]

/-! ### The kernel -/

/-- **The reflected vector CRC is the reflected reference CRC**, for every length, every seed
and the usual polynomial. -/
theorem dmlAvx512CrcReflectedU32_eq (m : Memory) (src n : ℕ) (crc : BitVec 32) :
    dmlAvx512CrcReflectedU32 m src n crc crcPolynomial
      = some (dmlRefCrcReflectedU32 m src n crc crcPolynomial) := by
  rw [dmlRefCrcReflectedU32_eq]
  exact ownCalculateCrc_eq reflectsBytes_dRefl (ownCrc32LongBeK0_eq m src n crc)

end DataMover
