import DataMover.Avx512.Crc
import DataMover.Lib.CrcRegister

/-!
# The CRC as polynomial arithmetic

The reference CRC of `n` bytes with seed `s` is `x ^ 8n * s + x ^ 32 * message` modulo the
polynomial of the CRC.  The vector code computes the same class: every fold multiplies a
register by a power of `x`, and the last steps multiply by `x ^ 32` and reduce.

## Main definitions

* `modulus` — the polynomial of the CRC with its leading term.
* `xMod` — the class of `x`.
* `laneSum` — the class of several registers side by side.
* `barrettWith`, `reduceWith` — the last steps, which both paths share.

## Main results

* `residue_dmlRefCrc32u` — the class of the reference CRC.
* `residue_fold`, `residue_tail` — two products move a register up, and make room for the
  last bytes.
* `reduceWith_spec`, `residue_barrettWith` — from 128 bits to the CRC.
-/

namespace DataMover

open ByteMemory Carryless Simd Polynomial

/-! ### The ring of the CRC -/

/-- The polynomial of the CRC, with the leading term the code leaves out. -/
noncomputable def modulus (polynomial : BitVec 32) : (ZMod 2)[X] := X ^ 32 + toPoly polynomial

variable {p : BitVec 32}

theorem degree_modulus (p : BitVec 32) : (modulus p).degree = 32 := degree_withLeading p

/-- The class of `X`. -/
noncomputable def xMod (p : BitVec 32) : AdjoinRoot (modulus p) := AdjoinRoot.root (modulus p)

theorem mk_X (p : BitVec 32) : AdjoinRoot.mk (modulus p) X = xMod p := AdjoinRoot.mk_X

theorem mk_toPoly {n : ℕ} (p : BitVec 32) (v : BitVec n) :
    AdjoinRoot.mk (modulus p) (toPoly v) = residue (modulus p) v := rfl

/-- The leading term is the rest of the polynomial. -/
theorem xMod_pow_32 (p : BitVec 32) : xMod p ^ 32 = residue (modulus p) p := root_pow_width p

/-! ### The reference CRC -/

theorem crc32Bit_eq (p v : BitVec 32) : crc32Bit p v = crcBit p v :=
  crcBit_eq_mask (by decide) (by decide) p v

/-- **One bit of the register is one multiplication by `x`.** -/
theorem residue_crc32Bit_iter (p v : BitVec 32) (k : ℕ) :
    residue (modulus p) (Loop.iter (fun _ v => crc32Bit p v) k v)
      = xMod p ^ k * residue (modulus p) v := by
  simp only [crc32Bit_eq]
  exact residue_crcBit_iter (by decide) p v k

/-- The reference CRC is the register of a check of width 32. -/
theorem dmlRefCrc32u_eq (m : Memory) (src n : ℕ) (crcValue p : BitVec 32) :
    dmlRefCrc32u m src n crcValue p = crcBytes p (fun i => m (src + i)) n crcValue := by
  unfold dmlRefCrc32u crcBytes calculateCrc32u
  simp only [crc32Bit_eq]
  rfl

/-- **The class of the reference CRC**: the seed moved up by the bits of the data, and the
data moved up by the width of the register. -/
theorem residue_dmlRefCrc32u (p : BitVec 32) (m : Memory) (src n : ℕ) (crcValue : BitVec 32) :
    residue (modulus p) (dmlRefCrc32u m src n crcValue p)
      = xMod p ^ (8 * n) * residue (modulus p) crcValue
        + xMod p ^ 32 * AdjoinRoot.mk (modulus p) (message (fun i => m (src + i)) n) := by
  rw [dmlRefCrc32u_eq]
  exact residue_crcBytes (by decide) p _ n crcValue

/-- The reflected CRC is the CRC of the reversed bytes. -/
theorem dmlRefCrcReflectedU32_eq (m : Memory) (src n : ℕ) (crcValue p : BitVec 32) :
    dmlRefCrcReflectedU32 m src n crcValue p
      = dmlRefCrc32u (fun a => reverse8 (m a)) src n crcValue p := rfl

/-- A CRC is determined by its class. -/
theorem crc_eq_of_residue_eq {v w : BitVec 32}
    (h : residue (modulus p) v = residue (modulus p) w) : v = w :=
  residue_injective (degree_modulus p).ge h

/-! ### Folding -/

/-- A coefficient in the upper half of 64 bits. -/
theorem toPoly_setWidth_shiftLeft_32 (k : BitVec 32) :
    toPoly (k.setWidth 64 <<< 32) = X ^ 32 * toPoly k := by
  have hlow : (k.setWidth 64).extractLsb' 0 32 = k := by
    apply BitVec.eq_of_getLsbD_eq
    intro i hi
    simp [hi, show i < 64 by omega]
  rw [toPoly_shiftLeft _ (show 32 + 32 = 64 by rfl), hlow]

/-- **Two products move a register up** by `t` bits when the coefficients are `x ^ t` and
`x ^ (t + 64)`. -/
theorem residue_fold {e1 e0 : BitVec 64} {t : ℕ}
    (h1 : residue (modulus p) e1 = xMod p ^ (t + 64)) (h0 : residue (modulus p) e0 = xMod p ^ t)
    (v : BitVec 128) :
    residue (modulus p) (mmClmulepi64Si128 v (mmSetEpi64x e1 e0) 0x11)
        + residue (modulus p) (mmClmulepi64Si128 v (mmSetEpi64x e1 e0) 0x00)
      = xMod p ^ t * residue (modulus p) v := by
  rw [mmClmul_hi_hi, mmClmul_lo_lo, residue, residue, toPoly_clmul, toPoly_clmul, residue,
    toPoly_halves v]
  simp only [map_add, map_mul, map_pow, mk_X, mk_toPoly, h1, h0]
  ring

/-- **The last bytes.**  A register is split where `z` more bytes go in: its top `z` bytes
are folded into the rest of it followed by the new bytes. -/
theorem residue_tail {v w : BitVec 128} (f : ℕ → BitVec 8) {z : ℕ} (hz : z ≤ 16)
    (hw : ∀ i, i < 16 → byte w i = if i < z then f (z - 1 - i) else byte v (i - z)) :
    xMod p ^ 128 * residue (modulus p) (v >>> (8 * (16 - z))) + residue (modulus p) w
      = xMod p ^ (8 * z) * residue (modulus p) v
        + AdjoinRoot.mk (modulus p) (message f z) := by
  have hhigh : residue (modulus p) (v >>> (8 * (16 - z)))
      = residue (modulus p) (v.extractLsb' (128 - 8 * z) (8 * z)) := by
    rw [show 8 * (16 - z) = 128 - 8 * z by omega, residue,
      toPoly_ushiftRight v (show 128 - 8 * z + 8 * z = 128 by omega), mk_toPoly]
  have hlow := congrArg (AdjoinRoot.mk (modulus p)) (toPoly_of_bytes f hz hw)
  have hsplit := congrArg (AdjoinRoot.mk (modulus p))
    (toPoly_split v (show 128 - 8 * z + 8 * z = 128 by omega))
  simp only [map_add, map_mul, map_pow, mk_X, mk_toPoly] at hlow hsplit
  have hpow : xMod p ^ 128 = xMod p ^ (8 * z) * xMod p ^ (128 - 8 * z) := by
    rw [← pow_add, show 8 * z + (128 - 8 * z) = 128 by omega]
  rw [hhigh, hlow, hsplit, hpow]
  ring

/-! ### Several registers side by side -/

/-- The class of `n` registers of 128 bits, the first on top. -/
noncomputable def laneSum (c : ℕ → AdjoinRoot (modulus p)) : ℕ → AdjoinRoot (modulus p)
  | 0 => 0
  | n + 1 => xMod p ^ 128 * laneSum c n + c n

theorem laneSum_succ (c : ℕ → AdjoinRoot (modulus p)) (n : ℕ) :
    laneSum c (n + 1) = xMod p ^ 128 * laneSum c n + c n := rfl

/-- A message of 16 bytes more. -/
theorem mk_message_block (f : ℕ → BitVec 8) (n : ℕ) :
    AdjoinRoot.mk (modulus p) (message f (16 * (n + 1)))
      = xMod p ^ 128 * AdjoinRoot.mk (modulus p) (message f (16 * n))
        + AdjoinRoot.mk (modulus p) (message (fun j => f (16 * n + j)) 16) := by
  rw [Nat.mul_succ, message_add, map_add, map_mul, map_pow, mk_X]

/-- **Folding every register folds all of them.** -/
theorem laneSum_fold {c c' : ℕ → AdjoinRoot (modulus p)} {f : ℕ → BitVec 8} {t n : ℕ}
    (h : ∀ i, i < n → c' i
      = xMod p ^ t * c i + AdjoinRoot.mk (modulus p) (message (fun j => f (16 * i + j)) 16)) :
    laneSum c' n = xMod p ^ t * laneSum c n + AdjoinRoot.mk (modulus p) (message f (16 * n)) := by
  induction n with
  | zero => simp [laneSum, message]
  | succ n ih =>
    rw [laneSum_succ, laneSum_succ, ih fun i hi => h i (by omega), h n (by omega),
      mk_message_block]
    ring

/-! ### From 128 bits to 96, and to the CRC -/

/-- Barrett's reduction as both paths do it, over the polynomial and the quotient. -/
def barrettWith (q u : BitVec 64) (xmm : BitVec 128) : BitVec 32 :=
  let k := mmSetEpi64x q u
  let quot := mmSlliSi128 (mmClmulepi64Si128 xmm k 0x01) 4
  mmExtractEpi32 (mmSlliSi128 (mmClmulepi64Si128 quot k 0x11) 4 ^^^ xmm) 1

/-- The bits Barrett's reduction reads and leaves. -/
theorem barrettWith_eq (q u : BitVec 64) (v : BitVec 128) :
    barrettWith q u v
      = (clmul ((clmul (hi64 v) u).extractLsb' 32 64) q
          ^^^ (v.extractLsb' 32 64).setWidth 128).extractLsb' 0 32 := by
  have hquot : ∀ w : BitVec 128, hi64 (w <<< 32) = w.extractLsb' 32 64 := by
    intro w
    apply BitVec.eq_of_getLsbD_eq
    intro i hi
    rw [hi64, BitVec.getLsbD_extractLsb', BitVec.getLsbD_extractLsb', BitVec.getLsbD_shiftLeft,
      show 64 + i - 32 = 32 + i by omega, decide_eq_true (show 64 + i < 128 by omega),
      decide_eq_false (show ¬ 64 + i < 32 by omega)]
    rfl
  have hlow : ∀ a b : BitVec 128,
      ((a <<< 32) ^^^ b).extractLsb' 32 32
        = (a ^^^ (b.extractLsb' 32 64).setWidth 128).extractLsb' 0 32 := by
    intro a b
    apply BitVec.eq_of_getLsbD_eq
    intro i hi
    simp [hi, show 32 + i < 128 by omega, show i < 128 by omega, show i < 64 by omega]
  simp only [barrettWith, mmExtractEpi32, mmSlliSi128, mmClmul_hi_lo, mmClmul_hi_hi]
  exact (hlow _ _).trans (by rw [hquot])

/-- **Barrett's reduction** of the bits 32 to 95 of a register that has no bits above. -/
theorem residue_barrettWith {q u : BitVec 64} {r : (ZMod 2)[X]} (hq : toPoly q = modulus p)
    (hu : X ^ 64 = toPoly u * modulus p + r) (hr : r.degree < (32 : ℕ)) {v : BitVec 128}
    (hv : (toPoly v).degree < (96 : ℕ)) :
    residue (modulus p) (barrettWith q u v) = residue (modulus p) (v.extractLsb' 32 64) := by
  -- the top 32 bits of what is reduced
  have hc2 : (toPoly (hi64 v)).degree < (32 : ℕ) := by
    rw [degree_lt_iff_coeff_zero] at hv ⊢
    intro i hi
    have h := hv (64 + i) (by omega)
    rw [coeff_toPoly] at h ⊢
    rw [hi64, BitVec.getLsbD_extractLsb']
    by_cases hi64 : i < 64
    · simpa [hi64] using h
    · simp [hi64]
  have hword : toPoly (v.extractLsb' 32 64)
      = X ^ 32 * toPoly (hi64 v) + toPoly (v.extractLsb' 32 32) := by
    have htop : (v.extractLsb' 32 64).extractLsb' 32 32 = (hi64 v).extractLsb' 0 32 := by
      apply BitVec.eq_of_getLsbD_eq
      intro i hi
      simp [hi64, hi, show 32 + i < 64 by omega, show i < 64 by omega,
        show 32 + (32 + i) = 64 + i by omega]
    have hbottom : (v.extractLsb' 32 64).extractLsb' 0 32 = v.extractLsb' 32 32 := by
      apply BitVec.eq_of_getLsbD_eq
      intro i hi
      simp [hi, show i < 64 by omega]
    rw [toPoly_split (v.extractLsb' 32 64) (show 32 + 32 = 64 by rfl), htop, hbottom,
      toPoly_extract_of_degree_lt hc2]
  have hquot : toPoly (hi64 v) * toPoly u
      = X ^ 32 * toPoly ((clmul (hi64 v) u).extractLsb' 32 64)
        + toPoly ((clmul (hi64 v) u).extractLsb' 0 32) := by
    have hdeg : (toPoly (clmul (hi64 v) u)).degree < (32 + 64 : ℕ) := by
      rw [toPoly_clmul]
      exact degree_mul_lt hc2 (degree_toPoly_lt u).le
    rw [← toPoly_clmul, ← toPoly_split_of_degree_lt hdeg]
  have hrem := barrett_degree (d := 32) (degree_modulus p).le hu hr hc2 hquot
    (degree_toPoly_lt _)
  -- the remainder has 32 bits, so nothing is lost where the code takes 32 bits
  have hsum : toPoly (clmul ((clmul (hi64 v) u).extractLsb' 32 64) q
        ^^^ (v.extractLsb' 32 64).setWidth 128)
      = toPoly ((clmul (hi64 v) u).extractLsb' 32 64) * modulus p
        + toPoly (v.extractLsb' 32 64) := by
    rw [toPoly_xor, toPoly_clmul, hq, toPoly_setWidth _ (by omega)]
  have hdeg : (toPoly (clmul ((clmul (hi64 v) u).extractLsb' 32 64) q
      ^^^ (v.extractLsb' 32 64).setWidth 128)).degree < (32 : ℕ) := by
    have hswap : ∀ a b c : (ZMod 2)[X], a + (b + c) = b - a + c := by
      intro a b c
      rw [CharTwo.sub_eq_add]
      ring
    rw [hsum, hword, hswap]
    exact degree_add_lt hrem (degree_toPoly_lt _)
  rw [barrettWith_eq, residue, toPoly_extract_of_degree_lt hdeg, hsum, map_add, map_mul,
    AdjoinRoot.mk_self, mul_zero, zero_add, mk_toPoly]

/-- From 128 bits to 96 as both paths do it, over the two coefficients. -/
def reduceWith (e64 e96 : BitVec 32) (xmm : BitVec 128) : BitVec 128 :=
  let k := mmSetEpi64x (e64.setWidth 64 <<< 32) (e96.setWidth 64 <<< 32)
  let xmm7 := mmClmulepi64Si128 xmm k 0x01 ^^^ mmSlliSi128 xmm 8
  mmClmulepi64Si128 (mmSrliSi128 xmm7 12) k 0x10 ^^^ (xmm7 &&& mask2)

/-- The mask keeps the low 96 bits. -/
theorem toPoly_and_mask2 (v : BitVec 128) : toPoly (v &&& mask2) = toPoly (v.extractLsb' 0 96) := by
  have hmask : mask2 = BitVec.ofNat 128 (2 ^ 96 - 1) := by decide
  ext i
  rw [coeff_toPoly, coeff_toPoly, BitVec.getLsbD_and, BitVec.getLsbD_extractLsb', hmask,
    BitVec.getLsbD_ofNat, Nat.testBit_two_pow_sub_one, Nat.zero_add]
  by_cases hi : i < 96
  · simp [hi, show i < 128 by omega]
  · simp [hi]

theorem toPoly_lo64_srli (v : BitVec 128) :
    toPoly (lo64 (mmSrliSi128 v 12)) = toPoly (v.extractLsb' 96 32) := by
  ext i
  rw [coeff_toPoly, coeff_toPoly, lo64, mmSrliSi128, BitVec.getLsbD_extractLsb',
    BitVec.getLsbD_extractLsb', BitVec.getLsbD_ushiftRight, Nat.zero_add]
  by_cases hi : i < 32
  · simp [hi, show i < 64 by omega]
  · simp [hi, BitVec.getLsbD_of_ge v (96 + i) (by omega)]

/-- **From 128 bits to 96**: what is left has no bits above 96, and its bits from 32 on are
the register moved up by 32. -/
theorem reduceWith_spec {e64 e96 : BitVec 32} (h64 : residue (modulus p) e64 = xMod p ^ 64)
    (h96 : residue (modulus p) e96 = xMod p ^ 96) (v : BitVec 128) :
    (toPoly (reduceWith e64 e96 v)).degree < (96 : ℕ) ∧
      residue (modulus p) ((reduceWith e64 e96 v).extractLsb' 32 64)
        = xMod p ^ 32 * residue (modulus p) v := by
  -- after the first step: the upper half by `x ^ 128`, the lower half by `x ^ 64`
  let k := mmSetEpi64x (e64.setWidth 64 <<< 32) (e96.setWidth 64 <<< 32)
  let b := mmClmulepi64Si128 v k 0x01 ^^^ mmSlliSi128 v 8
  have hb : toPoly b
      = X ^ 32 * (toPoly (hi64 v) * toPoly e96 + X ^ 32 * toPoly (lo64 v)) := by
    have hslli : toPoly (mmSlliSi128 v 8) = X ^ 64 * toPoly (lo64 v) :=
      toPoly_shiftLeft v (show 64 + 64 = 128 by rfl)
    rw [toPoly_xor, mmClmul_hi_lo, toPoly_clmul, toPoly_setWidth_shiftLeft_32, hslli]
    ring
  have hsplit : toPoly b = X ^ 96 * toPoly (b.extractLsb' 96 32) + toPoly (b.extractLsb' 0 96) :=
    toPoly_split b (show 96 + 32 = 128 by rfl)
  -- after the second: the top 32 bits by `x ^ 96`
  have hc : toPoly (reduceWith e64 e96 v)
      = toPoly (b.extractLsb' 96 32) * toPoly (e64.setWidth 64 <<< 32)
        + toPoly (b.extractLsb' 0 96) := by
    have hunfold : reduceWith e64 e96 v
        = mmClmulepi64Si128 (mmSrliSi128 b 12) k 0x10 ^^^ (b &&& mask2) := rfl
    rw [hunfold, toPoly_xor, mmClmul_lo_hi, toPoly_clmul, toPoly_lo64_srli, toPoly_and_mask2]
  have hdeg : (toPoly (reduceWith e64 e96 v)).degree < (32 + 64 : ℕ) := by
    rw [hc]
    exact degree_add_lt (degree_mul_lt (degree_toPoly_lt _) (degree_toPoly_lt _).le)
      (degree_toPoly_lt _)
  refine ⟨hdeg, ?_⟩
  have hslice := toPoly_split_of_degree_lt hdeg
  have hshape : toPoly (reduceWith e64 e96 v)
      = X ^ 32 * (toPoly (b.extractLsb' 96 32) * toPoly e64 + toPoly (hi64 v) * toPoly e96
          + X ^ 32 * toPoly (lo64 v) - X ^ 64 * toPoly (b.extractLsb' 96 32)) := by
    rw [hc, toPoly_setWidth_shiftLeft_32]
    linear_combination hb - hsplit
  have hword := eq_of_X_pow_mul_add (degree_toPoly_lt _) (hslice.symm.trans hshape)
  rw [residue, hword, residue, toPoly_halves v]
  simp only [map_add, map_sub, map_mul, map_pow, mk_X, mk_toPoly, h64, h96]
  ring

end DataMover
