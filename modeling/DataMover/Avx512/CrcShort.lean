import DataMover.Avx512.CrcFold

/-!
# The CRC of short data

The `opt` path of the vector CRC, for every table of coefficients that holds what its names
say.  A register that has absorbed `k` bytes holds the seed moved up by `8k - 32` bits and
the `k` bytes as one polynomial; every loop keeps this, and every tail finishes it.

## Main definitions

* `KoeffSpec` — what the code relies on in a table of coefficients.
* `absorbed` — the class of a register that has absorbed `k` bytes.

## Main results

* `reductionLoop16B_eq`, `atLeast256_eq`, `lessThan32_eq` — the parts of the path.
* `ownCrcOptK0_eq` — the path is the reference CRC of the bytes, reflected or not.
-/

namespace DataMover

open ByteMemory Carryless Simd Polynomial

/-! ### Coefficients -/

/-- **What a table of coefficients has to hold**: the polynomial, Barrett's quotient, and
powers of `x`. -/
structure KoeffSpec (p : BitVec 32) (koeff : ℕ → BitVec 32) : Prop where
  modulus : toPoly (koeff 1 ++ koeff 0) = modulus p
  quotient : ∃ r : (ZMod 2)[X],
    X ^ 64 = toPoly (koeff 3 ++ koeff 2) * DataMover.modulus p + r ∧ r.degree < (32 : ℕ)
  k64 : residue (DataMover.modulus p) (koeff 4) = xMod p ^ 64
  power : ∀ j, j ≤ 15 → residue (DataMover.modulus p) (koeff (5 + j)) = xMod p ^ (96 + 64 * j)

section

variable {p : BitVec 32} {koeff : ℕ → BitVec 32} (hk : KoeffSpec p koeff)

theorem residue_optK (i : ℕ) : residue (modulus p) (optK koeff i)
    = xMod p ^ 32 * residue (modulus p) (koeff i) := by
  rw [residue, optK, toPoly_setWidth_shiftLeft_32, map_mul, map_pow, mk_X, mk_toPoly]

include hk

theorem residue_barrett {v : BitVec 128} (hv : (toPoly v).degree < (96 : ℕ)) :
    residue (modulus p) (barrett koeff 32 v) = residue (modulus p) (v.extractLsb' 32 64) := by
  obtain ⟨r, hu, hr⟩ := hk.quotient
  have hbarrett : barrett koeff 32 v = barrettWith (koeff 1 ++ koeff 0) (koeff 3 ++ koeff 2) v := by
    simp [barrett, barrettWith, cleanup]
  rw [hbarrett]
  exact residue_barrettWith hk.modulus hu hr hv

/-- **The last step** moves 128 bits up by 32 and reduces them. -/
theorem residue_done128 (v : BitVec 128) :
    residue (modulus p) (done128 koeff 32 v) = xMod p ^ 32 * residue (modulus p) v := by
  obtain ⟨hdeg, hres⟩ := reduceWith_spec hk.k64 (hk.power 0 (by omega)) v
  have hdone : done128 koeff 32 v = barrett koeff 32 (reduceWith (koeff 4) (koeff 5) v) := rfl
  rw [hdone, residue_barrett hk hdeg, hres]

/-- The coefficients `5 + j` and `6 + j` move a register up. -/
theorem residue_fold_optK {j : ℕ} (hj : j < 15) (v : BitVec 128) :
    residue (modulus p)
        (mmClmulepi64Si128 v (mmSetEpi64x (optK koeff (6 + j)) (optK koeff (5 + j))) 0x11)
      + residue (modulus p)
        (mmClmulepi64Si128 v (mmSetEpi64x (optK koeff (6 + j)) (optK koeff (5 + j))) 0x00)
      = xMod p ^ (128 + 64 * j) * residue (modulus p) v := by
  refine residue_fold ?_ ?_ v
  · rw [residue_optK, show 6 + j = 5 + (j + 1) by omega, hk.power (j + 1) (by omega), ← pow_add]
    congr 1; omega
  · rw [residue_optK, hk.power j (by omega), ← pow_add]
    congr 1; omega

theorem residue_fold16 (v : BitVec 128) :
    residue (modulus p) (fold16 koeff v) = xMod p ^ 128 * residue (modulus p) v := by
  rw [fold16, residue_xor]
  exact residue_fold_optK hk (show 0 < 15 by omega) v

end

/-! ### Loads -/

/-- A reflection of a register that is a reflection of its bytes. -/
structure ReflectsBytes (refl : BitVec 128 → BitVec 128) (rb : BitVec 8 → BitVec 8) : Prop where
  byte : ∀ v i, i < 16 → byte (refl v) i = rb (byte v i)
  zero : rb 0#8 = 0#8

theorem byte_endiaShufMask : ∀ i < 16, byte endiaShufMask i = BitVec.ofNat 8 (15 - i) := by
  decide

theorem byte_shuffle_endia (v : BitVec 128) {i : ℕ} (hi : i < 16) :
    byte (mmShuffleEpi8 v endiaShufMask) i = byte v (15 - i) := by
  have hval : (BitVec.ofNat 8 (15 - i)).toNat = 15 - i := by
    rw [BitVec.toNat_ofNat]
    omega
  have htop : (BitVec.ofNat 8 (15 - i)).getLsbD 7 = false := by
    rw [BitVec.getLsbD, hval]
    exact Nat.testBit_lt_two_pow (by omega)
  rw [byte_mmShuffleEpi8 _ _ hi, byte_endiaShufMask i hi, htop, hval, Nat.mod_eq_of_lt (by omega)]
  rfl

section

variable {refl : BitVec 128 → BitVec 128} {rb : BitVec 8 → BitVec 8} (hrb : ReflectsBytes refl rb)

include hrb

theorem byte_loadEndia (m : Memory) (a : ℕ) {i : ℕ} (hi : i < 16) :
    byte (loadEndia refl m a) i = rb (m (a + (15 - i))) := by
  rw [loadEndia, byte_shuffle_endia _ hi, hrb.byte _ _ (by omega),
    byte_mmLoaduSi128 _ _ (by omega)]

/-- **Sixteen bytes of data are a message.** -/
theorem toPoly_loadEndia (m : Memory) (a : ℕ) :
    toPoly (loadEndia refl m a) = message (fun i => rb (m (a + i))) 16 :=
  toPoly_eq_message fun _ hi => byte_loadEndia hrb m a hi

theorem residue_loadEndia (p : BitVec 32) (m : Memory) (a : ℕ) :
    residue (modulus p) (loadEndia refl m a)
      = AdjoinRoot.mk (modulus p) (message (fun i => rb (m (a + i))) 16) := by
  rw [residue, toPoly_loadEndia hrb]

end

/-! ### What a register has absorbed -/

/-- The seed in the top four of `k` bytes, and the `k` bytes. -/
noncomputable def absorbed (p : BitVec 32) (f : ℕ → BitVec 8) (crc : BitVec 32) (k : ℕ) :
    AdjoinRoot (modulus p) :=
  xMod p ^ (8 * k - 32) * residue (modulus p) crc + AdjoinRoot.mk (modulus p) (message f k)

theorem absorbed_add (p : BitVec 32) (f : ℕ → BitVec 8) (crc : BitVec 32) {k : ℕ} (hk : 4 ≤ k)
    (l : ℕ) :
    absorbed p f crc (k + l) = xMod p ^ (8 * l) * absorbed p f crc k
      + AdjoinRoot.mk (modulus p) (message (fun i => f (k + i)) l) := by
  have hpow : xMod p ^ (8 * (k + l) - 32) = xMod p ^ (8 * l) * xMod p ^ (8 * k - 32) := by
    rw [← pow_add]
    congr 1; omega
  rw [absorbed, absorbed, hpow, message_add, map_add, map_mul, map_pow, mk_X]
  ring

/-- **Registers side by side**: the first has absorbed 16 bytes, the others hold the bytes
after them. -/
theorem laneSum_absorbed {p : BitVec 32} {f : ℕ → BitVec 8} {crc : BitVec 32}
    {c : ℕ → AdjoinRoot (modulus p)} (h0 : c 0 = absorbed p f crc 16) {n : ℕ}
    (h : ∀ i, 1 ≤ i → i ≤ n →
      c i = AdjoinRoot.mk (modulus p) (message (fun j => f (16 * i + j)) 16)) :
    laneSum c (n + 1) = absorbed p f crc (16 * (n + 1)) := by
  induction n with
  | zero => rw [laneSum_succ, laneSum, h0, mul_zero, zero_add]
  | succ n ih =>
    rw [laneSum_succ, ih fun i h1 hi => h i h1 (by omega), h (n + 1) (by omega) le_rfl,
      Nat.mul_succ 16 (n + 1), absorbed_add p f crc (by omega)]

/-- **Absorbed data moved up by the width of the register is the reference CRC.** -/
theorem residue_eq_absorbed (p : BitVec 32) (m : Memory) (src : ℕ) (crc : BitVec 32) {n : ℕ}
    (hn : 4 ≤ n) :
    residue (modulus p) (dmlRefCrc32u m src n crc p)
      = xMod p ^ 32 * absorbed p (fun i => m (src + i)) crc n := by
  have hpow : xMod p ^ (8 * n) = xMod p ^ 32 * xMod p ^ (8 * n - 32) := by
    rw [← pow_add]
    congr 1; omega
  rw [residue_dmlRefCrc32u, absorbed, hpow]
  ring

/-- The seed as the code places it. -/
theorem toPoly_crcRegister (crc : BitVec 32) :
    toPoly (mmSlliSi128 (mmCvtsi32Si128 crc) 12) = X ^ 96 * toPoly crc := by
  have hlow : (mmCvtsi32Si128 crc).extractLsb' 0 32 = crc := by
    apply BitVec.eq_of_getLsbD_eq
    intro i hi
    simp [mmCvtsi32Si128, hi, show i < 128 by omega]
  have h := toPoly_shiftLeft (mmCvtsi32Si128 crc) (show 96 + 32 = 128 by rfl)
  rw [hlow] at h
  exact h

theorem residue_crcRegister (p crc : BitVec 32) :
    residue (modulus p) (mmSlliSi128 (mmCvtsi32Si128 crc) 12)
      = xMod p ^ 96 * residue (modulus p) crc := by
  rw [residue, toPoly_crcRegister, map_mul, map_pow, mk_X, mk_toPoly]

/-! ### The shift table -/

theorem pshufbShfTable_eq : ∀ z < 16, ∀ i < 16, 1 ≤ z → pshufbShfTable (16 - z + i)
    = if i < z then BitVec.ofNat 8 (128 + (16 - z + i)) else BitVec.ofNat 8 (i - z) := by
  decide

theorem byte_mask1 : ∀ i < 16, byte mask1 i = 0x80#8 := by
  decide

/-- A shuffle mask byte below 16, and the same with its top bit set. -/
theorem shuffle_byte : ∀ k < 16, (BitVec.ofNat 8 k).getLsbD 7 = false ∧
    (BitVec.ofNat 8 (128 + k)).getLsbD 7 = true ∧ (BitVec.ofNat 8 k).toNat % 16 = k ∧
    BitVec.ofNat 8 k ^^^ 0x80#8 = BitVec.ofNat 8 (128 + k) ∧
    BitVec.ofNat 8 (128 + k) ^^^ 0x80#8 = BitVec.ofNat 8 k := by
  decide

section

variable {z : ℕ} (h1 : 1 ≤ z) (h15 : z ≤ 15)

include h1 h15

theorem byte_shfTable {i : ℕ} (hi : i < 16) :
    byte (mmLoaduSi128 pshufbShfTable (16 - z)) i
      = if i < z then BitVec.ofNat 8 (128 + (16 - z + i)) else BitVec.ofNat 8 (i - z) := by
  rw [byte_mmLoaduSi128 _ _ hi, pshufbShfTable_eq z (by omega) i hi h1]

/-- The table with its top bits flipped. -/
theorem byte_shfTable_xor {i : ℕ} (hi : i < 16) :
    byte (mmLoaduSi128 pshufbShfTable (16 - z) ^^^ mask1) i
      = if i < z then BitVec.ofNat 8 (16 - z + i) else BitVec.ofNat 8 (128 + (i - z)) := by
  rw [byte_xor, byte_shfTable h1 h15 hi, byte_mask1 i hi]
  by_cases h : i < z
  · rw [if_pos h, if_pos h, (shuffle_byte (16 - z + i) (by omega)).2.2.2.2]
  · rw [if_neg h, if_neg h, (shuffle_byte (i - z) (by omega)).2.2.2.1]

/-- The shuffle by the table moves the bytes up by `z`. -/
theorem byte_shuffle_shfTable (v : BitVec 128) {i : ℕ} (hi : i < 16) :
    byte (mmShuffleEpi8 v (mmLoaduSi128 pshufbShfTable (16 - z))) i
      = if i < z then 0#8 else byte v (i - z) := by
  rw [byte_mmShuffleEpi8 _ _ hi, byte_shfTable h1 h15 hi]
  by_cases h : i < z
  · rw [if_pos h, if_pos h, (shuffle_byte (16 - z + i) (by omega)).2.1]
    rfl
  · obtain ⟨htop, -, hval, -⟩ := shuffle_byte (i - z) (by omega)
    rw [if_neg h, if_neg h, htop, hval]
    rfl

/-- The shuffle by the flipped table keeps the top `z` bytes. -/
theorem shuffle_shfTable_xor (v : BitVec 128) :
    mmShuffleEpi8 v (mmLoaduSi128 pshufbShfTable (16 - z) ^^^ mask1) = v >>> (8 * (16 - z)) := by
  refine eq_of_byte_eq (by rfl) fun i hi => ?_
  rw [byte_mmShuffleEpi8 _ _ (by omega), byte_shfTable_xor h1 h15 (by omega), byte_ushiftRight]
  by_cases h : i < z
  · obtain ⟨htop, -, hval, -⟩ := shuffle_byte (16 - z + i) (by omega)
    rw [if_pos h, htop, hval, Nat.add_comm i]
    rfl
  · rw [if_neg h, (shuffle_byte (i - z) (by omega)).2.1,
      byte_of_ge v (show 16 ≤ i + (16 - z) by omega)]
    rfl

/-- The blend: new bytes below, the bytes of `v` above, moved up by `z`. -/
theorem byte_blend_shfTable (w v : BitVec 128) {i : ℕ} (hi : i < 16) :
    byte (mmBlendvEpi8 w (mmShuffleEpi8 v (mmLoaduSi128 pshufbShfTable (16 - z)))
        (mmLoaduSi128 pshufbShfTable (16 - z) ^^^ mask1)) i
      = if i < z then byte w i else byte v (i - z) := by
  rw [byte_mmBlendvEpi8 _ _ _ hi, byte_shfTable_xor h1 h15 hi, byte_shuffle_shfTable h1 h15 v hi]
  by_cases h : i < z
  · rw [if_pos h, if_pos h, if_pos h, (shuffle_byte (16 - z + i) (by omega)).1]
    rfl
  · rw [if_neg h, if_neg h, if_neg h, (shuffle_byte (i - z) (by omega)).2.1]
    rfl

end

/-! ### The loops -/

section

variable {p : BitVec 32} {koeff : ℕ → BitVec 32} (hk : KoeffSpec p koeff)
  {refl : BitVec 128 → BitVec 128} {rb : BitVec 8 → BitVec 8} (hrb : ReflectsBytes refl rb)
  (m : Memory) (src : ℕ) (crc : BitVec 32)

/-- A register holds the first `k` bytes. -/
def Holds (p : BitVec 32) (rb : BitVec 8 → BitVec 8) (m : Memory) (src : ℕ) (crc : BitVec 32)
    (k : ℕ) (v : BitVec 128) : Prop :=
  residue (modulus p) v = absorbed p (fun i => rb (m (src + i))) crc k

variable {m src crc}

include hrb in
/-- The first 16 bytes with the seed. -/
theorem holds_first :
    Holds p rb m src crc 16 (loadEndia refl m src ^^^ mmSlliSi128 (mmCvtsi32Si128 crc) 12) := by
  rw [Holds, residue_xor, residue_loadEndia hrb, residue_crcRegister, absorbed, add_comm]

include hk in
/-- The last step, from a register that holds the data. -/
theorem residue_done128_of_holds {k : ℕ} {v : BitVec 128} (hv : Holds p rb m src crc k v) :
    residue (modulus p) (done128 koeff 32 v)
      = xMod p ^ 32 * absorbed p (fun i => rb (m (src + i))) crc k := by
  rw [residue_done128 hk, hv]

include hk hrb

/-- **The last bytes, fewer than 16.** -/
theorem residue_getLastTwoXmms {k z : ℕ} (hk16 : 16 ≤ k) (h1 : 1 ≤ z) (h15 : z ≤ 15)
    {v : BitVec 128} (hv : Holds p rb m src crc k v) :
    residue (modulus p) (getLastTwoXmms refl koeff 32 m (src + k) z v)
      = xMod p ^ 32 * absorbed p (fun i => rb (m (src + i))) crc (k + z) := by
  have haddr : (((src + k : ℕ) : ℤ) - 16 + (z : ℤ)).toNat = src + k - 16 + z := by omega
  have hz : ((16 : ℤ) - (z : ℤ)).toNat = 16 - z := by omega
  have hbytes : ∀ i, i < 16 → byte (mmBlendvEpi8 (loadEndia refl m (src + k - 16 + z))
      (mmShuffleEpi8 v (mmLoaduSi128 pshufbShfTable (16 - z)))
      (mmLoaduSi128 pshufbShfTable (16 - z) ^^^ mask1)) i
        = if i < z then rb (m (src + (k + (z - 1 - i)))) else byte v (i - z) := by
    intro i hi
    rw [byte_blend_shfTable h1 h15 _ _ hi]
    by_cases h : i < z
    · rw [if_pos h, if_pos h, byte_loadEndia hrb m _ hi,
        show src + k - 16 + z + (15 - i) = src + (k + (z - 1 - i)) by omega]
    · rw [if_neg h, if_neg h]
  -- the load ends with the data: it rereads bytes the register already holds
  simp only [getLastTwoXmms, haddr, hz]
  rw [residue_done128 hk, residue_xor, residue_fold16 hk, shuffle_shfTable_xor h1 h15,
    residue_tail (fun i => rb (m (src + (k + i)))) (by omega) hbytes,
    absorbed_add p _ crc (by omega), ← hv]

/-- The state of the loops over one register: `k` bytes are in, and `len` is what is left
of the `n` bytes, less 16. -/
structure FoldedAt (p : BitVec 32) (rb : BitVec 8 → BitVec 8) (m : Memory) (src : ℕ)
    (crc : BitVec 32) (n k : ℕ) (s : FoldState (BitVec 128)) : Prop where
  xmm : Holds p rb m src crc k s.xmm
  src : s.src = src + k
  len : s.len = (n : ℤ) - k - 16
  first : 16 ≤ k
  last : k ≤ n

theorem reduce16B_foldedAt {n k : ℕ} {s : FoldState (BitVec 128)}
    (hs : FoldedAt p rb m src crc n k s) (hlen : 0 ≤ s.len) :
    FoldedAt p rb m src crc n (k + 16) (reduce16B refl koeff m s) := by
  obtain ⟨hxmm, hsrc, hl, hfirst, hlast⟩ := hs
  refine ⟨?_, ?_, ?_, by omega, by omega⟩
  · rw [Holds, reduce16B, residue_xor, residue_fold16 hk, residue_loadEndia hrb, hsrc, hxmm,
      absorbed_add p _ crc (by omega)]
    simp only [Nat.add_assoc]
  · simp only [reduce16B, hsrc, Nat.add_assoc]
  · simp only [reduce16B, hl, Nat.cast_add, Nat.cast_ofNat]
    ring

/-- **The end of the path** from less than 16 bytes. -/
theorem residue_finalReductionFor128 {n k : ℕ} {s : FoldState (BitVec 128)}
    (hs : FoldedAt p rb m src crc n k s) (hlen : s.len < 0) :
    residue (modulus p) (finalReductionFor128 refl koeff 32 m s.src s.len s.xmm)
      = xMod p ^ 32 * absorbed p (fun i => rb (m (src + i))) crc n := by
  obtain ⟨hxmm, hsrc, hl, hfirst, hlast⟩ := hs
  simp only [finalReductionFor128]
  split
  · next h0 =>
    rw [residue_done128_of_holds hk hxmm, show k = n by omega]
  · next h0 =>
    have hz : s.len + 16 = ((n - k : ℕ) : ℤ) := by omega
    rw [hsrc, hz, residue_getLastTwoXmms hk hrb hfirst (by omega) (by omega) hxmm,
      show k + (n - k) = n by omega]

/-- **The loop over 16 bytes, and the end.** -/
theorem reductionLoop16B_eq {n k : ℕ} {s : FoldState (BitVec 128)}
    (hs : FoldedAt p rb m src crc n k s) (hlen : 0 ≤ s.len) :
    ∃ r, reductionLoop16B refl koeff 32 m s = some r ∧
      residue (modulus p) r = xMod p ^ 32 * absorbed p (fun i => rb (m (src + i))) crc n := by
  have hfirst := reduce16B_foldedAt hk hrb hs hlen
  have hstep : ∀ k t, FoldedAt p rb m src crc n k t → decide (0 ≤ t.len) = true →
      FoldedAt p rb m src crc n (k + 16) (reduce16B refl koeff m t) ∧
        ((reduce16B refl koeff m t).len + 16).toNat < (t.len + 16).toNat := by
    intro k t ht hc
    have hpos : 0 ≤ t.len := of_decide_eq_true hc
    refine ⟨reduce16B_foldedAt hk hrb ht hpos, ?_⟩
    simp only [reduce16B]
    omega
  have hfuel : ((reduce16B refl koeff m s).len + 16).toNat ≤ s.len.toNat := by
    simp only [reduce16B]
    omega
  obtain ⟨t, k', ht, hk', hexit⟩ := Loop.whileLoop_steps _
    (fun t : FoldState (BitVec 128) => (t.len + 16).toNat) hstep hfirst hfuel
  refine ⟨finalReductionFor128 refl koeff 32 m t.src t.len t.xmm, ?_, ?_⟩
  · simp only [reductionLoop16B, ht, Option.bind_eq_bind, Option.bind_some]
  · exact residue_finalReductionFor128 hk hrb hk' (by simpa using hexit)

/-- The state of the loop over eight registers. -/
structure LanesAt (p : BitVec 32) (rb : BitVec 8 → BitVec 8) (m : Memory) (src : ℕ)
    (crc : BitVec 32) (n k : ℕ) (s : FoldState (ℕ → BitVec 128)) : Prop where
  xmm : laneSum (fun i => residue (modulus p) (s.xmm i)) 8
    = absorbed p (fun i => rb (m (src + i))) crc k
  src : s.src + 128 = src + k
  len : s.len = (n : ℤ) - k - 128
  first : 128 ≤ k
  last : k ≤ n

theorem fold128B_lanesAt {n k : ℕ} {s : FoldState (ℕ → BitVec 128)}
    (hs : LanesAt p rb m src crc n k s) (hlen : 0 ≤ s.len) :
    LanesAt p rb m src crc n (k + 128) (fold128B refl koeff m s) := by
  obtain ⟨hxmm, hsrc, hl, hfirst, hlast⟩ := hs
  refine ⟨?_, ?_, ?_, by omega, by omega⟩
  · have hlane : ∀ i, i < 8 → residue (modulus p) ((fold128B refl koeff m s).xmm i)
        = xMod p ^ 1024 * residue (modulus p) (s.xmm i) + AdjoinRoot.mk (modulus p)
          (message (fun j => rb (m (src + (k + (16 * i + j))))) 16) := by
      intro i _
      simp only [fold128B]
      rw [residue_xor, residue_xor, residue_loadEndia hrb,
        ← residue_fold_optK hk (show 14 < 15 by omega) (s.xmm i), hsrc]
      simp only [Nat.add_assoc]
      ring
    rw [laneSum_fold (f := fun j => rb (m (src + (k + j)))) hlane, hxmm,
      absorbed_add p _ crc (by omega)]
  · simp only [fold128B, hsrc, Nat.add_assoc]
  · simp only [fold128B, hl, Nat.cast_add, Nat.cast_ofNat]
    ring

omit hrb in
/-- **Eight registers into one.** -/
theorem residue_fold8To1 (xmm : ℕ → BitVec 128) :
    residue (modulus p) (fold8To1 koeff xmm)
      = laneSum (fun i => residue (modulus p) (xmm i)) 8 := by
  -- after `i` steps the first `i` registers are in, `128 * (8 - i)` bits up
  have hloop : ∀ i, i ≤ 7 → residue (modulus p) (Loop.iter (fun i xmm7 =>
        let xmm10 := mmSetEpi64x (optK koeff (18 - 2 * i)) (optK koeff (17 - 2 * i))
        xmm7 ^^^ mmClmulepi64Si128 (xmm i) xmm10 0x00 ^^^ mmClmulepi64Si128 (xmm i) xmm10 0x11) i
        (xmm 7))
      = xMod p ^ (128 * (8 - i)) * laneSum (fun i => residue (modulus p) (xmm i)) i
        + residue (modulus p) (xmm 7) := by
    intro i
    induction i with
    | zero => intro _; rw [Loop.iter_zero, laneSum, mul_zero, zero_add]
    | succ i ih =>
      intro hi
      have hfold := residue_fold_optK hk (show 12 - 2 * i < 15 by omega) (xmm i)
      rw [show 6 + (12 - 2 * i) = 18 - 2 * i by omega,
        show 5 + (12 - 2 * i) = 17 - 2 * i by omega,
        show 128 + 64 * (12 - 2 * i) = 128 * (8 - (i + 1)) by omega] at hfold
      rw [Loop.iter_succ, residue_xor, residue_xor, ih (by omega), add_assoc,
        add_comm (residue _ _), hfold, laneSum_succ,
        show 128 * (8 - i) = 128 * (8 - (i + 1)) + 128 by omega, pow_add]
      ring
  have h := hloop 7 le_rfl
  rw [fold8To1, h]
  rfl

omit hk in
/-- The first eight registers. -/
theorem lanesAt_first (m : Memory) (src : ℕ) (crc : BitVec 32) {n : ℕ} (hn : 256 ≤ n) :
    LanesAt p rb m src crc n 128
      { xmm := fun i => if i = 0
          then loadEndia refl m src ^^^ mmSlliSi128 (mmCvtsi32Si128 crc) 12
          else loadEndia refl m (src + 16 * i),
        src := src, len := (n : ℤ) - 256 } := by
  refine ⟨laneSum_absorbed ?_ fun i h1 _ => ?_, rfl, by simp only; omega, le_rfl, by omega⟩
  · simp only [if_true]
    exact holds_first hrb
  · simp only [if_neg (show ¬ i = 0 by omega), residue_loadEndia hrb, Nat.add_assoc]

/-- **At least 256 bytes.** -/
theorem atLeast256_eq (m : Memory) (src : ℕ) (crc : BitVec 32) {n : ℕ} (hn : 256 ≤ n) :
    ∃ r, atLeast256 refl koeff 32 m src crc n = some r ∧
      residue (modulus p) r = xMod p ^ 32 * absorbed p (fun i => rb (m (src + i))) crc n := by
  have hstart := fold128B_lanesAt hk hrb (lanesAt_first hrb m src crc hn) (by simp only; omega)
  have hstep : ∀ k t, LanesAt p rb m src crc n k t → decide (0 ≤ t.len) = true →
      LanesAt p rb m src crc n (k + 128) (fold128B refl koeff m t) ∧
        ((fold128B refl koeff m t).len + 128).toNat < (t.len + 128).toNat := by
    intro k t ht hc
    have hpos : 0 ≤ t.len := of_decide_eq_true hc
    refine ⟨fold128B_lanesAt hk hrb ht hpos, ?_⟩
    simp only [fold128B]
    omega
  obtain ⟨t, k, ht, hlanes, hexit⟩ := Loop.whileLoop_steps _
    (fun t : FoldState (ℕ → BitVec 128) => (t.len + 128).toNat) hstep hstart
    (show _ ≤ (n : ℤ).toNat by simp only [fold128B]; omega)
  have hend : t.len < 0 := by simpa using hexit
  obtain ⟨hxmm, hsrc, hlen, hfirst, hlast⟩ := hlanes
  -- one register from here on
  have hone : FoldedAt p rb m src crc n k
      { xmm := fold8To1 koeff t.xmm, src := t.src + 128, len := t.len + (128 - 16) } :=
    ⟨by rw [Holds, residue_fold8To1 hk, hxmm], hsrc, by simp only; omega, by omega, hlast⟩
  have hunfold : atLeast256 refl koeff 32 m src crc n
      = if t.len + (128 - 16) < 0 then
          some (finalReductionFor128 refl koeff 32 m (t.src + 128) (t.len + (128 - 16))
            (fold8To1 koeff t.xmm))
        else reductionLoop16B refl koeff 32 m
          { xmm := fold8To1 koeff t.xmm, src := t.src + 128, len := t.len + (128 - 16) } := by
    simp only [atLeast256, Option.bind_eq_bind]
    rw [ht, Option.bind_some]
  rw [hunfold]
  split
  · next hneg =>
    have hfinal := residue_finalReductionFor128 hk hrb hone hneg
    exact ⟨_, rfl, hfinal⟩
  · next hpos => exact reductionLoop16B_eq hk hrb hone (Int.not_lt.mp hpos)

end

/-! ### Less than 32 bytes -/

/-- The array `ttt` once the first `r11` of `z` bytes are in it. -/
structure GatheredAt (m : Memory) (src z : ℕ) (g : Gather) : Prop where
  ttt : ∀ i, g.ttt i = if i < g.r11 then m (src + i) else 0#8
  src : g.src = src + g.r11
  len : g.len = (z : ℤ) - g.r11
  last : g.r11 ≤ z

theorem gather_gatheredAt {m : Memory} {src z : ℕ} {g : Gather} (hg : GatheredAt m src z g)
    {w : ℕ} (hw : g.len < 2 * w) :
    GatheredAt m src z (gather m w g) ∧ (gather m w g).len < w := by
  obtain ⟨httt, hsrc, hlen, hlast⟩ := hg
  unfold gather
  split
  · next h => exact ⟨⟨httt, hsrc, hlen, hlast⟩, h⟩
  · next h =>
    refine ⟨⟨fun i => ?_, by simp only [hsrc, Nat.add_assoc], by simp only; omega,
      by simp only; omega⟩, by simp only; omega⟩
    simp only
    rw [store_apply]
    by_cases hi : g.r11 ≤ i ∧ i < g.r11 + w
    · rw [if_pos hi, if_pos hi.2, byteAt_load _ _ (by omega), hsrc]
      congr 1; omega
    · rw [if_neg hi, httt]
      by_cases hlt : i < g.r11
      · rw [if_pos hlt, if_pos (by omega)]
      · rw [if_neg hlt, if_neg (by omega)]

/-- The bytes of data of less than 16 bytes. -/
theorem gatherLast_eq {m : Memory} {src z : ℕ} {g : Gather} (hg : GatheredAt m src z g)
    (hlen : g.len < 2) (i : ℕ) : gatherLast m g i = if i < z then m (src + i) else 0#8 := by
  obtain ⟨httt, hsrc, hl, hlast⟩ := hg
  unfold gatherLast
  split
  · next h => rw [httt, show g.r11 = z by omega]
  · next h =>
    rw [Function.update_apply]
    by_cases hi : i = g.r11
    · rw [if_pos hi, if_pos (by omega), hsrc, hi]
    · rw [if_neg hi, httt]
      by_cases hlt : i < g.r11
      · rw [if_pos hlt, if_pos (by omega)]
      · rw [if_neg hlt, if_neg (by omega)]

section

variable {p : BitVec 32} {koeff : ℕ → BitVec 32} (hk : KoeffSpec p koeff)
  {refl : BitVec 128 → BitVec 128} {rb : BitVec 8 → BitVec 8} (hrb : ReflectsBytes refl rb)
  {m : Memory} {src : ℕ} {crc : BitVec 32}

include hrb

/-- Less than 16 bytes with the seed, at the top of a register. -/
theorem toPoly_short (crc : BitVec 32) {ttt : Memory} {z : ℕ} (hz : z ≤ 16)
    (httt : ∀ i, i < 16 → ttt i = if i < z then m (src + i) else 0#8) :
    toPoly (loadEndia refl ttt 0 ^^^ mmSlliSi128 (mmCvtsi32Si128 crc) 12)
      = X ^ (8 * (16 - z)) * message (fun i => rb (m (src + i))) z + X ^ 96 * toPoly crc := by
  have hdata : message (fun i => rb (ttt (0 + i))) z = message (fun i => rb (m (src + i))) z :=
    message_congr fun i hi => by rw [Nat.zero_add, httt i (by omega), if_pos hi]
  have hrest : message (fun i => rb (ttt (0 + (z + i)))) (16 - z) = 0 := by
    rw [← message_zero (16 - z)]
    exact message_congr fun i hi => by
      rw [Nat.zero_add, httt _ (by omega), if_neg (by omega), hrb.zero]
  have hsixteen := message_add (fun i => rb (ttt (0 + i))) z (16 - z)
  rw [show z + (16 - z) = 16 by omega, hdata, hrest, add_zero] at hsixteen
  rw [toPoly_xor, toPoly_loadEndia hrb, hsixteen, toPoly_crcRegister]

include hk

/-- **One, two or three bytes** with the seed, moved down to the middle of the register. -/
theorem residue_barrett_short {ttt : Memory} {z : ℕ} (hz3 : z ≤ 3)
    (httt : ∀ i, i < 16 → ttt i = if i < z then m (src + i) else 0#8) :
    residue (modulus p) (barrett koeff 32 (mmSrliSi128
        (loadEndia refl ttt 0 ^^^ mmSlliSi128 (mmCvtsi32Si128 crc) 12) (8 - z)))
      = xMod p ^ (8 * z) * residue (modulus p) crc
        + xMod p ^ 32 * AdjoinRoot.mk (modulus p) (message (fun i => rb (m (src + i))) z) := by
  let v := loadEndia refl ttt 0 ^^^ mmSlliSi128 (mmCvtsi32Si128 crc) 12
  have hv : toPoly v = X ^ (8 * (8 - z)) * (X ^ 32 * (X ^ (8 * z) * toPoly crc
      + X ^ 32 * message (fun i => rb (m (src + i))) z)) := by
    rw [toPoly_short hrb crc (by omega) httt, show 8 * (16 - z) = 8 * (8 - z) + 64 by omega,
      show 96 = 8 * (8 - z) + (32 + 8 * z) by omega]
    ring
  have hshift : toPoly (mmSrliSi128 v (8 - z)) = X ^ 32 * (X ^ (8 * z) * toPoly crc
      + X ^ 32 * message (fun i => rb (m (src + i))) z) :=
    toPoly_ushiftRight_of_eq (by omega) hv
  have hdeg : (toPoly (mmSrliSi128 v (8 - z))).degree < (32 + 64 : ℕ) := by
    rw [mmSrliSi128, toPoly_ushiftRight v (show 8 * (8 - z) + (64 + 8 * z) = 128 by omega)]
    refine lt_of_lt_of_le (degree_toPoly_lt _) ?_
    exact_mod_cast (show 64 + 8 * z ≤ 32 + 64 by omega)
  have hword := eq_of_X_pow_mul_add (degree_toPoly_lt _)
    ((toPoly_split_of_degree_lt hdeg).symm.trans hshift)
  rw [residue_barrett hk hdeg, residue, hword]
  simp only [map_add, map_mul, map_pow, mk_X, mk_toPoly]

theorem residue_onlyLessThan4 {n : ℕ} (hpos : 0 < n) (h4 : n < 4) :
    residue (modulus p) (onlyLessThan4 refl koeff 32 m src n
        (mmSlliSi128 (mmCvtsi32Si128 crc) 12))
      = xMod p ^ (8 * n) * residue (modulus p) crc
        + xMod p ^ 32 * AdjoinRoot.mk (modulus p) (message (fun i => rb (m (src + i))) n) := by
  rcases (show n = 1 ∨ n = 2 ∨ n = 3 by omega) with rfl | rfl | rfl
  · refine residue_barrett_short hk hrb (z := 1) (by omega) fun i _ => ?_
    rw [Function.update_apply]
    by_cases h0 : i = 0
    · simp [h0]
    · simp [h0]
  · refine residue_barrett_short hk hrb (z := 2) (by omega) fun i _ => ?_
    rw [Function.update_apply, Function.update_apply]
    rcases (show i = 0 ∨ i = 1 ∨ 2 ≤ i by omega) with rfl | rfl | h
    · simp
    · simp
    · simp [show i ≠ 0 by omega, show i ≠ 1 by omega, show ¬ i < 2 by omega]
  · refine residue_barrett_short hk hrb (z := 3) (by omega) fun i _ => ?_
    rw [Function.update_apply, Function.update_apply, Function.update_apply]
    rcases (show i = 0 ∨ i = 1 ∨ i = 2 ∨ 3 ≤ i by omega) with rfl | rfl | rfl | h
    · simp
    · simp
    · simp
    · simp [show i ≠ 0 by omega, show i ≠ 1 by omega, show i ≠ 2 by omega, show ¬ i < 3 by omega]

/-- **Four to fifteen bytes.** -/
theorem residue_lessThan16Left {n : ℕ} (h4 : 4 ≤ n) (h16 : n < 16) :
    residue (modulus p) (lessThan16Left refl koeff 32 m src n
        (mmSlliSi128 (mmCvtsi32Si128 crc) 12))
      = xMod p ^ 32 * absorbed p (fun i => rb (m (src + i))) crc n := by
  have hstart : GatheredAt m src n { ttt := fun _ => 0#8, r11 := 0, src := src, len := n } :=
    ⟨fun i => by simp, by simp, by simp, by simp⟩
  obtain ⟨hg8, hl8⟩ := gather_gatheredAt hstart (w := 8) (by simp only; omega)
  obtain ⟨hg4, hl4⟩ := gather_gatheredAt hg8 (w := 4) hl8
  obtain ⟨hg2, hl2⟩ := gather_gatheredAt hg4 (w := 2) hl4
  have hr9 : ((16 : ℤ) - (n : ℤ)).toNat = 16 - n := by omega
  have hshort := toPoly_short hrb crc h16.le fun i _ => gatherLast_eq hg2 hl2 i
  have hholds := toPoly_ushiftRight_of_eq (k := 8 * (16 - n)) (by omega) (hshort.trans (by
    rw [show 96 = 8 * (16 - n) + (8 * n - 32) by omega, pow_add, mul_assoc, ← mul_add]))
  simp only [lessThan16Left, if_neg (show ¬ (n : ℤ) < 4 by omega), hr9]
  rw [residue_done128 hk, shuffle_shfTable_xor (by omega) (by omega), residue, hholds, absorbed]
  simp only [map_add, map_mul, map_pow, mk_X, mk_toPoly]
  ring

/-- **Less than 32 bytes.** -/
theorem lessThan32_eq {n : ℕ} (h32 : n < 32) :
    residue (modulus p) (lessThan32 refl koeff 32 m src crc n)
      = residue (modulus p) (dmlRefCrc32u (fun a => rb (m a)) src n crc p) := by
  unfold lessThan32
  split
  · next h0 =>
    rw [show n = 0 by omega]
    simp [cleanup, dmlRefCrc32u]
  · next h0 =>
    simp only
    split
    · next h16 =>
      rw [residue_done128_of_holds hk (holds_first hrb), residue_eq_absorbed _ _ _ _ (by omega),
        show n = 16 by omega]
    · split
      · next hlt =>
        -- below four bytes the seed reaches past the data, so `absorbed` does not apply
        rcases Nat.lt_or_ge n 4 with h4 | h4
        · rw [lessThan16Left, if_pos (by omega), residue_onlyLessThan4 hk hrb (by omega) h4,
            residue_dmlRefCrc32u]
        · rw [residue_lessThan16Left hk hrb h4 (by omega), residue_eq_absorbed _ _ _ _ h4]
      · next hge =>
        have hz : (n : ℤ) - 16 = ((n - 16 : ℕ) : ℤ) := by omega
        rw [hz, residue_getLastTwoXmms hk hrb le_rfl (by omega) (by omega) (holds_first hrb),
          residue_eq_absorbed _ _ _ _ (by omega), show 16 + (n - 16) = n by omega]

/-- **The `opt` path is the reference CRC** of the bytes, reflected or not, for every length
and every table of coefficients that holds what it should. -/
theorem ownCrcOptK0_eq (n : ℕ) :
    ownCrcOptK0 refl koeff 32 m src crc n
      = some (dmlRefCrc32u (fun a => rb (m a)) src n crc p) := by
  unfold ownCrcOptK0
  simp only [Nat.sub_self, BitVec.shiftLeft_zero]
  split
  · split
    · next h32 =>
      exact congrArg some (crc_eq_of_residue_eq (lessThan32_eq hk hrb (by omega)))
    · next h32 =>
      have hfold : FoldedAt p rb m src crc n 16
          { xmm := loadEndia refl m src ^^^ mmSlliSi128 (mmCvtsi32Si128 crc) 12, src := src + 16,
            len := (n : ℤ) - 32 } :=
        ⟨holds_first hrb, rfl, by simp only; omega, le_rfl, by omega⟩
      obtain ⟨r, hr, hres⟩ := reductionLoop16B_eq hk hrb hfold (by simp only; omega)
      rw [hr, crc_eq_of_residue_eq (hres.trans (residue_eq_absorbed p (fun a => rb (m a)) src crc
        (show 4 ≤ n by omega)).symm)]
  · next h256 =>
    obtain ⟨r, hr, hres⟩ := atLeast256_eq hk hrb m src crc (show 256 ≤ n by omega)
    rw [hr, crc_eq_of_residue_eq (hres.trans (residue_eq_absorbed p (fun a => rb (m a)) src crc
      (show 4 ≤ n by omega)).symm)]

end

/-! ### The table of the usual polynomial -/

/-- Every word of the table from the sixth on is the one before it, 64 bits up. -/
theorem optPoly1Ptr_step : ∀ j < 15,
    Loop.iter (fun _ v => crc32Bit crcPolynomial v) 64 (optPoly1Ptr (5 + j))
      = optPoly1Ptr (5 + (j + 1)) := by
  set_option maxRecDepth 2000 in
  decide

theorem optPoly1Ptr_first :
    Loop.iter (fun _ v => crc32Bit crcPolynomial v) 32 crcPolynomial = optPoly1Ptr 4 ∧
      Loop.iter (fun _ v => crc32Bit crcPolynomial v) 64 crcPolynomial = optPoly1Ptr 5 := by
  set_option maxRecDepth 2000 in
  decide

/-- Barrett's quotient of the table: its product with the polynomial is `x ^ 64` but for the
low 32 bits. -/
theorem optPoly1Ptr_quotient :
    clmul (optPoly1Ptr 3 ++ optPoly1Ptr 2) (optPoly1Ptr 1 ++ optPoly1Ptr 0)
      = BitVec.twoPow 128 64 ^^^ (optPoly1Ptr 4).setWidth 128 := by
  decide

/-- **The table of the usual polynomial holds what it should.** -/
theorem koeffSpec_optPoly1Ptr : KoeffSpec crcPolynomial optPoly1Ptr := by
  have hmod : toPoly (optPoly1Ptr 1 ++ optPoly1Ptr 0) = modulus crcPolynomial := by
    have hone : optPoly1Ptr 1 = BitVec.twoPow 32 0 := by decide
    have hpoly : optPoly1Ptr 0 = crcPolynomial := by decide
    rw [toPoly_append, hone, hpoly, toPoly_twoPow (by omega), pow_zero, mul_one, modulus]
  refine ⟨hmod, ⟨toPoly (optPoly1Ptr 4), ?_, degree_toPoly_lt _⟩, ?_, ?_⟩
  · have h := congrArg toPoly optPoly1Ptr_quotient
    rw [toPoly_clmul, toPoly_xor, toPoly_setWidth _ (by omega), toPoly_twoPow (by omega)] at h
    rw [← hmod]
    exact eq_add_of_sub_eq (by rw [CharTwo.sub_eq_add]; exact h.symm)
  · rw [← optPoly1Ptr_first.1, residue_crc32Bit_iter, ← xMod_pow_32, ← pow_add]
  · intro j
    induction j with
    | zero =>
      intro _
      rw [Nat.add_zero, ← optPoly1Ptr_first.2, residue_crc32Bit_iter, ← xMod_pow_32, ← pow_add]
    | succ j ih =>
      intro hj
      rw [← optPoly1Ptr_step j (by omega), residue_crc32Bit_iter, ih (by omega), ← pow_add,
        show 64 + (96 + 64 * j) = 96 + 64 * (j + 1) by omega]

end DataMover
