import DataMover.Avx512.CrcShort

/-!
# The CRC of long data

`own_crc32_long_le_k0`.  The data is folded in four registers, then in one, and the last
bytes are put in behind it; a register that has absorbed `k` bytes holds the same as on the
`opt` path.  The coefficients are constants of the code, and they are words of the table.

## Main definitions

* `LongAt`, `LongLanesAt` — the state of the loops over one register and over four.

## Main results

* `longLe_foldLong` — the data folded to 128 bits.
* `ownCrc32LongLeK0_eq` — the path is the reference CRC, for every length.
* `dmlAvx512CrcU32_eq` — the kernel is the reference CRC.
-/

namespace DataMover

open ByteMemory Carryless Simd Polynomial

/-! ### Coefficients and loads -/

theorem longLe_koef512 :
    longLe.koef512 = mmSetEpi64x (optK optPoly1Ptr (6 + 6)) (optK optPoly1Ptr (5 + 6)) := rfl

theorem longLe_koef128 :
    longLe.koef128 = mmSetEpi64x (optK optPoly1Ptr (6 + 0)) (optK optPoly1Ptr (5 + 0)) := rfl

theorem residue_longLe_foldInto {j : ℕ} (hj : j < 15) (v d : BitVec 128) :
    residue (modulus crcPolynomial) (longLe.foldInto
        (mmSetEpi64x (optK optPoly1Ptr (6 + j)) (optK optPoly1Ptr (5 + j))) v d)
      = xMod crcPolynomial ^ (128 + 64 * j) * residue (modulus crcPolynomial) v
        + residue (modulus crcPolynomial) d := by
  have hfold := residue_fold_optK koeffSpec_optPoly1Ptr hj v
  simp only [LongOps.foldInto, longLe]
  rw [residue_xor, residue_xor, ← hfold]
  ring

theorem residue_longLe_fold512 (v d : BitVec 128) :
    residue (modulus crcPolynomial) (longLe.foldInto longLe.koef512 v d)
      = xMod crcPolynomial ^ 512 * residue (modulus crcPolynomial) v
        + residue (modulus crcPolynomial) d := by
  rw [longLe_koef512]
  exact residue_longLe_foldInto (by omega) v d

theorem residue_longLe_fold128 (v d : BitVec 128) :
    residue (modulus crcPolynomial) (longLe.foldInto longLe.koef128 v d)
      = xMod crcPolynomial ^ 128 * residue (modulus crcPolynomial) v
        + residue (modulus crcPolynomial) d := by
  rw [longLe_koef128]
  exact residue_longLe_foldInto (by omega) v d

/-- A register that is loaded as it is. -/
theorem reflectsBytes_id : ReflectsBytes (fun xmm => xmm) fun b => b := ⟨fun _ _ _ => rfl, rfl⟩

theorem residue_longLe_loadOrdered (m : Memory) (a : ℕ) :
    residue (modulus crcPolynomial) (longLe.loadOrdered m a)
      = AdjoinRoot.mk (modulus crcPolynomial) (message (fun i => m (a + i)) 16) :=
  residue_loadEndia reflectsBytes_id crcPolynomial m a

/-! ### The last bytes -/

theorem getLsbD_tailMask : ∀ z < 16, ∀ i < 16,
    ((1#16 <<< z) - 1#16).getLsbD i = decide (i < z) := by
  decide

/-- The last bytes, in order at the top of a register. -/
theorem byte_longLe_tail (m : Memory) (a : ℕ) {z i : ℕ} (hz : z < 16) (hi : i < 16) :
    byte (longLe.order (mmMaskzLoaduEpi8 ((1#16 <<< z) - 1#16) m a)) i
      = if 15 - i < z then m (a + (15 - i)) else 0#8 := by
  rw [longLe, byte_shuffle_endia _ hi, byte_mmMaskzLoaduEpi8 _ _ _ (by omega),
    getLsbD_tailMask z hz (15 - i) (by omega)]
  simp

/-- With the last bytes the register is split in two, and one half is folded into the
other. -/
theorem longLe_foldTail_eq (m : Memory) {z : ℕ} (h1 : 1 ≤ z) (h15 : z ≤ 15)
    (s : FoldState (BitVec 128)) :
    longLe.foldTail m z s = longLe.foldInto longLe.koef128 (s.xmm >>> (8 * (16 - z)))
      (mmAlignrEpi8 s.xmm (longLe.order (mmMaskzLoaduEpi8 ((1#16 <<< z) - 1#16) m s.src))
        (16 - z)) := by
  have hshift : (if 1 ≤ z ∧ z ≤ 15 then 16 - z else 16) = 16 - z := if_pos ⟨h1, h15⟩
  simp only [LongOps.foldTail, LongOps.foldInto, if_pos (show z ≠ 0 by omega), longLe,
    ownShiftTwoLanes, hshift, mmSrliSi128]
  rw [BitVec.xor_assoc, BitVec.xor_comm]

/-- **The last bytes, fewer than 16.** -/
theorem residue_longLe_foldTail (m : Memory) {z : ℕ} (hz : z < 16) (s : FoldState (BitVec 128)) :
    residue (modulus crcPolynomial) (longLe.foldTail m z s)
      = xMod crcPolynomial ^ (8 * z) * residue (modulus crcPolynomial) s.xmm
        + AdjoinRoot.mk (modulus crcPolynomial) (message (fun i => m (s.src + i)) z) := by
  rcases Nat.eq_zero_or_pos z with rfl | hpos
  · simp [LongOps.foldTail, message]
  · have hbytes : ∀ i, i < 16 → byte (mmAlignrEpi8 s.xmm
        (longLe.order (mmMaskzLoaduEpi8 ((1#16 <<< z) - 1#16) m s.src)) (16 - z)) i
          = if i < z then m (s.src + (z - 1 - i)) else byte s.xmm (i - z) := by
      intro i hi
      rw [byte_mmAlignrEpi8 _ _ _ hi]
      by_cases h : i < z
      · rw [if_pos (by omega), if_pos h, byte_longLe_tail m _ hz (by omega), if_pos (by omega),
          show 15 - (i + (16 - z)) = z - 1 - i by omega]
      · rw [if_neg (by omega), if_neg h, show i + (16 - z) - 16 = i - z by omega]
    rw [longLe_foldTail_eq m hpos (by omega), residue_longLe_fold128,
      residue_tail (fun i => m (s.src + i)) hz.le hbytes]

/-! ### The loops -/

/-- The state of the loop over one register: `k` bytes are in, and `len` counts the last 16
of them with what is left of the `n` bytes. -/
structure LongAt (m : Memory) (src : ℕ) (crc : BitVec 32) (n k : ℕ) (s : FoldState (BitVec 128)) :
    Prop where
  xmm : residue (modulus crcPolynomial) s.xmm
    = absorbed crcPolynomial (fun i => m (src + i)) crc k
  src : s.src = src + k
  len : s.len = (n : ℤ) - k + 16
  first : 16 ≤ k
  last : k ≤ n
  aligned : k % 16 = 0

/-- The state of the loop over four registers, where `len` counts the last 64 bytes. -/
structure LongLanesAt (m : Memory) (src : ℕ) (crc : BitVec 32) (n k : ℕ)
    (s : FoldState (ℕ → BitVec 128)) : Prop where
  xmm : laneSum (fun i => residue (modulus crcPolynomial) (s.xmm i)) 4
    = absorbed crcPolynomial (fun i => m (src + i)) crc k
  src : s.src = src + k
  len : s.len = (n : ℤ) - k + 64
  first : 64 ≤ k
  last : k ≤ n
  aligned : k % 16 = 0

section

variable {m : Memory} {src : ℕ} {crc : BitVec 32} {n : ℕ}

theorem fold16B_longAt {k : ℕ} {s : FoldState (BitVec 128)} (hs : LongAt m src crc n k s)
    (hlen : 32 ≤ s.len) : LongAt m src crc n (k + 16) (longLe.fold16B m s) := by
  obtain ⟨hxmm, hsrc, hl, hfirst, hlast, haligned⟩ := hs
  refine ⟨?_, ?_, ?_, by omega, by omega, by omega⟩
  · rw [LongOps.fold16B, residue_longLe_fold128, residue_longLe_loadOrdered, hsrc, hxmm,
      absorbed_add _ _ crc (by omega)]
    simp only [Nat.add_assoc]
  · simp only [LongOps.fold16B, hsrc, Nat.add_assoc]
  · simp only [LongOps.fold16B, hl, Nat.cast_add, Nat.cast_ofNat]
    ring

theorem fold64B_longLanesAt {k : ℕ} {s : FoldState (ℕ → BitVec 128)}
    (hs : LongLanesAt m src crc n k s) (hlen : 128 ≤ s.len) :
    LongLanesAt m src crc n (k + 64) (longLe.fold64B m s) := by
  obtain ⟨hxmm, hsrc, hl, hfirst, hlast, haligned⟩ := hs
  refine ⟨?_, ?_, ?_, by omega, by omega, by omega⟩
  · have hlane : ∀ i, i < 4 → residue (modulus crcPolynomial) ((longLe.fold64B m s).xmm i)
        = xMod crcPolynomial ^ 512 * residue (modulus crcPolynomial) (s.xmm i)
          + AdjoinRoot.mk (modulus crcPolynomial)
            (message (fun j => m (src + (k + (16 * i + j)))) 16) := by
      intro i _
      simp only [LongOps.fold64B]
      rw [residue_longLe_fold512, residue_longLe_loadOrdered, hsrc]
      simp only [Nat.add_assoc]
    rw [laneSum_fold (f := fun j => m (src + (k + j))) hlane, hxmm,
      absorbed_add _ _ crc (by omega)]
  · simp only [LongOps.fold64B, hsrc, Nat.add_assoc]
  · simp only [LongOps.fold64B, hl, Nat.cast_add, Nat.cast_ofNat]
    ring

/-- The first four registers. -/
theorem longLanesAt_first {s : FoldState (BitVec 128)} (hs : LongAt m src crc n 16 s)
    (hn : 64 ≤ n) :
    LongLanesAt m src crc n 64
      { xmm := fun i => if i = 0 then s.xmm else longLe.loadOrdered m (s.src + 16 * (i - 1)),
        src := s.src + 48, len := s.len } := by
  obtain ⟨hxmm, hsrc, hl, -, -, -⟩ := hs
  refine ⟨laneSum_absorbed ?_ fun i h1 _ => ?_, ?_, ?_, le_rfl, hn, by omega⟩
  · simp only [if_true]
    exact hxmm
  · have haddr : s.src + 16 * (i - 1) = src + 16 * i := by omega
    simp only [if_neg (show ¬ i = 0 by omega), haddr, residue_longLe_loadOrdered, Nat.add_assoc]
  · simp only [hsrc, Nat.add_assoc]
  · simp only [hl]
    ring

/-- **Four registers into one.** -/
theorem residue_longLe_four (xmm : ℕ → BitVec 128) :
    residue (modulus crcPolynomial)
        (longLe.foldInto longLe.koef128 (longLe.foldInto longLe.koef128
          (longLe.foldInto longLe.koef128 (xmm 0) (xmm 1)) (xmm 2)) (xmm 3))
      = laneSum (fun i => residue (modulus crcPolynomial) (xmm i)) 4 := by
  simp only [residue_longLe_fold128, laneSum_succ]
  rw [laneSum]
  ring

/-- **The loop over four registers**, and the four into one. -/
theorem foldFour_longAt {s : FoldState (BitVec 128)} (hs : LongAt m src crc n 16 s)
    (hn : 512 < n) : ∃ t k, longLe.foldFour m s = some t ∧ LongAt m src crc n k t := by
  have hstep : ∀ k t, LongLanesAt m src crc n k t → decide (128 ≤ t.len) = true →
      LongLanesAt m src crc n (k + 64) (longLe.fold64B m t) ∧
        (longLe.fold64B m t).len.toNat < t.len.toNat := by
    intro k t ht hc
    have hpos : 128 ≤ t.len := of_decide_eq_true hc
    refine ⟨fold64B_longLanesAt ht hpos, ?_⟩
    simp only [LongOps.fold64B]
    omega
  obtain ⟨t, k, ht, hlanes, hexit⟩ := Loop.whileLoop_steps _
    (fun t : FoldState (ℕ → BitVec 128) => t.len.toNat) hstep
    (longLanesAt_first hs (by omega)) le_rfl
  obtain ⟨hxmm, hsrc, hlen, hfirst, hlast, haligned⟩ := hlanes
  have hone : LongAt m src crc n k
      { xmm := longLe.foldInto longLe.koef128 (longLe.foldInto longLe.koef128
          (longLe.foldInto longLe.koef128 (t.xmm 0) (t.xmm 1)) (t.xmm 2)) (t.xmm 3),
        src := t.src, len := t.len - 48 } := by
    refine ⟨?_, hsrc, by simp only; omega, by omega, hlast, haligned⟩
    rw [residue_longLe_four, hxmm]
  refine ⟨_, k, ?_, hone⟩
  simp only [LongOps.foldFour, Option.bind_eq_bind]
  rw [ht, Option.bind_some]

/-- **The loop over one register**, and the last bytes. -/
theorem residue_longLe_rest {k : ℕ} {s : FoldState (BitVec 128)} (hs : LongAt m src crc n k s) :
    ∃ t, Loop.whileLoop (fun s => decide (32 ≤ s.len)) (fun s => some (longLe.fold16B m s))
        s.len.toNat s = some t ∧
      residue (modulus crcPolynomial) (longLe.foldTail m (n % 16) t)
        = absorbed crcPolynomial (fun i => m (src + i)) crc n := by
  have hstep : ∀ k t, LongAt m src crc n k t → decide (32 ≤ t.len) = true →
      LongAt m src crc n (k + 16) (longLe.fold16B m t) ∧
        (longLe.fold16B m t).len.toNat < t.len.toNat := by
    intro k t ht hc
    have hpos : 32 ≤ t.len := of_decide_eq_true hc
    refine ⟨fold16B_longAt ht hpos, ?_⟩
    simp only [LongOps.fold16B]
    omega
  obtain ⟨t, j, ht, ⟨hxmm, hsrc, hlen, hfirst, hlast, haligned⟩, hexit⟩ := Loop.whileLoop_steps _
    (fun t : FoldState (BitVec 128) => t.len.toNat) hstep hs le_rfl
  have hend : t.len < 32 := by simpa using hexit
  refine ⟨t, ht, ?_⟩
  -- less than 16 bytes are left, and `j` is a multiple of 16
  have htail := absorbed_add crcPolynomial (fun i => m (src + i)) crc (show 4 ≤ j by omega) (n % 16)
  rw [show j + n % 16 = n by omega] at htail
  rw [residue_longLe_foldTail m (by omega), hxmm, hsrc, htail]
  simp only [Nat.add_assoc]

/-- **The data folded to 128 bits.** -/
theorem longLe_foldLong (m : Memory) (src : ℕ) (crc : BitVec 32) (hn : 16 ≤ n) :
    ∃ v, longLe.foldLong m src n (mmSlliSi128 (mmCvtsi32Si128 crc) 12) = some v ∧
      residue (modulus crcPolynomial) v
        = absorbed crcPolynomial (fun i => m (src + i)) crc n := by
  have hstart : LongAt m src crc n 16
      { xmm := longLe.loadOrdered m src ^^^ mmSlliSi128 (mmCvtsi32Si128 crc) 12,
        src := src + 16, len := n } :=
    ⟨holds_first reflectsBytes_id, rfl, by simp only; omega, le_rfl, hn, by omega⟩
  simp only [LongOps.foldLong, Option.bind_eq_bind]
  split
  · next h512 =>
    obtain ⟨s, k, hs, hlong⟩ := foldFour_longAt hstart h512
    obtain ⟨t, ht, hres⟩ := residue_longLe_rest hlong
    exact ⟨_, by rw [hs, Option.bind_some, ht, Option.bind_some], hres⟩
  · obtain ⟨t, ht, hres⟩ := residue_longLe_rest hstart
    exact ⟨_, by rw [Option.bind_some, ht, Option.bind_some], hres⟩

end

/-! ### The whole path -/

/-- **The last steps** move 128 bits up by 32 and reduce them. -/
theorem residue_longBarrett (v : BitVec 128) :
    residue (modulus crcPolynomial) (longBarrett (longLeReduce v))
      = xMod crcPolynomial ^ 32 * residue (modulus crcPolynomial) v := by
  have hdone : longBarrett (longLeReduce v) = done128 optPoly1Ptr 32 v := by
    -- the constants are words of the table, so this is the end of the `opt` path
    have hreduce : longLeReduce v = reduceWith (optPoly1Ptr 4) (optPoly1Ptr 5) v := rfl
    have hq : (0x11edc6f41#64 : BitVec 64) = optPoly1Ptr 1 ++ optPoly1Ptr 0 := by decide
    have hu : (0x11f91caf6#64 : BitVec 64) = optPoly1Ptr 3 ++ optPoly1Ptr 2 := by decide
    simp only [longBarrett, hq, hu, hreduce]
    simp [done128, barrett, cleanup, reduceWith, optK]
  rw [hdone, residue_done128 koeffSpec_optPoly1Ptr]

/-- One bit of the register, without a branch. -/
theorem crc32Bit_eq_mask (p v : BitVec 32) :
    (v <<< 1) ^^^ (-(v >>> 31) &&& p) = crc32Bit p v := by
  have htop : v >>> 31 = if v.getLsbD 31 then 1#32 else 0#32 := by
    apply BitVec.eq_of_getLsbD_eq
    intro i hi
    rw [BitVec.getLsbD_ushiftRight]
    cases i with
    | zero => cases v.getLsbD 31 <;> simp
    | succ i =>
      rw [BitVec.getLsbD_of_ge v _ (by omega)]
      cases v.getLsbD 31 <;> simp
  rw [crc32Bit_eq, crcBit, htop]
  cases v.getLsbD 31 with
  | true =>
    have hones : -(1#32) = BitVec.allOnes 32 := by decide
    rw [if_pos rfl, if_pos rfl, hones, BitVec.allOnes_and]
  | false => simp

/-- **The `long` path is the reference CRC**, for every length. -/
theorem ownCrc32LongLeK0_eq (m : Memory) (src n : ℕ) (crc : BitVec 32) :
    ownCrc32LongLeK0 m src n crc = some (dmlRefCrc32u m src n crc crcPolynomial) := by
  unfold ownCrc32LongLeK0
  split
  · next hn =>
    obtain ⟨v, hv, hres⟩ := longLe_foldLong m src crc hn
    have hclass := (residue_longBarrett v).trans (by rw [hres, ← residue_eq_absorbed _ m src crc
      (show 4 ≤ n by omega)])
    simp only [hv, Option.bind_eq_bind, Option.bind_some]
    rw [crc_eq_of_residue_eq hclass]
  · simp only [crc32Bit_eq_mask]
    rfl

/-! ### The kernel -/

/-- A length below `2 ^ 31` is not changed by the conversion to a signed number. -/
theorem toInt_length {n : ℕ} (hn : n < 2 ^ 31) : (BitVec.ofNat 32 n).toInt = n := by
  have hval : (BitVec.ofNat 32 n).toNat = n := by
    rw [BitVec.toNat_ofNat]
    omega
  rw [BitVec.toInt_eq_toNat_of_lt (by omega), hval]

/-- The usual polynomial, below 1024 bytes and from there on. -/
theorem ownCalculateCrc_eq {refl : BitVec 128 → BitVec 128} {rb : BitVec 8 → BitVec 8}
    (hrb : ReflectsBytes refl rb) {long : Memory → ℕ → ℕ → BitVec 32 → Option (BitVec 32)}
    {m : Memory} {src n : ℕ} {crc : BitVec 32}
    (hlong : long m src n crc = some (dmlRefCrc32u (fun a => rb (m a)) src n crc crcPolynomial)) :
    ownCalculateCrc (ownCrcK0 (ownCrcOptK0 refl) long) m src n crc crcPolynomial
      = some (dmlRefCrc32u (fun a => rb (m a)) src n crc crcPolynomial) := by
  have hpoly : (1#64 <<< 32) ||| crcPolynomial.setWidth 64
      = crcPolynomial.setWidth 64 ||| (1#64 <<< 32) := BitVec.or_comm _ _
  simp only [ownCalculateCrc, ownCrcK0, if_true, if_pos hpoly]
  split
  · next hlt =>
    rw [toInt_length (by omega), ownCrcOptK0_eq koeffSpec_optPoly1Ptr hrb]
  · exact hlong

/-- **The vector CRC is the reference CRC**, for every length, every seed and the usual
polynomial. -/
theorem dmlAvx512CrcU32_eq (m : Memory) (src n : ℕ) (crc : BitVec 32) :
    dmlAvx512CrcU32 m src n crc crcPolynomial
      = some (dmlRefCrc32u m src n crc crcPolynomial) :=
  ownCalculateCrc_eq reflectsBytes_id (ownCrc32LongLeK0_eq m src n crc)

end DataMover
