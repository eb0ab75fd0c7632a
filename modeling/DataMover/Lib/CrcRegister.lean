import DataMover.Lib.Carryless

/-!
# Registers of cyclic redundancy checks

The register of a check of width `w` shifts left, one bit of the message at a time, and
takes in the polynomial when a bit falls out.  A byte goes in on top, its most significant
bit first.  In the ring of classes modulo the polynomial, the shift is a multiplication by
the class of `X`.

A polynomial with a constant term has no factor in common with `X`, so it cannot divide a
difference of fewer bits than it has, wherever in the message they lie.

## Main definitions

* `withLeading` — the polynomial, with the leading term the register leaves out.
* `crcBit`, `crcByte`, `crcBytes` — the register after a bit, a byte, and a message.
* `messageBit` — the bits of a message, in the order they are sent.

## Main results

* `crcBit_eq_mask` — the bit as code computes it.
* `X_mul_toPoly` — a bit of the register is a bit of a division.
* `toPoly_eq_modByMonic` — a register is a remainder.
* `residue_crcBytes` — the class of the register.
* `crcBytes_ne_of_burst` — **a burst no longer than the register is detected.**
-/

namespace Carryless

open Polynomial

variable {w : ℕ}

/-! ### The register -/

/-- The polynomial of a check, with the leading term that the register leaves out. -/
noncomputable def withLeading (p : BitVec w) : (ZMod 2)[X] := X ^ w + toPoly p

/-- One bit: shift, and take in the polynomial when a bit falls out. -/
def crcBit (p v : BitVec w) : BitVec w := if v.getLsbD (w - 1) then (v <<< 1) ^^^ p else v <<< 1

/-- The bit that falls out, tested under a mask. -/
theorem crcBit_eq_mask {high : BitVec w} (hw : 0 < w) (hhigh : high = BitVec.twoPow w (w - 1))
    (p v : BitVec w) :
    (if v &&& high ≠ 0#w then (v <<< 1) ^^^ p else v <<< 1) = crcBit p v := by
  have hne : BitVec.twoPow w (w - 1) ≠ 0#w := by
    intro h
    have hbit := congrArg (fun u => u.getLsbD (w - 1)) h
    simp [show w - 1 < w by omega] at hbit
  rw [hhigh, BitVec.and_twoPow, crcBit]
  cases v.getLsbD (w - 1) with
  | true => simp [hne]
  | false => simp

/-- One byte, on top of the register. -/
def crcByte (p v : BitVec w) (data : BitVec 8) : BitVec w :=
  Loop.iter (fun _ v => crcBit p v) 8 (v ^^^ (data.setWidth w <<< (w - 8)))

/-- The first `n` bytes of a message. -/
def crcBytes (p : BitVec w) (f : ℕ → BitVec 8) (n : ℕ) (v : BitVec w) : BitVec w :=
  Loop.iter (fun i v => crcByte p v (f i)) n v

theorem degree_withLeading (p : BitVec w) : (withLeading p).degree = w := by
  rw [withLeading, degree_add_eq_left_of_degree_lt, degree_X_pow]
  rw [degree_X_pow]
  exact degree_toPoly_lt p

theorem monic_withLeading (p : BitVec w) : (withLeading p).Monic :=
  monic_X_pow_add (degree_toPoly_lt p)

/-- **A register that has the class of a polynomial** holds its remainder. -/
theorem toPoly_eq_modByMonic {p v : BitVec w} {D : (ZMod 2)[X]}
    (h : AdjoinRoot.mk (withLeading p) D = residue (withLeading p) v) :
    toPoly v = D %ₘ withLeading p := by
  have hdeg : (toPoly v).degree < (withLeading p).degree := by
    rw [degree_withLeading]
    exact degree_toPoly_lt v
  rw [modByMonic_eq_of_dvd_sub (monic_withLeading p) (AdjoinRoot.mk_eq_mk.mp h),
    (modByMonic_eq_self_iff (monic_withLeading p)).mpr hdeg]

theorem toPoly_bit (b : BitVec 1) : toPoly b = if b.getLsbD 0 then 1 else 0 := by
  ext i
  rw [coeff_toPoly]
  cases i with
  | zero => cases b.getLsbD 0 <;> simp
  | succ i => cases b.getLsbD 0 <;> simp [coeff_one]

/-- The leading term is the rest of the polynomial. -/
theorem root_pow_width (p : BitVec w) :
    AdjoinRoot.root (withLeading p) ^ w = residue (withLeading p) p := by
  rw [← AdjoinRoot.mk_X, ← map_pow, residue, AdjoinRoot.mk_eq_mk, CharTwo.sub_eq_add]
  exact dvd_refl _

/-- One bit of the register: the bit that falls out is one of the quotient. -/
theorem X_mul_toPoly (hw : 0 < w) (p v : BitVec w) :
    X * toPoly v = (if v.getLsbD (w - 1) then 1 else 0) * withLeading p
      + toPoly (crcBit p v) := by
  have hsplit : X * toPoly v = X ^ w * toPoly (v.extractLsb' (w - 1) 1) + toPoly (v <<< 1) := by
    have hpow : (X : (ZMod 2)[X]) ^ w = X * X ^ (w - 1) := by
      rw [← pow_succ', Nat.sub_add_cancel hw]
    rw [toPoly_split v (show w - 1 + 1 = w by omega),
      toPoly_shiftLeft v (show 1 + (w - 1) = w by omega), hpow]
    ring
  have htop : toPoly (v.extractLsb' (w - 1) 1) = if v.getLsbD (w - 1) then 1 else 0 := by
    rw [toPoly_bit, BitVec.getLsbD_extractLsb']
    simp
  rw [hsplit, htop, crcBit]
  cases v.getLsbD (w - 1) with
  | true =>
    -- the polynomial is taken out and put in again
    have hcancel : toPoly p + toPoly p = 0 := CharTwo.add_self_eq_zero _
    rw [if_pos rfl, if_pos rfl, toPoly_xor, withLeading]
    linear_combination -hcancel
  | false => simp

/-- **One bit is one multiplication by `X`.** -/
theorem residue_crcBit (hw : 0 < w) (p v : BitVec w) :
    residue (withLeading p) (crcBit p v)
      = AdjoinRoot.root (withLeading p) * residue (withLeading p) v := by
  have h := congrArg (AdjoinRoot.mk (withLeading p)) (X_mul_toPoly hw p v)
  rw [map_mul, map_add, map_mul, AdjoinRoot.mk_X, AdjoinRoot.mk_self, mul_zero, zero_add] at h
  exact h.symm

theorem residue_crcBit_iter (hw : 0 < w) (p v : BitVec w) (k : ℕ) :
    residue (withLeading p) (Loop.iter (fun _ v => crcBit p v) k v)
      = AdjoinRoot.root (withLeading p) ^ k * residue (withLeading p) v := by
  induction k with
  | zero => rw [Loop.iter_zero, pow_zero, one_mul]
  | succ k ih => rw [Loop.iter_succ, residue_crcBit hw, ih, pow_succ']; ring

theorem residue_crcByte (hw : 8 ≤ w) (p v : BitVec w) (data : BitVec 8) :
    residue (withLeading p) (crcByte p v data)
      = AdjoinRoot.root (withLeading p) ^ 8 * residue (withLeading p) v
        + AdjoinRoot.root (withLeading p) ^ w * residue (withLeading p) data := by
  have hdata : residue (withLeading p) (data.setWidth w <<< (w - 8))
      = AdjoinRoot.root (withLeading p) ^ (w - 8) * residue (withLeading p) data := by
    have hlow : (data.setWidth w).extractLsb' 0 8 = data := by
      apply BitVec.eq_of_getLsbD_eq
      intro i hi
      simp [hi, show i < w by omega]
    rw [residue, toPoly_shiftLeft _ (show w - 8 + 8 = w by omega), hlow, map_mul, map_pow,
      AdjoinRoot.mk_X]
    rfl
  have hpow : AdjoinRoot.root (withLeading p) ^ w
      = AdjoinRoot.root (withLeading p) ^ 8 * AdjoinRoot.root (withLeading p) ^ (w - 8) := by
    rw [← pow_add, Nat.add_sub_cancel' hw]
  rw [crcByte, residue_crcBit_iter (by omega), residue_xor, hdata, hpow]
  ring

/-- **The class of the register**: the seed moved up by the bits of the message, and the
message moved up by the width of the register. -/
theorem residue_crcBytes (hw : 8 ≤ w) (p : BitVec w) (f : ℕ → BitVec 8) (n : ℕ) (v : BitVec w) :
    residue (withLeading p) (crcBytes p f n v)
      = AdjoinRoot.root (withLeading p) ^ (8 * n) * residue (withLeading p) v
        + AdjoinRoot.root (withLeading p) ^ w * AdjoinRoot.mk (withLeading p) (message f n) := by
  unfold crcBytes
  induction n with
  | zero => rw [Loop.iter_zero, message, map_zero]; ring
  | succ n ih =>
    rw [Loop.iter_succ, residue_crcByte hw, ih, message_succ, map_add, map_mul, map_pow,
      AdjoinRoot.mk_X, Nat.mul_succ, residue, residue]
    ring

/-! ### Bursts -/

/-- Bit `i` of a message: the most significant bit of each byte comes first. -/
def messageBit (f : ℕ → BitVec 8) (i : ℕ) : Bool := (f (i / 8)).getLsbD (7 - i % 8)

/-- A polynomial with a constant term does not divide a polynomial of fewer consecutive
coefficients than its degree, moved anywhere. -/
theorem not_dvd_of_burst {K : Type*} [Field K] {M E : K[X]} {w t : ℕ} (k : ℕ) (hM : M.degree = w)
    (h0 : M.coeff 0 ≠ 0) (hE : E ≠ 0) (hlow : ∀ j, j < t → E.coeff j = 0)
    (hhigh : ∀ j, t + w ≤ j → E.coeff j = 0) : ¬M ∣ X ^ k * E := by
  intro hdvd
  obtain ⟨b, rfl⟩ := X_pow_dvd_iff.mpr hlow
  have hcoprime : IsCoprime M (X ^ (k + t)) := by
    refine IsCoprime.pow_right (IsCoprime.symm ?_)
    exact (irreducible_X.coprime_iff_not_dvd).mpr fun h => h0 (X_dvd_iff.mp h)
  rw [← mul_assoc, ← pow_add] at hdvd
  have hb : b.degree < M.degree := by
    rw [hM, degree_lt_iff_coeff_zero]
    intro j hj
    rw [← hhigh (j + t) (by omega), coeff_X_pow_mul]
  rw [eq_zero_of_dvd_of_degree_lt (hcoprime.dvd_of_dvd_mul_left hdvd) hb, mul_zero] at hE
  exact hE rfl

/-- The coefficients of a difference of messages are their differing bits. -/
theorem coeff_message_add {f g : ℕ → BitVec 8} {n j : ℕ} (hj : j < 8 * n) :
    (message f n + message g n).coeff j ≠ 0
      ↔ messageBit f (8 * n - 1 - j) ≠ messageBit g (8 * n - 1 - j) := by
  rw [coeff_add, coeff_message, coeff_message, messageBit, messageBit,
    show (8 * n - 1 - j) / 8 = n - 1 - j / 8 by omega,
    show 7 - (8 * n - 1 - j) % 8 = j % 8 by omega]
  cases (f (n - 1 - j / 8)).getLsbD (j % 8) <;> cases (g (n - 1 - j / 8)).getLsbD (j % 8) <;>
    simp [hj, CharTwo.add_self_eq_zero]

/-- **A burst no longer than the register is detected.**  Messages that differ, and differ
within `w` consecutive bits only, leave different registers when the polynomial has a
constant term. -/
theorem crcBytes_ne_of_burst (hw : 8 ≤ w) {p : BitVec w} (hp : p.getLsbD 0 = true)
    {f g : ℕ → BitVec 8} {n s : ℕ}
    (hdiffer : ∃ i, i < 8 * n ∧ messageBit f i ≠ messageBit g i)
    (hburst : ∀ i, i < 8 * n → messageBit f i ≠ messageBit g i → s ≤ i ∧ i < s + w)
    (v : BitVec w) : crcBytes p f n v ≠ crcBytes p g n v := by
  intro heq
  have hclass := congrArg (residue (withLeading p)) heq
  rw [residue_crcBytes hw, residue_crcBytes hw, add_right_inj, ← AdjoinRoot.mk_X, ← map_pow,
    ← map_mul, ← map_mul, AdjoinRoot.mk_eq_mk, CharTwo.sub_eq_add, ← mul_add] at hclass
  have hdegree : ∀ h : ℕ → BitVec 8, ∀ j, 8 * n ≤ j → (message h n).coeff j = 0 := by
    intro h j hj
    rw [coeff_message, if_neg (by omega)]
  -- coefficient `j` is bit `8n - 1 - j`
  have hbit : ∀ j, (message f n + message g n).coeff j ≠ 0 →
      j < 8 * n ∧ s ≤ 8 * n - 1 - j ∧ 8 * n - 1 - j < s + w := by
    intro j hj
    have hlt : j < 8 * n := by
      by_contra hge
      rw [coeff_add, hdegree f j (by omega), hdegree g j (by omega), add_zero] at hj
      exact hj rfl
    exact ⟨hlt, hburst _ (by omega) ((coeff_message_add hlt).mp hj)⟩
  have hconstant : (withLeading p).coeff 0 ≠ 0 := by
    rw [withLeading, coeff_add, coeff_toPoly, hp, coeff_X_pow, if_neg (by omega)]
    simp
  refine not_dvd_of_burst w (t := 8 * n - s - w) (degree_withLeading p) hconstant ?_
    (fun j hj => ?_) (fun j hj => ?_) hclass
  · obtain ⟨i, hi, hne⟩ := hdiffer
    have hcoeff : (message f n + message g n).coeff (8 * n - 1 - i) ≠ 0 := by
      rw [coeff_message_add (by omega), show 8 * n - 1 - (8 * n - 1 - i) = i by omega]
      exact hne
    intro hzero
    exact hcoeff (by rw [hzero, coeff_zero])
  · by_contra hj'
    have := hbit j hj'
    omega
  · by_contra hj'
    have := hbit j hj'
    omega

end Carryless
