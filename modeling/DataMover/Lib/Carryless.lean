import DataMover.Lib.Loop
import Mathlib.RingTheory.AdjoinRoot
import Mathlib.Algebra.Field.ZMod
import Mathlib.Algebra.Polynomial.Reverse

/-!
# Carry-less arithmetic

A bit vector is read as a polynomial over the field with two elements, bit `i` the
coefficient of `X ^ i`.  Exclusive or is addition, a shift is a multiplication by a power
of `X`, and the carry-less product is the product.  Arithmetic modulo a polynomial `M` is
arithmetic in the ring `AdjoinRoot M`, where `residue` puts a bit vector.

## Main definitions

* `toPoly` — the polynomial of a bit vector.
* `clmul` — the carry-less product of two 64-bit vectors.
* `message` — the polynomial of a sequence of bytes, the first byte most significant.
* `residue` — the class of a bit vector modulo a polynomial.

## Main results

* `toPoly_xor`, `toPoly_append`, `toPoly_split`, `toPoly_shiftLeft`, `toPoly_clmul` — the
  operations on bit vectors are operations on polynomials.
* `toPoly_reverse`, `clmul_reverse` — the bits in the opposite order.
* `message_add` — bytes after bytes.
* `residue_injective` — a vector no longer than the modulus is determined by its class.
* `barrett_degree` — Barrett's quotient leaves a remainder.
-/

namespace Carryless

open Polynomial

variable {n : ℕ}

/-! ### Bit vectors as polynomials -/

/-- The polynomial whose coefficients are the bits of `v`. -/
noncomputable def toPoly (v : BitVec n) : (ZMod 2)[X] :=
  ∑ i ∈ Finset.range n, if v.getLsbD i then X ^ i else 0

/-- **Coefficients are bits.**  Everything below is read off this. -/
@[simp] theorem coeff_toPoly (v : BitVec n) (i : ℕ) :
    (toPoly v).coeff i = if v.getLsbD i then 1 else 0 := by
  have hterm : ∀ j, (if v.getLsbD j then (X : (ZMod 2)[X]) ^ j else 0).coeff i
      = if j = i then (if v.getLsbD i then 1 else 0) else 0 := by
    intro j
    by_cases hj : j = i
    · subst hj
      split <;> simp
    · rw [if_neg hj]
      split
      · rw [coeff_X_pow, if_neg (Ne.symm hj)]
      · rw [coeff_zero]
  rw [toPoly, finsetSum_coeff]
  simp only [hterm, Finset.sum_ite_eq', Finset.mem_range]
  by_cases hi : i < n
  · rw [if_pos hi]
  · rw [if_neg hi, BitVec.getLsbD_of_ge v i (by omega)]
    simp

theorem toPoly_injective {v w : BitVec n} (h : toPoly v = toPoly w) : v = w := by
  apply BitVec.eq_of_getLsbD_eq
  intro i _
  have hc := congrArg (fun p : (ZMod 2)[X] => p.coeff i) h
  simp only [coeff_toPoly] at hc
  cases hv : v.getLsbD i <;> cases hw : w.getLsbD i <;> simp [hv, hw] at hc ⊢

@[simp] theorem toPoly_zero : toPoly (0#n) = 0 := by
  ext i
  simp

theorem toPoly_twoPow {k : ℕ} (hk : k < n) : toPoly (BitVec.twoPow n k) = X ^ k := by
  ext i
  rw [coeff_toPoly, BitVec.getLsbD_twoPow, coeff_X_pow]
  by_cases hi : i = k
  · simp [hi, hk]
  · simp [hi, Ne.symm hi]

theorem toPoly_xor (v w : BitVec n) : toPoly (v ^^^ w) = toPoly v + toPoly w := by
  ext i
  rw [coeff_add, coeff_toPoly, coeff_toPoly, coeff_toPoly, BitVec.getLsbD_xor]
  cases v.getLsbD i <;> cases w.getLsbD i <;> decide

theorem degree_toPoly_lt (v : BitVec n) : (toPoly v).degree < n := by
  rw [degree_lt_iff_coeff_zero]
  intro i hi
  rw [coeff_toPoly, BitVec.getLsbD_of_ge v i hi]
  rfl

theorem toPoly_append {k : ℕ} (a : BitVec n) (b : BitVec k) :
    toPoly (a ++ b) = X ^ k * toPoly a + toPoly b := by
  ext i
  rw [coeff_add, coeff_X_pow_mul', coeff_toPoly, coeff_toPoly, coeff_toPoly, BitVec.getLsbD_append]
  by_cases hi : i < k
  · simp [hi, show ¬ k ≤ i by omega]
  · simp [hi, show k ≤ i by omega]

/-- A vector without bits above `k + l` is its low `k` bits and the `l` bits above them. -/
theorem toPoly_split_of_degree_lt {v : BitVec n} {k l : ℕ} (h : (toPoly v).degree < (k + l : ℕ)) :
    toPoly v = X ^ k * toPoly (v.extractLsb' k l) + toPoly (v.extractLsb' 0 k) := by
  rw [degree_lt_iff_coeff_zero] at h
  ext i
  rw [coeff_add, coeff_X_pow_mul', coeff_toPoly (v.extractLsb' k l),
    coeff_toPoly (v.extractLsb' 0 k), BitVec.getLsbD_extractLsb', BitVec.getLsbD_extractLsb',
    Nat.zero_add]
  by_cases hi : i < k
  · simp [hi, show ¬ k ≤ i by omega]
  · have hki : k ≤ i := by omega
    by_cases hn : i < k + l
    · simp [hi, hki, show i - k < l by omega]
    · simp [hi, hki, show ¬ i - k < l by omega, h i (by omega)]

/-- A vector is its low `k` bits and the rest above them. -/
theorem toPoly_split (v : BitVec n) {k l : ℕ} (h : k + l = n) :
    toPoly v = X ^ k * toPoly (v.extractLsb' k l) + toPoly (v.extractLsb' 0 k) :=
  toPoly_split_of_degree_lt (h ▸ degree_toPoly_lt v)

theorem toPoly_setWidth {k : ℕ} (v : BitVec n) (h : n ≤ k) : toPoly (v.setWidth k) = toPoly v := by
  ext i
  rw [coeff_toPoly, coeff_toPoly, BitVec.getLsbD_setWidth]
  by_cases hi : i < k
  · simp [hi]
  · simp [BitVec.getLsbD_of_ge v i (by omega)]

/-- A shift to the left drops the bits that leave the vector. -/
theorem toPoly_shiftLeft (v : BitVec n) {k l : ℕ} (h : k + l = n) :
    toPoly (v <<< k) = X ^ k * toPoly (v.extractLsb' 0 l) := by
  ext i
  rw [coeff_X_pow_mul', coeff_toPoly, coeff_toPoly, BitVec.getLsbD_shiftLeft,
    BitVec.getLsbD_extractLsb', Nat.zero_add]
  by_cases hi : k ≤ i
  · rw [if_pos hi]
    by_cases hn : i < n
    · simp [hn, show ¬ i < k by omega, show i - k < l by omega]
    · simp [hn, show ¬ i - k < l by omega]
  · simp [hi, show i < k by omega]

theorem toPoly_ushiftRight (v : BitVec n) {k l : ℕ} (h : k + l = n) :
    toPoly (v >>> k) = toPoly (v.extractLsb' k l) := by
  ext i
  rw [coeff_toPoly, coeff_toPoly, BitVec.getLsbD_ushiftRight, BitVec.getLsbD_extractLsb']
  by_cases hi : i < l
  · simp [hi]
  · simp [hi, BitVec.getLsbD_of_ge v (k + i) (by omega)]

/-- The low bits of a vector of small degree are the whole vector. -/
theorem toPoly_extract_of_degree_lt {v : BitVec n} {k : ℕ} (h : (toPoly v).degree < k) :
    toPoly (v.extractLsb' 0 k) = toPoly v := by
  ext i
  rw [coeff_toPoly, BitVec.getLsbD_extractLsb', Nat.zero_add]
  by_cases hi : i < k
  · simp [hi]
  · rw [degree_lt_iff_coeff_zero] at h
    simp [hi, h i (by omega)]

/-- Polynomials that agree above their low `k` coefficients. -/
theorem eq_of_X_pow_mul_add {k : ℕ} {p q r : (ZMod 2)[X]} (hr : r.degree < k)
    (h : X ^ k * p + r = X ^ k * q) : p = q := by
  rw [degree_lt_iff_coeff_zero] at hr
  ext i
  have hc := congrArg (fun s : (ZMod 2)[X] => s.coeff (i + k)) h
  simpa only [coeff_add, coeff_X_pow_mul, hr (i + k) (by omega), add_zero] using hc

/-- A shift to the right undoes a multiplication by a power of `X`. -/
theorem toPoly_ushiftRight_of_eq {v : BitVec n} {k : ℕ} {q : (ZMod 2)[X]} (hk : k ≤ n)
    (h : toPoly v = X ^ k * q) : toPoly (v >>> k) = q := by
  have hsplit := toPoly_split v (Nat.add_sub_cancel' hk)
  rw [toPoly_ushiftRight v (Nat.add_sub_cancel' hk)]
  exact eq_of_X_pow_mul_add (degree_toPoly_lt _) (hsplit.symm.trans h)

/-! ### The product -/

/-- The carry-less product: `a` shifted by the position of every set bit of `b`. -/
def clmul (a b : BitVec 64) : BitVec 128 :=
  Loop.iter (fun i acc => if b.getLsbD i then acc ^^^ (a.setWidth 128 <<< i) else acc) 64 0#128

/-- A shift of a 64-bit vector by less than 64 loses nothing in 128 bits. -/
theorem toPoly_setWidth_shiftLeft (a : BitVec 64) {i : ℕ} (hi : i < 64) :
    toPoly (a.setWidth 128 <<< i) = X ^ i * toPoly a := by
  have hdeg : (toPoly (a.setWidth 128)).degree < (128 - i : ℕ) := by
    rw [toPoly_setWidth a (by omega)]
    refine lt_of_lt_of_le (degree_toPoly_lt a) ?_
    exact_mod_cast (show 64 ≤ 128 - i by omega)
  rw [toPoly_shiftLeft _ (show i + (128 - i) = 128 by omega), toPoly_extract_of_degree_lt hdeg,
    toPoly_setWidth a (by omega)]

/-- **The carry-less product is the product of the polynomials.** -/
theorem toPoly_clmul (a b : BitVec 64) : toPoly (clmul a b) = toPoly a * toPoly b := by
  have hloop : ∀ k, k ≤ 64 →
      toPoly (Loop.iter (fun i acc => if b.getLsbD i then acc ^^^ (a.setWidth 128 <<< i) else acc)
        k 0#128) = toPoly a * ∑ i ∈ Finset.range k, if b.getLsbD i then X ^ i else 0 := by
    intro k
    induction k with
    | zero => intro _; simp
    | succ k ih =>
      intro hk
      rw [Loop.iter_succ, Finset.sum_range_succ, mul_add, ← ih (by omega)]
      split
      · rw [toPoly_xor, toPoly_setWidth_shiftLeft a (by omega), mul_comm (toPoly a)]
      · rw [mul_zero, add_zero]
  exact hloop 64 le_rfl

/-! ### The bits in the opposite order -/

/-- **A reversed vector is the reflected polynomial.** -/
theorem toPoly_reverse (v : BitVec n) : toPoly v.reverse = (toPoly v).reflect (n - 1) := by
  ext i
  rw [coeff_reflect, coeff_toPoly, coeff_toPoly, BitVec.getLsbD_reverse, BitVec.getMsbD_eq_getLsbD]
  by_cases hi : i < n
  · rw [revAt_le (by omega), decide_eq_true hi, Bool.true_and]
  · have hge : n ≤ revAt (n - 1) i := by
      rcases Nat.lt_or_ge (n - 1) i with hlt | hle
      · rw [revAt_eq_self_of_lt hlt]
        omega
      · rw [revAt_le hle]
        omega
    rw [BitVec.getLsbD_of_ge v _ hge, decide_eq_false hi, Bool.false_and]

/-- The product of reversed vectors.  The product has one bit less than the two factors, so
one of them is reflected about its next place. -/
theorem clmul_reverse {b c : BitVec 64} (h : (toPoly b).reflect 64 = toPoly c) (a : BitVec 64) :
    (clmul a b).reverse = clmul a.reverse c := by
  have hdeg : ∀ (v : BitVec 64) (k : ℕ), 63 ≤ k → (toPoly v).natDegree ≤ k := by
    intro v k hk
    rw [natDegree_le_iff_coeff_eq_zero]
    intro i hi
    rw [coeff_toPoly, BitVec.getLsbD_of_ge v i (by omega)]
    rfl
  apply toPoly_injective
  rw [toPoly_reverse, toPoly_clmul, toPoly_clmul, toPoly_reverse, ← h]
  exact reflect_mul _ _ (hdeg a 63 le_rfl) (hdeg b 64 (by omega))

/-! ### Sequences of bytes -/

/-- The first `k` bytes of a sequence as one polynomial, the first byte on top. -/
noncomputable def message (f : ℕ → BitVec 8) : ℕ → (ZMod 2)[X]
  | 0 => 0
  | k + 1 => X ^ 8 * message f k + toPoly (f k)

theorem message_succ (f : ℕ → BitVec 8) (k : ℕ) :
    message f (k + 1) = X ^ 8 * message f k + toPoly (f k) := rfl

theorem message_congr {f g : ℕ → BitVec 8} {k : ℕ} (h : ∀ i, i < k → f i = g i) :
    message f k = message g k := by
  induction k with
  | zero => rfl
  | succ k ih => rw [message_succ, message_succ, ih fun i hi => h i (by omega), h k (by omega)]

theorem message_zero (k : ℕ) : message (fun _ => 0#8) k = 0 := by
  induction k with
  | zero => rfl
  | succ k ih => rw [message_succ, ih, toPoly_zero, mul_zero, add_zero]

/-- **Bytes after bytes.** -/
theorem message_add (f : ℕ → BitVec 8) (k l : ℕ) :
    message f (k + l) = X ^ (8 * l) * message f k + message (fun i => f (k + i)) l := by
  induction l with
  | zero => simp [message]
  | succ l ih =>
    rw [← Nat.add_assoc, message_succ, ih, message_succ, Nat.mul_succ, pow_add]
    ring

/-- The bits of a message. -/
theorem coeff_message (f : ℕ → BitVec 8) (k i : ℕ) :
    (message f k).coeff i
      = if i < 8 * k ∧ (f (k - 1 - i / 8)).getLsbD (i % 8) then 1 else 0 := by
  induction k generalizing i with
  | zero => simp [message]
  | succ k ih =>
    rw [message_succ, coeff_add, coeff_X_pow_mul', coeff_toPoly]
    by_cases hi : i < 8
    · simp [show ¬ 8 ≤ i by omega, show i < 8 * (k + 1) by omega, Nat.mod_eq_of_lt hi,
        Nat.div_eq_of_lt hi]
    · have hlt : i - 8 < 8 * k ↔ i < 8 * (k + 1) := by omega
      rw [ih, BitVec.getLsbD_of_ge _ i (by omega),
        show k + 1 - 1 - i / 8 = k - 1 - (i - 8) / 8 by omega, show (i - 8) % 8 = i % 8 by omega]
      simp [show 8 ≤ i by omega, hlt]

/-! ### Residues -/

/-- The class of a vector modulo `M`. -/
noncomputable def residue (M : (ZMod 2)[X]) (v : BitVec n) : AdjoinRoot M :=
  AdjoinRoot.mk M (toPoly v)

theorem residue_xor (M : (ZMod 2)[X]) (v w : BitVec n) :
    residue M (v ^^^ w) = residue M v + residue M w := by
  rw [residue, toPoly_xor, map_add]
  rfl

/-- **A vector no longer than the modulus is determined by its class.** -/
theorem residue_injective {M : (ZMod 2)[X]} (hM : (n : WithBot ℕ) ≤ M.degree) {v w : BitVec n}
    (h : residue M v = residue M w) : v = w := by
  have hdvd : M ∣ toPoly v - toPoly w := AdjoinRoot.mk_eq_mk.mp h
  have hdeg : (toPoly v - toPoly w).degree < M.degree :=
    lt_of_lt_of_le (lt_of_le_of_lt (degree_sub_le _ _)
      (max_lt (degree_toPoly_lt v) (degree_toPoly_lt w))) hM
  exact toPoly_injective (sub_eq_zero.mp (eq_zero_of_dvd_of_degree_lt hdvd hdeg))

theorem degree_add_lt {p q : (ZMod 2)[X]} {k : ℕ} (hp : p.degree < k) (hq : q.degree < k) :
    (p + q).degree < k :=
  lt_of_le_of_lt (degree_add_le p q) (max_lt hp hq)

/-- Degrees add up, and the bound of one factor is strict. -/
theorem degree_mul_lt {p q : (ZMod 2)[X]} {k l : ℕ} (hp : p.degree < k) (hq : q.degree ≤ l) :
    (p * q).degree < (k + l : ℕ) := by
  rcases eq_or_ne (p * q) 0 with h | h
  · rw [h, degree_zero]
    exact WithBot.bot_lt_coe _
  · have hp0 : p ≠ 0 := left_ne_zero_of_mul h
    have hq0 : q ≠ 0 := right_ne_zero_of_mul h
    rw [degree_eq_natDegree hp0, Nat.cast_lt] at hp
    rw [degree_eq_natDegree hq0, Nat.cast_le] at hq
    rw [degree_eq_natDegree h, Nat.cast_lt, natDegree_mul hp0 hq0]
    omega

/-- **Barrett's quotient leaves a remainder.**  `U` is the quotient of `X ^ 2d` by `M`; the
quotient of `X ^ d * C` by `M` is the top half of `C * U`. -/
theorem barrett_degree {M U R C Q S : (ZMod 2)[X]} {d : ℕ} (hM : M.degree ≤ d)
    (hU : X ^ (2 * d) = U * M + R) (hR : R.degree < d) (hC : C.degree < d)
    (hQ : C * U = X ^ d * Q + S) (hS : S.degree < d) :
    (X ^ d * C - Q * M).degree < (d : WithBot ℕ) := by
  have hscaled : X ^ d * (X ^ d * C - Q * M) = C * R + S * M := by
    have hpow : (X : (ZMod 2)[X]) ^ (2 * d) = X ^ d * X ^ d := by rw [two_mul, pow_add]
    rw [hpow] at hU
    linear_combination C * hU + M * hQ
  have hdeg : (C * R + S * M).degree < (2 * d : ℕ) := by
    rw [two_mul]
    exact degree_add_lt (degree_mul_lt hC hR.le) (degree_mul_lt hS hM)
  rw [degree_lt_iff_coeff_zero] at hdeg ⊢
  intro i hi
  rw [← hdeg (i + d) (by omega), ← hscaled, coeff_X_pow_mul]

end Carryless
