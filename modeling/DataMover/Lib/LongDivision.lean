import DataMover.Lib.CrcRegister

/-!
# Long division of polynomials, bit by bit

A register of `w` bits that takes in the bits of a dividend, the most significant one first,
holds the remainder modulo a polynomial of degree `w` at any time.  The bits that fall out of
it are those of the quotient.

## Main definitions

* `Division`, `Division.step` — remainder and quotient, and one more bit of the dividend.
* `dividend` — the polynomial of the bits taken in.
* `Division.Of` — remainder and quotient are those of a polynomial.

## Main results

* `Division.Of.step` — one more bit keeps the division right, while the quotient has room.
* `division_of_dividend` — the division of all the bits.
* `Division.Of.eq_divByMonic` — the result is the quotient and the remainder.
-/

namespace Carryless

open Polynomial

variable {w n : ℕ}

/-- The remainder and the quotient while a division is under way. -/
structure Division (w n : ℕ) where
  tail : BitVec w
  quot : BitVec n

namespace Division

/-- One more bit of the dividend. -/
def step (p : BitVec w) (bit : Bool) (s : Division w n) : Division w n where
  tail := crcBit p s.tail ^^^ (BitVec.ofBool bit).setWidth w
  quot := if s.tail.getLsbD (w - 1) then (s.quot <<< 1) ||| 1#n else s.quot <<< 1

/-- Quotient and remainder are those of `D`, divided by the polynomial `p`. -/
def Of (p : BitVec w) (D : (ZMod 2)[X]) (s : Division w n) : Prop :=
  D = toPoly s.quot * withLeading p + toPoly s.tail

end Division

/-- The polynomial of the first `k` bits, the first one on top. -/
noncomputable def dividend (f : ℕ → Bool) : ℕ → (ZMod 2)[X]
  | 0 => 0
  | k + 1 => X * dividend f k + if f k then 1 else 0

theorem degree_dividend_lt (f : ℕ → Bool) (k : ℕ) : (dividend f k).degree < k := by
  induction k with
  | zero => simp [dividend]
  | succ k ih =>
    rw [degree_lt_iff_coeff_zero] at ih ⊢
    intro i hi
    obtain ⟨j, rfl⟩ : ∃ j, i = j + 1 := ⟨i - 1, by omega⟩
    rw [dividend, coeff_add, coeff_X_mul, ih j (by omega)]
    split <;> simp [coeff_one]

/-! ### One bit -/

/-- A vector with room on top, moved up with a bit behind it. -/
theorem toPoly_shiftLeft_bit (hn : 0 < n) {q : BitVec n} (h : (toPoly q).degree < (n - 1 : ℕ))
    (bit : Bool) : toPoly (if bit then (q <<< 1) ||| 1#n else q <<< 1)
      = X * toPoly q + if bit then 1 else 0 := by
  rw [degree_lt_iff_coeff_zero] at h
  have hbit : ∀ i, (if bit then (q <<< 1) ||| 1#n else q <<< 1).getLsbD i
      = (decide (i < n ∧ 1 ≤ i) && q.getLsbD (i - 1) || bit && decide (i = 0)) := by
    intro i
    cases bit with
    | true =>
      rw [if_pos rfl, BitVec.getLsbD_or, BitVec.getLsbD_shiftLeft, BitVec.getLsbD_one]
      by_cases hi : i = 0 <;> simp [hi, hn, Nat.one_le_iff_ne_zero]
    | false =>
      rw [if_neg Bool.false_ne_true, BitVec.getLsbD_shiftLeft]
      by_cases hi : i = 0 <;> simp [hi, Nat.one_le_iff_ne_zero]
  ext i
  rw [coeff_toPoly, hbit]
  cases i with
  | zero => cases bit <;> simp
  | succ i =>
    rw [coeff_add, coeff_X_mul, coeff_toPoly]
    by_cases hi : i + 1 < n
    · cases bit <;> simp [hi, coeff_one]
    · -- no bit leaves the vector
      have hzero := h i (by omega)
      rw [coeff_toPoly] at hzero
      cases bit <;> simp [hi, hzero, coeff_one]

/-- The quotient has fewer bits than the dividend, by the degree of the divisor. -/
theorem Division.Of.degree_quot {p : BitVec w} {D : (ZMod 2)[X]} {s : Division w n}
    (h : s.Of p D) {k : ℕ} (hD : D.degree < (w + k : ℕ)) : (toPoly s.quot).degree < k := by
  have hprod : (toPoly s.quot * withLeading p).degree < (w + k : ℕ) := by
    have hsub : toPoly s.quot * withLeading p = D + toPoly s.tail := by
      rw [h, add_assoc, CharTwo.add_self_eq_zero, add_zero]
    rw [hsub]
    refine degree_add_lt hD ((degree_toPoly_lt s.tail).trans_le ?_)
    exact_mod_cast Nat.le_add_right w k
  rcases eq_or_ne (toPoly s.quot) 0 with hzero | hne
  · rw [hzero, degree_zero]
    exact WithBot.bot_lt_coe k
  · rw [degree_mul, degree_withLeading, degree_eq_natDegree hne] at hprod
    rw [degree_eq_natDegree hne]
    have hlt : (toPoly s.quot).natDegree + w < w + k := by exact_mod_cast hprod
    exact_mod_cast (show (toPoly s.quot).natDegree < k by omega)

theorem toPoly_ofBool (hw : 0 < w) (bit : Bool) :
    toPoly ((BitVec.ofBool bit).setWidth w) = if bit then 1 else 0 := by
  rw [toPoly_setWidth _ hw, toPoly_bit]
  cases bit <;> rfl

/-- **One more bit** of the dividend. -/
theorem Division.Of.step {p : BitVec w} {D : (ZMod 2)[X]} {s : Division w n} (hw : 0 < w)
    (hn : 0 < n) (h : s.Of p D) (hD : D.degree < (w + (n - 1) : ℕ)) (bit : Bool) :
    (s.step p bit).Of p (X * D + if bit then 1 else 0) := by
  have hquot := toPoly_shiftLeft_bit hn (h.degree_quot hD) (s.tail.getLsbD (w - 1))
  rw [Division.Of, Division.step, hquot, toPoly_xor, toPoly_ofBool hw]
  calc X * D + (if bit then 1 else 0)
      = X * toPoly s.quot * withLeading p + X * toPoly s.tail + (if bit then 1 else 0) := by
        rw [h]; ring
    _ = X * toPoly s.quot * withLeading p
          + ((if s.tail.getLsbD (w - 1) then 1 else 0) * withLeading p
            + toPoly (crcBit p s.tail)) + (if bit then 1 else 0) := by
        rw [X_mul_toPoly hw p]
    _ = _ := by ring

/-! ### All bits -/

/-- **The division of the bits of a dividend**, as many as the two vectors have room for. -/
theorem division_of_dividend (hw : 0 < w) (hn : 0 < n) (p : BitVec w) (f : ℕ → Bool) {k : ℕ}
    (hk : k ≤ w + n) :
    (Loop.iter (fun i s => Division.step p (f i) s) k (⟨0#w, 0#n⟩ : Division w n)).Of p
      (dividend f k) := by
  induction k with
  | zero => simp [Division.Of, dividend]
  | succ k ih =>
    rw [Loop.iter_succ, dividend]
    refine (ih (by omega)).step hw hn ((degree_dividend_lt f k).trans_le ?_) (f k)
    exact_mod_cast (show k ≤ w + (n - 1) by omega)

/-- **The result** is the quotient and the remainder. -/
theorem Division.Of.eq_divByMonic {p : BitVec w} {D : (ZMod 2)[X]} {s : Division w n}
    (h : s.Of p D) :
    toPoly s.quot = D /ₘ withLeading p ∧ toPoly s.tail = D %ₘ withLeading p := by
  have hdeg : (toPoly s.tail).degree < (withLeading p).degree := by
    rw [degree_withLeading]
    exact degree_toPoly_lt s.tail
  obtain ⟨hdiv, hmod⟩ := div_modByMonic_unique (f := D) (toPoly s.quot) (toPoly s.tail)
    (monic_withLeading p) ⟨by rw [h, mul_comm, add_comm], hdeg⟩
  exact ⟨hdiv.symm, hmod.symm⟩

end Carryless
