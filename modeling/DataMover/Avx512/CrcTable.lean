import DataMover.Avx512.CrcLong
import DataMover.Avx512.CrcReflected
import DataMover.CrcRemainder
import DataMover.Lib.LongDivision

/-!
# The table of coefficients

`own_gen_crc_opt_poly_8u` makes the table for a polynomial: the polynomial itself, the quotient
of `x ^ 64` by it, and the remainders of seventeen powers of `x`.  `poly1x64_32_div` is a long
division whose 72 bits are seven zeros, a one and 64 zeros.  The powers are reached by doubling
the remainder of `x ^ 32`, with one counter that runs on from power to power.

The generator fills the first 21 words of a buffer and leaves the others as they are.

## Main definitions

* `GenState`, `genWord`, `runGenCrcOptPoly8u` — the generator with its counter and its buffer.
* `optPoly1PtrBytes` — the bytes of the table that comes with the code.
* `CorrectTable` — what a table for a polynomial holds.

## Main results

* `poly1x6432Div_eq` — the quotient and the remainder of `x ^ 64`.
* `runGenCrcOptPoly8u_correct` — the table is right for every polynomial.
* `dmlAvx512CrcU32_of_lt`, `dmlAvx512CrcReflectedU32_of_lt` — so are the kernels that use it.
-/

namespace DataMover

open ByteMemory Carryless Simd Polynomial

/-! ### The generator, word by word -/

/-- The powers of `x` in the table; the last two are never reached. -/
def genBits : List ℕ :=
  [64, 96, 160, 224, 288, 352, 416, 480, 544, 608, 672, 736, 800, 864, 928, 992, 1056, 2016, 2080]

/-- `opt`, `j` and `tail` of `own_gen_crc_opt_poly_8u`. -/
structure GenState where
  opt : ℕ → BitVec 32
  j : ℕ
  tail : BitVec 32

/-- The word for element `i` of `bits`: the loop goes on from where the last one has left `j`. -/
def genWord (poly32 : BitVec 32) (i : ℕ) (s : GenState) : GenState :=
  let k := genBits.getD i 0 + 8
  let tail := Loop.iter (fun _ tail => doubleTail poly32 tail) (k - s.j) s.tail
  { opt := Function.update s.opt (4 + i) tail, j := max s.j k, tail := tail }

/-- `own_gen_crc_opt_poly_8u`, on a buffer with the words `opt`. -/
def runGenCrcOptPoly8u (poly : BitVec 64) (opt : ℕ → BitVec 32) : ℕ → BitVec 32 :=
  let crcSize := getCRCSize poly
  let opt := Function.update opt 0 (poly.setWidth 32)
  let opt := Function.update opt 1 ((poly >>> 32).setWidth 32)
  let u := (poly1x6432Div (poly <<< (32 - crcSize))).1
  let opt := Function.update opt 2 (u.setWidth 32)
  let opt := Function.update opt 3 ((u >>> 32).setWidth 32)
  let poly32 := poly.setWidth 32
  (Loop.iter (genWord poly32) (genBits.length - 2) ⟨opt, 40, poly32⟩).opt

/-- What the generator has done after the words below `n`. -/
structure GenAt (poly32 : BitVec 32) (opt : ℕ → BitVec 32) (n : ℕ) (s : GenState) : Prop where
  le : 40 ≤ s.j
  next : s.j ≤ genBits.getD n 0 + 8
  tail : s.tail = Loop.iter (fun _ tail => doubleTail poly32 tail) (s.j - 40) poly32
  opt : ∀ i, s.opt i = if 4 ≤ i ∧ i < 4 + n then
    Loop.iter (fun _ tail => doubleTail poly32 tail) (genBits.getD (i - 4) 0 + 8 - 40) poly32
    else opt i

theorem genWord_keeps {poly32 : BitVec 32} {opt : ℕ → BitVec 32} {n : ℕ} {s : GenState}
    (hn : n < 17) (h : GenAt poly32 opt n s) : GenAt poly32 opt (n + 1) (genWord poly32 n s) := by
  have hascending : ∀ n, n < 17 → genBits.getD n 0 ≤ genBits.getD (n + 1) 0 := by decide
  have hmax : max s.j (genBits.getD n 0 + 8) = genBits.getD n 0 + 8 := max_eq_right h.next
  have hle := h.le
  have hnext := h.next
  -- the doublings of the words before, and those of this one
  have htail : (genWord poly32 n s).tail
      = Loop.iter (fun _ tail => doubleTail poly32 tail) (genBits.getD n 0 + 8 - 40) poly32 := by
    have hsum : genBits.getD n 0 + 8 - 40 = (s.j - 40) + (genBits.getD n 0 + 8 - s.j) := by omega
    rw [hsum, Loop.iter_add, ← h.tail]
    rfl
  have hj : (genWord poly32 n s).j = genBits.getD n 0 + 8 := hmax
  refine ⟨?_, ?_, ?_, ?_⟩
  · rw [hj]
    omega
  · rw [hj]
    exact Nat.add_le_add_right (hascending n hn) 8
  · rw [htail, hj]
  · intro i
    have hopt : (genWord poly32 n s).opt
        = Function.update s.opt (4 + n) (genWord poly32 n s).tail := rfl
    rw [hopt]
    by_cases hi : i = 4 + n
    · rw [hi, Function.update_self, htail, if_pos (by omega), Nat.add_sub_cancel_left]
    · rw [Function.update_of_ne hi, h.opt]
      by_cases hlt : 4 ≤ i ∧ i < 4 + n
      · rw [if_pos hlt, if_pos (by omega)]
      · rw [if_neg hlt, if_neg (by omega)]

theorem genAt_iter (poly32 : BitVec 32) (opt : ℕ → BitVec 32) {n : ℕ} (hn : n ≤ 17) :
    GenAt poly32 opt n (Loop.iter (genWord poly32) n ⟨opt, 40, poly32⟩) := by
  induction n with
  | zero =>
    refine ⟨le_rfl, show 40 ≤ genBits.getD 0 0 + 8 by decide, rfl, fun i => ?_⟩
    rw [if_neg (by omega)]
    rfl
  | succ n ih => exact genWord_keeps (by omega) (ih (by omega))

/-- **The words of the generator**: those the kernels are modelled with, and behind them the
words the buffer had. -/
theorem runGenCrcOptPoly8u_apply (poly : BitVec 64) (opt : ℕ → BitVec 32) (i : ℕ) :
    runGenCrcOptPoly8u poly opt i = if i < 21 then ownGenCrcOptPoly8u poly i else opt i := by
  unfold runGenCrcOptPoly8u
  rw [(genAt_iter _ _ (show genBits.length - 2 ≤ 17 by decide)).opt,
    show genBits.length - 2 = 17 by decide]
  by_cases hword : 4 ≤ i ∧ i < 4 + 17
  · rw [if_pos hword, if_pos (by omega), ownGenCrcOptPoly8u]
    simp only [if_neg (show i ≠ 0 by omega), if_neg (show i ≠ 1 by omega),
      if_neg (show i ≠ 2 by omega), if_neg (show i ≠ 3 by omega), if_pos (show i < 21 by omega)]
    rfl
  · rw [if_neg hword]
    by_cases hfirst : i < 4
    · rw [if_pos (by omega), ownGenCrcOptPoly8u]
      rcases (show i = 0 ∨ i = 1 ∨ i = 2 ∨ i = 3 by omega) with rfl | rfl | rfl | rfl <;>
        simp [Function.update]
    · rw [if_neg (by omega), Function.update_of_ne (by omega), Function.update_of_ne (by omega),
        Function.update_of_ne (by omega), Function.update_of_ne (by omega)]

/-! ### The long division -/

/-- The polynomial with the term `x ^ 32`, as the kernels pass it on. -/
def poly64 (polynomial : BitVec 32) : BitVec 64 := polynomial.setWidth 64 ||| (1#64 <<< 32)

theorem getLsbD_poly64 (p : BitVec 32) (i : ℕ) :
    (poly64 p).getLsbD i = (p.getLsbD i || decide (i = 32)) := by
  rw [poly64, BitVec.getLsbD_or, BitVec.getLsbD_setWidth, BitVec.getLsbD_shiftLeft,
    BitVec.getLsbD_one]
  by_cases hi : i < 32
  · simp [hi, show i < 64 by omega, show i ≠ 32 by omega]
  · by_cases h32 : i = 32
    · simp [h32]
    · simp [hi, h32, BitVec.getLsbD_of_ge p i (by omega), show i - 32 ≠ 0 by omega]

theorem toPoly_poly64 (p : BitVec 32) : toPoly (poly64 p) = modulus p := by
  ext i
  rw [coeff_toPoly, getLsbD_poly64, modulus, coeff_add, coeff_X_pow, coeff_toPoly]
  by_cases hi : i = 32
  · simp [hi]
  · simp [hi]

/-- The degree of the polynomial. -/
theorem getCRCSize_poly64 (p : BitVec 32) : getCRCSize (poly64 p) = 32 := by
  have htop : (poly64 p).getLsbD 32 = true := by simp [getLsbD_poly64]
  have hne : poly64 p ≠ 0#64 := by
    intro hzero
    rw [hzero] at htop
    cases htop
  have hbit := BitVec.getLsbD_true_clz_of_ne_zero (by decide) hne
  have hle : 2 ^ 32 ≤ (poly64 p).toNat :=
    BitVec.two_pow_le_toNat_of_getElem_eq_true (by decide) htop
  have hlt := @BitVec.toNat_lt_two_pow_sub_clz 64 (poly64 p)
  unfold getCRCSize
  generalize (poly64 p).clz.toNat = c at hbit hlt ⊢
  -- the bit at the size is set, and none above it
  have hupper : 64 - 1 - c ≤ 32 := by
    by_contra hgt
    rw [getLsbD_poly64, BitVec.getLsbD_of_ge p _ (by omega)] at hbit
    simp at hbit
    omega
  have hlower : 32 < 64 - c := by
    have hpow := hle.trans_lt hlt
    exact (Nat.pow_lt_pow_iff_right (by decide)).mp hpow
  omega

/-- The bits of the dividend: those of `byte`, and zeros behind them. -/
def dividendBit (i : ℕ) : Bool := decide (i = 7)

theorem dividend_dividendBit (k : ℕ) :
    dividend dividendBit k = if k < 8 then 0 else X ^ (k - 8) := by
  induction k with
  | zero => rfl
  | succ k ih =>
    rw [dividend, ih, dividendBit]
    rcases Nat.lt_trichotomy k 7 with hlt | rfl | hgt
    · simp [show k < 8 by omega, show k + 1 < 8 by omega, show k ≠ 7 by omega]
    · simp
    · simp only [show ¬k < 8 by omega, show ¬k + 1 < 8 by omega, show k ≠ 7 by omega,
        if_false, decide_false]
      rw [← pow_succ', show k - 8 + 1 = k + 1 - 8 by omega]
      simp

/-- The state of `poly1x64_32_div` before its loop, and one turn of it, as its body has it. -/
def divBody (poly : BitVec 64) (s : BitVec 8 × BitVec 64 × BitVec 64) :
    BitVec 8 × BitVec 64 × BitVec 64 :=
  let bit := (s.1 &&& 0x80#8) >>> 7
  let byte := s.1 <<< 1
  let hbit := s.2.1 &&& 0x80000000#64
  let tail := (s.2.1 <<< 1) ||| bit.setWidth 64
  let quot := s.2.2 <<< 1
  let (tail, quot) := if hbit ≠ 0#64 then (tail ^^^ poly, quot ||| 1#64) else (tail, quot)
  (byte, tail &&& 0xffffffff#64, quot)

/-- The bit of the dividend that leaves `byte`. -/
theorem leaving_bit (i : ℕ) :
    (((0x01#8 <<< i) &&& 0x80#8) >>> 7).setWidth 64
      = (BitVec.ofBool (dividendBit i)).setWidth 64 := by
  by_cases hi : i < 8
  · have hall : ∀ i, i < 8 → (((0x01#8 <<< i) &&& 0x80#8) >>> 7).setWidth 64
        = (BitVec.ofBool (dividendBit i)).setWidth 64 := by decide
    exact hall i hi
  · have hzero : 0x01#8 <<< i = 0#8 := BitVec.shiftLeft_eq_zero (by omega)
    rw [hzero, dividendBit, decide_eq_false (by omega)]
    rfl

/-- The bit that falls out of a tail of 32 bits. -/
theorem leaving_tail (t : BitVec 32) :
    (t.setWidth 64 &&& 0x80000000#64 ≠ 0#64) ↔ t.getLsbD 31 = true := by
  have htwo : 0x80000000#64 = BitVec.twoPow 64 31 := by decide
  rw [htwo, BitVec.and_twoPow, BitVec.getLsbD_setWidth]
  cases t.getLsbD 31 with
  | true => exact iff_of_true (by decide) rfl
  | false => simp

/-- The tail in a word of 64 bits, of which the upper half is cleared. -/
theorem tail_step (p t : BitVec 32) (bit : Bool) :
    (if t.getLsbD 31 then ((t.setWidth 64 <<< 1) ||| (BitVec.ofBool bit).setWidth 64) ^^^ poly64 p
      else (t.setWidth 64 <<< 1) ||| (BitVec.ofBool bit).setWidth 64) &&& 0xffffffff#64
      = (crcBit p t ^^^ (BitVec.ofBool bit).setWidth 32).setWidth 64 := by
  have hmask : 0xffffffff#64 = (BitVec.allOnes 32).setWidth 64 := by decide
  apply BitVec.eq_of_getLsbD_eq
  intro i hi
  rw [hmask, BitVec.getLsbD_and, BitVec.getLsbD_setWidth, BitVec.getLsbD_setWidth,
    BitVec.getLsbD_allOnes]
  by_cases hlow : i < 32
  · have hp : (poly64 p).getLsbD i = p.getLsbD i := by
      simp [getLsbD_poly64, show i ≠ 32 by omega]
    rw [crcBit]
    cases t.getLsbD 31 with
    | true =>
      rw [if_pos rfl, if_pos rfl, BitVec.getLsbD_xor, hp]
      cases i with
      | zero => cases bit <;> simp
      | succ i => simp [hi, hlow, show i < 32 by omega]
    | false =>
      cases i with
      | zero => cases bit <;> simp
      | succ i => simp [hi, hlow, show i < 32 by omega]
  · rw [BitVec.getLsbD_of_ge (crcBit p t ^^^ _) i (by omega)]
    simp [hlow]

/-- **One turn** is one step of the long division. -/
theorem divBody_step (p : BitVec 32) (i : ℕ) (s : Division 32 64) :
    divBody (poly64 p) (0x01#8 <<< i, s.tail.setWidth 64, s.quot)
      = (0x01#8 <<< (i + 1), (s.step p (dividendBit i)).tail.setWidth 64,
        (s.step p (dividendBit i)).quot) := by
  have htail := tail_step p s.tail (dividendBit i)
  unfold divBody
  simp only [leaving_bit, leaving_tail, ← BitVec.shiftLeft_add, Division.step]
  rw [← htail]
  cases s.tail.getLsbD 31 <;> rfl

theorem poly1x6432Div_iter (p : BitVec 32) (k : ℕ) :
    Loop.iter (fun _ s => divBody (poly64 p) s) k (0x01#8, 0#64, 0#64)
      = (0x01#8 <<< k,
        (Loop.iter (fun i s => Division.step p (dividendBit i) s) k
          (⟨0#32, 0#64⟩ : Division 32 64)).tail.setWidth 64,
        (Loop.iter (fun i s => Division.step p (dividendBit i) s) k ⟨0#32, 0#64⟩).quot) := by
  induction k with
  | zero => rfl
  | succ k ih => rw [Loop.iter_succ, ih, divBody_step, Loop.iter_succ]

/-- **`poly1x64_32_div`** is the division of `x ^ 64`. -/
theorem poly1x6432Div_eq (p : BitVec 32) :
    toPoly (poly1x6432Div (poly64 p)).1 = X ^ 64 /ₘ modulus p ∧
      toPoly (poly1x6432Div (poly64 p)).2 = X ^ 64 %ₘ modulus p := by
  have hdiv := (division_of_dividend (n := 64) (by decide) (by decide) p dividendBit
    (show 72 ≤ 32 + 64 by decide)).eq_divByMonic
  rw [dividend_dividendBit, if_neg (by decide)] at hdiv
  have hiter : poly1x6432Div (poly64 p)
      = ((Loop.iter (fun _ s => divBody (poly64 p) s) 72 (0x01#8, 0#64, 0#64)).2.2,
        (Loop.iter (fun _ s => divBody (poly64 p) s) 72 (0x01#8, 0#64, 0#64)).2.1.setWidth 32) := by
    unfold poly1x6432Div
    exact congrArg (fun s : BitVec 8 × BitVec 64 × BitVec 64 => (s.2.2, s.2.1.setWidth 32))
      (Loop.iter_congr (fun _ _ => rfl) _)
  rw [hiter, poly1x6432Div_iter]
  refine ⟨hdiv.1, ?_⟩
  rw [BitVec.setWidth_setWidth_of_le _ (by decide), BitVec.setWidth_eq]
  exact hdiv.2

/-! ### What a table holds -/

/-- **What a table for a polynomial holds**: the polynomial with its leading term, the quotient
of `x ^ 64`, and the remainders of the powers of `x` in `genBits`. -/
structure CorrectTable (p : BitVec 32) (table : ℕ → BitVec 32) : Prop where
  polynomial : table 1 ++ table 0 = poly64 p
  quotient : toPoly (table 3 ++ table 2) = X ^ 64 /ₘ modulus p
  power : ∀ i, i < 17 → toPoly (table (4 + i)) = X ^ genBits.getD i 0 %ₘ modulus p

/-- The powers are `x ^ 64`, and `x ^ 96` on in steps of 64. -/
theorem genBits_succ : ∀ j, j ≤ 15 → genBits.getD (j + 1) 0 = 96 + 64 * j := by decide

/-- The class of a power of `x`, and its remainder. -/
theorem toPoly_eq_power_iff {p v : BitVec 32} {e : ℕ} :
    toPoly v = X ^ e %ₘ modulus p ↔ residue (modulus p) v = xMod p ^ e := by
  constructor
  · intro h
    have hclass : AdjoinRoot.mk (modulus p) (X ^ e %ₘ modulus p)
        = AdjoinRoot.mk (modulus p) (X ^ e) :=
      AdjoinRoot.mk_eq_mk.mpr (dvd_modByMonic_sub (X ^ e) (modulus p))
    rw [residue, h, hclass, map_pow, mk_X]
  · intro h
    refine toPoly_eq_modByMonic ?_
    rw [map_pow]
    exact h.symm

/-- **What the kernels rely on** is that the table is right. -/
theorem koeffSpec_iff {p : BitVec 32} {table : ℕ → BitVec 32} :
    KoeffSpec p table ↔ CorrectTable p table := by
  constructor
  · intro h
    refine ⟨toPoly_injective (h.modulus.trans (toPoly_poly64 p).symm), ?_, ?_⟩
    · obtain ⟨r, hr, hdeg⟩ := h.quotient
      have hlt : r.degree < (modulus p).degree := by
        rw [degree_modulus]
        exact hdeg
      exact (div_modByMonic_unique _ r (monic_modulus p)
        ⟨by rw [hr, mul_comm, add_comm], hlt⟩).1.symm
    · intro i hi
      rw [toPoly_eq_power_iff]
      cases i with
      | zero => exact h.k64
      | succ j =>
        rw [genBits_succ j (by omega), show 4 + (j + 1) = 5 + j by omega]
        exact h.power j (by omega)
  · intro h
    refine ⟨?_, ⟨X ^ 64 %ₘ modulus p, ?_, ?_⟩, ?_, ?_⟩
    · rw [h.polynomial, toPoly_poly64]
    · rw [h.quotient, mul_comm, add_comm]
      exact (modByMonic_add_div _ (modulus p)).symm
    · have hlt := degree_modByMonic_lt (X ^ 64) (monic_modulus p)
      rw [degree_modulus] at hlt
      exact hlt
    · exact toPoly_eq_power_iff.mp (h.power 0 (by omega))
    · intro j hj
      have hpower := toPoly_eq_power_iff.mp (h.power (j + 1) (by omega))
      rwa [genBits_succ j hj, show 4 + (j + 1) = 5 + j by omega] at hpower

theorem append_eq_append {a b c d : BitVec 32} (h : a ++ b = c ++ d) : a = c ∧ b = d := by
  have hbit : ∀ i, (if i < 32 then b.getLsbD i else a.getLsbD (i - 32))
      = if i < 32 then d.getLsbD i else c.getLsbD (i - 32) := by
    intro i
    have hi := congrArg (fun u => u.getLsbD i) h
    simpa only [BitVec.getLsbD_append] using hi
  constructor
  · apply BitVec.eq_of_getLsbD_eq
    intro i _
    have hi := hbit (i + 32)
    rwa [if_neg (by omega), if_neg (by omega), Nat.add_sub_cancel] at hi
  · apply BitVec.eq_of_getLsbD_eq
    intro i hlt
    have hi := hbit i
    rwa [if_pos hlt, if_pos hlt] at hi

/-- **There is one table** for a polynomial. -/
theorem CorrectTable.unique {p : BitVec 32} {table table' : ℕ → BitVec 32}
    (h : CorrectTable p table) (h' : CorrectTable p table') {i : ℕ} (hi : i < 21) :
    table i = table' i := by
  obtain ⟨h1, h0⟩ := append_eq_append (h.polynomial.trans h'.polynomial.symm)
  obtain ⟨h3, h2⟩ := append_eq_append (toPoly_injective (h.quotient.trans h'.quotient.symm))
  rcases (show i = 0 ∨ i = 1 ∨ i = 2 ∨ i = 3 ∨ 4 ≤ i by omega) with rfl | rfl | rfl | rfl | hge
  · exact h0
  · exact h1
  · exact h2
  · exact h3
  · obtain ⟨j, rfl⟩ := Nat.exists_eq_add_of_le hge
    exact toPoly_injective ((h.power j (by omega)).trans (h'.power j (by omega)).symm)

/-! ### The generated table -/

theorem doubleTail_eq (p v : BitVec 32) : doubleTail p v = crc32Bit p v := by
  have hdouble : v + v = v <<< 1 := by
    apply BitVec.eq_of_toNat_eq
    rw [BitVec.toNat_add, BitVec.toNat_shiftLeft, Nat.shiftLeft_eq]
    omega
  rw [doubleTail, crc32Bit_eq, ← crcBit_eq_mask (by decide) (show 0x80000000#32 = _ by decide) p v,
    hdouble]
  by_cases h : v &&& 0x80000000#32 ≠ 0#32
  · simp only [if_pos h]
  · simp only [if_neg h, BitVec.xor_zero]

/-- A word of 64 bits is its two halves. -/
theorem append_halves (u : BitVec 64) : (u >>> 32).setWidth 32 ++ u.setWidth 32 = u := by
  apply BitVec.eq_of_getLsbD_eq
  intro i hi
  rw [BitVec.getLsbD_append, BitVec.getLsbD_setWidth, BitVec.getLsbD_setWidth,
    BitVec.getLsbD_ushiftRight]
  by_cases hlow : i < 32
  · simp [hlow]
  · simp [hlow, show i - 32 < 32 by omega, show 32 + (i - 32) = i by omega]

/-- **The table the kernels make** for a polynomial is right. -/
theorem correctTable_ownGenCrcOptPoly8u (p : BitVec 32) :
    CorrectTable p (ownGenCrcOptPoly8u (poly64 p)) := by
  have hlow : (poly64 p).setWidth 32 = p := by
    apply BitVec.eq_of_getLsbD_eq
    intro i hi
    simp [getLsbD_poly64, hi, show i ≠ 32 by omega]
  refine ⟨append_halves _, ?_, ?_⟩
  · have hu : ownGenCrcOptPoly8u (poly64 p) 3 ++ ownGenCrcOptPoly8u (poly64 p) 2
        = (poly1x6432Div (poly64 p)).1 := by
      have hshift : poly64 p <<< (32 - getCRCSize (poly64 p)) = poly64 p := by
        rw [getCRCSize_poly64, Nat.sub_self, BitVec.shiftLeft_zero]
      simp only [ownGenCrcOptPoly8u, hshift]
      exact append_halves _
    rw [hu]
    exact (poly1x6432Div_eq p).1
  · intro i hi
    have hword : ownGenCrcOptPoly8u (poly64 p) (4 + i)
        = Loop.iter (fun _ tail => doubleTail p tail) (genBits.getD i 0 + 8 - 40) p := by
      simp only [ownGenCrcOptPoly8u, if_neg (show 4 + i ≠ 0 by omega),
        if_neg (show 4 + i ≠ 1 by omega), if_neg (show 4 + i ≠ 2 by omega),
        if_neg (show 4 + i ≠ 3 by omega), if_pos (show 4 + i < 21 by omega),
        Nat.add_sub_cancel_left, hlow]
      rfl
    have hlarge : ∀ i, i < 17 → 32 ≤ genBits.getD i 0 := by decide
    have hge := hlarge i hi
    -- the remainder of `x ^ 32`, doubled up to the power
    rw [toPoly_eq_power_iff, hword]
    simp only [doubleTail_eq]
    rw [residue_crc32Bit_iter, ← xMod_pow_32, ← pow_add]
    congr 1
    omega

/-! ### The table that comes with the code -/

/-- `opt_poly_1_ptr`. -/
def optPoly1PtrBytes : List (BitVec 8) :=
  [0x41, 0x6f, 0xdc, 0x1e, 0x01, 0x00, 0x00, 0x00, 0xf6, 0xca, 0x91, 0x1f, 0x01, 0x00, 0x00, 0x00,
   0x76, 0x45, 0xab, 0x3a, 0x65, 0x16, 0xa0, 0xd7, 0x9e, 0x60, 0x60, 0xff, 0xba, 0xe4, 0x87, 0xe2,
   0x39, 0xa4, 0xca, 0xb8, 0x37, 0x68, 0x8c, 0xb7, 0x70, 0x28, 0x71, 0x41, 0xf2, 0xa4, 0x76, 0x3f,
   0x5c, 0xe0, 0xee, 0x81, 0x38, 0x97, 0x9b, 0xd2, 0x20, 0xb8, 0xec, 0x6e, 0x81, 0x3e, 0x3b, 0x8a,
   0x07, 0x9d, 0x39, 0xd3, 0x85, 0xd8, 0x5f, 0xcf, 0xa8, 0x36, 0x71, 0x18, 0x60, 0xb9, 0x0d, 0x92,
   0x2c, 0x93, 0xe6, 0x8a, 0x00, 0x00, 0x00, 0x00, 0x00, 0x00, 0x00, 0x00, 0x00, 0x00, 0x00, 0x00,
   0x00, 0x00, 0x00, 0x00, 0x00, 0x00, 0x00, 0x00, 0x00, 0x00, 0x00, 0x00, 0x00, 0x00, 0x00, 0x00,
   0x00, 0x00, 0x00, 0x00, 0x00, 0x00, 0x00, 0x00, 0x00, 0x00, 0x00, 0x00, 0x00, 0x00, 0x00, 0x00]

/-- The bytes of a table of words. -/
def tableByte (table : ℕ → BitVec 32) (b : ℕ) : BitVec 8 := byteAt (table (b / 4)).toNat (b % 4)

/-- The words the kernels are modelled with are those bytes. -/
theorem tableByte_optPoly1Ptr :
    ∀ b, b < 128 → tableByte optPoly1Ptr b = optPoly1PtrBytes.getD b 0 := by
  decide

/-- **The coefficients are right for every polynomial**: the generator fills the first 21 words
of its buffer with the table of the polynomial, the quotient being the one of
`poly1x64_32_div`; and for the usual polynomial these are the bytes that come with the code. -/
theorem runGenCrcOptPoly8u_correct (opt : ℕ → BitVec 32) :
    (∀ p : BitVec 32, CorrectTable p (runGenCrcOptPoly8u (poly64 p) opt) ∧
      runGenCrcOptPoly8u (poly64 p) opt 3 ++ runGenCrcOptPoly8u (poly64 p) opt 2
        = (poly1x6432Div (poly64 p)).1) ∧
    ∀ b, b < 84 → tableByte (runGenCrcOptPoly8u (poly64 crcPolynomial) opt) b
      = optPoly1PtrBytes.getD b 0 := by
  have hcorrect : ∀ p : BitVec 32, CorrectTable p (runGenCrcOptPoly8u (poly64 p) opt) := by
    intro p
    have htable := correctTable_ownGenCrcOptPoly8u p
    have hword : ∀ i, i < 21 → runGenCrcOptPoly8u (poly64 p) opt i
        = ownGenCrcOptPoly8u (poly64 p) i := by
      intro i hi
      rw [runGenCrcOptPoly8u_apply, if_pos hi]
    refine ⟨?_, ?_, fun i hi => ?_⟩
    · rw [hword 1 (by omega), hword 0 (by omega), htable.polynomial]
    · rw [hword 3 (by omega), hword 2 (by omega), htable.quotient]
    · rw [hword (4 + i) (by omega), htable.power i hi]
  refine ⟨fun p => ⟨hcorrect p, ?_⟩, fun b hb => ?_⟩
  · exact toPoly_injective ((hcorrect p).quotient.trans (poly1x6432Div_eq p).1.symm)
  · have hword := (hcorrect crcPolynomial).unique (koeffSpec_iff.mp koeffSpec_optPoly1Ptr)
      (show b / 4 < 21 by omega)
    rw [tableByte, hword]
    exact tableByte_optPoly1Ptr b (by omega)

/-! ### The kernels with a generated table -/

/-- A polynomial with a table of its own, up to the lengths that a signed number of 32 bits
holds. -/
theorem ownCalculateCrc_of_lt {refl : BitVec 128 → BitVec 128} {rb : BitVec 8 → BitVec 8}
    (hrb : ReflectsBytes refl rb) (long : Memory → ℕ → ℕ → BitVec 32 → Option (BitVec 32))
    (m : Memory) (src : ℕ) {n : ℕ} (hn : n < 2 ^ 31) (crc : BitVec 32) {p : BitVec 32}
    (hp : p ≠ crcPolynomial) :
    ownCalculateCrc (ownCrcK0 (ownCrcOptK0 refl) long) m src n crc p
      = some (dmlRefCrc32u (fun a => rb (m a)) src n crc p) := by
  have hother : ¬(1#64 <<< 32) ||| crcPolynomial.setWidth 64 = poly64 p := by
    intro heq
    refine hp (BitVec.eq_of_getLsbD_eq fun i hi => ?_)
    have hbit := congrArg (fun u => u.getLsbD i) (heq.symm.trans (BitVec.or_comm _ _))
    have h32 : i ≠ 32 := by omega
    have husual : crcPolynomial.setWidth 64 ||| (1#64 <<< 32) = poly64 crcPolynomial := rfl
    simpa only [husual, getLsbD_poly64, decide_eq_false h32, Bool.or_false] using hbit
  have hpoly : p.setWidth 64 ||| (1#64 <<< 32) = poly64 p := rfl
  rw [ownCalculateCrc, if_neg (Ne.symm hp), hpoly, ownCrcK0, if_neg hother, getCRCSize_poly64,
    toInt_length hn]
  exact ownCrcOptK0_eq (koeffSpec_iff.mpr (correctTable_ownGenCrcOptPoly8u p)) hrb n

/-- **The vector CRC is the reference CRC for every polynomial.** -/
theorem dmlAvx512CrcU32_of_lt (m : Memory) (src : ℕ) {n : ℕ} (hn : n < 2 ^ 31)
    (crc p : BitVec 32) :
    dmlAvx512CrcU32 m src n crc p = some (dmlRefCrc32u m src n crc p) := by
  by_cases hp : p = crcPolynomial
  · rw [hp]
    exact ownCalculateCrc_eq reflectsBytes_id (ownCrc32LongLeK0_eq m src n crc)
  · exact ownCalculateCrc_of_lt reflectsBytes_id ownCrc32LongLeK0 m src hn crc hp

/-- The reflected kernel likewise. -/
theorem dmlAvx512CrcReflectedU32_of_lt (m : Memory) (src : ℕ) {n : ℕ} (hn : n < 2 ^ 31)
    (crc p : BitVec 32) :
    dmlAvx512CrcReflectedU32 m src n crc p = some (dmlRefCrcReflectedU32 m src n crc p) := by
  rw [dmlRefCrcReflectedU32_eq]
  by_cases hp : p = crcPolynomial
  · rw [hp]
    exact ownCalculateCrc_eq reflectsBytes_dRefl (ownCrc32LongBeK0_eq m src n crc)
  · exact ownCalculateCrc_of_lt reflectsBytes_dRefl ownCrc32LongBeK0 m src hn crc hp

end DataMover
