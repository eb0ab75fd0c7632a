import DataMover.Lib.SimdCompare
import DataMover.Ref.Compare
import DataMover.Validation

/-!
# The vector kernel of the comparison

`dml_avx512_compare` of `sw_dispatcher/avx512/compare.c`: registers of 64 bytes while
`i + 64 <= transfer_size`, then one load under a mask of the bytes left.  The buffers are
those of `DataMover.Lib.SimdCompare`: a byte that does not belong to them may not be read.

The counter and its test are of 32 bits.  From `transfer_size = 0xFFFFFFC0` on the sum wraps at
`i = 0xFFFFFFC0`, the test holds once more, and the next registers lie past the buffers; only a
difference before that place stops the loop.

## Main definitions

* `dmlAvx512Compare` — the kernel.
* `boundedRefCompare` — `dml_ref_compare` over the same buffers.
* `StopsBeforeWrap` — the size is below `0xFFFFFFC0`, or a difference comes before it.

## Main results

* `dmlAvx512Compare_window` — the kernel, where it stops before the wrap.
* `dmlAvx512Compare_window_eq_none`, `dmlAvx512Compare_wholeMemory` — and where it does not: it
  reads past the buffers, and where all the memory may be read it need not end.
-/

namespace DataMover

open ByteMemory Simd

/-! ### The reference kernel over the same buffers -/

/-- The body of the loop of `dml_ref_compare`; a fault is returned like a result. -/
def refCompareBody (src1 src2 : Buffer) (index : ℕ) (_ : Unit) :
    Except (Option (ℕ × ℕ)) Unit :=
  match src1 index, src2 index with
  | some x, some y => if x != y then .error (some (index % 2 ^ 32, resultNotEqual)) else .ok ()
  | _, _ => .error none

/-- `dml_ref_compare` where only some bytes may be read. -/
def boundedRefCompare (src1 src2 : Buffer) (transferSize : ℕ) : Option (ℕ × ℕ) :=
  match Loop.iterUntil (refCompareBody src1 src2) transferSize () with
  | .error result => result
  | .ok () => some (0, resultEqual)

/-- **The reference kernel stays within its buffers.** -/
theorem boundedRefCompare_window (m : Memory) (src1 src2 n : ℕ) :
    boundedRefCompare (window m src1 n) (window m src2 n) n
      = some (dmlRefCompare m src1 src2 n) := by
  have hbody : ∀ i, i < n → refCompareBody (window m src1 n) (window m src2 n) i ()
      = if differsAt m src1 src2 i then .error (some (i % 2 ^ 32, resultNotEqual)) else .ok () := by
    intro i hi
    unfold refCompareBody differsAt
    rw [window_of_lt m src1 hi, window_of_lt m src2 hi]
  have hsearch := @Loop.iterUntil_eq_search _ _ _ (differsAt m src1 src2)
    (fun i => some (i % 2 ^ 32, resultNotEqual)) (fun _ => ()) n hbody
  unfold boundedRefCompare dmlRefCompare
  rw [hsearch]
  cases Loop.search (differsAt m src1 src2) n <;> rfl

/-! ### The kernel -/

/-- The test of the vector loop, in 32 bits. -/
def compareCond (transferSize i : ℕ) : Bool := decide ((i + 64) % 2 ^ 32 ≤ transferSize)

/-- What a mask of differences at `i` makes the kernel return, if anything. -/
def returnAt (i : ℕ) (msk64 : BitVec 64) : Option (ℕ × ℕ) :=
  if msk64 ≠ 0#64 then some ((i + tzcnt msk64) % 2 ^ 32, resultNotEqual) else none

/-- The body of the vector loop. -/
def compareBody (src1 src2 : Buffer) (i : ℕ) : Option (Except (ℕ × ℕ) ℕ) := do
  let a ← loadu src1 i
  let b ← loadu src2 i
  match returnAt i (cmpneqMask 1 64 a b) with
  | some result => some (.error result)
  | none => some (.ok ((i + 64) % 2 ^ 32))

/-- The bytes left: a load under a mask of the low `transfer_size & 63` bits. -/
def compareTail (src1 src2 : Buffer) (transferSize i : ℕ) : Option (ℕ × ℕ) := do
  let tail := transferSize % 64
  let msk64 := (1#64 <<< tail) - 1#64
  let a ← maskzLoadu 1 msk64 src1 i
  let b ← maskzLoadu 1 msk64 src2 i
  match returnAt i (cmpneqMask 1 64 a b) with
  | some result => some result
  | none => some (0, resultEqual)

/-- `dml_avx512_compare`: the offset and the result.  A read outside the buffers has no result,
nor has a loop that does not end within `fuel` iterations. -/
def dmlAvx512Compare (fuel : ℕ) (src1 src2 : Buffer) (transferSize : ℕ) : Option (ℕ × ℕ) := do
  match ← Loop.whileUntil (compareCond transferSize) (compareBody src1 src2) fuel 0 with
  | .error result => some result
  | .ok i => compareTail src1 src2 transferSize i

/-! ### One register -/

/-- Registers whose bytes are the buffers' in the first `w` lanes, and zero elsewhere: the mask
of differences tells where the buffers differ from `i` on. -/
theorem tells_cmpneqMask {m : Memory} {src1 src2 i w : ℕ} {a b : BitVec 512}
    (ha : ∀ j, j < 64 → byte a j = if j < w then m (src1 + (i + j)) else 0#8)
    (hb : ∀ j, j < 64 → byte b j = if j < w then m (src2 + (i + j)) else 0#8) :
    Tells (cmpneqMask 1 64 a b) (fun j => differsAt m src1 src2 (i + j)) w := by
  intro j hj
  have hone : (∃ t, t < 1 ∧ byte a (1 * j + t) ≠ byte b (1 * j + t)) ↔ byte a j ≠ byte b j := by
    simp
  unfold differsAt
  rw [getLsbD_cmpneqMask a b hj, bne_iff_ne, hone, ha j hj, hb j hj]
  -- a lane that is not read is zero in both registers
  by_cases hw : j < w <;> simp [hw]

/-- **What a mask of differences returns**: the first of them. -/
theorem returnAt_eq {p : ℕ → Bool} {i w : ℕ} {msk64 : BitVec 64} (hw : w ≤ 64)
    (h : Tells msk64 p w) :
    returnAt i msk64 = (Loop.search p w).map fun j => ((i + j) % 2 ^ 32, resultNotEqual) := by
  rw [h.search_eq hw, returnAt]
  split <;> rfl

/-- **One register of the loop**: what it returns is the first difference in its 64 bytes. -/
theorem compareBody_eq {m : Memory} {b1 b2 : Buffer} {src1 src2 i : ℕ}
    (h1 : ∀ j, j < 64 → b1 (i + j) = some (m (src1 + (i + j))))
    (h2 : ∀ j, j < 64 → b2 (i + j) = some (m (src2 + (i + j)))) :
    compareBody b1 b2 i
      = match Loop.search (fun j => differsAt m src1 src2 (i + j)) 64 with
        | some j => some (.error ((i + j) % 2 ^ 32, resultNotEqual))
        | none => some (.ok ((i + 64) % 2 ^ 32)) := by
  obtain ⟨a, hload1, ha⟩ := loadu_eq h1
  obtain ⟨b, hload2, hb⟩ := loadu_eq h2
  have htells : Tells (cmpneqMask 1 64 a b) (fun j => differsAt m src1 src2 (i + j)) 64 :=
    tells_cmpneqMask (fun j hj => by rw [ha j hj, if_pos hj]) fun j hj => by
      rw [hb j hj, if_pos hj]
  simp only [compareBody, hload1, hload2, Option.bind_eq_bind, Option.bind_some,
    returnAt_eq (Nat.le_refl 64) htells]
  cases Loop.search (fun j => differsAt m src1 src2 (i + j)) 64 <;> rfl

theorem compareBody_window {m : Memory} {src1 src2 n i : ℕ} (hi : i + 64 ≤ n) :
    compareBody (window m src1 n) (window m src2 n) i
      = match Loop.search (fun j => differsAt m src1 src2 (i + j)) 64 with
        | some j => some (.error ((i + j) % 2 ^ 32, resultNotEqual))
        | none => some (.ok ((i + 64) % 2 ^ 32)) :=
  compareBody_eq (fun _ _ => window_of_lt m src1 (by omega)) fun _ _ =>
    window_of_lt m src2 (by omega)

/-- **The bytes left**: the first difference among them, if there is one. -/
theorem compareTail_window {m : Memory} {src1 src2 n i : ℕ} (hi : i + n % 64 = n) :
    compareTail (window m src1 n) (window m src2 n) n i
      = match Loop.search (fun j => differsAt m src1 src2 (i + j)) (n % 64) with
        | some j => some ((i + j) % 2 ^ 32, resultNotEqual)
        | none => some (0, resultEqual) := by
  have htail : n % 64 < 64 := Nat.mod_lt n (by decide)
  have hmask := getLsbD_oneShiftSub htail
  have hread : ∀ j, ((1#64 <<< (n % 64)) - 1#64).getLsbD (j / 1) = true → i + j < n := by
    intro j hj
    rw [Nat.div_one, hmask, decide_eq_true_eq] at hj
    omega
  obtain ⟨a, hload1, ha⟩ := maskzLoadu_eq (w := 1) (b := window m src1 n) (a := i)
    fun j _ hj => window_of_lt m src1 (hread j hj)
  obtain ⟨b, hload2, hb⟩ := maskzLoadu_eq (w := 1) (b := window m src2 n) (a := i)
    fun j _ hj => window_of_lt m src2 (hread j hj)
  simp only [Nat.div_one, hmask, decide_eq_true_eq] at ha hb
  simp only [compareTail, hload1, hload2, Option.bind_eq_bind, Option.bind_some,
    returnAt_eq (Nat.le_of_lt htail) (tells_cmpneqMask ha hb)]
  cases Loop.search (fun j => differsAt m src1 src2 (i + j)) (n % 64) <;> rfl

/-! ### The whole kernel -/

/-- The size is below `0xFFFFFFC0`, or the buffers differ before that place. -/
def StopsBeforeWrap (m : Memory) (src1 src2 transferSize : ℕ) : Prop :=
  transferSize < 0xFFFFFFC0 ∨ ∃ i, i < 0xFFFFFFC0 ∧ differsAt m src1 src2 i = true

/-- The test of the loop does not wrap where the kernel stops before that. -/
theorem compareCond_eq {m : Memory} {src1 src2 n i : ℕ} (hstop : StopsBeforeWrap m src1 src2 n)
    (hI : Loop.MissedSoFar (differsAt m src1 src2) 64 n i) :
    compareCond n i = decide (i + 64 ≤ n) := by
  have hle := hI.le
  have hlt : i + 64 < 2 ^ 32 := by
    rcases hstop with hn | ⟨d, hd, hdiff⟩
    · omega
    · -- the loop has not passed the difference
      have hid : i ≤ d := by
        by_contra hpassed
        rw [hI.missed d (by omega)] at hdiff
        cases hdiff
      omega
  rw [compareCond, Nat.mod_eq_of_lt hlt]

/-- **The kernel where it stops before the wrap**: it reads nothing outside the buffers, ends,
and returns what the reference kernel returns. -/
theorem dmlAvx512Compare_window {m : Memory} {src1 src2 n fuel : ℕ} (hn : n < 2 ^ 32)
    (hstop : StopsBeforeWrap m src1 src2 n) (hfuel : n < fuel) :
    dmlAvx512Compare fuel (window m src1 n) (window m src2 n) n
      = some (dmlRefCompare m src1 src2 n) := by
  have hbody : ∀ i, 64 ∣ i → i + 64 ≤ n → compareBody (window m src1 n) (window m src2 n) i
      = match Loop.search (fun j => differsAt m src1 src2 (i + j)) 64 with
        | some j => some (.error ((i + j) % 2 ^ 32, resultNotEqual))
        | none => some (.ok (i + 64)) := by
    intro i _ hi
    rw [compareBody_window hi, Nat.mod_eq_of_lt (show i + 64 < 2 ^ 32 by omega)]
  have hloop := @Loop.whileUntil_searchBlocks _ _ (fun i => (i % 2 ^ 32, resultNotEqual)) _ _
    (by decide) _ _ (fun i hI => compareCond_eq hstop hI) hbody _ hfuel
  have hsplit : 64 * (n / 64) + n % 64 = n := Nat.div_add_mod n 64
  unfold dmlAvx512Compare dmlRefCompare
  rw [hloop]
  cases hhead : Loop.search (differsAt m src1 src2) (64 * (n / 64)) with
  | some i =>
    -- the registers hold the first difference
    rw [Loop.search_of_le hhead (Nat.mul_div_le n 64)]
    rfl
  | none =>
    have hsearch := Loop.search_add (Loop.search_eq_none.mp hhead) (n % 64)
    rw [hsplit] at hsearch
    rw [hsearch]
    simp only [Option.bind_eq_bind, Option.bind_some, compareTail_window hsplit]
    cases Loop.search (fun j => differsAt m src1 src2 (64 * (n / 64) + j)) (n % 64) <;> rfl

/-! ### Where the counter wraps -/

/-- The places the counter takes when nothing stops it. -/
def BeforeWrap (i : ℕ) : Prop := i % 64 = 0 ∧ i ≤ 0xFFFFFFC0

/-- The counter goes on through these places, and back to the first. -/
theorem BeforeWrap.next {i : ℕ} (h : BeforeWrap i) : BeforeWrap ((i + 64) % 2 ^ 32) := by
  obtain ⟨haligned, hle⟩ := h
  exact ⟨by omega, by omega⟩

/-- The test holds at every one of them, when the size is large enough for the sum to wrap. -/
theorem compareCond_of_beforeWrap {n i : ℕ} (hn : 0xFFFFFFC0 ≤ n) (h : BeforeWrap i) :
    compareCond n i = true := by
  obtain ⟨haligned, hle⟩ := h
  exact decide_eq_true (by omega)

/-- A kernel whose registers let it go on from every place of the counter has no result. -/
theorem dmlAvx512Compare_eq_none {b1 b2 : Buffer} {n : ℕ} (hn : 0xFFFFFFC0 ≤ n)
    (hstep : ∀ i e, BeforeWrap i → compareBody b1 b2 i = some e → ∃ t, e = .ok t ∧ BeforeWrap t)
    (fuel : ℕ) : dmlAvx512Compare fuel b1 b2 n = none := by
  have hnone := Loop.whileUntil_diverges BeforeWrap (fun i hI => compareCond_of_beforeWrap hn hI)
    hstep (show BeforeWrap 0 from ⟨rfl, Nat.zero_le _⟩) fuel
  unfold dmlAvx512Compare
  rw [hnone]
  rfl

/-- **No difference before the wrap**: whatever the fuel, the kernel has no result, since the
registers at `0xFFFFFFC0` lie past the buffers. -/
theorem dmlAvx512Compare_window_eq_none {m : Memory} {src1 src2 n : ℕ} (hn : n < 2 ^ 32)
    (hstop : ¬StopsBeforeWrap m src1 src2 n) (fuel : ℕ) :
    dmlAvx512Compare fuel (window m src1 n) (window m src2 n) n = none := by
  unfold StopsBeforeWrap at hstop
  push Not at hstop
  obtain ⟨hge, hequal⟩ := hstop
  refine dmlAvx512Compare_eq_none hge (fun i e hI hbody => ?_) fuel
  rcases Nat.lt_or_eq_of_le hI.2 with hlt | heq
  · -- a register before the wrap: equal
    have haligned := hI.1
    have hnone : Loop.search (fun j => differsAt m src1 src2 (i + j)) 64 = none := by
      refine Loop.search_eq_none.mpr fun j hj => ?_
      have hsame := hequal (i + j) (by omega)
      simpa using hsame
    rw [compareBody_window (by omega), hnone] at hbody
    cases hbody
    exact ⟨_, rfl, hI.next⟩
  · -- the register at the wrap: its last byte belongs to no buffer
    have hout : loadu (window m src1 n) i = none :=
      loadu_eq_none (i := 63) (by decide) (window_of_ge m src1 (by omega))
    rw [compareBody, hout] at hbody
    cases hbody

/-- **Where all the memory may be read** the loop goes round for ever, if the buffers are equal
up to the end of the registers it loads. -/
theorem dmlAvx512Compare_wholeMemory {m : Memory} {src1 src2 n : ℕ} (hn : 0xFFFFFFC0 ≤ n)
    (hequal : ∀ i, i < 2 ^ 32 → differsAt m src1 src2 i = false) (fuel : ℕ) :
    dmlAvx512Compare fuel (wholeMemory m src1) (wholeMemory m src2) n = none := by
  refine dmlAvx512Compare_eq_none hn (fun i e hI hbody => ?_) fuel
  have hnone : Loop.search (fun j => differsAt m src1 src2 (i + j)) 64 = none := by
    refine Loop.search_eq_none.mpr fun j hj => hequal _ ?_
    have hle := hI.2
    omega
  rw [@compareBody_eq m _ _ src1 src2 i (fun _ _ => rfl) fun _ _ => rfl, hnone] at hbody
  cases hbody
  exact ⟨_, rfl, hI.next⟩

/-! ### The vector kernel and the reference kernel -/

/-- What a comparison of `n` bytes answers: the first difference, or none. -/
def IsComparison (m : Memory) (src1 src2 n : ℕ) : ℕ × ℕ → Prop
  | (offset, result) =>
    (result = resultEqual ∧ offset = 0 ∧ ∀ i, i < n → m (src1 + i) = m (src2 + i)) ∨
      (result = resultNotEqual ∧ offset < n ∧ m (src1 + offset) ≠ m (src2 + offset) ∧
        ∀ i, i < offset → m (src1 + i) = m (src2 + i))

/-- The reference kernel answers so. -/
theorem dmlRefCompare_isComparison {m : Memory} {src1 src2 n : ℕ} (hn : n < 2 ^ 32) :
    IsComparison m src1 src2 n (dmlRefCompare m src1 src2 n) := by
  unfold dmlRefCompare
  cases hsearch : Loop.search (differsAt m src1 src2) n with
  | none =>
    have hequal := Loop.search_eq_none.mp hsearch
    simp only [differsAt, bne_eq_false_iff_eq] at hequal
    exact Or.inl ⟨rfl, rfl, hequal⟩
  | some i =>
    obtain ⟨hi, hdiff, hbefore⟩ := Loop.search_eq_some.mp hsearch
    simp only [differsAt, bne_iff_ne, bne_eq_false_iff_eq] at hdiff hbefore
    simp only [Nat.mod_eq_of_lt (Nat.lt_trans hi hn)]
    exact Or.inr ⟨rfl, hi, hdiff, hbefore⟩

/-- **The vector comparison is the reference comparison** below `0xFFFFFFC0`: both read nothing
outside their buffers and return the same offset and result. -/
theorem dmlAvx512Compare_refines (m : Memory) (src1 src2 : ℕ) {n : ℕ} (hn : n < 0xFFFFFFC0) :
    ∃ answer, (∀ fuel, n < fuel →
        dmlAvx512Compare fuel (window m src1 n) (window m src2 n) n = some answer) ∧
      boundedRefCompare (window m src1 n) (window m src2 n) n = some answer ∧
      IsComparison m src1 src2 n answer := by
  have hn32 : n < 2 ^ 32 := by omega
  refine ⟨dmlRefCompare m src1 src2 n, ?_, boundedRefCompare_window m src1 src2 n,
    dmlRefCompare_isComparison hn32⟩
  intro fuel hfuel
  exact dmlAvx512Compare_window hn32 (Or.inl hn) hfuel

theorem dmlAvx512Compare_refines_100 :
    ∃ answer, (∀ fuel, 100 < fuel → dmlAvx512Compare fuel
          (window (fun a => BitVec.ofNat 8 (a / 90)) 0 100)
          (window (fun a => BitVec.ofNat 8 (a / 90)) 200 100) 100 = some answer) ∧
      boundedRefCompare (window (fun a => BitVec.ofNat 8 (a / 90)) 0 100)
          (window (fun a => BitVec.ofNat 8 (a / 90)) 200 100) 100 = some answer ∧
      IsComparison (fun a => BitVec.ofNat 8 (a / 90)) 0 200 100 answer :=
  dmlAvx512Compare_refines _ 0 200 (by decide)

/-! ### Every accepted size -/

/-- A size `validate(compare)` accepts, in some descriptor. -/
def AcceptedSize (n : ℕ) : Prop :=
  ∃ m dsc, Validate.compare m dsc = .success ∧ AnyDescriptor.transferSize.get m dsc = n

/-- **The accepted sizes** are the nonzero sizes of 32 bits. -/
theorem acceptedSize_iff {n : ℕ} : AcceptedSize n ↔ 0 < n ∧ n < 2 ^ 32 := by
  constructor
  · rintro ⟨m, dsc, hvalid, hsize⟩
    have hlt : AnyDescriptor.transferSize.get m dsc < 2 ^ 32 := Field.get_lt _ _ _
    rw [Validate.compare] at hvalid
    simp (disch := decide) only [ite_eq_success_iff, anyEqualZero_one] at hvalid
    omega
  · rintro ⟨hpos, hlt⟩
    have hsize : AnyDescriptor.transferSize.get (rawDescriptor .compare 0 64 1 1 n) 0 = n := by
      rw [rawDescriptor]
      exact Field.get_set_self_of_lt _ _ hlt
    have hsource : AnyDescriptor.sourceAddress.get (rawDescriptor .compare 0 64 1 1 n) 0 = 1 := by
      simp (disch := decide) only [rawDescriptor, Field.get_set_of_apart, Field.get_set_self]
      rfl
    have hdestination :
        AnyDescriptor.destinationAddress.get (rawDescriptor .compare 0 64 1 1 n) 0 = 1 := by
      simp (disch := decide) only [rawDescriptor, Field.get_set_of_apart, Field.get_set_self]
      rfl
    refine ⟨_, 0, ?_, hsize⟩
    rw [Validate.compare]
    simp (disch := decide) only [ite_eq_success_iff, anyEqualZero_one, anyEqualZero_pair, hsize,
      hsource, hdestination]
    exact ⟨by decide, Nat.ne_of_gt hpos, trivial⟩

/-- **The vector comparison over every accepted size**: the loop ends, within its buffers,
exactly when it stops before the wrap. -/
theorem dmlAvx512Compare_total_iff (m : Memory) (src1 src2 : ℕ) {n : ℕ} (hn : AcceptedSize n) :
    (∃ fuel answer, dmlAvx512Compare fuel (window m src1 n) (window m src2 n) n = some answer)
      ↔ n < 0xFFFFFFC0 ∨ ∃ i, i < 0xFFFFFFC0 ∧ m (src1 + i) ≠ m (src2 + i) := by
  have hn32 := (acceptedSize_iff.mp hn).2
  have hstops : StopsBeforeWrap m src1 src2 n
      ↔ n < 0xFFFFFFC0 ∨ ∃ i, i < 0xFFFFFFC0 ∧ m (src1 + i) ≠ m (src2 + i) := by
    simp only [StopsBeforeWrap, differsAt, bne_iff_ne]
  rw [← hstops]
  constructor
  · rintro ⟨fuel, answer, hrun⟩
    by_contra hstop
    rw [dmlAvx512Compare_window_eq_none hn32 hstop fuel] at hrun
    cases hrun
  · intro hstop
    exact ⟨n + 1, _, dmlAvx512Compare_window hn32 hstop (Nat.lt_succ_self n)⟩

theorem dmlAvx512Compare_total_iff_64 :
    (∃ fuel answer, dmlAvx512Compare fuel (window (fun _ => 0) 0 64) (window (fun _ => 0) 64 64) 64
        = some answer)
      ↔ 64 < 0xFFFFFFC0 ∨ ∃ i, i < 0xFFFFFFC0 ∧ (fun _ => 0 : Memory) (0 + i) ≠ 0 :=
  dmlAvx512Compare_total_iff (fun _ => 0) 0 64 (acceptedSize_iff.mpr (by decide))

/-- Two buffers of `2 ^ 32 - 1` equal bytes are accepted, and the loop leaves them; were all the
memory readable, it would not end. -/
theorem dmlAvx512Compare_wraps :
    AcceptedSize 0xFFFFFFFF ∧ ∀ fuel,
      dmlAvx512Compare fuel (window (fun _ => 0) 64 0xFFFFFFFF)
          (window (fun _ => 0) 0x200000000 0xFFFFFFFF) 0xFFFFFFFF = none ∧
        dmlAvx512Compare fuel (wholeMemory (fun _ => 0) 64)
          (wholeMemory (fun _ => 0) 0x200000000) 0xFFFFFFFF = none := by
  have hequal : ∀ i, differsAt (fun _ => 0) 64 0x200000000 i = false := fun i => rfl
  have hstop : ¬StopsBeforeWrap (fun _ => 0) 64 0x200000000 0xFFFFFFFF := by
    rintro (hlt | ⟨i, -, hdiff⟩)
    · omega
    · rw [hequal i] at hdiff
      cases hdiff
  refine ⟨acceptedSize_iff.mpr (by decide), fun fuel => ⟨?_, ?_⟩⟩
  · exact dmlAvx512Compare_window_eq_none (by decide) hstop fuel
  · exact dmlAvx512Compare_wholeMemory (by decide) (fun i _ => hequal i) fuel

end DataMover
