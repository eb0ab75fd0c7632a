import DataMover.Lib.Loop
import DataMover.Lib.Simd

/-!
# Masks, and loads that may fault

The comparisons of vector registers answer with a mask, one bit for each lane, and a loop over
memory asks such a mask for its lowest set bit.  The loads here read memory of which some bytes
may not be read: a load under a mask touches the lanes of its mask and no others, and has no
result when one of their bytes may not be read.

## Main definitions

* `Buffer`, `window`, `wholeMemory` — memory from a pointer on.
* `maskzLoadu`, `loadu` — loads of 64 bytes, under a mask of lanes and without one.
* `cmpneqMask` — the lanes in which two registers differ.
* `tzcnt` — the lowest set bit.

## Main results

* `maskzLoadu_eq`, `maskzLoadu_eq_none` — what a load reads, and when it faults.
* `Tells.search_eq` — the lowest set bit of a mask is the first lane it tells of.
-/

namespace Simd

open ByteMemory

/-! ### Memory that may not be read everywhere -/

/-- The bytes from a pointer on; a byte that may not be read has no value. -/
abbrev Buffer := ℕ → Option (BitVec 8)

/-- The `n` bytes from `a` on.  No other byte may be read. -/
def window (m : Memory) (a n : ℕ) : Buffer := fun i => if i < n then some (m (a + i)) else none

/-- The bytes from `a` on, all of which may be read. -/
def wholeMemory (m : Memory) (a : ℕ) : Buffer := fun i => some (m (a + i))

theorem window_of_lt (m : Memory) (a : ℕ) {n i : ℕ} (h : i < n) :
    window m a n i = some (m (a + i)) := if_pos h

theorem window_of_ge (m : Memory) (a : ℕ) {n i : ℕ} (h : n ≤ i) : window m a n i = none :=
  if_neg (Nat.not_lt.mpr h)

/-! ### Masks -/

/-- The mask of `k` bits whose bit `i` is `p i`. -/
def ofBits (k : ℕ) (p : ℕ → Bool) : BitVec k :=
  (BitVec.iunfoldr (fun i (s : Unit) => (s, p i)) ()).2

theorem getLsbD_ofBits {k i : ℕ} (p : ℕ → Bool) (hi : i < k) : (ofBits k p).getLsbD i = p i :=
  BitVec.iunfoldr_getLsbD (fun _ => ()) ⟨i, hi⟩ fun _ => rfl

/-- Lane `i` of a register whose lanes have `w` bytes. -/
def lane (w : ℕ) {n : ℕ} (v : BitVec n) (i : ℕ) : BitVec (8 * w) :=
  v.extractLsb' (8 * (w * i)) (8 * w)

/-- `_mm512_cmp_epi8_mask` and `_mm512_cmp_epi64_mask` with `_MM_CMPINT_NE`, by the bytes of a
lane: the lanes in which two registers differ. -/
def cmpneqMask (w k : ℕ) (a b : BitVec 512) : BitVec k := ofBits k fun i => lane w a i != lane w b i

/-- `_tzcnt_u64` and `_tzcnt_u32`: the number of zeros below the lowest set bit. -/
def tzcnt {k : ℕ} (v : BitVec k) : ℕ := v.ctz.toNat

/-- **Two lanes are equal** when their bytes are. -/
theorem lane_eq_iff {w n : ℕ} {a b : BitVec n} {i : ℕ} :
    lane w a i = lane w b i ↔ ∀ t, t < w → byte a (w * i + t) = byte b (w * i + t) := by
  have hbit : ∀ (v : BitVec n) (t j : ℕ), t < w → j < 8 →
      (lane w v i).getLsbD (8 * t + j) = (byte v (w * i + t)).getLsbD j := by
    intro v t j ht hj
    rw [lane, BitVec.getLsbD_extractLsb', getLsbD_byte,
      show 8 * (w * i) + (8 * t + j) = 8 * (w * i + t) + j by ring]
    simp [hj, show 8 * t + j < 8 * w by omega]
  constructor
  · intro h t ht
    apply BitVec.eq_of_getLsbD_eq
    intro j hj
    rw [← hbit a t j ht hj, ← hbit b t j ht hj, h]
  · intro h
    apply BitVec.eq_of_getLsbD_eq
    intro j hj
    have ht : j / 8 < w := by omega
    have hmod : j % 8 < 8 := Nat.mod_lt j (by decide)
    rw [← Nat.div_add_mod j 8, hbit a _ _ ht hmod, hbit b _ _ ht hmod, h _ ht]

/-- **The lanes in which two registers differ**, byte by byte. -/
theorem getLsbD_cmpneqMask {w k i : ℕ} (a b : BitVec 512) (hi : i < k) :
    (cmpneqMask w k a b).getLsbD i = true ↔
      ∃ t, t < w ∧ byte a (w * i + t) ≠ byte b (w * i + t) := by
  rw [cmpneqMask, getLsbD_ofBits _ hi, bne_iff_ne, ne_eq, lane_eq_iff]
  simp only [not_forall, exists_prop, ne_eq]

/-- **The lowest set bit.** -/
theorem tzcnt_spec {k : ℕ} {v : BitVec k} (hv : v ≠ 0#k) :
    tzcnt v < k ∧ v.getLsbD (tzcnt v) = true ∧ ∀ i, i < tzcnt v → v.getLsbD i = false := by
  have hset : v.getLsbD (tzcnt v) = true := BitVec.getLsbD_true_ctz_of_ne_zero hv
  refine ⟨?_, hset, fun i hi => BitVec.getLsbD_false_of_lt_ctz hi⟩
  by_contra hge
  rw [BitVec.getLsbD_of_ge v _ (by omega)] at hset
  cases hset

/-- Only one bit is set with none set below it. -/
theorem tzcnt_eq {k i : ℕ} {v : BitVec k} (hset : v.getLsbD i = true)
    (hbelow : ∀ j, j < i → v.getLsbD j = false) : tzcnt v = i := by
  have hv : v ≠ 0#k := by
    intro hzero
    rw [hzero, BitVec.getLsbD_zero] at hset
    cases hset
  obtain ⟨-, hset', hbelow'⟩ := tzcnt_spec hv
  rcases Nat.lt_trichotomy (tzcnt v) i with hlt | heq | hgt
  · rw [hbelow _ hlt] at hset'
    cases hset'
  · exact heq
  · rw [hbelow' _ hgt] at hset
    cases hset

/-- A mask in a wider register. -/
theorem tzcnt_setWidth {k n : ℕ} {v : BitVec k} (hkn : k ≤ n) (hv : v ≠ 0#k) :
    tzcnt (v.setWidth n) = tzcnt v := by
  obtain ⟨hlt, hset, hbelow⟩ := tzcnt_spec hv
  refine tzcnt_eq ?_ fun j hj => ?_
  · rw [BitVec.getLsbD_setWidth, hset, decide_eq_true (by omega), Bool.true_and]
  · rw [BitVec.getLsbD_setWidth, hbelow j hj, Bool.and_false]

/-- A mask that tells which of the first `w` places satisfy `p`. -/
def Tells {k : ℕ} (v : BitVec k) (p : ℕ → Bool) (w : ℕ) : Prop :=
  ∀ i, i < k → (v.getLsbD i = true ↔ i < w ∧ p i = true)

/-- **A mask and a search**: the lowest set bit is the first place. -/
theorem Tells.search_eq {k w : ℕ} {v : BitVec k} {p : ℕ → Bool} (hw : w ≤ k) (h : Tells v p w) :
    Loop.search p w = if v ≠ 0#k then some (tzcnt v) else none := by
  by_cases hzero : v = 0#k
  · rw [if_neg (not_not_intro hzero), Loop.search_eq_none]
    intro i hi
    have hbit := h i (by omega)
    rw [hzero, BitVec.getLsbD_zero] at hbit
    simpa [hi] using hbit
  · obtain ⟨hlt, hset, hbelow⟩ := tzcnt_spec hzero
    obtain ⟨hw', hp⟩ := (h _ hlt).mp hset
    rw [if_pos hzero, Loop.search_eq_some]
    refine ⟨hw', hp, fun i hi => ?_⟩
    have hbit := h i (by omega)
    rw [hbelow i hi] at hbit
    simpa [show i < w by omega] using hbit

/-- A mask of low bits. -/
theorem getLsbD_oneShiftSub {k t : ℕ} (ht : t < k) (i : ℕ) :
    ((1#k <<< t) - 1#k).getLsbD i = decide (i < t) := by
  have hpow : 2 ^ t < 2 ^ k := Nat.pow_lt_pow_right (by decide) ht
  have hpos : 0 < 2 ^ t := Nat.two_pow_pos t
  have hone : 1 < 2 ^ k := by omega
  have hval : ((1#k <<< t) - 1#k).toNat = 2 ^ t - 1 := by
    rw [BitVec.toNat_sub, BitVec.toNat_shiftLeft, BitVec.toNat_ofNat, Nat.mod_eq_of_lt hone,
      Nat.shiftLeft_eq, one_mul, Nat.mod_eq_of_lt hpow,
      show 2 ^ k - 1 + 2 ^ t = 2 ^ t - 1 + 2 ^ k by omega, Nat.add_mod_right,
      Nat.mod_eq_of_lt (by omega)]
  rw [← BitVec.testBit_toNat, hval, Nat.testBit_two_pow_sub_one]

/-! ### Loads -/

/-- Every byte of the selected lanes may be read. -/
def laneReadable (w : ℕ) {k : ℕ} (mask : BitVec k) (b : Buffer) (a : ℕ) : Bool :=
  (List.range 64).all fun i => !mask.getLsbD (i / w) || (b (a + i)).isSome

/-- `_mm512_maskz_loadu_epi8` and `_mm512_maskz_loadu_epi64`, by the bytes of a lane: the
selected lanes are read, the others are zero. -/
def maskzLoadu (w : ℕ) {k : ℕ} (mask : BitVec k) (b : Buffer) (a : ℕ) : Option (BitVec 512) :=
  if laneReadable w mask b a then
    some (ofBytes 512 fun i => if mask.getLsbD (i / w) then (b (a + i)).getD 0#8 else 0#8)
  else none

/-- `_mm512_loadu_si512`: every byte is read. -/
def loadu (b : Buffer) (a : ℕ) : Option (BitVec 512) := maskzLoadu 1 (BitVec.allOnes 64) b a

theorem laneReadable_eq_true {w k : ℕ} {mask : BitVec k} {b : Buffer} {a : ℕ} :
    laneReadable w mask b a = true ↔
      ∀ i, i < 64 → mask.getLsbD (i / w) = true → (b (a + i)).isSome = true := by
  simp only [laneReadable, List.all_eq_true, List.mem_range, Bool.or_eq_true, Bool.not_eq_true']
  refine forall₂_congr fun i _ => ?_
  cases mask.getLsbD (i / w) <;> simp

/-- **What a load under a mask reads.** -/
theorem maskzLoadu_eq {w k : ℕ} {mask : BitVec k} {b : Buffer} {a : ℕ} {f : ℕ → BitVec 8}
    (h : ∀ i, i < 64 → mask.getLsbD (i / w) = true → b (a + i) = some (f i)) :
    ∃ v, maskzLoadu w mask b a = some v ∧
      ∀ i, i < 64 → byte v i = if mask.getLsbD (i / w) then f i else 0#8 := by
  have hread : laneReadable w mask b a = true :=
    laneReadable_eq_true.mpr fun i hi hmask => by rw [h i hi hmask]; rfl
  refine ⟨_, if_pos hread, fun i hi => ?_⟩
  rw [byte_ofBytes _ (by omega)]
  cases hmask : mask.getLsbD (i / w) with
  | false => rfl
  | true => rw [h i hi hmask]; rfl

/-- A load faults when a selected byte may not be read. -/
theorem maskzLoadu_eq_none {w k i : ℕ} {mask : BitVec k} {b : Buffer} {a : ℕ} (hi : i < 64)
    (hmask : mask.getLsbD (i / w) = true) (hb : b (a + i) = none) :
    maskzLoadu w mask b a = none := by
  refine if_neg fun hread => ?_
  have hsome := laneReadable_eq_true.mp hread i hi hmask
  rw [hb] at hsome
  cases hsome

/-- **What a load of all lanes reads.** -/
theorem loadu_eq {b : Buffer} {a : ℕ} {f : ℕ → BitVec 8}
    (h : ∀ i, i < 64 → b (a + i) = some (f i)) :
    ∃ v, loadu b a = some v ∧ ∀ i, i < 64 → byte v i = f i := by
  obtain ⟨v, hload, hbyte⟩ : ∃ v, loadu b a = some v ∧
      ∀ i, i < 64 → byte v i = if (BitVec.allOnes 64).getLsbD (i / 1) then f i else 0#8 :=
    maskzLoadu_eq fun i hi _ => h i hi
  refine ⟨v, hload, fun i hi => ?_⟩
  rw [hbyte i hi, Nat.div_one, BitVec.getLsbD_allOnes, decide_eq_true hi, if_pos rfl]

theorem loadu_eq_none {b : Buffer} {a i : ℕ} (hi : i < 64) (hb : b (a + i) = none) :
    loadu b a = none := by
  refine maskzLoadu_eq_none hi ?_ hb
  rw [Nat.div_one, BitVec.getLsbD_allOnes]
  exact decide_eq_true hi

end Simd
