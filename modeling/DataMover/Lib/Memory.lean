import Mathlib.Data.Nat.Notation
import Mathlib.Data.Set.Function
import Mathlib.Order.Interval.Set.Basic
import Mathlib.Tactic.Common
import Mathlib.Tactic.Ring

/-!
# Byte-addressed memory

One flat memory of bytes, little-endian loads and stores of any width, and the
block move.  Addresses are natural numbers: the pointer arithmetic of a real
object never wraps, so an address plus an offset inside the object is just their
sum.

## Main definitions

* `Memory`, `Region` — the bytes, and a base address with a size.
* `Region.Apart` — two regions share no address; it is decidable.
* `load`, `store` — little-endian access to `w` bytes.
* `move` — the meaning of a block move: the destination bytes are the source
  bytes *of the memory before the move*, whatever the overlap.

## Main results

* `load_store_self`, `load_store_of_apart` — reading back, and framing.
* `load_eq_iff` — a load is determined by its bytes.
* `move_forward`, `move_backward` — a move made in two parts, first part first
  or last part first, is the whole move when no unread source byte is
  overwritten by the part made first.
* `store_move` — a move made block by block.
-/

namespace ByteMemory

/-- A memory: a byte at every address. -/
abbrev Memory := ℕ → BitVec 8

/-- `size` bytes from `base` on. -/
structure Region where
  base : ℕ
  size : ℕ
  deriving DecidableEq, Repr

namespace Region

/-- The addresses of a region. -/
def addrs (R : Region) : Set ℕ := Set.Ico R.base (R.base + R.size)

/-- Two regions share no address. -/
def Apart (A B : Region) : Prop :=
  A.size = 0 ∨ B.size = 0 ∨ A.base + A.size ≤ B.base ∨ B.base + B.size ≤ A.base

instance (A B : Region) : Decidable (A.Apart B) := inferInstanceAs (Decidable (_ ∨ _))

theorem mem_addrs {R : Region} {x : ℕ} : x ∈ R.addrs ↔ R.base ≤ x ∧ x < R.base + R.size :=
  Iff.rfl

theorem add_mem_addrs {a n i : ℕ} (hi : i < n) : a + i ∈ Region.addrs ⟨a, n⟩ :=
  mem_addrs.mpr ⟨Nat.le_add_right a i, Nat.add_lt_add_left hi a⟩

theorem Apart.symm {A B : Region} (h : A.Apart B) : B.Apart A := by
  unfold Apart at *; omega

/-- An address of the first region is outside the second. -/
theorem Apart.notMem {A B : Region} (h : A.Apart B) {x : ℕ} (hx : x ∈ A.addrs) :
    x ∉ B.addrs := by
  rw [mem_addrs] at *
  unfold Apart at h
  omega

/-- A region that is part of another. -/
def Inside (A B : Region) : Prop := B.base ≤ A.base ∧ A.base + A.size ≤ B.base + B.size

theorem Inside.refl (A : Region) : A.Inside A := ⟨le_rfl, le_rfl⟩

/-- Parts of apart regions are apart. -/
theorem Apart.mono {A B A' B' : Region} (h : A.Apart B) (hA : A'.Inside A) (hB : B'.Inside B) :
    A'.Apart B' := by
  unfold Inside at *
  unfold Apart at *
  omega

end Region

/-! ### Loads and stores -/

/-- The little-endian value of the `w` bytes from `a` on. -/
def load (m : Memory) (a : ℕ) : ℕ → ℕ
  | 0 => 0
  | w + 1 => load m a w + 2 ^ (8 * w) * (m (a + w)).toNat

/-- Byte `i` of the little-endian representation of `v`. -/
def byteAt (v i : ℕ) : BitVec 8 := BitVec.ofNat 8 (v / 2 ^ (8 * i))

/-- Write the low `w` bytes of `v`, little-endian, from `a` on. -/
def store (m : Memory) (a w v : ℕ) : Memory := fun x =>
  if a ≤ x ∧ x < a + w then byteAt v (x - a) else m x

theorem load_succ (m : Memory) (a w : ℕ) :
    load m a (w + 1) = load m a w + 2 ^ (8 * w) * (m (a + w)).toNat := rfl

theorem load_lt (m : Memory) (a w : ℕ) : load m a w < 2 ^ (8 * w) := by
  induction w with
  | zero => simp [load]
  | succ w ih =>
    have hb : (m (a + w)).toNat < 256 := (m (a + w)).isLt
    have hpow : 2 ^ (8 * (w + 1)) = 2 ^ (8 * w) * 256 := by rw [Nat.mul_add, Nat.pow_add]
    calc load m a (w + 1) < 2 ^ (8 * w) + 2 ^ (8 * w) * (m (a + w)).toNat := by
          rw [load_succ]; omega
      _ = 2 ^ (8 * w) * ((m (a + w)).toNat + 1) := by ring
      _ ≤ 2 ^ (8 * w) * 256 := Nat.mul_le_mul_left _ hb
      _ = 2 ^ (8 * (w + 1)) := hpow.symm

/-- Loads of equal bytes are equal. -/
theorem load_congr {m m' : Memory} {a a' w : ℕ} (h : ∀ i, i < w → m (a + i) = m' (a' + i)) :
    load m a w = load m' a' w := by
  induction w with
  | zero => rfl
  | succ w ih => rw [load_succ, load_succ, ih fun i hi => h i (by omega), h w (by omega)]

theorem load_eq_of_eqOn {m m' : Memory} {R : Region} (h : Set.EqOn m m' R.addrs) {a w : ℕ}
    (hlo : R.base ≤ a) (hhi : a + w ≤ R.base + R.size) : load m a w = load m' a w :=
  load_congr fun i _ => h (Region.mem_addrs.mpr ⟨by omega, by omega⟩)

theorem store_apply (m : Memory) (a w v x : ℕ) :
    store m a w v x = if a ≤ x ∧ x < a + w then byteAt v (x - a) else m x := rfl

theorem store_apply_of_notMem {m : Memory} {a w v x : ℕ} (h : x < a ∨ a + w ≤ x) :
    store m a w v x = m x := by
  rw [store_apply, if_neg (by omega)]

theorem store_apply_of_lt {m : Memory} {a w v i : ℕ} (h : i < w) :
    store m a w v (a + i) = byteAt v i := by
  rw [store_apply, if_pos (by omega), Nat.add_sub_cancel_left]

/-- A store changes its own bytes only. -/
theorem store_eqOn (m : Memory) {a w v : ℕ} {R : Region} (h : Region.Apart ⟨a, w⟩ R) :
    Set.EqOn (store m a w v) m R.addrs := by
  intro x hx
  apply store_apply_of_notMem
  have := h.symm.notMem hx
  rw [Region.mem_addrs] at this
  simp only at this
  omega

/-- Reading `j` of the `w` bytes stored gives the stored value modulo `2 ^ 8j`. -/
theorem load_store_le (m : Memory) (a v : ℕ) {j w : ℕ} (hj : j ≤ w) :
    load (store m a w v) a j = v % 2 ^ (8 * j) := by
  induction j with
  | zero => simp [load, Nat.mod_one]
  | succ j ih =>
    rw [load_succ, ih (by omega), store_apply_of_lt (by omega), byteAt, BitVec.toNat_ofNat,
      Nat.mul_add, Nat.pow_add, Nat.mod_mul]

/-- **Reading back a store.** -/
@[simp] theorem load_store_self (m : Memory) (a w v : ℕ) :
    load (store m a w v) a w = v % 2 ^ (8 * w) :=
  load_store_le m a v le_rfl

/-- **A store elsewhere is not seen.** -/
theorem load_store_of_apart {m : Memory} {a w b u v : ℕ} (h : Region.Apart ⟨b, u⟩ ⟨a, w⟩) :
    load (store m b u v) a w = load m a w :=
  load_eq_of_eqOn (store_eqOn m h) le_rfl le_rfl

/-- The bytes of a load. -/
theorem byteAt_load (m : Memory) (a : ℕ) {i w : ℕ} (hi : i < w) :
    byteAt (load m a w) i = m (a + i) := by
  induction w with
  | zero => omega
  | succ w ih =>
    rw [load_succ, byteAt]
    rcases Nat.lt_or_ge i w with h | h
    · -- a higher byte adds a multiple of `256` above byte `i`
      rw [← ih h, byteAt]
      have hsplit : 2 ^ (8 * w) * (m (a + w)).toNat
          = 2 ^ (8 * i) * (2 ^ (8 * (w - i - 1)) * (m (a + w)).toNat * 256) := by
        have hpow : 2 ^ (8 * w) = 2 ^ (8 * i) * (2 ^ (8 * (w - i - 1)) * 2 ^ 8) := by
          rw [← Nat.pow_add, ← Nat.pow_add]
          congr 1; omega
        rw [hpow]; ring
      rw [hsplit, Nat.add_mul_div_left _ _ (Nat.two_pow_pos _)]
      apply BitVec.eq_of_toNat_eq
      rw [BitVec.toNat_ofNat, BitVec.toNat_ofNat]
      exact Nat.add_mul_mod_self_right _ _ 256
    · have hiw : i = w := by omega
      subst hiw
      rw [Nat.add_mul_div_left _ _ (Nat.two_pow_pos _), Nat.div_eq_of_lt (load_lt m a i),
        Nat.zero_add, BitVec.ofNat_toNat, BitVec.setWidth_eq]

/-- **A load is determined by its bytes.** -/
theorem load_eq_iff {m : Memory} {a w v : ℕ} (hv : v < 2 ^ (8 * w)) :
    load m a w = v ↔ ∀ i, i < w → m (a + i) = byteAt v i := by
  constructor
  · rintro rfl i hi
    exact (byteAt_load m a hi).symm
  · intro h
    calc load m a w = load (store m a w v) a w :=
          load_congr fun i hi => by rw [h i hi, store_apply_of_lt hi]
      _ = v := by rw [load_store_self, Nat.mod_eq_of_lt hv]

/-! ### Block moves -/

/-- The block move: `n` bytes from `src` arrive at `dst`, all read from the
memory before the move. -/
def move (m : Memory) (src dst n : ℕ) : Memory := fun x =>
  if dst ≤ x ∧ x < dst + n then m (src + (x - dst)) else m x

theorem move_apply (m : Memory) (src dst n x : ℕ) :
    move m src dst n x = if dst ≤ x ∧ x < dst + n then m (src + (x - dst)) else m x := rfl

theorem move_apply_of_lt {m : Memory} {src dst n i : ℕ} (h : i < n) :
    move m src dst n (dst + i) = m (src + i) := by
  rw [move_apply, if_pos (by omega), Nat.add_sub_cancel_left]

theorem move_apply_of_notMem {m : Memory} {src dst n x : ℕ} (h : x < dst ∨ dst + n ≤ x) :
    move m src dst n x = m x := by
  rw [move_apply, if_neg (by omega)]

@[simp] theorem move_zero (m : Memory) (src dst : ℕ) : move m src dst 0 = m := by
  funext x
  exact move_apply_of_notMem (by omega)

@[simp] theorem move_self (m : Memory) (a n : ℕ) : move m a a n = m := by
  funext x
  rw [move_apply]
  split
  · congr 1; omega
  · rfl

/-- A move of one byte. -/
theorem move_one (m : Memory) (src dst : ℕ) :
    move m src dst 1 = Function.update m dst (m src) := by
  funext x
  rw [move_apply, Function.update_apply]
  by_cases h : x = dst
  · rw [if_pos (by omega), if_pos h, h, Nat.sub_self, Nat.add_zero]
  · rw [if_neg (by omega), if_neg h]

/-- Copying ascending addresses overwrites no source byte still to be read. -/
def ForwardSafe (src dst n : ℕ) : Prop := dst ≤ src ∨ src + n ≤ dst

/-- Copying descending addresses overwrites no source byte still to be read. -/
def BackwardSafe (src dst n : ℕ) : Prop := src ≤ dst ∨ dst + n ≤ src

instance (src dst n : ℕ) : Decidable (ForwardSafe src dst n) := inferInstanceAs (Decidable (_ ∨ _))

instance (src dst n : ℕ) : Decidable (BackwardSafe src dst n) := inferInstanceAs (Decidable (_ ∨ _))

/-- **First part first.**  Moving the first `k` bytes and then the rest is the
whole move when ascending copying is safe. -/
theorem move_forward (m : Memory) {src dst k n : ℕ} (h : ForwardSafe src dst (k + n)) :
    move (move m src dst k) (src + k) (dst + k) n = move m src dst (k + n) := by
  unfold ForwardSafe at h
  funext x
  rw [move_apply, move_apply m src dst (k + n)]
  split
  · next hx =>
    rw [if_pos (by omega), move_apply_of_notMem (by omega)]
    congr 1; omega
  · next hx =>
    rw [move_apply]
    split
    · rw [if_pos (by omega)]
    · rw [if_neg (by omega)]

/-- **Last part first.**  Moving the last `k` bytes and then the first `n` is the
whole move when descending copying is safe. -/
theorem move_backward (m : Memory) {src dst k n : ℕ} (h : BackwardSafe src dst (n + k)) :
    move (move m (src + n) (dst + n) k) src dst n = move m src dst (n + k) := by
  unfold BackwardSafe at h
  funext x
  rw [move_apply, move_apply m src dst (n + k)]
  split
  · next hx => rw [if_pos (by omega), move_apply_of_notMem (by omega)]
  · next hx =>
    rw [move_apply]
    split
    · rw [if_pos (by omega)]
      congr 1; omega
    · rw [if_neg (by omega)]

/-- **The next part of a move.**  Storing the source bytes of the memory before the move
after the `k` bytes already moved, however they were obtained. -/
theorem store_move {m : Memory} {src dst k w v : ℕ}
    (hv : ∀ i, i < w → byteAt v i = m (src + k + i)) :
    store (move m src dst k) (dst + k) w v = move m src dst (k + w) := by
  funext x
  rw [store_apply, move_apply, move_apply]
  by_cases hw : dst + k ≤ x ∧ x < dst + k + w
  · rw [if_pos hw, if_pos (by omega), hv _ (by omega)]
    congr 1; omega
  · rw [if_neg hw]
    by_cases hk : dst ≤ x ∧ x < dst + k
    · rw [if_pos hk, if_pos (by omega)]
    · rw [if_neg hk, if_neg (by omega)]

/-- A source that the move does not write is still there afterwards. -/
theorem move_apply_source {m : Memory} {src dst n k i : ℕ}
    (h : Region.Apart ⟨src, n⟩ ⟨dst, n⟩) (hk : k ≤ n) (hi : i < n) :
    move m src dst k (src + i) = m (src + i) := by
  simp only [Region.Apart] at h
  exact move_apply_of_notMem (by omega)

/-- Moves of memories that agree on the source and at an address agree there. -/
theorem move_congr {m m' : Memory} {src dst n x : ℕ}
    (hsrc : ∀ i, i < n → m (src + i) = m' (src + i)) (hx : m x = m' x) :
    move m src dst n x = move m' src dst n x := by
  rw [move_apply, move_apply]
  split
  · exact hsrc _ (by omega)
  · exact hx

end ByteMemory
