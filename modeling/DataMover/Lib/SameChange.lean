import DataMover.Lib.Blocks
import DataMover.Lib.Field

/-!
# What a computation reads

A computation over a memory reads a part of it and writes a part of it.  What it
reads can be said without a syntax of computations, by running it twice: from two
memories that agree on what is read, every byte ends with the same value in both
runs, or stays as it was in both.  `SameChange` is that relation between the two
runs.

The relation composes along a run, a write of the same value to the same place
keeps it, and bytes that agreed before the two runs agree after them.

## Main results

* `SameChange.trans`, `SameChange.iter` — runs in sequence and loops.
* `SameChange.eqOn` — agreement is kept.
-/

namespace ByteMemory

/-- The runs from `t` to `u` and from `t'` to `u'` make the same change: a byte ends
with one value in both, or is left alone by both. -/
def SameChange (t t' u u' : Memory) : Prop := ∀ x, u x = u' x ∨ u x = t x ∧ u' x = t' x

namespace SameChange

variable {t t' u u' v v' : Memory}

theorem refl (t t' : Memory) : SameChange t t' t t' := fun _ => Or.inr ⟨rfl, rfl⟩

/-- **One run after another.** -/
theorem trans (h : SameChange t t' u u') (h' : SameChange u u' v v') : SameChange t t' v v' := by
  intro x
  rcases h' x with hsame | ⟨hv, hv'⟩
  · exact Or.inl hsame
  · rw [hv, hv']
    exact h x

/-- A byte on which the memories agreed is one on which they still agree. -/
theorem apply_eq (h : SameChange t t' u u') {x : ℕ} (hx : t x = t' x) : u x = u' x := by
  rcases h x with hsame | ⟨hu, hu'⟩
  · exact hsame
  · rw [hu, hu', hx]

/-- **Agreement is kept.** -/
theorem eqOn (h : SameChange t t' u u') {A : Set ℕ} (hA : Set.EqOn t t' A) : Set.EqOn u u' A :=
  fun _ hx => h.apply_eq (hA hx)

/-! ### Writes -/

theorem update (h : SameChange t t' u u') (a : ℕ) {b b' : BitVec 8} (hb : b = b') :
    SameChange t t' (Function.update u a b) (Function.update u' a b') := by
  intro x
  rw [hb, Function.update_apply, Function.update_apply]
  split
  · exact Or.inl rfl
  · exact h x

theorem store (h : SameChange t t' u u') (a w : ℕ) {n n' : ℕ} (hn : n = n') :
    SameChange t t' (store u a w n) (store u' a w n') := by
  intro x
  rw [hn, store_apply, store_apply]
  split
  · exact Or.inl rfl
  · exact h x

theorem set (h : SameChange t t' u u') (f : Field) (base : ℕ) {n n' : ℕ} (hn : n = n') :
    SameChange t t' (f.set u base n) (f.set u' base n') :=
  h.store _ _ hn

theorem move (h : SameChange t t' u u') {src dst n : ℕ}
    (hread : ∀ i, i < n → u (src + i) = u' (src + i)) :
    SameChange t t' (move u src dst n) (move u' src dst n) := by
  intro x
  rw [move_apply, move_apply]
  split
  · exact Or.inl (hread _ (by omega))
  · exact h x

theorem writeBlock (h : SameChange t t' u u') {a d : ℕ} {out out' : ℕ → BitVec 8}
    (hout : ∀ i, i < d → out i = out' i) :
    SameChange t t' (writeBlock u a d out) (writeBlock u' a d out') := by
  intro x
  simp only [ByteMemory.writeBlock]
  split
  · exact Or.inl (hout _ (by omega))
  · exact h x

/-! ### Loops -/

/-- **A loop whose body reads `A` only.** -/
theorem iter {f : ℕ → Memory → Memory} {A : Set ℕ} {n : ℕ}
    (hstep : ∀ i u u', i < n → Set.EqOn u u' A → SameChange u u' (f i u) (f i u'))
    (hA : Set.EqOn t t' A) : SameChange t t' (Loop.iter f n t) (Loop.iter f n t') :=
  Loop.iter_related (SameChange t t') (refl t t') fun i u u' hi h =>
    h.trans (hstep i u u' hi (h.eqOn hA))

end SameChange

end ByteMemory
