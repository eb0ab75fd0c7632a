import Mathlib.Data.List.Nodup
import Mathlib.Logic.Equiv.Basic
import Mathlib.Tactic.Common

/-!
# Unique ownership

Resources are acquired and released; while one is taken, exactly one holder has it.  Holders are
variables: one may be emptied, and two may exchange what they hold.

## Main definitions

* `Owned` — the resources taken are those held, each by one holder.

## Main results

* `Owned.acquire`, `Owned.release`, `Owned.exchange` — the steps.
* `Owned.nil_of_none` — nobody holds anything: everything has been released.
-/

namespace Ownership

variable {ι ρ : Type*}

/-- The resources taken are those that are held, and each of them is held once. -/
structure Owned (hold : ι → Option ρ) (taken : List ρ) : Prop where
  nodup : taken.Nodup
  mem_iff : ∀ r, r ∈ taken ↔ ∃ i, hold i = some r
  unique : ∀ i j r, hold i = some r → hold j = some r → i = j

namespace Owned

variable {hold : ι → Option ρ} {taken : List ρ} {i j : ι} {r : ρ}

/-- What is held is taken. -/
theorem mem (h : Owned hold taken) (hi : hold i = some r) : r ∈ taken := (h.mem_iff r).mpr ⟨i, hi⟩

theorem start (hnone : ∀ i, hold i = none) : Owned hold [] where
  nodup := List.nodup_nil
  mem_iff r := by simp [hnone]
  unique i _ _ hi := absurd hi (by simp [hnone i])

/-- **Nothing is lost**: when nobody holds anything, everything has been released. -/
theorem nil_of_none (h : Owned hold taken) (hnone : ∀ i, hold i = none) : taken = [] := by
  refine List.eq_nil_iff_forall_not_mem.mpr fun r hr => ?_
  obtain ⟨i, hi⟩ := (h.mem_iff r).mp hr
  rw [hnone i] at hi
  exact absurd hi (by simp)

/-- The holders under other names. -/
theorem comp (h : Owned hold taken) (e : ι ≃ ι) : Owned (hold ∘ e) taken where
  nodup := h.nodup
  mem_iff r := by
    rw [h.mem_iff]
    constructor
    · rintro ⟨i, hi⟩
      exact ⟨e.symm i, by rw [Function.comp_apply, e.apply_symm_apply, hi]⟩
    · rintro ⟨i, hi⟩
      exact ⟨e i, hi⟩
  unique i j r hi hj := e.injective (h.unique (e i) (e j) r hi hj)

variable [DecidableEq ι]

/-- Two holders exchange what they have. -/
theorem exchange (h : Owned hold taken) (i j : ι) : Owned (hold ∘ Equiv.swap i j) taken :=
  h.comp (Equiv.swap i j)

/-- **A resource is acquired** by a holder who has nothing. -/
theorem acquire (h : Owned hold taken) (hi : hold i = none) (hr : r ∉ taken) :
    Owned (Function.update hold i (some r)) (r :: taken) where
  nodup := List.nodup_cons.mpr ⟨hr, h.nodup⟩
  mem_iff s := by
    rw [List.mem_cons, h.mem_iff]
    constructor
    · rintro (rfl | ⟨j, hj⟩)
      · exact ⟨i, Function.update_self ..⟩
      · have hne : j ≠ i := by
          rintro rfl
          rw [hi] at hj
          exact absurd hj (by simp)
        exact ⟨j, by rw [Function.update_of_ne hne, hj]⟩
    · rintro ⟨j, hj⟩
      by_cases hij : j = i
      · rw [hij, Function.update_self, Option.some.injEq] at hj
        exact Or.inl hj.symm
      · rw [Function.update_of_ne hij] at hj
        exact Or.inr ⟨j, hj⟩
  unique j k s hj hk := by
    have hnew : ∀ l, l ≠ i → Function.update hold i (some r) l = some s → hold l = some s :=
      fun l hl hs => by rwa [Function.update_of_ne hl] at hs
    -- the new resource was held by nobody
    have hfresh : ∀ l, l ≠ i → hold l ≠ some r := fun l _ hl => hr (h.mem hl)
    by_cases hji : j = i
    · rw [hji, Function.update_self, Option.some.injEq] at hj
      by_contra hjk
      exact hfresh k (fun hki => hjk (hji.trans hki.symm)) (hj ▸ hnew k (fun hki =>
        hjk (hji.trans hki.symm)) hk)
    · by_cases hki : k = i
      · rw [hki, Function.update_self, Option.some.injEq] at hk
        exact absurd (hk ▸ hnew j hji hj) (hfresh j hji)
      · exact h.unique j k s (hnew j hji hj) (hnew k hki hk)

/-- **A resource is released.** -/
theorem release [DecidableEq ρ] (h : Owned hold taken) (hi : hold i = some r) :
    Owned (Function.update hold i none) (taken.filter fun s => decide (s ≠ r)) where
  nodup := h.nodup.filter _
  mem_iff s := by
    rw [List.mem_filter, h.mem_iff, decide_eq_true_eq]
    constructor
    · rintro ⟨⟨j, hj⟩, hne⟩
      have hji : j ≠ i := by
        rintro rfl
        exact hne (Option.some.inj (hj.symm.trans hi))
      exact ⟨j, by rw [Function.update_of_ne hji, hj]⟩
    · rintro ⟨j, hj⟩
      by_cases hji : j = i
      · rw [hji, Function.update_self] at hj
        exact absurd hj (by simp)
      · rw [Function.update_of_ne hji] at hj
        refine ⟨⟨j, hj⟩, ?_⟩
        rintro rfl
        exact hji (h.unique j i s hj hi)
  unique j k s hj hk := by
    have hold_of : ∀ l, Function.update hold i none l = some s → hold l = some s := by
      intro l hl
      by_cases hli : l = i
      · rw [hli, Function.update_self] at hl
        exact absurd hl (by simp)
      · rwa [Function.update_of_ne hli] at hl
    exact h.unique j k s (hold_of j hj) (hold_of k hk)

end Owned

end Ownership
