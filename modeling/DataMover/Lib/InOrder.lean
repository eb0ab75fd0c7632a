import Mathlib.Data.Nat.Notation
import Mathlib.Tactic.Common

/-!
# Steps in order, up to the first that fails

A program executes a list of steps one after another.  Each step changes a state and gives an
answer, or does not come back; the program goes on after an answer that is accepted and stops
behind the first that is not.

Such a run is compared with a table that says, for each step, in which state it starts and whether
its answer is accepted.  When one step keeps to the table, the run does.

## Main definitions

* `inOrder` — the run, with its answers.
* `StopsAt` — how many steps a run has made.

## Main results

* `inOrder_simulates` — a run keeps to the table that its steps keep to.
* `forall_accepts_iff` — all answers are accepted when the table says so of all steps.
-/

namespace InOrder

variable {α μ σ : Type*}

/-- The steps for the elements of a list, up to the first whose answer is not accepted. -/
def inOrder (step : α → μ → Option (μ × σ)) (accepts : σ → Bool) (m : μ) :
    List α → Option (μ × List σ)
  | [] => some (m, [])
  | a :: as => do
    let (m, s) ← step a m
    if accepts s then
      let (m, ss) ← inOrder step accepts m as
      return (m, s :: ss)
    else return (m, [s])

/-- A run of at most `n` steps ends after `k` of them: all have been accepted, or the last is the
first that has not. -/
inductive StopsAt (accepted : ℕ → Prop) (n : ℕ) : ℕ → Prop
  | all (h : ∀ i, i < n → accepted i) : StopsAt accepted n n
  | first (k : ℕ) (hk : k < n) (h : ∀ i, i < k → accepted i) (hnot : ¬accepted k) :
      StopsAt accepted n (k + 1)

theorem StopsAt.le {accepted : ℕ → Prop} {n k : ℕ} (h : StopsAt accepted n k) : k ≤ n := by
  cases h with
  | all h => exact Nat.le_refl n
  | first k hk h hnot => exact hk

/-- One more accepted step at the beginning. -/
theorem StopsAt.succ {accepted : ℕ → Prop} {n k : ℕ} (h0 : accepted 0)
    (h : StopsAt (fun i => accepted (i + 1)) n k) : StopsAt accepted (n + 1) (k + 1) := by
  have hshift : ∀ {l : ℕ}, (∀ i, i < l → accepted (i + 1)) → ∀ i, i < l + 1 → accepted i := by
    intro l hl i hi
    cases i with
    | zero => exact h0
    | succ i => exact hl i (by omega)
  cases h with
  | all h => exact .all (hshift h)
  | first k hk h hnot => exact .first (k + 1) (by omega) (hshift h) hnot

/-- **A run keeps to the table**: `R i` are the states in which step `i` starts, `accepted i` says
whether its answer is accepted, and `Q i` what is known of it. -/
theorem inOrder_simulates {step : α → μ → Option (μ × σ)} {accepts : σ → Bool} {as : List α}
    {R : ℕ → μ → Prop} {accepted : ℕ → Prop} {Q : ℕ → σ → Prop}
    (hstep : ∀ i a, as[i]? = some a → ∀ m, R i m → ∃ m' s, step a m = some (m', s)
      ∧ (accepts s = true ↔ accepted i) ∧ Q i s ∧ R (i + 1) m')
    {m : μ} (hm : R 0 m) :
    ∃ m' ss, inOrder step accepts m as = some (m', ss)
      ∧ StopsAt accepted as.length ss.length ∧ R ss.length m'
      ∧ ∀ i s, ss[i]? = some s → (accepts s = true ↔ accepted i) ∧ Q i s := by
  induction as generalizing R accepted Q m with
  | nil =>
    refine ⟨m, [], rfl, .all fun i hi => absurd hi (Nat.not_lt_zero i), hm, fun i s hs => ?_⟩
    exact absurd hs (by simp)
  | cons a as ih =>
    obtain ⟨m₁, s, hfirst, haccepts, hQ, hm₁⟩ := hstep 0 a rfl m hm
    by_cases hok : accepts s = true
    · obtain ⟨m', ss, hrun, hstops, hm', hss⟩ :=
        @ih (fun i => R (i + 1)) (fun i => accepted (i + 1)) (fun i => Q (i + 1))
          (fun i b hb => hstep (i + 1) b hb) m₁ hm₁
      refine ⟨m', s :: ss, ?_, hstops.succ (haccepts.mp hok), hm', fun i s' hs => ?_⟩
      · rw [inOrder, hfirst, Option.bind_eq_bind, Option.bind_some]
        simp only [hok, if_true, hrun, Option.bind_eq_bind, Option.bind_some]
        rfl
      · cases i with
        | zero =>
          obtain rfl : s = s' := Option.some.inj hs
          exact ⟨haccepts, hQ⟩
        | succ i => exact hss i s' hs
    · refine ⟨m₁, [s], ?_, ?_, hm₁, fun i s' hs => ?_⟩
      · rw [inOrder, hfirst, Option.bind_eq_bind, Option.bind_some]
        simp only [hok, if_false, Bool.false_eq_true]
        rfl
      · refine .first 0 (Nat.succ_pos _) (fun i hi => absurd hi (Nat.not_lt_zero i)) ?_
        exact fun h => hok (haccepts.mpr h)
      · cases i with
        | zero =>
          obtain rfl : s = s' := Option.some.inj hs
          exact ⟨haccepts, hQ⟩
        | succ i => exact absurd hs (by simp)

/-- Every answer of a run is accepted just when every step of the table is. -/
theorem forall_accepts_iff {accepts : σ → Bool} {accepted : ℕ → Prop} {n : ℕ} {ss : List σ}
    (hstops : StopsAt accepted n ss.length)
    (hss : ∀ i s, ss[i]? = some s → (accepts s = true ↔ accepted i)) :
    (∀ s ∈ ss, accepts s = true) ↔ ∀ i, i < n → accepted i := by
  constructor
  · intro hall
    generalize hlen : ss.length = k at hstops
    cases hstops with
    | all h => exact h
    | first k hk h hnot =>
      -- the last answer is the one of the step that has not been accepted
      have hlast : k < ss.length := by omega
      exact absurd ((hss k _ (List.getElem?_eq_getElem hlast)).mp (hall _ (List.getElem_mem hlast)))
        hnot
  · intro hall s hs
    obtain ⟨i, hi, rfl⟩ := List.getElem_of_mem hs
    exact (hss i _ (List.getElem?_eq_getElem hi)).mpr (hall i (Nat.lt_of_lt_of_le hi hstops.le))

end InOrder
