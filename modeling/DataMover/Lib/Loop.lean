import Mathlib.Data.Nat.Notation
import Mathlib.Tactic.Common

/-!
# Counted loops

A C loop `for (i = 0; i < n; ++i)` over a state is a recursion on the number of
iterations already made.  `iter` is the loop whose body always runs to its end,
`iterUntil` the loop whose body may `return`: the returned value travels in the
`error` side of `Except`, and every later iteration is skipped.  `whileLoop` is the
loop that tests its state before each iteration, with a bound on their number.

The law everything else rests on is the splitting law: `k + n` iterations are
`k` iterations followed by `n` iterations of the body with its index shifted by
`k`.  A computation that stopped after `k` steps and is started again on the
remainder is, step for step, the uninterrupted one.

## Main results

* `iter_add` — the splitting law.
* `iter_invariant`, `iterUntil_invariant`, `iter_preserves` — the invariant rules,
  and the frame rule they give.
* `iter_related`, `iterUntil_related` — two runs side by side.
* `iterUntil_eq_error`, `ReturnsAt.unique` — the iteration in which a loop returns.
* `iterUntil_partial` — a loop whose body need not come back, against one whose body does.
* `iter_congr` — loops whose bodies agree below the bound.
* `search_eq_some`, `search_eq_none`, `search_add` — loops that look for an index.
* `search_value_eq_iff` — when two such loops report the same.
* `iter_tracked`, `iterUntil_eq_search` — loops that carry counters along.
* `whileLoop_total` — an invariant and a falling measure: the loop ends, and the
  invariant holds where its test fails; `whileLoop_steps` for the loops whose body cannot
  fail, `whileLoop_countdown` for those whose test compares the number of elements left.
* `iter_map`, `whileLoop_map` — a loop and its image under a map of the states.
* `whileUntil_total`, `whileUntil_diverges` — loops with a test whose body may also return;
  `whileUntil_searchBlocks` for those that look for an index several places at a time.
* `foldl_processed` — a loop over a list, with an invariant that speaks of the entries done.
-/

namespace Loop

variable {σ ρ : Type*}

/-- `n` iterations of the body `f`, from the state `s`. -/
def iter (f : ℕ → σ → σ) : ℕ → σ → σ
  | 0, s => s
  | n + 1, s => f n (iter f n s)

/-- At most `n` iterations of a body that may return early. -/
def iterUntil (f : ℕ → σ → Except ρ σ) : ℕ → σ → Except ρ σ
  | 0, s => .ok s
  | n + 1, s => (iterUntil f n s).bind (f n)

@[simp] theorem iter_zero (f : ℕ → σ → σ) (s : σ) : iter f 0 s = s := rfl

theorem iter_succ (f : ℕ → σ → σ) (n : ℕ) (s : σ) :
    iter f (n + 1) s = f n (iter f n s) := rfl

@[simp] theorem iterUntil_zero (f : ℕ → σ → Except ρ σ) (s : σ) : iterUntil f 0 s = .ok s := rfl

theorem iterUntil_succ (f : ℕ → σ → Except ρ σ) (n : ℕ) (s : σ) :
    iterUntil f (n + 1) s = (iterUntil f n s).bind (f n) := rfl

/-! ### Splitting a loop -/

/-- **The splitting law.**  `k + n` iterations are `k` iterations and then `n`
of the shifted body. -/
theorem iter_add (f : ℕ → σ → σ) (k n : ℕ) (s : σ) :
    iter f (k + n) s = iter (fun i => f (k + i)) n (iter f k s) := by
  induction n with
  | zero => rfl
  | succ n ih => rw [← Nat.add_assoc, iter_succ, ih, iter_succ]

/-! ### Invariants and congruence -/

/-- **The invariant rule.**  What holds before the loop and is kept by every
iteration below the bound holds after the loop. -/
theorem iter_invariant {f : ℕ → σ → σ} (I : ℕ → σ → Prop) {n : ℕ} {s : σ} (h0 : I 0 s)
    (hstep : ∀ i t, i < n → I i t → I (i + 1) (f i t)) : I n (iter f n s) := by
  induction n with
  | zero => exact h0
  | succ n ih =>
    rw [iter_succ]
    exact hstep n _ (Nat.lt_succ_self n) (ih fun i t hi => hstep i t (by omega))

/-- What no iteration changes, the loop does not change. -/
theorem iter_preserves {α : Type*} {f : ℕ → σ → σ} (proj : σ → α) {n : ℕ}
    (h : ∀ i t, i < n → proj (f i t) = proj t) (s : σ) : proj (iter f n s) = proj s :=
  iter_invariant (fun _ t => proj t = proj s) rfl fun i t hi ht => (h i t hi).trans ht

/-- **The invariant rule of a loop that may return**: `I` along the iterations,
`J` of a returned value. -/
theorem iterUntil_invariant {f : ℕ → σ → Except ρ σ} (I : ℕ → σ → Prop) (J : ρ → Prop) {n : ℕ}
    {s : σ} (h0 : I 0 s) (hok : ∀ i t u, i < n → I i t → f i t = .ok u → I (i + 1) u)
    (herr : ∀ i t r, i < n → I i t → f i t = .error r → J r) :
    (∀ t, iterUntil f n s = .ok t → I n t) ∧ ∀ r, iterUntil f n s = .error r → J r := by
  induction n with
  | zero =>
    refine ⟨fun t ht => ?_, fun r hr => nomatch hr⟩
    cases ht
    exact h0
  | succ n ih =>
    obtain ⟨ihok, iherr⟩ := ih (fun i t u hi => hok i t u (by omega))
      fun i t r hi => herr i t r (by omega)
    rw [iterUntil_succ]
    cases h : iterUntil f n s with
    | error r =>
      refine ⟨fun t ht => (nomatch ht), fun r' hr => ?_⟩
      cases hr
      exact iherr r h
    | ok t =>
      have hI := ihok t h
      exact ⟨fun u hu => hok n t u (Nat.lt_succ_self n) hI hu,
        fun r hr => herr n t r (Nat.lt_succ_self n) hI hr⟩

theorem iter_congr {f g : ℕ → σ → σ} {n : ℕ} (h : ∀ i, i < n → f i = g i) (s : σ) :
    iter f n s = iter g n s := by
  induction n with
  | zero => rfl
  | succ n ih => rw [iter_succ, iter_succ, ih fun i hi => h i (by omega), h n (by omega)]

/-- The same loop seen through a map of the states. -/
theorem iter_map {τ : Type*} {f : ℕ → σ → σ} {f' : ℕ → τ → τ} (g : σ → τ)
    (h : ∀ i s, g (f i s) = f' i (g s)) (n : ℕ) (s : σ) : g (iter f n s) = iter f' n (g s) := by
  induction n with
  | zero => rfl
  | succ n ih => rw [iter_succ, iter_succ, h, ih]

/-! ### Two runs of a loop -/

/-- Two outcomes of a loop that may return: both go on, in related states, or both
return, with related values. -/
def Related (R : σ → σ → Prop) (S : ρ → ρ → Prop) : Except ρ σ → Except ρ σ → Prop
  | .ok t, .ok t' => R t t'
  | .error r, .error r' => S r r'
  | _, _ => False

/-- **The relational rule**: what relates two states and is kept by every pair of
iterations relates the states after the loops. -/
theorem iter_related {f g : ℕ → σ → σ} (R : σ → σ → Prop) {n : ℕ} {s s' : σ} (h0 : R s s')
    (hstep : ∀ i t t', i < n → R t t' → R (f i t) (g i t')) : R (iter f n s) (iter g n s') := by
  induction n with
  | zero => exact h0
  | succ n ih =>
    rw [iter_succ, iter_succ]
    exact hstep n _ _ (Nat.lt_succ_self n) (ih fun i t t' hi => hstep i t t' (by omega))

/-- **The relational rule of a loop that may return.** -/
theorem iterUntil_related {f g : ℕ → σ → Except ρ σ} {R : σ → σ → Prop} {S : ρ → ρ → Prop} {n : ℕ}
    {s s' : σ} (h0 : R s s')
    (hstep : ∀ i t t', i < n → R t t' → Related R S (f i t) (g i t')) :
    Related R S (iterUntil f n s) (iterUntil g n s') := by
  induction n with
  | zero => exact h0
  | succ n ih =>
    -- outcomes of different kinds are not related, so two of the four cases are absurd
    have hn := ih fun i t t' hi => hstep i t t' (by omega)
    rw [iterUntil_succ, iterUntil_succ]
    cases h : iterUntil f n s with
    | error r =>
      cases h' : iterUntil g n s' with
      | error r' => rw [h, h'] at hn; exact hn
      | ok t' => rw [h, h'] at hn; exact hn.elim
    | ok t =>
      cases h' : iterUntil g n s' with
      | error r' => rw [h, h'] at hn; exact hn.elim
      | ok t' =>
        rw [h, h'] at hn
        exact hstep n t t' (Nat.lt_succ_self n) hn

/-! ### Where a loop returns -/

/-- The loop returns `r` in iteration `i`. -/
def ReturnsAt (f : ℕ → σ → Except ρ σ) (s : σ) (i : ℕ) (r : ρ) : Prop :=
  ∃ t, iterUntil f i s = .ok t ∧ f i t = .error r

/-- A loop that has returned stays so. -/
theorem iterUntil_of_returned {f : ℕ → σ → Except ρ σ} {s : σ} {k n : ℕ} {r : ρ}
    (h : iterUntil f k s = .error r) (hkn : k ≤ n) : iterUntil f n s = .error r := by
  induction n with
  | zero => rwa [Nat.le_zero.mp hkn] at h
  | succ n ih =>
    rcases Nat.lt_or_eq_of_le hkn with hlt | heq
    · rw [iterUntil_succ, ih (by omega)]
      rfl
    · rwa [heq] at h

theorem ReturnsAt.iterUntil_succ {f : ℕ → σ → Except ρ σ} {s : σ} {i : ℕ} {r : ρ}
    (h : ReturnsAt f s i r) : iterUntil f (i + 1) s = .error r := by
  obtain ⟨t, ht, hr⟩ := h
  rw [Loop.iterUntil_succ, ht]
  exact hr

/-- **A loop that returned did so in one of its iterations.** -/
theorem iterUntil_eq_error {f : ℕ → σ → Except ρ σ} {s : σ} {n : ℕ} {r : ρ} :
    iterUntil f n s = .error r ↔ ∃ i, i < n ∧ ReturnsAt f s i r := by
  constructor
  · intro h
    induction n with
    | zero => cases h
    | succ n ih =>
      cases hn : iterUntil f n s with
      | error r' =>
        have hr := iterUntil_of_returned hn (Nat.le_succ n)
        rw [hr] at h
        cases h
        obtain ⟨i, hi, hreturns⟩ := ih hn
        exact ⟨i, by omega, hreturns⟩
      | ok t =>
        rw [iterUntil_succ, hn] at h
        exact ⟨n, Nat.lt_succ_self n, t, hn, h⟩
  · rintro ⟨i, hi, h⟩
    exact iterUntil_of_returned h.iterUntil_succ hi

/-- There is no second return. -/
theorem ReturnsAt.unique {f : ℕ → σ → Except ρ σ} {s : σ} {i j : ℕ} {r r' : ρ}
    (hi : ReturnsAt f s i r) (hj : ReturnsAt f s j r') : i = j := by
  rcases Nat.lt_trichotomy i j with hlt | heq | hgt
  · obtain ⟨t, ht, -⟩ := hj
    rw [iterUntil_of_returned hi.iterUntil_succ hlt] at ht
    cases ht
  · exact heq
  · obtain ⟨t, ht, -⟩ := hi
    rw [iterUntil_of_returned hj.iterUntil_succ hgt] at ht
    cases ht

/-! ### Bodies that need not come back -/

/-- **A body that need not come back**, told by `.error none`: where it does it is the body `f`.
The loop does not come back exactly when the loop of `f` reaches a state in which the body does
not; else it is the loop of `f`. -/
theorem iterUntil_partial {f : ℕ → σ → Except ρ σ} {g : ℕ → σ → Except (Option ρ) σ}
    {back : ℕ → σ → Prop} (hback : ∀ i t, back i t → g i t = (f i t).mapError some)
    (hnot : ∀ i t, ¬back i t → g i t = .error none) (n : ℕ) (s : σ) :
    ((∀ i t, i < n → iterUntil f i s = .ok t → back i t) →
        iterUntil g n s = (iterUntil f n s).mapError some)
      ∧ ((∃ i t, i < n ∧ iterUntil f i s = .ok t ∧ ¬back i t) →
        iterUntil g n s = .error none) := by
  induction n with
  | zero => exact ⟨fun _ => rfl, fun ⟨i, _, hi, _⟩ => absurd hi (Nat.not_lt_zero i)⟩
  | succ n ih =>
    obtain ⟨ihsame, ihnone⟩ := ih
    refine ⟨fun hall => ?_, ?_⟩
    · rw [iterUntil_succ, iterUntil_succ, ihsame fun i t hi => hall i t (by omega)]
      cases h : iterUntil f n s with
      | error r => rfl
      | ok t => exact hback n t (hall n t (Nat.lt_succ_self n) h)
    · rintro ⟨i, t, hi, ht, hfails⟩
      by_cases hbefore : ∃ i t, i < n ∧ iterUntil f i s = .ok t ∧ ¬back i t
      · rw [iterUntil_succ, ihnone hbefore]
        rfl
      · -- the last iteration is the first that does not come back
        have hall : ∀ i t, i < n → iterUntil f i s = .ok t → back i t := by
          intro j u hj hu
          by_contra hno
          exact hbefore ⟨j, u, hj, hu, hno⟩
        rcases Nat.lt_succ_iff_lt_or_eq.mp hi with hlt | rfl
        · exact absurd (hall i t hlt ht) hfails
        · rw [iterUntil_succ, ihsame hall, ht]
          exact hnot i t hfails

/-! ### Loops over a state that evolves on its own -/

/-- A loop whose state has a component that follows its own sequence `st`
whatever the other component does. -/
theorem iter_tracked {α τ : Type*} {f : ℕ → α × τ → α × τ} {g : ℕ → α → α} (st : ℕ → τ)
    (h : ∀ i x, f i (x, st i) = (g i x, st (i + 1))) (n : ℕ) (x : α) :
    iter f n (x, st 0) = (iter g n x, st n) := by
  induction n with
  | zero => rfl
  | succ n ih => rw [iter_succ, ih, h, iter_succ]

/-! ### Searching loops -/

/-- The loop `for (i = 0; i < n; ++i) if (p i) return i;`. -/
def search (p : ℕ → Bool) (n : ℕ) : Option ℕ := (List.range n).find? p

theorem search_eq_some {p : ℕ → Bool} {n i : ℕ} :
    search p n = some i ↔ i < n ∧ p i = true ∧ ∀ j, j < i → p j = false := by
  unfold search
  rw [List.find?_range_eq_some, List.mem_range]
  simp only [Bool.not_eq_true']
  tauto

theorem search_eq_none {p : ℕ → Bool} {n : ℕ} :
    search p n = none ↔ ∀ i, i < n → p i = false := by
  unfold search
  rw [List.find?_range_eq_none]
  simp only [Bool.not_eq_true']

theorem search_congr {p q : ℕ → Bool} {n : ℕ} (h : ∀ i, i < n → p i = q i) :
    search p n = search q n := by
  cases hq : search q n with
  | none =>
    rw [search_eq_none] at hq ⊢
    exact fun i hi => (h i hi).trans (hq i hi)
  | some i =>
    rw [search_eq_some] at hq ⊢
    obtain ⟨hi, hqi, hfirst⟩ := hq
    exact ⟨hi, (h i hi).trans hqi, fun j hj => (h j (by omega)).trans (hfirst j hj)⟩

/-- **Two searches for a nonzero value** find the same place and the same value there
exactly when, at every place the second one reaches, the values agree. -/
theorem search_value_eq_iff {p q : ℕ → ℕ} {n : ℕ} :
    (search (fun i => p i != 0) n).map (fun i => (i, p i))
        = (search (fun i => q i != 0) n).map (fun i => (i, q i))
      ↔ ∀ i, i < n → (∀ j, j < i → q j = 0) → p i = q i := by
  cases hq : search (fun i => q i != 0) n with
  | none =>
    have hzero : ∀ i, i < n → q i = 0 := fun i hi => by simpa using search_eq_none.mp hq i hi
    rw [Option.map_none, Option.map_eq_none_iff, search_eq_none]
    constructor
    · intro h i hi _
      rw [hzero i hi]
      simpa using h i hi
    · intro h i hi
      have hp := h i hi fun j hj => hzero j (by omega)
      rw [hzero i hi] at hp
      simp [hp]
  | some c =>
    obtain ⟨hc, hne, hfirst⟩ := search_eq_some.mp hq
    have hzero : ∀ i, i < c → q i = 0 := fun i hi => by simpa using hfirst i hi
    rw [Option.map_some]
    constructor
    · intro h i hi hbefore
      obtain ⟨d, hd, heq⟩ := Option.map_eq_some_iff.mp h
      obtain ⟨rfl, hpc⟩ := Prod.mk.inj heq
      -- before the common place both are zero, after it nothing is claimed
      rcases Nat.lt_trichotomy i d with hlt | rfl | hgt
      · rw [hzero i hlt]
        simpa using (search_eq_some.mp hd).2.2 i hlt
      · exact hpc
      · rw [hbefore d hgt] at hne
        exact absurd hne (by simp)
    · intro h
      have hpc := h c hc hzero
      have hp : search (fun i => p i != 0) n = some c := by
        refine search_eq_some.mpr ⟨hc, ?_, fun i hi => ?_⟩
        · rw [hpc]; exact hne
        · have hpi := h i (by omega) fun j hj => hzero j (by omega)
          rw [hzero i hi] at hpi
          simp [hpi]
      rw [hp, Option.map_some, hpc]

/-- What is found stays found when the search goes on further. -/
theorem search_of_le {p : ℕ → Bool} {k n i : ℕ} (h : search p k = some i) (hk : k ≤ n) :
    search p n = some i := by
  obtain ⟨hi, hp, hfirst⟩ := search_eq_some.mp h
  exact search_eq_some.mpr ⟨Nat.lt_of_lt_of_le hi hk, hp, hfirst⟩

/-- **The splitting law of a search** whose first `k` indices miss. -/
theorem search_add {p : ℕ → Bool} {k : ℕ} (hk : ∀ i, i < k → p i = false) (n : ℕ) :
    search p (k + n) = (search (fun i => p (k + i)) n).map (k + ·) := by
  cases h : search (fun i => p (k + i)) n with
  | none =>
    rw [search_eq_none] at h
    rw [Option.map_none, search_eq_none]
    intro i hi
    rcases Nat.lt_or_ge i k with hlt | hge
    · exact hk i hlt
    · have := h (i - k) (by omega)
      rwa [show k + (i - k) = i by omega] at this
  | some i =>
    rw [search_eq_some] at h
    obtain ⟨hi, hp, hfirst⟩ := h
    rw [Option.map_some, search_eq_some]
    refine ⟨by omega, hp, fun j hj => ?_⟩
    rcases Nat.lt_or_ge j k with hlt | hge
    · exact hk j hlt
    · have := hfirst (j - k) (by omega)
      rwa [show k + (j - k) = j by omega] at this

/-- A loop that returns at the first bad index and otherwise only advances a
state along the sequence `st` is a search. -/
theorem iterUntil_eq_search {f : ℕ → σ → Except ρ σ} {bad : ℕ → Bool} {ret : ℕ → ρ}
    {st : ℕ → σ} {n : ℕ}
    (h : ∀ i, i < n → f i (st i) = if bad i then .error (ret i) else .ok (st (i + 1))) :
    iterUntil f n (st 0)
      = match search bad n with
        | some i => .error (ret i)
        | none => .ok (st n) := by
  induction n with
  | zero => rfl
  | succ n ih =>
    rw [iterUntil_succ, ih fun i hi => h i (by omega)]
    cases hs : search bad n with
    | some i =>
      rw [search_of_le hs (Nat.le_succ n)]
      rfl
    | none =>
      have hbelow := search_eq_none.mp hs
      cases hb : bad n with
      | true =>
        rw [search_eq_some.mpr ⟨Nat.lt_succ_self n, hb, hbelow⟩]
        simp [Except.bind, h n (Nat.lt_succ_self n), hb]
      | false =>
        have hnone : search bad (n + 1) = none := search_eq_none.mpr fun i hi => by
          rcases Nat.lt_succ_iff_lt_or_eq.mp hi with hlt | heq
          · exact hbelow i hlt
          · rw [heq]; exact hb
        rw [hnone]
        simp [Except.bind, h n (Nat.lt_succ_self n), hb]

/-! ### Loops with a test -/

/-- `while (cond) body`, where a body may fail.  `fuel` bounds the iterations: a loop
whose test still holds after so many of them has no result. -/
def whileLoop (cond : σ → Bool) (body : σ → Option σ) : ℕ → σ → Option σ
  | 0, s => if cond s then none else some s
  | fuel + 1, s => if cond s then (body s).bind (whileLoop cond body fuel) else some s

/-- **Total correctness of a loop with a test.**  When every iteration succeeds, keeps
`I` and lowers the measure `μ`, the loop ends in a state where `I` holds and the test
does not. -/
theorem whileLoop_total {cond : σ → Bool} {body : σ → Option σ} (I : σ → Prop) (μ : σ → ℕ)
    (hstep : ∀ s, I s → cond s = true → ∃ t, body s = some t ∧ I t ∧ μ t < μ s) {fuel : ℕ}
    {s : σ} (hs : I s) (hfuel : μ s ≤ fuel) :
    ∃ t, whileLoop cond body fuel s = some t ∧ I t ∧ cond t = false := by
  induction fuel generalizing s with
  | zero =>
    cases hc : cond s with
    | false => exact ⟨s, by simp [whileLoop, hc], hs, hc⟩
    | true =>
      obtain ⟨t, _, _, hlt⟩ := hstep s hs hc
      omega
  | succ fuel ih =>
    cases hc : cond s with
    | false => exact ⟨s, by simp [whileLoop, hc], hs, hc⟩
    | true =>
      obtain ⟨t, hbody, ht, hlt⟩ := hstep s hs hc
      obtain ⟨u, hu, hIu, hcu⟩ := ih ht (by omega)
      exact ⟨u, by simp [whileLoop, hc, hbody, hu], hIu, hcu⟩

/-- **A loop whose body cannot fail**, in step with a count: `A k` describes the state at
count `k`, and an iteration adds `w`. -/
theorem whileLoop_steps {cond : σ → Bool} {step : σ → σ} (A : ℕ → σ → Prop) (μ : σ → ℕ) {w : ℕ}
    (hstep : ∀ k s, A k s → cond s = true → A (k + w) (step s) ∧ μ (step s) < μ s) {fuel k : ℕ}
    {s : σ} (hs : A k s) (hfuel : μ s ≤ fuel) :
    ∃ t j, whileLoop cond (fun s => some (step s)) fuel s = some t ∧ A j t ∧ cond t = false := by
  have hkeep : ∀ s, (∃ k, A k s) → cond s = true →
      ∃ t, some (step s) = some t ∧ (∃ k, A k t) ∧ μ t < μ s := by
    rintro s ⟨k, hA⟩ hc
    obtain ⟨hA', hlt⟩ := hstep k s hA hc
    exact ⟨step s, rfl, ⟨k + w, hA'⟩, hlt⟩
  obtain ⟨t, ht, ⟨j, hj⟩, hexit⟩ := whileLoop_total _ μ hkeep ⟨k, hs⟩ hfuel
  exact ⟨t, j, ht, hj, hexit⟩

/-- **The same loop seen through a map**: when the tests agree and the bodies commute with
`g`, so do the loops. -/
theorem whileLoop_map {τ : Type*} {cond : σ → Bool} {cond' : τ → Bool} {body : σ → Option σ}
    {body' : τ → Option τ} (g : σ → τ) (hcond : ∀ s, cond' (g s) = cond s)
    (hbody : ∀ s, body' (g s) = (body s).map g) (fuel : ℕ) (s : σ) :
    whileLoop cond' body' fuel (g s) = (whileLoop cond body fuel s).map g := by
  induction fuel generalizing s with
  | zero =>
    simp only [whileLoop, hcond]
    cases cond s <;> rfl
  | succ fuel ih =>
    simp only [whileLoop, hcond, hbody]
    cases cond s with
    | false => rfl
    | true =>
      cases body s with
      | none => rfl
      | some t => exact ih t

/-- **A loop that counts down.**  `len` elements are left, an iteration handles `dec` of
them and runs while more than `bound` are left; `A i` describes the state once `i` of the
`total` elements are handled. -/
theorem whileLoop_countdown {body : σ → Option σ} (A : ℕ → σ → Prop) (len : σ → ℕ)
    {bound dec total : ℕ} (hdec : 0 < dec) (hbound : dec ≤ bound + 1)
    (hstep : ∀ i s, A i s → i + len s = total → bound < len s →
      ∃ t, body s = some t ∧ A (i + dec) t ∧ len t = len s - dec)
    {i : ℕ} {s : σ} (hs : A i s) (htotal : i + len s = total) :
    ∃ t j, whileLoop (fun s => decide (bound < len s)) body (len s) s = some t ∧ A j t ∧
      j + len t = total ∧ len t ≤ bound := by
  have hkeep : ∀ s, (∃ i, A i s ∧ i + len s = total) → decide (bound < len s) = true →
      ∃ t, body s = some t ∧ (∃ i, A i t ∧ i + len t = total) ∧ len t < len s := by
    rintro s ⟨i, hA, hi⟩ hc
    have hlt : bound < len s := of_decide_eq_true hc
    obtain ⟨t, hbody, hAt, hlen⟩ := hstep i s hA hi hlt
    exact ⟨t, hbody, ⟨i + dec, hAt, by omega⟩, by omega⟩
  obtain ⟨t, ht, ⟨j, hj, hjt⟩, hexit⟩ :=
    whileLoop_total _ len hkeep ⟨i, hs, htotal⟩ (Nat.le_refl _)
  exact ⟨t, j, ht, hj, hjt, by simpa using hexit⟩

/-! ### Loops with a test whose body may return -/

/-- The test of a loop that stops once it has returned. -/
def running (cond : σ → Bool) : Except ρ σ → Bool
  | .ok s => cond s
  | .error _ => false

/-- The body of a loop that stops once it has returned. -/
def runBody (body : σ → Option (Except ρ σ)) : Except ρ σ → Option (Except ρ σ)
  | .ok s => body s
  | .error r => some (.error r)

/-- `while (cond) body`, where a body may fail, and may return. -/
def whileUntil (cond : σ → Bool) (body : σ → Option (Except ρ σ)) (fuel : ℕ) (s : σ) :
    Option (Except ρ σ) :=
  whileLoop (running cond) (runBody body) fuel (.ok s)

/-- A loop ends well: by its test, in a state with `I`, or by a return of a value with `J`. -/
def EndsIn (cond : σ → Bool) (I : σ → Prop) (J : ρ → Prop) : Except ρ σ → Prop
  | .ok s => I s ∧ cond s = false
  | .error r => J r

/-- An iteration goes on well: it lowers the measure and keeps `I`, or it returns a value
with `J`. -/
def StepsIn (I : σ → Prop) (J : ρ → Prop) (μ : σ → ℕ) (s : σ) : Except ρ σ → Prop
  | .ok t => I t ∧ μ t < μ s
  | .error r => J r

/-- **Total correctness of a loop with a test whose body may return.** -/
theorem whileUntil_total {cond : σ → Bool} {body : σ → Option (Except ρ σ)} (I : σ → Prop)
    (J : ρ → Prop) (μ : σ → ℕ)
    (hstep : ∀ s, I s → cond s = true → ∃ e, body s = some e ∧ StepsIn I J μ s e) {fuel : ℕ} {s : σ}
    (hs : I s) (hfuel : μ s < fuel) :
    ∃ e, whileUntil cond body fuel s = some e ∧ EndsIn cond I J e := by
  -- a state that has returned is below every state that has not
  let K : Except ρ σ → Prop := fun e => match e with
    | .ok s => I s
    | .error r => J r
  let ν : Except ρ σ → ℕ := fun e => match e with
    | .ok s => μ s + 1
    | .error _ => 0
  have hkeep : ∀ e, K e → running cond e = true →
      ∃ e', runBody body e = some e' ∧ K e' ∧ ν e' < ν e := by
    intro e hK hrun
    cases e with
    | error r => cases hrun
    | ok s =>
      obtain ⟨e', hbody, hstep⟩ := hstep s hK hrun
      refine ⟨e', hbody, ?_⟩
      cases e' with
      | error r => exact ⟨hstep, Nat.succ_pos _⟩
      | ok t => exact ⟨hstep.1, Nat.succ_lt_succ hstep.2⟩
  obtain ⟨e, hrun, hK, hexit⟩ := whileLoop_total (s := .ok s) K ν hkeep hs hfuel
  refine ⟨e, hrun, ?_⟩
  cases e with
  | error r => exact hK
  | ok t => exact ⟨hK, hexit⟩

/-- **A loop that never ends**, or that ends in a fault: where `I` holds the test holds, and an
iteration that does not fail goes on with `I`. -/
theorem whileUntil_diverges {cond : σ → Bool} {body : σ → Option (Except ρ σ)} (I : σ → Prop)
    (hcond : ∀ s, I s → cond s = true)
    (hstep : ∀ s e, I s → body s = some e → ∃ t, e = .ok t ∧ I t) {s : σ} (hs : I s) (fuel : ℕ) :
    whileUntil cond body fuel s = none := by
  unfold whileUntil
  induction fuel generalizing s with
  | zero => simp [whileLoop, running, hcond s hs]
  | succ fuel ih =>
    simp only [whileLoop, running, hcond s hs, if_true, runBody]
    cases hbody : body s with
    | none => rfl
    | some e =>
      obtain ⟨t, rfl, ht⟩ := hstep s e hs hbody
      exact ih ht

/-- What a search that handles `w` places at a time has found out at the top of its loop. -/
structure MissedSoFar (p : ℕ → Bool) (w n i : ℕ) : Prop where
  aligned : w ∣ i
  le : i ≤ n
  missed : ∀ j, j < i → p j = false

/-- **A search, `w` places at a time**: it returns at the first place in its blocks, and
otherwise stops where no whole block is left. -/
theorem whileUntil_searchBlocks {p : ℕ → Bool} {ret : ℕ → ρ} {w n : ℕ} (hw : 0 < w)
    {cond : ℕ → Bool} {body : ℕ → Option (Except ρ ℕ)}
    (hcond : ∀ i, MissedSoFar p w n i → cond i = decide (i + w ≤ n))
    (hbody : ∀ i, w ∣ i → i + w ≤ n →
      body i = match search (fun j => p (i + j)) w with
        | some j => some (.error (ret (i + j)))
        | none => some (.ok (i + w))) {fuel : ℕ} (hfuel : n < fuel) :
    whileUntil cond body fuel 0
      = some (match search p (w * (n / w)) with
          | some i => .error (ret i)
          | none => .ok (w * (n / w))) := by
  have hstep : ∀ i, MissedSoFar p w n i → cond i = true →
      ∃ e, body i = some e ∧ StepsIn (MissedSoFar p w n)
        (fun r => ∃ i, search p (w * (n / w)) = some i ∧ r = ret i) (fun i => n - i) i e := by
    intro i hI hc
    rw [hcond i hI, decide_eq_true_eq] at hc
    -- the next block ends within the whole blocks
    have hblock : i + w ≤ w * (n / w) := by
      obtain ⟨c, rfl⟩ := hI.aligned
      rw [← Nat.mul_succ] at hc ⊢
      have hle : c + 1 ≤ n / w := (Nat.le_div_iff_mul_le hw).mpr (by rwa [Nat.mul_comm])
      exact Nat.mul_le_mul_left w hle
    -- nothing has been found below `i`, so this block goes on with the search
    have hsearch := search_add hI.missed w
    rw [hbody i hI.aligned hc]
    cases hnext : search (fun j => p (i + j)) w with
    | some j =>
      rw [hnext, Option.map_some] at hsearch
      exact ⟨_, rfl, i + j, search_of_le hsearch hblock, rfl⟩
    | none =>
      rw [hnext, Option.map_none] at hsearch
      refine ⟨_, rfl, ⟨?_, hc, search_eq_none.mp hsearch⟩, ?_⟩
      · exact Nat.dvd_add hI.aligned (Nat.dvd_refl w)
      · exact Nat.sub_lt_sub_left (by omega) (by omega)
  have hstart : MissedSoFar p w n 0 :=
    ⟨Nat.dvd_zero w, Nat.zero_le n, fun j hj => absurd hj (Nat.not_lt_zero j)⟩
  obtain ⟨e, hrun, hend⟩ := whileUntil_total _ _ _ hstep hstart hfuel
  rw [hrun]
  cases e with
  | error r =>
    obtain ⟨i, hsearch, rfl⟩ := hend
    rw [hsearch]
  | ok i =>
    obtain ⟨hI, hexit⟩ := hend
    rw [hcond i hI, decide_eq_false_iff_not] at hexit
    -- no whole block is left, so `i` is where the whole blocks end
    have hi : i = w * (n / w) := by
      obtain ⟨c, rfl⟩ := hI.aligned
      rw [← Nat.mul_succ, Nat.mul_comm, ← Nat.le_div_iff_mul_le hw] at hexit
      have hle : c ≤ n / w := (Nat.le_div_iff_mul_le hw).mpr (by rw [Nat.mul_comm]; exact hI.le)
      rw [show c = n / w by omega]
    have hnone : search p (w * (n / w)) = none :=
      search_eq_none.mpr fun j hj => hI.missed j (by omega)
    rw [hnone, hi]

/-! ### Loops over a list -/

/-- **An invariant of the entries done**: when it holds of none of them at the start and each
entry keeps it, it holds of all of them at the end. -/
theorem foldl_processed {α : Type*} {f : σ → α → σ} {Inv : List α → σ → Prop}
    (hstep : ∀ done a s, Inv done s → Inv (done ++ [a]) (f s a)) {done : List α} {s : σ}
    (h : Inv done s) (rest : List α) : Inv (done ++ rest) (rest.foldl f s) := by
  induction rest generalizing done s with
  | nil => rwa [List.append_nil]
  | cons a rest ih =>
    rw [List.foldl_cons, List.append_cons]
    exact ih (hstep done a s h)

/-- Some entry of a list has `P`, together with the entries before it. -/
def Meets {α : Type*} (P : List α → α → Prop) (l : List α) : Prop :=
  ∃ before a after, l = before ++ a :: after ∧ P before a

theorem not_meets_nil {α : Type*} {P : List α → α → Prop} : ¬Meets P [] := by
  rintro ⟨before, a, after, hl, -⟩
  exact List.append_ne_nil_of_right_ne_nil before (List.cons_ne_nil a after) hl.symm

/-- One entry more. -/
theorem meets_concat {α : Type*} {P : List α → α → Prop} {l : List α} {a : α} :
    Meets P (l ++ [a]) ↔ Meets P l ∨ P l a := by
  constructor
  · rintro ⟨before, b, after, hl, hP⟩
    rcases List.eq_nil_or_concat after with rfl | ⟨after', c, rfl⟩
    · obtain ⟨rfl, hb⟩ := List.append_inj' hl rfl
      cases hb
      exact Or.inr hP
    · rw [List.concat_eq_append, ← List.cons_append, ← List.append_assoc] at hl
      obtain ⟨rfl, -⟩ := List.append_inj' hl rfl
      exact Or.inl ⟨before, b, after', rfl, hP⟩
  · rintro (⟨before, b, after, rfl, hP⟩ | hP)
    · exact ⟨before, b, after ++ [a], by rw [List.append_assoc, List.cons_append], hP⟩
    · exact ⟨l, a, [], rfl, hP⟩

end Loop
