import DataMover.Lib.Schedule

/-!
# Deferred actions

A program hands actions over in some order, to be executed at once or later, by somebody else
and in another order.  Before an action is handed over a part of the memory may be cleared, and
whoever executes it may leave something else in the bytes that are nobody's output.

The memory with the actions still pending *simulates* the one in which every action was executed
when it was handed over: executing what is pending would lead to that memory, the bytes without
a meaning apart.  Handing an action over, executing one at once, and executing a pending one all
keep the simulation, provided an action is handed over only while the pending ones are apart
from it.

## Main definitions

* `Simulates` — the simulation.

## Main results

* `Simulates.defer`, `Simulates.execute` — the two steps; `Simulates.now` — both together.
-/

namespace ByteMemory

open Schedule

variable {α : Type*} {act : Memory → α → Memory} {Ready : Memory → α → Prop}
  {reads writes : α → Set ℕ}

/-- `memory` with the actions `pending` simulates `m`, but for the bytes in `junk`. -/
structure Simulates (act : Memory → α → Memory) (Ready : Memory → α → Prop)
    (reads writes : α → Set ℕ) (junk : Set ℕ) (memory : Memory) (pending : List α) (m : Memory) :
    Prop where
  runs : Runs act Ready memory pending
  apart : pending.Pairwise (FootprintsApart reads writes)
  clear : ∀ a ∈ pending, ∀ x ∈ reads a, x ∉ junk
  agree : Set.EqOn (pending.foldl act memory) m junkᶜ

theorem simulates_nil (junk : Set ℕ) (m : Memory) :
    Simulates act Ready reads writes junk m [] m :=
  ⟨trivial, List.Pairwise.nil, fun _ h => absurd h List.not_mem_nil, fun _ _ => rfl⟩

/-- Memories that agree but for bytes an action does not read agree on what it reads. -/
theorem eqOn_of_notMem {m m' : Memory} {R junk : Set ℕ} (h : Set.EqOn m m' junkᶜ)
    (hR : ∀ x ∈ R, x ∉ junk) : Set.EqOn m m' R :=
  h.mono hR

/-- Two actions stay apart in the other order. -/
theorem FootprintsApart.symm {a b : α} (h : FootprintsApart reads writes a b) :
    FootprintsApart reads writes b a :=
  ⟨fun x hx => ⟨h.2 x hx, fun hxa => (h.1 x hxa).2 hx⟩, fun x hx => (h.1 x hx).1⟩

namespace Footprint

variable (h : Footprint act Ready reads writes)
include h

/-- A run leaves what none of its actions writes. -/
theorem runs_frame {m : Memory} {l : List α} (hruns : Runs act Ready m l) {x : ℕ}
    (hx : ∀ a ∈ l, x ∉ writes a) : l.foldl act m x = m x := by
  induction l generalizing m with
  | nil => rfl
  | cons a l ih =>
    rw [List.foldl_cons, ih hruns.2 fun b hb => hx b (List.mem_cons_of_mem a hb)]
    exact h.frame m a hruns.1 x (hx a (List.mem_cons_self ..))

/-- **A run reads what its actions read.** -/
theorem runs_sameChange {m m' : Memory} {l : List α} (hruns : Runs act Ready m l)
    (hread : ∀ a ∈ l, Set.EqOn m m' (reads a)) :
    Runs act Ready m' l ∧ SameChange m m' (l.foldl act m) (l.foldl act m') := by
  induction l generalizing m m' with
  | nil => exact ⟨trivial, SameChange.refl m m'⟩
  | cons a l ih =>
    obtain ⟨ha, hrest⟩ := hruns
    have hreadA := hread a (List.mem_cons_self ..)
    have hchange := h.reading m m' a ha hreadA
    obtain ⟨hruns', hsame⟩ := ih hrest fun b hb =>
      hchange.eqOn (hread b (List.mem_cons_of_mem a hb))
    exact ⟨⟨h.stable m m' a ha hreadA, hruns'⟩, hchange.trans hsame⟩

end Footprint

namespace Simulates

variable {junk : Set ℕ} {memory m : Memory} {pending : List α} {a : α}
  (hfoot : Footprint act Ready reads writes)
  (h : Simulates act Ready reads writes junk memory pending m)
include hfoot h

/-- What nobody pending writes is as it would be had they been executed. -/
theorem eqOn_of_unwritten {R : Set ℕ} (hR : ∀ x ∈ R, x ∉ junk)
    (hwrites : ∀ b ∈ pending, ∀ x, x ∈ writes b → x ∉ R) : Set.EqOn memory m R := by
  intro x hx
  rw [← hfoot.runs_frame h.runs fun b hb hw => hwrites b hb x hw hx]
  exact h.agree (hR x hx)

/-- Every pending action is ready. -/
theorem ready (ha : a ∈ pending) : Ready memory a := by
  obtain ⟨before, after, rfl⟩ := List.append_of_mem ha
  have hpairs := List.pairwise_append.mp h.apart
  have hfront := runs_to_front hfoot.exchanges
    (fun b hb => hpairs.2.2 b hb a (List.mem_cons_self ..)) h.runs
  exact hfront.1.1

/-- **An action is handed over**: it waits behind the pending ones, which are apart from it.
What was cleared before, `cleared`, nobody reads, and what is not an output of the action there
has no meaning. -/
theorem defer {memory' : Memory} {cleared : Set ℕ} (hready : Ready m a)
    (hclear : ∀ x ∈ reads a, x ∉ junk) (hap : ∀ b ∈ pending, FootprintsApart reads writes b a)
    (hmemory : Set.EqOn memory' memory clearedᶜ)
    (hunread : ∀ b ∈ a :: pending, ∀ x ∈ reads b, x ∉ cleared)
    (hjunk : cleared \ Outputs act Ready reads a ⊆ junk) :
    Simulates act Ready reads writes junk memory' (pending ++ [a]) (act m a) := by
  -- the memory after the pending actions, with the bytes cleared and without
  obtain ⟨hruns, hchange⟩ := hfoot.runs_sameChange h.runs fun b hb =>
    (eqOn_of_notMem hmemory.symm (hunread b (List.mem_cons_of_mem a hb)))
  have hoff : Set.EqOn m (pending.foldl act memory') (junk ∪ cleared)ᶜ := by
    intro x hx
    rw [Set.compl_union] at hx
    rw [← hchange.apply_eq (hmemory hx.2).symm]
    exact (h.agree hx.1).symm
  have hread : Set.EqOn m (pending.foldl act memory') (reads a) :=
    eqOn_of_notMem hoff fun x hx hin =>
      hin.elim (hclear x hx) (hunread a (List.mem_cons_self ..) x hx)
  refine ⟨runs_append.mpr ⟨hruns, hfoot.stable _ _ a hready hread, trivial⟩, ?_, ?_, ?_⟩
  · rw [List.pairwise_append]
    refine ⟨h.apart, List.pairwise_singleton _ a, fun b hb c hc => ?_⟩
    rw [List.mem_singleton.mp hc]
    exact hap b hb
  · intro b hb
    rcases List.mem_append.mp hb with hb | hb
    · exact h.clear b hb
    · rw [List.mem_singleton.mp hb]
      exact hclear
  · intro x hx
    rw [List.foldl_append, List.foldl_cons, List.foldl_nil]
    by_cases hout : x ∈ Outputs act Ready reads a
    · exact (hout _ _ hready hread).symm
    · -- not an output, and not without a meaning: it has not been cleared
      have hkept : x ∉ cleared := fun hin => hx (hjunk ⟨hin, hout⟩)
      refine ((hfoot.reading _ _ a hready hread).apply_eq (hoff ?_)).symm
      rw [Set.compl_union]
      exact ⟨hx, hkept⟩

/-- **A pending action is executed**, in whatever order: the memory after it may differ in the
bytes without a meaning. -/
theorem execute {before after : List α} {memory' : Memory}
    (hpending : pending = before ++ a :: after)
    (hmemory : Set.EqOn memory' (act memory a) junkᶜ) :
    Ready memory a ∧
      Simulates act Ready reads writes junk memory' (before ++ after) m := by
  subst hpending
  have hpairs := List.pairwise_append.mp h.apart
  obtain ⟨⟨ha, hruns⟩, hsame⟩ := runs_to_front hfoot.exchanges
    (fun b hb => hpairs.2.2 b hb a (List.mem_cons_self ..)) h.runs
  have hclear : ∀ b ∈ before ++ after, ∀ x ∈ reads b, x ∉ junk := by
    intro b hb
    refine h.clear b (List.mem_append.mpr ((List.mem_append.mp hb).imp_right ?_))
    exact List.mem_cons_of_mem a
  obtain ⟨hruns', hchange⟩ := hfoot.runs_sameChange hruns fun b hb =>
    eqOn_of_notMem hmemory.symm (hclear b hb)
  refine ⟨ha, hruns', ?_, hclear, fun x hx => ?_⟩
  · exact h.apart.sublist (List.Sublist.append_left (List.sublist_cons_self a after) before)
  · rw [← hchange.apply_eq (hmemory hx).symm, ← h.agree hx, hsame, List.foldl_cons]

/-- **An action is executed at once.** -/
theorem now {memory' memory'' : Memory} {cleared : Set ℕ} (hready : Ready m a)
    (hclear : ∀ x ∈ reads a, x ∉ junk) (hap : ∀ b ∈ pending, FootprintsApart reads writes b a)
    (hmemory : Set.EqOn memory' memory clearedᶜ)
    (hunread : ∀ b ∈ a :: pending, ∀ x ∈ reads b, x ∉ cleared)
    (hjunk : cleared \ Outputs act Ready reads a ⊆ junk)
    (hrun : Set.EqOn memory'' (act memory' a) junkᶜ) :
    Ready memory' a ∧ Simulates act Ready reads writes junk memory'' pending (act m a) := by
  have hlast := h.defer hfoot hready hclear hap hmemory hunread hjunk
  have hexecuted := hlast.execute hfoot rfl hrun
  rwa [List.append_nil] at hexecuted

end Simulates

end ByteMemory
