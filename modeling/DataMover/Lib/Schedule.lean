import DataMover.Lib.SameChange

/-!
# Schedules

A list of actions is run one after another on a state.  An action is *ready* in the states in
which it may be run, and two actions are *apart* when neither touches what the other uses: run
next to each other, they may be exchanged.

A schedule is the same actions in another order.  When it keeps the order of every two actions
that are not apart it ends in the same state, and each action is ready when its turn comes.

For actions on a memory, apart means that neither writes what the other reads or writes.

## Main definitions

* `Runs` — every action of a list is ready when its turn comes.
* `Exchanges` — actions that are apart may be exchanged.
* `KeepsOrder` — a schedule keeps the order of what is not apart.
* `Footprint` — what each action on a memory reads and writes.

## Main results

* `run_schedule` — a schedule that keeps the order ends in the same state.
* `Footprint.exchanges` — footprints that do not meet let actions be exchanged.
-/

namespace Schedule

variable {α σ : Type*} {act : σ → α → σ} {Ready : σ → α → Prop} {Apart : α → α → Prop}

/-- Every action of the list is ready when its turn comes. -/
def Runs (act : σ → α → σ) (Ready : σ → α → Prop) : σ → List α → Prop
  | _, [] => True
  | s, a :: l => Ready s a ∧ Runs act Ready (act s a) l

@[simp] theorem runs_nil (s : σ) : Runs act Ready s [] := trivial

@[simp] theorem runs_cons {s : σ} {a : α} {l : List α} :
    Runs act Ready s (a :: l) ↔ Ready s a ∧ Runs act Ready (act s a) l := Iff.rfl

/-- Neighbours that are apart may be exchanged: both are ready in either order, and the state
after them is the same. -/
def Exchanges (act : σ → α → σ) (Ready : σ → α → Prop) (Apart : α → α → Prop) : Prop :=
  ∀ s a b, Apart a b → Ready s a → Ready (act s a) b →
    Ready s b ∧ Ready (act s b) a ∧ act (act s a) b = act (act s b) a

/-- The schedule keeps the order of every two actions that are not apart. -/
def KeepsOrder (Apart : α → α → Prop) (l schedule : List α) : Prop :=
  ∀ a b, [a, b].Sublist l → ¬Apart a b → [a, b].Sublist schedule

/-- **An action apart from those before it may be run first.** -/
theorem runs_front (hex : Exchanges act Ready Apart) {a : α} {before after : List α}
    (hap : ∀ b ∈ before, Apart a b) {s : σ} (h : Runs act Ready s (a :: (before ++ after))) :
    Runs act Ready s (before ++ a :: after)
      ∧ (before ++ a :: after).foldl act s = (a :: (before ++ after)).foldl act s := by
  induction before generalizing s with
  | nil => exact ⟨h, rfl⟩
  | cons b before ih =>
    obtain ⟨ha, hb, hrest⟩ := h
    obtain ⟨hb', ha', heq⟩ := hex s a b (hap b (List.mem_cons_self ..)) ha hb
    rw [heq] at hrest
    obtain ⟨hruns, hsame⟩ := ih (fun c hc => hap c (List.mem_cons_of_mem b hc)) ⟨ha', hrest⟩
    refine ⟨⟨hb', hruns⟩, ?_⟩
    rw [List.cons_append, List.foldl_cons, hsame, List.foldl_cons, List.foldl_cons,
      List.cons_append, List.foldl_cons, heq]

/-- An action that those before it are apart from runs first as well. -/
theorem runs_to_front (hex : Exchanges act Ready Apart) {a : α} {before after : List α}
    (hap : ∀ b ∈ before, Apart b a) {s : σ} (h : Runs act Ready s (before ++ a :: after)) :
    Runs act Ready s (a :: (before ++ after))
      ∧ (before ++ a :: after).foldl act s = (a :: (before ++ after)).foldl act s := by
  induction before generalizing s with
  | nil => exact ⟨h, rfl⟩
  | cons b before ih =>
    obtain ⟨hb, hrest⟩ := h
    obtain ⟨⟨ha, hruns⟩, hsame⟩ := ih (fun c hc => hap c (List.mem_cons_of_mem b hc)) hrest
    obtain ⟨ha', hb', heq⟩ := hex s b a (hap b (List.mem_cons_self ..)) hb ha
    rw [heq] at hruns
    refine ⟨⟨ha', hb', hruns⟩, ?_⟩
    rw [List.cons_append, List.foldl_cons, hsame, List.foldl_cons, heq, List.cons_append,
      List.foldl_cons, List.foldl_cons]

theorem runs_append {s : σ} {l l' : List α} :
    Runs act Ready s (l ++ l') ↔ Runs act Ready s l ∧ Runs act Ready (l.foldl act s) l' := by
  induction l generalizing s with
  | nil => simp
  | cons a l ih => rw [List.cons_append, runs_cons, runs_cons, ih, List.foldl_cons, and_assoc]

/-- What a schedule runs before the first action of the list is apart from that action. -/
theorem KeepsOrder.apart_before {a : α} {l before after : List α}
    (horder : KeepsOrder Apart (a :: l) (before ++ a :: after))
    (hperm : (before ++ a :: after).Perm (a :: l)) (hnodup : (before ++ a :: after).Nodup) :
    ∀ b ∈ before, Apart a b := by
  have hdisjoint := (List.nodup_append.mp hnodup).2.2
  intro b hb
  by_contra hnot
  have hne : b ≠ a := hdisjoint b hb a (List.mem_cons_self ..)
  have hmem : b ∈ l := by
    have hin := hperm.mem_iff.mp (List.mem_append_left (a :: after) hb)
    exact (List.mem_cons.mp hin).resolve_left hne
  have hpair : [a, b].Sublist (a :: l) := (List.singleton_sublist.mpr hmem).cons_cons a
  -- in the schedule `a` would stand before `b`, which is among those before `a`
  obtain ⟨l₁, l₂, hsplit, hl₁, hl₂⟩ := List.sublist_append_iff.mp (horder a b hpair hnot)
  cases l₁ with
  | nil =>
    rw [List.nil_append] at hsplit
    rw [← hsplit] at hl₂
    have hafter : b ∈ after := List.singleton_sublist.mp (List.cons_sublist_cons.mp hl₂)
    exact hdisjoint b hb b (List.mem_cons_of_mem a hafter) rfl
  | cons c l₁ =>
    rw [List.cons_append, List.cons.injEq] at hsplit
    have hbefore : a ∈ before := hl₁.subset (hsplit.1 ▸ List.mem_cons_self ..)
    exact hdisjoint a hbefore a (List.mem_cons_self ..) rfl

/-- The schedule without the first action keeps the order of the others. -/
theorem KeepsOrder.tail {a : α} {l before after : List α}
    (horder : KeepsOrder Apart (a :: l) (before ++ a :: after)) (ha : a ∉ l) :
    KeepsOrder Apart l (before ++ after) := by
  intro b c hpair hnot
  have hother : a ∉ [b, c] := fun hin => ha (hpair.subset hin)
  obtain ⟨l₁, l₂, hsplit, hl₁, hl₂⟩ :=
    List.sublist_append_iff.mp (horder b c (hpair.cons a) hnot)
  rcases List.sublist_cons_iff.mp hl₂ with hafter | ⟨r, rfl, -⟩
  · rw [hsplit]
    exact hl₁.append hafter
  · exact absurd (hsplit ▸ List.mem_append_right l₁ (List.mem_cons_self ..)) hother

/-- **A schedule that keeps the order** of what is not apart runs, and ends in the same state. -/
theorem run_schedule (hex : Exchanges act Ready Apart) {l schedule : List α}
    (hperm : schedule.Perm l) (hnodup : l.Nodup) (horder : KeepsOrder Apart l schedule) {s : σ}
    (h : Runs act Ready s l) :
    Runs act Ready s schedule ∧ schedule.foldl act s = l.foldl act s := by
  induction l generalizing schedule s with
  | nil =>
    rw [hperm.eq_nil]
    exact ⟨trivial, rfl⟩
  | cons a l ih =>
    obtain ⟨before, after, rfl⟩ :=
      List.append_of_mem (hperm.mem_iff.mpr (List.mem_cons_self ..))
    have hnodup' := hperm.nodup_iff.mpr hnodup
    obtain ⟨ha, hl⟩ := List.nodup_cons.mp hnodup
    have hrest : (before ++ after).Perm l :=
      (List.perm_middle.symm.trans hperm).cons_inv
    obtain ⟨hready, hruns⟩ := h
    obtain ⟨hruns', hsame⟩ := ih hrest hl (horder.tail ha) hruns
    obtain ⟨hfront, heq⟩ := runs_front hex (horder.apart_before hperm hnodup') ⟨hready, hruns'⟩
    refine ⟨hfront, ?_⟩
    rw [heq, List.foldl_cons, hsame, List.foldl_cons]

end Schedule

namespace ByteMemory

open Schedule

variable {α : Type*}

/-- What each action reads and writes, in the memories in which it is ready: whether it is
ready and what it does depend on what it reads. -/
structure Footprint (act : Memory → α → Memory) (Ready : Memory → α → Prop)
    (reads writes : α → Set ℕ) : Prop where
  frame : ∀ m a, Ready m a → ∀ x, x ∉ writes a → act m a x = m x
  reading : ∀ m m' a, Ready m a → Set.EqOn m m' (reads a) → SameChange m m' (act m a) (act m' a)
  stable : ∀ m m' a, Ready m a → Set.EqOn m m' (reads a) → Ready m' a

/-- The bytes an action leaves that depend on what it reads only: from two memories that agree on
what is read they come out the same, whatever they held before. -/
def Outputs (act : Memory → α → Memory) (Ready : Memory → α → Prop) (reads : α → Set ℕ) (a : α) :
    Set ℕ :=
  {x | ∀ m m', Ready m a → Set.EqOn m m' (reads a) → act m a x = act m' a x}

/-- Two actions neither of which writes what the other reads or writes. -/
def FootprintsApart (reads writes : α → Set ℕ) (a b : α) : Prop :=
  (∀ x, x ∈ writes a → x ∉ reads b ∧ x ∉ writes b) ∧ ∀ x, x ∈ writes b → x ∉ reads a

namespace Footprint

variable {act : Memory → α → Memory} {Ready : Memory → α → Prop} {reads writes : α → Set ℕ}
  (h : Footprint act Ready reads writes)
include h

/-- An action leaves what is read by one apart from it. -/
theorem eqOn_reads {m : Memory} {a : α} {R : Set ℕ} (ha : Ready m a)
    (hap : ∀ x, x ∈ writes a → x ∉ R) : Set.EqOn m (act m a) R :=
  fun x hx => (h.frame m a ha x fun hw => hap x hw hx).symm

/-- **Actions whose footprints do not meet may be exchanged.** -/
theorem exchanges : Exchanges act Ready (FootprintsApart reads writes) := by
  rintro m a b ⟨hab, hba⟩ ha hb'
  have hreadsB := h.eqOn_reads ha fun x hx => (hab x hx).1
  have hb : Ready m b := h.stable _ _ b hb' hreadsB.symm
  have hreadsA := h.eqOn_reads hb hba
  have ha' : Ready (act m b) a := h.stable _ _ a ha hreadsA
  refine ⟨hb, ha', funext fun x => ?_⟩
  by_cases hxa : x ∈ writes a
  · -- written by `a` alone, which makes the same change after `b`
    have hxb := (hab x hxa).2
    rw [h.frame _ b hb' x hxb]
    rcases h.reading _ _ a ha hreadsA x with hsame | ⟨hleft, hleft'⟩
    · exact hsame
    · rw [hleft, hleft', h.frame _ b hb x hxb]
  · rw [h.frame _ a ha' x hxa]
    rcases h.reading _ _ b hb hreadsB x with hsame | ⟨hleft, hleft'⟩
    · exact hsame.symm
    · rw [hleft, hleft', h.frame _ a ha x hxa]

end Footprint

end ByteMemory
