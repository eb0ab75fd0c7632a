import Mathlib.Data.List.Perm.Basic
import Mathlib.Data.List.Nodup
import Mathlib.Data.List.Range
import Mathlib.Logic.Equiv.Basic
import Mathlib.Order.Lattice
import Mathlib.Tactic.Common

/-!
# Heaps in a table

A table is an array that keeps a record of the cells written.  The algorithms on its first `n`
cells — adding a cell to a heap, taking the largest one off, sorting a heap — move elements
about and write nowhere else.

The cells are ordered by a key.  Elements of one key are in any order, as for the functions of
the same names in the standard library of C++.

## Main definitions

* `Table` — the cells, and the indices written, in order.
* `Reorders` — the first `n` cells are put into another order, the others are left alone.
* `IsHeap`, `pushHeap`, `popHeap`, `sortHeap` — the heap order and the algorithms.

## Main results

* `pushHeap_reorders`, `sortHeap_reorders` — what the algorithms leave alone.
* `isHeap_pushHeap` — a heap with one more element.
* `sortHeap_sorted` — the cells of a heap in ascending order.
-/

namespace Heap

/-- An array with a record of the cells written. -/
structure Table (α : Type*) where
  cells : ℕ → α
  written : List ℕ

variable {α β : Type*}

namespace Table

/-- Write one cell. -/
def write (t : Table α) (i : ℕ) (a : α) : Table α where
  cells := Function.update t.cells i a
  written := t.written ++ [i]

/-- Exchange two cells. -/
def swap (t : Table α) (i j : ℕ) : Table α where
  cells := t.cells ∘ Equiv.swap i j
  written := t.written ++ [i, j]

/-- The first `n` cells. -/
def toList (t : Table α) (n : ℕ) : List α := (List.range n).map t.cells

variable (t : Table α) (i j : ℕ)

@[simp] theorem write_cells_self (a : α) : (t.write i a).cells i = a := Function.update_self _ _ _

theorem write_cells_of_ne {i j : ℕ} (h : j ≠ i) (a : α) : (t.write i a).cells j = t.cells j :=
  Function.update_of_ne h _ _

@[simp] theorem write_written (a : α) : (t.write i a).written = t.written ++ [i] := rfl

@[simp] theorem swap_cells_left : (t.swap i j).cells i = t.cells j :=
  congrArg t.cells (Equiv.swap_apply_left i j)

@[simp] theorem swap_cells_right : (t.swap i j).cells j = t.cells i :=
  congrArg t.cells (Equiv.swap_apply_right i j)

theorem swap_cells_of_ne {i j k : ℕ} (hi : k ≠ i) (hj : k ≠ j) :
    (t.swap i j).cells k = t.cells k :=
  congrArg t.cells (Equiv.swap_apply_of_ne_of_ne hi hj)

@[simp] theorem swap_written : (t.swap i j).written = t.written ++ [i, j] := rfl

theorem toList_succ (n : ℕ) : t.toList (n + 1) = t.toList n ++ [t.cells n] := by
  rw [toList, List.range_succ, List.map_append, List.map_singleton, toList]

theorem mem_toList {t : Table α} {n : ℕ} {a : α} : a ∈ t.toList n ↔ ∃ i, i < n ∧ t.cells i = a := by
  simp only [toList, List.mem_map, List.mem_range]

end Table

open Table

/-! ### Putting cells into another order -/

/-- The first `n` cells of `t` are put into another order, and nothing else is written. -/
structure Reorders (n : ℕ) (t t' : Table α) : Prop where
  perm : (t'.toList n).Perm (t.toList n)
  frame : ∀ i, n ≤ i → t'.cells i = t.cells i
  written : ∃ w, t'.written = t.written ++ w ∧ ∀ i ∈ w, i < n

namespace Reorders

variable {n : ℕ} {t t' t'' : Table α}

theorem refl (n : ℕ) (t : Table α) : Reorders n t t where
  perm := List.Perm.refl _
  frame := fun _ _ => rfl
  written := ⟨[], (List.append_nil _).symm, fun _ h => absurd h List.not_mem_nil⟩

theorem trans (h : Reorders n t t') (h' : Reorders n t' t'') : Reorders n t t'' where
  perm := h'.perm.trans h.perm
  frame := fun i hi => (h'.frame i hi).trans (h.frame i hi)
  written := by
    obtain ⟨w, hw, hlt⟩ := h.written
    obtain ⟨w', hw', hlt'⟩ := h'.written
    refine ⟨w ++ w', by rw [hw', hw, List.append_assoc], fun i hi => ?_⟩
    rcases List.mem_append.mp hi with hi | hi
    · exact hlt i hi
    · exact hlt' i hi

/-- What happens to the first cells happens to more of them. -/
theorem mono {k : ℕ} (h : Reorders k t t') (hk : k ≤ n) : Reorders n t t' where
  perm := by
    induction n, hk using Nat.le_induction with
    | base => exact h.perm
    | succ n hn ih =>
      rw [toList_succ, toList_succ, h.frame n hn]
      exact ih.append_right _
  frame := fun i hi => h.frame i (hk.trans hi)
  written := by
    obtain ⟨w, hw, hlt⟩ := h.written
    exact ⟨w, hw, fun i hi => (hlt i hi).trans_le hk⟩

theorem swap_lt {i j k : ℕ} (hi : i < n) (hj : j < n) (hk : k < n) : Equiv.swap i j k < n := by
  by_cases hki : k = i
  · rwa [hki, Equiv.swap_apply_left]
  · by_cases hkj : k = j
    · rwa [hkj, Equiv.swap_apply_right]
    · rwa [Equiv.swap_apply_of_ne_of_ne hki hkj]

/-- **An exchange** of two of the first `n` cells. -/
theorem swap (t : Table α) {i j : ℕ} (hi : i < n) (hj : j < n) : Reorders n t (t.swap i j) where
  perm := by
    have hrange : ((List.range n).map (Equiv.swap i j)).Perm (List.range n) := by
      refine (List.perm_ext_iff_of_nodup
        (List.Nodup.map (Equiv.swap i j).injective List.nodup_range)
        List.nodup_range).mpr fun k => ?_
      simp only [List.mem_map, List.mem_range]
      constructor
      · rintro ⟨l, hl, rfl⟩
        exact swap_lt hi hj hl
      · intro hk
        exact ⟨Equiv.swap i j k, swap_lt hi hj hk, Equiv.swap_apply_self i j k⟩
    have hmap := hrange.map t.cells
    rwa [List.map_map] at hmap
  frame := fun k hk => t.swap_cells_of_ne (by omega) (by omega)
  written := ⟨[i, j], rfl, by simp [hi, hj]⟩

/-- A cell afterwards is a cell before. -/
theorem exists_lt (h : Reorders n t t') {i : ℕ} (hi : i < n) :
    ∃ k, k < n ∧ t.cells k = t'.cells i :=
  mem_toList.mp (h.perm.mem_iff.mp (mem_toList.mpr ⟨i, hi, rfl⟩))

end Reorders

/-! ### The heap order -/

/-- The cell above a cell. -/
def parent (i : ℕ) : ℕ := (i - 1) / 2

theorem parent_lt {i : ℕ} (hi : 0 < i) : parent i < i := by
  unfold parent
  omega

theorem lt_of_parent_eq {i j : ℕ} (hj : 0 < j) (hji : parent j = i) : i < j :=
  hji ▸ parent_lt hj

/-- The two cells below a cell. -/
theorem parent_eq_iff {i j : ℕ} (hj : 0 < j) :
    parent j = i ↔ j = 2 * i + 1 ∨ j = 2 * i + 2 := by
  unfold parent
  omega

variable [LinearOrder β] (key : α → β)

/-- No cell is above a larger one. -/
def IsHeap (t : Table α) (n : ℕ) : Prop :=
  ∀ i, 0 < i → i < n → key (t.cells i) ≤ key (t.cells (parent i))

/-- The first `n` cells are in ascending order. -/
def SortedBelow (t : Table α) (n : ℕ) : Prop :=
  ∀ i j, i < j → j < n → key (t.cells i) ≤ key (t.cells j)

/-- Move the element of a cell up while it is larger than the one above. -/
def siftUp (t : Table α) (i : ℕ) : Table α :=
  if _h : 0 < i ∧ key (t.cells (parent i)) < key (t.cells i) then
    siftUp (t.swap i (parent i)) (parent i)
  else t
termination_by i
decreasing_by unfold parent; omega

/-- The last of the first `n` cells is added to the heap that the others are. -/
def pushHeap (t : Table α) (n : ℕ) : Table α := siftUp key t (n - 1)

/-- The larger of the two cells below, of those among the first `n`. -/
def largerChild (t : Table α) (n i : ℕ) : ℕ :=
  if 2 * i + 2 < n ∧ key (t.cells (2 * i + 1)) < key (t.cells (2 * i + 2)) then 2 * i + 2
  else 2 * i + 1

theorem lt_largerChild (t : Table α) (n i : ℕ) : i < largerChild key t n i := by
  unfold largerChild
  split <;> omega

/-- Move the element of a cell down while one below is larger. -/
def siftDown (t : Table α) (n i : ℕ) : Table α :=
  if _h : largerChild key t n i < n ∧ key (t.cells i) < key (t.cells (largerChild key t n i)) then
    siftDown (t.swap i (largerChild key t n i)) n (largerChild key t n i)
  else t
termination_by n - i
decreasing_by
  have := lt_largerChild key t n i
  omega

/-- The largest element goes to the last of the first `n` cells, the others are a heap. -/
def popHeap (t : Table α) (n : ℕ) : Table α := siftDown key (t.swap 0 (n - 1)) (n - 1) 0

/-- The elements of a heap, the largest one taken off time and again. -/
def sortHeap (t : Table α) : ℕ → Table α
  | n + 2 => sortHeap (popHeap key t (n + 2)) (n + 1)
  | _ => t

variable {key} {t : Table α} {n i : ℕ}

theorem IsHeap.mono {k : ℕ} (h : IsHeap key t n) (hk : k ≤ n) : IsHeap key t k :=
  fun i hi hlt => h i hi (hlt.trans_le hk)

/-- **The root** of a heap is its largest element. -/
theorem IsHeap.le_root (h : IsHeap key t n) : ∀ i, i < n → key (t.cells i) ≤ key (t.cells 0) := by
  intro i
  induction i using Nat.strong_induction_on with
  | _ i ih =>
    intro hi
    rcases Nat.eq_zero_or_pos i with rfl | hpos
    · exact le_refl _
    · have hlt := parent_lt hpos
      exact (h i hpos hi).trans (ih _ hlt (hlt.trans hi))

/-! ### Up -/

/-- What `siftUp` starts from: only the cell `i` may be larger than the one above, and what is
below `i` is in order with what is above it. -/
structure UpOrder (key : α → β) (t : Table α) (n i : ℕ) : Prop where
  other : ∀ j, 0 < j → j < n → j ≠ i → key (t.cells j) ≤ key (t.cells (parent j))
  grand : 0 < i → ∀ j, 0 < j → j < n → parent j = i → key (t.cells j) ≤ key (t.cells (parent i))

theorem UpOrder.move (h : UpOrder key t n i) (hi : 0 < i) (hin : i < n)
    (hlt : key (t.cells (parent i)) < key (t.cells i)) :
    UpOrder key (t.swap i (parent i)) n (parent i) := by
  have hp := parent_lt hi
  constructor
  · intro j hj hjn hjp
    by_cases hji : j = i
    · rw [hji, swap_cells_left, swap_cells_right]
      exact hlt.le
    · rw [swap_cells_of_ne t hji hjp]
      by_cases hpi : parent j = i
      · rw [hpi, swap_cells_left]
        exact h.grand hi j hj hjn hpi
      · by_cases hpp : parent j = parent i
        · -- the other cell below the same one
          have hle := h.other j hj hjn hji
          rw [hpp] at hle ⊢
          rw [swap_cells_right]
          exact hle.trans hlt.le
        · rw [swap_cells_of_ne t hpi hpp]
          exact h.other j hj hjn hji
  · intro hpos j hj hjn hjp
    have hpp := parent_lt hpos
    have hup := h.other (parent i) hpos (hp.trans hin) (by omega)
    rw [swap_cells_of_ne t (show parent (parent i) ≠ i by omega)
      (show parent (parent i) ≠ parent i by omega)]
    by_cases hji : j = i
    · rw [hji, swap_cells_left]
      exact hup
    · have hne : j ≠ parent i := by
        intro heq
        rw [heq] at hjp
        omega
      rw [swap_cells_of_ne t hji hne]
      have hle := h.other j hj hjn hji
      rw [hjp] at hle
      exact hle.trans hup

/-- **Moving up** restores the heap, within the cells up to the one it starts from. -/
theorem siftUp_spec (key : α → β) (t : Table α) (i : ℕ) (hin : i < n) :
    Reorders n t (siftUp key t i) ∧ (UpOrder key t n i → IsHeap key (siftUp key t i) n) := by
  induction t, i using siftUp.induct key with
  | case1 t i h ih =>
    have hp : parent i < n := (parent_lt h.1).trans hin
    obtain ⟨hreorders, hheap⟩ := ih hp
    rw [siftUp, dif_pos h]
    exact ⟨(Reorders.swap t hin hp).trans hreorders, fun hup => hheap (hup.move h.1 hin h.2)⟩
  | case2 t i h =>
    rw [siftUp, dif_neg h]
    refine ⟨Reorders.refl n t, fun hup j hj hjn => ?_⟩
    by_cases hji : j = i
    · subst hji
      exact not_lt.mp fun hlt => h ⟨hj, hlt⟩
    · exact hup.other j hj hjn hji

theorem pushHeap_reorders (key : α → β) (t : Table α) (hn : 0 < n) :
    Reorders n t (pushHeap key t n) :=
  (siftUp_spec key t (n - 1) (by omega)).1

/-- **One more element**: the first `n` cells are a heap, and after it the first `n + 1`. -/
theorem isHeap_pushHeap (h : IsHeap key t n) : IsHeap key (pushHeap key t (n + 1)) (n + 1) := by
  refine (siftUp_spec key t n (Nat.lt_succ_self n)).2 ⟨?_, ?_⟩
  · intro j hj hjn hne
    exact h j hj (by omega)
  · intro _ j hj hjn hjp
    exact absurd (lt_of_parent_eq hj hjp) (by omega)

/-! ### Down -/

/-- What `siftDown` starts from: only the cells below `i` may be larger than the one above, and
they are in order with what is above `i`. -/
structure DownOrder (key : α → β) (t : Table α) (n i : ℕ) : Prop where
  other : ∀ j, 0 < j → j < n → parent j ≠ i → key (t.cells j) ≤ key (t.cells (parent j))
  grand : 0 < i → ∀ j, 0 < j → j < n → parent j = i → key (t.cells j) ≤ key (t.cells (parent i))

theorem parent_largerChild (key : α → β) (t : Table α) (n i : ℕ) :
    parent (largerChild key t n i) = i := by
  refine (parent_eq_iff ((Nat.zero_le i).trans_lt (lt_largerChild key t n i))).mpr ?_
  unfold largerChild
  split
  · exact Or.inr rfl
  · exact Or.inl rfl

/-- The larger child is the largest one. -/
theorem le_largerChild (key : α → β) (t : Table α) {j : ℕ} (hj : 0 < j) (hjn : j < n)
    (hji : parent j = i) :
    largerChild key t n i < n ∧ key (t.cells j) ≤ key (t.cells (largerChild key t n i)) := by
  have hcases := (parent_eq_iff hj).mp hji
  unfold largerChild
  split
  · next h =>
    refine ⟨h.1, ?_⟩
    rcases hcases with rfl | rfl
    · exact h.2.le
    · exact le_refl _
  · next h =>
    rcases hcases with rfl | rfl
    · exact ⟨hjn, le_refl _⟩
    · exact ⟨by omega, not_lt.mp fun hlt => h ⟨hjn, hlt⟩⟩

theorem DownOrder.move (h : DownOrder key t n i) (hc : largerChild key t n i < n)
    (hlt : key (t.cells i) < key (t.cells (largerChild key t n i))) :
    DownOrder key (t.swap i (largerChild key t n i)) n (largerChild key t n i) := by
  have hparent := parent_largerChild key t n i
  have hgt := lt_largerChild key t n i
  have hlargest : ∀ j, 0 < j → j < n → parent j = i →
      key (t.cells j) ≤ key (t.cells (largerChild key t n i)) :=
    fun j hj hjn hji => (le_largerChild key t hj hjn hji).2
  generalize largerChild key t n i = c at *
  constructor
  · intro j hj hjn hpc
    by_cases hji : j = i
    · subst hji
      have hpj := parent_lt hj
      rw [swap_cells_left, swap_cells_of_ne t (show parent j ≠ j by omega) hpc]
      exact h.grand hj c (by omega) hc hparent
    · by_cases hjc : j = c
      · rw [hjc, hparent, swap_cells_left, swap_cells_right]
        exact hlt.le
      · rw [swap_cells_of_ne t hji hjc]
        by_cases hpi : parent j = i
        · rw [hpi, swap_cells_left]
          exact hlargest j hj hjn hpi
        · rw [swap_cells_of_ne t hpi hpc]
          exact h.other j hj hjn hpi
  · intro hpos j hj hjn hjc
    have hjgt := lt_of_parent_eq hj hjc
    have hle := h.other j hj hjn (by omega)
    rw [hjc] at hle
    rw [hparent, swap_cells_left, swap_cells_of_ne t (by omega) (by omega)]
    exact hle

/-- **Moving down** restores the heap of the first `n` cells. -/
theorem siftDown_spec (key : α → β) (t : Table α) (n i : ℕ) :
    Reorders n t (siftDown key t n i) ∧
      (DownOrder key t n i → IsHeap key (siftDown key t n i) n) := by
  induction t, i using siftDown.induct key n with
  | case1 t i h ih =>
    have hin : i < n := (lt_largerChild key t n i).trans h.1
    rw [siftDown, dif_pos h]
    exact ⟨(Reorders.swap t hin h.1).trans ih.1, fun hdown => ih.2 (hdown.move h.1 h.2)⟩
  | case2 t i h =>
    rw [siftDown, dif_neg h]
    refine ⟨Reorders.refl n t, fun hdown j hj hjn => ?_⟩
    by_cases hji : parent j = i
    · obtain ⟨hc, hle⟩ := le_largerChild key t hj hjn hji
      rw [hji]
      exact hle.trans (not_lt.mp fun hlt => h ⟨hc, hlt⟩)
    · exact hdown.other j hj hjn hji

/-! ### Sorting -/

/-- **Taking the largest element off**: it is in the last cell, the others are a heap. -/
theorem popHeap_spec (h : IsHeap key t (n + 1)) :
    Reorders (n + 1) t (popHeap key t (n + 1)) ∧ IsHeap key (popHeap key t (n + 1)) n ∧
      ∀ i, i < n →
        key ((popHeap key t (n + 1)).cells i) ≤ key ((popHeap key t (n + 1)).cells n) := by
  obtain ⟨hreorders, hheap⟩ := siftDown_spec key (t.swap 0 n) n 0
  have hall : Reorders (n + 1) t (popHeap key t (n + 1)) :=
    (Reorders.swap t (Nat.succ_pos n) (Nat.lt_succ_self n)).trans
      (hreorders.mono (Nat.le_succ n))
  have hlast : (popHeap key t (n + 1)).cells n = t.cells 0 := by
    rw [popHeap, Nat.add_sub_cancel, hreorders.frame n (le_refl n), swap_cells_right]
  refine ⟨hall, ?_, ?_⟩
  · refine hheap ⟨?_, fun hpos => absurd hpos (Nat.lt_irrefl 0)⟩
    intro j hj hjn hjp
    have hpj := parent_lt hj
    rw [swap_cells_of_ne t (by omega) (by omega), swap_cells_of_ne t hjp (by omega)]
    exact h j hj (by omega)
  · intro i hi
    obtain ⟨k, hk, hcell⟩ := hall.exists_lt (hi.trans (Nat.lt_succ_self n))
    rw [hlast, ← hcell]
    exact h.le_root k hk

/-- The first `n` cells are a heap of elements up to those of the sorted cells behind them. -/
structure SortOrder (key : α → β) (t : Table α) (n total : ℕ) : Prop where
  heap : IsHeap key t n
  below : ∀ i j, i < n → n ≤ j → j < total → key (t.cells i) ≤ key (t.cells j)
  sorted : ∀ i j, n ≤ i → i < j → j < total → key (t.cells i) ≤ key (t.cells j)

theorem SortOrder.pop {total : ℕ} (h : SortOrder key t (n + 1) total) :
    SortOrder key (popHeap key t (n + 1)) n total := by
  obtain ⟨hreorders, hheap, hlast⟩ := popHeap_spec h.heap
  -- an element of the heap, before and after, is below the sorted ones
  have hbelow : ∀ i j, i < n + 1 → n + 1 ≤ j → j < total →
      key ((popHeap key t (n + 1)).cells i) ≤ key ((popHeap key t (n + 1)).cells j) := by
    intro i j hi hj hlt
    obtain ⟨k, hk, hcell⟩ := hreorders.exists_lt hi
    rw [← hcell, hreorders.frame j hj]
    exact h.below k j hk hj hlt
  refine ⟨hheap, ?_, ?_⟩
  · intro i j hi hj hlt
    rcases Nat.eq_or_lt_of_le hj with rfl | hgt
    · exact hlast i hi
    · exact hbelow i j (by omega) hgt hlt
  · intro i j hi hij hlt
    rcases Nat.eq_or_lt_of_le hi with rfl | hgt
    · exact hbelow n j (Nat.lt_succ_self n) hij hlt
    · rw [hreorders.frame i hgt, hreorders.frame j (by omega)]
      exact h.sorted i j hgt hij hlt

theorem sortHeap_spec {total : ℕ} (t : Table α) (n : ℕ) (h : SortOrder key t n total) :
    Reorders n t (sortHeap key t n) ∧ SortedBelow key (sortHeap key t n) total := by
  induction t, n using sortHeap.induct key with
  | case1 t n ih =>
    obtain ⟨hreorders, hsorted⟩ := ih h.pop
    rw [sortHeap]
    exact ⟨(popHeap_spec h.heap).1.trans (hreorders.mono (Nat.le_succ _)), hsorted⟩
  | case2 n t hsmall =>
    have hn : n ≤ 1 := by
      by_contra hlarge
      exact hsmall (n - 2) (by omega)
    have hid : sortHeap key t n = t := by
      unfold sortHeap
      split
      · next k => omega
      · rfl
    rw [hid]
    refine ⟨Reorders.refl n t, fun i j hij hj => ?_⟩
    by_cases hi : i < n
    · exact h.below i j hi (by omega) hj
    · exact h.sorted i j (by omega) hij hj

theorem sortOrder_of_isHeap (h : IsHeap key t n) : SortOrder key t n n where
  heap := h
  below := fun _ _ _ hj hlt => absurd hj (by omega)
  sorted := fun _ _ hi hij hlt => absurd hi (by omega)

theorem sortHeap_reorders (h : IsHeap key t n) : Reorders n t (sortHeap key t n) :=
  (sortHeap_spec t n (sortOrder_of_isHeap h)).1

/-- **A heap is sorted** in ascending order. -/
theorem sortHeap_sorted (h : IsHeap key t n) : SortedBelow key (sortHeap key t n) n :=
  (sortHeap_spec t n (sortOrder_of_isHeap h)).2

end Heap
