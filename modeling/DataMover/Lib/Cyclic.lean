import Mathlib.Data.List.Nodup
import Mathlib.Data.List.Range
import Mathlib.Data.Nat.ModEq
import Mathlib.Tactic.Common

/-!
# Going round a circle

Places `0` to `n - 1` in a circle, visited one after the other from some start: `turns n
start k` is the list of the next `k` of them.

## Main results

* `turns_succ`, `turns_add` — one more step, and a walk in two parts.
* `nodup_turns` — a walk of at most one round visits no place twice.
* `mem_turns_round` — a whole round visits every place.
-/

namespace Cyclic

/-- The `k` places from `start` on. -/
def turns (n start k : ℕ) : List ℕ := (List.range k).map fun j => (start + j) % n

variable {n start k : ℕ}

@[simp] theorem turns_zero (n start : ℕ) : turns n start 0 = [] := rfl

/-- The start counts modulo the size of the circle. -/
theorem turns_mod (n start k : ℕ) : turns n (start % n) k = turns n start k := by
  rw [turns, turns]
  refine List.map_congr_left fun j _ => ?_
  rw [Nat.mod_add_mod]

/-- A walk in two parts. -/
theorem turns_add (n start k l : ℕ) :
    turns n start (k + l) = turns n start k ++ turns n (start + k) l := by
  rw [turns, turns, turns, List.range_add, List.map_append, List.map_map]
  congr 1
  refine List.map_congr_left fun j _ => ?_
  rw [Function.comp_apply, Nat.add_assoc]

/-- The first place of a walk. -/
theorem turns_succ (n start k : ℕ) :
    turns n start (k + 1) = start % n :: turns n (start + 1) k := by
  rw [Nat.add_comm k 1, turns_add]
  rfl

theorem lt_of_mem_turns (hn : 0 < n) {d : ℕ} (h : d ∈ turns n start k) : d < n := by
  obtain ⟨j, -, rfl⟩ := List.mem_map.mp h
  exact Nat.mod_lt _ hn

/-- **At most one round** visits no place twice. -/
theorem nodup_turns (hk : k ≤ n) : (turns n start k).Nodup := by
  refine List.Nodup.map_on ?_ List.nodup_range
  intro i hi j hj hij
  rw [List.mem_range] at hi hj
  have hmod : i ≡ j [MOD n] := Nat.ModEq.add_left_cancel' start hij
  exact Nat.ModEq.eq_of_lt_of_lt hmod (lt_of_lt_of_le hi hk) (lt_of_lt_of_le hj hk)

/-- **A whole round** visits every place. -/
theorem mem_turns_round {d : ℕ} (hd : d < n) : d ∈ turns n start n := by
  have hn : 0 < n := lt_of_le_of_lt (Nat.zero_le d) hd
  -- from the start on, the place comes up after so many steps
  refine List.mem_map.mpr ⟨(d + (n - start % n)) % n, List.mem_range.mpr (Nat.mod_lt _ hn), ?_⟩
  have hstart : start % n < n := Nat.mod_lt _ hn
  rw [Nat.add_mod_mod, ← Nat.mod_add_mod]
  have hsum : start % n + (d + (n - start % n)) = d + n := by omega
  rw [hsum, Nat.add_mod_right, Nat.mod_eq_of_lt hd]

end Cyclic
