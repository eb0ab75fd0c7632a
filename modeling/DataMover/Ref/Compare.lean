import DataMover.Lib.Loop
import DataMover.Lib.Memory

/-!
# Reference comparison kernels

`dml_ref_compare` and `dml_ref_compare_pattern` of `sw_dispatcher/ref`.  Both
return an offset and a result; the pattern comparison works on 8-byte chunks and
finishes byte by byte, so the offset it reports is the start of the chunk of the
first differing byte, or that byte itself in the tail.

## Main results

* `dmlRefCompare_eq` — the comparison through the first differing index.
* `dmlRefComparePattern_eq` — the same for the pattern, with the reported offset
  rounded to the chunk by `chunkStart`.
-/

namespace DataMover

open ByteMemory

/-- The result of a comparison that found no difference. -/
def resultEqual : ℕ := 0x0

/-- The result of a comparison that found a difference. -/
def resultNotEqual : ℕ := 0x1

/-! ### Two buffers -/

/-- The two buffers differ at an index. -/
def differsAt (m : Memory) (src1 src2 index : ℕ) : Bool := m (src1 + index) != m (src2 + index)

/-- `dml_ref_compare`: the offset and the result. -/
def dmlRefCompare (m : Memory) (src1 src2 transferSize : ℕ) : ℕ × ℕ :=
  match Loop.search (differsAt m src1 src2) transferSize with
  | some index => (index % 2 ^ 32, resultNotEqual)
  | none => (0, resultEqual)

theorem differsAt_shift (m : Memory) (src1 src2 k : ℕ) :
    differsAt m (src1 + k) (src2 + k) = fun i => differsAt m src1 src2 (k + i) := by
  funext i
  unfold differsAt
  rw [Nat.add_assoc, Nat.add_assoc]

/-- **Comparing the rest after an equal prefix** gives the same result, and an
offset relative to the prefix. -/
theorem dmlRefCompare_add {m : Memory} {src1 src2 k n : ℕ} (hn : k + n < 2 ^ 32)
    (hk : ∀ i, i < k → differsAt m src1 src2 i = false) :
    dmlRefCompare m src1 src2 (k + n)
      = match Loop.search (differsAt m (src1 + k) (src2 + k)) n with
        | some index => (k + index, resultNotEqual)
        | none => (0, resultEqual) := by
  unfold dmlRefCompare
  rw [Loop.search_add hk n, differsAt_shift]
  cases h : Loop.search (fun i => differsAt m src1 src2 (k + i)) n with
  | none => rfl
  | some index =>
    have hlt := (Loop.search_eq_some.mp h).1
    simp only [Option.map_some]
    rw [Nat.mod_eq_of_lt (by omega)]

/-- The comparison reads its two buffers only. -/
theorem dmlRefCompare_congr {m m' : Memory} {src1 src2 n : ℕ}
    (h1 : ∀ i, i < n → m (src1 + i) = m' (src1 + i))
    (h2 : ∀ i, i < n → m (src2 + i) = m' (src2 + i)) :
    dmlRefCompare m src1 src2 n = dmlRefCompare m' src1 src2 n := by
  have hsearch : Loop.search (differsAt m src1 src2) n = Loop.search (differsAt m' src1 src2) n :=
    Loop.search_congr fun i hi => by rw [differsAt, differsAt, h1 i hi, h2 i hi]
  rw [dmlRefCompare, dmlRefCompare, hsearch]

/-- Offset and result fit their fields of the record. -/
theorem dmlRefCompare_lt (m : Memory) (src1 src2 n : ℕ) :
    (dmlRefCompare m src1 src2 n).1 < 2 ^ 32 ∧ (dmlRefCompare m src1 src2 n).2 < 2 ^ 8 := by
  unfold dmlRefCompare
  split
  · exact ⟨Nat.mod_lt _ (by decide), (by decide : resultNotEqual < 2 ^ 8)⟩
  · exact ⟨by decide, (by decide : resultEqual < 2 ^ 8)⟩

/-! ### A buffer and a pattern -/

/-- The buffer differs from the repeated pattern at an index. -/
def differsFromPattern (m : Memory) (pattern src index : ℕ) : Bool :=
  m (src + index) != byteAt pattern (index % 8)

/-- `dml_ref_compare_pattern`: the offset and the result. -/
def dmlRefComparePattern (m : Memory) (pattern src transferSize : ℕ) : ℕ × ℕ :=
  let headSize := transferSize / 8
  let tailSize := transferSize % 8
  let tail := src + 8 * headSize
  match Loop.search (fun index => load m (src + 8 * index) 8 != pattern) headSize with
  | some index => (index * 8 % 2 ^ 32, resultNotEqual)
  | none =>
    match Loop.search (fun index => m (tail + index) != byteAt pattern index) tailSize with
    | some index => ((8 * headSize + index) % 2 ^ 32, resultNotEqual)
    | none => (0, resultEqual)

/-- The offset reported for a first difference at `index`: the start of its
chunk, or the index itself in the tail. -/
def chunkStart (transferSize index : ℕ) : ℕ :=
  if index < 8 * (transferSize / 8) then 8 * (index / 8) else index

theorem chunkStart_le (n index : ℕ) : chunkStart n index ≤ index := by
  unfold chunkStart
  split <;> omega

/-- A chunk differs from the pattern when one of its bytes does. -/
theorem load_ne_pattern_iff {m : Memory} {pattern a : ℕ} (hp : pattern < 2 ^ 64) :
    load m a 8 = pattern ↔ ∀ t, t < 8 → m (a + t) = byteAt pattern t :=
  load_eq_iff hp

theorem differsFromPattern_chunk (m : Memory) (pattern src c : ℕ) {t : ℕ} (ht : t < 8) :
    differsFromPattern m pattern src (8 * c + t) = (m (src + 8 * c + t) != byteAt pattern t) := by
  unfold differsFromPattern
  rw [Nat.add_assoc, show (8 * c + t) % 8 = t by omega]

/-- **The pattern comparison through the first differing byte.** -/
theorem dmlRefComparePattern_eq {m : Memory} {pattern src n : ℕ} (hp : pattern < 2 ^ 64)
    (hn : n < 2 ^ 32) :
    dmlRefComparePattern m pattern src n
      = match Loop.search (differsFromPattern m pattern src) n with
        | some index => (chunkStart n index, resultNotEqual)
        | none => (0, resultEqual) := by
  -- an equal chunk is equal byte by byte
  have hchunk : ∀ c, load m (src + 8 * c) 8 = pattern →
      ∀ t, t < 8 → differsFromPattern m pattern src (8 * c + t) = false := by
    intro c hc t ht
    rw [differsFromPattern_chunk m pattern src c ht, (load_ne_pattern_iff hp).mp hc t ht]
    simp
  have hbelow : ∀ h, (∀ c, c < h → load m (src + 8 * c) 8 = pattern) →
      ∀ i, i < 8 * h → differsFromPattern m pattern src i = false := by
    intro h hall i hi
    have := hchunk (i / 8) (hall _ (by omega)) (i % 8) (by omega)
    rwa [Nat.div_add_mod] at this
  unfold dmlRefComparePattern
  simp only
  cases hhead : Loop.search (fun index => load m (src + 8 * index) 8 != pattern) (n / 8) with
  | some c =>
    obtain ⟨hc, hne, hbefore⟩ := Loop.search_eq_some.mp hhead
    simp only [bne_iff_ne, ne_eq, bne_eq_false_iff_eq] at hne hbefore
    -- the first differing byte lies in chunk `c`
    cases hin : Loop.search (fun t => differsFromPattern m pattern src (8 * c + t)) 8 with
    | none =>
      rw [Loop.search_eq_none] at hin
      refine absurd ((load_ne_pattern_iff hp).mpr fun t ht => ?_) hne
      have := hin t ht
      rw [differsFromPattern_chunk m pattern src c ht] at this
      simpa using this
    | some t =>
      obtain ⟨ht, -, -⟩ := Loop.search_eq_some.mp hin
      have hchunks := Loop.search_add (hbelow c hbefore) 8
      rw [hin, Option.map_some] at hchunks
      have hsome := Loop.search_of_le hchunks (show 8 * c + 8 ≤ n by omega)
      rw [hsome]
      simp only [chunkStart]
      rw [if_pos (by omega), show (8 * c + t) / 8 = c by omega, Nat.mul_comm c 8,
        Nat.mod_eq_of_lt (by omega)]
  | none =>
    rw [Loop.search_eq_none] at hhead
    simp only [bne_eq_false_iff_eq] at hhead
    have hprefix := hbelow (n / 8) hhead
    have hsplit := Loop.search_add hprefix (n % 8)
    rw [Nat.div_add_mod] at hsplit
    have htail : Loop.search (fun t => differsFromPattern m pattern src (8 * (n / 8) + t)) (n % 8)
        = Loop.search (fun index => m (src + 8 * (n / 8) + index) != byteAt pattern index)
            (n % 8) := by
      refine Loop.search_congr fun t ht => ?_
      exact differsFromPattern_chunk m pattern src _ (by omega)
    rw [hsplit, htail]
    cases ht : Loop.search (fun index => m (src + 8 * (n / 8) + index) != byteAt pattern index)
        (n % 8) with
    | none => rfl
    | some t =>
      have hlt := (Loop.search_eq_some.mp ht).1
      simp only [Option.map_some, chunkStart]
      rw [if_neg (by omega), Nat.mod_eq_of_lt (by omega)]

/-- The pattern comparison reads its buffer only. -/
theorem search_differsFromPattern_congr {m m' : Memory} {pattern src n : ℕ}
    (h : ∀ i, i < n → m (src + i) = m' (src + i)) :
    Loop.search (differsFromPattern m pattern src) n
      = Loop.search (differsFromPattern m' pattern src) n :=
  Loop.search_congr fun i hi => by rw [differsFromPattern, differsFromPattern, h i hi]

end DataMover
