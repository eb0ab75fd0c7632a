import DataMover.Locality

/-!
# Running a list of descriptors

A batch is a list of descriptors, each with a record of its own, executed one after
the other.  What a descriptor writes is apart from the list and from the records of
the others, so a run can be followed descriptor by descriptor; what it reads may be
written by another.  When it is not, the descriptors are independent, and executing
them a second time changes nothing.

## Main definitions

* `runFirst`, `runRest` — the first descriptors of a list, and those from a place on.
* `BatchPlaced` — what the descriptors write is apart from the list, the batch and
  the records of one another.
* `Independent` — no descriptor writes what one of them reads.

## Main results

* `runFirst_apply` — a run of the list writes what its descriptors may write.
* `runFirst_sameChange` — a run reads the list and the sources of its descriptors.
* `runRest_agree` — the batch record makes no difference to a run.
* `runFirst_replay` — independent descriptors may be executed a second time.
-/

namespace DataMover

open ByteMemory

/-! ### A list of descriptors -/

/-- Descriptor `i` of the list at `operations`. -/
def innerDescriptor (operations i : ℕ) : ℕ := operations + descriptorSize * i

/-- The first `n` descriptors of a list, each executed once and in order. -/
def runFirst (m : Memory) (operations n : ℕ) : Memory :=
  Loop.iter (fun i m => (SoftwareDevice.submit m (innerDescriptor operations i)).1) n m

/-- The next `n` descriptors of a list whose first `k` are done. -/
def runRest (m : Memory) (operations k n : ℕ) : Memory :=
  runFirst m (innerDescriptor operations k) n

theorem runFirst_succ (m : Memory) (operations n : ℕ) :
    runFirst m operations (n + 1)
      = (SoftwareDevice.submit (runFirst m operations n) (innerDescriptor operations n)).1 := rfl

theorem innerDescriptor_add (operations k i : ℕ) :
    innerDescriptor (innerDescriptor operations k) i = innerDescriptor operations (k + i) := by
  unfold innerDescriptor
  rw [Nat.mul_add, Nat.add_assoc]

theorem runRest_succ (m : Memory) (operations k n : ℕ) :
    runRest m operations k (n + 1)
      = (SoftwareDevice.submit (runRest m operations k n)
          (innerDescriptor operations (k + n))).1 := by
  rw [runRest, runFirst_succ, innerDescriptor_add]
  rfl

/-- **A run in two parts.** -/
theorem runFirst_add (m : Memory) (operations k n : ℕ) :
    runFirst m operations (k + n) = runRest (runFirst m operations k) operations k n := by
  induction n with
  | zero => rfl
  | succ n ih => rw [← Nat.add_assoc, runFirst_succ, ih, runRest_succ]

/-- The operations the batch kernel supports. -/
def batchOperations : List Operation :=
  [.nop, .memMove, .fill, .compare, .comparePattern, .createDelta, .applyDelta, .dualcast, .crc,
    .copyCrc, .difCheck, .difInsert, .difStrip, .difUpdate, .cacheFlush]

/-- The record of descriptor `i`. -/
def innerRecord (m : Memory) (operations i : ℕ) : ℕ :=
  getCompletionRecord m (innerDescriptor operations i)

/-- What descriptor `i` uses: its record and its buffers. -/
def innerRegions (m : Memory) (operations i : ℕ) : List Region :=
  ⟨innerRecord m operations i, recordSize⟩ :: operands m (innerDescriptor operations i)

/-- What descriptor `i` reads. -/
def innerSources (m : Memory) (operations i : ℕ) : List Region :=
  sources m (innerDescriptor operations i)

/-- What descriptor `i` writes: its record and its destinations. -/
def innerWrites (m : Memory) (operations i : ℕ) : List Region :=
  ⟨innerRecord m operations i, recordSize⟩ :: destinations m (innerDescriptor operations i)

theorem innerSources_subset (m : Memory) (operations i : ℕ) :
    innerSources m operations i ⊆ innerRegions m operations i :=
  fun _ hR => List.mem_cons_of_mem _ (sources_subset_operands _ _ hR)

theorem innerWrites_subset (m : Memory) (operations i : ℕ) :
    innerWrites m operations i ⊆ innerRegions m operations i :=
  List.cons_subset_cons _ (destinations_subset_operands _ _)

/-- The arguments of a batch descriptor, whose list holds supported operations. -/
structure BatchArgs (m : Memory) (dsc operations count : ℕ) : Prop where
  operation : operationOf m dsc = some .batch
  list : BatchDescriptor.descriptorListAddress.get m dsc = operations
  size : BatchDescriptor.descriptorsCount.get m dsc = count
  supported : ∀ i, i < count →
    ∃ op ∈ batchOperations, operationOf m (innerDescriptor operations i) = some op

/-- The objects of a batch are apart: no descriptor of the list writes the list, the
batch descriptor, the batch record or the record of another. -/
structure BatchPlaced (m : Memory) (dsc operations count : ℕ) : Prop where
  record_apart : Region.Apart ⟨getCompletionRecord m dsc, recordSize⟩ ⟨dsc, descriptorSize⟩
  list_apart : Region.Apart ⟨getCompletionRecord m dsc, recordSize⟩
    ⟨operations, descriptorSize * count⟩
  apart_descriptor : ∀ i, i < count → ∀ R ∈ innerRegions m operations i,
    R.Apart ⟨dsc, descriptorSize⟩
  apart_list : ∀ i, i < count → ∀ R ∈ innerRegions m operations i,
    R.Apart ⟨operations, descriptorSize * count⟩
  apart_record : ∀ i, i < count → ∀ R ∈ innerRegions m operations i,
    R.Apart ⟨getCompletionRecord m dsc, recordSize⟩
  apart_inner : ∀ i, i < count → ∀ j, j < count → i ≠ j → ∀ R ∈ innerRegions m operations i,
    R.Apart ⟨innerRecord m operations j, recordSize⟩

/-- In a run from `m`, the notes each `apply_delta` finds point into its destination. -/
def NotesSafe (m : Memory) (operations count : ℕ) : Prop :=
  ∀ i, i < count → DeltaWithin (runFirst m operations i) (innerDescriptor operations i)

/-- The kernel of a supported operation is the one the device would run. -/
theorem batchSwitch_eq {m : Memory} {dsc : ℕ} {op : Operation} (hop : operationOf m dsc = some op)
    (hsupported : op ∈ batchOperations) :
    Kernels.batchSwitch m dsc = some (SoftwareDevice.submit m dsc).1 := by
  rw [Kernels.batchSwitch, SoftwareDevice.submit, hop]
  cases op with
  | batch | drain => exact absurd hsupported (by decide)
  | _ => rfl

section Run

variable {m₀ t : Memory} {dsc operations count : ℕ} (hargs : BatchArgs m₀ dsc operations count)
  (hplaced : BatchPlaced m₀ dsc operations count)
  (ht : Set.EqOn t m₀ (Region.addrs ⟨operations, descriptorSize * count⟩))

include ht in
/-- A descriptor of the list is the same in every memory that has the list. -/
theorem eqOn_innerDescriptor {i : ℕ} (hi : i < count) :
    Set.EqOn t m₀ (Region.addrs ⟨innerDescriptor operations i, descriptorSize⟩) := by
  intro x hx
  have hle : descriptorSize * i + descriptorSize ≤ descriptorSize * count := by
    have := Nat.mul_le_mul_left descriptorSize hi
    rwa [Nat.mul_succ] at this
  rw [Region.mem_addrs, innerDescriptor] at hx
  simp only at hx
  exact ht (Region.mem_addrs.mpr ⟨by simp only; omega, by simp only; omega⟩)

include hargs ht in
theorem inner_ne_batch {i : ℕ} (hi : i < count) :
    operationOf t (innerDescriptor operations i) ≠ some .batch := by
  obtain ⟨op, hsupported, hop⟩ := hargs.supported i hi
  rw [operationOf_congr (eqOn_innerDescriptor ht hi), hop]
  intro hbatch
  rw [Option.some.inj hbatch] at hsupported
  exact absurd hsupported (by decide)

include hargs ht in
/-- **A descriptor of the list writes its record and its destinations.** -/
theorem submit_inner_apply {i x : ℕ} (hi : i < count)
    (hdelta : DeltaWithin t (innerDescriptor operations i))
    (hx : ∀ R ∈ innerWrites m₀ operations i, x ∉ R.addrs) :
    (SoftwareDevice.submit t (innerDescriptor operations i)).1 x = t x := by
  have hdsc := eqOn_innerDescriptor ht hi
  refine submit_of_notMem_destinations (inner_ne_batch hargs ht hi) hdelta ?_ ?_
  · rw [getCompletionRecord_congr hdsc]
    exact hx _ (List.mem_cons_self ..)
  · rw [destinations_congr hdsc]
    exact fun R hR => hx R (List.mem_cons_of_mem _ hR)

include hargs ht in
/-- A descriptor of the list reads itself and its sources. -/
theorem submit_inner_sameChange {t' : Memory} {i : ℕ} (hi : i < count)
    (hlist : Set.EqOn t t' (Region.addrs ⟨operations, descriptorSize * count⟩))
    (hread : ∀ R ∈ innerSources m₀ operations i, Set.EqOn t t' R.addrs) :
    SameChange t t' (SoftwareDevice.submit t (innerDescriptor operations i)).1
      (SoftwareDevice.submit t' (innerDescriptor operations i)).1 := by
  refine submit_sameChange (inner_ne_batch hargs ht hi) (eqOn_innerDescriptor hlist hi) ?_
  rw [sources_congr (eqOn_innerDescriptor ht hi)]
  exact hread

include hargs hplaced ht

/-- A run leaves the list as it is. -/
theorem runFirst_list {n : ℕ} (hn : n ≤ count) (hnotes : NotesSafe t operations n) :
    Set.EqOn (runFirst t operations n) m₀ (Region.addrs ⟨operations, descriptorSize * count⟩) := by
  induction n with
  | zero => exact ht
  | succ n ih =>
    intro x hx
    have hbefore := ih (by omega) fun i hi => hnotes i (by omega)
    rw [runFirst_succ]
    refine (submit_inner_apply hargs hbefore hn (hnotes n (Nat.lt_succ_self n))
      fun R hR => ?_).trans (hbefore hx)
    exact (hplaced.apart_list n hn R (innerWrites_subset _ _ _ hR)).symm.notMem hx

/-- Without an `apply_delta` there are no notes to go wrong. -/
theorem notesSafe_of_ne
    (hne : ∀ i, i < count → operationOf m₀ (innerDescriptor operations i) ≠ some .applyDelta) :
    NotesSafe t operations count := by
  suffices h : ∀ n, n ≤ count → NotesSafe t operations n from h count le_rfl
  intro n
  induction n with
  | zero => exact fun _ i hi => absurd hi (Nat.not_lt_zero i)
  | succ n ih =>
    intro hn i hi
    have hsafe := ih (by omega)
    rcases Nat.lt_succ_iff_lt_or_eq.mp hi with hlt | rfl
    · exact hsafe i hlt
    · have hlist := runFirst_list hargs hplaced ht (by omega) hsafe
      intro happly
      rw [operationOf_congr (eqOn_innerDescriptor hlist hn)] at happly
      exact absurd happly (hne i hn)

variable (hnotes : NotesSafe t operations count)
include hnotes

theorem runFirst_list_of_le {n : ℕ} (hn : n ≤ count) :
    Set.EqOn (runFirst t operations n) m₀ (Region.addrs ⟨operations, descriptorSize * count⟩) :=
  runFirst_list hargs hplaced ht hn fun i hi => hnotes i (by omega)

/-- **A run writes what its descriptors write.** -/
theorem runFirst_apply {n x : ℕ} (hn : n ≤ count)
    (hx : ∀ i, i < n → ∀ R ∈ innerWrites m₀ operations i, x ∉ R.addrs) :
    runFirst t operations n x = t x := by
  induction n with
  | zero => rfl
  | succ n ih =>
    have hlist := runFirst_list_of_le hargs hplaced ht hnotes (show n ≤ count by omega)
    rw [runFirst_succ]
    refine (submit_inner_apply hargs hlist hn (hnotes n hn) (hx n (by omega))).trans ?_
    exact ih (by omega) fun i hi => hx i (by omega)

/-- A descriptor that has not run has its record untouched. -/
theorem runFirst_untouched {i n : ℕ} (hni : n ≤ i) (hi : i < count) :
    AnyCompletionRecord.status.get (runFirst t operations n) (innerRecord m₀ operations i)
      = AnyCompletionRecord.status.get t (innerRecord m₀ operations i) := by
  refine Field.get_congr (by decide) fun x
    (hx : x ∈ Region.addrs ⟨innerRecord m₀ operations i, recordSize⟩) => ?_
  refine runFirst_apply hargs hplaced ht hnotes (by omega) fun j hj R hR => ?_
  exact (hplaced.apart_inner j (by omega) i hi (by omega) R
    (innerWrites_subset _ _ _ hR)).symm.notMem hx

/-- A descriptor that has run keeps its record. -/
theorem runFirst_record {i n : ℕ} (hin : i < n) (hn : n ≤ count) :
    Set.EqOn (runFirst t operations n) (runFirst t operations (i + 1))
      (Region.addrs ⟨innerRecord m₀ operations i, recordSize⟩) := by
  intro x hx
  obtain ⟨j, rfl⟩ := Nat.exists_eq_add_of_le hin
  clear hin
  induction j with
  | zero => rfl
  | succ j ih =>
    have hlist := runFirst_list_of_le hargs hplaced ht hnotes (show i + 1 + j ≤ count by omega)
    rw [← ih (by omega), ← Nat.add_assoc, runFirst_succ]
    refine submit_inner_apply hargs hlist hn (hnotes _ hn) fun R hR => ?_
    exact (hplaced.apart_inner (i + 1 + j) hn i (by omega) (by omega) R
      (innerWrites_subset _ _ _ hR)).symm.notMem hx

/-- **A descriptor that has run has a final status.** -/
theorem runFirst_status {i n : ℕ} (hin : i < n) (hn : n ≤ count) :
    ∃ s, FinalStatus s ∧ AnyCompletionRecord.status.get (runFirst t operations n)
      (innerRecord m₀ operations i) = s.toUnderlying := by
  have hlist := runFirst_list_of_le hargs hplaced ht hnotes (show i ≤ count by omega)
  have hdsc := eqOn_innerDescriptor hlist (show i < count by omega)
  obtain ⟨op, -, hop⟩ := hargs.supported i (by omega)
  obtain ⟨u, s, hs, heq⟩ := exists_submit_eq_setStatus (m := runFirst t operations i)
    (by rw [operationOf_congr hdsc, hop]; simp)
  refine ⟨s, hs, ?_⟩
  rw [Field.get_congr (by decide) (runFirst_record hargs hplaced ht hnotes hin hn), runFirst_succ,
    heq, getCompletionRecord_congr hdsc]
  exact status_setStatus _ _ _

/-- **A run reads the list and the sources of its descriptors.** -/
theorem runFirst_sameChange {t' : Memory} {n : ℕ} (hn : n ≤ count)
    (hlist : Set.EqOn t t' (Region.addrs ⟨operations, descriptorSize * count⟩))
    (hread : ∀ i, i < n → ∀ R ∈ innerSources m₀ operations i, Set.EqOn t t' R.addrs) :
    SameChange t t' (runFirst t operations n) (runFirst t' operations n) := by
  induction n with
  | zero => exact SameChange.refl t t'
  | succ n ih =>
    have hbefore := ih (by omega) fun i hi => hread i (by omega)
    rw [runFirst_succ, runFirst_succ]
    refine hbefore.trans (submit_inner_sameChange hargs
      (runFirst_list_of_le hargs hplaced ht hnotes (by omega)) hn (hbefore.eqOn hlist) ?_)
    exact fun R hR => hbefore.eqOn (hread n (Nat.lt_succ_self n) R hR)

/-- **The batch record makes no difference to a run**: a run taken up after `k`
descriptors in a memory that differs in the batch record only. -/
theorem runRest_agree {u : Memory} {k n : ℕ} (hn : k + n ≤ count)
    (hagree : ∀ x, x ∉ Region.addrs ⟨getCompletionRecord m₀ dsc, recordSize⟩ →
      runFirst t operations k x = u x) :
    ∀ x, x ∉ Region.addrs ⟨getCompletionRecord m₀ dsc, recordSize⟩ →
      runFirst t operations (k + n) x = runRest u operations k n x := by
  induction n with
  | zero => exact hagree
  | succ n ih =>
    intro x hx
    have hbefore := ih (by omega)
    rw [← Nat.add_assoc, runFirst_succ, runRest_succ]
    refine (submit_inner_sameChange hargs
      (runFirst_list_of_le hargs hplaced ht hnotes (show k + n ≤ count by omega)) hn
      (fun y hy => hbefore y (hplaced.list_apart.symm.notMem hy)) fun R hR y hy => ?_).apply_eq
      (hbefore x hx)
    exact hbefore y ((hplaced.apart_record (k + n) hn R (innerSources_subset _ _ _ hR)).notMem hy)

end Run

/-! ### Independent descriptors -/

/-- None of the first `n` descriptors writes what one of them reads. -/
def Independent (m : Memory) (operations n : ℕ) : Prop :=
  ∀ i, i < n → ∀ j, j < n → ∀ R ∈ innerSources m operations i, ∀ W ∈ innerWrites m operations j,
    R.Apart W

section Replay

variable {m₀ m : Memory} {dsc operations count k : ℕ} (hargs : BatchArgs m₀ dsc operations count)
  (hplaced : BatchPlaced m₀ dsc operations count) (hnotes : NotesSafe m₀ operations count)
  (hk : k ≤ count) (hind : Independent m₀ operations k)
  (hm : ∀ x, x ∉ Region.addrs ⟨getCompletionRecord m₀ dsc, recordSize⟩ →
    m x = runFirst m₀ operations k x)
include hargs hplaced hnotes hk hm

/-- The list is as it was when the first descriptors have been executed. -/
theorem replay_list : Set.EqOn m₀ m (Region.addrs ⟨operations, descriptorSize * count⟩) := by
  intro x hx
  rw [hm x (hplaced.list_apart.symm.notMem hx)]
  exact (runFirst_list_of_le hargs hplaced (fun _ _ => rfl) hnotes hk hx).symm

include hind

/-- The sources of independent descriptors are as they were. -/
theorem replay_sources {i : ℕ} (hi : i < k) :
    ∀ R ∈ innerSources m₀ operations i, Set.EqOn m₀ m R.addrs := by
  intro R hR x hx
  rw [hm x ((hplaced.apart_record i (by omega) R (innerSources_subset _ _ _ hR)).notMem hx)]
  refine (runFirst_apply hargs hplaced (fun _ _ => rfl) hnotes hk fun j hj W hW => ?_).symm
  exact (hind i hi j hj R hR W hW).notMem hx

/-- A second execution of the first descriptors changes what the first one did. -/
theorem replay_sameChange {n : ℕ} (hn : n ≤ k) :
    SameChange m₀ m (runFirst m₀ operations n) (runFirst m operations n) :=
  runFirst_sameChange hargs hplaced (fun _ _ => rfl) hnotes (by omega)
    (replay_list hargs hplaced hnotes hk hm)
    fun i hi => replay_sources hargs hplaced hnotes hk hind hm (by omega)

/-- **Independent descriptors may be executed a second time.** -/
theorem runFirst_replay :
    ∀ x, x ∉ Region.addrs ⟨getCompletionRecord m₀ dsc, recordSize⟩ →
      runFirst m operations k x = m x := by
  intro x hx
  rcases replay_sameChange hargs hplaced hnotes hk hind hm le_rfl x with hsame | ⟨-, hleft⟩
  · rw [← hsame, hm x hx]
  · exact hleft

/-- The whole list, run again, goes on as the interrupted run would have. -/
theorem runFirst_agree_of_replay {n : ℕ} (hkn : k ≤ n) (hn : n ≤ count) :
    ∀ x, x ∉ Region.addrs ⟨getCompletionRecord m₀ dsc, recordSize⟩ →
      runFirst m₀ operations n x = runFirst m operations n x := by
  obtain ⟨j, rfl⟩ := Nat.exists_eq_add_of_le hkn
  have hreplay := runFirst_replay hargs hplaced hnotes hk hind hm
  rw [runFirst_add m]
  refine runRest_agree hargs hplaced (fun _ _ => rfl) hnotes hn fun x hx => ?_
  rw [hreplay x hx, hm x hx]

/-- The second execution finds the notes the first one found. -/
theorem notesSafe_replay : NotesSafe m operations count := by
  intro i hi
  have hlist := runFirst_list_of_le hargs hplaced (fun _ _ => rfl) hnotes hi.le
  have hsources : sources (runFirst m₀ operations i) (innerDescriptor operations i)
      = innerSources m₀ operations i := sources_congr (eqOn_innerDescriptor hlist hi)
  rcases Nat.lt_or_ge i k with hik | hki
  · have hchange := replay_sameChange hargs hplaced hnotes hk hind hm hik.le
    have hkept := hchange.eqOn (replay_list hargs hplaced hnotes hk hm)
    refine (hnotes i hi).congr (eqOn_innerDescriptor hkept hi) ?_
    rw [hsources]
    exact fun R hR => hchange.eqOn (replay_sources hargs hplaced hnotes hk hind hm hik R hR)
  · have hagree := runFirst_agree_of_replay hargs hplaced hnotes hk hind hm hki hi.le
    have hkept : Set.EqOn (runFirst m₀ operations i) (runFirst m operations i)
        (Region.addrs ⟨operations, descriptorSize * count⟩) :=
      fun x hx => hagree x (hplaced.list_apart.symm.notMem hx)
    refine (hnotes i hi).congr (eqOn_innerDescriptor hkept hi) ?_
    rw [hsources]
    exact fun R hR x hx => hagree x
      ((hplaced.apart_record i hi R (innerSources_subset _ _ _ hR)).notMem hx)

end Replay

end DataMover
