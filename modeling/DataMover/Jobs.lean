import DataMover.BatchKernel
import DataMover.Continuation.Batch
import DataMover.Lib.Schedule
import Mathlib.Data.List.Nodup
import Mathlib.Data.List.Sublists

/-!
# Schedules of jobs

Jobs are submitted one after another, from one thread or from several; on the software path
each is executed when it is submitted.  What a job reads and writes can be said before any of
them runs: its descriptor and its buffers, and for a batch the list, with the buffers of the
descriptors in it.

Jobs of which neither writes what the other uses may change places.  Whatever order the jobs are
submitted in, as long as the order of those that depend on one another is kept, they leave the
same memory, and with it the same records, statuses and results.

## Main definitions

* `jobReads`, `jobWrites` — what a job reads and writes.
* `JobReady` — the descriptor is in place when the job's turn comes.

## Main results

* `submit_status_congr` — the status of a job depends on what the job reads only.
* `jobs_footprint` — every job reads `jobReads` and writes `jobWrites`, batches included.
* `jobs_schedule` — every order that keeps dependent jobs in order leaves the same memory.
* `batch_schedule` — so the descriptors of a batch may be executed in any such order.
-/

namespace DataMover

open ByteMemory Schedule

/-! ### The status a kernel reports -/

theorem get_status (m : Memory) (record : ℕ) :
    AnyCompletionRecord.status.get m record = (m record).toNat := by
  simp [Field.get, AnyCompletionRecord.status, load]

/-- A kernel does not leave the status byte zero. -/
theorem submit_status_ne_zero {t : Memory} {dsc : ℕ} (hop : operationOf t dsc ≠ none) :
    (SoftwareDevice.submit t dsc).1 (getCompletionRecord t dsc) ≠ 0 := by
  obtain ⟨u, s, hs, heq⟩ := exists_submit_eq_setStatus hop
  intro hzero
  have hstatus := status_setStatus u (getCompletionRecord t dsc) s
  rw [← heq, get_status, hzero] at hstatus
  cases s <;> first | exact hs.1 rfl | cases hstatus

/-- **The status a kernel reports** depends on its descriptor and its sources only. -/
theorem submit_status_congr {t t' : Memory} {dsc : ℕ} (hop : operationOf t dsc ≠ none)
    (hbatch : operationOf t dsc ≠ some .batch)
    (hdsc : Set.EqOn t t' (Region.addrs ⟨dsc, descriptorSize⟩))
    (hread : ∀ R ∈ sources t dsc, Set.EqOn t t' R.addrs) :
    AnyCompletionRecord.status.get (SoftwareDevice.submit t dsc).1 (getCompletionRecord t dsc)
      = AnyCompletionRecord.status.get (SoftwareDevice.submit t' dsc).1
          (getCompletionRecord t dsc) := by
  rw [get_status, get_status]
  congr 1
  set r := getCompletionRecord t dsc with hr
  by_cases hused : r ∈ Region.addrs ⟨dsc, descriptorSize⟩ ∨ ∃ R ∈ sources t dsc, r ∈ R.addrs
  · -- the kernel reads the byte: the memories agree on it
    refine (submit_sameChange hbatch hdsc hread).apply_eq ?_
    rcases hused with h | ⟨R, hR, h⟩
    · exact hdsc h
    · exact hread R hR h
  · -- it does not: both runs are compared with one that starts from a zero byte
    push Not at hused
    obtain ⟨hout, hnone⟩ := hused
    have heq : ∀ x, x ≠ r → Function.update t r 0 x = t x := fun x hx =>
      Function.update_of_ne hx 0 t
    have hdsc₀ : Set.EqOn (Function.update t r 0) t (Region.addrs ⟨dsc, descriptorSize⟩) :=
      fun x hx => heq x fun h => hout (h ▸ hx)
    have hread₀ : ∀ R ∈ sources t dsc, Set.EqOn (Function.update t r 0) t R.addrs :=
      fun R hR x hx => heq x fun h => hnone R hR (h ▸ hx)
    have hop₀ := operationOf_congr hdsc₀
    have hrec₀ : getCompletionRecord (Function.update t r 0) dsc = r := by
      rw [getCompletionRecord_congr hdsc₀, hr]
    have hwritten := submit_status_ne_zero (t := Function.update t r 0) (by rw [hop₀]; exact hop)
    rw [hrec₀] at hwritten
    have hsame : ∀ u, Set.EqOn t u (Region.addrs ⟨dsc, descriptorSize⟩) →
        (∀ R ∈ sources t dsc, Set.EqOn t u R.addrs) →
        (SoftwareDevice.submit (Function.update t r 0) dsc).1 r
          = (SoftwareDevice.submit u dsc).1 r := by
      intro u hu hru
      have hchange := submit_sameChange (by rw [hop₀]; exact hbatch) (hdsc₀.trans hu)
        (by rw [sources_congr hdsc₀]; exact fun R hR => (hread₀ R hR).trans (hru R hR))
      rcases hchange r with h | ⟨hleft, -⟩
      · exact h
      · exact absurd (hleft.trans (Function.update_self r 0 t)) hwritten
    exact (hsame t (fun _ _ => rfl) fun _ _ _ _ => rfl).symm.trans (hsame t' hdsc hread)

/-! ### What a job reads and writes -/

/-- The addresses of some regions. -/
def addresses (regions : List Region) : Set ℕ := {x | ∃ R ∈ regions, x ∈ R.addrs}

/-- The regions a job reads: its descriptor and its sources; a batch reads its list, and the
sources of the descriptors in it. -/
def readRegions (m : Memory) (dsc : ℕ) : List Region :=
  ⟨dsc, descriptorSize⟩ ::
    if operationOf m dsc = some .batch then
      let operations := BatchDescriptor.descriptorListAddress.get m dsc
      let count := BatchDescriptor.descriptorsCount.get m dsc
      ⟨operations, descriptorSize * count⟩ ::
        (List.range count).flatMap (innerSources m operations)
    else sources m dsc

/-- The regions a job writes: its record and its destinations; a batch writes the records and
the destinations of the descriptors in its list. -/
def writtenRegions (m : Memory) (dsc : ℕ) : List Region :=
  ⟨getCompletionRecord m dsc, recordSize⟩ ::
    if operationOf m dsc = some .batch then
      let operations := BatchDescriptor.descriptorListAddress.get m dsc
      let count := BatchDescriptor.descriptorsCount.get m dsc
      (List.range count).flatMap (innerWrites m operations)
    else destinations m dsc

def jobReads (m : Memory) (dsc : ℕ) : Set ℕ := addresses (readRegions m dsc)

def jobWrites (m : Memory) (dsc : ℕ) : Set ℕ := addresses (writtenRegions m dsc)

/-- A job submitted on the software path. -/
def runJob (m : Memory) (dsc : ℕ) : Memory := (SoftwareDevice.submit m dsc).1

/-- The batch at `dsc` is set up in `m`, its objects are apart, and its list is in place in `t`. -/
structure BatchReady (m t : Memory) (dsc operations count : ℕ) : Prop where
  args : BatchArgs m dsc operations count
  placed : BatchPlaced m dsc operations count
  list : Set.EqOn t m (Region.addrs ⟨operations, descriptorSize * count⟩)
  notes : NotesSafe t operations count

/-- A job of `m` may be run in `t`: its descriptor is in place, and so is the list of a batch;
the notes an `apply_delta` finds point into its destination. -/
structure JobReady (m t : Memory) (dsc : ℕ) : Prop where
  descriptor : Set.EqOn t m (Region.addrs ⟨dsc, descriptorSize⟩)
  single : operationOf m dsc ≠ some .batch → DeltaWithin t dsc
  batch : operationOf m dsc = some .batch →
    BatchReady m t dsc (BatchDescriptor.descriptorListAddress.get m dsc)
      (BatchDescriptor.descriptorsCount.get m dsc)

/-! ### The footprint of a batch -/

section Batch

variable {m t t' : Memory} {dsc operations count : ℕ} (h : BatchReady m t dsc operations count)
include h

/-- The list a batch has in `t` is that of `m`. -/
theorem BatchReady.list_address (hdsc : Set.EqOn t m (Region.addrs ⟨dsc, descriptorSize⟩)) :
    BatchDescriptor.descriptorListAddress.get t dsc = operations
      ∧ BatchDescriptor.descriptorsCount.get t dsc = count := by
  rw [get_descriptor_congr hdsc (by decide), get_descriptor_congr hdsc (by decide)]
  exact ⟨h.args.list, h.args.size⟩

/-- Every descriptor of the list is supported when its turn comes. -/
theorem BatchReady.supported {i : ℕ} (hi : i < count) : SupportedInTurn t operations i := by
  obtain ⟨op, hmem, hop⟩ := h.args.supported i hi
  have hlist := runFirst_list_of_le h.args h.placed h.list h.notes hi.le
  exact ⟨op, hmem, (operationOf_congr (eqOn_innerDescriptor hlist hi)).trans hop⟩

theorem BatchReady.recordInTurn_eq {i : ℕ} (hi : i < count) :
    recordInTurn t operations i = innerRecord m operations i := by
  have hlist := runFirst_list_of_le h.args h.placed h.list h.notes hi.le
  exact getCompletionRecord_congr (eqOn_innerDescriptor hlist hi)

/-- **A batch in closed form**: those that lead the list and the first that fails. -/
theorem BatchReady.submit_eq (hdsc : Set.EqOn t m (Region.addrs ⟨dsc, descriptorSize⟩)) :
    runJob t dsc = completeBatch (runFirst t operations (executed t operations count))
      (getCompletionRecord m dsc) count (leading t operations count) := by
  have hop : operationOf t dsc = some .batch := (operationOf_congr hdsc).trans h.args.operation
  obtain ⟨hops, hcount⟩ := h.list_address hdsc
  have hstale : ¬(leading t operations count < count
      ∧ StaleSuccess t operations (leading t operations count)) :=
    fun ⟨hlt, hnot, _⟩ => hnot (h.supported hlt)
  have heq := @batch_eq_leading t dsc
  simp only [left_memory, left_index, hops, hcount, if_neg hstale] at heq
  rw [runJob, SoftwareDevice.submit, hop, ← getCompletionRecord_congr hdsc]
  exact heq

/-- **What a batch writes.** -/
theorem BatchReady.frame (hdsc : Set.EqOn t m (Region.addrs ⟨dsc, descriptorSize⟩)) {x : ℕ}
    (hrec : x ∉ Region.addrs ⟨getCompletionRecord m dsc, recordSize⟩)
    (hx : ∀ i, i < count → ∀ R ∈ innerWrites m operations i, x ∉ R.addrs) :
    runJob t dsc x = t x := by
  have hle := executed_le t operations count
  rw [h.submit_eq hdsc, completeBatch_apply hrec]
  exact runFirst_apply h.args h.placed h.list h.notes hle fun i hi => hx i (by omega)

variable (hlist : Set.EqOn t t' (Region.addrs ⟨operations, descriptorSize * count⟩))
  (hread : ∀ i, i < count → ∀ R ∈ innerSources m operations i, Set.EqOn t t' R.addrs)
include hlist hread

theorem BatchReady.runFirst_sameChange {n : ℕ} (hn : n ≤ count) :
    SameChange t t' (runFirst t operations n) (runFirst t' operations n) :=
  DataMover.runFirst_sameChange h.args h.placed h.list h.notes hn hlist
    fun i hi => hread i (by omega)

/-- A batch that may be run in `t` may be run where its list and sources are as in `t`. -/
theorem BatchReady.congr : BatchReady m t' dsc operations count where
  args := h.args
  placed := h.placed
  list := hlist.symm.trans h.list
  notes i hi := by
    have hchange := h.runFirst_sameChange hlist hread hi.le
    have hdsc := runFirst_list_of_le h.args h.placed h.list h.notes hi.le
    refine (h.notes i hi).congr (eqOn_innerDescriptor (hchange.eqOn hlist) hi) ?_
    rw [sources_congr (eqOn_innerDescriptor hdsc hi)]
    exact fun R hR => hchange.eqOn (hread i hi R hR)

/-- The descriptors of the list end the same in both runs. -/
theorem BatchReady.endsWell_congr {i : ℕ} (hi : i < count) :
    EndsWell t operations i ↔ EndsWell t' operations i := by
  have h' := h.congr hlist hread
  have hchange := h.runFirst_sameChange hlist hread hi.le
  have hinner := eqOn_innerDescriptor (runFirst_list_of_le h.args h.placed h.list h.notes hi.le) hi
  obtain ⟨op, -, hop⟩ := h.args.supported i hi
  have hrecord : getCompletionRecord (runFirst t operations i) (innerDescriptor operations i)
      = innerRecord m operations i := getCompletionRecord_congr hinner
  have hstatus := submit_status_congr (t := runFirst t operations i)
    (by rw [operationOf_congr hinner, hop]; simp) (inner_ne_batch h.args
      (runFirst_list_of_le h.args h.placed h.list h.notes hi.le) hi)
    (eqOn_innerDescriptor (hchange.eqOn hlist) hi) (by
      rw [sources_congr hinner]
      exact fun R hR => hchange.eqOn (hread i hi R hR))
  rw [hrecord] at hstatus
  rw [EndsWell, EndsWell, h.recordInTurn_eq hi, h'.recordInTurn_eq hi, SaysSuccess, SaysSuccess,
    runFirst_succ, runFirst_succ, hstatus]

/-- The batch stops at the same descriptor in both runs. -/
theorem BatchReady.leading_congr : leading t operations count = leading t' operations count := by
  have h' := h.congr hlist hread
  have hsucceeds : ∀ i, i < count → (Succeeds t operations i ↔ Succeeds t' operations i) :=
    fun i hi => and_congr (iff_of_true (h.supported hi) (h'.supported hi))
      (h.endsWell_congr hlist hread hi)
  rw [leading, leading, Loop.search_congr fun i hi => by rw [decide_eq_decide.mpr (hsucceeds i hi)]]

/-- **What a batch reads**: it stops at the same descriptor, and makes the same change. -/
theorem BatchReady.reading (hdsc : Set.EqOn t m (Region.addrs ⟨dsc, descriptorSize⟩))
    (hdsc' : Set.EqOn t t' (Region.addrs ⟨dsc, descriptorSize⟩)) :
    SameChange t t' (runJob t dsc) (runJob t' dsc) := by
  have h' := h.congr hlist hread
  have hleading := h.leading_congr hlist hread
  have hexecuted : executed t operations count = executed t' operations count := by
    unfold executed
    rw [hleading]
    refine if_congr (and_congr_right fun hlt => ?_) rfl rfl
    exact iff_of_true (h.supported hlt) (h'.supported hlt)
  rw [h.submit_eq hdsc, h'.submit_eq (hdsc'.symm.trans hdsc), ← hleading, ← hexecuted]
  have hle := executed_le t operations count
  exact setStatus_sameChange ((h.runFirst_sameChange hlist hread hle).set _ _ rfl) _

end Batch

/-! ### The footprint of a job -/

section Job

variable {m t t' : Memory} {dsc x : ℕ}

theorem eqOn_addresses {regions : List Region} (h : Set.EqOn t t' (addresses regions)) {R : Region}
    (hR : R ∈ regions) : Set.EqOn t t' R.addrs :=
  fun _ hx => h ⟨R, hR, hx⟩

theorem mem_flatMap_range {f : ℕ → List Region} {i n : ℕ} (hi : i < n) {R : Region}
    (hR : R ∈ f i) : R ∈ (List.range n).flatMap f :=
  List.mem_flatMap.mpr ⟨i, List.mem_range.mpr hi, hR⟩

theorem eqOn_jobReads_descriptor (h : Set.EqOn t t' (jobReads m dsc)) :
    Set.EqOn t t' (Region.addrs ⟨dsc, descriptorSize⟩) :=
  eqOn_addresses h (List.mem_cons_self ..)

theorem eqOn_jobReads_sources (hop : operationOf m dsc ≠ some .batch)
    (h : Set.EqOn t t' (jobReads m dsc)) : ∀ R ∈ sources m dsc, Set.EqOn t t' R.addrs := by
  intro R hR
  refine eqOn_addresses h (List.mem_cons_of_mem _ ?_)
  rw [if_neg hop]
  exact hR

theorem eqOn_jobReads_batch (hop : operationOf m dsc = some .batch)
    (h : Set.EqOn t t' (jobReads m dsc)) :
    Set.EqOn t t' (Region.addrs ⟨BatchDescriptor.descriptorListAddress.get m dsc,
        descriptorSize * BatchDescriptor.descriptorsCount.get m dsc⟩)
      ∧ ∀ i, i < BatchDescriptor.descriptorsCount.get m dsc →
        ∀ R ∈ innerSources m (BatchDescriptor.descriptorListAddress.get m dsc) i,
          Set.EqOn t t' R.addrs := by
  constructor
  · refine eqOn_addresses h (List.mem_cons_of_mem _ ?_)
    rw [if_pos hop]
    exact List.mem_cons_self ..
  · intro i hi R hR
    refine eqOn_addresses h (List.mem_cons_of_mem _ ?_)
    rw [if_pos hop]
    exact List.mem_cons_of_mem _ (mem_flatMap_range hi hR)

/-- **Every job reads its read regions and writes its written regions.** -/
theorem jobs_footprint (m : Memory) :
    Footprint runJob (JobReady m) (jobReads m) (jobWrites m) where
  frame t dsc h x hx := by
    have hrec : x ∉ Region.addrs ⟨getCompletionRecord m dsc, recordSize⟩ :=
      fun hin => hx ⟨_, List.mem_cons_self .., hin⟩
    by_cases hop : operationOf m dsc = some .batch
    · refine (h.batch hop).frame h.descriptor hrec fun i hi R hR hin => hx ⟨R, ?_, hin⟩
      refine List.mem_cons_of_mem _ ?_
      rw [if_pos hop]
      exact mem_flatMap_range hi hR
    · refine submit_of_notMem_destinations ?_ (h.single hop) ?_ fun R hR hin => hx ⟨R, ?_, hin⟩
      · rw [operationOf_congr h.descriptor]; exact hop
      · rw [getCompletionRecord_congr h.descriptor]; exact hrec
      · rw [destinations_congr h.descriptor] at hR
        refine List.mem_cons_of_mem _ ?_
        rw [if_neg hop]
        exact hR
  reading t t' dsc h hread := by
    have hdsc := eqOn_jobReads_descriptor hread
    by_cases hop : operationOf m dsc = some .batch
    · obtain ⟨hlist, hsources⟩ := eqOn_jobReads_batch hop hread
      exact (h.batch hop).reading hlist hsources h.descriptor hdsc
    · refine submit_sameChange (by rw [operationOf_congr h.descriptor]; exact hop) hdsc ?_
      rw [sources_congr h.descriptor]
      exact eqOn_jobReads_sources hop hread
  stable t t' dsc h hread := by
    have hdsc := eqOn_jobReads_descriptor hread
    refine ⟨hdsc.symm.trans h.descriptor, fun hop => ?_, fun hop => ?_⟩
    · refine (h.single hop).congr hdsc ?_
      rw [sources_congr h.descriptor]
      exact eqOn_jobReads_sources hop hread
    · obtain ⟨hlist, hsources⟩ := eqOn_jobReads_batch hop hread
      exact (h.batch hop).congr hlist hsources

end Job

/-- Neither job writes what the other reads or writes. -/
def JobsApart (m : Memory) : ℕ → ℕ → Prop := FootprintsApart (jobReads m) (jobWrites m)

/-- Regions that are apart are enough. -/
theorem jobsApart_of_regions {m : Memory} {d e : ℕ}
    (hde : ∀ W ∈ writtenRegions m d, ∀ R ∈ readRegions m e ++ writtenRegions m e, W.Apart R)
    (hed : ∀ W ∈ writtenRegions m e, ∀ R ∈ readRegions m d, W.Apart R) : JobsApart m d e := by
  constructor
  · rintro x ⟨W, hW, hx⟩
    refine ⟨fun ⟨R, hR, hin⟩ => ?_, fun ⟨R, hR, hin⟩ => ?_⟩
    · exact (hde W hW R (List.mem_append_left _ hR)).notMem hx hin
    · exact (hde W hW R (List.mem_append_right _ hR)).notMem hx hin
  · rintro x ⟨W, hW, hx⟩ ⟨R, hR, hin⟩
    exact (hed W hW R hR).notMem hx hin

/-- Jobs that write none of their descriptors run, when no `apply_delta` is among them. -/
theorem runs_of_untouched {m : Memory} {jobs : List ℕ}
    (hop : ∀ d ∈ jobs, operationOf m d ≠ some .batch ∧ operationOf m d ≠ some .applyDelta)
    (hap : ∀ d ∈ jobs, ∀ e ∈ jobs, ∀ W ∈ writtenRegions m d, W.Apart ⟨e, descriptorSize⟩) :
    Runs runJob (JobReady m) m jobs := by
  suffices h : ∀ l, l ⊆ jobs → ∀ t,
      (∀ d ∈ jobs, Set.EqOn t m (Region.addrs ⟨d, descriptorSize⟩)) →
      Runs runJob (JobReady m) t l from h jobs (List.Subset.refl _) m fun _ _ _ _ => rfl
  intro l
  induction l with
  | nil => exact fun _ _ _ => trivial
  | cons d l ih =>
    intro hsub t ht
    have hd := hsub (List.mem_cons_self ..)
    have hready : JobReady m t d := by
      refine ⟨ht d hd, fun _ happly => ?_, fun hbatch => absurd hbatch (hop d hd).1⟩
      rw [operationOf_congr (ht d hd)] at happly
      exact absurd happly (hop d hd).2
    refine ⟨hready, ih (fun e he => hsub (List.mem_cons_of_mem d he)) _ fun e he x hx => ?_⟩
    refine ((jobs_footprint m).frame t d hready x ?_).trans (ht e he hx)
    rintro ⟨W, hW, hin⟩
    exact (hap d hd e he W hW).notMem hin hx

/-- **The order of independent jobs makes no difference.**  Jobs and batches whose descriptors
are in place when their turn comes, submitted in any other order that keeps the order of those
that are not apart, leave the same memory. -/
theorem jobs_schedule (m : Memory) {jobs schedule : List ℕ} (hperm : schedule.Perm jobs)
    (hnodup : jobs.Nodup) (horder : KeepsOrder (JobsApart m) jobs schedule)
    (hruns : Runs runJob (JobReady m) m jobs) :
    Runs runJob (JobReady m) m schedule ∧ schedule.foldl runJob m = jobs.foldl runJob m :=
  run_schedule (jobs_footprint m).exchanges hperm hnodup horder hruns

/-- A fill of 16 bytes at 2048, a memory move of them to 3072, and an empty operation. -/
def threeJobs : Memory :=
  let m := rawDescriptor .fill 64 1024 0x5a 2048 16
  let m := AnyDescriptor.operation.set m 128 Operation.memMove.code
  let m := AnyDescriptor.completionRecordAddress.set m 128 1088
  let m := AnyDescriptor.sourceAddress.set m 128 2048
  let m := AnyDescriptor.destinationAddress.set m 128 3072
  let m := AnyDescriptor.transferSize.set m 128 16
  AnyDescriptor.completionRecordAddress.set m 192 1152

/-- The empty operation may be submitted first; the move stays behind the fill. -/
theorem jobs_schedule_threeJobs :
    [192, 64, 128].foldl runJob threeJobs = [64, 128, 192].foldl runJob threeJobs := by
  have hop : operationOf threeJobs 64 = some .fill ∧ operationOf threeJobs 128 = some .memMove
      ∧ operationOf threeJobs 192 = some .nop := by decide
  have hwritten : writtenRegions threeJobs 64 = [⟨1024, 32⟩, ⟨2048, 16⟩]
      ∧ writtenRegions threeJobs 128 = [⟨1088, 32⟩, ⟨3072, 16⟩]
      ∧ writtenRegions threeJobs 192 = [⟨1152, 32⟩] := by decide
  have hread : readRegions threeJobs 64 = [⟨64, 64⟩]
      ∧ readRegions threeJobs 128 = [⟨128, 64⟩, ⟨2048, 16⟩]
      ∧ readRegions threeJobs 192 = [⟨192, 64⟩] := by decide
  obtain ⟨hop₁, hop₂, hop₃⟩ := hop
  obtain ⟨hw₁, hw₂, hw₃⟩ := hwritten
  obtain ⟨hr₁, hr₂, hr₃⟩ := hread
  refine (jobs_schedule threeJobs (by decide) (by decide) (fun d e hpair hnot => ?_) ?_).2
  · have hcases : (d = 64 ∧ e = 128) ∨ (d = 64 ∧ e = 192) ∨ (d = 128 ∧ e = 192) := by
      have hmem := List.mem_sublists.mpr hpair
      simpa [List.sublists] using hmem
    rcases hcases with ⟨rfl, rfl⟩ | ⟨rfl, rfl⟩ | ⟨rfl, rfl⟩
    · decide
    · refine absurd (jobsApart_of_regions ?_ ?_) hnot
      · rw [hw₁, hr₃, hw₃]; decide
      · rw [hw₃, hr₁]; decide
    · refine absurd (jobsApart_of_regions ?_ ?_) hnot
      · rw [hw₂, hr₃, hw₃]; decide
      · rw [hw₃, hr₂]; decide
  · refine runs_of_untouched ?_ ?_
    · simp only [List.mem_cons, List.not_mem_nil, or_false, forall_eq_or_imp, forall_eq, hop₁,
        hop₂, hop₃]
      decide
    · simp only [List.mem_cons, List.not_mem_nil, or_false, forall_eq_or_imp, forall_eq, hw₁, hw₂,
        hw₃]
      decide

/-! ### The descriptors of a batch -/

section BatchSchedule

variable {m : Memory} {dsc operations count : ℕ} (hargs : BatchArgs m dsc operations count)
  (hplaced : BatchPlaced m dsc operations count) (hnotes : NotesSafe m operations count)
include hargs hplaced hnotes

/-- The descriptors of a list, as jobs. -/
def innerJobs (operations count : ℕ) : List ℕ := (List.range count).map (innerDescriptor operations)

omit hargs hplaced hnotes in
theorem foldl_innerJobs (t : Memory) (operations n : ℕ) :
    (innerJobs operations n).foldl runJob t = runFirst t operations n := by
  induction n with
  | zero => rfl
  | succ n ih =>
    rw [innerJobs, List.range_succ, List.map_append, List.foldl_append, ← innerJobs, ih]
    rfl

omit hargs hplaced hnotes in
theorem nodup_innerJobs (operations n : ℕ) : (innerJobs operations n).Nodup := by
  refine List.Nodup.map (fun i j hij => ?_) List.nodup_range
  have heq : operations + 64 * i = operations + 64 * j := hij
  omega

/-- The descriptors of a batch may be run one after another. -/
theorem runs_innerJobs {n : ℕ} (hn : n ≤ count) :
    Runs runJob (JobReady m) m (innerJobs operations n) := by
  suffices h : ∀ k i, i + k = n →
      Runs runJob (JobReady m) (runFirst m operations i)
        ((List.range' i k).map (innerDescriptor operations)) by
    have hall := h n 0 (Nat.zero_add n)
    rwa [← List.range_eq_range'] at hall
  intro k
  induction k with
  | zero => exact fun _ _ => trivial
  | succ k ih =>
    intro i hik
    have hlist := runFirst_list_of_le hargs hplaced (fun _ _ => rfl) hnotes
      (show i ≤ count by omega)
    have hbatch := inner_ne_batch hargs (t := m) (fun _ _ => rfl) (show i < count by omega)
    rw [List.range'_succ, List.map_cons]
    refine ⟨⟨eqOn_innerDescriptor hlist (by omega), fun _ => hnotes i (by omega), fun hop => ?_⟩,
      ih (i + 1) (by omega)⟩
    exact absurd hop hbatch

/-- **The descriptors of a batch may be executed in any order** that keeps the order of those
that are not apart: when all of them succeed, submitting them one by one in such an order leaves
what the batch leaves, its own record apart. -/
theorem batch_schedule (hsucceeds : ∀ i, i < count → Succeeds m operations i)
    {schedule : List ℕ} (hperm : schedule.Perm (innerJobs operations count))
    (horder : KeepsOrder (JobsApart m) (innerJobs operations count) schedule) :
    Set.EqOn (schedule.foldl runJob m) (Kernels.batch m dsc)
      (Region.addrs ⟨getCompletionRecord m dsc, recordSize⟩)ᶜ := by
  have hall : leading m operations count = count := leading_eq_iff.mpr hsucceeds
  have hexecuted : executed m operations count = count := by
    rw [executed, if_neg (by omega), hall]
  have hready : BatchReady m m dsc operations count := ⟨hargs, hplaced, fun _ _ => rfl, hnotes⟩
  have hbatch := hready.submit_eq fun _ _ => rfl
  have hrun : runJob m dsc = Kernels.batch m dsc := by
    rw [runJob, SoftwareDevice.submit, hargs.operation]
  rw [hexecuted, hrun] at hbatch
  have hsame := (run_schedule (jobs_footprint m).exchanges hperm (nodup_innerJobs operations count)
    horder (runs_innerJobs hargs hplaced hnotes le_rfl)).2
  intro x hx
  rw [hsame, foldl_innerJobs, hbatch, completeBatch_apply hx]

end BatchSchedule

/-- Two copies of four bytes between two empty operations; the second copies on what the first
has written. -/
def relayBatch : Memory :=
  let m := Loop.iter (fun i m =>
    let m := AnyDescriptor.operation.set m (320 + 64 * i) Operation.memMove.code
    let m := AnyDescriptor.sourceAddress.set m (320 + 64 * i) (1024 * (i + 1))
    let m := AnyDescriptor.destinationAddress.set m (320 + 64 * i) (1024 * (i + 2))
    AnyDescriptor.transferSize.set m (320 + 64 * i) 4) 2 batchSample
  store m 1024 4 0xDDCCBBAA

theorem relayBatch_args : BatchArgs relayBatch 64 256 4 := by
  constructor <;> decide

theorem relayBatch_placed : BatchPlaced relayBatch 64 256 4 := by
  constructor <;> decide

/-- The copies in their order, and the empty operations in any place. -/
theorem batch_schedule_dependent :
    Set.EqOn ([448, 320, 256, 384].foldl runJob relayBatch) (Kernels.batch relayBatch 64)
        (Region.addrs ⟨getCompletionRecord relayBatch 64, recordSize⟩)ᶜ
      ∧ load (Kernels.batch relayBatch 64) 3072 4 = 0xDDCCBBAA
      ∧ load ([448, 384, 256, 320].foldl runJob relayBatch) 3072 4 = 0 := by
  have hjobs : innerJobs 256 4 = [256, 320, 384, 448] := by decide
  have hnotes : NotesSafe relayBatch 256 4 :=
    notesSafe_of_ne relayBatch_args relayBatch_placed (fun _ _ => rfl) (by decide)
  have hsucceeds : ∀ i, i < 4 → Succeeds relayBatch 256 i := by decide
  -- only the copies are not apart
  have hpairs : ∀ a ∈ innerJobs 256 4, ∀ b ∈ innerJobs 256 4, [a, b].Sublist (innerJobs 256 4) →
      ((∀ W ∈ writtenRegions relayBatch a,
          ∀ R ∈ readRegions relayBatch b ++ writtenRegions relayBatch b, W.Apart R)
        ∧ ∀ W ∈ writtenRegions relayBatch b, ∀ R ∈ readRegions relayBatch a, W.Apart R)
      ∨ [a, b].Sublist [448, 320, 256, 384] := by
    decide
  refine ⟨batch_schedule relayBatch_args relayBatch_placed hnotes hsucceeds
    (by rw [hjobs]; decide) fun a b hsub hnot => ?_, by decide, by decide⟩
  have ha : a ∈ innerJobs 256 4 := hsub.subset (by simp)
  have hb : b ∈ innerJobs 256 4 := hsub.subset (by simp)
  rcases hpairs a ha b hb hsub with ⟨hab, hba⟩ | horder
  · exact absurd (jobsApart_of_regions hab hba) hnot
  · exact horder

end DataMover
