import DataMover.BatchRun
import DataMover.Continuation.Wait

/-!
# Continuing a batch

The hardware can stop a batch in two ways: the list itself faults after some
descriptors have completed, or a descriptor of the list does.
`update_for_continuation` leaves a batch descriptor as it is, so where the wait acts
at all, the software runs the list again from its first descriptor; and it acts on
one of the statuses only.

## Main definitions

* `BatchCompleted` — every descriptor of the list has been executed once.
* `ListFault`, `InnerFault` — the two ways the hardware stops.
* `ReplayHarmless` — executing the completed descriptors again makes no difference.

## Main results

* `batch_eq` — the batch kernel runs up to the first descriptor without success.
* `batch_continuation_iff` — when the wait completes the batch.
* `batch_continuation_of_independent` — independent descriptors are a case where it
  does.
-/

namespace DataMover

open ByteMemory

/-! ### The batch kernel -/

/-- In a run from `m`, every descriptor before the last succeeds. -/
def ReachesLast (m₀ m : Memory) (operations count : ℕ) : Prop :=
  ∀ i, i + 1 < count →
    AnyCompletionRecord.status.get (runFirst m operations (i + 1)) (innerRecord m₀ operations i)
      = ExecutionStatus.success.toUnderlying

section Kernel

variable {m₀ t : Memory} {dsc operations count : ℕ} (hargs : BatchArgs m₀ dsc operations count)
  (hplaced : BatchPlaced m₀ dsc operations count)
  (ht : Set.EqOn t m₀ (Region.addrs ⟨operations, descriptorSize * count⟩))
  (hdsc : Set.EqOn t m₀ (Region.addrs ⟨dsc, descriptorSize⟩))
  (hnotes : NotesSafe t operations count)
include hargs hplaced ht hnotes

/-- The loop of the batch kernel. -/
theorem iterUntil_batchStep :
    Loop.iterUntil (Kernels.batchStep operations) count t
      = match Loop.search (fun i => AnyCompletionRecord.status.get (runFirst t operations (i + 1))
            (innerRecord m₀ operations i) != ExecutionStatus.success.toUnderlying) count with
        | some i => .error (runFirst t operations (i + 1), i)
        | none => .ok (runFirst t operations count) := by
  have hstep : ∀ i, i < count → Kernels.batchStep operations i (runFirst t operations i)
      = if (AnyCompletionRecord.status.get (runFirst t operations (i + 1))
            (innerRecord m₀ operations i) != ExecutionStatus.success.toUnderlying) = true
        then .error (runFirst t operations (i + 1), i)
        else .ok (runFirst t operations (i + 1)) := by
    intro i hi
    -- the descriptors before `i` have not written the list
    have hlist := runFirst_list_of_le hargs hplaced ht hnotes (show i ≤ count by omega)
    have hinner := eqOn_innerDescriptor hlist hi
    obtain ⟨op, hsupported, hop⟩ := hargs.supported i hi
    have hswitch : Kernels.batchSwitch (runFirst t operations i) (innerDescriptor operations i)
        = some (runFirst t operations (i + 1)) :=
      batchSwitch_eq ((operationOf_congr hinner).trans hop) hsupported
    have hrecord : getCompletionRecord (runFirst t operations i) (innerDescriptor operations i)
        = innerRecord m₀ operations i := getCompletionRecord_congr hinner
    unfold innerDescriptor at hswitch hrecord
    simp only [Kernels.batchStep, hswitch, hrecord, Option.getD_some, Option.isNone_some,
      bne_iff_ne]
    rfl
  exact Loop.iterUntil_eq_search hstep

include hdsc

/-- **What the batch kernel leaves**, its record apart: it runs up to the first
descriptor that does not succeed. -/
theorem batch_eq :
    (ReachesLast m₀ t operations count →
      ∀ x, x ∉ Region.addrs ⟨getCompletionRecord m₀ dsc, recordSize⟩ →
        Kernels.batch t dsc x = runFirst t operations count x)
    ∧ (¬ReachesLast m₀ t operations count →
      ∃ n, n < count ∧ ∀ x, x ∉ Region.addrs ⟨getCompletionRecord m₀ dsc, recordSize⟩ →
        Kernels.batch t dsc x = runFirst t operations n x) := by
  have hrec : getCompletionRecord t dsc = getCompletionRecord m₀ dsc :=
    getCompletionRecord_congr hdsc
  have hlist : BatchDescriptor.descriptorListAddress.get t dsc = operations :=
    (Field.get_congr (by decide) hdsc).trans hargs.list
  have hcount : BatchDescriptor.descriptorsCount.get t dsc = count :=
    (Field.get_congr (by decide) hdsc).trans hargs.size
  have hloop := iterUntil_batchStep hargs hplaced ht hnotes
  simp only [Kernels.batch, hrec, hlist, hcount, hloop]
  cases hsearch : Loop.search (fun i => AnyCompletionRecord.status.get
      (runFirst t operations (i + 1)) (innerRecord m₀ operations i)
        != ExecutionStatus.success.toUnderlying) count with
  | none =>
    have hsuccess : ReachesLast m₀ t operations count := fun i hi => by
      simpa using Loop.search_eq_none.mp hsearch i (by omega)
    refine ⟨fun _ x hx => ?_, fun h => absurd hsuccess h⟩
    simp only
    rw [setStatus_apply hx, set_apply_of_notMem hx (by decide)]
  | some i =>
    obtain ⟨hi, hfails, hfirst⟩ := Loop.search_eq_some.mp hsearch
    rcases Nat.lt_or_ge (i + 1) count with hlt | hge
    · refine ⟨fun h => ?_, fun _ => ⟨i + 1, hlt, fun x hx => ?_⟩⟩
      · rw [h i hlt] at hfails
        exact absurd hfails (by decide)
      · simp only
        rw [setStatus_apply hx, set_apply_of_notMem hx (by decide)]
    · -- the last descriptor fails, but it has run
      obtain rfl : count = i + 1 := by omega
      have hsuccess : ReachesLast m₀ t operations (i + 1) := fun j hj => by
        simpa using hfirst j (by omega)
      refine ⟨fun _ x hx => ?_, fun h => absurd hsuccess h⟩
      simp only
      rw [setStatus_apply hx, set_apply_of_notMem hx (by decide)]

/-- **Waiting on a batch whose list faulted**: the whole list is run again. -/
theorem batch_wait
    (hfault : isPageFault (AnyCompletionRecord.status.get t (getCompletionRecord m₀ dsc)) = true)
    (umwait : Bool) : Automatic.wait t dsc umwait = some (Kernels.batch t dsc) := by
  have hop : operationOf t dsc = some .batch := (operationOf_congr hdsc).trans hargs.operation
  have hrec : getCompletionRecord t dsc = getCompletionRecord m₀ dsc :=
    getCompletionRecord_congr hdsc
  have hupdate : updateForContinuation t dsc = t := by
    rw [updateForContinuation, hop]
  have hsubmit : (SoftwareDevice.submit t dsc).1 = Kernels.batch t dsc := by
    rw [SoftwareDevice.submit, hop]
  -- the batch descriptor is still there after the run
  have hafter : Set.EqOn (Kernels.batch t dsc) t (Region.addrs ⟨dsc, descriptorSize⟩) := by
    intro x hx
    have hout := hplaced.record_apart.symm.notMem hx
    obtain ⟨hlast, hearly⟩ := batch_eq hargs hplaced ht hdsc hnotes
    have hquiet : ∀ n, n ≤ count → runFirst t operations n x = t x := fun n hn =>
      runFirst_apply hargs hplaced ht hnotes hn fun i hi R hR =>
        (hplaced.apart_descriptor i (by omega) R (innerWrites_subset _ _ _ hR)).symm.notMem hx
    by_cases hreach : ReachesLast m₀ t operations count
    · rw [hlast hreach x hout, hquiet count le_rfl]
    · obtain ⟨n, hn, hmem⟩ := hearly hreach
      rw [hmem x hout, hquiet n hn.le]
  have hdone : Software.finished (SoftwareDevice.submit (updateForContinuation t dsc) dsc).1 dsc
      = true := by
    rw [hupdate, Software.finished_iff, hsubmit, getCompletionRecord_congr hafter, ← hsubmit]
    obtain ⟨u, s, hs, heq⟩ := exists_submit_eq_setStatus (show operationOf t dsc ≠ none by
      rw [hop]; simp)
    rw [heq, status_setStatus]
    cases s <;> first | exact absurd rfl hs.1 | decide
  rw [Automatic.wait_of_pageFault (by rw [hrec]; exact hfault) hdone umwait, hupdate, hsubmit,
    accumulateRecords, operationOf_congr hafter, hop]

end Kernel

/-! ### Stopped batches -/

/-- Every descriptor of the list has been executed exactly once, and no record is
left untouched or in a page fault. -/
structure BatchCompleted (m₀ m : Memory) (dsc operations count : ℕ) : Prop where
  records : ∀ i, i < count →
    AnyCompletionRecord.status.get m (innerRecord m₀ operations i)
        ≠ ExecutionStatus.processing.toUnderlying
      ∧ isPageFault (AnyCompletionRecord.status.get m (innerRecord m₀ operations i)) = false
  memory : ∀ x, x ∉ Region.addrs ⟨getCompletionRecord m₀ dsc, recordSize⟩ →
    m x = runFirst m₀ operations count x

/-- The list faulted when its first `completed` descriptors had completed. -/
structure ListFault (m₀ m : Memory) (dsc operations count completed : ℕ) : Prop where
  completed_lt : completed < count
  status : isPageFault (AnyCompletionRecord.status.get m (getCompletionRecord m₀ dsc)) = true
    ∨ AnyCompletionRecord.status.get m (getCompletionRecord m₀ dsc)
      = ExecutionStatus.batchPageFaultError.toUnderlying
  memory : ∀ x, x ∉ Region.addrs ⟨getCompletionRecord m₀ dsc, recordSize⟩ →
    m x = runFirst m₀ operations completed x

/-- Descriptor `index` of the list faulted after `k` bytes, and the batch reports an
error. -/
structure InnerFault (m₀ m : Memory) (dsc operations count index k : ℕ) : Prop where
  index_lt : index < count
  kept : Set.EqOn m m₀ (Region.addrs ⟨dsc, descriptorSize⟩)
  status : AnyCompletionRecord.status.get m (getCompletionRecord m₀ dsc)
    = ExecutionStatus.batchError.toUnderlying
  inner : isPageFault (AnyCompletionRecord.status.get m (innerRecord m₀ operations index)) = true
  bytes : AnyCompletionRecord.bytesCompleted.get m (innerRecord m₀ operations index) = k

/-- Executing the first `completed` descriptors of the list once more, in the memory
they left, makes no difference to what the remaining descriptors leave, the batch
record apart. -/
def ReplayHarmless (m : Memory) (dsc operations count completed : ℕ) : Prop :=
  ∀ x, x ∉ Region.addrs ⟨getCompletionRecord m dsc, recordSize⟩ →
    runRest (runFirst m operations completed) operations completed (count - completed) x
      = runRest m operations completed (count - completed) x

theorem FinalStatus.value {s : ExecutionStatus} (h : FinalStatus s) :
    s.toUnderlying ≠ ExecutionStatus.processing.toUnderlying
      ∧ isPageFault s.toUnderlying = false := by
  obtain ⟨h0, h3⟩ := h
  cases s with
  | processing => exact absurd rfl h0
  | pageFaultDuringProcessing => exact absurd rfl h3
  | _ => decide

section Continuation

variable {m₀ m : Memory} {dsc operations count completed : ℕ}
  (hargs : BatchArgs m₀ dsc operations count) (hplaced : BatchPlaced m₀ dsc operations count)
  (hnotes₀ : NotesSafe m₀ operations count)
include hargs hplaced hnotes₀

/-- The hardware has left the list and the batch descriptor alone. -/
theorem ListFault.kept (hfault : ListFault m₀ m dsc operations count completed) :
    Set.EqOn m m₀ (Region.addrs ⟨operations, descriptorSize * count⟩)
      ∧ Set.EqOn m m₀ (Region.addrs ⟨dsc, descriptorSize⟩) := by
  have hle := hfault.completed_lt.le
  constructor
  · intro x hx
    rw [hfault.memory x (hplaced.list_apart.symm.notMem hx)]
    exact runFirst_list_of_le hargs hplaced (fun _ _ => rfl) hnotes₀ hle hx
  · intro x hx
    rw [hfault.memory x (hplaced.record_apart.symm.notMem hx)]
    refine runFirst_apply hargs hplaced (fun _ _ => rfl) hnotes₀ hle fun i hi R hR => ?_
    exact (hplaced.apart_descriptor i (by omega) R (innerWrites_subset _ _ _ hR)).symm.notMem hx

omit hargs hnotes₀ in
/-- A record of the list is read off the batch record. -/
theorem status_congr {u v : Memory} {i : ℕ} (hi : i < count)
    (h : ∀ x, x ∉ Region.addrs ⟨getCompletionRecord m₀ dsc, recordSize⟩ → u x = v x) :
    AnyCompletionRecord.status.get u (innerRecord m₀ operations i)
      = AnyCompletionRecord.status.get v (innerRecord m₀ operations i) := by
  refine Field.get_congr (by decide) fun x
    (hx : x ∈ Region.addrs ⟨innerRecord m₀ operations i, recordSize⟩) => h x ?_
  exact (hplaced.apart_record i hi _ (List.mem_cons_self ..)).notMem hx

/-- The records of the descriptors the hardware had not reached are untouched. -/
theorem ListFault.untouched (hfault : ListFault m₀ m dsc operations count completed)
    (hzero : ∀ i, i < count → AnyCompletionRecord.status.get m₀ (innerRecord m₀ operations i)
      = ExecutionStatus.processing.toUnderlying) {i : ℕ} (hci : completed ≤ i) (hi : i < count) :
    AnyCompletionRecord.status.get m (innerRecord m₀ operations i)
      = ExecutionStatus.processing.toUnderlying := by
  rw [status_congr hplaced hi hfault.memory,
    runFirst_untouched hargs hplaced (fun _ _ => rfl) hnotes₀ hci hi, hzero i hi]

/-- The replay is harmless when running the whole list again ends in the memory of
running it once. -/
theorem ListFault.replayHarmless_iff (hfault : ListFault m₀ m dsc operations count completed) :
    ReplayHarmless m dsc operations count completed
      ↔ ∀ x, x ∉ Region.addrs ⟨getCompletionRecord m₀ dsc, recordSize⟩ →
        runFirst m operations count x = runFirst m₀ operations count x := by
  obtain ⟨j, rfl⟩ := Nat.exists_eq_add_of_le hfault.completed_lt.le
  have hrest := runRest_agree hargs hplaced (fun _ _ => rfl) hnotes₀ le_rfl
    (u := m) (k := completed) (n := j) fun x hx => (hfault.memory x hx).symm
  unfold ReplayHarmless
  rw [getCompletionRecord_congr (hfault.kept hargs hplaced hnotes₀).2, Nat.add_sub_cancel_left,
    ← runFirst_add]
  exact forall₂_congr fun x hx => by rw [hrest x hx]

/-- **Waiting on a list fault.** -/
theorem listFault_wait (umwait : Bool) (hfault : ListFault m₀ m dsc operations count completed)
    (hzero : ∀ i, i < count → AnyCompletionRecord.status.get m₀ (innerRecord m₀ operations i)
      = ExecutionStatus.processing.toUnderlying)
    (hnotes : isPageFault (AnyCompletionRecord.status.get m (getCompletionRecord m₀ dsc)) = true →
      NotesSafe m operations count) :
    ∃ m', Automatic.wait m dsc umwait = some m'
      ∧ (BatchCompleted m₀ m' dsc operations count
        ↔ isPageFault (AnyCompletionRecord.status.get m (getCompletionRecord m₀ dsc)) = true
          ∧ ReachesLast m₀ m operations count
          ∧ ReplayHarmless m dsc operations count completed) := by
  obtain ⟨hlist, hdsc⟩ := hfault.kept hargs hplaced hnotes₀
  have hrec : getCompletionRecord m dsc = getCompletionRecord m₀ dsc :=
    getCompletionRecord_congr hdsc
  rw [hfault.replayHarmless_iff hargs hplaced hnotes₀]
  rcases hfault.status with hstatus | hstatus
  · have hsafe := hnotes hstatus
    refine ⟨_, batch_wait hargs hplaced hlist hdsc hsafe hstatus umwait, ?_⟩
    obtain ⟨hlast, hearly⟩ := batch_eq hargs hplaced hlist hdsc hsafe
    constructor
    · intro hdone
      have hreach : ReachesLast m₀ m operations count := by
        -- a run that stops early does not reach the record of the last descriptor
        by_contra hstop
        obtain ⟨n, hn, hmem⟩ := hearly hstop
        have hcompleted := hfault.completed_lt
        have huntouched := hfault.untouched hargs hplaced hnotes₀ hzero
          (show completed ≤ count - 1 by omega) (by omega)
        refine (hdone.records (count - 1) (by omega)).1 ?_
        rw [status_congr hplaced (by omega) hmem,
          runFirst_untouched hargs hplaced hlist hsafe (by omega) (by omega), huntouched]
      refine ⟨hstatus, hreach, fun x hx => ?_⟩
      rw [← hlast hreach x hx]
      exact hdone.memory x hx
    · rintro ⟨-, hreach, hharmless⟩
      refine ⟨fun i hi => ?_, fun x hx => ?_⟩
      · obtain ⟨s, hs, hvalue⟩ := runFirst_status hargs hplaced hlist hsafe hi le_rfl
        rw [status_congr hplaced hi (hlast hreach), hvalue]
        exact hs.value
      · rw [hlast hreach x hx]
        exact hharmless x hx
  · -- the wait does not act on this status
    have hno : isPageFault (AnyCompletionRecord.status.get m (getCompletionRecord m₀ dsc))
        = false := by
      rw [hstatus]; decide
    have hdone : Software.finished m dsc = true := by
      rw [Software.finished_iff, hrec, hstatus]; decide
    refine ⟨m, Automatic.wait_of_no_pageFault (by rw [hrec]; exact hno) hdone umwait, ?_⟩
    constructor
    · intro hcompleted
      refine absurd ?_ (hcompleted.records completed hfault.completed_lt).1
      exact hfault.untouched hargs hplaced hnotes₀ hzero le_rfl hfault.completed_lt
    · rintro ⟨hyes, -⟩
      rw [hno] at hyes
      exact absurd hyes (by decide)

section Independent

variable (hind : Independent m₀ operations completed)
  (hfault : ListFault m₀ m dsc operations count completed)
include hind hfault

/-- Independent descriptors are harmless to execute again. -/
theorem replayHarmless_of_independent : ReplayHarmless m dsc operations count completed := by
  rw [hfault.replayHarmless_iff hargs hplaced hnotes₀]
  intro x hx
  exact (runFirst_agree_of_replay hargs hplaced hnotes₀ hfault.completed_lt.le hind hfault.memory
    hfault.completed_lt.le le_rfl x hx).symm

/-- A second execution of independent descriptors ends with the statuses of the
first. -/
theorem reachesLast_of_independent (hreach : ReachesLast m₀ m₀ operations count) :
    ReachesLast m₀ m operations count := by
  intro i hi
  have hle := hfault.completed_lt.le
  rw [← hreach i hi]
  refine Field.get_congr (by decide) fun x
    (hx : x ∈ Region.addrs ⟨innerRecord m₀ operations i, recordSize⟩) => ?_
  have hout := (hplaced.apart_record i (by omega) _ (List.mem_cons_self ..)).notMem hx
  rcases Nat.lt_or_ge i completed with hic | hci
  · rcases replay_sameChange hargs hplaced hnotes₀ hle hind hfault.memory
      (show i + 1 ≤ completed by omega) x with hsame | ⟨-, hleft⟩
    · exact hsame.symm
    · -- a byte the second execution leaves alone is one the first one left in the record
      rw [hleft, hfault.memory x hout]
      exact runFirst_record hargs hplaced (fun _ _ => rfl) hnotes₀ hic hle hx
  · exact (runFirst_agree_of_replay hargs hplaced hnotes₀ hle hind hfault.memory (by omega)
      (by omega) x hout).symm

end Independent

omit hargs hplaced hnotes₀ in
/-- Waiting on a batch with a faulted descriptor does nothing. -/
theorem innerFault_wait (umwait : Bool) {index k : ℕ}
    (hfault : InnerFault m₀ m dsc operations count index k) :
    Automatic.wait m dsc umwait = some m := by
  have hrec : getCompletionRecord m dsc = getCompletionRecord m₀ dsc :=
    getCompletionRecord_congr hfault.kept
  refine Automatic.wait_of_no_pageFault ?_ ?_ umwait
  · rw [hrec, hfault.status]; decide
  · rw [Software.finished_iff, hrec, hfault.status]; decide

end Continuation

/-- **When the auto path completes a stopped batch.**  A fault of the list is
completed when its status is the one the wait acts on, the list can be run to its
last descriptor and executing the completed descriptors again does no harm; a fault
of a descriptor never is. -/
theorem batch_continuation_iff (umwait : Bool) {m₀ m : Memory} {dsc operations count : ℕ}
    (hargs : BatchArgs m₀ dsc operations count) (hplaced : BatchPlaced m₀ dsc operations count)
    (hzero : ∀ i, i < count → AnyCompletionRecord.status.get m₀ (innerRecord m₀ operations i)
      = ExecutionStatus.processing.toUnderlying) :
    (∀ completed, ListFault m₀ m dsc operations count completed →
      NotesSafe m₀ operations count →
      (isPageFault (AnyCompletionRecord.status.get m (getCompletionRecord m₀ dsc)) = true →
        NotesSafe m operations count) →
      ∃ m', Automatic.wait m dsc umwait = some m'
        ∧ (BatchCompleted m₀ m' dsc operations count
          ↔ isPageFault (AnyCompletionRecord.status.get m (getCompletionRecord m₀ dsc)) = true
            ∧ ReachesLast m₀ m operations count
            ∧ ReplayHarmless m dsc operations count completed))
    ∧ ∀ index k, InnerFault m₀ m dsc operations count index k →
      ∃ m', Automatic.wait m dsc umwait = some m'
        ∧ ¬BatchCompleted m₀ m' dsc operations count := by
  constructor
  · intro completed hfault hnotes₀ hnotes
    exact listFault_wait hargs hplaced hnotes₀ umwait hfault hzero hnotes
  · intro index k hfault
    refine ⟨m, innerFault_wait umwait hfault, fun hcompleted => ?_⟩
    have hno := (hcompleted.records index hfault.index_lt).2
    rw [hfault.inner] at hno
    exact absurd hno (by decide)

/-- **A batch of independent descriptors that succeed is completed**, when its list
faulted with the status the wait acts on. -/
theorem batch_continuation_of_independent (umwait : Bool) {m₀ m : Memory}
    {dsc operations count completed : ℕ} (hargs : BatchArgs m₀ dsc operations count)
    (hplaced : BatchPlaced m₀ dsc operations count)
    (hzero : ∀ i, i < count → AnyCompletionRecord.status.get m₀ (innerRecord m₀ operations i)
      = ExecutionStatus.processing.toUnderlying)
    (hnotes : NotesSafe m₀ operations count)
    (hfault : ListFault m₀ m dsc operations count completed)
    (hstatus : isPageFault (AnyCompletionRecord.status.get m (getCompletionRecord m₀ dsc)) = true)
    (hind : Independent m₀ operations completed) (hreach : ReachesLast m₀ m₀ operations count) :
    ∃ m', Automatic.wait m dsc umwait = some m' ∧ BatchCompleted m₀ m' dsc operations count := by
  have hreplay := notesSafe_replay hargs hplaced hnotes hfault.completed_lt.le hind hfault.memory
  obtain ⟨m', hwait, hiff⟩ :=
    listFault_wait hargs hplaced hnotes umwait hfault hzero fun _ => hreplay
  refine ⟨m', hwait, hiff.mpr ⟨hstatus, ?_, ?_⟩⟩
  · exact reachesLast_of_independent hargs hplaced hnotes hind hfault hreach
  · exact replayHarmless_of_independent hargs hplaced hnotes hind hfault

/-! ### A batch of empty operations -/

/-- Four empty operations at 256, with their records from 512 on. -/
def batchSample : Memory :=
  let m := rawDescriptor .batch 64 32 256 0 4
  Loop.iter (fun i m => AnyDescriptor.completionRecordAddress.set m (256 + 64 * i) (512 + 32 * i))
    4 m

/-- The list of the sample faulted after its first descriptor. -/
def batchStopped (status : ℕ) : Memory :=
  AnyCompletionRecord.status.set (runFirst batchSample 256 1) 32 status

theorem batchSample_args : BatchArgs batchSample 64 256 4 := by
  constructor
  · decide
  · decide
  · decide
  · have hnop : ∀ i, i < 4 → operationOf batchSample (innerDescriptor 256 i) = some .nop := by
      decide
    exact fun i hi => ⟨.nop, by decide, hnop i hi⟩

theorem batchSample_placed : BatchPlaced batchSample 64 256 4 := by
  constructor <;> decide

theorem batchSample_nop {i : ℕ} (hi : i < 4) :
    operationOf batchSample (innerDescriptor 256 i) = some .nop := by
  have h : ∀ i, i < 4 → operationOf batchSample (innerDescriptor 256 i) = some .nop := by
    decide
  exact h i hi

theorem batchSample_untouched : ∀ i, i < 4 →
    AnyCompletionRecord.status.get batchSample (innerRecord batchSample 256 i)
      = ExecutionStatus.processing.toUnderlying := by
  decide

theorem listFault_batchStopped (status : ℕ) (hlt : status < 256)
    (hstatus : isPageFault status = true
      ∨ status = ExecutionStatus.batchPageFaultError.toUnderlying) :
    ListFault batchSample (batchStopped status) 64 256 4 1 := by
  have hrec : getCompletionRecord batchSample 64 = 32 := by decide
  have hget : AnyCompletionRecord.status.get (batchStopped status) 32 = status :=
    Field.get_set_self_of_lt _ _ hlt
  constructor
  · decide
  · rw [hrec, hget]
    exact hstatus
  · rw [hrec]
    exact fun x hx => set_apply_of_notMem hx (by decide) _

theorem batchSample_notesSafe : NotesSafe batchSample 256 4 :=
  notesSafe_of_ne batchSample_args batchSample_placed (fun _ _ => rfl) fun i hi => by
    rw [batchSample_nop hi]
    simp

theorem batchSample_independent : Independent batchSample 256 1 := by
  intro i hi j _ R hR
  rw [innerSources, sources, batchSample_nop (by omega)] at hR
  exact absurd hR List.not_mem_nil

theorem batchSample_reachesLast : ReachesLast batchSample batchSample 256 4 := by
  intro i hi
  have hdsc := eqOn_innerDescriptor (runFirst_list_of_le batchSample_args batchSample_placed
    (fun _ _ => rfl) batchSample_notesSafe (show i ≤ 4 by omega)) (show i < 4 by omega)
  rw [runFirst_succ, SoftwareDevice.submit, operationOf_congr hdsc, batchSample_nop (by omega)]
  simp only [Kernels.nop]
  rw [getCompletionRecord_congr hdsc]
  exact status_setStatus _ _ _

/-- The list of empty operations faulted with status `0x03`: executing the first one
again does no harm. -/
theorem batch_continuation_sample :
    validate batchSample 64 = .success
      ∧ ∃ m', Automatic.wait (batchStopped 0x03) 64 true = some m'
        ∧ BatchCompleted batchSample m' 64 256 4 := by
  have hrec : getCompletionRecord batchSample 64 = 32 := by decide
  have hfault := listFault_batchStopped 0x03 (by decide) (Or.inl (by decide))
  have hnotes := notesSafe_replay batchSample_args batchSample_placed batchSample_notesSafe
    (by decide) batchSample_independent hfault.memory
  obtain ⟨m', hwait, hiff⟩ := (batch_continuation_iff true batchSample_args batchSample_placed
    batchSample_untouched).1 1 hfault batchSample_notesSafe fun _ => hnotes
  refine ⟨by decide, m', hwait, hiff.mpr ⟨?_, ?_, ?_⟩⟩
  · rw [hrec, show AnyCompletionRecord.status.get (batchStopped 0x03) 32 = 0x03 from
      Field.get_set_self_of_lt _ _ (by decide)]
    decide
  · exact reachesLast_of_independent batchSample_args batchSample_placed batchSample_notesSafe
      batchSample_independent hfault batchSample_reachesLast
  · exact replayHarmless_of_independent batchSample_args batchSample_placed batchSample_notesSafe
      batchSample_independent hfault

/-- The list of empty operations faulted with status `0x06` after its first
descriptor: the wait does nothing, and three records stay untouched. -/
theorem batch_continuation_unhandled :
    validate batchSample 64 = .success ∧ BatchArgs batchSample 64 256 4
      ∧ BatchPlaced batchSample 64 256 4
      ∧ ListFault batchSample (batchStopped 0x06) 64 256 4 1
      ∧ ∃ m', Automatic.wait (batchStopped 0x06) 64 true = some m'
        ∧ ¬BatchCompleted batchSample m' 64 256 4 := by
  have hrec : getCompletionRecord batchSample 64 = 32 := by decide
  have hfault := listFault_batchStopped 0x06 (by decide) (Or.inr (by decide))
  have hno : isPageFault (AnyCompletionRecord.status.get (batchStopped 0x06)
      (getCompletionRecord batchSample 64)) = false := by
    rw [hrec, show AnyCompletionRecord.status.get (batchStopped 0x06) 32 = 0x06 from
      Field.get_set_self_of_lt _ _ (by decide)]
    decide
  obtain ⟨m', hwait, hiff⟩ := listFault_wait batchSample_args batchSample_placed
    batchSample_notesSafe true hfault batchSample_untouched fun hyes => by
      rw [hno] at hyes
      exact absurd hyes (by decide)
  refine ⟨by decide, batchSample_args, batchSample_placed, hfault, m', hwait,
    fun hcompleted => ?_⟩
  rw [hno] at hiff
  exact absurd (hiff.mp hcompleted).1 (by decide)

end DataMover
