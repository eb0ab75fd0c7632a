import DataMover.HardwareDevice
import DataMover.Jobs
import DataMover.Lib.Deferred

/-!
# Runs of the automatic path

`automatic::submit` offers a descriptor to the devices and runs it in software when none takes
it.  A descriptor that was taken is executed later: in which order, and when, is up to the
devices.  Several threads submit, each with indices of its own.

The hardware does what the software does: after a job it has executed, the memory is as after
`software_device::submit`, but for those bytes of the record no kernel sets.  With that, and
with a caller who submits a job only while those it depends on are not pending, every run of the
automatic path leaves what the software path leaves when the jobs are submitted in the same
order.  Page faults and their continuation are not part of these runs.

## Main definitions

* `Automatic.submit` — a submission, with its software fallback.
* `Automatic.Reaches` — the runs: submissions by any thread, executions in any order.

## Main results

* `hardwareSubmit_cleared` — a descriptor that was taken has a cleared completion record.
* `status_mem_outputs` — what a job leaves in its status byte depends on what it reads only.
* `automatic_reaches` — a run of the automatic path is one of the software path.
-/

namespace DataMover

open ByteMemory Schedule

/-! ### The model -/

/-- The variables a thread keeps from one submission to the next: `current_device_idx` and
`last_wq_idx`. -/
structure ThreadState where
  currentDeviceIdx : ℕ
  lastWqIdx : Option ℕ

/-- A submission: the thread, its descriptor, the node it asks for, the register of the
processor it runs on, and the queues that have room. -/
structure Submission where
  thread : ℕ
  dsc : ℕ
  numaId : BitVec 32
  tscAux : BitVec 32
  accepts : ℕ → ℕ → Bool

/-- The memory, the threads, the descriptors that wait in a queue, and those that have been
executed, in order. -/
structure AutomaticState where
  memory : Memory
  threads : ℕ → ThreadState
  pending : List ℕ
  ran : List ℕ

/-- `hardware::submit`. -/
def Hardware.submit (t : HwDispatcher) (q : Submission) (thread : ThreadState) (m : Memory) :
    Submitted (Memory × Option ℕ) :=
  t.submit ⟨q.numaId, q.tscAux, enqueue t q.dsc q.accepts⟩ thread.currentDeviceIdx
    (m, thread.lastWqIdx)

/-- `automatic::submit`. -/
def Automatic.submit (t : HwDispatcher) (s : AutomaticState) (q : Submission) :
    AutomaticState × SubmissionStatus :=
  let r := Hardware.submit t q (s.threads q.thread) s.memory
  let threads := Function.update s.threads q.thread ⟨r.currentDeviceIdx, r.state.2⟩
  if r.status ≠ .success then
    let (m, status) := Software.submit r.state.1 q.dsc
    (⟨m, threads, s.pending, s.ran ++ [q.dsc]⟩, status)
  else (⟨r.state.1, threads, s.pending ++ [q.dsc], s.ran⟩, r.status)

/-- The bytes of a record that are nobody's output. -/
def freeBytes (m : Memory) (dsc : ℕ) : Set ℕ :=
  Region.addrs ⟨getCompletionRecord m dsc, recordSize⟩ \
    Outputs runJob (JobReady m) (jobReads m) dsc

/-- **The runs of the automatic path** from `m`, with the descriptors submitted so far.  A job is
submitted while those that are pending are apart from it; a pending one is executed at any
time. -/
inductive Automatic.Reaches (t : HwDispatcher) (m : Memory) (threads : ℕ → ThreadState) :
    List ℕ → AutomaticState → Prop
  | start : Reaches t m threads [] ⟨m, threads, [], []⟩
  | submit {submitted : List ℕ} {s : AutomaticState} (q : Submission)
      (h : Reaches t m threads submitted s) (hap : ∀ d ∈ s.pending, JobsApart m d q.dsc) :
      Reaches t m threads (submitted ++ [q.dsc]) (Automatic.submit t s q).1
  | execute {submitted : List ℕ} {s : AutomaticState} {before after : List ℕ} {dsc : ℕ}
      (memory : Memory) (h : Reaches t m threads submitted s)
      (hpending : s.pending = before ++ dsc :: after)
      (hmemory : Set.EqOn memory (runJob s.memory dsc) (freeBytes m dsc)ᶜ) :
      Reaches t m threads submitted ⟨memory, s.threads, before ++ after, s.ran ++ [dsc]⟩

/-! ### A submission to the hardware -/

section Hardware

variable {t : HwDispatcher} {m : Memory} {q : Submission} {thread : ThreadState}

/-- A loop that succeeds ends with an offer. -/
theorem HwDispatcher.submitLoop_success {σ : Type*} {ownNumaId : BitVec 32}
    {enqueue : ℕ → σ → Bool × σ} (I : σ → Prop) (hstep : ∀ d s, I s → I (enqueue d s).2)
    (left idx : ℕ) {s : σ} (hs : I s)
    (hsuccess : (t.submitLoop ownNumaId enqueue left idx s).status = .success) :
    ∃ d s', I s' ∧ (t.submitLoop ownNumaId enqueue left idx s).state = (enqueue d s').2 := by
  induction left generalizing idx s with
  | zero => exact absurd hsuccess (by simp [submitLoop])
  | succ left ih =>
    rw [submitLoop] at hsuccess ⊢
    by_cases hnode : ownNumaId.setWidth 64 = (t.device idx).numaId
    · have hs' := hstep (idx % t.deviceCount) s hs
      rw [if_neg (not_not.mpr hnode)] at hsuccess ⊢
      rcases hanswer : enqueue (idx % t.deviceCount) s with ⟨accepted, s'⟩
      rw [hanswer] at hsuccess hs'
      cases accepted with
      | true => exact ⟨idx % t.deviceCount, s, hs, by rw [hanswer]; rfl⟩
      | false => exact ih _ hs' hsuccess
    · rw [if_pos hnode] at hsuccess ⊢
      exact ih _ hs hsuccess

variable (hapart : Region.Apart ⟨q.dsc, descriptorSize⟩ ⟨getCompletionRecord m q.dsc, recordSize⟩)
include hapart

/-- **A descriptor that was taken has a cleared completion record.** -/
theorem hardwareSubmit_cleared (hsuccess : (Hardware.submit t q thread m).status = .success)
    {x : ℕ} (hx : x ∈ Region.addrs ⟨getCompletionRecord m q.dsc, recordSize⟩) :
    (Hardware.submit t q thread m).state.1 x = 0#8 := by
  rw [Hardware.submit, HwDispatcher.submit] at hsuccess ⊢
  split at hsuccess
  · next hsupport =>
    rw [if_pos hsupport]
    -- no offer touches the descriptor, so each finds the same record
    let I : Memory × Option ℕ → Prop := fun s => getCompletionRecord s.1 q.dsc
      = getCompletionRecord m q.dsc
    have hstep : ∀ d s, I s → I (enqueue t q.dsc q.accepts d s).2 := by
      intro d s hs
      have hwithin : AnyDescriptor.completionRecordAddress.Within descriptorSize := by decide
      refine (Field.get_congr hwithin fun y hy => ?_).trans hs
      exact enqueue_apply d s fun hin => hapart.notMem hy (hs ▸ hin)
    have hstart : I (m, thread.lastWqIdx) := rfl
    obtain ⟨d, s, hs, heq⟩ := HwDispatcher.submitLoop_success I hstep _ _ hstart hsuccess
    rw [heq]
    simp only [enqueue]
    rw [hs, paste, if_pos (Region.mem_addrs.mp hx)]
  · exact absurd hsuccess (by simp)

/-- A submission to the hardware changes the completion record at most. -/
theorem hardwareSubmit_eqOn :
    Set.EqOn (Hardware.submit t q thread m).state.1 m
      (Region.addrs ⟨getCompletionRecord m q.dsc, recordSize⟩)ᶜ :=
  fun _ hx => hardwareSubmit_apply rfl hapart _ hx

end Hardware

/-! ### What a job leaves in its record -/

/-- **The status of a job** is an output of it, for a batch as well. -/
theorem status_mem_outputs {m : Memory} {dsc : ℕ} (hop : operationOf m dsc ≠ none) :
    getCompletionRecord m dsc ∈ Outputs runJob (JobReady m) (jobReads m) dsc := by
  intro t t' hready hread
  have hdsc := eqOn_jobReads_descriptor hread
  by_cases hbatch : operationOf m dsc = some .batch
  · have h := hready.batch hbatch
    obtain ⟨hlist, hsources⟩ := eqOn_jobReads_batch hbatch hread
    have h' := h.congr hlist hsources
    rw [h.submit_eq hready.descriptor, h'.submit_eq (hdsc.symm.trans hready.descriptor),
      ← h.leading_congr hlist hsources]
    apply BitVec.eq_of_toNat_eq
    rw [← get_status, ← get_status, completeBatch, completeBatch, status_setStatus,
      status_setStatus]
  · have hstatus := @submit_status_congr t t' dsc
      (by rw [operationOf_congr hready.descriptor]; exact hop)
      (by rw [operationOf_congr hready.descriptor]; exact hbatch) hdsc (by
        rw [sources_congr hready.descriptor]
        exact eqOn_jobReads_sources hbatch hread)
    rw [getCompletionRecord_congr hready.descriptor, get_status, get_status] at hstatus
    exact BitVec.eq_of_toNat_eq hstatus

/-- The record of a job is among what it writes. -/
theorem record_subset_jobWrites (m : Memory) (dsc : ℕ) :
    Region.addrs ⟨getCompletionRecord m dsc, recordSize⟩ ⊆ jobWrites m dsc :=
  fun _ hx => ⟨_, List.mem_cons_self .., hx⟩

/-- The descriptor of a job is among what it reads. -/
theorem descriptor_subset_jobReads (m : Memory) (dsc : ℕ) :
    Region.addrs ⟨dsc, descriptorSize⟩ ⊆ jobReads m dsc :=
  fun _ hx => ⟨_, List.mem_cons_self .., hx⟩

/-- A job whose record is not among what it reads has its descriptor apart from its record. -/
theorem apart_of_unread {m : Memory} {dsc record : ℕ}
    (h : ∀ x ∈ jobReads m dsc, x ∉ Region.addrs ⟨record, recordSize⟩) :
    Region.Apart ⟨dsc, descriptorSize⟩ ⟨record, recordSize⟩ := by
  by_contra hnot
  simp only [Region.Apart, descriptorSize, recordSize] at hnot
  have hdsc : max dsc record ∈ Region.addrs ⟨dsc, descriptorSize⟩ := by
    simp only [Region.mem_addrs, descriptorSize]
    omega
  have hrecord : max dsc record ∈ Region.addrs ⟨record, recordSize⟩ := by
    simp only [Region.mem_addrs, recordSize]
    omega
  exact h _ (descriptor_subset_jobReads m dsc hdsc) hrecord

/-! ### The runs -/

section Runs

variable {t : HwDispatcher} {m : Memory} {threads : ℕ → ThreadState} {jobs : List ℕ}

/-- The bytes of the records of the jobs that are nobody's output. -/
def junkBytes (m : Memory) (jobs : List ℕ) : Set ℕ := {x | ∃ d ∈ jobs, x ∈ freeBytes m d}

/-- What holds in every state of a run whose submissions are among `jobs`. -/
structure AutomaticInvariant (m : Memory) (jobs submitted : List ℕ) (s : AutomaticState) :
    Prop where
  simulates : Simulates runJob (JobReady m) (jobReads m) (jobWrites m) (junkBytes m jobs)
    s.memory s.pending (submitted.foldl runJob m)
  accounted : (s.ran ++ s.pending).Perm submitted
  waiting : ∀ d ∈ s.pending, ∀ x ∈ Region.addrs ⟨getCompletionRecord m d, recordSize⟩,
    s.memory x = 0#8

variable (hunread : ∀ d ∈ jobs, ∀ e ∈ jobs, ∀ x ∈ jobReads m d,
  x ∉ Region.addrs ⟨getCompletionRecord m e, recordSize⟩)
include hunread

theorem notMem_junkBytes {d : ℕ} (hd : d ∈ jobs) : ∀ x ∈ jobReads m d, x ∉ junkBytes m jobs :=
  fun x hx ⟨e, he, hfree⟩ => hunread d hd e he x hx hfree.1

/-- **A submission keeps the invariant**, whether a queue takes the descriptor or not. -/
theorem AutomaticInvariant.submit {submitted : List ℕ} {s : AutomaticState} {q : Submission}
    (h : AutomaticInvariant m jobs submitted s) (hsub : submitted ⊆ jobs) (hq : q.dsc ∈ jobs)
    (hready : JobReady m (submitted.foldl runJob m) q.dsc)
    (hap : ∀ d ∈ s.pending, JobsApart m d q.dsc) :
    AutomaticInvariant m jobs (submitted ++ [q.dsc]) (Automatic.submit t s q).1 := by
  obtain ⟨hsim, haccounted, hwaiting⟩ := h
  have hfoot := jobs_footprint m
  have hpending : ∀ d ∈ s.pending, d ∈ jobs := fun d hd =>
    hsub (haccounted.subset (List.mem_append_right _ hd))
  have hmem : ∀ d ∈ q.dsc :: s.pending, d ∈ jobs := List.forall_mem_cons.mpr ⟨hq, hpending⟩
  have hclear := notMem_junkBytes hunread hq
  -- the descriptor is in place although jobs are pending
  have hdsc : Set.EqOn s.memory m (Region.addrs ⟨q.dsc, descriptorSize⟩) :=
    ((hsim.eqOn_of_unwritten hfoot hclear fun b hb x hx => (hap b hb |>.1 x hx).1).mono
      (descriptor_subset_jobReads m q.dsc)).trans hready.descriptor
  have hrecord := getCompletionRecord_congr hdsc
  have hapart := apart_of_unread (hunread q.dsc hq q.dsc hq)
  rw [← hrecord] at hapart
  have hmemory := @hardwareSubmit_eqOn t s.memory q (s.threads q.thread) hapart
  have hunread' : ∀ d ∈ q.dsc :: s.pending, ∀ x ∈ jobReads m d,
      x ∉ Region.addrs ⟨getCompletionRecord s.memory q.dsc, recordSize⟩ := fun d hd => by
    rw [hrecord]
    exact hunread d (hmem d hd) q.dsc hq
  have hjunk : Region.addrs ⟨getCompletionRecord s.memory q.dsc, recordSize⟩ \
      Outputs runJob (JobReady m) (jobReads m) q.dsc ⊆ junkBytes m jobs := fun x hx => by
    rw [hrecord] at hx
    exact ⟨q.dsc, hq, hx⟩
  -- the jobs that are pending write their records, and so nobody else does
  have hkept : ∀ d ∈ s.pending, ∀ x ∈ Region.addrs ⟨getCompletionRecord m d, recordSize⟩,
      x ∉ jobWrites m q.dsc := fun d hd x hx =>
    ((hap d hd).1 x (record_subset_jobWrites m d hx)).2
  have hzero : ∀ d ∈ s.pending, ∀ x ∈ Region.addrs ⟨getCompletionRecord m d, recordSize⟩,
      (Hardware.submit t q (s.threads q.thread) s.memory).state.1 x = 0#8 := by
    intro d hd x hx
    refine (hmemory fun hin => hkept d hd x hx ?_).trans (hwaiting d hd x hx)
    rw [hrecord] at hin
    exact record_subset_jobWrites m q.dsc hin
  rw [Automatic.submit]
  split
  · obtain ⟨hready', hnow⟩ := hsim.now hfoot hready hclear hap hmemory hunread' hjunk
      (fun _ _ => rfl)
    refine ⟨?_, ?_, fun d hd x hx => ?_⟩
    · rw [List.foldl_append]
      exact hnow
    · calc s.ran ++ [q.dsc] ++ s.pending
          = s.ran ++ (q.dsc :: s.pending) := by rw [List.append_assoc, List.singleton_append]
        _ |>.Perm (q.dsc :: (s.ran ++ s.pending)) := List.perm_middle
        _ |>.Perm (q.dsc :: submitted) := haccounted.cons q.dsc
        _ |>.Perm (submitted ++ [q.dsc]) := (List.perm_append_singleton q.dsc submitted).symm
    · exact (hfoot.frame _ q.dsc hready' x (hkept d hd x hx)).trans (hzero d hd x hx)
  · next hstatus =>
    refine ⟨?_, ?_, fun d hd x hx => ?_⟩
    · rw [List.foldl_append]
      exact hsim.defer hfoot hready hclear hap hmemory hunread' hjunk
    · rw [← List.append_assoc]
      exact haccounted.append_right [q.dsc]
    · rcases List.mem_append.mp hd with hd | hd
      · exact hzero d hd x hx
      · rw [List.mem_singleton.mp hd, ← hrecord] at hx
        exact hardwareSubmit_cleared hapart (not_not.mp hstatus) hx

omit hunread in
/-- **An execution keeps the invariant.** -/
theorem AutomaticInvariant.execute {submitted before after : List ℕ} {s : AutomaticState}
    {dsc : ℕ} {memory : Memory} (h : AutomaticInvariant m jobs submitted s)
    (hsub : submitted ⊆ jobs) (hpending : s.pending = before ++ dsc :: after)
    (hmemory : Set.EqOn memory (runJob s.memory dsc) (freeBytes m dsc)ᶜ) :
    AutomaticInvariant m jobs submitted ⟨memory, s.threads, before ++ after, s.ran ++ [dsc]⟩ := by
  obtain ⟨hsim, haccounted, hwaiting⟩ := h
  have hmid : dsc ∈ s.pending := hpending ▸ List.mem_append_right _ (List.mem_cons_self ..)
  have hjob : dsc ∈ jobs := hsub (haccounted.subset (List.mem_append_right _ hmid))
  have hagree : Set.EqOn memory (runJob s.memory dsc) (junkBytes m jobs)ᶜ := fun x hx =>
    hmemory fun hin => hx ⟨dsc, hjob, hin⟩
  obtain ⟨hready, hsim'⟩ := hsim.execute (jobs_footprint m) hpending hagree
  refine ⟨hsim', ?_, fun d hd x hx => ?_⟩
  · calc s.ran ++ [dsc] ++ (before ++ after)
        = s.ran ++ (dsc :: (before ++ after)) := by rw [List.append_assoc, List.singleton_append]
      _ |>.Perm (s.ran ++ s.pending) := by rw [hpending]; exact List.perm_middle.symm.append_left _
      _ |>.Perm submitted := haccounted
  · -- the job executed is apart from those that stay
    have hpairs := List.pairwise_append.mp (hpending ▸ hsim.apart)
    have hap : JobsApart m d dsc := by
      rcases List.mem_append.mp hd with hd | hd
      · exact hpairs.2.2 d hd dsc (List.mem_cons_self ..)
      · exact (List.rel_of_pairwise_cons hpairs.2.1 hd).symm
    have hkept : x ∉ jobWrites m dsc := (hap.1 x (record_subset_jobWrites m d hx)).2
    have hin : d ∈ s.pending := by
      rw [hpending]
      exact List.mem_append.mpr ((List.mem_append.mp hd).imp_right (List.mem_cons_of_mem dsc))
    have hfree : x ∉ freeBytes m dsc := fun hin => hkept (record_subset_jobWrites m dsc hin.1)
    calc memory x = runJob s.memory dsc x := hmemory hfree
      _ = s.memory x := (jobs_footprint m).frame _ dsc hready x hkept
      _ = 0#8 := hwaiting d hin x hx

/-- The invariant holds in every state of a run. -/
theorem Automatic.Reaches.invariant {submitted : List ℕ} {s : AutomaticState}
    (h : Automatic.Reaches t m threads submitted s) (hsub : submitted ⊆ jobs)
    (hruns : Runs runJob (JobReady m) m submitted) : AutomaticInvariant m jobs submitted s := by
  induction h with
  | start => exact ⟨simulates_nil _ m, List.Perm.nil, fun d hd => absurd hd List.not_mem_nil⟩
  | @submit submitted s q _ hap ih =>
    obtain ⟨hbefore, hready, -⟩ := runs_append.mp hruns
    obtain ⟨hsub, hq⟩ := List.append_subset.mp hsub
    exact (ih hsub hbefore).submit hunread hsub (hq (List.mem_cons_self ..)) hready hap
  | execute memory _ hpending hmemory ih => exact (ih hsub hruns).execute hsub hpending hmemory

end Runs

/-- **Every run of the automatic path** of jobs that run on the software path, none of which
reads a completion record, executes each job once.  A job that is pending reports that it is not
finished.  What no pending job writes is already as the software path leaves it, and executing
the pending jobs would make the rest so, the bytes that are nobody's output apart; the status of
a job is none of these, unless the record of another one overlaps it in part. -/
theorem automatic_reaches (t : HwDispatcher) {m : Memory} {threads : ℕ → ThreadState}
    {jobs : List ℕ} {s : AutomaticState} (h : Automatic.Reaches t m threads jobs s)
    (hop : ∀ d ∈ jobs, operationOf m d ≠ none) (hruns : Runs runJob (JobReady m) m jobs)
    (hunread : ∀ d ∈ jobs, ∀ e ∈ jobs, ∀ x ∈ jobReads m d,
      x ∉ Region.addrs ⟨getCompletionRecord m e, recordSize⟩) :
    (s.ran ++ s.pending).Perm jobs
      ∧ (∀ d ∈ s.pending, Automatic.finished s.memory d = some (s.memory, false))
      ∧ (∀ x, x ∉ junkBytes m jobs → (∀ d ∈ s.pending, x ∉ jobWrites m d) →
          s.memory x = jobs.foldl runJob m x)
      ∧ Runs runJob (JobReady m) s.memory s.pending
      ∧ Set.EqOn (s.pending.foldl runJob s.memory) (jobs.foldl runJob m) (junkBytes m jobs)ᶜ
      ∧ ∀ d ∈ jobs, (∀ e ∈ jobs, getCompletionRecord m e = getCompletionRecord m d
            ∨ Region.Apart ⟨getCompletionRecord m e, recordSize⟩
                ⟨getCompletionRecord m d, recordSize⟩) →
          getCompletionRecord m d ∉ junkBytes m jobs := by
  obtain ⟨hsim, haccounted, hwaiting⟩ :=
    h.invariant hunread (List.Subset.refl jobs) hruns
  have hmem : ∀ d, getCompletionRecord m d
      ∈ Region.addrs ⟨getCompletionRecord m d, recordSize⟩ := fun d =>
    Region.mem_addrs.mpr ⟨le_rfl, by simp only [recordSize]; omega⟩
  refine ⟨haccounted, fun d hd => ?_, fun x hx hwrites => ?_, hsim.runs, hsim.agree, ?_⟩
  · have hready := hsim.ready (jobs_footprint m) hd
    have hzero : s.memory (getCompletionRecord s.memory d) = 0#8 := by
      rw [getCompletionRecord_congr hready.descriptor]
      exact hwaiting d hd _ (hmem d)
    have hfinished : Hardware.finished s.memory d = false := by
      rw [Hardware.finished, Software.finished, hzero]
      decide
    simp only [Automatic.finished, hfinished, Bool.false_and]
    rfl
  · rw [← hsim.agree hx]
    exact ((jobs_footprint m).runs_frame hsim.runs hwrites).symm
  · rintro d - hrecords ⟨e, he, hfree⟩
    rcases hrecords e he with heq | hap
    · refine hfree.2 ?_
      rw [← heq]
      exact status_mem_outputs (hop e he)
    · exact hap.notMem hfree.1 (hmem d)

/-- The jobs of `threeJobs`, the empty operation first, which a device takes; the fill is refused
and executed in software, the move is taken again. -/
theorem reaches_threeJobs (hfill : JobsApart threeJobs 192 64)
    (hmove : JobsApart threeJobs 192 128) :
    ∃ s, Automatic.Reaches twoNodes threeJobs (fun _ => ⟨0, none⟩) [192, 64, 128] s
      ∧ s.pending = [192, 128] ∧ s.ran = [64] := by
  have h₀ := @Automatic.Reaches.start twoNodes threeJobs fun _ => ⟨0, none⟩
  have h₁ := h₀.submit ⟨0, 192, 0#32, 0#32, fun _ _ => true⟩ fun d (hd : d ∈ []) =>
    absurd hd List.not_mem_nil
  have h₂ := h₁.submit ⟨1, 64, 1#32, 0#32, fun _ _ => false⟩ fun d (hd : d ∈ [192]) =>
    List.mem_singleton.mp hd ▸ hfill
  have h₃ := h₂.submit ⟨0, 128, 0#32, 0#32, fun _ _ => true⟩ fun d (hd : d ∈ [192]) =>
    List.mem_singleton.mp hd ▸ hmove
  exact ⟨_, h₃, rfl, rfl⟩

/-- The empty operation is executed first; the move is still pending. -/
theorem automatic_reaches_threeJobs :
    ∃ s, Automatic.Reaches twoNodes threeJobs (fun _ => ⟨0, none⟩) [192, 64, 128] s
      ∧ s.ran = [64, 192] ∧ s.pending = [128]
      ∧ (s.ran ++ s.pending).Perm [192, 64, 128]
      ∧ (∀ d ∈ s.pending, Automatic.finished s.memory d = some (s.memory, false))
      ∧ (∀ x, x ∉ junkBytes threeJobs [192, 64, 128] → x ∉ jobWrites threeJobs 128 →
          s.memory x = [192, 64, 128].foldl runJob threeJobs x) := by
  have hop : operationOf threeJobs 192 = some .nop ∧ operationOf threeJobs 64 = some .fill
      ∧ operationOf threeJobs 128 = some .memMove := by decide
  have hwritten : writtenRegions threeJobs 192 = [⟨1152, 32⟩]
      ∧ writtenRegions threeJobs 64 = [⟨1024, 32⟩, ⟨2048, 16⟩]
      ∧ writtenRegions threeJobs 128 = [⟨1088, 32⟩, ⟨3072, 16⟩] := by decide
  have hread : readRegions threeJobs 192 = [⟨192, 64⟩]
      ∧ readRegions threeJobs 64 = [⟨64, 64⟩]
      ∧ readRegions threeJobs 128 = [⟨128, 64⟩, ⟨2048, 16⟩] := by decide
  have hrecord : getCompletionRecord threeJobs 192 = 1152
      ∧ getCompletionRecord threeJobs 64 = 1024
      ∧ getCompletionRecord threeJobs 128 = 1088 := by decide
  obtain ⟨hop₁, hop₂, hop₃⟩ := hop
  obtain ⟨hw₁, hw₂, hw₃⟩ := hwritten
  obtain ⟨hr₁, hr₂, hr₃⟩ := hread
  obtain ⟨hc₁, hc₂, hc₃⟩ := hrecord
  have hfill : JobsApart threeJobs 192 64 := by
    refine jobsApart_of_regions ?_ ?_
    · rw [hw₁, hr₂, hw₂]; decide
    · rw [hw₂, hr₁]; decide
  have hmove : JobsApart threeJobs 192 128 := by
    refine jobsApart_of_regions ?_ ?_
    · rw [hw₁, hr₃, hw₃]; decide
    · rw [hw₃, hr₁]; decide
  obtain ⟨s, hs, hpending, hran⟩ := reaches_threeJobs hfill hmove
  have hlast := @Automatic.Reaches.execute _ _ _ _ s [] [128] 192 _ hs hpending fun _ _ => rfl
  have hknown : ∀ d ∈ [192, 64, 128], operationOf threeJobs d ≠ none := by
    simp only [List.mem_cons, List.not_mem_nil, or_false, forall_eq_or_imp, forall_eq, hop₁, hop₂,
      hop₃]
    decide
  have hruns : Runs runJob (JobReady threeJobs) threeJobs [192, 64, 128] := by
    refine runs_of_untouched ?_ ?_
    · simp only [List.mem_cons, List.not_mem_nil, or_false, forall_eq_or_imp, forall_eq, hop₁,
        hop₂, hop₃]
      decide
    · simp only [List.mem_cons, List.not_mem_nil, or_false, forall_eq_or_imp, forall_eq, hw₁, hw₂,
        hw₃]
      decide
  have hapart : ∀ d ∈ [192, 64, 128], ∀ e ∈ [192, 64, 128], ∀ R ∈ readRegions threeJobs d,
      R.Apart ⟨getCompletionRecord threeJobs e, recordSize⟩ := by
    simp only [List.mem_cons, List.not_mem_nil, or_false, forall_eq_or_imp, forall_eq, hr₁, hr₂,
      hr₃, hc₁, hc₂, hc₃]
    decide
  obtain ⟨hperm, hfinished, hdone, -⟩ := automatic_reaches twoNodes hlast hknown hruns
    fun d hd e he x ⟨R, hR, hx⟩ => (hapart d hd e he R hR).notMem hx
  exact ⟨_, hlast, by rw [hran]; rfl, rfl, hperm, hfinished, fun x hx hmove =>
    hdone x hx fun d hd => List.mem_singleton.mp hd ▸ hmove⟩

end DataMover
