import DataMover.Continuation.Descriptor
import DataMover.CoreInterconnect
import DataMover.Locality

/-!
# Waiting on a faulted descriptor

The hardware stops on a page fault, leaves some memory and a record behind, and
`automatic::wait` finishes the work in software.  For a placed descriptor the wait
always returns, and the memory it leaves is the merged record over what the
software kernel made of the rewritten descriptor.

## Main definitions

* `PageFault` — what the hardware leaves when it stops after `k` bytes.
* `resumed` — the memory after the software has run the continuation.

## Main results

* `wait_eq` — the wait returns, with the records merged.
* `wait_eq_addAssign` — for most operations only the bytes completed are merged.
-/

namespace DataMover

open ByteMemory

theorem requested_congr {m m' : Memory} {dsc : ℕ}
    (h : Set.EqOn m m' (Region.addrs ⟨dsc, descriptorSize⟩)) :
    requested m dsc = requested m' dsc := by
  rw [requested, requested, operationOf_congr h, Field.get_congr (by decide) h,
    Field.get_congr (by decide) h]

/-! ### What the hardware leaves -/

/-- The hardware ran the descriptor of `m₀` and stopped on a page fault after `k`
bytes: it left the memory `w`, which has the descriptor as it was, and a record
that says so. -/
structure PageFault (m₀ w m : Memory) (dsc k : ℕ) : Prop where
  memory : ∀ x, x ∉ Region.addrs ⟨getCompletionRecord m₀ dsc, recordSize⟩ → m x = w x
  kept : Set.EqOn w m₀ (Region.addrs ⟨dsc, descriptorSize⟩)
  status : isPageFault (AnyCompletionRecord.status.get m (getCompletionRecord m₀ dsc)) = true
  bytes : AnyCompletionRecord.bytesCompleted.get m (getCompletionRecord m₀ dsc) = k

namespace PageFault

variable {m₀ w m : Memory} {dsc k : ℕ} {op : Operation} (hf : PageFault m₀ w m dsc k)
  (hp : Placed m₀ dsc)
include hf hp

theorem descriptor : Set.EqOn m m₀ (Region.addrs ⟨dsc, descriptorSize⟩) := fun _ hx =>
  (hf.memory _ (hp.record_apart.symm.notMem hx)).trans (hf.kept hx)

theorem placed : Placed m dsc := hp.congr (hf.descriptor hp)

theorem record : getCompletionRecord m dsc = getCompletionRecord m₀ dsc :=
  getCompletionRecord_congr (hf.descriptor hp)

theorem operation (hop : operationOf m₀ dsc = some op) : operationOf m dsc = some op :=
  (operationOf_congr (hf.descriptor hp)).trans hop

theorem get {f : Field} (hfw : f.Within descriptorSize) : f.get m dsc = f.get m₀ dsc :=
  Field.get_congr hfw (hf.descriptor hp)

theorem isPageFault :
    isPageFault (AnyCompletionRecord.status.get m (getCompletionRecord m dsc)) = true := by
  rw [hf.record hp]; exact hf.status

theorem bytesCompleted :
    AnyCompletionRecord.bytesCompleted.get m (getCompletionRecord m dsc) = k := by
  rw [hf.record hp]; exact hf.bytes

omit hp in
/-- The update leaves all other memory as the hardware left it. -/
theorem update_apply_of_notMem {x : ℕ}
    (hrec : x ∉ Region.addrs ⟨getCompletionRecord m₀ dsc, recordSize⟩)
    (hdsc : x ∉ Region.addrs ⟨dsc, descriptorSize⟩) : updateForContinuation m dsc x = w x := by
  have hdsc := notMem_addrs.mp hdsc
  rw [updateForContinuation_apply (by omega)]
  exact hf.memory x hrec

/-- The rewritten descriptor finds the buffers as the hardware left them. -/
theorem update_apply {R : Region} (hR : R ∈ operands m₀ dsc) {x : ℕ} (hx : x ∈ R.addrs) :
    updateForContinuation m dsc x = w x :=
  hf.update_apply_of_notMem ((hp.apart_record R hR).notMem hx)
    ((hp.apart_descriptor R hR).notMem hx)

/-! The fields of the rewritten descriptor, in terms of the original one. -/

variable {f : Field} (hop : operationOf m₀ dsc = some op)
include hop

theorem update_operation : operationOf (updateForContinuation m dsc) dsc = some op := by
  rw [operationOf_updateForContinuation, hf.operation hp hop]

theorem update_advanced
    (hfa : f ∈ advancedFields op (AnyCompletionRecord.result.get m (getCompletionRecord m₀ dsc)))
    (hfw : f.Within descriptorSize) (hfit : f.get m₀ dsc + k < 2 ^ 64) :
    f.get (updateForContinuation m dsc) dsc = f.get m₀ dsc + k := by
  have hk := hf.bytes
  rw [get_advanced (hf.operation hp hop) (hf.record hp) hp.record_apart hfa
    (by rw [hf.get hp hfw, hk]; exact hfit), hf.get hp hfw, hk]

theorem update_shrunk (hfs : f ∈ shrunkFields op) (hfw : f.Within descriptorSize)
    (hle : k ≤ f.get m₀ dsc) :
    f.get (updateForContinuation m dsc) dsc = f.get m₀ dsc - k := by
  have hk := hf.bytes
  rw [get_shrunk (hf.operation hp hop) (hf.record hp) hp.record_apart hfs
    (by rw [hf.get hp hfw, hk]; exact hle), hf.get hp hfw, hk]

theorem update_takenOver {g : Field} (hfg : (f, g) ∈ takenOverFields op) :
    f.get (updateForContinuation m dsc) dsc = g.get m (getCompletionRecord m₀ dsc) :=
  get_takenOver (hf.operation hp hop) (hf.record hp) hp.record_apart hfg

theorem update_kept (hfk : ∀ g ∈ touchedFields op, f.Apart g) (hfw : f.Within descriptorSize) :
    f.get (updateForContinuation m dsc) dsc = f.get m₀ dsc := by
  rw [get_kept (hf.operation hp hop) hfk, hf.get hp hfw]

end PageFault

/-! ### Stopped states -/

/-- The record of a page fault after `k` bytes, written over the memory `w`. -/
def writeFault (w : Memory) (record k : ℕ) : Memory :=
  let m := AnyCompletionRecord.status.set w record
    ExecutionStatus.pageFaultDuringProcessing.toUnderlying
  AnyCompletionRecord.bytesCompleted.set m record k

theorem pageFault_writeFault (m₀ w : Memory) (dsc : ℕ) {k : ℕ} (hk : k < 2 ^ 32)
    (hkept : Set.EqOn w m₀ (Region.addrs ⟨dsc, descriptorSize⟩)) :
    PageFault m₀ w (writeFault w (getCompletionRecord m₀ dsc) k) dsc k where
  memory x hx := by
    rw [writeFault, set_apply_of_notMem hx (by decide), set_apply_of_notMem hx (by decide)]
  kept := hkept
  status := by
    rw [writeFault, Field.get_set_of_apart (by decide), Field.get_set_self_of_lt _ _ (by decide)]
    decide
  bytes := Field.get_set_self_of_lt _ _ hk

/-- The hardware may write more into the record. -/
theorem PageFault.set {m₀ w m : Memory} {dsc k : ℕ} (hf : PageFault m₀ w m dsc k) {g : Field}
    (hg : g.Within recordSize) (hs : AnyCompletionRecord.status.Apart g)
    (hb : AnyCompletionRecord.bytesCompleted.Apart g) (v : ℕ) :
    PageFault m₀ w (g.set m (getCompletionRecord m₀ dsc) v) dsc k where
  memory x hx := by rw [set_apply_of_notMem hx hg, hf.memory x hx]
  kept := hf.kept
  status := by rw [Field.get_set_of_apart hs]; exact hf.status
  bytes := by rw [Field.get_set_of_apart hb]; exact hf.bytes

/-! ### The continuation -/

/-- The memory after the software has run the continuation. -/
def resumed (m : Memory) (dsc : ℕ) : Memory :=
  (SoftwareDevice.submit (updateForContinuation m dsc) dsc).1

section Wait

variable {m : Memory} {dsc : ℕ} (hp : Placed m dsc) (hr : Resumable m dsc)
  (hbatch : operationOf m dsc ≠ some .batch)
  (hdelta : DeltaWithin (updateForContinuation m dsc) dsc)
include hp hr hbatch hdelta

/-- Outside the record and the buffers the software run changes nothing. -/
theorem resumed_apply {x : ℕ} (hrec : x ∉ Region.addrs ⟨getCompletionRecord m dsc, recordSize⟩)
    (hbuf : ∀ R ∈ operands m dsc, x ∉ R.addrs) :
    resumed m dsc x = updateForContinuation m dsc x := by
  refine submit_apply ?_ hdelta ?_ ?_
  · rw [operationOf_updateForContinuation]; exact hbatch
  · rw [getCompletionRecord_updateForContinuation]; exact hrec
  · intro R hR hx
    obtain ⟨R₀, hR₀, hin⟩ := operands_updateForContinuation hp hr R hR
    rw [Region.mem_addrs] at hx
    refine hbuf R₀ hR₀ (Region.mem_addrs.mpr ?_)
    exact ⟨le_trans hin.1 hx.1, lt_of_lt_of_le hx.2 hin.2⟩

theorem resumed_descriptor :
    Set.EqOn (resumed m dsc) (updateForContinuation m dsc)
      (Region.addrs ⟨dsc, descriptorSize⟩) := by
  intro x hx
  refine resumed_apply hp hr hbatch hdelta ?_ ?_
  · exact hp.record_apart.symm.notMem hx
  · exact fun R hR => (hp.apart_descriptor R hR).symm.notMem hx

theorem operationOf_resumed : operationOf (resumed m dsc) dsc = operationOf m dsc := by
  rw [operationOf_congr (resumed_descriptor hp hr hbatch hdelta),
    operationOf_updateForContinuation]

theorem getCompletionRecord_resumed :
    getCompletionRecord (resumed m dsc) dsc = getCompletionRecord m dsc := by
  rw [getCompletionRecord_congr (resumed_descriptor hp hr hbatch hdelta),
    getCompletionRecord_updateForContinuation]

/-- **The wait returns, with the records merged.** -/
theorem wait_eq
    (hfault : isPageFault (AnyCompletionRecord.status.get m (getCompletionRecord m dsc)) = true)
    (hop : operationOf m dsc ≠ none) (umwait : Bool) :
    Automatic.wait m dsc umwait
      = some (accumulateRecords (resumed m dsc) dsc
          (clone m (getCompletionRecord m dsc) recordSize)) := by
  refine Automatic.wait_of_pageFault hfault ?_ umwait
  have hrec := getCompletionRecord_resumed hp hr hbatch hdelta
  have hop' : operationOf (updateForContinuation m dsc) dsc ≠ none := by
    rw [operationOf_updateForContinuation]; exact hop
  obtain ⟨t, s, hs, heq⟩ := exists_submit_eq_setStatus hop'
  rw [Software.finished_iff]
  change AnyCompletionRecord.status.get (resumed m dsc)
    (getCompletionRecord (resumed m dsc) dsc) ≠ 0
  rw [hrec, resumed, heq, getCompletionRecord_updateForContinuation, status_setStatus]
  cases s <;> first | exact absurd rfl hs.1 | decide

/-- The operations whose records are merged by adding the bytes completed, and
nothing else. -/
def AddsBytes (op : Operation) : Prop :=
  op ≠ .nop ∧ op ≠ .drain ∧ op ≠ .batch ∧ op ≠ .compare ∧ op ≠ .createDelta

instance (op : Operation) : Decidable (AddsBytes op) := inferInstanceAs (Decidable (_ ∧ _))

/-- **For most operations the wait only adds the bytes completed** to what the
software run left. -/
theorem wait_eq_addAssign
    (hfault : isPageFault (AnyCompletionRecord.status.get m (getCompletionRecord m dsc)) = true)
    {op : Operation} (hop : operationOf m dsc = some op) (hadds : AddsBytes op) (umwait : Bool) :
    Automatic.wait m dsc umwait
      = some (AnyCompletionRecord.bytesCompleted.addAssign (resumed m dsc)
          (getCompletionRecord m dsc)
          (AnyCompletionRecord.bytesCompleted.get m (getCompletionRecord m dsc))) := by
  rw [wait_eq hp hr hbatch hdelta hfault (by rw [hop]; simp) umwait]
  have hclone : AnyCompletionRecord.bytesCompleted.get
      (clone m (getCompletionRecord m dsc) recordSize) 0
        = AnyCompletionRecord.bytesCompleted.get m (getCompletionRecord m dsc) :=
    get_clone (by decide) m _
  have hmerge : accumulateRecords (resumed m dsc) dsc
      (clone m (getCompletionRecord m dsc) recordSize)
        = accumulateBytesCompleted (resumed m dsc) dsc
            (clone m (getCompletionRecord m dsc) recordSize) := by
    rw [accumulateRecords, operationOf_resumed hp hr hbatch hdelta, hop]
    obtain ⟨h1, h2, h3, h4, h5⟩ := hadds
    cases op with
    | nop => exact absurd rfl h1
    | drain => exact absurd rfl h2
    | batch => exact absurd rfl h3
    | compare => exact absurd rfl h4
    | createDelta => exact absurd rfl h5
    | _ => rfl
  rw [hmerge, accumulateBytesCompleted, getCompletionRecord_resumed hp hr hbatch hdelta, hclone]

end Wait

/-! ### Waiting on what the hardware leaves -/

theorem mem_operands_applyDelta {m : Memory} {dsc : ℕ}
    (hop : operationOf m dsc = some .applyDelta) :
    ⟨ApplyDeltaDescriptor.deltaRecordAddress.get m dsc,
        ApplyDeltaDescriptor.deltaRecordSize.get m dsc⟩ ∈ operands m dsc
      ∧ ⟨AnyDescriptor.destinationAddress.get m dsc, AnyDescriptor.transferSize.get m dsc⟩
        ∈ operands m dsc := by
  simp [operands, hop, ApplyDeltaDescriptor.deltaRecordAddress, AnyDescriptor.sourceAddress]

namespace PageFault

variable {m₀ w m : Memory} {dsc k : ℕ} {op : Operation} (hf : PageFault m₀ w m dsc k)
  (hp : Placed m₀ dsc) (hop : operationOf m₀ dsc = some op) (hk : k ≤ requested m₀ dsc)
include hf hp hop hk

/-- Most operations need nothing but `k ≤ requested`. -/
theorem resumable
    (hdelta : op = .createDelta →
      CreateDeltaCompletionRecord.deltaRecordSize.get m (getCompletionRecord m₀ dsc)
        ≤ CreateDeltaDescriptor.maximumDeltaRecordSize.get m₀ dsc)
    (hinsert : op = .difInsert →
      AnyDescriptor.transferSize.get m₀ dsc % difBlockBytes m₀ dsc = 0) : Resumable m dsc where
  bytes_le := by
    rw [hf.bytesCompleted hp, requested_congr (hf.descriptor hp)]
    exact hk
  delta_le h := by
    rw [hf.operation hp hop] at h
    rw [hf.record hp, hf.get hp (by decide)]
    exact hdelta (Option.some.inj h)
  insert_size h := by
    rw [hf.operation hp hop] at h
    rw [hf.get hp (by decide), difBlockBytes_congr (hf.descriptor hp)]
    exact hinsert (Option.some.inj h)

/-- The notes an `apply_delta` has still to apply must point into its destination. -/
theorem deltaWithin
    (hnotes : op = .applyDelta →
      NotesWithin w (ApplyDeltaDescriptor.deltaRecordAddress.get m₀ dsc + k)
          (ApplyDeltaDescriptor.deltaRecordSize.get m₀ dsc - k)
          (AnyDescriptor.transferSize.get m₀ dsc)
        ∧ Region.Apart ⟨ApplyDeltaDescriptor.deltaRecordAddress.get m₀ dsc,
            ApplyDeltaDescriptor.deltaRecordSize.get m₀ dsc⟩
          ⟨AnyDescriptor.destinationAddress.get m₀ dsc, AnyDescriptor.transferSize.get m₀ dsc⟩) :
    DeltaWithin (updateForContinuation m dsc) dsc := by
  intro h
  rw [hf.update_operation hp hop] at h
  obtain rfl := Option.some.inj h
  obtain ⟨hwithin, hap⟩ := hnotes rfl
  rw [requested, if_pos hop] at hk
  obtain ⟨hmem, -⟩ := mem_operands_applyDelta hop
  have hfit := hp.fits _ hmem
  simp only at hfit
  rw [hf.update_advanced hp hop (by simp [advancedFields]) (by decide) (by omega),
    hf.update_shrunk hp hop (by simp [shrunkFields]) (by decide) hk,
    hf.update_kept hp hop (by decide) (by decide), hf.update_kept hp hop (by decide) (by decide)]
  refine ⟨hwithin.congr fun i hi => ?_, hap.mono (inside_advance hk) (Region.Inside.refl _)⟩
  exact hf.update_apply hp hmem (Region.mem_addrs.mpr ⟨by simp only; omega, by simp only; omega⟩)

/-- The operations whose continuation needs no more than `k ≤ requested` to run
and whose records are merged by adding the bytes. -/
def Plain (op : Operation) : Prop :=
  AddsBytes op ∧ op ≠ .difInsert ∧ op ≠ .applyDelta

/-- **The wait for a plain operation.** -/
theorem wait_eq_addAssign (hplain : Plain op) (umwait : Bool) :
    Automatic.wait m dsc umwait
      = some (AnyCompletionRecord.bytesCompleted.addAssign (resumed m dsc)
          (getCompletionRecord m₀ dsc) k) := by
  obtain ⟨hadds, hinsert, happly⟩ := hplain
  have hopm := hf.operation hp hop
  have hbatch : operationOf m dsc ≠ some .batch := by
    rw [hopm]
    exact fun h => hadds.2.2.1 (Option.some.inj h)
  have hr := hf.resumable hp hop hk (absurd · hadds.2.2.2.2) (absurd · hinsert)
  have hwithin := hf.deltaWithin hp hop hk (absurd · happly)
  rw [DataMover.wait_eq_addAssign (hf.placed hp) hr hbatch hwithin (hf.isPageFault hp) hopm hadds
    umwait, hf.bytesCompleted hp, hf.record hp]

/-- Outside the record and the buffers, and off the descriptor, the memory is
what the hardware left. -/
theorem resumed_apply (hplain : Plain op) {x : ℕ}
    (hrec : x ∉ Region.addrs ⟨getCompletionRecord m₀ dsc, recordSize⟩)
    (hdsc : x ∉ Region.addrs ⟨dsc, descriptorSize⟩)
    (hbuf : ∀ R ∈ operands m₀ dsc, x ∉ R.addrs) : resumed m dsc x = w x := by
  obtain ⟨hadds, hinsert, happly⟩ := hplain
  have hbatch : operationOf m dsc ≠ some .batch := by
    rw [hf.operation hp hop]
    exact fun h => hadds.2.2.1 (Option.some.inj h)
  have hr := hf.resumable hp hop hk (absurd · hadds.2.2.2.2) (absurd · hinsert)
  have hwithin := hf.deltaWithin hp hop hk (absurd · happly)
  rw [DataMover.resumed_apply (hf.placed hp) hr hbatch hwithin (by rw [hf.record hp]; exact hrec)
    (by rw [operands_congr (hf.descriptor hp)]; exact hbuf)]
  exact hf.update_apply_of_notMem hrec hdsc

end PageFault

end DataMover
