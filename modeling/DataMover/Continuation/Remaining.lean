import DataMover.CacheFlush
import DataMover.Continuation.Wait

/-!
# Continuing a dualcast, a delta and a flush

The loops of `dml_ref_dualcast` and `dml_ref_apply_delta` go through bytes and through notes
one after another, so the loop of the continuation goes on where the hardware stopped, whatever
the buffers hold and however they overlap: a dualcast at any byte, a delta at any note.  A cache
flush goes through lines; its continuation begins a line where the hardware stopped, which is
the line the whole loop would have come to when that is a whole number of lines.

## Main results

* `dmlRefDualcast_add`, `dmlRefApplyDelta_add` — the loops in two parts.
* `dualcast_continuation`, `applyDelta_continuation` — a wait leaves the memory of the
  uninterrupted run.
* `cacheFlush_continuation` — the instructions of both parts reach the lines of the whole.
-/

namespace DataMover

open ByteMemory

section Split

/-- **A dualcast in two parts.** -/
theorem dmlRefDualcast_add (m : Memory) (src dst1 dst2 k n : ℕ) :
    dmlRefDualcast m src dst1 dst2 (k + n)
      = dmlRefDualcast (dmlRefDualcast m src dst1 dst2 k) (src + k) (dst1 + k) (dst2 + k) n := by
  simp only [dmlRefDualcast, Loop.iter_add, Nat.add_assoc]

/-- **The notes of a delta in two parts.** -/
theorem dmlRefApplyDelta_add (m : Memory) (deltaRecord dst n : ℕ) {k : ℕ} (hk : k % 10 = 0) :
    dmlRefApplyDelta m deltaRecord dst (k + n)
      = dmlRefApplyDelta (dmlRefApplyDelta m deltaRecord dst k) (deltaRecord + k) dst n := by
  have hcount : (k + n) / 10 = k / 10 + n / 10 := by omega
  have hnote : ∀ i, deltaRecord + k + 10 * i = deltaRecord + 10 * (k / 10 + i) := by
    intro i
    omega
  simp only [dmlRefApplyDelta, hcount, Loop.iter_add, hnote]

end Split

section Continuation

variable {m₀ w m : Memory} {dsc k : ℕ}

/-- The rewritten descriptor finds a source as the hardware left it. -/
theorem PageFault.eqOn_update (hfault : PageFault m₀ w m dsc k) (hp : Placed m₀ dsc) {a n : ℕ}
    (hmem : ⟨a, n⟩ ∈ operands m₀ dsc) {d r : ℕ} (hd : d + r ≤ n) :
    Set.EqOn (updateForContinuation m dsc) w (Region.addrs ⟨a + d, r⟩) := by
  intro x hx
  rw [Region.mem_addrs] at hx
  simp only at hx
  exact hfault.update_apply hp hmem
    (Region.mem_addrs.mpr ⟨by simp only; omega, by simp only; omega⟩)

/-- The status byte is not touched by the merge. -/
theorem status_addAssign_bytesCompleted (t : Memory) (record v : ℕ) :
    AnyCompletionRecord.status.get (AnyCompletionRecord.bytesCompleted.addAssign t record v) record
      = AnyCompletionRecord.status.get t record :=
  Field.get_addAssign_of_apart (by decide) t record v

/-- An operation without a check ends with success. -/
theorem status_resumed (hfault : PageFault m₀ w m dsc k) (hp : Placed m₀ dsc)
    (hop : operationOf m₀ dsc = some .dualcast ∨ operationOf m₀ dsc = some .applyDelta
      ∨ operationOf m₀ dsc = some .cacheFlush) :
    AnyCompletionRecord.status.get (resumed m dsc) (getCompletionRecord m₀ dsc)
      = ExecutionStatus.success.toUnderlying := by
  have hrec : getCompletionRecord (updateForContinuation m dsc) dsc
      = getCompletionRecord m₀ dsc := by
    rw [getCompletionRecord_updateForContinuation, hfault.record hp]
  rw [resumed, SoftwareDevice.submit, ← hrec]
  rcases hop with hop | hop | hop <;>
    rw [hfault.update_operation hp hop] <;>
    exact status_setStatus _ _ _

/-! ### Dualcast -/

theorem submit_dualcast_apply {src dst1 dst2 n x : ℕ} (hop : operationOf m dsc = some .dualcast)
    (hsrc : AnyDescriptor.sourceAddress.get m dsc = src)
    (hdst1 : DualcastDescriptor.destination1Address.get m dsc = dst1)
    (hdst2 : DualcastDescriptor.destination2Address.get m dsc = dst2)
    (hn : AnyDescriptor.transferSize.get m dsc = n)
    (hx : x ∉ Region.addrs ⟨getCompletionRecord m dsc, recordSize⟩) :
    (SoftwareDevice.submit m dsc).1 x = dmlRefDualcast m src dst1 dst2 n x := by
  rw [SoftwareDevice.submit, hop]
  simp only [Kernels.dualcast, hsrc, hdst1, hdst2, hn]
  rw [setStatus_apply hx]

theorem mem_operands_dualcast (hop : operationOf m₀ dsc = some .dualcast) :
    ⟨AnyDescriptor.sourceAddress.get m₀ dsc, AnyDescriptor.transferSize.get m₀ dsc⟩
        ∈ operands m₀ dsc
      ∧ ⟨DualcastDescriptor.destination1Address.get m₀ dsc, AnyDescriptor.transferSize.get m₀ dsc⟩
        ∈ operands m₀ dsc
      ∧ ⟨DualcastDescriptor.destination2Address.get m₀ dsc, AnyDescriptor.transferSize.get m₀ dsc⟩
        ∈ operands m₀ dsc := by
  simp [operands, hop]

/-- **A dualcast stopped by a page fault ends as the whole dualcast**, however its buffers
overlap: apart from the descriptor and the record, the memory is that of the software run
without the fault, and the status is *success*. -/
theorem dualcast_continuation (umwait : Bool) (hop : operationOf m₀ dsc = some .dualcast)
    (hp : Placed m₀ dsc) (hk : k ≤ AnyDescriptor.transferSize.get m₀ dsc)
    (hfault : PageFault m₀ (dmlRefDualcast m₀ (AnyDescriptor.sourceAddress.get m₀ dsc)
      (DualcastDescriptor.destination1Address.get m₀ dsc)
      (DualcastDescriptor.destination2Address.get m₀ dsc) k) m dsc k) :
    ∃ m', Automatic.wait m dsc umwait = some m'
      ∧ AnyCompletionRecord.status.get m' (getCompletionRecord m₀ dsc)
        = ExecutionStatus.success.toUnderlying
      ∧ ∀ x, x ∉ Region.addrs ⟨getCompletionRecord m₀ dsc, recordSize⟩ →
        x ∉ Region.addrs ⟨dsc, descriptorSize⟩ → m' x = (SoftwareDevice.submit m₀ dsc).1 x := by
  have hplain : PageFault.Plain .dualcast := ⟨by simp [AddsBytes], by simp, by simp⟩
  have hreq : k ≤ requested m₀ dsc := by
    rw [requested_of_ne hop (by decide)]
    exact hk
  refine ⟨_, hfault.wait_eq_addAssign hp hop hreq hplain umwait, ?_, fun x hrec hdsc => ?_⟩
  · rw [status_addAssign_bytesCompleted, status_resumed hfault hp (Or.inl hop)]
  obtain ⟨hsrc, hdst1, hdst2⟩ := mem_operands_dualcast hop
  have hfits := hp.fits _ hsrc
  have hfit1 := hp.fits _ hdst1
  have hfit2 := hp.fits _ hdst2
  simp only at hfits hfit1 hfit2
  have hrec' : x ∉ Region.addrs
      ⟨getCompletionRecord (updateForContinuation m dsc) dsc, recordSize⟩ := by
    rw [getCompletionRecord_updateForContinuation, hfault.record hp]
    exact hrec
  rw [addAssign_apply_of_notMem hrec (by decide), resumed,
    submit_dualcast_apply (hfault.update_operation hp hop)
      (hfault.update_advanced hp hop (by simp [advancedFields]) (by decide) (by omega))
      (hfault.update_advanced hp hop (by simp [advancedFields]) (by decide) (by omega))
      (hfault.update_advanced hp hop (by simp [advancedFields]) (by decide) (by omega))
      (hfault.update_shrunk hp hop (by decide) (by decide) hk) hrec',
    submit_dualcast_apply hop rfl rfl rfl (Nat.add_sub_cancel' hk).symm hrec, dmlRefDualcast_add]
  refine (dmlRefDualcast_sameChange ?_).apply_eq (hfault.update_apply_of_notMem hrec hdsc)
  exact hfault.eqOn_update hp hsrc (by omega)

/-- Eight bytes at 128, to 160 and to 192; the hardware has copied the first three. -/
def dualcastStopped : Memory :=
  DualcastDescriptor.destination2Address.set (rawDescriptor .dualcast 64 32 128 160 8) 64 192

theorem dualcast_continuation_sample :
    ∃ m', Automatic.wait (writeFault (dmlRefDualcast dualcastStopped 128 160 192 3) 32 3) 64 true
        = some m'
      ∧ AnyCompletionRecord.status.get m' 32 = ExecutionStatus.success.toUnderlying
      ∧ ∀ x, x ∉ Region.addrs ⟨32, recordSize⟩ → x ∉ Region.addrs ⟨64, descriptorSize⟩ →
        m' x = (SoftwareDevice.submit dualcastStopped 64).1 x := by
  have hop : operationOf dualcastStopped 64 = some .dualcast := by decide
  have hrec : getCompletionRecord dualcastStopped 64 = 32 := by decide
  have hsrc : AnyDescriptor.sourceAddress.get dualcastStopped 64 = 128 := by decide
  have hdst1 : AnyDescriptor.destinationAddress.get dualcastStopped 64 = 160 := by decide
  have hdst2 : DualcastDescriptor.destination2Address.get dualcastStopped 64 = 192 := by decide
  have hn : AnyDescriptor.transferSize.get dualcastStopped 64 = 8 := by decide
  have hkept : Set.EqOn (dmlRefDualcast dualcastStopped 128 160 192 3) dualcastStopped
      (Region.addrs ⟨64, descriptorSize⟩) := by
    intro x hx
    rw [Region.mem_addrs] at hx
    simp only [descriptorSize] at hx
    exact dmlRefDualcast_of_notMem (by omega) (by omega)
  have hfault := pageFault_writeFault dualcastStopped _ 64 (show 3 < 2 ^ 32 by decide) hkept
  rw [hrec] at hfault
  have hwait := dualcast_continuation (k := 3) true hop (by decide) (by rw [hn]; decide)
    (by rw [hsrc, hdst1, hdst2]; exact hfault)
  rwa [hrec] at hwait

/-! ### Applying a delta -/

theorem submit_applyDelta_apply {rec dst size x : ℕ} (hop : operationOf m dsc = some .applyDelta)
    (hrecord : ApplyDeltaDescriptor.deltaRecordAddress.get m dsc = rec)
    (hdst : AnyDescriptor.destinationAddress.get m dsc = dst)
    (hsize : ApplyDeltaDescriptor.deltaRecordSize.get m dsc = size)
    (hx : x ∉ Region.addrs ⟨getCompletionRecord m dsc, recordSize⟩) :
    (SoftwareDevice.submit m dsc).1 x = dmlRefApplyDelta m rec dst size x := by
  rw [SoftwareDevice.submit, hop]
  simp only [Kernels.applyDelta, hrecord, hdst, hsize]
  rw [setStatus_apply hx]

/-- **A delta stopped by a page fault between two of its notes ends as the whole delta**: apart
from the descriptor and the record, the memory is that of the software run without the fault. -/
theorem applyDelta_continuation (umwait : Bool) (hop : operationOf m₀ dsc = some .applyDelta)
    (hp : Placed m₀ dsc) (hk : k ≤ ApplyDeltaDescriptor.deltaRecordSize.get m₀ dsc)
    (h10 : k % 10 = 0) (hdelta : DeltaWithin m₀ dsc)
    (hfault : PageFault m₀ (dmlRefApplyDelta m₀ (ApplyDeltaDescriptor.deltaRecordAddress.get m₀ dsc)
      (AnyDescriptor.destinationAddress.get m₀ dsc) k) m dsc k) :
    ∃ m', Automatic.wait m dsc umwait = some m'
      ∧ AnyCompletionRecord.status.get m' (getCompletionRecord m₀ dsc)
        = ExecutionStatus.success.toUnderlying
      ∧ ∀ x, x ∉ Region.addrs ⟨getCompletionRecord m₀ dsc, recordSize⟩ →
        x ∉ Region.addrs ⟨dsc, descriptorSize⟩ → m' x = (SoftwareDevice.submit m₀ dsc).1 x := by
  obtain ⟨hnotes, hap⟩ := hdelta hop
  obtain ⟨hmem, -⟩ := mem_operands_applyDelta hop
  have hfit := hp.fits _ hmem
  simp only at hfit
  set rec := ApplyDeltaDescriptor.deltaRecordAddress.get m₀ dsc with hrecord
  set size := ApplyDeltaDescriptor.deltaRecordSize.get m₀ dsc with hsize
  set dst := AnyDescriptor.destinationAddress.get m₀ dsc with hdst
  set n := AnyDescriptor.transferSize.get m₀ dsc with hn
  have hreq : k ≤ requested m₀ dsc := by
    rw [requested, if_pos hop]
    exact hk
  -- what the hardware has applied leaves the notes alone
  have hkeeps : ∀ i, i < size → dmlRefApplyDelta m₀ rec dst k (rec + i) = m₀ (rec + i) := by
    intro i hi
    refine dmlRefApplyDelta_of_notMem (n := n) (fun index hindex => hnotes index (by omega))
      (hap.mono ⟨le_rfl, by simp only; omega⟩ (Region.Inside.refl _)) ?_
    exact notMem_addrs.mp (hap.notMem (Region.add_mem_addrs hi))
  have hrest : NotesWithin (dmlRefApplyDelta m₀ rec dst k) (rec + k) (size - k) n := by
    have hlater : NotesWithin m₀ (rec + k) (size - k) n := by
      intro index hindex
      have h := hnotes (k / 10 + index) (by omega)
      rwa [show rec + 10 * (k / 10 + index) = rec + k + 10 * index by omega] at h
    refine hlater.congr fun i hi => ?_
    rw [Nat.add_assoc]
    exact hkeeps (k + i) (by omega)
  have hwithin := hfault.deltaWithin hp hop hreq fun _ => ⟨hrest, hap⟩
  have hr := hfault.resumable hp hop hreq (fun h => by cases h) fun h => by cases h
  have hopm := hfault.operation hp hop
  refine ⟨_, DataMover.wait_eq_addAssign (hfault.placed hp) hr (by rw [hopm]; simp) hwithin
    (hfault.isPageFault hp) hopm (by simp [AddsBytes]) umwait, ?_, fun x hrec hdsc => ?_⟩
  · rw [hfault.record hp, status_addAssign_bytesCompleted,
      status_resumed hfault hp (Or.inr (Or.inl hop))]
  have hrec' : x ∉ Region.addrs
      ⟨getCompletionRecord (updateForContinuation m dsc) dsc, recordSize⟩ := by
    rw [getCompletionRecord_updateForContinuation, hfault.record hp]
    exact hrec
  rw [hfault.record hp, addAssign_apply_of_notMem hrec (by decide), resumed,
    submit_applyDelta_apply (hfault.update_operation hp hop)
      (hfault.update_advanced hp hop (by simp [advancedFields]) (by decide) (by omega))
      (hfault.update_kept hp hop (by decide) (by decide))
      (hfault.update_shrunk hp hop (by simp [shrunkFields]) (by decide) hk) hrec',
    submit_applyDelta_apply hop rfl rfl (Nat.add_sub_cancel' hk).symm hrec,
    dmlRefApplyDelta_add _ _ _ _ h10]
  refine (dmlRefApplyDelta_sameChange ?_).apply_eq (hfault.update_apply_of_notMem hrec hdsc)
  exact hfault.eqOn_update hp hmem (by omega)

/-- Two notes at 128, for the blocks 0 and 1 of the 16 bytes at 160; the hardware has applied the
first. -/
def applyDeltaStopped : Memory :=
  let m := rawDescriptor .applyDelta 64 32 128 160 16
  let m := ApplyDeltaDescriptor.deltaRecordSize.set m 64 20
  store m 138 2 1

theorem applyDelta_continuation_sample :
    ∃ m', Automatic.wait (writeFault (dmlRefApplyDelta applyDeltaStopped 128 160 10) 32 10) 64 true
        = some m'
      ∧ AnyCompletionRecord.status.get m' 32 = ExecutionStatus.success.toUnderlying
      ∧ ∀ x, x ∉ Region.addrs ⟨32, recordSize⟩ → x ∉ Region.addrs ⟨64, descriptorSize⟩ →
        m' x = (SoftwareDevice.submit applyDeltaStopped 64).1 x := by
  have hop : operationOf applyDeltaStopped 64 = some .applyDelta := by decide
  have hrec : getCompletionRecord applyDeltaStopped 64 = 32 := by decide
  have hsrc : AnyDescriptor.sourceAddress.get applyDeltaStopped 64 = 128 := by decide
  have hdst : AnyDescriptor.destinationAddress.get applyDeltaStopped 64 = 160 := by decide
  have hsize : ApplyDeltaDescriptor.deltaRecordSize.get applyDeltaStopped 64 = 20 := by decide
  have hn : AnyDescriptor.transferSize.get applyDeltaStopped 64 = 16 := by decide
  have hnotes : ∀ size, size ≤ 20 → NotesWithin applyDeltaStopped 128 size 16 := by
    have hall : ∀ index, index < 2 → 8 * load applyDeltaStopped (128 + 10 * index) 2 + 8 ≤ 16 := by
      decide
    exact fun size hsize index hindex => hall index (by omega)
  have hkept : Set.EqOn (dmlRefApplyDelta applyDeltaStopped 128 160 10) applyDeltaStopped
      (Region.addrs ⟨64, descriptorSize⟩) := by
    intro x hx
    rw [Region.mem_addrs] at hx
    simp only [descriptorSize] at hx
    exact dmlRefApplyDelta_of_notMem (hnotes 10 (by decide)) (by decide) (by omega)
  have hfault := pageFault_writeFault applyDeltaStopped _ 64 (show 10 < 2 ^ 32 by decide) hkept
  rw [hrec] at hfault
  have hwithin : DeltaWithin applyDeltaStopped 64 := by
    intro _
    rw [hsrc, hsize, hdst, hn]
    exact ⟨hnotes 20 le_rfl, by decide⟩
  have hwait := applyDelta_continuation (k := 10) true hop (by decide) (by rw [hsize]; decide)
    (by decide) hwithin (by rw [hsrc, hdst]; exact hfault)
  rwa [hrec] at hwait

/-! ### Cache flush -/

theorem mem_operands_cacheFlush (hop : operationOf m₀ dsc = some .cacheFlush) :
    ⟨AnyDescriptor.destinationAddress.get m₀ dsc, AnyDescriptor.transferSize.get m₀ dsc⟩
      ∈ operands m₀ dsc := by
  simp [operands, hop]

/-- The lines the loop comes to, those of the first `k` bytes among them. -/
def linesOf (dst k : ℕ) : Set ℕ :=
  {line | ∃ i, i < k / cacheLineSize ∧ lineOf ((dst + cacheLineSize * i) % 2 ^ 64) = line}

/-- The lines in two parts. -/
theorem linesOf_add (dst n : ℕ) {k : ℕ} (hk : k % 64 = 0) :
    linesOf dst (k + n) = linesOf dst k ∪ linesOf (dst + k) n := by
  ext line
  simp only [linesOf, cacheLineSize, Set.mem_ofPred_eq, Set.mem_union]
  have hcount : (k + n) / 64 = k / 64 + n / 64 := by omega
  constructor
  · rintro ⟨i, hi, hline⟩
    rcases Nat.lt_or_ge i (k / 64) with hlt | hge
    · exact Or.inl ⟨i, hlt, hline⟩
    · refine Or.inr ⟨i - k / 64, by omega, ?_⟩
      rwa [show dst + k + 64 * (i - k / 64) = dst + 64 * i by omega]
  · rintro (⟨i, hi, hline⟩ | ⟨i, hi, hline⟩)
    · exact ⟨i, by omega, hline⟩
    · refine ⟨k / 64 + i, by omega, ?_⟩
      rwa [show dst + 64 * (k / 64 + i) = dst + k + 64 * i by omega]

/-- The lines a software flush reaches. -/
theorem reaches_iff_mem_linesOf {cpu : CacheFeatures} {t : Memory} {line : ℕ} :
    CacheLine.Reaches lineOf (runCacheFlush cpu t dsc).2 line ↔ flushesLines cpu t dsc = true ∧
      line ∈ linesOf (AnyDescriptor.destinationAddress.get t dsc)
        (AnyDescriptor.transferSize.get t dsc) :=
  reaches_runCacheFlush

/-- **A cache flush stopped by a page fault between two lines ends as the whole flush**: memory
keeps its contents, the status is *success*, and the lines the hardware has flushed and those
for which the continuation issues its instructions are the lines of the whole range. -/
theorem cacheFlush_continuation (umwait : Bool) (cpu : CacheFeatures)
    (hop : operationOf m₀ dsc = some .cacheFlush) (hp : Placed m₀ dsc)
    (hk : k ≤ AnyDescriptor.transferSize.get m₀ dsc) (h64 : k % 64 = 0)
    (hfault : PageFault m₀ m₀ m dsc k) :
    (∃ m', Automatic.wait m dsc umwait = some m'
        ∧ AnyCompletionRecord.status.get m' (getCompletionRecord m₀ dsc)
          = ExecutionStatus.success.toUnderlying
        ∧ ∀ x, x ∉ Region.addrs ⟨getCompletionRecord m₀ dsc, recordSize⟩ →
          x ∉ Region.addrs ⟨dsc, descriptorSize⟩ → m' x = m₀ x)
      ∧ ∀ line, CacheLine.Reaches lineOf (runCacheFlush cpu m₀ dsc).2 line ↔
        (flushesLines cpu m₀ dsc = true
            ∧ line ∈ linesOf (AnyDescriptor.destinationAddress.get m₀ dsc) k)
          ∨ CacheLine.Reaches lineOf (runCacheFlush cpu (updateForContinuation m dsc) dsc).2
            line := by
  have hplain : PageFault.Plain .cacheFlush := ⟨by simp [AddsBytes], by simp, by simp⟩
  have hreq : k ≤ requested m₀ dsc := by
    rw [requested_of_ne hop (by decide)]
    exact hk
  have hfit := hp.fits _ (mem_operands_cacheFlush hop)
  simp only at hfit
  constructor
  · refine ⟨_, hfault.wait_eq_addAssign hp hop hreq hplain umwait, ?_, fun x hrec hdsc => ?_⟩
    · rw [status_addAssign_bytesCompleted, status_resumed hfault hp (Or.inr (Or.inr hop))]
    · have hrec' : x ∉ Region.addrs
          ⟨getCompletionRecord (updateForContinuation m dsc) dsc, recordSize⟩ := by
        rw [getCompletionRecord_updateForContinuation, hfault.record hp]
        exact hrec
      rw [addAssign_apply_of_notMem hrec (by decide), resumed, SoftwareDevice.submit,
        hfault.update_operation hp hop]
      simp only [Kernels.cacheFlush, Kernels.dmlClflush, Kernels.dmlClwbUnsupported, ite_self]
      rw [setStatus_apply hrec', hfault.update_apply_of_notMem hrec hdsc]
  · intro line
    have hflags : flushesLines cpu (updateForContinuation m dsc) dsc = flushesLines cpu m₀ dsc := by
      unfold flushesLines cacheControl
      rw [hfault.update_kept hp hop (by decide) (by decide)]
    have hsplit := linesOf_add (AnyDescriptor.destinationAddress.get m₀ dsc)
      (AnyDescriptor.transferSize.get m₀ dsc - k) h64
    rw [Nat.add_sub_cancel' hk] at hsplit
    rw [reaches_iff_mem_linesOf, reaches_iff_mem_linesOf, hflags, hsplit,
      hfault.update_advanced hp hop (by simp [advancedFields]) (by decide) (by omega),
      hfault.update_shrunk hp hop (by decide) (by decide) hk, Set.mem_union, and_or_left]

/-- Four lines at 1024; the hardware has flushed the first. -/
theorem cacheFlush_continuation_sample :
    let m₀ := rawDescriptor .cacheFlush 64 32 0 1024 256
    (∃ m', Automatic.wait (writeFault m₀ 32 64) 64 true = some m'
        ∧ AnyCompletionRecord.status.get m' 32 = ExecutionStatus.success.toUnderlying
        ∧ ∀ x, x ∉ Region.addrs ⟨32, recordSize⟩ → x ∉ Region.addrs ⟨64, descriptorSize⟩ →
          m' x = m₀ x)
      ∧ ∀ line, CacheLine.Reaches lineOf (runCacheFlush ⟨true, true⟩ m₀ 64).2 line ↔
        (flushesLines ⟨true, true⟩ m₀ 64 = true ∧ line ∈ linesOf 1024 64)
          ∨ CacheLine.Reaches lineOf
            (runCacheFlush ⟨true, true⟩ (updateForContinuation (writeFault m₀ 32 64) 64) 64).2
            line := by
  intro m₀
  have hop : operationOf m₀ 64 = some .cacheFlush := by decide
  have hrec : getCompletionRecord m₀ 64 = 32 := by decide
  have hdst : AnyDescriptor.destinationAddress.get m₀ 64 = 1024 := by decide
  have hn : AnyDescriptor.transferSize.get m₀ 64 = 256 := by decide
  have hfault := pageFault_writeFault m₀ m₀ 64 (show 64 < 2 ^ 32 by decide) fun _ _ => rfl
  rw [hrec] at hfault
  have hwait := cacheFlush_continuation (k := 64) true ⟨true, true⟩ hop (by decide)
    (by rw [hn]; decide) (by decide) hfault
  rwa [hrec, hdst] at hwait

end Continuation

end DataMover
