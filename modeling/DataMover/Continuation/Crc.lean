import DataMover.Continuation.Wait

/-!
# Continuing a CRC

The seed of the second part is the finished CRC of the first: inverted and
bit-reversed unless the flags bypass it.  The kernel's preparation of the seed
undoes exactly what it does to the result, so the register goes on where it
stopped.

## Main results

* `crcOf_add` — the CRC of `k + n` bytes is the CRC of the last `n` seeded with
  the CRC of the first `k`.
* `crc_continuation` — `crc` and `copy_crc` stopped after `k` bytes end with the
  CRC, and the destination, of the uninterrupted run.
-/

namespace DataMover

open ByteMemory

/-! ### The CRC in two parts -/

/-- **The CRC in two parts**, for all four combinations of the flags. -/
theorem crcOf_add (m : Memory) (src k n : ℕ) (seed : BitVec 32) (flags : ℕ) :
    Kernels.crcOf m src (k + n) seed flags
      = Kernels.crcOf m (src + k) n (Kernels.crcOf m src k seed flags) flags := by
  unfold Kernels.crcOf
  simp only
  cases intersects flags CrcSpecificFlag.bypassCrcInversionAndReflection <;>
    cases intersects flags CrcSpecificFlag.bypassDataReflection <;>
    simp [dmlRefCrc32u_add, dmlRefCrcReflectedU32_add]

/-! ### The kernels -/

section Kernel

variable {m : Memory} {dsc src dst n : ℕ}

theorem crcValue_set (m : Memory) (record : ℕ) (v : BitVec 32) :
    CrcCompletionRecord.crcValue.get (CrcCompletionRecord.crcValue.set m record v.toNat) record
      = v.toNat :=
  Field.get_set_self_of_lt m record v.isLt

/-- The CRC both kernels report, when the copy does not touch the source. -/
theorem submit_crcValue
    (hop : operationOf m dsc = some .crc ∨ operationOf m dsc = some .copyCrc)
    (hsrc : AnyDescriptor.sourceAddress.get m dsc = src)
    (hdst : AnyDescriptor.destinationAddress.get m dsc = dst)
    (hn : AnyDescriptor.transferSize.get m dsc = n)
    (hap : operationOf m dsc = some .copyCrc → Region.Apart ⟨src, n⟩ ⟨dst, n⟩) :
    CrcCompletionRecord.crcValue.get (SoftwareDevice.submit m dsc).1 (getCompletionRecord m dsc)
      = (Kernels.crcOf m src n (BitVec.ofNat 32 (CrcDescriptor.crcSeed.get m dsc))
          (AnyDescriptor.operationSpecificFlags.get m dsc)).toNat := by
  have hlt : n < 2 ^ 32 := hn ▸ transferSize_lt m dsc
  rcases hop with hop | hop
  · rw [SoftwareDevice.submit, hop]
    simp only [Kernels.crc, hsrc, hn]
    rw [get_setStatus (by decide), crcValue_set]
  · have hcopy : ∀ i, i < n → move m src dst n (src + i) = m (src + i) := by
      intro i hi
      have hap := hap hop
      unfold Region.Apart at hap
      simp only at hap
      exact move_apply_of_notMem (by omega)
    rw [SoftwareDevice.submit, hop]
    simp only [Kernels.copyCrc, hsrc, hdst, hn]
    rw [get_setStatus (by decide), crcValue_set,
      dmlRefMemMove_eq _ _ _ hlt, crcOf_congr hcopy]

/-- The destination of a copy, outside the record. -/
theorem submit_copyCrc_apply {x : ℕ} (hop : operationOf m dsc = some .copyCrc)
    (hsrc : AnyDescriptor.sourceAddress.get m dsc = src)
    (hdst : AnyDescriptor.destinationAddress.get m dsc = dst)
    (hn : AnyDescriptor.transferSize.get m dsc = n)
    (hx : x ∉ Region.addrs ⟨getCompletionRecord m dsc, recordSize⟩) :
    (SoftwareDevice.submit m dsc).1 x = move m src dst n x := by
  have hlt : n < 2 ^ 32 := hn ▸ transferSize_lt m dsc
  rw [SoftwareDevice.submit, hop]
  simp only [Kernels.copyCrc, hsrc, hdst, hn]
  rw [setStatus_apply hx, set_apply_of_notMem hx (by decide), dmlRefMemMove_eq _ _ _ hlt]

end Kernel

/-! ### The continuation -/

/-- The memory the hardware leaves besides the record: for `copy_crc` the first
`k` destination bytes are written. -/
def crcPrefix (m : Memory) (dsc k : ℕ) : Memory :=
  if operationOf m dsc = some .copyCrc then
    move m (AnyDescriptor.sourceAddress.get m dsc) (AnyDescriptor.destinationAddress.get m dsc) k
  else m

section Continuation

variable {m₀ m : Memory} {dsc k : ℕ}

theorem mem_operands_source
    (hop : operationOf m₀ dsc = some .crc ∨ operationOf m₀ dsc = some .copyCrc) :
    ⟨AnyDescriptor.sourceAddress.get m₀ dsc, AnyDescriptor.transferSize.get m₀ dsc⟩
      ∈ operands m₀ dsc := by
  rcases hop with hop | hop <;> simp [operands, hop]

theorem mem_operands_destination (hop : operationOf m₀ dsc = some .copyCrc) :
    ⟨AnyDescriptor.destinationAddress.get m₀ dsc, AnyDescriptor.transferSize.get m₀ dsc⟩
      ∈ operands m₀ dsc := by
  simp [operands, hop]

theorem crcPrefix_kept (hp : Placed m₀ dsc) (hk : k ≤ AnyDescriptor.transferSize.get m₀ dsc) :
    Set.EqOn (crcPrefix m₀ dsc k) m₀ (Region.addrs ⟨dsc, descriptorSize⟩) := by
  intro x hx
  unfold crcPrefix
  split
  · next hop =>
    have hnot := (hp.apart_descriptor _ (mem_operands_destination hop)).symm.notMem hx
    rw [notMem_addrs] at hnot
    exact move_apply_of_notMem (by omega)
  · rfl

/-- The buffers of an accepted `copy_crc` do not overlap. -/
theorem copyCrc_apart (hop : operationOf m₀ dsc = some .copyCrc)
    (hvalid : validate m₀ dsc = .success) (hp : Placed m₀ dsc) :
    Region.Apart
      ⟨AnyDescriptor.sourceAddress.get m₀ dsc, AnyDescriptor.transferSize.get m₀ dsc⟩
      ⟨AnyDescriptor.destinationAddress.get m₀ dsc, AnyDescriptor.transferSize.get m₀ dsc⟩ :=
  apart_of_overlaps (validate_copyCrc hop hvalid)
    (hp.fits _ (mem_operands_source (Or.inr hop))) (hp.fits _ (mem_operands_destination hop))

/-- The CRC of the prefix, as one run over a descriptor of `k` bytes reports it. -/
theorem crcValue_stopped
    (hop : operationOf m₀ dsc = some .crc ∨ operationOf m₀ dsc = some .copyCrc)
    (hvalid : validate m₀ dsc = .success) (hp : Placed m₀ dsc)
    (hk : k < AnyDescriptor.transferSize.get m₀ dsc) :
    CrcCompletionRecord.crcValue.get
        (SoftwareDevice.submit (AnyDescriptor.transferSize.set m₀ dsc k) dsc).1
        (getCompletionRecord m₀ dsc)
      = (Kernels.crcOf m₀ (AnyDescriptor.sourceAddress.get m₀ dsc) k
          (BitVec.ofNat 32 (CrcDescriptor.crcSeed.get m₀ dsc))
          (AnyDescriptor.operationSpecificFlags.get m₀ dsc)).toNat := by
  set t := AnyDescriptor.transferSize.set m₀ dsc k with ht
  have hlt := transferSize_lt m₀ dsc
  have hget : ∀ f : Field, f.Apart AnyDescriptor.transferSize → f.get t dsc = f.get m₀ dsc :=
    fun f hf => Field.get_set_of_apart hf m₀ dsc k
  have hopt : operationOf t dsc = operationOf m₀ dsc := by
    rw [operationOf, operationOf, hget _ (by decide)]
  have hrec : getCompletionRecord t dsc = getCompletionRecord m₀ dsc := hget _ (by decide)
  have hn : AnyDescriptor.transferSize.get t dsc = k :=
    Field.get_set_self_of_lt m₀ dsc (lt_trans hk hlt)
  -- the shorter descriptor reads and writes parts of the same buffers
  have hap : operationOf t dsc = some .copyCrc →
      Region.Apart ⟨AnyDescriptor.sourceAddress.get m₀ dsc, k⟩
        ⟨AnyDescriptor.destinationAddress.get m₀ dsc, k⟩ := by
    intro h
    rw [hopt] at h
    refine (copyCrc_apart h hvalid hp).mono ⟨le_rfl, ?_⟩ ⟨le_rfl, ?_⟩ <;> simp only <;> omega
  have hread : ∀ i, i < k → t (AnyDescriptor.sourceAddress.get m₀ dsc + i)
      = m₀ (AnyDescriptor.sourceAddress.get m₀ dsc + i) := by
    intro i hi
    have hnot : AnyDescriptor.sourceAddress.get m₀ dsc + i
        ∉ Region.addrs ⟨dsc, descriptorSize⟩ :=
      (hp.apart_descriptor _ (mem_operands_source hop)).notMem
        (Region.add_mem_addrs (by omega))
    exact Field.set_eqOn (by decide) m₀ dsc k hnot
  rw [← hrec, submit_crcValue (by rw [hopt]; exact hop) (hget _ (by decide)) (hget _ (by decide)) hn
    hap, hget _ (by decide), hget _ (by decide), crcOf_congr hread]

/-- The source bytes still to be read are the original ones. -/
theorem update_source
    (hop : operationOf m₀ dsc = some .crc ∨ operationOf m₀ dsc = some .copyCrc)
    (hvalid : validate m₀ dsc = .success) (hp : Placed m₀ dsc)
    (hk : k < AnyDescriptor.transferSize.get m₀ dsc)
    (hfault : PageFault m₀ (crcPrefix m₀ dsc k) m dsc k) {i : ℕ}
    (hi : i < AnyDescriptor.transferSize.get m₀ dsc) :
    updateForContinuation m dsc (AnyDescriptor.sourceAddress.get m₀ dsc + i)
      = m₀ (AnyDescriptor.sourceAddress.get m₀ dsc + i) := by
  have hmem : AnyDescriptor.sourceAddress.get m₀ dsc + i ∈ Region.addrs
      ⟨AnyDescriptor.sourceAddress.get m₀ dsc, AnyDescriptor.transferSize.get m₀ dsc⟩ :=
    Region.add_mem_addrs (by omega)
  rw [hfault.update_apply hp (mem_operands_source hop) hmem, crcPrefix]
  split
  · next hcopy =>
    have hnot := notMem_addrs.mp ((copyCrc_apart hcopy hvalid hp).notMem hmem)
    exact move_apply_of_notMem (by omega)
  · rfl

/-- The CRC after the software run: the register has gone on where it stopped. -/
theorem resumed_crcValue {op : Operation} (hop : operationOf m₀ dsc = some op)
    (hcrcop : op = .crc ∨ op = .copyCrc) (hvalid : validate m₀ dsc = .success)
    (hp : Placed m₀ dsc) (hk : k < AnyDescriptor.transferSize.get m₀ dsc)
    (hfault : PageFault m₀ (crcPrefix m₀ dsc k) m dsc k)
    (hcrc : CrcCompletionRecord.crcValue.get m (getCompletionRecord m₀ dsc)
      = (Kernels.crcOf m₀ (AnyDescriptor.sourceAddress.get m₀ dsc) k
          (BitVec.ofNat 32 (CrcDescriptor.crcSeed.get m₀ dsc))
          (AnyDescriptor.operationSpecificFlags.get m₀ dsc)).toNat) :
    CrcCompletionRecord.crcValue.get (resumed m dsc) (getCompletionRecord m₀ dsc)
      = (Kernels.crcOf m₀ (AnyDescriptor.sourceAddress.get m₀ dsc)
          (AnyDescriptor.transferSize.get m₀ dsc)
          (BitVec.ofNat 32 (CrcDescriptor.crcSeed.get m₀ dsc))
          (AnyDescriptor.operationSpecificFlags.get m₀ dsc)).toNat := by
  have hop₀ : operationOf m₀ dsc = some .crc ∨ operationOf m₀ dsc = some .copyCrc := by
    rcases hcrcop with rfl | rfl
    · exact Or.inl hop
    · exact Or.inr hop
  set n := AnyDescriptor.transferSize.get m₀ dsc with hn
  set src := AnyDescriptor.sourceAddress.get m₀ dsc with hsrc
  have hfit := hp.fits _ (mem_operands_source hop₀)
  simp only at hfit
  have hop₁ : operationOf (updateForContinuation m dsc) dsc = some .crc
      ∨ operationOf (updateForContinuation m dsc) dsc = some .copyCrc := by
    rw [hfault.update_operation hp hop, ← hop]; exact hop₀
  have hsrc₁ : AnyDescriptor.sourceAddress.get (updateForContinuation m dsc) dsc = src + k := by
    refine hfault.update_advanced hp hop ?_ (by decide) (by omega)
    rcases hcrcop with rfl | rfl <;> simp [advancedFields]
  have hn₁ : AnyDescriptor.transferSize.get (updateForContinuation m dsc) dsc = n - k := by
    refine hfault.update_shrunk hp hop ?_ (by decide) hk.le
    rcases hcrcop with rfl | rfl <;> decide
  have hseed₁ : CrcDescriptor.crcSeed.get (updateForContinuation m dsc) dsc
      = CrcCompletionRecord.crcValue.get m (getCompletionRecord m₀ dsc) := by
    refine hfault.update_takenOver hp hop ?_
    rcases hcrcop with rfl | rfl <;> decide
  have hflags₁ : AnyDescriptor.operationSpecificFlags.get (updateForContinuation m dsc) dsc
      = AnyDescriptor.operationSpecificFlags.get m₀ dsc := by
    refine hfault.update_kept hp hop ?_ (by decide)
    rcases hcrcop with rfl | rfl <;> decide
  have hap₁ : operationOf (updateForContinuation m dsc) dsc = some .copyCrc →
      Region.Apart ⟨src + k, n - k⟩
        ⟨AnyDescriptor.destinationAddress.get (updateForContinuation m dsc) dsc, n - k⟩ := by
    intro h
    rw [hfault.update_operation hp hop] at h
    have hcopy : operationOf m₀ dsc = some .copyCrc := hop.trans h
    have hfit' := hp.fits _ (mem_operands_destination hcopy)
    simp only at hfit'
    have hopc := Option.some.inj h
    rw [hfault.update_advanced hp hop (by rw [hopc]; simp [advancedFields]) (by decide) (by omega)]
    exact (copyCrc_apart hcopy hvalid hp).mono (inside_advance hk.le) (inside_advance hk.le)
  -- the rest of the source, read from the rewritten memory
  have hrest : ∀ i, i < n - k →
      updateForContinuation m dsc (src + k + i) = m₀ (src + k + i) := by
    intro i hi
    rw [Nat.add_assoc]
    exact update_source hop₀ hvalid hp hk hfault (by omega)
  rw [resumed, ← hfault.record hp, ← getCompletionRecord_updateForContinuation,
    submit_crcValue hop₁ hsrc₁ rfl hn₁ hap₁, hseed₁, hflags₁, hcrc, BitVec.ofNat_toNat,
    BitVec.setWidth_eq, crcOf_congr hrest, ← crcOf_add, Nat.add_sub_cancel' hk.le]

/-- The destination after the software run, outside the record. -/
theorem resumed_copyCrc_apply (hop : operationOf m₀ dsc = some .copyCrc)
    (hvalid : validate m₀ dsc = .success) (hp : Placed m₀ dsc)
    (hk : k < AnyDescriptor.transferSize.get m₀ dsc)
    (hfault : PageFault m₀ (crcPrefix m₀ dsc k) m dsc k) {i : ℕ}
    (hi : i < AnyDescriptor.transferSize.get m₀ dsc)
    (hrec : AnyDescriptor.destinationAddress.get m₀ dsc + i
      ∉ Region.addrs ⟨getCompletionRecord m₀ dsc, recordSize⟩) :
    resumed m dsc (AnyDescriptor.destinationAddress.get m₀ dsc + i)
      = m₀ (AnyDescriptor.sourceAddress.get m₀ dsc + i) := by
  set n := AnyDescriptor.transferSize.get m₀ dsc with hn
  set src := AnyDescriptor.sourceAddress.get m₀ dsc with hsrc
  set dst := AnyDescriptor.destinationAddress.get m₀ dsc with hdst
  have hfits := hp.fits _ (mem_operands_source (Or.inr hop))
  have hfitd := hp.fits _ (mem_operands_destination hop)
  simp only at hfits hfitd
  have hsrc₁ : AnyDescriptor.sourceAddress.get (updateForContinuation m dsc) dsc = src + k :=
    hfault.update_advanced hp hop (by simp [advancedFields]) (by decide) (by omega)
  have hdst₁ : AnyDescriptor.destinationAddress.get (updateForContinuation m dsc) dsc = dst + k :=
    hfault.update_advanced hp hop (by simp [advancedFields]) (by decide) (by omega)
  have hn₁ : AnyDescriptor.transferSize.get (updateForContinuation m dsc) dsc = n - k :=
    hfault.update_shrunk hp hop (by decide) (by decide) hk.le
  rw [resumed, submit_copyCrc_apply (hfault.update_operation hp hop) hsrc₁ hdst₁ hn₁
    (by rw [getCompletionRecord_updateForContinuation, hfault.record hp]; exact hrec)]
  rcases Nat.lt_or_ge i k with hik | hik
  · -- copied by the hardware
    have hmem : dst + i ∈ Region.addrs ⟨dst, n⟩ := Region.add_mem_addrs (by omega)
    rw [move_apply_of_notMem (by omega),
      hfault.update_apply hp (mem_operands_destination hop) hmem, crcPrefix, if_pos hop,
      move_apply_of_lt hik]
  · -- copied by the software
    rw [show dst + i = dst + k + (i - k) by omega, move_apply_of_lt (by omega),
      show src + k + (i - k) = src + i by omega]
    exact update_source (Or.inr hop) hvalid hp hk hfault hi

/-- **A CRC stopped by a page fault ends as the uninterrupted one.**  The record
after `wait` has the CRC one software run computes over the whole source, and
`copy_crc` has copied the whole source. -/
theorem crc_continuation (umwait : Bool)
    (hop : operationOf m₀ dsc = some .crc ∨ operationOf m₀ dsc = some .copyCrc)
    (hvalid : validate m₀ dsc = .success) (hp : Placed m₀ dsc)
    (hk : k < AnyDescriptor.transferSize.get m₀ dsc)
    (hfault : PageFault m₀ (crcPrefix m₀ dsc k) m dsc k)
    (hcrc : CrcCompletionRecord.crcValue.get m (getCompletionRecord m₀ dsc)
      = CrcCompletionRecord.crcValue.get
          (SoftwareDevice.submit (AnyDescriptor.transferSize.set m₀ dsc k) dsc).1
          (getCompletionRecord m₀ dsc)) :
    ∃ m', Automatic.wait m dsc umwait = some m'
      ∧ CrcCompletionRecord.crcValue.get m' (getCompletionRecord m₀ dsc)
        = CrcCompletionRecord.crcValue.get (SoftwareDevice.submit m₀ dsc).1
            (getCompletionRecord m₀ dsc)
      ∧ (operationOf m₀ dsc = some .copyCrc →
        ∀ i, i < AnyDescriptor.transferSize.get m₀ dsc →
          m' (AnyDescriptor.destinationAddress.get m₀ dsc + i)
            = (SoftwareDevice.submit m₀ dsc).1
                (AnyDescriptor.destinationAddress.get m₀ dsc + i)) := by
  obtain ⟨op, hop', hcases⟩ : ∃ op, operationOf m₀ dsc = some op ∧ (op = .crc ∨ op = .copyCrc) := by
    rcases hop with h | h
    · exact ⟨_, h, Or.inl rfl⟩
    · exact ⟨_, h, Or.inr rfl⟩
  have hplain : PageFault.Plain op := by
    rcases hcases with rfl | rfl <;> exact ⟨by simp [AddsBytes], by simp, by simp⟩
  have hreq : k ≤ requested m₀ dsc := by
    rw [requested_of_ne hop' (by rcases hcases with rfl | rfl <;> decide)]
    exact hk.le
  -- the merge touches the bytes completed only
  refine ⟨_, hfault.wait_eq_addAssign hp hop' hreq hplain umwait, ?_, ?_⟩
  · rw [Field.get_addAssign_of_apart (by decide),
      resumed_crcValue hop' hcases hvalid hp hk hfault
        (hcrc.trans (crcValue_stopped hop hvalid hp hk)),
      submit_crcValue hop rfl rfl rfl fun h => copyCrc_apart h hvalid hp]
  · intro hcopy i hi
    have hrec : AnyDescriptor.destinationAddress.get m₀ dsc + i
        ∉ Region.addrs ⟨getCompletionRecord m₀ dsc, recordSize⟩ :=
      (hp.apart_record _ (mem_operands_destination hcopy)).notMem
        (Region.add_mem_addrs (by omega))
    rw [addAssign_apply_of_notMem hrec (by decide),
      resumed_copyCrc_apply hcopy hvalid hp hk hfault hi hrec,
      submit_copyCrc_apply hcopy rfl rfl rfl hrec, move_apply_of_lt hi]

end Continuation

/-- A `copy_crc` of 8 bytes from 128 to 160, stopped after 3. -/
theorem crc_continuation_sample :
    let m₀ := rawDescriptor .copyCrc 64 32 128 160 8
    let m := CrcCompletionRecord.crcValue.set (writeFault (crcPrefix m₀ 64 3) 32 3) 32
      (CrcCompletionRecord.crcValue.get
        (SoftwareDevice.submit (AnyDescriptor.transferSize.set m₀ 64 3) 64).1 32)
    operationOf m₀ 64 = some .copyCrc ∧ validate m₀ 64 = .success ∧ Placed m₀ 64
      ∧ ∃ m', Automatic.wait m 64 true = some m'
        ∧ CrcCompletionRecord.crcValue.get m' 32
          = CrcCompletionRecord.crcValue.get (SoftwareDevice.submit m₀ 64).1 32 := by
  intro m₀ m
  have hop : operationOf m₀ 64 = some .copyCrc := by decide
  have hvalid : validate m₀ 64 = .success := by decide
  have hp : Placed m₀ 64 := by decide
  have hrec : getCompletionRecord m₀ 64 = 32 := by decide
  have hk : 3 < AnyDescriptor.transferSize.get m₀ 64 := by decide
  have hfault : PageFault m₀ (crcPrefix m₀ 64 3) m 64 3 :=
    (pageFault_writeFault _ _ _ (k := 3) (by decide) (crcPrefix_kept hp hk.le)).set
      (g := CrcCompletionRecord.crcValue) (by decide) (by decide) (by decide) _
  have hcrc : CrcCompletionRecord.crcValue.get m (getCompletionRecord m₀ 64)
      = CrcCompletionRecord.crcValue.get
          (SoftwareDevice.submit (AnyDescriptor.transferSize.set m₀ 64 3) 64).1
          (getCompletionRecord m₀ 64) := by
    rw [hrec]
    exact Field.get_set_self_of_lt _ _ (Field.get_lt _ _ _)
  obtain ⟨m', hwait, heq, -⟩ := crc_continuation true (Or.inr hop) hvalid hp hk hfault hcrc
  rw [hrec] at heq
  exact ⟨hop, hvalid, hp, m', hwait, heq⟩

end DataMover
