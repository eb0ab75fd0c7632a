import DataMover.DifSplit
import DataMover.Lib.SameChange
import DataMover.Placement

/-!
# What a kernel reads

A kernel reads its descriptor and its source buffers.  It does not read its record,
nor the destination it overwrites, except where a source overlaps them: run from
two memories that agree on the descriptor and the sources, it makes the same change
to both.

## Main definitions

* `sources` — the buffers a descriptor's kernel reads.

## Main results

* `submit_sameChange` — a kernel reads its descriptor and its sources only.
-/

namespace DataMover

open ByteMemory

/-! ### One descriptor in two memories -/

section Congr

variable {m m' : Memory} {dsc : ℕ}
  (h : Set.EqOn m m' (Region.addrs ⟨dsc, descriptorSize⟩))
include h

theorem get_descriptor_congr {f : Field} (hf : f.Within descriptorSize) :
    f.get m dsc = f.get m' dsc :=
  Field.get_congr hf h

theorem operationOf_congr : operationOf m dsc = operationOf m' dsc := by
  rw [operationOf, operationOf, get_descriptor_congr h (by decide)]

theorem getCompletionRecord_congr : getCompletionRecord m dsc = getCompletionRecord m' dsc :=
  get_descriptor_congr h (by decide)

theorem difBlockBytes_congr : difBlockBytes m dsc = difBlockBytes m' dsc := by
  rw [difBlockBytes, difBlockBytes, get_descriptor_congr h (by decide)]

theorem operands_congr : operands m dsc = operands m' dsc := by
  simp (disch := decide) only [operands, operationOf_congr h, difBlockBytes_congr h,
    get_descriptor_congr h]

theorem destinations_congr : destinations m dsc = destinations m' dsc := by
  simp (disch := decide) only [destinations, operationOf_congr h, difBlockBytes_congr h,
    get_descriptor_congr h]

theorem sourceDifConfig_congr :
    Kernels.sourceDifConfig m dsc = Kernels.sourceDifConfig m' dsc := by
  simp (disch := decide) only [Kernels.sourceDifConfig, get_descriptor_congr h]

theorem destinationDifConfig_congr :
    Kernels.destinationDifConfig m dsc = Kernels.destinationDifConfig m' dsc := by
  simp (disch := decide) only [Kernels.destinationDifConfig, get_descriptor_congr h]

theorem updateDifConfig_congr :
    Kernels.updateDifConfig m dsc = Kernels.updateDifConfig m' dsc := by
  simp (disch := decide) only [Kernels.updateDifConfig, get_descriptor_congr h]

theorem difCheckJob_congr : Kernels.difCheckJob m dsc = Kernels.difCheckJob m' dsc := by
  simp (disch := decide) only [Kernels.difCheckJob, sourceDifConfig_congr h,
    get_descriptor_congr h]

theorem difJob_congr (cfg : DifConfig) : Kernels.difJob m dsc cfg = Kernels.difJob m' dsc cfg := by
  simp (disch := decide) only [Kernels.difJob, get_descriptor_congr h]

theorem Placed.congr (hp : Placed m' dsc) : Placed m dsc where
  record_apart := by rw [getCompletionRecord_congr h]; exact hp.record_apart
  apart_descriptor := by rw [operands_congr h]; exact hp.apart_descriptor
  apart_record := by rw [operands_congr h, getCompletionRecord_congr h]; exact hp.apart_record
  fits := by rw [operands_congr h]; exact hp.fits

end Congr

/-! ### What the reference functions read -/

theorem eqOn_bytes {u u' : Memory} {a n : ℕ} (h : Set.EqOn u u' (Region.addrs ⟨a, n⟩)) {i : ℕ}
    (hi : i < n) : u (a + i) = u' (a + i) :=
  h (Region.add_mem_addrs hi)

section Reference

variable {t t' : Memory} {src dst n : ℕ}

theorem dmlRefMemMove_sameChange (dst : ℕ) (hn : n < 2 ^ 32)
    (hread : Set.EqOn t t' (Region.addrs ⟨src, n⟩)) :
    SameChange t t' (dmlRefMemMove t src dst n) (dmlRefMemMove t' src dst n) := by
  rw [dmlRefMemMove_eq _ _ _ hn, dmlRefMemMove_eq _ _ _ hn]
  exact (SameChange.refl t t').move fun i hi => eqOn_bytes hread hi

/-- A fill reads nothing. -/
theorem dmlRefFillU64_sameChange (t t' : Memory) (pattern dst n : ℕ) :
    SameChange t t' (dmlRefFillU64 t pattern dst n) (dmlRefFillU64 t' pattern dst n) :=
  SameChange.iter (A := ∅) (fun _ u u' _ _ => (SameChange.refl u u').update _ rfl)
    (Set.eqOn_empty t t')

theorem dmlRefDualcast_sameChange {dst1 dst2 : ℕ} (hread : Set.EqOn t t' (Region.addrs ⟨src, n⟩)) :
    SameChange t t' (dmlRefDualcast t src dst1 dst2 n) (dmlRefDualcast t' src dst1 dst2 n) := by
  refine SameChange.iter (fun i u u' hi hu => ?_) hread
  have hfirst := (SameChange.refl u u').update (dst1 + i) (eqOn_bytes hu hi)
  -- the second copy reads the source after the first has been made
  exact hfirst.update (dst2 + i) (eqOn_bytes (hfirst.eqOn hu) hi)

theorem dmlRefComparePattern_congr {pattern : ℕ} (hp : pattern < 2 ^ 64) (hn : n < 2 ^ 32)
    (hread : Set.EqOn t t' (Region.addrs ⟨src, n⟩)) :
    dmlRefComparePattern t pattern src n = dmlRefComparePattern t' pattern src n := by
  rw [dmlRefComparePattern_eq hp hn, dmlRefComparePattern_eq hp hn,
    search_differsFromPattern_congr fun i hi => eqOn_bytes hread hi]

/-- Notes are read where they lie, also when earlier notes have been written there. -/
theorem dmlRefApplyDelta_sameChange {deltaRecord size : ℕ}
    (hread : Set.EqOn t t' (Region.addrs ⟨deltaRecord, size⟩)) :
    SameChange t t' (dmlRefApplyDelta t deltaRecord dst size)
      (dmlRefApplyDelta t' deltaRecord dst size) := by
  refine SameChange.iter (fun i u u' hi hu => ?_) hread
  simp only
  rw [load_eq_of_eqOn hu (show deltaRecord ≤ deltaRecord + 10 * i by omega) (by simp only; omega)]
  exact (SameChange.refl u u').store _ _
    (load_eq_of_eqOn hu (by simp only; omega) (by simp only; omega))

/-- The CRC reads its source bytes only. -/
theorem crcOf_congr (h : ∀ i, i < n → t (src + i) = t' (src + i)) (seed : BitVec 32) (flags : ℕ) :
    Kernels.crcOf t src n seed flags = Kernels.crcOf t' src n seed flags := by
  unfold Kernels.crcOf
  simp only [dmlRefCrc32u_congr h, dmlRefCrcReflectedU32_congr h]

/-- One block of a delta: memories that agree on the block get the same note. -/
theorem createDeltaStep_related {src1 src2 rec max i size : ℕ} {u u' : Memory}
    (hu : SameChange t t' u u') (h1 : Set.EqOn t t' (Region.addrs ⟨src1, n⟩))
    (h2 : Set.EqOn t t' (Region.addrs ⟨src2, n⟩)) (hi : i < n / 8) :
    Loop.Related (fun p q => SameChange t t' p.1 q.1 ∧ p.2 = q.2)
      (fun p q => SameChange t t' p.1 q.1 ∧ p.2 = q.2)
      (createDeltaStep src1 src2 rec max i (u, size))
      (createDeltaStep src1 src2 rec max i (u', size)) := by
  have hload1 : load u (src1 + 8 * i) 8 = load u' (src1 + 8 * i) 8 :=
    load_eq_of_eqOn (hu.eqOn h1) (by simp only; omega) (by simp only; omega)
  have hload2 : load u (src2 + 8 * i) 8 = load u' (src2 + 8 * i) 8 :=
    load_eq_of_eqOn (hu.eqOn h2) (by simp only; omega) (by simp only; omega)
  simp only [createDeltaStep, blockDiffers, hload1, hload2]
  split
  · split
    · exact ⟨hu, rfl⟩
    · exact ⟨(hu.store _ _ rfl).store _ _ rfl, rfl⟩
  · exact ⟨hu, rfl⟩

/-- `create_delta` reads its two sources only; size and result are the same, too. -/
theorem dmlRefCreateDelta_sameChange {src1 src2 : ℕ} (rec max : ℕ)
    (h1 : Set.EqOn t t' (Region.addrs ⟨src1, n⟩)) (h2 : Set.EqOn t t' (Region.addrs ⟨src2, n⟩)) :
    SameChange t t' (dmlRefCreateDelta t src1 src2 n rec max).1
        (dmlRefCreateDelta t' src1 src2 n rec max).1
      ∧ (dmlRefCreateDelta t src1 src2 n rec max).2
        = (dmlRefCreateDelta t' src1 src2 n rec max).2 := by
  have hloop : Loop.Related (fun p q => SameChange t t' p.1 q.1 ∧ p.2 = q.2)
      (fun p q => SameChange t t' p.1 q.1 ∧ p.2 = q.2)
      (Loop.iterUntil (createDeltaStep src1 src2 rec max) (n / 8) (t, 0))
      (Loop.iterUntil (createDeltaStep src1 src2 rec max) (n / 8) (t', 0)) := by
    refine Loop.iterUntil_related ⟨SameChange.refl t t', rfl⟩ ?_
    rintro i ⟨u, size⟩ ⟨u', size'⟩ hi ⟨hu, rfl : size = size'⟩
    exact createDeltaStep_related hu h1 h2 hi
  unfold dmlRefCreateDelta
  cases h : Loop.iterUntil (createDeltaStep src1 src2 rec max) (n / 8) (t, 0) with
  | error p =>
    cases h' : Loop.iterUntil (createDeltaStep src1 src2 rec max) (n / 8) (t', 0) with
    | error q =>
      rw [h, h'] at hloop
      exact ⟨hloop.1, by simp only [hloop.2]⟩
    | ok q => rw [h, h'] at hloop; exact hloop.elim
  | ok p =>
    cases h' : Loop.iterUntil (createDeltaStep src1 src2 rec max) (n / 8) (t', 0) with
    | error q => rw [h, h'] at hloop; exact hloop.elim
    | ok q =>
      rw [h, h'] at hloop
      exact ⟨hloop.1, by simp only [hloop.2]⟩

/-! ### Data integrity fields -/

variable {job : DmlJob}

theorem dmlLegacyDifCheck_congr
    (hread : Set.EqOn t t' (Region.addrs ⟨job.sourceFirstPtr, job.sourceLength⟩)) :
    dmlLegacyDifCheck t job = dmlLegacyDifCheck t' job := by
  have hbits : ∀ j, j < job.sourceLength / job.difConfig.step →
      difBitsAt t job j = difBitsAt t' job j := by
    intro j hj
    have hself : ContinuesSource job.difConfig job.difConfig 0 := ⟨rfl, rfl, rfl, rfl, rfl⟩
    have hle := Nat.div_mul_le_self job.sourceLength job.difConfig.step
    refine hself.difCheckBits_eq (fun i hi => ?_) _ _
    have hlt := add_mul_lt hj hi
    rw [Nat.add_assoc]
    exact eqOn_bytes hread (by omega)
  rw [dmlLegacyDifCheck_eq, dmlLegacyDifCheck_eq,
    Loop.search_congr fun j hj => by rw [hbits j hj]]
  cases hfound : Loop.search (fun j => difBitsAt t' job j != 0)
      (job.sourceLength / job.difConfig.step) with
  | none => rfl
  | some j => simp only [hbits j (Loop.search_eq_some.mp hfound).1]

theorem dmlLegacyDifInsert_sameChange (job : DmlJob)
    (hread : Set.EqOn t t' (Region.addrs ⟨job.sourceFirstPtr, job.sourceLength⟩)) :
    SameChange t t' (dmlLegacyDifInsert t job) (dmlLegacyDifInsert t' job) := by
  rw [dmlLegacyDifInsert_iter, dmlLegacyDifInsert_iter]
  refine SameChange.iter (fun j u u' hj hu => ?_) hread
  have hle := Nat.div_mul_le_self job.sourceLength job.difConfig.blockBytes
  have hblock : ∀ i, i < job.difConfig.blockBytes →
      u (job.sourceFirstPtr + j * job.difConfig.blockBytes + i)
        = u' (job.sourceFirstPtr + j * job.difConfig.blockBytes + i) := by
    intro i hi
    have hlt := add_mul_lt hj hi
    rw [Nat.add_assoc]
    exact eqOn_bytes hu (by omega)
  rw [difInsertBlock_eq, difInsertBlock_eq, guardOf_congr hblock]
  refine (SameChange.refl u u').writeBlock fun i _ => ?_
  split
  · next hi => exact hblock i hi
  · rfl

theorem difStripBlocks_sameChange
    (hread : Set.EqOn t t' (Region.addrs ⟨job.sourceFirstPtr, job.sourceLength⟩)) :
    SameChange t t' (difStripBlocks t job) (difStripBlocks t' job) := by
  rw [difStripBlocks_iter, difStripBlocks_iter]
  refine SameChange.iter (fun j u u' hj hu => ?_) hread
  have hle := Nat.div_mul_le_self job.sourceLength job.difConfig.step
  have hstep : job.difConfig.step = job.difConfig.blockBytes + 8 := rfl
  have hbs := job.difConfig.blockBytes_lt
  have hlt := add_mul_lt hj (Nat.sub_lt job.difConfig.step_pos Nat.one_pos)
  refine dmlRefMemMove_sameChange _ (by omega) (hu.mono fun x hx => ?_)
  rw [Region.mem_addrs] at hx ⊢
  simp only at hx ⊢
  omega

theorem difUpdateBlocks_sameChange
    (hread : Set.EqOn t t' (Region.addrs ⟨job.sourceFirstPtr, job.sourceLength⟩)) :
    SameChange t t' (difUpdateBlocks t job) (difUpdateBlocks t' job) := by
  rw [difUpdateBlocks_iter, difUpdateBlocks_iter]
  refine SameChange.iter (fun j u u' hj hu => ?_) hread
  have hle := Nat.div_mul_le_self job.sourceLength job.difConfig.step
  rw [difUpdateBlock_eq, difUpdateBlock_eq]
  refine (SameChange.refl u u').writeBlock fun i hi =>
    updatedBlockByte_congr (fun i hi => ?_) _ _ hi
  have hlt := add_mul_lt hj hi
  rw [Nat.add_assoc]
  exact eqOn_bytes hu (by omega)

/-- The check decides, and it reads the source only. -/
theorem dmlLegacyDifStrip_sameChange (job : DmlJob)
    (hread : Set.EqOn t t' (Region.addrs ⟨job.sourceFirstPtr, job.sourceLength⟩)) :
    (dmlLegacyDifStrip t job).1 = (dmlLegacyDifStrip t' job).1
      ∧ (dmlLegacyDifStrip t job).2.2 = (dmlLegacyDifStrip t' job).2.2
      ∧ SameChange t t' (dmlLegacyDifStrip t job).2.1 (dmlLegacyDifStrip t' job).2.1 := by
  unfold dmlLegacyDifStrip
  rw [dmlLegacyDifCheck_congr hread, dmlLegacyDifCheck_eq]
  cases Loop.search (fun j => difBitsAt t' job j != 0) (job.sourceLength / job.difConfig.step) with
  | some j => exact ⟨rfl, rfl, SameChange.refl t t'⟩
  | none => exact ⟨rfl, rfl, difStripBlocks_sameChange hread⟩

theorem dmlLegacyDifUpdate_sameChange (job : DmlJob)
    (hread : Set.EqOn t t' (Region.addrs ⟨job.sourceFirstPtr, job.sourceLength⟩)) :
    (dmlLegacyDifUpdate t job).1 = (dmlLegacyDifUpdate t' job).1
      ∧ (dmlLegacyDifUpdate t job).2.2 = (dmlLegacyDifUpdate t' job).2.2
      ∧ SameChange t t' (dmlLegacyDifUpdate t job).2.1 (dmlLegacyDifUpdate t' job).2.1 := by
  unfold dmlLegacyDifUpdate
  rw [dmlLegacyDifCheck_congr hread, dmlLegacyDifCheck_eq]
  cases Loop.search (fun j => difBitsAt t' job j != 0) (job.sourceLength / job.difConfig.step) with
  | some j => exact ⟨rfl, rfl, SameChange.refl t t'⟩
  | none => exact ⟨rfl, rfl, difUpdateBlocks_sameChange hread⟩

end Reference

/-! ### What a kernel reads -/

/-- The buffers the kernel of a descriptor reads. -/
def sources (m : Memory) (dsc : ℕ) : List Region :=
  let src := AnyDescriptor.sourceAddress.get m dsc
  let n := AnyDescriptor.transferSize.get m dsc
  match operationOf m dsc with
  | some .memMove | some .comparePattern | some .dualcast | some .crc | some .copyCrc
  | some .difCheck | some .difInsert | some .difStrip | some .difUpdate => [⟨src, n⟩]
  | some .compare | some .createDelta =>
    [⟨src, n⟩, ⟨AnyDescriptor.destinationAddress.get m dsc, n⟩]
  | some .applyDelta => [⟨src, ApplyDeltaDescriptor.deltaRecordSize.get m dsc⟩]
  | some .nop | some .drain | some .fill | some .cacheFlush | some .batch | none => []

theorem sources_congr {m m' : Memory} {dsc : ℕ}
    (h : Set.EqOn m m' (Region.addrs ⟨dsc, descriptorSize⟩)) : sources m dsc = sources m' dsc := by
  simp (disch := decide) only [sources, operationOf_congr h, get_descriptor_congr h]

theorem sources_subset_operands (m : Memory) (dsc : ℕ) : sources m dsc ⊆ operands m dsc := by
  unfold sources operands
  cases operationOf m dsc with
  | none => exact List.Subset.refl _
  | some op => cases op <;> simp

/-- Whether notes point into the destination is read off the sources. -/
theorem DeltaWithin.congr {m m' : Memory} {dsc : ℕ} (h : DeltaWithin m dsc)
    (hdsc : Set.EqOn m m' (Region.addrs ⟨dsc, descriptorSize⟩))
    (hread : ∀ R ∈ sources m dsc, Set.EqOn m m' R.addrs) : DeltaWithin m' dsc := by
  intro hop
  rw [← operationOf_congr hdsc] at hop
  obtain ⟨hnotes, hap⟩ := h hop
  have hsource : Set.EqOn m m' (Region.addrs ⟨ApplyDeltaDescriptor.deltaRecordAddress.get m dsc,
      ApplyDeltaDescriptor.deltaRecordSize.get m dsc⟩) :=
    hread _ (by rw [sources, hop]; exact List.mem_cons_self ..)
  simp (disch := decide) only [get_descriptor_congr hdsc.symm]
  exact ⟨hnotes.congr fun i hi => (eqOn_bytes hsource hi).symm, hap⟩

section Kernels

variable {t t' u u' : Memory} {dsc record : ℕ}

theorem setStatus_sameChange (h : SameChange t t' u u') (s : ExecutionStatus) :
    SameChange t t' (Kernels.setStatus u record s) (Kernels.setStatus u' record s) :=
  h.set _ _ rfl

/-- The result that decides the status has just been written to the record. -/
theorem completeCompare_sameChange (h : SameChange t t' u u') (check : Bool) (expected : ℕ)
    (outcome : ℕ × ℕ) :
    SameChange t t' (Kernels.completeCompare u record check expected outcome)
      (Kernels.completeCompare u' record check expected outcome) := by
  simp only [Kernels.completeCompare, Field.get_set_self]
  exact setStatus_sameChange ((h.set _ _ rfl).set _ _ rfl) _

theorem completeDif_sameChange (h : SameChange t t' u u') (status : DmlStatus) (job : DmlJob) :
    SameChange t t' (Kernels.completeDif u record status job)
      (Kernels.completeDif u' record status job) :=
  setStatus_sameChange ((h.set _ _ rfl).set _ _ rfl) _

/-- **A kernel reads its descriptor and its sources only.** -/
theorem submit_sameChange (hbatch : operationOf t dsc ≠ some .batch)
    (hdsc : Set.EqOn t t' (Region.addrs ⟨dsc, descriptorSize⟩))
    (hread : ∀ R ∈ sources t dsc, Set.EqOn t t' R.addrs) :
    SameChange t t' (SoftwareDevice.submit t dsc).1 (SoftwareDevice.submit t' dsc).1 := by
  have hget : ∀ f : Field, f.Within descriptorSize → f.get t' dsc = f.get t dsc :=
    fun f hf => get_descriptor_congr hdsc.symm hf
  have hrefl := SameChange.refl t t'
  have hn := transferSize_lt t dsc
  -- both runs take the same branch: the operation is read from the descriptor
  unfold sources at hread
  unfold SoftwareDevice.submit
  rw [← operationOf_congr hdsc]
  cases hop : operationOf t dsc with
  | none => exact hrefl
  | some op =>
    rw [hop] at hread
    cases op with
    | batch => exact absurd hop hbatch
    | nop =>
      simp (disch := decide) only [Kernels.nop, getCompletionRecord, hget]
      exact setStatus_sameChange hrefl _
    | drain =>
      simp (disch := decide) only [Kernels.drain, getCompletionRecord, hget]
      exact setStatus_sameChange hrefl _
    | memMove =>
      simp (disch := decide) only [Kernels.memMove, getCompletionRecord, hget]
      exact setStatus_sameChange (dmlRefMemMove_sameChange _ hn (hread _ (by simp))) _
    | fill =>
      simp (disch := decide) only [Kernels.fill, getCompletionRecord, hget]
      exact setStatus_sameChange (dmlRefFillU64_sameChange _ _ _ _ _) _
    | compare =>
      simp (disch := decide) only [Kernels.compare, getCompletionRecord, hget]
      rw [dmlRefCompare_congr (fun i hi => eqOn_bytes (hread _ (by simp)) hi)
        (fun i hi => eqOn_bytes (hread _ (by simp)) hi)]
      exact completeCompare_sameChange hrefl _ _ _
    | comparePattern =>
      simp (disch := decide) only [Kernels.comparePattern, getCompletionRecord, hget]
      rw [dmlRefComparePattern_congr (Field.get_lt _ t dsc) hn (hread _ (by simp))]
      exact completeCompare_sameChange hrefl _ _ _
    | createDelta =>
      simp (disch := decide) only [Kernels.createDelta, getCompletionRecord, hget,
        Field.get_set_self]
      -- size and result go into the record, and the result decides the status
      obtain ⟨hmem, hout⟩ := dmlRefCreateDelta_sameChange
        (CreateDeltaDescriptor.deltaRecordAddress.get t dsc)
        (CreateDeltaDescriptor.maximumDeltaRecordSize.get t dsc)
        (hread _ (List.mem_cons_self ..)) (hread _ (List.mem_cons_of_mem _ (List.mem_cons_self ..)))
      have hsize := congrArg Prod.fst hout
      have hresult := congrArg Prod.snd hout
      refine ((hmem.set _ _ hsize).set _ _ hresult).set _ _ ?_
      exact congrArg (fun r => (Kernels.createDeltaStatus _ _ (r % _)).toUnderlying) hresult
    | applyDelta =>
      simp (disch := decide) only [Kernels.applyDelta, getCompletionRecord, hget]
      exact setStatus_sameChange (dmlRefApplyDelta_sameChange (hread _ (by simp))) _
    | dualcast =>
      simp (disch := decide) only [Kernels.dualcast, getCompletionRecord, hget]
      exact setStatus_sameChange (dmlRefDualcast_sameChange (hread _ (by simp))) _
    | crc =>
      simp (disch := decide) only [Kernels.crc, getCompletionRecord, hget]
      rw [crcOf_congr fun i hi => eqOn_bytes (hread _ (by simp)) hi]
      exact setStatus_sameChange (hrefl.set _ _ rfl) _
    | copyCrc =>
      simp (disch := decide) only [Kernels.copyCrc, getCompletionRecord, hget]
      -- the CRC is taken after the copy, which may have changed the source
      have hsrc := hread _ (List.mem_cons_self ..)
      have hcopy := dmlRefMemMove_sameChange (AnyDescriptor.destinationAddress.get t dsc) hn hsrc
      rw [crcOf_congr fun i hi => eqOn_bytes (hcopy.eqOn hsrc) hi]
      exact setStatus_sameChange (hcopy.set _ _ rfl) _
    | difCheck =>
      simp only [Kernels.difCheck, ← getCompletionRecord_congr hdsc, ← difCheckJob_congr hdsc]
      rw [dmlLegacyDifCheck_congr (hread _ (List.mem_cons_self ..))]
      exact completeDif_sameChange hrefl _ _
    | difInsert =>
      simp only [Kernels.difInsert, ← getCompletionRecord_congr hdsc, ← difJob_congr hdsc,
        ← destinationDifConfig_congr hdsc]
      have hmem := dmlLegacyDifInsert_sameChange
        (Kernels.difJob t dsc (Kernels.destinationDifConfig t dsc))
        (hread _ (List.mem_cons_self ..))
      exact setStatus_sameChange (hmem.set _ _ rfl) _
    | difStrip =>
      simp only [Kernels.difStrip, ← getCompletionRecord_congr hdsc, ← difJob_congr hdsc,
        ← sourceDifConfig_congr hdsc]
      obtain ⟨hstatus, hjob, hmem⟩ := dmlLegacyDifStrip_sameChange
        (Kernels.difJob t dsc (Kernels.sourceDifConfig t dsc))
        (hread _ (List.mem_cons_self ..))
      rw [hstatus, hjob]
      exact completeDif_sameChange hmem _ _
    | difUpdate =>
      simp only [Kernels.difUpdate, ← getCompletionRecord_congr hdsc, ← difJob_congr hdsc,
        ← updateDifConfig_congr hdsc]
      obtain ⟨hstatus, hjob, hmem⟩ := dmlLegacyDifUpdate_sameChange
        (Kernels.difJob t dsc (Kernels.updateDifConfig t dsc))
        (hread _ (List.mem_cons_self ..))
      rw [hstatus, hjob]
      exact completeDif_sameChange hmem _ _
    | cacheFlush =>
      simp (disch := decide) only [Kernels.cacheFlush, Kernels.dmlClflush,
        Kernels.dmlClwbUnsupported, ite_self, getCompletionRecord, hget]
      exact setStatus_sameChange hrefl _

end Kernels

end DataMover
