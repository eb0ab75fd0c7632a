import DataMover.BatchResult

/-!
# The same operation somewhere else

A task may be anywhere: what the kernels read of a descriptor are its fields, and only the
address of the completion record says where the task itself is.  Two descriptors with the same
other fields are validated alike, have the same operands, and run on memories that agree on
their sources they make the same change, but for the two records.

## Main results

* `SameFields.validate_eq` — both are accepted, or neither.
* `submit_relocated` — a kernel makes the same change wherever its task is.
-/

namespace DataMover

open ByteMemory

section Relocated

variable {t t' : Memory} {d d' : ℕ}

/-! ### What is read off the fields -/

section Fields

variable (h : SameFields t d t' d')
include h

/-- **Validation** does not look at the address of the record. -/
theorem SameFields.validate_eq : validate t' d' = validate t d := by
  have hblock : Validate.blockSize t' d' = Validate.blockSize t d := by
    rw [Validate.blockSize, Validate.blockSize, h _ (by decide) (by decide)]
  rw [validate, validate, h.operationOf_eq]
  cases operationOf t d with
  | none => rfl
  | some op =>
    cases op
    all_goals
      simp (disch := decide) only [Validate.batch, Validate.memMove, Validate.fill,
        Validate.compare, Validate.comparePattern, Validate.createDelta, Validate.applyDelta,
        Validate.dualcast, Validate.crc, Validate.copyCrc, Validate.difCheck, Validate.difInsert,
        Validate.difStrip, Validate.difUpdate, Validate.cacheFlush, hblock, h _]

theorem SameFields.operands_eq : operands t' d' = operands t d := by
  have hblock : difBlockBytes t' d' = difBlockBytes t d := by
    simp (disch := decide) only [difBlockBytes, h _]
  simp (disch := decide) only [operands, h.operationOf_eq, hblock, h _]

theorem SameFields.destinations_eq : destinations t' d' = destinations t d := by
  have hblock : difBlockBytes t' d' = difBlockBytes t d := by
    simp (disch := decide) only [difBlockBytes, h _]
  simp (disch := decide) only [destinations, h.operationOf_eq, hblock, h _]

theorem SameFields.insertJob_eq :
    Kernels.difJob t' d' (Kernels.destinationDifConfig t' d')
      = Kernels.difJob t d (Kernels.destinationDifConfig t d) := by
  simp (disch := decide) only [Kernels.difJob, Kernels.destinationDifConfig, h _]

/-- Whether notes point into the destination is read off the fields and the sources. -/
theorem SameFields.deltaWithin (hread : ∀ R ∈ sources t d, Set.EqOn t t' R.addrs)
    (hwithin : DeltaWithin t d) : DeltaWithin t' d' := by
  intro hop
  rw [h.operationOf_eq] at hop
  obtain ⟨hnotes, hap⟩ := hwithin hop
  have hsource := hread _ (by rw [sources, hop]; exact List.mem_cons_self ..)
  simp (disch := decide) only [h _]
  exact ⟨hnotes.congr fun i hi => (eqOn_bytes hsource hi).symm, hap⟩

end Fields

/-! ### What a kernel changes -/

/-- **A kernel makes the same change wherever its task is**, the two records apart. -/
theorem submit_relocated (h : SameFields t d t' d') (hbatch : operationOf t d ≠ some .batch)
    (hread : ∀ R ∈ sources t d, Set.EqOn t t' R.addrs) {x : ℕ}
    (hx : x ∉ Region.addrs ⟨getCompletionRecord t d, recordSize⟩)
    (hx' : x ∉ Region.addrs ⟨getCompletionRecord t' d', recordSize⟩) :
    (SoftwareDevice.submit t d).1 x = (SoftwareDevice.submit t' d').1 x
      ∨ (SoftwareDevice.submit t d).1 x = t x ∧ (SoftwareDevice.submit t' d').1 x = t' x := by
  have hn := transferSize_lt t d
  unfold sources at hread
  unfold SoftwareDevice.submit
  rw [h.operationOf_eq]
  cases hop : operationOf t d with
  | none => exact SameChange.refl t t' x
  | some op =>
    rw [hop] at hread
    cases op with
    | batch => exact absurd hop hbatch
    | nop =>
      simp only [Kernels.nop]
      rw [setStatus_apply hx, setStatus_apply hx']
      exact SameChange.refl t t' x
    | drain =>
      simp only [Kernels.drain]
      rw [setStatus_apply hx, setStatus_apply hx']
      exact SameChange.refl t t' x
    | memMove =>
      simp (disch := decide) only [Kernels.memMove, h _]
      rw [setStatus_apply hx, setStatus_apply hx']
      exact dmlRefMemMove_sameChange _ hn (hread _ (by simp)) x
    | fill =>
      simp (disch := decide) only [Kernels.fill, h _]
      rw [setStatus_apply hx, setStatus_apply hx']
      exact dmlRefFillU64_sameChange _ _ _ _ _ x
    | compare =>
      simp only [Kernels.compare]
      rw [completeCompare_apply hx, completeCompare_apply hx']
      exact SameChange.refl t t' x
    | comparePattern =>
      simp only [Kernels.comparePattern]
      rw [completeCompare_apply hx, completeCompare_apply hx']
      exact SameChange.refl t t' x
    | createDelta =>
      simp (disch := decide) only [Kernels.createDelta, h _]
      rw [setStatus_apply hx, setStatus_apply hx', set_apply_of_notMem hx (by decide),
        set_apply_of_notMem hx' (by decide), set_apply_of_notMem hx (by decide),
        set_apply_of_notMem hx' (by decide)]
      exact (dmlRefCreateDelta_sameChange _ _ (hread _ (List.mem_cons_self ..))
        (hread _ (List.mem_cons_of_mem _ (List.mem_cons_self ..)))).1 x
    | applyDelta =>
      simp (disch := decide) only [Kernels.applyDelta, h _]
      rw [setStatus_apply hx, setStatus_apply hx']
      exact dmlRefApplyDelta_sameChange (hread _ (by simp)) x
    | dualcast =>
      simp (disch := decide) only [Kernels.dualcast, h _]
      rw [setStatus_apply hx, setStatus_apply hx']
      exact dmlRefDualcast_sameChange (hread _ (by simp)) x
    | crc =>
      simp only [Kernels.crc]
      rw [setStatus_apply hx, setStatus_apply hx', set_apply_of_notMem hx (by decide),
        set_apply_of_notMem hx' (by decide)]
      exact SameChange.refl t t' x
    | copyCrc =>
      simp (disch := decide) only [Kernels.copyCrc, h _]
      rw [setStatus_apply hx, setStatus_apply hx', set_apply_of_notMem hx (by decide),
        set_apply_of_notMem hx' (by decide)]
      exact dmlRefMemMove_sameChange _ hn (hread _ (List.mem_cons_self ..)) x
    | difCheck =>
      simp only [Kernels.difCheck]
      rw [completeDif_apply hx, completeDif_apply hx']
      exact SameChange.refl t t' x
    | difInsert =>
      simp only [Kernels.difInsert, h.insertJob_eq]
      rw [setStatus_apply hx, setStatus_apply hx', set_apply_of_notMem hx (by decide),
        set_apply_of_notMem hx' (by decide)]
      exact dmlLegacyDifInsert_sameChange _ (hread _ (List.mem_cons_self ..)) x
    | difStrip =>
      simp only [Kernels.difStrip, h.stripJob_eq]
      rw [completeDif_apply hx, completeDif_apply hx']
      exact (dmlLegacyDifStrip_sameChange _ (hread _ (List.mem_cons_self ..))).2.2 x
    | difUpdate =>
      simp only [Kernels.difUpdate, h.updateJob_eq]
      rw [completeDif_apply hx, completeDif_apply hx']
      exact (dmlLegacyDifUpdate_sameChange _ (hread _ (List.mem_cons_self ..))).2.2 x
    | cacheFlush =>
      simp only [Kernels.cacheFlush, Kernels.dmlClflush, Kernels.dmlClwbUnsupported, ite_self]
      rw [setStatus_apply hx, setStatus_apply hx']
      exact SameChange.refl t t' x

end Relocated

end DataMover
