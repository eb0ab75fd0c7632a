import DataMover.DifReport
import DataMover.Placement
import Mathlib.Data.Nat.Bitwise

/-!
# A failed check

A strip and an update check the whole source before they write.  When the check fails the
destination is as it was, and what is reported is what a check of the same source reports:
neither the destination nor any of its flags has a say in it.

## Main definitions

* `SameSource`, `SameSourceFields` — configurations, and descriptors, that agree on the
  source.
* `FailsClean` — a job that failed without a trace but its offset and its result.
* `difReport` — what a record says about a check.

## Main results

* `dmlLegacyDifCheck_sameSource` — a check reads the source half of its configuration.
* `dif_failure` — a failed strip or update.
-/

namespace DataMover

open ByteMemory

/-! ### The source half of a configuration -/

/-- The configurations agree on the source.  The flags of the destination are the bits 8 to
15. -/
structure SameSource (cfg cfg' : DifConfig) : Prop where
  flags : ∀ i, i < 8 ∨ 16 ≤ i → cfg.flags.testBit i = cfg'.flags.testBit i
  referenceTagSeed : cfg.sourceReferenceTagSeed = cfg'.sourceReferenceTagSeed
  applicationTagSeed : cfg.sourceApplicationTagSeed = cfg'.sourceApplicationTagSeed
  applicationTagMask : cfg.sourceApplicationTagMask = cfg'.sourceApplicationTagMask
  blockSize : cfg.blockSize = cfg'.blockSize

theorem hasFlag_two_pow (flags k : ℕ) : hasFlag flags (2 ^ k) = flags.testBit k := by
  rw [hasFlag, Nat.and_two_pow]
  cases flags.testBit k <;> simp

namespace SameSource

variable {cfg cfg' : DifConfig} (h : SameSource cfg cfg')
include h

theorem hasFlag_eq (flag k : ℕ) (hflag : flag = 2 ^ k) (hk : k < 8 ∨ 16 ≤ k) :
    hasFlag cfg.flags flag = hasFlag cfg'.flags flag := by
  rw [hflag, hasFlag_two_pow, hasFlag_two_pow, h.flags k hk]

theorem sameGuard : cfg.SameGuard cfg' where
  blockSize := h.blockSize
  invertCrcSeed := h.hasFlag_eq DifFlag.invertCrcSeed 18 rfl (by decide)
  invertCrcResult := h.hasFlag_eq DifFlag.invertCrcResult 19 rfl (by decide)

/-- A check of a block reads the source half of the configuration. -/
theorem difCheckBits_eq (m : Memory) (src : ℕ) (app : BitVec 16) (ref : BitVec 32) :
    difCheckBits m cfg src app ref = difCheckBits m cfg' src app ref := by
  have hguard : guardOf m cfg src = guardOf m cfg' src := h.sameGuard.guardOf_eq fun _ _ => rfl
  unfold difCheckBits
  simp only [blockBytes_of_blockSize h.blockSize, h.applicationTagMask, hguard,
    h.hasFlag_eq DifFlag.srcFEnableError 0 rfl (by decide),
    h.hasFlag_eq DifFlag.srcFDetectAll 1 rfl (by decide),
    h.hasFlag_eq DifFlag.srcFDetectAppTag 2 rfl (by decide),
    h.hasFlag_eq DifFlag.srcFDetectTags 3 rfl (by decide),
    h.hasFlag_eq DifFlag.srcGuardCheckDisable 5 rfl (by decide),
    h.hasFlag_eq DifFlag.srcRefTagCheckDisable 6 rfl (by decide)]

end SameSource

/-- The jobs are for the same source, under configurations that agree on it. -/
structure DmlJob.SameSource (job job' : DmlJob) : Prop where
  difConfig : DataMover.SameSource job.difConfig job'.difConfig
  sourceFirstPtr : job.sourceFirstPtr = job'.sourceFirstPtr
  sourceLength : job.sourceLength = job'.sourceLength
  offset : job.offset = job'.offset

namespace DmlJob.SameSource

variable {job job' : DmlJob} (h : job.SameSource job')
include h

theorem difBitsAt_eq (m : Memory) (j : ℕ) : difBitsAt m job j = difBitsAt m job' j := by
  have happ : job.difConfig.sourceAppIncrement = job'.difConfig.sourceAppIncrement := by
    unfold DifConfig.sourceAppIncrement
    rw [h.difConfig.hasFlag_eq DifFlag.srcIncAppTag 4 rfl (by decide)]
  have href : job.difConfig.sourceRefIncrement = job'.difConfig.sourceRefIncrement := by
    unfold DifConfig.sourceRefIncrement
    rw [h.difConfig.hasFlag_eq DifFlag.srcFixRefTag 7 rfl (by decide)]
  unfold difBitsAt
  simp only
  rw [h.difConfig.difCheckBits_eq, h.sourceFirstPtr, step_of_blockSize h.difConfig.blockSize,
    happ, href, h.difConfig.applicationTagSeed, h.difConfig.referenceTagSeed]

/-- **A check reads the source half of its job.** -/
theorem dmlLegacyDifCheck_eq (m : Memory) :
    (dmlLegacyDifCheck m job).1 = (dmlLegacyDifCheck m job').1
      ∧ (dmlLegacyDifCheck m job).2.offset = (dmlLegacyDifCheck m job').2.offset
      ∧ (dmlLegacyDifCheck m job).2.result = (dmlLegacyDifCheck m job').2.result := by
  rw [DataMover.dmlLegacyDifCheck_eq, DataMover.dmlLegacyDifCheck_eq,
    step_of_blockSize h.difConfig.blockSize, h.sourceLength]
  simp only [h.difBitsAt_eq]
  cases Loop.search (fun j => difBitsAt m job' j != 0)
      (job'.sourceLength / job'.difConfig.step) with
  | some j => exact ⟨rfl, rfl, rfl⟩
  | none => exact ⟨rfl, h.offset, rfl⟩

end DmlJob.SameSource

/-! ### A failed job -/

/-- Of a failed job, `out` leaves no trace but its result and its offset, which is that of a
block. -/
structure FailsClean (m : Memory) (job : DmlJob) (out : DmlStatus × Memory × DmlJob) : Prop where
  memory : out.2.1 = m
  rest : out.2.2 = { job with offset := out.2.2.offset, result := out.2.2.result }
  offset_dvd : job.difConfig.step ∣ out.2.2.offset
  offset_lt : out.2.2.offset < job.sourceLength

section Failure

variable {m : Memory} {job job' : DmlJob}

/-- What a failed check reports. -/
theorem dmlLegacyDifCheck_failed (hlen : job.sourceLength < 2 ^ 32)
    (hfail : (dmlLegacyDifCheck m job).1 = .difCheckError) :
    ∃ b, b < job.sourceLength / job.difConfig.step
      ∧ dmlLegacyDifCheck m job = (.difCheckError,
        { job with offset := b * job.difConfig.step, result := difBitsAt m job b }) := by
  rw [dmlLegacyDifCheck_eq_outcomeOf hlen] at hfail ⊢
  cases hsearch : Loop.search (fun b => difBitsAt m job b != 0)
      (job.sourceLength / job.difConfig.step) with
  | none =>
    rw [hsearch] at hfail
    cases hfail
  | some b => exact ⟨b, (Loop.search_eq_some.mp hsearch).1, rfl⟩

/-- A job that hands on the outcome of a failed check. -/
theorem failsClean_of_check (hlen : job.sourceLength < 2 ^ 32)
    (hfail : (dmlLegacyDifCheck m job).1 = .difCheckError) :
    FailsClean m job (.difCheckError, m, (dmlLegacyDifCheck m job).2) := by
  obtain ⟨b, hb, hcheck⟩ := dmlLegacyDifCheck_failed hlen hfail
  have hlt := add_mul_lt hb job.difConfig.step_pos
  have hle := Nat.div_mul_le_self job.sourceLength job.difConfig.step
  rw [hcheck]
  exact ⟨rfl, rfl, Dvd.intro_left b rfl, by simp only; omega⟩

/-- A strip and an update return the outcome of their check, and what it leaves behind. -/
theorem dmlLegacyDifStrip_eq (m : Memory) (job : DmlJob) :
    dmlLegacyDifStrip m job = ((dmlLegacyDifCheck m job).1,
      if (dmlLegacyDifCheck m job).1 = .ok then difStripBlocks m (dmlLegacyDifCheck m job).2 else m,
      (dmlLegacyDifCheck m job).2) := by
  unfold dmlLegacyDifStrip
  rcases dmlLegacyDifCheck m job with ⟨status, out⟩
  cases status <;> rfl

theorem dmlLegacyDifUpdate_eq (m : Memory) (job : DmlJob) :
    dmlLegacyDifUpdate m job = ((dmlLegacyDifCheck m job).1,
      if (dmlLegacyDifCheck m job).1 = .ok then difUpdateBlocks m (dmlLegacyDifCheck m job).2
      else m, (dmlLegacyDifCheck m job).2) := by
  unfold dmlLegacyDifUpdate
  rcases dmlLegacyDifCheck m job with ⟨status, out⟩
  cases status <;> rfl

end Failure

/-! ### The kernels -/

/-- The fields of a descriptor that say what a check reads. -/
def sourceFields : List Field :=
  [AnyDescriptor.sourceAddress, AnyDescriptor.transferSize, DifDescriptor.difFlags,
    DifDescriptor.sourceDifFlags, DifDescriptor.sourceRefTag, DifDescriptor.sourceAppTag,
    DifDescriptor.sourceAppTagMask]

/-- The descriptors ask for the same check of the same source. -/
def SameSourceFields (m : Memory) (dsc d : ℕ) : Prop :=
  ∀ f ∈ sourceFields, f.get m dsc = f.get m d

/-- What a completion record says of a check: status, error bits and offset. -/
def difReport (m : Memory) (record : ℕ) : ℕ × ℕ × ℕ :=
  (AnyCompletionRecord.status.get m record, DifCompletionRecord.difStatus.get m record,
    AnyCompletionRecord.bytesCompleted.get m record)

section Kernel

variable {m : Memory} {dsc d : ℕ}

theorem difReport_completeDif (m : Memory) (record : ℕ) (status : DmlStatus) (job : DmlJob) :
    difReport (Kernels.completeDif m record status job) record
      = ((Kernels.difStatus status).toUnderlying, job.result % 2 ^ 8, job.offset % 2 ^ 32) := by
  unfold difReport
  simp only [Kernels.completeDif]
  rw [status_setStatus, get_setStatus (by decide), get_setStatus (by decide),
    Field.get_set_of_apart (by decide), Field.get_set_self, Field.get_set_self]
  rfl

/-- The flags of the destination do not reach those of the source. -/
theorem testBit_updateFlags (a b s : ℕ) (hb : b < 2 ^ 8) {i : ℕ} (hi : i < 8 ∨ 16 ≤ i) :
    (a <<< 16 ||| b <<< 8 ||| s).testBit i = (a <<< 16 ||| s).testBit i := by
  have hclear : (b <<< 8).testBit i = false := by
    rw [Nat.testBit_shiftLeft]
    rcases hi with hi | hi
    · simp [hi]
    · have hpow : 2 ^ 8 ≤ 2 ^ (i - 8) := Nat.pow_le_pow_right (by decide) (by omega)
      rw [Nat.testBit_lt_two_pow (lt_of_lt_of_le hb hpow), Bool.and_false]
  rw [Nat.testBit_or, Nat.testBit_or, Nat.testBit_or, hclear, Bool.or_false]

theorem SameSourceFields.strip (h : SameSourceFields m dsc d) :
    (Kernels.difJob m dsc (Kernels.sourceDifConfig m dsc)).SameSource
      (Kernels.difCheckJob m d) := by
  simp only [SameSourceFields, sourceFields, List.forall_mem_cons] at h
  obtain ⟨hsrc, hsize, hflags, hsource, href, happ, hmask, -⟩ := h
  constructor
  · constructor
    · intro i _
      simp only [Kernels.difJob, Kernels.difCheckJob, Kernels.sourceDifConfig, hflags, hsource]
    all_goals
      simp only [Kernels.difJob, Kernels.difCheckJob, Kernels.sourceDifConfig, hflags, href, happ,
        hmask]
  · exact hsrc
  · exact hsize
  · rfl

theorem SameSourceFields.update (h : SameSourceFields m dsc d) :
    (Kernels.difJob m dsc (Kernels.updateDifConfig m dsc)).SameSource
      (Kernels.difCheckJob m d) := by
  simp only [SameSourceFields, sourceFields, List.forall_mem_cons] at h
  obtain ⟨hsrc, hsize, hflags, hsource, href, happ, hmask, -⟩ := h
  constructor
  · constructor
    · intro i hi
      simp only [Kernels.difJob, Kernels.difCheckJob, Kernels.sourceDifConfig,
        Kernels.updateDifConfig, hflags, hsource]
      exact testBit_updateFlags _ _ _ (Field.get_lt _ m dsc) hi
    all_goals
      simp only [Kernels.difJob, Kernels.difCheckJob, Kernels.sourceDifConfig,
        Kernels.updateDifConfig, hflags, href, happ, hmask]
  · exact hsrc
  · exact hsize
  · rfl

/-- The kernels of a strip and of a check of the same source report the same. -/
theorem difReport_difStrip (h : SameSourceFields m dsc d) :
    difReport (Kernels.difStrip m dsc) (getCompletionRecord m dsc)
      = difReport (Kernels.difCheck m d) (getCompletionRecord m d) := by
  obtain ⟨hstatus, hoffset, hresult⟩ := h.strip.dmlLegacyDifCheck_eq m
  simp only [Kernels.difStrip, Kernels.difCheck]
  rw [difReport_completeDif, difReport_completeDif, dmlLegacyDifStrip_eq, hstatus, hoffset, hresult]

theorem difReport_difUpdate (h : SameSourceFields m dsc d) :
    difReport (Kernels.difUpdate m dsc) (getCompletionRecord m dsc)
      = difReport (Kernels.difCheck m d) (getCompletionRecord m d) := by
  obtain ⟨hstatus, hoffset, hresult⟩ := h.update.dmlLegacyDifCheck_eq m
  simp only [Kernels.difUpdate, Kernels.difCheck]
  rw [difReport_completeDif, difReport_completeDif, dmlLegacyDifUpdate_eq, hstatus, hoffset,
    hresult]

/-- **A failed check leaves the destination untouched.**  A failed strip or update writes
nothing and names the first block of its source that is wrong; the kernels report what a
check of the same source reports; and whether an update succeeds is not up to its
destination. -/
theorem dif_failure (m : Memory) :
    (∀ job, job.sourceLength < 2 ^ 32 → (dmlLegacyDifStrip m job).1 = .difCheckError →
        FailsClean m job (dmlLegacyDifStrip m job))
      ∧ (∀ job, job.sourceLength < 2 ^ 32 → (dmlLegacyDifUpdate m job).1 = .difCheckError →
        FailsClean m job (dmlLegacyDifUpdate m job))
      ∧ (∀ dsc d, SameSourceFields m dsc d →
        difReport (Kernels.difStrip m dsc) (getCompletionRecord m dsc)
            = difReport (Kernels.difCheck m d) (getCompletionRecord m d)
          ∧ difReport (Kernels.difUpdate m dsc) (getCompletionRecord m dsc)
            = difReport (Kernels.difCheck m d) (getCompletionRecord m d))
      ∧ ∀ job job' : DmlJob, job.SameSource job' →
        ((dmlLegacyDifUpdate m job).1 = .ok ↔ (dmlLegacyDifUpdate m job').1 = .ok) := by
  refine ⟨fun job hlen hfail => ?_, fun job hlen hfail => ?_, fun dsc d h => ?_,
    fun job job' h => ?_⟩
  · rw [dmlLegacyDifStrip_eq] at hfail ⊢
    rw [if_neg (by rw [hfail]; simp), hfail]
    exact failsClean_of_check hlen hfail
  · rw [dmlLegacyDifUpdate_eq] at hfail ⊢
    rw [if_neg (by rw [hfail]; simp), hfail]
    exact failsClean_of_check hlen hfail
  · exact ⟨difReport_difStrip h, difReport_difUpdate h⟩
  · rw [dmlLegacyDifUpdate_eq, dmlLegacyDifUpdate_eq, (h.dmlLegacyDifCheck_eq m).1]

end Kernel

/-- A strip at 64 of two blocks of zeros at 2048, and a check of them at 128.  The application
tag of the first block is the one expected, that of the second is not. -/
def tamperedBlocks : Memory :=
  let m := rawDescriptor .difStrip 64 32 2048 4096 1040
  let m := DifDescriptor.sourceDifFlags.set m 64 0x60
  let m := DifDescriptor.sourceAppTag.set m 64 0x5678
  let m := DifDescriptor.sourceAppTagMask.set m 64 0x000F
  let m := sourceFields.foldl (fun m f => f.set m 128 (f.get m 64)) m
  let m := AnyDescriptor.completionRecordAddress.set m 128 192
  store m (2048 + 514) 2 0x7056

/-- The strip, with no more of the source than `n` bytes. -/
def tamperedJob (n : ℕ) : DmlJob :=
  { Kernels.difJob tamperedBlocks 64 (Kernels.sourceDifConfig tamperedBlocks 64) with
    sourceLength := n }

/-- A strip and an update fail at the second block, where the check fails as well; and for the
first alone, the update succeeds at any destination. -/
theorem dif_failure_sample :
    (FailsClean tamperedBlocks (tamperedJob 1040)
          (dmlLegacyDifStrip tamperedBlocks (tamperedJob 1040))
        ∧ (dmlLegacyDifStrip tamperedBlocks (tamperedJob 1040)).2.2.offset = 520)
      ∧ (FailsClean tamperedBlocks (tamperedJob 1040)
          (dmlLegacyDifUpdate tamperedBlocks (tamperedJob 1040))
        ∧ (dmlLegacyDifUpdate tamperedBlocks (tamperedJob 1040)).2.2.offset = 520)
      ∧ (difReport (Kernels.difStrip tamperedBlocks 64) 32
          = (ExecutionStatus.difControlError.toUnderlying, DifCheck.applicationTagMismatch, 520)
        ∧ difReport (Kernels.difUpdate tamperedBlocks 64) 32
          = (ExecutionStatus.difControlError.toUnderlying, DifCheck.applicationTagMismatch, 520))
      ∧ ∀ dst, (dmlLegacyDifUpdate tamperedBlocks
          { tamperedJob 520 with destinationFirstPtr := dst }).1 = .ok := by
  have hrec : getCompletionRecord tamperedBlocks 64 = 32 := by decide
  have hrec' : getCompletionRecord tamperedBlocks 128 = 192 := by decide
  have hcheck : difReport (Kernels.difCheck tamperedBlocks 128) 192
      = (ExecutionStatus.difControlError.toUnderlying, DifCheck.applicationTagMismatch, 520) := by
    decide
  have hsame : SameSourceFields tamperedBlocks 64 128 := by
    unfold SameSourceFields
    decide
  obtain ⟨hstrip, hupdate, hreport, hdestination⟩ := dif_failure tamperedBlocks
  obtain ⟨hstrip', hupdate'⟩ := hreport 64 128 hsame
  rw [hrec, hrec', hcheck] at hstrip' hupdate'
  refine ⟨⟨hstrip _ (by decide) (by decide), by decide⟩,
    ⟨hupdate _ (by decide) (by decide), by decide⟩, ⟨hstrip', hupdate'⟩, fun dst => ?_⟩
  have hsource : DmlJob.SameSource { tamperedJob 520 with destinationFirstPtr := dst }
      (tamperedJob 520) :=
    ⟨⟨fun _ _ => rfl, rfl, rfl, rfl, rfl⟩, rfl, rfl, rfl⟩
  exact (hdestination _ _ hsource).mpr (by decide)

end DataMover
