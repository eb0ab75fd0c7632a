import DataMover.Continuation.Wait
import DataMover.DifSplit

/-!
# Continuing a check or an update of integrity fields

The record of a stopped DIF operation holds the tags of the block it stopped at;
the update of the descriptor takes them over and moves the pointers.  For a check
and for an update source and destination advance at the same rate, so the rest of
the walk is the walk of the whole from there on.

## Main definitions

* `SourceTags`, `DestinationTags` — the tags in the record.
* `DifCheckFault`, `DifUpdateFault` — the hardware stopped after `b` blocks.
* `SameVerdict` — two records agree on the outcome of a check.

## Main results

* `dif_continuation` — the wait leaves the verdict, and after a passing update
  the destination, of the uninterrupted run.
-/

namespace DataMover

open ByteMemory

/-! ### The record -/

/-- The record holds the tags expected in block `b` of the source. -/
structure SourceTags (m : Memory) (record : ℕ) (cfg : DifConfig) (b : ℕ) : Prop where
  app : BitVec.ofNat 16 (DifCompletionRecord.sourceAppTag.get m record)
    = tagAt cfg.sourceApplicationTagSeed cfg.sourceAppIncrement b
  ref : BitVec.ofNat 32 (DifCompletionRecord.sourceRefTag.get m record)
    = tagAt cfg.sourceReferenceTagSeed cfg.sourceRefIncrement b

/-- The record holds the tags to write into block `b` of the destination. -/
structure DestinationTags (m : Memory) (record : ℕ) (cfg : DifConfig) (b : ℕ) : Prop where
  app : BitVec.ofNat 16 (DifCompletionRecord.destinationAppTag.get m record)
    = tagAt cfg.destinationApplicationTagSeed cfg.destinationAppIncrement b
  ref : BitVec.ofNat 32 (DifCompletionRecord.destinationRefTag.get m record)
    = tagAt cfg.destinationReferenceTagSeed cfg.destinationRefIncrement b

/-- The records give the same verdict: status and error bits, and for a failure
the offset of the failing block. -/
def SameVerdict (m m' : Memory) (record : ℕ) : Prop :=
  AnyCompletionRecord.status.get m record = AnyCompletionRecord.status.get m' record
    ∧ DifCompletionRecord.difStatus.get m record = DifCompletionRecord.difStatus.get m' record
    ∧ (AnyCompletionRecord.status.get m' record ≠ ExecutionStatus.success.toUnderlying →
      AnyCompletionRecord.bytesCompleted.get m record
        = AnyCompletionRecord.bytesCompleted.get m' record)

/-- The record of a check, a strip or an update. -/
theorem completeDif_record (m : Memory) (record : ℕ) (status : DmlStatus) (job : DmlJob) :
    AnyCompletionRecord.status.get (Kernels.completeDif m record status job) record
        = (Kernels.difStatus status).toUnderlying
      ∧ DifCompletionRecord.difStatus.get (Kernels.completeDif m record status job) record
        = job.result % 2 ^ 8
      ∧ AnyCompletionRecord.bytesCompleted.get (Kernels.completeDif m record status job) record
        = job.offset % 2 ^ 32 := by
  simp only [Kernels.completeDif]
  refine ⟨status_setStatus _ _ _, ?_, ?_⟩
  · rw [get_setStatus (by decide), Field.get_set_of_apart (by decide)]
    exact Field.get_set_self _ _ _ _
  · rw [get_setStatus (by decide)]
    exact Field.get_set_self _ _ _ _

theorem completeDif_success {m : Memory} {record : ℕ} {status : DmlStatus} {job : DmlJob}
    (h : AnyCompletionRecord.status.get (Kernels.completeDif m record status job) record
      = ExecutionStatus.success.toUnderlying) : status = .ok := by
  rw [(completeDif_record m record status job).1] at h
  cases status with
  | ok => rfl
  | difCheckError => exact absurd h (by decide)

/-- Two runs of a check with the same status and error bits, the second offset
counting from `k` bytes before the first, give the same verdict once `k` is added. -/
theorem sameVerdict_completeDif (t t₀ : Memory) (record : ℕ) {status : DmlStatus}
    {job' job : DmlJob} {k : ℕ} (hresult : job'.result = job.result)
    (hoffset : status = .difCheckError → (job'.offset + k) % 2 ^ 32 = job.offset) :
    SameVerdict
      (AnyCompletionRecord.bytesCompleted.addAssign (Kernels.completeDif t record status job')
        record k)
      (Kernels.completeDif t₀ record status job) record := by
  obtain ⟨hstatus', hresult', hbytes'⟩ := completeDif_record t record status job'
  obtain ⟨hstatus, hresult₀, hbytes⟩ := completeDif_record t₀ record status job
  refine ⟨?_, ?_, fun hfail => ?_⟩
  · rw [Field.get_addAssign_of_apart (by decide), hstatus', hstatus]
  · rw [Field.get_addAssign_of_apart (by decide), hresult', hresult₀, hresult]
  · have herror : status = .difCheckError := by
      cases status with
      | ok => exact absurd hstatus hfail
      | difCheckError => rfl
    have hsum : AnyCompletionRecord.bytesCompleted.get
        (AnyCompletionRecord.bytesCompleted.addAssign (Kernels.completeDif t record status job')
          record k) record = (job'.offset % 2 ^ 32 + k) % 2 ^ 32 := by
      rw [← hbytes']
      exact Field.get_set_self _ _ _ _
    rw [hsum, hbytes, Nat.mod_add_mod, hoffset herror, ← hoffset herror, Nat.mod_mod]

/-! ### The update -/

/-- An update runs the check first and reports what it finds. -/
theorem dmlLegacyDifUpdate_check (m : Memory) (job : DmlJob) :
    (dmlLegacyDifUpdate m job).1 = (dmlLegacyDifCheck m job).1
      ∧ (dmlLegacyDifUpdate m job).2.2 = (dmlLegacyDifCheck m job).2
      ∧ ((dmlLegacyDifCheck m job).1 = .ok →
        (dmlLegacyDifUpdate m job).2.1 = difUpdateBlocks m job) := by
  have hcheck := dmlLegacyDifCheck_eq m job
  unfold dmlLegacyDifUpdate
  rw [hcheck]
  cases Loop.search (fun j => difBitsAt m job j != 0) (job.sourceLength / job.difConfig.step) with
  | some j => exact ⟨rfl, rfl, fun h => nomatch h⟩
  | none => exact ⟨rfl, rfl, fun _ => rfl⟩

/-! ### The rewritten descriptor -/

/-- The operations on integrity fields. -/
def difOperations : List Operation := [.difCheck, .difInsert, .difStrip, .difUpdate]

/-- The fields of a DIF descriptor that no continuation touches. -/
def difSettings : List Field :=
  [DifDescriptor.difFlags, DifDescriptor.sourceDifFlags, DifDescriptor.destinationDifFlags,
    DifDescriptor.sourceAppTagMask, DifDescriptor.destinationAppTagMask]

section Update

variable {m₀ w m : Memory} {dsc k b : ℕ} {op : Operation} (hop : operationOf m₀ dsc = some op)
  (hp : Placed m₀ dsc) (hfault : PageFault m₀ w m dsc k)
include hop hp hfault

theorem update_difSettings (hdif : op ∈ difOperations) {f : Field} (hf : f ∈ difSettings) :
    f.get (updateForContinuation m dsc) dsc = f.get m₀ dsc := by
  have htouched : ∀ op ∈ difOperations, ∀ f ∈ difSettings,
      (∀ g ∈ touchedFields op, f.Apart g) ∧ f.Within descriptorSize := by
    decide
  exact hfault.update_kept hp hop (htouched op hdif f hf).1 (htouched op hdif f hf).2

/-- The source half of a check or a strip goes on where the record says. -/
theorem continuesSource_update (hdif : op = .difCheck ∨ op = .difStrip)
    (htags : SourceTags m (getCompletionRecord m₀ dsc) (Kernels.sourceDifConfig m₀ dsc) b) :
    ContinuesSource (Kernels.sourceDifConfig (updateForContinuation m dsc) dsc)
      (Kernels.sourceDifConfig m₀ dsc) b := by
  have hmem : op ∈ difOperations := by rcases hdif with rfl | rfl <;> decide
  have hset := fun {f} hf => update_difSettings hop hp hfault hmem (f := f) hf
  have htaken : takenOverFields op
      = [(DifDescriptor.sourceAppTag, DifCompletionRecord.sourceAppTag),
        (DifDescriptor.sourceRefTag, DifCompletionRecord.sourceRefTag)] := by
    rcases hdif with rfl | rfl <;> rfl
  constructor
  · simp only [Kernels.sourceDifConfig]
    rw [hset (by decide), hset (by decide)]
  · simp only [Kernels.sourceDifConfig]
    rw [hset (by decide)]
  · simp only [Kernels.sourceDifConfig]
    rw [hset (by decide)]
  · rw [← htags.app]
    simp only [Kernels.sourceDifConfig]
    rw [hfault.update_takenOver hp hop (g := DifCompletionRecord.sourceAppTag)
      (by rw [htaken]; decide)]
  · rw [← htags.ref]
    simp only [Kernels.sourceDifConfig]
    rw [hfault.update_takenOver hp hop (g := DifCompletionRecord.sourceRefTag)
      (by rw [htaken]; decide)]

/-- Both halves of an update do. -/
theorem continues_update (hupdate : op = .difUpdate)
    (hsource : SourceTags m (getCompletionRecord m₀ dsc) (Kernels.updateDifConfig m₀ dsc) b)
    (hdest : DestinationTags m (getCompletionRecord m₀ dsc) (Kernels.updateDifConfig m₀ dsc) b) :
    ContinuesSource (Kernels.updateDifConfig (updateForContinuation m dsc) dsc)
        (Kernels.updateDifConfig m₀ dsc) b
      ∧ ContinuesDestination (Kernels.updateDifConfig (updateForContinuation m dsc) dsc)
        (Kernels.updateDifConfig m₀ dsc) b := by
  subst hupdate
  have hset := fun {f} hf => update_difSettings hop hp hfault (by decide) (f := f) hf
  have hflags : (Kernels.updateDifConfig (updateForContinuation m dsc) dsc).flags
      = (Kernels.updateDifConfig m₀ dsc).flags := by
    simp only [Kernels.updateDifConfig]
    rw [hset (by decide), hset (by decide), hset (by decide)]
  have hsize : (Kernels.updateDifConfig (updateForContinuation m dsc) dsc).blockSize
      = (Kernels.updateDifConfig m₀ dsc).blockSize := by
    simp only [Kernels.updateDifConfig]
    rw [hset (by decide)]
  refine ⟨⟨hflags, hsize, ?_, ?_, ?_⟩, ⟨hflags, hsize, ?_, ?_, ?_⟩⟩
  · simp only [Kernels.updateDifConfig]
    rw [hset (by decide)]
  · rw [← hsource.app]
    simp only [Kernels.updateDifConfig]
    rw [hfault.update_takenOver hp hop (g := DifCompletionRecord.sourceAppTag) (by decide)]
  · rw [← hsource.ref]
    simp only [Kernels.updateDifConfig]
    rw [hfault.update_takenOver hp hop (g := DifCompletionRecord.sourceRefTag) (by decide)]
  · simp only [Kernels.updateDifConfig]
    rw [hset (by decide)]
  · rw [← hdest.app]
    simp only [Kernels.updateDifConfig]
    rw [hfault.update_takenOver hp hop (g := DifCompletionRecord.destinationAppTag) (by decide)]
  · rw [← hdest.ref]
    simp only [Kernels.updateDifConfig]
    rw [hfault.update_takenOver hp hop (g := DifCompletionRecord.destinationRefTag) (by decide)]

/-- The source pointer and the size of the rewritten descriptor. -/
theorem update_difSource (hdif : op ∈ difOperations)
    (hk : k ≤ AnyDescriptor.transferSize.get m₀ dsc) :
    AnyDescriptor.sourceAddress.get (updateForContinuation m dsc) dsc
        = AnyDescriptor.sourceAddress.get m₀ dsc + k
      ∧ AnyDescriptor.transferSize.get (updateForContinuation m dsc) dsc
        = AnyDescriptor.transferSize.get m₀ dsc - k := by
  have hmem : ⟨AnyDescriptor.sourceAddress.get m₀ dsc, AnyDescriptor.transferSize.get m₀ dsc⟩
      ∈ operands m₀ dsc := by
    cases op with
    | difCheck | difInsert | difStrip | difUpdate => simp [operands, hop]
    | _ => exact absurd hdif (by decide)
  have hfit := hp.fits _ hmem
  simp only at hfit
  have hadvanced : ∀ op ∈ difOperations, ∀ result, AnyDescriptor.sourceAddress
      ∈ advancedFields op result ∧ AnyDescriptor.transferSize ∈ shrunkFields op := by
    simp [difOperations, advancedFields, shrunkFields]
  constructor
  · exact hfault.update_advanced hp hop (hadvanced op hdif _).1 (by decide) (by omega)
  · exact hfault.update_shrunk hp hop (hadvanced op hdif 0).2 (by decide) hk

/-- The destination pointer of the rewritten descriptor. -/
theorem update_difDestination (hdif : op ∈ [Operation.difInsert, .difStrip, .difUpdate])
    (hfit : AnyDescriptor.destinationAddress.get m₀ dsc + k < 2 ^ 64) :
    AnyDescriptor.destinationAddress.get (updateForContinuation m dsc) dsc
      = AnyDescriptor.destinationAddress.get m₀ dsc + k := by
  have hadvanced : ∀ op ∈ [Operation.difInsert, .difStrip, .difUpdate], ∀ result,
      AnyDescriptor.destinationAddress ∈ advancedFields op result := by
    simp [advancedFields]
  exact hfault.update_advanced hp hop (hadvanced op hdif _) (by decide) hfit

end Update

/-! ### Waiting -/

/-- The hardware checked `b` blocks, all of which passed, and stopped. -/
structure DifCheckFault (m₀ m : Memory) (dsc b : ℕ) : Prop where
  fault : PageFault m₀ m₀ m dsc (b * (difBlockBytes m₀ dsc + 8))
  tags : SourceTags m (getCompletionRecord m₀ dsc) (Kernels.sourceDifConfig m₀ dsc) b
  passed : ∀ j, j < b → difBitsAt m₀ (Kernels.difCheckJob m₀ dsc) j = 0

/-- The first `b` blocks of the destination of an update are written. -/
def updatedPart (m₀ : Memory) (dsc b : ℕ) : Memory :=
  writeBlocks m₀ (AnyDescriptor.destinationAddress.get m₀ dsc) (difBlockBytes m₀ dsc + 8) b
    (updatedByte m₀ (Kernels.difJob m₀ dsc (Kernels.updateDifConfig m₀ dsc)))

/-- The hardware checked and updated `b` blocks and stopped. -/
structure DifUpdateFault (m₀ m : Memory) (dsc b : ℕ) : Prop where
  fault : PageFault m₀ (updatedPart m₀ dsc b) m dsc (b * (difBlockBytes m₀ dsc + 8))
  sourceTags : SourceTags m (getCompletionRecord m₀ dsc) (Kernels.updateDifConfig m₀ dsc) b
  destinationTags :
    DestinationTags m (getCompletionRecord m₀ dsc) (Kernels.updateDifConfig m₀ dsc) b
  passed : ∀ j, j < b →
    difBitsAt m₀ (Kernels.difJob m₀ dsc (Kernels.updateDifConfig m₀ dsc)) j = 0

section Wait

variable {m₀ m : Memory} {dsc b : ℕ} (hp : Placed m₀ dsc)
  (hb : b * (difBlockBytes m₀ dsc + 8) ≤ AnyDescriptor.transferSize.get m₀ dsc)
include hp hb

theorem difCheck_wait (umwait : Bool) (hop : operationOf m₀ dsc = some .difCheck)
    (hfault : DifCheckFault m₀ m dsc b) :
    ∃ m', Automatic.wait m dsc umwait = some m'
      ∧ SameVerdict m' (SoftwareDevice.submit m₀ dsc).1 (getCompletionRecord m₀ dsc) := by
  have hf := hfault.fault
  have hplain : PageFault.Plain .difCheck := ⟨by simp [AddsBytes], by simp, by simp⟩
  have hreq : b * (difBlockBytes m₀ dsc + 8) ≤ requested m₀ dsc := by
    rw [requested_of_ne hop (by decide)]
    exact hb
  obtain ⟨hsrc, hn⟩ := update_difSource hop hp hf (by decide) hb
  have hresumes : Resumes (Kernels.difCheckJob (updateForContinuation m dsc) dsc)
      (Kernels.difCheckJob m₀ dsc) b :=
    ⟨continuesSource_update hop hp hf (Or.inl rfl) hfault.tags, hsrc, hn⟩
  have hmem : ⟨AnyDescriptor.sourceAddress.get m₀ dsc, AnyDescriptor.transferSize.get m₀ dsc⟩
      ∈ operands m₀ dsc := by
    simp [operands, hop]
  obtain ⟨hstatus, hresult, hoffset⟩ := dmlLegacyDifCheck_resume hresumes hb
    (fun i hi => hf.update_apply hp hmem (Region.add_mem_addrs hi)) hfault.passed
  refine ⟨_, hf.wait_eq_addAssign hp hop hreq hplain umwait, ?_⟩
  rw [resumed, SoftwareDevice.submit, hf.update_operation hp hop, SoftwareDevice.submit, hop]
  simp only [Kernels.difCheck]
  rw [getCompletionRecord_updateForContinuation, hf.record hp, hstatus]
  exact sameVerdict_completeDif _ _ _ hresult hoffset

/-- The software check of the rest of an update. -/
theorem DifUpdateFault.resumes (hop : operationOf m₀ dsc = some .difUpdate)
    (hfault : DifUpdateFault m₀ m dsc b) :
    Resumes (Kernels.difJob (updateForContinuation m dsc) dsc
        (Kernels.updateDifConfig (updateForContinuation m dsc) dsc))
        (Kernels.difJob m₀ dsc (Kernels.updateDifConfig m₀ dsc)) b
      ∧ ContinuesDestination (Kernels.updateDifConfig (updateForContinuation m dsc) dsc)
        (Kernels.updateDifConfig m₀ dsc) b
      ∧ AnyDescriptor.destinationAddress.get (updateForContinuation m dsc) dsc
        = AnyDescriptor.destinationAddress.get m₀ dsc + b * (difBlockBytes m₀ dsc + 8) := by
  have hmem : ⟨AnyDescriptor.destinationAddress.get m₀ dsc, AnyDescriptor.transferSize.get m₀ dsc⟩
      ∈ operands m₀ dsc := by
    simp [operands, hop]
  have hfit := hp.fits _ hmem
  simp only at hfit
  obtain ⟨hsrc, hn⟩ := update_difSource hop hp hfault.fault (by decide) hb
  obtain ⟨hcs, hcd⟩ := continues_update hop hp hfault.fault rfl hfault.sourceTags
    hfault.destinationTags
  exact ⟨⟨hcs, hsrc, hn⟩, hcd, update_difDestination hop hp hfault.fault (by decide) (by omega)⟩

/-- The rest of an update reads the original source. -/
theorem DifUpdateFault.update_source (hop : operationOf m₀ dsc = some .difUpdate)
    (hap : Region.Apart ⟨AnyDescriptor.sourceAddress.get m₀ dsc,
        AnyDescriptor.transferSize.get m₀ dsc⟩
      ⟨AnyDescriptor.destinationAddress.get m₀ dsc, AnyDescriptor.transferSize.get m₀ dsc⟩)
    (hfault : DifUpdateFault m₀ m dsc b) {i : ℕ} (hi : i < AnyDescriptor.transferSize.get m₀ dsc) :
    updateForContinuation m dsc (AnyDescriptor.sourceAddress.get m₀ dsc + i)
      = m₀ (AnyDescriptor.sourceAddress.get m₀ dsc + i) := by
  have hin : AnyDescriptor.sourceAddress.get m₀ dsc + i ∈ Region.addrs
      ⟨AnyDescriptor.sourceAddress.get m₀ dsc, AnyDescriptor.transferSize.get m₀ dsc⟩ :=
    Region.add_mem_addrs hi
  rw [hfault.fault.update_apply hp (by simp [operands, hop]) hin]
  have hout := notMem_addrs.mp (hap.notMem hin)
  exact writeBlocks_of_notMem (by omega)

/-- **The destination of an update in two parts** is that of the whole. -/
theorem DifUpdateFault.destination (hop : operationOf m₀ dsc = some .difUpdate)
    (hvalid : validate m₀ dsc = .success) (hfault : DifUpdateFault m₀ m dsc b) {i : ℕ}
    (hi : i < AnyDescriptor.transferSize.get m₀ dsc) :
    difUpdateBlocks (updateForContinuation m dsc)
        (Kernels.difJob (updateForContinuation m dsc) dsc
          (Kernels.updateDifConfig (updateForContinuation m dsc) dsc))
        (AnyDescriptor.destinationAddress.get m₀ dsc + i)
      = difUpdateBlocks m₀ (Kernels.difJob m₀ dsc (Kernels.updateDifConfig m₀ dsc))
        (AnyDescriptor.destinationAddress.get m₀ dsc + i) := by
  obtain ⟨hresumes, hcd, hdst'⟩ := hfault.resumes hp hb hop
  obtain ⟨hwhole, hover⟩ := validate_difUpdate hop hvalid
  set n := AnyDescriptor.transferSize.get m₀ dsc with hn
  set src := AnyDescriptor.sourceAddress.get m₀ dsc with hsrc
  set dst := AnyDescriptor.destinationAddress.get m₀ dsc with hdst
  set step := difBlockBytes m₀ dsc + 8 with hstep
  set job := Kernels.difJob m₀ dsc (Kernels.updateDifConfig m₀ dsc) with hjob
  set job' := Kernels.difJob (updateForContinuation m dsc) dsc
    (Kernels.updateDifConfig (updateForContinuation m dsc) dsc) with hjob'
  have hsmem : ⟨src, n⟩ ∈ operands m₀ dsc := by simp [operands, hop, ← hsrc, ← hn]
  have hdmem : ⟨dst, n⟩ ∈ operands m₀ dsc := by simp [operands, hop, ← hdst, ← hn]
  have hap : Region.Apart ⟨src, n⟩ ⟨dst, n⟩ :=
    apart_of_overlaps hover (hp.fits _ hsmem) (hp.fits _ hdmem)
  have hjstep : job.difConfig.step = step := rfl
  have hsrc' : job'.sourceFirstPtr = src + b * step := hresumes.pointer
  -- `b` blocks are done and `r` are left
  have hblocks : b ≤ n / step := (Nat.le_div_iff_mul_le (by omega)).mpr hb
  obtain ⟨r, hr⟩ := Nat.exists_eq_add_of_le hblocks
  have hnr : n = (b + r) * step := by
    rw [← hr]
    exact (Nat.div_mul_cancel (Nat.dvd_of_mod_eq_zero hwhole)).symm
  have hsum : (b + r) * step = b * step + r * step := Nat.add_mul b r step
  have hlen : job'.sourceLength / job'.difConfig.step = r := by
    rw [hresumes.blocks]
    change n / step - b = r
    omega
  have hrest : ∀ a, Region.Inside ⟨a + b * step, r * step⟩ ⟨a, n⟩ :=
    fun a => ⟨Nat.le_add_right _ _, by simp only; omega⟩
  have hap' : Region.Apart ⟨job'.sourceFirstPtr, r * job'.difConfig.step⟩
      ⟨job'.destinationFirstPtr, r * job'.difConfig.step⟩ := by
    rw [hresumes.step_eq, hjstep, hsrc', show job'.destinationFirstPtr = dst + b * step from hdst']
    exact hap.mono (hrest src) (hrest dst)
  rw [difUpdateBlocks_eq hlen hap',
    difUpdateBlocks_eq (n := b + r) hr (by rw [hjstep, ← hnr]; exact hap), hresumes.step_eq,
    show job'.destinationFirstPtr = dst + b * step from hdst', hjstep]
  refine writeBlocks_add (fun _ => ?_) (fun j t hjr ht => ?_) ⟨Nat.le_add_right _ _, by omega⟩
  · exact hfault.fault.update_apply hp hdmem
      (Region.add_mem_addrs hi)
  · refine updatedByte_resume hresumes hcd (fun i hi => ?_) ht
    have hlt := add_mul_lt (show b + j < b + r by omega) hi
    rw [hjstep] at hlt ⊢
    rw [Nat.add_assoc]
    exact hfault.update_source hp hb hop hap (by omega)

theorem difUpdate_wait (umwait : Bool) (hop : operationOf m₀ dsc = some .difUpdate)
    (hvalid : validate m₀ dsc = .success) (hfault : DifUpdateFault m₀ m dsc b) :
    ∃ m', Automatic.wait m dsc umwait = some m'
      ∧ SameVerdict m' (SoftwareDevice.submit m₀ dsc).1 (getCompletionRecord m₀ dsc)
      ∧ (AnyCompletionRecord.status.get (SoftwareDevice.submit m₀ dsc).1
          (getCompletionRecord m₀ dsc) = ExecutionStatus.success.toUnderlying →
        ∀ i, i < AnyDescriptor.transferSize.get m₀ dsc →
          m' (AnyDescriptor.destinationAddress.get m₀ dsc + i)
            = (SoftwareDevice.submit m₀ dsc).1
                (AnyDescriptor.destinationAddress.get m₀ dsc + i)) := by
  have hf := hfault.fault
  have hplain : PageFault.Plain .difUpdate := ⟨by simp [AddsBytes], by simp, by simp⟩
  have hreq : b * (difBlockBytes m₀ dsc + 8) ≤ requested m₀ dsc := by
    rw [requested_of_ne hop (by decide)]
    exact hb
  obtain ⟨hresumes, -, -⟩ := hfault.resumes hp hb hop
  have hsmem : ⟨AnyDescriptor.sourceAddress.get m₀ dsc,
      AnyDescriptor.transferSize.get m₀ dsc⟩ ∈ operands m₀ dsc := by
    simp [operands, hop]
  have hdmem : ⟨AnyDescriptor.destinationAddress.get m₀ dsc,
      AnyDescriptor.transferSize.get m₀ dsc⟩ ∈ operands m₀ dsc := by
    simp [operands, hop]
  have hap := apart_of_overlaps (validate_difUpdate hop hvalid).2 (hp.fits _ hsmem)
    (hp.fits _ hdmem)
  set job := Kernels.difJob m₀ dsc (Kernels.updateDifConfig m₀ dsc) with hjob
  set job' := Kernels.difJob (updateForContinuation m dsc) dsc
    (Kernels.updateDifConfig (updateForContinuation m dsc) dsc) with hjob'
  obtain ⟨hstatus, hresult, hoffset⟩ := dmlLegacyDifCheck_resume hresumes hb
    (fun i hi => hfault.update_source hp hb hop hap hi) hfault.passed
  obtain ⟨hs', hj', hm'⟩ := dmlLegacyDifUpdate_check (updateForContinuation m dsc) job'
  obtain ⟨hs, hj, hm⟩ := dmlLegacyDifUpdate_check m₀ job
  have hsubmit : (SoftwareDevice.submit m₀ dsc).1
      = Kernels.completeDif (dmlLegacyDifUpdate m₀ job).2.1 (getCompletionRecord m₀ dsc)
        (dmlLegacyDifUpdate m₀ job).1 (dmlLegacyDifUpdate m₀ job).2.2 := by
    rw [SoftwareDevice.submit, hop]
    rfl
  have hresumed : resumed m dsc
      = Kernels.completeDif (dmlLegacyDifUpdate (updateForContinuation m dsc) job').2.1
        (getCompletionRecord m₀ dsc) (dmlLegacyDifUpdate (updateForContinuation m dsc) job').1
        (dmlLegacyDifUpdate (updateForContinuation m dsc) job').2.2 := by
    rw [resumed, SoftwareDevice.submit, hf.update_operation hp hop, ← hf.record hp,
      ← getCompletionRecord_updateForContinuation]
    rfl
  refine ⟨_, hf.wait_eq_addAssign hp hop hreq hplain umwait, ?_, ?_⟩
  · rw [hresumed, hsubmit, hs', hs, hj', hj, hstatus]
    exact sameVerdict_completeDif _ _ _ hresult hoffset
  · intro hok i hi
    -- both checks passed
    have hpass : (dmlLegacyDifCheck m₀ job).1 = .ok := by
      rw [hsubmit] at hok
      rw [← hs]
      exact completeDif_success hok
    have hrec : AnyDescriptor.destinationAddress.get m₀ dsc + i
        ∉ Region.addrs ⟨getCompletionRecord m₀ dsc, recordSize⟩ :=
      (hp.apart_record _ hdmem).notMem
        (Region.add_mem_addrs hi)
    rw [addAssign_apply_of_notMem hrec (by decide), hresumed, completeDif_apply hrec,
      hm' (hstatus.trans hpass), hsubmit, completeDif_apply hrec, hm hpass]
    exact hfault.destination hp hb hop hvalid hi

/-- **Continuing a check or an update.**  The verdict is that of the uninterrupted
run, the offset of a failing block included; and when that run succeeds, an update
leaves its destination. -/
theorem dif_continuation (umwait : Bool) (hvalid : validate m₀ dsc = .success) :
    (operationOf m₀ dsc = some .difCheck → DifCheckFault m₀ m dsc b →
      ∃ m', Automatic.wait m dsc umwait = some m'
        ∧ SameVerdict m' (SoftwareDevice.submit m₀ dsc).1 (getCompletionRecord m₀ dsc))
    ∧ (operationOf m₀ dsc = some .difUpdate → DifUpdateFault m₀ m dsc b →
      ∃ m', Automatic.wait m dsc umwait = some m'
        ∧ SameVerdict m' (SoftwareDevice.submit m₀ dsc).1 (getCompletionRecord m₀ dsc)
        ∧ (AnyCompletionRecord.status.get (SoftwareDevice.submit m₀ dsc).1
            (getCompletionRecord m₀ dsc) = ExecutionStatus.success.toUnderlying →
          ∀ i, i < AnyDescriptor.transferSize.get m₀ dsc →
            m' (AnyDescriptor.destinationAddress.get m₀ dsc + i)
              = (SoftwareDevice.submit m₀ dsc).1
                  (AnyDescriptor.destinationAddress.get m₀ dsc + i))) :=
  ⟨fun hop hfault => difCheck_wait hp hb umwait hop hfault,
    fun hop hfault => difUpdate_wait hp hb umwait hop hvalid hfault⟩

end Wait

/-- A DIF operation on `n` bytes at 256, with its destination at 2048; guard and
reference tag are not checked. -/
def difSample (op : Operation) (n : ℕ) : Memory :=
  DifDescriptor.sourceDifFlags.set (rawDescriptor op 64 32 256 2048 n) 64 0x60

/-- The record of a stop after one block of `k` bytes: both reference tags are 1. -/
def difStopped (w : Memory) (k : ℕ) : Memory :=
  let m := DifCompletionRecord.sourceRefTag.set (writeFault w 32 k) 32 1
  DifCompletionRecord.destinationRefTag.set m 32 1

theorem pageFault_difStopped {m₀ w : Memory} {k : ℕ} (hrec : getCompletionRecord m₀ 64 = 32)
    (hk : k < 2 ^ 32) (hkept : Set.EqOn w m₀ (Region.addrs ⟨64, descriptorSize⟩)) :
    PageFault m₀ w (difStopped w k) 64 k := by
  have hfault := ((pageFault_writeFault m₀ w 64 hk hkept).set
    (g := DifCompletionRecord.sourceRefTag) (by decide) (by decide) (by decide) 1).set
    (g := DifCompletionRecord.destinationRefTag) (by decide) (by decide) (by decide) 1
  rw [hrec] at hfault
  exact hfault

/-- A check and an update of two blocks, stopped after the first. -/
theorem dif_continuation_sample :
    (∃ m', Automatic.wait (difStopped (difSample .difCheck 1040) 520) 64 true = some m'
        ∧ SameVerdict m' (SoftwareDevice.submit (difSample .difCheck 1040) 64).1 32)
      ∧ ∃ m', Automatic.wait (difStopped (updatedPart (difSample .difUpdate 1040) 64 1) 520) 64 true
          = some m'
        ∧ SameVerdict m' (SoftwareDevice.submit (difSample .difUpdate 1040) 64).1 32 := by
  constructor
  · have hop : operationOf (difSample .difCheck 1040) 64 = some .difCheck := by decide
    have hp : Placed (difSample .difCheck 1040) 64 := by decide
    have hvalid : validate (difSample .difCheck 1040) 64 = .success := by decide
    have hrec : getCompletionRecord (difSample .difCheck 1040) 64 = 32 := by decide
    have hk : 1 * (difBlockBytes (difSample .difCheck 1040) 64 + 8) = 520 := by decide
    have hn : AnyDescriptor.transferSize.get (difSample .difCheck 1040) 64 = 1040 := by decide
    have hfault : DifCheckFault (difSample .difCheck 1040)
        (difStopped (difSample .difCheck 1040) 520) 64 1 := by
      constructor
      · rw [hk]
        exact pageFault_difStopped hrec (by decide) fun _ _ => rfl
      · rw [hrec]
        constructor <;> decide
      · decide
    obtain ⟨m', hwait, hverdict⟩ :=
      (dif_continuation hp (by rw [hk, hn]; decide) true hvalid).1 hop hfault
    rw [hrec] at hverdict
    exact ⟨m', hwait, hverdict⟩
  · have hop : operationOf (difSample .difUpdate 1040) 64 = some .difUpdate := by decide
    have hp : Placed (difSample .difUpdate 1040) 64 := by decide
    have hvalid : validate (difSample .difUpdate 1040) 64 = .success := by decide
    have hrec : getCompletionRecord (difSample .difUpdate 1040) 64 = 32 := by decide
    have hk : 1 * (difBlockBytes (difSample .difUpdate 1040) 64 + 8) = 520 := by decide
    have hn : AnyDescriptor.transferSize.get (difSample .difUpdate 1040) 64 = 1040 := by decide
    have hdst : AnyDescriptor.destinationAddress.get (difSample .difUpdate 1040) 64 = 2048 := by
      decide
    have hkept : Set.EqOn (updatedPart (difSample .difUpdate 1040) 64 1) (difSample .difUpdate 1040)
        (Region.addrs ⟨64, descriptorSize⟩) := by
      intro x hx
      rw [updatedPart, hdst]
      exact writeBlocks_of_notMem (Or.inl (lt_trans hx.2 (by decide)))
    have hfault : DifUpdateFault (difSample .difUpdate 1040)
        (difStopped (updatedPart (difSample .difUpdate 1040) 64 1) 520) 64 1 := by
      constructor
      · rw [hk]
        exact pageFault_difStopped hrec (by decide) hkept
      · rw [hrec]
        constructor <;> decide
      · rw [hrec]
        constructor <;> decide
      · decide
    obtain ⟨m', hwait, hverdict, -⟩ :=
      (dif_continuation hp (by rw [hk, hn]; decide) true hvalid).2 hop hfault
    rw [hrec] at hverdict
    exact ⟨m', hwait, hverdict⟩

end DataMover
