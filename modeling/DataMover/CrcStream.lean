import DataMover.CrcRemainder
import DataMover.JobExecute

/-!
# A checksum over many sources

`DML_FLAG_CRC_READ_SEED` takes the seed of a CRC job from the place its result goes to, so that
one job object, executed for one source after another, carries a checksum along.  The sources may
be anywhere: what is left at the end is the checksum of their bytes put together, as one job over
one buffer computes it.  A `copy_crc` copies each source on the way.

## Main definitions

* `crcOfBytes` — the kernel over a list of bytes.
* `UserJob.executeOver` — a job executed for one source after another.

## Main results

* `crcOfBytes_append` — the kernel over two lists is the kernel over the second, seeded with the
  kernel over the first.
* `executeOver_step` — one source.
* `crc_stream` — all of them.
-/

namespace DataMover

open ByteMemory

/-! ### Lists of bytes -/

/-- The bytes at an address. -/
def bytesAt (m : Memory) (src n : ℕ) : List (BitVec 8) := (List.range n).map fun i => m (src + i)

/-- The kernel over a list of bytes: a buffer that holds them. -/
def crcOfBytes (bytes : List (BitVec 8)) (seed : BitVec 32) (flags : ℕ) : BitVec 32 :=
  Kernels.crcOf (fun i => bytes.getD i 0#8) 0 bytes.length seed flags

/-- The kernel reads the bytes of its source and nothing else. -/
theorem crcOf_eq_of_bytes {m m' : Memory} {src src' n : ℕ}
    (h : ∀ i, i < n → m (src + i) = m' (src' + i)) (seed : BitVec 32) (flags : ℕ) :
    Kernels.crcOf m src n seed flags = Kernels.crcOf m' src' n seed flags := by
  have hmoved : ∀ (t : Memory) (a : ℕ), Kernels.crcOf t a n seed flags
      = Kernels.crcOf (fun i => t (a + i)) 0 n seed flags := by
    intro t a
    simp only [Kernels.crcOf, dmlRefCrc32u, dmlRefCrcReflectedU32, Nat.zero_add]
  rw [hmoved m src, hmoved m' src']
  refine crcOf_congr (fun i hi => ?_) seed flags
  rw [Nat.zero_add]
  exact h i hi

theorem length_bytesAt (m : Memory) (src n : ℕ) : (bytesAt m src n).length = n := by
  rw [bytesAt, List.length_map, List.length_range]

theorem getD_bytesAt (m : Memory) (src : ℕ) {n i : ℕ} (hi : i < n) :
    (bytesAt m src n).getD i 0#8 = m (src + i) := by
  rw [List.getD_eq_getElem _ _ (by rwa [length_bytesAt])]
  simp [bytesAt]

theorem bytesAt_congr {m m' : Memory} {src n : ℕ} (h : Set.EqOn m m' (Region.addrs ⟨src, n⟩)) :
    bytesAt m src n = bytesAt m' src n :=
  List.map_congr_left fun _ hi => eqOn_bytes h (List.mem_range.mp hi)

/-- A job over one buffer. -/
theorem crcOf_eq_crcOfBytes (m : Memory) (src n : ℕ) (seed : BitVec 32) (flags : ℕ) :
    Kernels.crcOf m src n seed flags = crcOfBytes (bytesAt m src n) seed flags := by
  rw [crcOfBytes, length_bytesAt]
  refine crcOf_eq_of_bytes (fun i hi => ?_) seed flags
  rw [Nat.zero_add, getD_bytesAt m src hi]

/-- **The checksum is carried along.** -/
theorem crcOfBytes_append (xs ys : List (BitVec 8)) (seed : BitVec 32) (flags : ℕ) :
    crcOfBytes (xs ++ ys) seed flags = crcOfBytes ys (crcOfBytes xs seed flags) flags := by
  have hfirst : ∀ seed, Kernels.crcOf (fun i => (xs ++ ys).getD i 0#8) 0 xs.length seed flags
      = crcOfBytes xs seed flags := by
    refine fun seed => crcOf_eq_of_bytes (fun i hi => ?_) seed flags
    simp [List.getElem?_append_left hi]
  have hsecond : ∀ seed, Kernels.crcOf (fun i => (xs ++ ys).getD i 0#8) (0 + xs.length) ys.length
      seed flags = crcOfBytes ys seed flags := by
    refine fun seed => crcOf_eq_of_bytes (fun i hi => ?_) seed flags
    simp [List.getElem?_append_right]
  rw [crcOfBytes, List.length_append, crcOf_add, hsecond, hfirst]

theorem crcOfBytes_nil (seed : BitVec 32) (flags : ℕ) : crcOfBytes [] seed flags = seed := by
  simp only [crcOfBytes, Kernels.crcOf, List.length_nil, dmlRefCrc32u, dmlRefCrcReflectedU32,
    Loop.iter_zero, reverse32_eq, ite_self]
  split
  · rw [BitVec.reverse_reverse_eq, BitVec.not_not]
  · rfl

/-- With default flags and seed zero it is the CRC-32C. -/
theorem crcOfBytes_eq_crc32c (bytes : List (BitVec 8)) {flags : ℕ}
    (hcrc : intersects flags CrcSpecificFlag.bypassCrcInversionAndReflection = false)
    (hdata : intersects flags CrcSpecificFlag.bypassDataReflection = false) :
    crcOfBytes bytes 0#32 flags = crc32c bytes := by
  rw [crcOfBytes, crcOf_eq_crc32c _ _ _ hcrc hdata]
  congr 1
  refine List.ext_getElem (by simp) fun i hi hi' => ?_
  simp [List.getElem?_eq_getElem hi']

/-! ### One job object, many sources -/

/-- A source of a checksum, and where a `copy_crc` copies it to. -/
structure Chunk where
  source : BitVec 64
  destination : BitVec 64
  length : BitVec 32
  deriving DecidableEq, Repr

namespace Chunk

def sourceRegion (c : Chunk) : Region := ⟨c.source.toNat, c.length.toNat⟩

def destinationRegion (c : Chunk) : Region := ⟨c.destination.toNat, c.length.toNat⟩

def bytes (m : Memory) (c : Chunk) : List (BitVec 8) := bytesAt m c.source.toNat c.length.toNat

/-- What a job does to the memory of the caller besides the checksum. -/
def copied (op : Option Operation) (m : Memory) (c : Chunk) : Memory :=
  if op = some .copyCrc then move m c.source.toNat c.destination.toNat c.length.toNat else m

end Chunk

/-- The job again, with another source. -/
def UserJob.over (job : UserJob) (c : Chunk) : UserJob :=
  { job with
    sourceFirstPtr := c.source, destinationFirstPtr := c.destination, sourceLength := c.length }

/-- `dml_execute_job` for one source after another, up to the first that is not accepted. -/
def UserJob.executeOver (hardware : HardwareDevice) (path : ExecutionPath)
    (dsc record scratch : ℕ) (umwait : Bool) (m : Memory) (job : UserJob) (output : JobOutput) :
    List Chunk → Option (Memory × UserJob × JobOutput × ApiStatus)
  | [] => some (m, job, output, .own .ok)
  | c :: chunks => do
    let (m, job, output, status) ←
      (job.over c).execute hardware path dsc record scratch umwait m output
    if status ≠ .own .ok then return (m, job, output, status)
    job.executeOver hardware path dsc record scratch umwait m output chunks

/-- What is not left alone besides the destinations: the task of the job and the checksum. -/
def streamRegions (dsc record : ℕ) (job : UserJob) : List Region :=
  [⟨dsc, descriptorSize⟩, ⟨record, recordSize⟩, ⟨job.crcChecksumPtr.toNat, 4⟩]

/-- A job that carries a checksum, and sources it may be executed over: the buffers are apart
from its task and from the checksum, and the destinations of a copy from all sources. -/
structure Streamable (dsc record : ℕ) (job : UserJob) (chunks : List Chunk) : Prop where
  operation : job.op = some .crc ∨ job.op = some .copyCrc
  seeded : intersects job.specificFlags.toNat CrcSpecificFlag.readCrcSeed = true
  task : TaskPlaced dsc record
  checksum : job.crcChecksumPtr ≠ 0#64 ∧ ApartFromTask dsc record ⟨job.crcChecksumPtr.toNat, 4⟩
  given : ∀ c ∈ chunks, c.source ≠ 0#64 ∧ c.length ≠ 0#32
  sources : ∀ c ∈ chunks, ∀ R ∈ streamRegions dsc record job, c.sourceRegion.Apart R
  destinations : job.op = some .copyCrc → ∀ c ∈ chunks,
    (∀ R ∈ streamRegions dsc record job, c.destinationRegion.Apart R)
      ∧ ∀ c' ∈ chunks, c.destinationRegion.Apart c'.sourceRegion
  fits : job.op = some .copyCrc → ∀ c ∈ chunks, c.destination ≠ 0#64
    ∧ c.source.toNat + c.length.toNat < 2 ^ 64 ∧ c.destination.toNat + c.length.toNat < 2 ^ 64

/-! ### One source -/

section Step

variable {m : Memory} {dsc record : ℕ} {job : UserJob} {c : Chunk}

/-- The fields of the task of a checksum. -/
structure CrcTask (t : Memory) (dsc record : ℕ) (op : Option Operation) (c : Chunk)
    (seed flags : ℕ) : Prop where
  operation : operationOf t dsc = op
  record : getCompletionRecord t dsc = record
  source : AnyDescriptor.sourceAddress.get t dsc = c.source.toNat
  destination : op = some .copyCrc →
    AnyDescriptor.destinationAddress.get t dsc = c.destination.toNat
  length : AnyDescriptor.transferSize.get t dsc = c.length.toNat
  seed : CrcDescriptor.crcSeed.get t dsc = seed
  flags : AnyDescriptor.operationSpecificFlags.get t dsc = flags

theorem crcTask_makeTask (hp : TaskPlaced dsc record)
    (hop : job.op = some .crc ∨ job.op = some .copyCrc) :
    CrcTask (constructTask m dsc record ((job.over c).makeTask m)) dsc record job.op c
      (job.crcSeed m).toNat job.crcOptions.toNat := by
  have hview := viewDescriptor_make ((job.over c).makeTask m)
  have hcode := operationOf_make ((job.over c).makeTask m)
  have hover : (job.over c).op = job.op := rfl
  have hfield := @get_constructTask_of_readBits m dsc record ((job.over c).makeTask m)
  have hrecord := @getCompletionRecord_constructTask m dsc record ((job.over c).makeTask m) hp
  have hoperation := @operationOf_constructTask m dsc record ((job.over c).makeTask m) hp
  rcases hop with hop | hop
  · rw [hop] at hover
    simp only [UserJob.makeTask, hover, viewDescriptor, DescriptorArgs.operation] at hview hcode
    simp only [hcode, Option.some.injEq, DescriptorArgs.crc.injEq] at hview
    obtain ⟨hsrc, hsize, hseed, -, hflags⟩ := hview
    simp only [UserJob.makeTask, hover] at hfield hrecord hoperation ⊢
    exact
      { operation := hoperation.trans hop.symm
        record := hrecord
        source := hfield hp rfl hsrc (by decide) (by decide) (by decide)
        destination := fun h => absurd (hop.symm.trans h) (by simp)
        length := hfield hp rfl hsize (by decide) (by decide) (by decide)
        seed := hfield hp rfl hseed (by decide) (by decide) (by decide)
        flags := hfield hp rfl hflags (by decide) (by decide) (by decide) }
  · rw [hop] at hover
    simp only [UserJob.makeTask, hover, viewDescriptor, DescriptorArgs.operation] at hview hcode
    simp only [hcode, Option.some.injEq, DescriptorArgs.copyCrc.injEq] at hview
    obtain ⟨hsrc, hdst, hsize, hseed, -, hflags⟩ := hview
    simp only [UserJob.makeTask, hover] at hfield hrecord hoperation ⊢
    exact
      { operation := hoperation.trans hop.symm
        record := hrecord
        source := hfield hp rfl hsrc (by decide) (by decide) (by decide)
        destination := fun _ => hfield hp rfl hdst (by decide) (by decide) (by decide)
        length := hfield hp rfl hsize (by decide) (by decide) (by decide)
        seed := hfield hp rfl hseed (by decide) (by decide) (by decide)
        flags := hfield hp rfl hflags (by decide) (by decide) (by decide) }

/-- An accepted task of a checksum. -/
theorem validate_crcTask {t : Memory} {seed flags : ℕ}
    (ht : CrcTask t dsc record job.op c seed flags)
    (hs : Streamable dsc record job [c]) : validate t dsc = .success := by
  obtain ⟨hsource, hlength⟩ := hs.given c (List.mem_singleton_self c)
  have hne : c.source.toNat ≠ 0 ∧ c.length.toNat ≠ 0 := by
    simp only [ne_eq, BitVec.toNat_eq, BitVec.toNat_zero] at hsource hlength
    exact ⟨hsource, hlength⟩
  rcases hs.operation with hop | hop
  · rw [validate, ht.operation, hop]
    simp (disch := decide) only [Validate.crc, ite_eq_success_iff, anyEqualZero_one, ht.source,
      ht.length, and_true]
    exact hne
  · obtain ⟨hdestination, hfits, hfits'⟩ := hs.fits hop c (List.mem_singleton_self c)
    have hapart := (hs.destinations hop c (List.mem_singleton_self c)).2 c
      (List.mem_singleton_self c)
    have hoverlap : overlaps c.source.toNat c.length.toNat c.destination.toNat c.length.toNat
        = false := by
      rw [← Bool.not_eq_true, overlaps_eq_true_iff hfits hfits']
      simp only [Region.Apart, Chunk.destinationRegion, Chunk.sourceRegion] at hapart
      omega
    simp only [ne_eq, BitVec.toNat_eq, BitVec.toNat_zero] at hdestination
    rw [validate, ht.operation, hop]
    simp (disch := decide) only [Validate.copyCrc, ite_eq_success_iff, anyEqualZero_pair,
      anyEqualZero_one, ht.source, ht.length, ht.destination hop, hoverlap, and_true]
    simp [hne, hdestination]

/-- A region of the caller is apart from the task and from the checksum. -/
theorem notMem_addresses {regions : List Region} {R : Region} (h : ∀ Q ∈ regions, R.Apart Q) {x : ℕ}
    (hx : x ∈ R.addrs) : x ∉ addresses regions := by
  rintro ⟨Q, hQ, hin⟩
  exact (h Q hQ).notMem hx hin

/-- What a job copies is what its source holds. -/
theorem copied_eqOn {op : Option Operation} {m' : Memory} {P : Set ℕ} (h : Set.EqOn m m' Pᶜ)
    (hsource : ∀ x ∈ c.sourceRegion.addrs, x ∉ P) :
    Set.EqOn (Chunk.copied op m c) (Chunk.copied op m' c) Pᶜ := by
  intro x hx
  unfold Chunk.copied
  split
  · rw [move_apply, move_apply]
    split
    · next hin =>
      refine h (hsource _ (Region.mem_addrs.mpr ?_))
      simp only [Chunk.sourceRegion]
      omega
    · exact h hx
  · exact h hx

/-- A byte that a job does not copy to. -/
theorem copied_of_notMem {op : Option Operation} {x : ℕ}
    (hx : op = some .copyCrc → x ∉ c.destinationRegion.addrs) : Chunk.copied op m c x = m x := by
  unfold Chunk.copied
  split
  · next hop => exact move_apply_of_notMem (notMem_addrs.mp (hx hop))
  · rfl

/-- **The kernel**: the checksum of the source in the record, and the copy. -/
theorem submit_crcTask {t : Memory} {seed flags : ℕ}
    (ht : CrcTask t dsc record job.op c seed flags) (hs : Streamable dsc record job [c]) :
    CrcCompletionRecord.crcValue.get (SoftwareDevice.submit t dsc).1 record
        = (Kernels.crcOf t c.source.toNat c.length.toNat (BitVec.ofNat 32 seed) flags).toNat
      ∧ getStatus (SoftwareDevice.submit t dsc).1 record = some .success
      ∧ ∀ x, x ∉ Region.addrs ⟨record, recordSize⟩ →
          (SoftwareDevice.submit t dsc).1 x = Chunk.copied job.op t c x := by
  have hop : operationOf t dsc = some .crc ∨ operationOf t dsc = some .copyCrc := by
    rw [ht.operation]
    exact hs.operation
  have hstatus : getStatus (SoftwareDevice.submit t dsc).1 record = some .success := by
    refine getStatus_of_status ?_
    rw [← ht.record, SoftwareDevice.submit]
    rcases hop with hop | hop <;> rw [hop] <;> exact status_setStatus _ _ _
  refine ⟨?_, hstatus, fun x hx => ?_⟩
  · rw [← ht.record, submit_crcValue hop ht.source rfl ht.length fun hcopy => ?_, ht.seed, ht.flags]
    rw [ht.operation] at hcopy
    rw [ht.destination hcopy]
    exact ((hs.destinations hcopy c (List.mem_singleton_self c)).2 c
      (List.mem_singleton_self c)).symm
  · rw [Chunk.copied]
    split
    · next hcopy =>
      exact submit_copyCrc_apply (ht.operation.trans hcopy) ht.source (ht.destination hcopy)
        ht.length (ht.record ▸ hx)
    · next hcopy =>
      have hcrc : operationOf t dsc = some .crc :=
        hop.resolve_right fun h => hcopy (ht.operation.symm.trans h)
      refine submit_of_notMem_destinations (by rw [hcrc]; simp) (fun h => ?_) (ht.record ▸ hx)
        fun R hR => ?_
      · rw [hcrc] at h
        exact absurd h (by simp)
      · rw [destinations, hcrc] at hR
        exact absurd hR List.not_mem_nil

/-- What waiting for a checksum writes: the checksum. -/
theorem writeResult_crc {t : Memory} {job : Job} (hstatus : getStatus t job.record = some .success)
    (hop : job.operation = .crc ∨ job.operation = .copyCrc)
    (hap : Region.Apart ⟨job.crcChecksumPtr, 4⟩ ⟨job.record, recordSize⟩) :
    writeResult t job = (store t job.crcChecksumPtr 4 (getCrcValue t job.record), job, .ok) := by
  have hkept : getStatus (store t job.crcChecksumPtr 4 (getCrcValue t job.record)) job.record
      = some .success := by
    rw [← hstatus, getStatus, getStatus, Field.get, Field.get, load_store_of_apart]
    exact hap.mono (Region.Inside.refl _) ⟨by simp, by simp [AnyCompletionRecord.status]⟩
  rcases hop with hop | hop
  · simp only [writeResult, hop, writeResultCrc, withStatus, hkept]
    rfl
  · simp only [writeResult, hop, writeResultCrc, withStatus, hkept]
    rfl

/-- The job is submitted as it is. -/
theorem submitted_over (hop : job.op = some .crc ∨ job.op = some .copyCrc) :
    (job.over c).submitted = job.over c := by
  rw [submitted_eq_self_iff]
  rintro ⟨hmove, -⟩
  rcases hop with h | h <;> exact absurd (h.symm.trans hmove) (by simp)

theorem rangeCheck_over (hop : job.op = some .crc ∨ job.op = some .copyCrc)
    (hpointer : job.crcChecksumPtr ≠ 0#64) : (job.over c).rangeCheck = .own .ok := by
  have hcheck : rangeCheckCrc job.crcChecksumPtr = .own .ok := if_neg hpointer
  have hover : (job.over c).op = job.op := rfl
  rw [UserJob.rangeCheck, hover]
  rcases hop with h | h <;> rw [h] <;> exact hcheck

/-- The task is left alone. -/
theorem submit_crcTask_kept {t : Memory} {seed flags : ℕ}
    (ht : CrcTask t dsc record job.op c seed flags) (hs : Streamable dsc record job [c]) :
    Set.EqOn (SoftwareDevice.submit t dsc).1 t (Region.addrs ⟨dsc, descriptorSize⟩) := by
  intro x hx
  rw [(submit_crcTask ht hs).2.2 x (hs.task.apart.notMem hx)]
  refine copied_of_notMem fun hcopy => ?_
  exact ((hs.destinations hcopy c (List.mem_singleton_self c)).1 _
    (List.mem_cons_self ..)).symm.notMem hx

/-- A checksum is executed: what the kernel leaves, and the checksum for the caller. -/
theorem execute_over (hardware : HardwareDevice) (scratch : ℕ) (umwait : Bool)
    (output : JobOutput) (hs : Streamable dsc record job [c]) {t : Memory}
    (hmade : t = constructTask m dsc record ((job.over c).makeTask m)) :
    (job.over c).execute hardware .software dsc record scratch umwait m output
      = some (store (SoftwareDevice.submit t dsc).1 job.crcChecksumPtr.toNat 4
          (getCrcValue (SoftwareDevice.submit t dsc).1 record), job.over c, output, .own .ok) := by
  have ht := @crcTask_makeTask m dsc record job c hs.task hs.operation
  rw [← hmade] at ht
  have hvalid := validate_crcTask ht hs
  have hstatus := (submit_crcTask ht hs).2.1
  have hkept := submit_crcTask_kept ht hs
  have hargs : (job.over c).submitted.makeTask m = (job.over c).makeTask m := by
    rw [submitted_over hs.operation]
  have hoperation : ((job.over c).makeTask m).operation = .crc
      ∨ ((job.over c).makeTask m).operation = .copyCrc := by
    rcases hs.operation with h | h
    · exact Or.inl (operation_makeTask m h)
    · exact Or.inr (operation_makeTask m h)
  rw [hmade] at hvalid hkept
  obtain ⟨m₁, waited, status, hwritten, hdone⟩ := @execute_software hardware m (job.over c) _ dsc
    record scratch umwait output hs.task (rangeCheck_over hs.operation hs.checksum.1) hargs hvalid
    hkept
  rw [submitted_over hs.operation] at hwritten hdone
  rw [← hmade, writeResult_crc hstatus hoperation hs.checksum.2.record] at hwritten
  obtain ⟨hm₁, hwaited, hcode⟩ := Prod.mk.inj hwritten |>.imp_right Prod.mk.inj
  rw [hdone, ← hm₁, ← hwaited, ← hcode]
  simp only [UserJob.toJob, BitVec.ofNat_toNat, BitVec.setWidth_eq]
  rfl

/-- **One source**: the job is accepted and stays what it is; the checksum of the caller is
carried over the source, and everything else is left alone or copied. -/
theorem executeOver_step (hardware : HardwareDevice) (scratch : ℕ) (umwait : Bool)
    (output : JobOutput) (hs : Streamable dsc record job [c]) :
    ∃ m₁, (job.over c).execute hardware .software dsc record scratch umwait m output
        = some (m₁, job.over c, output, .own .ok)
      ∧ load m₁ job.crcChecksumPtr.toNat 4
        = (crcOfBytes (c.bytes m) (BitVec.ofNat 32 (load m job.crcChecksumPtr.toNat 4))
            job.crcOptions.toNat).toNat
      ∧ Set.EqOn m₁ (Chunk.copied job.op m c) (addresses (streamRegions dsc record job))ᶜ := by
  have hmem := List.mem_singleton_self c
  have ht := @crcTask_makeTask m dsc record job c hs.task hs.operation
  obtain ⟨hvalue, -, happly⟩ := submit_crcTask ht hs
  have hseed : job.crcSeed m = BitVec.ofNat 32 (load m job.crcChecksumPtr.toNat 4) := by
    rw [UserJob.crcSeed, if_pos hs.seeded]
  have hmade : Set.EqOn (constructTask m dsc record ((job.over c).makeTask m)) m
      (addresses (streamRegions dsc record job))ᶜ := fun x hx =>
    assignTask_apply (fun h => hx ⟨_, by simp [streamRegions], h⟩)
      fun h => hx ⟨_, by simp [streamRegions], h⟩
  have hsource : ∀ x ∈ c.sourceRegion.addrs, x ∉ addresses (streamRegions dsc record job) :=
    fun x hx => notMem_addresses (hs.sources c hmem) hx
  refine ⟨_, execute_over hardware scratch umwait output hs rfl, ?_, fun x hx => ?_⟩
  · rw [load_store_self, getCrcValue, hvalue, hseed, BitVec.ofNat_toNat, BitVec.setWidth_eq,
      crcOf_eq_crcOfBytes, Chunk.bytes, bytesAt_congr fun x hin => hmade (hsource x hin)]
    exact Nat.mod_eq_of_lt (BitVec.isLt _)
  · rw [store_apply_of_notMem (notMem_addrs.mp fun h => hx ⟨_, by simp [streamRegions], h⟩),
      happly x fun h => hx ⟨_, by simp [streamRegions], h⟩]
    exact copied_eqOn hmade hsource hx

end Step

/-! ### All of them -/

section Stream

variable {m : Memory} {dsc record : ℕ} {job : UserJob} {c : Chunk} {chunks : List Chunk}

theorem Streamable.head (hs : Streamable dsc record job (c :: chunks)) :
    Streamable dsc record job [c] where
  operation := hs.operation
  seeded := hs.seeded
  task := hs.task
  checksum := hs.checksum
  given := fun d hd => hs.given d (by simp_all)
  sources := fun d hd => hs.sources d (by simp_all)
  destinations := fun hcopy d hd => ⟨(hs.destinations hcopy d (by simp_all)).1,
    fun d' hd' => (hs.destinations hcopy d (by simp_all)).2 d' (by simp_all)⟩
  fits := fun hcopy d hd => hs.fits hcopy d (by simp_all)

theorem Streamable.tail (hs : Streamable dsc record job (c :: chunks)) :
    Streamable dsc record (job.over c) chunks where
  operation := hs.operation
  seeded := hs.seeded
  task := hs.task
  checksum := hs.checksum
  given := fun d hd => hs.given d (List.mem_cons_of_mem c hd)
  sources := fun d hd => hs.sources d (List.mem_cons_of_mem c hd)
  destinations := fun hcopy d hd => ⟨(hs.destinations hcopy d (List.mem_cons_of_mem c hd)).1,
    fun d' hd' => (hs.destinations hcopy d (List.mem_cons_of_mem c hd)).2 d'
      (List.mem_cons_of_mem c hd')⟩
  fits := fun hcopy d hd => hs.fits hcopy d (List.mem_cons_of_mem c hd)

/-- Copies one after another take what the sources hold. -/
theorem foldl_copied_eqOn {op : Option Operation} {m' : Memory} {P : Set ℕ}
    (h : Set.EqOn m m' Pᶜ) (hsources : ∀ c ∈ chunks, ∀ x ∈ c.sourceRegion.addrs, x ∉ P) :
    Set.EqOn (chunks.foldl (Chunk.copied op) m) (chunks.foldl (Chunk.copied op) m') Pᶜ := by
  induction chunks generalizing m m' with
  | nil => exact h
  | cons c chunks ih =>
    refine ih (copied_eqOn h (hsources c (List.mem_cons_self ..))) fun d hd => ?_
    exact hsources d (List.mem_cons_of_mem c hd)

/-- A source is still what it was when the sources before it have been copied. -/
theorem bytes_of_copied {m₁ : Memory} (hs : Streamable dsc record job (c :: chunks))
    (h : Set.EqOn m₁ (Chunk.copied job.op m c) (addresses (streamRegions dsc record job))ᶜ)
    {d : Chunk} (hd : d ∈ chunks) : d.bytes m₁ = d.bytes m := by
  refine bytesAt_congr fun x hx => ?_
  rw [h (notMem_addresses (hs.sources d (List.mem_cons_of_mem c hd)) hx)]
  refine copied_of_notMem fun hcopy => ?_
  exact ((hs.destinations hcopy c (List.mem_cons_self ..)).2 d
    (List.mem_cons_of_mem c hd)).symm.notMem hx

/-- **The run**: every source is accepted, the checksum is that of their bytes put together, and
the destinations get their copies. -/
theorem executeOver_run (hardware : HardwareDevice) (scratch : ℕ) (umwait : Bool)
    (output : JobOutput) (hs : Streamable dsc record job chunks) :
    ∃ m', job.executeOver hardware .software dsc record scratch umwait m output chunks
        = some (m', chunks.foldl UserJob.over job, output, .own .ok)
      ∧ load m' job.crcChecksumPtr.toNat 4
        = (crcOfBytes (chunks.flatMap (Chunk.bytes m))
            (BitVec.ofNat 32 (load m job.crcChecksumPtr.toNat 4)) job.crcOptions.toNat).toNat
      ∧ Set.EqOn m' (chunks.foldl (Chunk.copied job.op) m)
          (addresses (streamRegions dsc record job))ᶜ := by
  induction chunks generalizing m job with
  | nil =>
    refine ⟨m, rfl, ?_, fun _ _ => rfl⟩
    rw [List.flatMap_nil, crcOfBytes_nil, BitVec.toNat_ofNat]
    exact (Nat.mod_eq_of_lt (load_lt m _ 4)).symm
  | cons c chunks ih =>
    obtain ⟨m₁, hone, hvalue, hcopied⟩ := executeOver_step (m := m) hardware scratch umwait output
      hs.head
    obtain ⟨m', hrest, hrestValue, hrestCopied⟩ := @ih m₁ (job.over c) hs.tail
    refine ⟨m', ?_, ?_, hrestCopied.trans ?_⟩
    · rw [UserJob.executeOver, hone]
      exact hrest
    · have hbytes : chunks.flatMap (Chunk.bytes m₁) = chunks.flatMap (Chunk.bytes m) :=
        List.flatMap_congr fun d hd => bytes_of_copied hs hcopied hd
      rw [List.flatMap_cons, crcOfBytes_append]
      refine hrestValue.trans ?_
      have hcarried : BitVec.ofNat 32 (load m₁ (job.over c).crcChecksumPtr.toNat 4)
          = crcOfBytes (c.bytes m) (BitVec.ofNat 32 (load m job.crcChecksumPtr.toNat 4))
            job.crcOptions.toNat := by
        refine (congrArg (BitVec.ofNat 32) hvalue).trans ?_
        rw [BitVec.ofNat_toNat, BitVec.setWidth_eq]
      rw [hbytes, hcarried]
      rfl
    · exact foldl_copied_eqOn hcopied fun d hd x hx =>
        notMem_addresses (hs.sources d (List.mem_cons_of_mem c hd)) hx

/-- **A checksum over many sources**: one job object, executed for one source after another with
the seed read from the place of the result, leaves there what one job over one buffer with all
the bytes would, the CRC-32C of the bytes with default flags and a seed of zero; a `copy_crc`
makes all its copies, and nothing else of the caller changes. -/
theorem crc_stream (hardware : HardwareDevice) (scratch : ℕ) (umwait : Bool) (output : JobOutput)
    (hs : Streamable dsc record job chunks) :
    ∃ m', job.executeOver hardware .software dsc record scratch umwait m output chunks
        = some (m', chunks.foldl UserJob.over job, output, .own .ok)
      ∧ (∀ (t : Memory) (a n : ℕ), bytesAt t a n = chunks.flatMap (Chunk.bytes m) →
          load m' job.crcChecksumPtr.toNat 4 = (Kernels.crcOf t a n
            (BitVec.ofNat 32 (load m job.crcChecksumPtr.toNat 4)) job.crcOptions.toNat).toNat)
      ∧ (intersects job.crcOptions.toNat CrcSpecificFlag.bypassCrcInversionAndReflection = false →
          intersects job.crcOptions.toNat CrcSpecificFlag.bypassDataReflection = false →
          load m job.crcChecksumPtr.toNat 4 = 0 →
          load m' job.crcChecksumPtr.toNat 4
            = (crc32c (chunks.flatMap (Chunk.bytes m))).toNat)
      ∧ Set.EqOn m' (chunks.foldl (Chunk.copied job.op) m)
          (addresses (streamRegions dsc record job))ᶜ := by
  obtain ⟨m', hrun, hvalue, hcopied⟩ := executeOver_run (m := m) hardware scratch umwait output hs
  refine ⟨m', hrun, fun t a n hbytes => ?_, fun hcrc hdata hzero => ?_, hcopied⟩
  · rw [hvalue, crcOf_eq_crcOfBytes, hbytes]
  · rw [hvalue, hzero, ← crcOfBytes_eq_crc32c _ hcrc hdata]

end Stream

/-- A `copy_crc` with the seed in memory, and its result at `0x3000`. -/
def sampleStreamJob : UserJob :=
  { sampleUpdateJob with
    operation := 0x11#32, crcChecksumPtr := 0x3000#64, flags := 0x10000#64 }

/-- The digits `1` to `9` in two pieces that are not next to each other. -/
def digitPieces : Memory := fun a =>
  if 0x100 ≤ a ∧ a < 0x104 then BitVec.ofNat 8 (a - 0x100 + 0x31)
  else if 0x200 ≤ a ∧ a < 0x205 then BitVec.ofNat 8 (a - 0x200 + 0x35) else 0#8

/-- The check value of the CRC-32C, over two pieces. -/
theorem crc_stream_digits : ∃ m',
    sampleStreamJob.executeOver noHardware .software 0x5000 0x5040 0x6000 false digitPieces ⟨0, 0⟩
        [⟨0x100#64, 0x1000#64, 4#32⟩, ⟨0x200#64, 0x1004#64, 5#32⟩]
      = some (m', sampleStreamJob.over ⟨0x200#64, 0x1004#64, 5#32⟩, ⟨0, 0⟩, .own .ok)
    ∧ load m' 0x3000 4 = 0xE3069283 ∧ m' 0x1000 = 0x31#8 ∧ m' 0x1008 = 0x39#8 := by
  have hs : Streamable 0x5000 0x5040 sampleStreamJob
      [⟨0x100#64, 0x1000#64, 4#32⟩, ⟨0x200#64, 0x1004#64, 5#32⟩] :=
    { operation := by decide
      seeded := by decide
      task := ⟨by decide, by decide⟩
      checksum := ⟨by decide, by decide, by decide⟩
      given := by decide
      sources := by decide
      destinations := by decide
      fits := by decide }
  obtain ⟨m', hrun, -, hstandard, hcopied⟩ :=
    crc_stream (m := digitPieces) noHardware 0x6000 false ⟨0, 0⟩ hs
  have hout : ∀ x, 0x1000 ≤ x ∧ x < 0x1009 →
      x ∉ addresses (streamRegions 0x5000 0x5040 sampleStreamJob) := fun x hx =>
    notMem_addresses (R := ⟨0x1000, 9⟩) (by decide) (Region.mem_addrs.mpr hx)
  refine ⟨m', hrun, ?_, ?_, ?_⟩
  · exact (hstandard (by decide) (by decide) (by decide)).trans (by
      set_option maxRecDepth 4000 in decide)
  · rw [hcopied (hout 0x1000 (by decide))]
    decide
  · rw [hcopied (hout 0x1008 (by decide))]
    decide

end DataMover
