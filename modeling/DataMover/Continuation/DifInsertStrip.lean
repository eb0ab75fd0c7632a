import DataMover.Continuation.Dif

/-!
# Continuing an insert or a strip of integrity fields

An insert writes 8 bytes more than it reads for every block, a strip 8 bytes
less.  The bytes completed count the source, and the update of the descriptor adds
them to both addresses: after `b` blocks the destination of the rest is off by
`8 * b` bytes, too early for an insert and too late for a strip.

## Main definitions

* `DifInsertFault`, `DifStripFault` — the hardware stopped after `b` blocks.

## Main results

* `difInsert_wait`, `difStrip_wait` — the destination after the wait.
* `difInsertStrip_continuation_iff` — when it is the destination of the
  uninterrupted run.
-/

namespace DataMover

open ByteMemory

/-! ### Insert -/

/-- The job of an insert. -/
def difInsertJob (m : Memory) (dsc : ℕ) : DmlJob :=
  Kernels.difJob m dsc (Kernels.destinationDifConfig m dsc)

/-- The first `b` blocks of the destination of an insert are written. -/
def insertedPart (m₀ : Memory) (dsc b : ℕ) : Memory :=
  writeBlocks m₀ (AnyDescriptor.destinationAddress.get m₀ dsc) (difBlockBytes m₀ dsc + 8) b
    (insertedByte m₀ (difInsertJob m₀ dsc))

/-- The hardware protected `b` blocks and stopped. -/
structure DifInsertFault (m₀ m : Memory) (dsc b : ℕ) : Prop where
  fault : PageFault m₀ (insertedPart m₀ dsc b) m dsc (b * difBlockBytes m₀ dsc)
  tags : DestinationTags m (getCompletionRecord m₀ dsc) (Kernels.destinationDifConfig m₀ dsc) b

section Insert

variable {m₀ m : Memory} {dsc b r : ℕ}

theorem mem_operands_difInsert (hop : operationOf m₀ dsc = some .difInsert)
    (hn : AnyDescriptor.transferSize.get m₀ dsc = (b + r) * difBlockBytes m₀ dsc) :
    ⟨AnyDescriptor.sourceAddress.get m₀ dsc, (b + r) * difBlockBytes m₀ dsc⟩ ∈ operands m₀ dsc
      ∧ ⟨AnyDescriptor.destinationAddress.get m₀ dsc, (b + r) * (difBlockBytes m₀ dsc + 8)⟩
        ∈ operands m₀ dsc := by
  have hpos : 0 < difBlockBytes m₀ dsc := (Kernels.destinationDifConfig m₀ dsc).blockBytes_pos
  simp [operands, hop, hn, Nat.mul_div_cancel _ hpos]

/-- The destination after an uninterrupted insert. -/
theorem submit_difInsert_apply {n x : ℕ} (hop : operationOf m₀ dsc = some .difInsert)
    (hn : AnyDescriptor.transferSize.get m₀ dsc = n * difBlockBytes m₀ dsc)
    (hap : Region.Apart ⟨AnyDescriptor.sourceAddress.get m₀ dsc, n * difBlockBytes m₀ dsc⟩
      ⟨AnyDescriptor.destinationAddress.get m₀ dsc, n * (difBlockBytes m₀ dsc + 8)⟩)
    (hrec : x ∉ Region.addrs ⟨getCompletionRecord m₀ dsc, recordSize⟩) :
    (SoftwareDevice.submit m₀ dsc).1 x
      = writeBlocks m₀ (AnyDescriptor.destinationAddress.get m₀ dsc) (difBlockBytes m₀ dsc + 8) n
          (insertedByte m₀ (difInsertJob m₀ dsc)) x := by
  have hpos : 0 < difBlockBytes m₀ dsc := (Kernels.destinationDifConfig m₀ dsc).blockBytes_pos
  have hblocks : (difInsertJob m₀ dsc).sourceLength / (difInsertJob m₀ dsc).difConfig.blockBytes
      = n := by
    change AnyDescriptor.transferSize.get m₀ dsc / difBlockBytes m₀ dsc = n
    rw [hn, Nat.mul_div_cancel _ hpos]
  rw [SoftwareDevice.submit, hop]
  simp only [Kernels.difInsert]
  rw [setStatus_apply hrec, set_apply_of_notMem hrec (by decide)]
  exact congrFun (dmlLegacyDifInsert_eq hblocks hap) x

variable (hop : operationOf m₀ dsc = some .difInsert) (hp : Placed m₀ dsc)
  (hn : AnyDescriptor.transferSize.get m₀ dsc = (b + r) * difBlockBytes m₀ dsc)
  (hap : Region.Apart ⟨AnyDescriptor.sourceAddress.get m₀ dsc, (b + r) * difBlockBytes m₀ dsc⟩
    ⟨AnyDescriptor.destinationAddress.get m₀ dsc, (b + r) * (difBlockBytes m₀ dsc + 8)⟩)
  (hfault : DifInsertFault m₀ m dsc b)

include hop hp hfault in
theorem DifInsertFault.continuesDestination :
    ContinuesDestination (Kernels.destinationDifConfig (updateForContinuation m dsc) dsc)
      (Kernels.destinationDifConfig m₀ dsc) b := by
  have hf := hfault.fault
  have hset := fun {f} hf => update_difSettings hop hp hfault.fault (by decide) (f := f) hf
  constructor
  · simp only [Kernels.destinationDifConfig]
    rw [hset (by decide), hset (by decide)]
  · simp only [Kernels.destinationDifConfig]
    rw [hset (by decide)]
  · simp only [Kernels.destinationDifConfig]
    rw [hset (by decide)]
  · rw [← hfault.tags.app]
    simp only [Kernels.destinationDifConfig]
    rw [hf.update_takenOver hp hop (g := DifCompletionRecord.destinationAppTag) (by decide)]
  · rw [← hfault.tags.ref]
    simp only [Kernels.destinationDifConfig]
    rw [hf.update_takenOver hp hop (g := DifCompletionRecord.destinationRefTag) (by decide)]

include hop hp hn hap hfault

/-- The software reads the source as it was. -/
theorem DifInsertFault.source {i : ℕ} (hi : i < (b + r) * difBlockBytes m₀ dsc) :
    updateForContinuation m dsc (AnyDescriptor.sourceAddress.get m₀ dsc + i)
      = m₀ (AnyDescriptor.sourceAddress.get m₀ dsc + i) := by
  have hin := Region.add_mem_addrs (a := AnyDescriptor.sourceAddress.get m₀ dsc) hi
  have hout := notMem_addrs.mp (hap.notMem hin)
  have hpart : b * (difBlockBytes m₀ dsc + 8) ≤ (b + r) * (difBlockBytes m₀ dsc + 8) :=
    Nat.mul_le_mul_right _ (Nat.le_add_right b r)
  rw [hfault.fault.update_apply hp (mem_operands_difInsert hop hn).1 hin]
  exact writeBlocks_of_notMem (by omega)

/-- **The destination after the wait**: the rest is written `8 * b` bytes early. -/
theorem difInsert_wait (umwait : Bool) (hvalid : validate m₀ dsc = .success) :
    ∃ m', Automatic.wait m dsc umwait = some m'
      ∧ ∀ p, p < (b + r) * (difBlockBytes m₀ dsc + 8) →
        m' (AnyDescriptor.destinationAddress.get m₀ dsc + p)
          = writeBlocks (insertedPart m₀ dsc b)
              (AnyDescriptor.destinationAddress.get m₀ dsc + b * difBlockBytes m₀ dsc)
              (difBlockBytes m₀ dsc + 8) r
              (fun j => insertedByte m₀ (difInsertJob m₀ dsc) (b + j))
              (AnyDescriptor.destinationAddress.get m₀ dsc + p) := by
  have hf := hfault.fault
  obtain ⟨-, hdmem⟩ := mem_operands_difInsert hop hn
  have hcd := hfault.continuesDestination hop hp
  have hbs' : difBlockBytes (updateForContinuation m dsc) dsc = difBlockBytes m₀ dsc :=
    blockBytes_of_blockSize hcd.blockSize
  set bs := difBlockBytes m₀ dsc with hbs
  set src := AnyDescriptor.sourceAddress.get m₀ dsc with hsrc
  set dst := AnyDescriptor.destinationAddress.get m₀ dsc with hdst
  have hsum : (b + r) * bs = b * bs + r * bs := Nat.add_mul b r bs
  have hsum' : (b + r) * (bs + 8) = b * bs + 8 * b + r * (bs + 8) := by ring
  have hfit := hp.fits _ hdmem
  simp only at hfit
  -- the rest: `r` blocks, from the bytes completed on
  have hk : b * bs ≤ AnyDescriptor.transferSize.get m₀ dsc := by omega
  obtain ⟨hsrc', hn'⟩ := update_difSource hop hp hf (by decide) hk
  have hdst' := update_difDestination hop hp hf (by decide) (by omega)
  rw [← hsrc] at hsrc'
  rw [← hdst] at hdst'
  have hap' : Region.Apart ⟨src + b * bs, r * bs⟩ ⟨dst + b * bs, r * (bs + 8)⟩ := by
    refine hap.mono ⟨Nat.le_add_right _ _, ?_⟩ ⟨Nat.le_add_right _ _, ?_⟩ <;> simp only <;> omega
  -- the wait adds the bytes completed to what the insert kernel leaves
  have hreq : b * bs ≤ requested m₀ dsc := by
    rw [requested_of_ne hop (by decide)]
    exact hk
  have hopm := hf.operation hp hop
  have hr := hf.resumable hp hop hreq (by simp) fun _ => validate_difInsert hop hvalid
  have hwithin := hf.deltaWithin hp hop hreq (by simp)
  refine ⟨_, wait_eq_addAssign (hf.placed hp) hr (by rw [hopm]; simp) hwithin (hf.isPageFault hp)
    hopm (by decide) umwait, fun p hlt => ?_⟩
  have hin : dst + p ∈ Region.addrs ⟨dst, (b + r) * (bs + 8)⟩ := Region.add_mem_addrs hlt
  have hrec := (hp.apart_record _ hdmem).notMem hin
  rw [hf.record hp, addAssign_apply_of_notMem hrec (by decide), resumed,
    submit_difInsert_apply (n := r) (hf.update_operation hp hop)
      (by rw [hbs', hn', hn, hsum, Nat.add_sub_cancel_left])
      (by rw [hbs', hsrc', hdst']; exact hap')
      (by rw [getCompletionRecord_updateForContinuation, hf.record hp]; exact hrec), hbs', hdst']
  refine writeBlocks_congr (hf.update_apply hp hdmem hin) fun j i hj _ => ?_
  refine insertedByte_resume hcd hsrc' fun t ht => ?_
  have hblock := add_mul_lt (show b + j < b + r by omega) ht
  rw [Nat.add_assoc]
  exact DifInsertFault.source hop hp hn hap hfault hblock

end Insert

/-! ### Strip -/

/-- The job of a strip. -/
def difStripJob (m : Memory) (dsc : ℕ) : DmlJob :=
  Kernels.difJob m dsc (Kernels.sourceDifConfig m dsc)

/-- The first `b` blocks of the destination of a strip are written. -/
def strippedPart (m₀ : Memory) (dsc b : ℕ) : Memory :=
  writeBlocks m₀ (AnyDescriptor.destinationAddress.get m₀ dsc) (difBlockBytes m₀ dsc) b
    (strippedByte m₀ (difStripJob m₀ dsc))

/-- The hardware stripped `b` blocks and stopped. -/
structure DifStripFault (m₀ m : Memory) (dsc b : ℕ) : Prop where
  fault : PageFault m₀ (strippedPart m₀ dsc b) m dsc (b * (difBlockBytes m₀ dsc + 8))
  tags : SourceTags m (getCompletionRecord m₀ dsc) (Kernels.sourceDifConfig m₀ dsc) b

/-- A strip runs the check first and reports what it finds. -/
theorem dmlLegacyDifStrip_check (m : Memory) (job : DmlJob) :
    (dmlLegacyDifStrip m job).1 = (dmlLegacyDifCheck m job).1
      ∧ ((dmlLegacyDifCheck m job).1 = .ok →
        (dmlLegacyDifStrip m job).2.1 = difStripBlocks m job) := by
  have hcheck := dmlLegacyDifCheck_eq m job
  unfold dmlLegacyDifStrip
  rw [hcheck]
  cases Loop.search (fun j => difBitsAt m job j != 0) (job.sourceLength / job.difConfig.step) with
  | some j => exact ⟨rfl, fun h => nomatch h⟩
  | none => exact ⟨rfl, fun _ => rfl⟩

section Strip

variable {m₀ m : Memory} {dsc b r : ℕ}

/-- A strip succeeds when the check passes. -/
theorem submit_difStrip_success (hop : operationOf m₀ dsc = some .difStrip)
    (h : AnyCompletionRecord.status.get (SoftwareDevice.submit m₀ dsc).1
      (getCompletionRecord m₀ dsc) = ExecutionStatus.success.toUnderlying) :
    (dmlLegacyDifCheck m₀ (difStripJob m₀ dsc)).1 = .ok := by
  rw [SoftwareDevice.submit, hop] at h
  simp only [Kernels.difStrip] at h
  rw [← (dmlLegacyDifStrip_check m₀ (difStripJob m₀ dsc)).1]
  exact completeDif_success h

/-- The destination after an uninterrupted strip. -/
theorem submit_difStrip_apply {n x : ℕ} (hop : operationOf m₀ dsc = some .difStrip)
    (hn : AnyDescriptor.transferSize.get m₀ dsc = n * (difBlockBytes m₀ dsc + 8))
    (hok : (dmlLegacyDifCheck m₀ (difStripJob m₀ dsc)).1 = .ok)
    (hap : Region.Apart ⟨AnyDescriptor.sourceAddress.get m₀ dsc, n * (difBlockBytes m₀ dsc + 8)⟩
      ⟨AnyDescriptor.destinationAddress.get m₀ dsc, n * difBlockBytes m₀ dsc⟩)
    (hrec : x ∉ Region.addrs ⟨getCompletionRecord m₀ dsc, recordSize⟩) :
    (SoftwareDevice.submit m₀ dsc).1 x
      = writeBlocks m₀ (AnyDescriptor.destinationAddress.get m₀ dsc) (difBlockBytes m₀ dsc) n
          (strippedByte m₀ (difStripJob m₀ dsc)) x := by
  have hblocks : (difStripJob m₀ dsc).sourceLength / (difStripJob m₀ dsc).difConfig.step = n := by
    change AnyDescriptor.transferSize.get m₀ dsc / (difBlockBytes m₀ dsc + 8) = n
    rw [hn, Nat.mul_div_cancel _ (Nat.succ_pos _)]
  rw [SoftwareDevice.submit, hop]
  simp only [Kernels.difStrip]
  rw [completeDif_apply hrec]
  have hmem := (dmlLegacyDifStrip_check m₀ (difStripJob m₀ dsc)).2 hok
  rw [difStripBlocks_eq hblocks hap] at hmem
  exact congrFun hmem x

/-- The software reads the source as it was. -/
theorem DifStripFault.source (hfault : DifStripFault m₀ m dsc b)
    (hop : operationOf m₀ dsc = some .difStrip) (hp : Placed m₀ dsc)
    (hn : AnyDescriptor.transferSize.get m₀ dsc = (b + r) * (difBlockBytes m₀ dsc + 8))
    (hap : Region.Apart ⟨AnyDescriptor.sourceAddress.get m₀ dsc,
        AnyDescriptor.transferSize.get m₀ dsc⟩
      ⟨AnyDescriptor.destinationAddress.get m₀ dsc, AnyDescriptor.transferSize.get m₀ dsc⟩)
    {i : ℕ} (hi : i < AnyDescriptor.transferSize.get m₀ dsc) :
    updateForContinuation m dsc (AnyDescriptor.sourceAddress.get m₀ dsc + i)
      = m₀ (AnyDescriptor.sourceAddress.get m₀ dsc + i) := by
  have hmem : ⟨AnyDescriptor.sourceAddress.get m₀ dsc, AnyDescriptor.transferSize.get m₀ dsc⟩
      ∈ operands m₀ dsc := by
    simp [operands, hop]
  have hin := Region.add_mem_addrs (a := AnyDescriptor.sourceAddress.get m₀ dsc) hi
  have hout := notMem_addrs.mp (hap.notMem hin)
  have hpart : b * difBlockBytes m₀ dsc ≤ (b + r) * (difBlockBytes m₀ dsc + 8) :=
    Nat.mul_le_mul (Nat.le_add_right b r) (Nat.le_add_right _ 8)
  rw [hfault.fault.update_apply hp hmem hin]
  exact writeBlocks_of_notMem (by omega)

/-- **The destination after the wait**: the rest is written `8 * b` bytes late. -/
theorem difStrip_wait (umwait : Bool) (hop : operationOf m₀ dsc = some .difStrip)
    (hp : Placed m₀ dsc)
    (hn : AnyDescriptor.transferSize.get m₀ dsc = (b + r) * (difBlockBytes m₀ dsc + 8))
    (hap : Region.Apart ⟨AnyDescriptor.sourceAddress.get m₀ dsc,
        AnyDescriptor.transferSize.get m₀ dsc⟩
      ⟨AnyDescriptor.destinationAddress.get m₀ dsc, AnyDescriptor.transferSize.get m₀ dsc⟩)
    (hok : (dmlLegacyDifCheck m₀ (difStripJob m₀ dsc)).1 = .ok)
    (hfault : DifStripFault m₀ m dsc b) :
    ∃ m', Automatic.wait m dsc umwait = some m'
      ∧ ∀ p, p < (b + r) * difBlockBytes m₀ dsc →
        m' (AnyDescriptor.destinationAddress.get m₀ dsc + p)
          = writeBlocks (strippedPart m₀ dsc b)
              (AnyDescriptor.destinationAddress.get m₀ dsc + b * (difBlockBytes m₀ dsc + 8))
              (difBlockBytes m₀ dsc) r
              (fun j => strippedByte m₀ (difStripJob m₀ dsc) (b + j))
              (AnyDescriptor.destinationAddress.get m₀ dsc + p) := by
  have hf := hfault.fault
  have hplain : PageFault.Plain .difStrip := ⟨by decide, by simp, by simp⟩
  have hcs := continuesSource_update hop hp hf (Or.inr rfl) hfault.tags
  have hbs' : difBlockBytes (updateForContinuation m dsc) dsc = difBlockBytes m₀ dsc :=
    blockBytes_of_blockSize hcs.blockSize
  set bs := difBlockBytes m₀ dsc with hbs
  set n := AnyDescriptor.transferSize.get m₀ dsc with hndef
  set src := AnyDescriptor.sourceAddress.get m₀ dsc with hsrc
  set dst := AnyDescriptor.destinationAddress.get m₀ dsc with hdst
  have hdmem : ⟨dst, n⟩ ∈ operands m₀ dsc := by simp [operands, hop, ← hdst, ← hndef]
  have hsum : (b + r) * (bs + 8) = b * (bs + 8) + r * (bs + 8) := Nat.add_mul b r (bs + 8)
  have hshort : r * bs ≤ r * (bs + 8) := Nat.mul_le_mul_left r (Nat.le_add_right bs 8)
  have hroom : (b + r) * bs ≤ n := by
    rw [hn]
    exact Nat.mul_le_mul_left _ (Nat.le_add_right bs 8)
  have hfit := hp.fits _ hdmem
  simp only at hfit
  have hk : b * (bs + 8) ≤ n := by omega
  obtain ⟨hsrc', hn'⟩ := update_difSource hop hp hf (by decide) hk
  have hdst' := update_difDestination hop hp hf (by decide) (by omega)
  rw [← hsrc] at hsrc'
  rw [← hdst] at hdst'
  -- the software reads the original source, and its check passes
  have hread : ∀ i, i < n → updateForContinuation m dsc (src + i) = m₀ (src + i) :=
    fun i hi => hfault.source hop hp hn hap hi
  have hresumes : Resumes (difStripJob (updateForContinuation m dsc) dsc) (difStripJob m₀ dsc) b :=
    ⟨hcs, hsrc', hn'⟩
  have hblocks : (difStripJob m₀ dsc).sourceLength / (difStripJob m₀ dsc).difConfig.step
      = b + r := by
    change n / (bs + 8) = b + r
    rw [hn, Nat.mul_div_cancel _ (Nat.succ_pos _)]
  have hpass := dmlLegacyDifCheck_ok_iff.mp hok
  rw [hblocks] at hpass
  obtain ⟨hstatus, -, -⟩ := dmlLegacyDifCheck_resume hresumes hk hread
    fun j hj => hpass j (by omega)
  have hreq : b * (bs + 8) ≤ requested m₀ dsc := by
    rw [requested_of_ne hop (by decide)]
    exact hk
  refine ⟨_, hf.wait_eq_addAssign hp hop hreq hplain umwait, fun p hlt => ?_⟩
  have hin : dst + p ∈ Region.addrs ⟨dst, n⟩ := Region.add_mem_addrs (by omega)
  have hrec := (hp.apart_record _ hdmem).notMem hin
  have hap' : Region.Apart ⟨src + b * (bs + 8), r * (bs + 8)⟩ ⟨dst + b * (bs + 8), r * bs⟩ := by
    refine hap.mono ⟨Nat.le_add_right _ _, ?_⟩ ⟨Nat.le_add_right _ _, ?_⟩ <;> simp only <;> omega
  rw [addAssign_apply_of_notMem hrec (by decide), resumed,
    submit_difStrip_apply (n := r) (hf.update_operation hp hop)
      (by rw [hbs', hn', ← hndef, hn, hsum, Nat.add_sub_cancel_left]) (hstatus.trans hok)
      (by rw [hbs', hsrc', hdst']; exact hap')
      (by rw [getCompletionRecord_updateForContinuation, hf.record hp]; exact hrec), hbs', hdst']
  refine writeBlocks_congr (hf.update_apply hp hdmem hin) fun j i hj hi => ?_
  rw [strippedByte_resume hresumes]
  have hblock := add_mul_lt (show b + j < b + r by omega) (show i < bs + 8 by omega)
  unfold strippedByte
  rw [Nat.add_assoc]
  exact hread _ (by rw [hn]; exact hblock)

end Strip

/-! ### When the destination is right -/

section Iff

variable {m₀ m : Memory} {dsc b : ℕ}

/-- **Continuing an insert or a strip.**  The destination is that of the
uninterrupted run exactly when no block or every block had been done, or when the
misplaced bytes coincide with the right ones. -/
theorem difInsertStrip_continuation_iff (umwait : Bool) (hp : Placed m₀ dsc)
    (hvalid : validate m₀ dsc = .success) {r : ℕ} :
    (operationOf m₀ dsc = some .difInsert →
      AnyDescriptor.transferSize.get m₀ dsc = (b + r) * difBlockBytes m₀ dsc →
      Region.Apart ⟨AnyDescriptor.sourceAddress.get m₀ dsc, (b + r) * difBlockBytes m₀ dsc⟩
        ⟨AnyDescriptor.destinationAddress.get m₀ dsc, (b + r) * (difBlockBytes m₀ dsc + 8)⟩ →
      DifInsertFault m₀ m dsc b →
      ∃ m', Automatic.wait m dsc umwait = some m'
        ∧ ((∀ p, p < (b + r) * (difBlockBytes m₀ dsc + 8) →
            m' (AnyDescriptor.destinationAddress.get m₀ dsc + p)
              = (SoftwareDevice.submit m₀ dsc).1 (AnyDescriptor.destinationAddress.get m₀ dsc + p))
          ↔ b = 0 ∨ r = 0 ∨ Coincide m₀ (AnyDescriptor.destinationAddress.get m₀ dsc)
              (difBlockBytes m₀ dsc + 8) b r (b * difBlockBytes m₀ dsc)
              (insertedByte m₀ (difInsertJob m₀ dsc))))
    ∧ (operationOf m₀ dsc = some .difStrip →
      AnyDescriptor.transferSize.get m₀ dsc = (b + r) * (difBlockBytes m₀ dsc + 8) →
      AnyCompletionRecord.status.get (SoftwareDevice.submit m₀ dsc).1
        (getCompletionRecord m₀ dsc) = ExecutionStatus.success.toUnderlying →
      DifStripFault m₀ m dsc b →
      ∃ m', Automatic.wait m dsc umwait = some m'
        ∧ ((∀ p, p < (b + r) * difBlockBytes m₀ dsc →
            m' (AnyDescriptor.destinationAddress.get m₀ dsc + p)
              = (SoftwareDevice.submit m₀ dsc).1 (AnyDescriptor.destinationAddress.get m₀ dsc + p))
          ↔ b = 0 ∨ r = 0 ∨ Coincide m₀ (AnyDescriptor.destinationAddress.get m₀ dsc)
              (difBlockBytes m₀ dsc) b r (b * (difBlockBytes m₀ dsc + 8))
              (strippedByte m₀ (difStripJob m₀ dsc)))) := by
  have hpos : 0 < difBlockBytes m₀ dsc := (Kernels.sourceDifConfig m₀ dsc).blockBytes_pos
  -- the two trivial cases coincide as well
  have htrivial : ∀ (d c : ℕ) (out : ℕ → ℕ → BitVec 8), (b = 0 → c = 0) →
      (Coincide m₀ (AnyDescriptor.destinationAddress.get m₀ dsc) d b r c out
        ↔ b = 0 ∨ r = 0
          ∨ Coincide m₀ (AnyDescriptor.destinationAddress.get m₀ dsc) d b r c out) := by
    intro d c out hc
    constructor
    · exact fun h => Or.inr (Or.inr h)
    · rintro (rfl | rfl | h)
      · have hplace := coincide_of_eq m₀ (AnyDescriptor.destinationAddress.get m₀ dsc) d 0 r out
        rw [Nat.zero_mul] at hplace
        rwa [hc rfl]
      · exact coincide_of_none _ _ _ _ _ _
      · exact h
  constructor
  · intro hop hn hap hfault
    obtain ⟨m', hwait, hbytes⟩ := difInsert_wait hop hp hn hap hfault umwait hvalid
    obtain ⟨-, hdmem⟩ := mem_operands_difInsert hop hn
    refine ⟨m', hwait, ?_⟩
    rw [← htrivial _ _ _ (by rintro rfl; rw [Nat.zero_mul]),
      ← writeBlocks_misplaced_iff (Nat.succ_pos _)]
    refine forall₂_congr fun p hlt => ?_
    rw [hbytes p hlt, submit_difInsert_apply hop hn hap ((hp.apart_record _ hdmem).notMem
      (Region.add_mem_addrs hlt))]
    rfl
  · intro hop hn hsuccess hfault
    have hok := submit_difStrip_success hop hsuccess
    have hsmem : ⟨AnyDescriptor.sourceAddress.get m₀ dsc, AnyDescriptor.transferSize.get m₀ dsc⟩
        ∈ operands m₀ dsc := by
      simp [operands, hop]
    have hdmem : ⟨AnyDescriptor.destinationAddress.get m₀ dsc,
        AnyDescriptor.transferSize.get m₀ dsc⟩ ∈ operands m₀ dsc := by
      simp [operands, hop]
    obtain ⟨-, hap⟩ := validate_difStrip hop hvalid (hp.fits _ hsmem) (hp.fits _ hdmem)
    obtain ⟨m', hwait, hbytes⟩ := difStrip_wait umwait hop hp hn hap hok hfault
    refine ⟨m', hwait, ?_⟩
    rw [← htrivial _ _ _ (by rintro rfl; rw [Nat.zero_mul]), ← writeBlocks_misplaced_iff hpos]
    have hroom : (b + r) * difBlockBytes m₀ dsc ≤ AnyDescriptor.transferSize.get m₀ dsc := by
      rw [hn]
      exact Nat.mul_le_mul_left _ (Nat.le_add_right _ 8)
    have hap' : Region.Apart
        ⟨AnyDescriptor.sourceAddress.get m₀ dsc, (b + r) * (difBlockBytes m₀ dsc + 8)⟩
        ⟨AnyDescriptor.destinationAddress.get m₀ dsc, (b + r) * difBlockBytes m₀ dsc⟩ := by
      rw [← hn]
      exact hap.mono (Region.Inside.refl _) ⟨le_rfl, Nat.add_le_add_left hroom _⟩
    refine forall₂_congr fun p hlt => ?_
    rw [hbytes p hlt, submit_difStrip_apply hop hn hok hap' ((hp.apart_record _ hdmem).notMem
      (Region.add_mem_addrs (by omega)))]
    rfl

end Iff

/-! ### Samples -/

/-- What the samples have in common: `n` bytes in blocks of 512, from 256 to 2048. -/
structure SampleSetting (m₀ : Memory) (op : Operation) (n : ℕ) : Prop where
  operation : operationOf m₀ 64 = some op
  placed : Placed m₀ 64
  valid : validate m₀ 64 = .success
  record : getCompletionRecord m₀ 64 = 32
  blockBytes : difBlockBytes m₀ 64 = 512
  source : AnyDescriptor.sourceAddress.get m₀ 64 = 256
  destination : AnyDescriptor.destinationAddress.get m₀ 64 = 2048
  size : AnyDescriptor.transferSize.get m₀ 64 = n

theorem difInsertFault_sample {m₀ : Memory} {n : ℕ} (h : SampleSetting m₀ .difInsert n)
    (htags : DestinationTags (difStopped (insertedPart m₀ 64 1) 512) 32
      (Kernels.destinationDifConfig m₀ 64) 1) :
    DifInsertFault m₀ (difStopped (insertedPart m₀ 64 1) 512) 64 1 := by
  constructor
  · rw [h.blockBytes]
    refine pageFault_difStopped h.record (by decide) fun x hx => ?_
    rw [insertedPart, h.destination]
    exact writeBlocks_of_notMem (Or.inl (lt_trans hx.2 (by decide)))
  · rw [h.record]
    exact htags

theorem difStripFault_sample {m₀ : Memory} {n : ℕ} (h : SampleSetting m₀ .difStrip n)
    (htags : SourceTags (difStopped (strippedPart m₀ 64 1) 520) 32
      (Kernels.sourceDifConfig m₀ 64) 1) :
    DifStripFault m₀ (difStopped (strippedPart m₀ 64 1) 520) 64 1 := by
  constructor
  · rw [h.blockBytes]
    refine pageFault_difStopped h.record (by decide) fun x hx => ?_
    rw [strippedPart, h.destination]
    exact writeBlocks_of_notMem (Or.inl (lt_trans hx.2 (by decide)))
  · rw [h.record]
    exact htags

/-- A strip of two blocks of zeros, but for the first byte of the second. -/
def difStripSample (v : ℕ) : Memory := store (difSample .difStrip 1040) 776 1 v

/-- Behind the descriptor nothing else is set. -/
theorem difStripSample_apply {v x : ℕ} (hx : 128 ≤ x) (hv : x ≠ 776) : difStripSample v x = 0 := by
  have hout : x ∈ (Region.addrs ⟨64, 64⟩)ᶜ := notMem_addrs.mpr (Or.inr hx)
  unfold difStripSample difSample rawDescriptor
  rw [store_apply_of_notMem (by omega)]
  iterate 6 rw [Field.set_eqOn (show Field.Within _ 64 by decide) _ _ _ hout]

/-- Misplaced zeros among zeros. -/
theorem difStripSample_coincide (job : DmlJob) (hsrc : 128 ≤ job.sourceFirstPtr) :
    Coincide (difStripSample 0) 2048 512 1 1 520 (strippedByte (difStripSample 0) job) := by
  have hzero : ∀ x, 128 ≤ x → difStripSample 0 x = 0 := by
    intro x hx
    rcases eq_or_ne x 776 with rfl | hne
    · decide
    · exact difStripSample_apply hx hne
  have hout : ∀ p, blockByte (strippedByte (difStripSample 0) job) 512 p = 0 :=
    fun p => hzero _ (by omega)
  constructor
  · intro t _ _
    rw [hout, hout]
  · intro p _ _ _
    rw [hout, hzero _ (by omega)]

/-- One block to insert, all of which the hardware had done; two, of which it had
done one; and two to strip, of which it had done one, where the second is written
eight bytes too far: among zeros that goes unnoticed, and a byte of another value is
missing in its place. -/
theorem difInsertStrip_continuation_sample :
    (∃ m', Automatic.wait (difStopped (insertedPart (difSample .difInsert 512) 64 1) 512) 64 true
          = some m'
        ∧ ∀ p, p < 520 →
          m' (2048 + p) = (SoftwareDevice.submit (difSample .difInsert 512) 64).1 (2048 + p))
      ∧ (∃ m', Automatic.wait (difStopped (insertedPart (difSample .difInsert 1024) 64 1) 512) 64
          true = some m'
        ∧ ¬∀ p, p < 1040 →
          m' (2048 + p) = (SoftwareDevice.submit (difSample .difInsert 1024) 64).1 (2048 + p))
      ∧ (∃ m', Automatic.wait (difStopped (strippedPart (difStripSample 0) 64 1) 520) 64 true
          = some m'
        ∧ ∀ p, p < 1024 →
          m' (2048 + p) = (SoftwareDevice.submit (difStripSample 0) 64).1 (2048 + p))
      ∧ ∃ m', Automatic.wait (difStopped (strippedPart (difStripSample 0xAB) 64 1) 520) 64 true
          = some m'
        ∧ ¬∀ p, p < 1024 →
          m' (2048 + p) = (SoftwareDevice.submit (difStripSample 0xAB) 64).1 (2048 + p) := by
  refine ⟨?_, ?_, ?_, ?_⟩
  · have h : SampleSetting (difSample .difInsert 512) .difInsert 512 := by constructor <;> decide
    have hfault := difInsertFault_sample h (by constructor <;> decide)
    obtain ⟨m', hwait, hiff⟩ := (difInsertStrip_continuation_iff (r := 0) true h.placed h.valid).1
      h.operation (by rw [h.size, h.blockBytes])
      (by rw [h.source, h.destination, h.blockBytes]; decide) hfault
    rw [h.destination, h.blockBytes] at hiff
    exact ⟨m', hwait, hiff.mpr (Or.inr (Or.inl rfl))⟩
  · have h : SampleSetting (difSample .difInsert 1024) .difInsert 1024 := by constructor <;> decide
    have hfault := difInsertFault_sample h (by constructor <;> decide)
    obtain ⟨m', hwait, hiff⟩ := (difInsertStrip_continuation_iff (r := 1) true h.placed h.valid).1
      h.operation (by rw [h.size, h.blockBytes])
      (by rw [h.source, h.destination, h.blockBytes]; decide) hfault
    rw [h.destination, h.blockBytes] at hiff
    refine ⟨m', hwait, fun hsame => ?_⟩
    -- the last byte of the second tag is missed, and was not 1 before
    rcases hiff.mp hsame with h0 | h0 | hcoincide
    · exact absurd h0 (by decide)
    · exact absurd h0 (by decide)
    · exact absurd (hcoincide.2 1039 (by decide) (by decide) (Or.inr (by decide))) (by decide)
  · have h : SampleSetting (difStripSample 0) .difStrip 1040 := by constructor <;> decide
    have hfault := difStripFault_sample h (by constructor <;> decide)
    obtain ⟨m', hwait, hiff⟩ := (difInsertStrip_continuation_iff (r := 1) true h.placed h.valid).2
      h.operation (by rw [h.size, h.blockBytes]) (by rw [h.record]; decide) hfault
    rw [h.destination, h.blockBytes] at hiff
    exact ⟨m', hwait, hiff.mpr (Or.inr (Or.inr (difStripSample_coincide _ (by decide))))⟩
  · have h : SampleSetting (difStripSample 0xAB) .difStrip 1040 := by constructor <;> decide
    have hfault := difStripFault_sample h (by constructor <;> decide)
    obtain ⟨m', hwait, hiff⟩ := (difInsertStrip_continuation_iff (r := 1) true h.placed h.valid).2
      h.operation (by rw [h.size, h.blockBytes]) (by rw [h.record]; decide) hfault
    rw [h.destination, h.blockBytes] at hiff
    refine ⟨m', hwait, fun hsame => ?_⟩
    -- the first byte of the second block is missed, and was not 0xAB before
    rcases hiff.mp hsame with h0 | h0 | hcoincide
    · exact absurd h0 (by decide)
    · exact absurd h0 (by decide)
    · exact absurd (hcoincide.2 512 (by decide) (by decide) (Or.inl (by decide))) (by decide)

/-- An insert of two blocks, stopped after the first: the second is written over
the integrity field of the first, and the last byte of the destination, which
should hold the end of the second reference tag, is never written. -/
theorem difInsert_continuation_misplaced :
    validate (difSample .difInsert 1024) 64 = .success ∧ Placed (difSample .difInsert 1024) 64
      ∧ DifInsertFault (difSample .difInsert 1024)
        (difStopped (insertedPart (difSample .difInsert 1024) 64 1) 512) 64 1
      ∧ AnyCompletionRecord.status.get (SoftwareDevice.submit (difSample .difInsert 1024) 64).1 32
        = ExecutionStatus.success.toUnderlying
      ∧ ∃ m', Automatic.wait (difStopped (insertedPart (difSample .difInsert 1024) 64 1) 512) 64
          true = some m'
        ∧ m' (2048 + 1039) = 0
        ∧ (SoftwareDevice.submit (difSample .difInsert 1024) 64).1 (2048 + 1039) = 1
        ∧ ¬∀ p, p < 1040 →
          m' (2048 + p) = (SoftwareDevice.submit (difSample .difInsert 1024) 64).1 (2048 + p) := by
  have h : SampleSetting (difSample .difInsert 1024) .difInsert 1024 := by constructor <;> decide
  have hn : AnyDescriptor.transferSize.get (difSample .difInsert 1024) 64
      = (1 + 1) * difBlockBytes (difSample .difInsert 1024) 64 := by
    rw [h.size, h.blockBytes]
  have hap : Region.Apart
      ⟨AnyDescriptor.sourceAddress.get (difSample .difInsert 1024) 64,
        (1 + 1) * difBlockBytes (difSample .difInsert 1024) 64⟩
      ⟨AnyDescriptor.destinationAddress.get (difSample .difInsert 1024) 64,
        (1 + 1) * (difBlockBytes (difSample .difInsert 1024) 64 + 8)⟩ := by
    rw [h.source, h.destination, h.blockBytes]
    decide
  have hfault := difInsertFault_sample h (by constructor <;> decide)
  obtain ⟨m', hwait, hbytes⟩ := difInsert_wait h.operation h.placed hn hap hfault true h.valid
  -- the last byte is behind both parts
  have hlast : m' (2048 + 1039) = 0 := by
    have hbyte := hbytes 1039 (by rw [h.blockBytes]; decide)
    rw [h.destination, h.blockBytes, writeBlocks_of_notMem (Or.inr (by decide)), insertedPart,
      h.destination, h.blockBytes, writeBlocks_of_notMem (Or.inr (by decide))] at hbyte
    rw [hbyte]
    decide
  have hwhole : (SoftwareDevice.submit (difSample .difInsert 1024) 64).1 (2048 + 1039) = 1 := by
    have hbyte := submit_difInsert_apply (x := 2048 + 1039) h.operation hn hap
      (by rw [h.record]; exact notMem_addrs.mpr (by decide))
    rw [hbyte, h.destination, h.blockBytes,
      writeBlocks_of_lt (j := 1) (i := 519) (by decide) (by decide)]
    decide
  refine ⟨h.valid, h.placed, hfault, by decide, m', hwait, hlast, hwhole, fun hall => ?_⟩
  have hsame := hall 1039 (by decide)
  rw [hlast, hwhole] at hsame
  exact absurd hsame (by decide)

end DataMover
