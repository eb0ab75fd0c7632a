import DataMover.Continuation.Crc
import DataMover.Validation

/-!
# What the overlap tests rule out

The kernels write byte after byte into buffers while they still read others, so a
result is the one documented only for buffers that do not overlap.  Validation
tests that, operation by operation, with the sizes it computes: the ones of the
descriptor where source and destination are of one length, and a computed one for
the two operations that add or remove integrity fields.

An insert computes a 32-bit sum.  A strip divides by the size of a bare block where
the size of a protected one is meant; what this misses, the test for adjacent buffers
catches, and reports as something else.

## Main definitions

* `sourceRange`, `insertedRange`, `strippedRange` — the bytes read and written.
* `HiddenBySum`, `HiddenByDrift` — the placements the computed sizes miss.

## Main results

* `validate_excludes_overlap` — dualcast, copy with CRC, delta and update.
* `validate_difInsert_apart_iff` — an insert, and the sum that wraps.
* `validate_difStrip_apart` — a strip.
* `validate_difStrip_classifies_iff` — which of its placements a strip names rightly.
-/

namespace DataMover

open ByteMemory

/-! ### Ranges of one length -/

section Equal

variable {m : Memory} {dsc : ℕ}

/-- The operations whose overlap tests take the sizes of the descriptor as they are. -/
def TestsWholeRanges (op : Option Operation) : Prop :=
  op = some .dualcast ∨ op = some .copyCrc ∨ op = some .applyDelta ∨ op = some .difUpdate

/-- The buffers of an accepted descriptor of such an operation do not overlap. -/
theorem pairwise_apart_operands (hop : TestsWholeRanges (operationOf m dsc))
    (hvalid : validate m dsc = .success)
    (hfits : ∀ R ∈ operands m dsc, R.base + R.size < 2 ^ 64) :
    (operands m dsc).Pairwise Region.Apart := by
  rcases hop with hop | hop | hop | hop
  · simp only [operands, hop, List.forall_mem_cons] at hfits ⊢
    obtain ⟨hsrc, hdst1, hdst2, -⟩ := hfits
    obtain ⟨h1, h2, h12⟩ := validate_dualcast hop hvalid
    have hap1 := apart_of_overlaps h1 hsrc hdst1
    have hap2 := apart_of_overlaps h2 hsrc hdst2
    have hap12 := apart_of_overlaps h12 hdst1 hdst2
    simp [hap1, hap2, hap12]
  · simp only [operands, hop, List.forall_mem_cons] at hfits ⊢
    have hap := apart_of_overlaps (validate_copyCrc hop hvalid) hfits.1 hfits.2.1
    exact List.pairwise_pair.mpr hap
  · simp only [operands, hop, List.forall_mem_cons] at hfits ⊢
    have hap := apart_of_overlaps (validate_applyDelta hop hvalid) hfits.1 hfits.2.1
    exact List.pairwise_pair.mpr hap
  · simp only [operands, hop, List.forall_mem_cons] at hfits ⊢
    have hap := apart_of_overlaps (validate_difUpdate hop hvalid).2 hfits.1 hfits.2.1
    exact List.pairwise_pair.mpr hap

/-- Outside the completion record, a dualcast has left its source as it was and made
both destinations equal to it. -/
structure Dualcasted (m : Memory) (dsc : ℕ) (m' : Memory) : Prop where
  source : ∀ i, i < AnyDescriptor.transferSize.get m dsc →
    AnyDescriptor.sourceAddress.get m dsc + i
        ∉ Region.addrs ⟨getCompletionRecord m dsc, recordSize⟩ →
      m' (AnyDescriptor.sourceAddress.get m dsc + i)
        = m (AnyDescriptor.sourceAddress.get m dsc + i)
  destination1 : ∀ i, i < AnyDescriptor.transferSize.get m dsc →
    DualcastDescriptor.destination1Address.get m dsc + i
        ∉ Region.addrs ⟨getCompletionRecord m dsc, recordSize⟩ →
      m' (DualcastDescriptor.destination1Address.get m dsc + i)
        = m (AnyDescriptor.sourceAddress.get m dsc + i)
  destination2 : ∀ i, i < AnyDescriptor.transferSize.get m dsc →
    DualcastDescriptor.destination2Address.get m dsc + i
        ∉ Region.addrs ⟨getCompletionRecord m dsc, recordSize⟩ →
      m' (DualcastDescriptor.destination2Address.get m dsc + i)
        = m (AnyDescriptor.sourceAddress.get m dsc + i)

/-- A dualcast of buffers that do not overlap. -/
theorem dualcasted_submit (hop : operationOf m dsc = some .dualcast)
    (hpair : (operands m dsc).Pairwise Region.Apart) :
    Dualcasted m dsc (SoftwareDevice.submit m dsc).1 := by
  simp only [operands, hop, List.pairwise_cons, List.forall_mem_cons] at hpair
  obtain ⟨⟨hsrc1, h2, -⟩, ⟨hdst12, -⟩, -⟩ := hpair
  have h1 : Region.Apart _ ⟨DualcastDescriptor.destination1Address.get m dsc, _⟩ := hsrc1
  have h12 : Region.Apart ⟨DualcastDescriptor.destination1Address.get m dsc, _⟩ _ := hdst12
  have hmem : ∀ x, x ∉ Region.addrs ⟨getCompletionRecord m dsc, recordSize⟩ →
      (SoftwareDevice.submit m dsc).1 x
        = dmlRefDualcast m (AnyDescriptor.sourceAddress.get m dsc)
          (DualcastDescriptor.destination1Address.get m dsc)
          (DualcastDescriptor.destination2Address.get m dsc)
          (AnyDescriptor.transferSize.get m dsc) x := by
    intro x hx
    rw [SoftwareDevice.submit, hop]
    exact setStatus_apply hx _
  refine ⟨fun i hi hx => ?_, fun i hi hx => ?_, fun i hi hx => ?_⟩
  · rw [hmem _ hx, dmlRefDualcast_of_notMem (notMem_addrs.mp (h1.notMem (Region.add_mem_addrs hi)))
      (notMem_addrs.mp (h2.notMem (Region.add_mem_addrs hi)))]
  · rw [hmem _ hx, dmlRefDualcast_eq h1 h2 h12, if_pos (by omega), Nat.add_sub_cancel_left]
  · have hout := notMem_addrs.mp (h12.symm.notMem (Region.add_mem_addrs hi))
    rw [hmem _ hx, dmlRefDualcast_eq h1 h2 h12, if_neg (by omega), if_pos (by omega),
      Nat.add_sub_cancel_left]

/-- **Validation rules out harmful overlap.**  The buffers of an accepted dualcast, copy
with CRC, delta or update do not overlap; so the dualcast makes both its copies, and the
copy with CRC reports the CRC of its source as it was. -/
theorem validate_excludes_overlap (hvalid : validate m dsc = .success)
    (hfits : ∀ R ∈ operands m dsc, R.base + R.size < 2 ^ 64) :
    (TestsWholeRanges (operationOf m dsc) → (operands m dsc).Pairwise Region.Apart)
      ∧ (operationOf m dsc = some .dualcast → Dualcasted m dsc (SoftwareDevice.submit m dsc).1)
      ∧ (operationOf m dsc = some .copyCrc →
        CrcCompletionRecord.crcValue.get (SoftwareDevice.submit m dsc).1
            (getCompletionRecord m dsc)
          = (Kernels.crcOf m (AnyDescriptor.sourceAddress.get m dsc)
              (AnyDescriptor.transferSize.get m dsc)
              (BitVec.ofNat 32 (CrcDescriptor.crcSeed.get m dsc))
              (AnyDescriptor.operationSpecificFlags.get m dsc)).toNat) := by
  refine ⟨fun hop => pairwise_apart_operands hop hvalid hfits, fun hop => ?_, fun hop => ?_⟩
  · exact dualcasted_submit hop (pairwise_apart_operands (Or.inl hop) hvalid hfits)
  · have hpair := pairwise_apart_operands (Or.inr (Or.inl hop)) hvalid hfits
    simp only [operands, hop] at hpair
    exact submit_crcValue (Or.inr hop) rfl rfl rfl fun _ => List.pairwise_pair.mp hpair

/-- A dualcast of eight bytes at 128 to 4096 and 8192. -/
def dualcastSample : Memory :=
  store (DualcastDescriptor.destination2Address.set (rawDescriptor .dualcast 64 32 128 4096 8) 64
    8192) 131 1 7

/-- The byte at 131 arrives at both destinations. -/
theorem validate_excludes_overlap_dualcast :
    (SoftwareDevice.submit dualcastSample 64).1 4099 = 7
      ∧ (SoftwareDevice.submit dualcastSample 64).1 8195 = 7 := by
  have hop : operationOf dualcastSample 64 = some .dualcast := by decide
  have hcast := (validate_excludes_overlap (by decide) (by decide)).2.1 hop
  have hsrc : AnyDescriptor.sourceAddress.get dualcastSample 64 = 128 := by decide
  have hdst1 : DualcastDescriptor.destination1Address.get dualcastSample 64 = 4096 := by
    decide
  have hdst2 : DualcastDescriptor.destination2Address.get dualcastSample 64 = 8192 := by
    decide
  have h1 := hcast.destination1 3 (by decide) (notMem_addrs.mpr (by decide))
  have h2 := hcast.destination2 3 (by decide) (notMem_addrs.mpr (by decide))
  rw [hdst1, hsrc] at h1
  rw [hdst2, hsrc] at h2
  exact ⟨h1.trans (by decide), h2.trans (by decide)⟩

end Equal

/-! ### Insert -/

/-- The source bytes of a descriptor. -/
def sourceRange (m : Memory) (dsc : ℕ) : Region :=
  ⟨AnyDescriptor.sourceAddress.get m dsc, AnyDescriptor.transferSize.get m dsc⟩

/-- The bytes an insert writes, their number as it is. -/
def insertedRange (m : Memory) (dsc : ℕ) : Region :=
  ⟨AnyDescriptor.destinationAddress.get m dsc, AnyDescriptor.transferSize.get m dsc
    + 8 * (AnyDescriptor.transferSize.get m dsc / Validate.blockSize m dsc)⟩

/-- The bytes a strip writes. -/
def strippedRange (m : Memory) (dsc : ℕ) : Region :=
  ⟨AnyDescriptor.destinationAddress.get m dsc,
    AnyDescriptor.transferSize.get m dsc / (Validate.blockSize m dsc + 8)
      * Validate.blockSize m dsc⟩

/-- The size of the destination of an insert does not fit 32 bits, and the source begins
among its last `2 ^ 32` bytes. -/
def HiddenBySum (m : Memory) (dsc : ℕ) : Prop :=
  2 ^ 32 ≤ (insertedRange m dsc).size
    ∧ (insertedRange m dsc).base < (sourceRange m dsc).base
    ∧ (insertedRange m dsc).base + ((insertedRange m dsc).size - 2 ^ 32) ≤ (sourceRange m dsc).base
    ∧ (sourceRange m dsc).base < (insertedRange m dsc).base + (insertedRange m dsc).size

instance (m : Memory) (dsc : ℕ) : Decidable (HiddenBySum m dsc) :=
  inferInstanceAs (Decidable (_ ∧ _))

section Computed

variable {m : Memory} {dsc : ℕ}

theorem le_blockSize (m : Memory) (dsc : ℕ) : 512 ≤ Validate.blockSize m dsc := by
  have h : ∀ b, 512 ≤ ownDifBlockSizes b := by decide
  exact h _

/-- The inserts that validation accepts. -/
theorem validate_difInsert_eq_success (hop : operationOf m dsc = some .difInsert) :
    validate m dsc = .success
      ↔ (sourceRange m dsc).base ≠ 0 ∧ (insertedRange m dsc).base ≠ 0
        ∧ (sourceRange m dsc).size ≠ 0
        ∧ (sourceRange m dsc).size % Validate.blockSize m dsc = 0
        ∧ overlaps (sourceRange m dsc).base (sourceRange m dsc).size (insertedRange m dsc).base
          ((insertedRange m dsc).size % 2 ^ 32) = false := by
  rw [validate, hop]
  simp only [Validate.difInsert]
  simp (disch := decide) only [ite_eq_success_iff, anyEqualZero_pair, anyEqualZero_one, not_or,
    not_not, Bool.not_eq_true, and_true, and_assoc, sourceRange, insertedRange, ne_eq]
  rw [Nat.mul_comm 8]

/-- **An accepted insert keeps off its source exactly where the 32-bit sum hides
nothing.** -/
theorem validate_difInsert_apart_iff (hop : operationOf m dsc = some .difInsert)
    (hsrc : (sourceRange m dsc).base + (sourceRange m dsc).size < 2 ^ 64)
    (hdst : (insertedRange m dsc).base + (insertedRange m dsc).size < 2 ^ 64) :
    (validate m dsc = .success → (sourceRange m dsc).Apart (insertedRange m dsc))
      ↔ ¬((insertedRange m dsc).base ≠ 0
        ∧ (sourceRange m dsc).size % Validate.blockSize m dsc = 0 ∧ HiddenBySum m dsc) := by
  have hsize : (insertedRange m dsc).size
      = (sourceRange m dsc).size + 8 * ((sourceRange m dsc).size / Validate.blockSize m dsc) := rfl
  have hlt : (sourceRange m dsc).size < 2 ^ 32 := transferSize_lt m dsc
  have hdiv : (sourceRange m dsc).size / Validate.blockSize m dsc
      ≤ (sourceRange m dsc).size / 512 :=
    Nat.div_le_div_left (le_blockSize m dsc) (by decide)
  have hmod : (insertedRange m dsc).size % 2 ^ 32 ≤ (insertedRange m dsc).size := Nat.mod_le _ _
  rw [validate_difInsert_eq_success hop, ← Bool.not_eq_true,
    overlaps_eq_true_iff hsrc (by omega)]
  unfold HiddenBySum Region.Apart
  by_cases hfit : (insertedRange m dsc).size < 2 ^ 32
  · rw [Nat.mod_eq_of_lt hfit]
    omega
  · have hwrap : (insertedRange m dsc).size % 2 ^ 32 = (insertedRange m dsc).size - 2 ^ 32 := by
      omega
    rw [hwrap]
    omega

/-- An insert of `n` bytes at `src` to `dst`, in blocks of 512 bytes. -/
def insertOfBytes (src dst n : ℕ) : Memory := rawDescriptor .difInsert 64 32 src dst n

/-- One block. -/
theorem validate_difInsert_apart_block :
    (sourceRange (insertOfBytes 4096 8192 512) 64).Apart
      (insertedRange (insertOfBytes 4096 8192 512) 64) :=
  (validate_difInsert_apart_iff (by decide) (by decide) (by decide)).mpr
    (by decide) (by decide)

/-- The destination of `2 ^ 32 - 512` bytes has 67108344 bytes more than 32 bits count.  A
source that begins behind those passes the test, inside the destination. -/
theorem difInsert_overwrites_source :
    let m := insertOfBytes (2 ^ 33 + 2 ^ 27) (2 ^ 33) (2 ^ 32 - 512)
    (sourceRange m 64).base + (sourceRange m 64).size < 2 ^ 64
      ∧ (insertedRange m 64).base + (insertedRange m 64).size < 2 ^ 64
      ∧ validate m 64 = .success ∧ ¬(sourceRange m 64).Apart (insertedRange m 64) := by
  decide

/-! ### Strip -/

/-- What a strip is asked to do makes sense: addresses, and whole protected blocks. -/
structure StripOperands (m : Memory) (dsc : ℕ) : Prop where
  source : (sourceRange m dsc).base ≠ 0
  destination : (strippedRange m dsc).base ≠ 0
  positive : (sourceRange m dsc).size ≠ 0
  blocks : (sourceRange m dsc).size % (Validate.blockSize m dsc + 8) = 0

/-- The bytes by which validation takes the destination of a strip for too small. -/
def stripDrift (m : Memory) (dsc : ℕ) : ℕ :=
  8 * (8 * ((sourceRange m dsc).size / (Validate.blockSize m dsc + 8)) / Validate.blockSize m dsc)

/-- The source begins among the bytes of the destination that validation misses. -/
def HiddenByDrift (m : Memory) (dsc : ℕ) : Prop :=
  (strippedRange m dsc).base + (strippedRange m dsc).size
      ≤ (sourceRange m dsc).base + stripDrift m dsc
    ∧ (sourceRange m dsc).base < (strippedRange m dsc).base + (strippedRange m dsc).size

instance (m : Memory) (dsc : ℕ) : Decidable (HiddenByDrift m dsc) :=
  inferInstanceAs (Decidable (_ ∧ _))

/-- The destination size that validation computes, for `k` blocks. -/
theorem strip_size_eq {k b : ℕ} (hb : 0 < b) :
    k * (b + 8) - k * (b + 8) / b * 8 = k * b - 8 * (8 * k / b) := by
  have hdiv : k * (b + 8) / b = k + 8 * k / b := by
    rw [Nat.mul_add, Nat.mul_comm k 8, Nat.mul_comm k b, Nat.mul_add_div hb]
  rw [hdiv, Nat.mul_add k]
  omega

theorem StripOperands.computed (h : StripOperands m dsc) :
    (sourceRange m dsc).size - (sourceRange m dsc).size / Validate.blockSize m dsc * 8
        = (strippedRange m dsc).size - stripDrift m dsc
      ∧ stripDrift m dsc < (strippedRange m dsc).size
      ∧ (strippedRange m dsc).size ≤ (sourceRange m dsc).size := by
  have hb := le_blockSize m dsc
  have hn := h.positive
  have hblocks := Nat.div_add_mod (sourceRange m dsc).size (Validate.blockSize m dsc + 8)
  rw [h.blocks, Nat.add_zero, Nat.mul_comm] at hblocks
  set k := (sourceRange m dsc).size / (Validate.blockSize m dsc + 8) with hk
  have hsize : (strippedRange m dsc).size = k * Validate.blockSize m dsc := rfl
  have hdrift : stripDrift m dsc = 8 * (8 * k / Validate.blockSize m dsc) := rfl
  rw [hsize, hdrift, ← hblocks]
  refine ⟨strip_size_eq (by omega), ?_, ?_⟩
  · have hkpos : 0 < k := Nat.pos_of_ne_zero fun h0 => hn (by rw [← hblocks, h0, Nat.zero_mul])
    have hquot : 8 * k / Validate.blockSize m dsc ≤ 8 * k / 512 :=
      Nat.div_le_div_left hb (by decide)
    have hprod : k * 512 ≤ k * Validate.blockSize m dsc := Nat.mul_le_mul_left k hb
    omega
  · exact Nat.mul_le_mul_left k (by omega)

theorem StripOperands.of_success (hop : operationOf m dsc = some .difStrip)
    (hvalid : validate m dsc = .success) : StripOperands m dsc := by
  rw [validate, hop] at hvalid
  simp only [Validate.difStrip, anyEqualZero_pair, anyEqualZero_one] at hvalid
  simp (disch := decide) only [ite_eq_success_iff] at hvalid
  obtain ⟨hnull, hzero, hsize, -⟩ := hvalid
  rw [not_or] at hnull
  exact ⟨hnull.1, hnull.2, hzero, not_not.mp hsize⟩

theorem validate_difStrip_ranges (hop : operationOf m dsc = some .difStrip) :
    validate m dsc
      = if anyEqualZero [(sourceRange m dsc).base, (strippedRange m dsc).base] then .nullAddress
        else if anyEqualZero [(sourceRange m dsc).size] then .nullSize
        else if (sourceRange m dsc).size % (Validate.blockSize m dsc + 8) ≠ 0 then .wrongDifSize
        else
          let dstSize := (sourceRange m dsc).size
            - (sourceRange m dsc).size / Validate.blockSize m dsc * 8
          if overlaps (sourceRange m dsc).base (sourceRange m dsc).size (strippedRange m dsc).base
              dstSize then .overlapping
          else if (strippedRange m dsc).base < (sourceRange m dsc).base
              ∧ ((strippedRange m dsc).base + dstSize) % 2 ^ 64 ≤ (sourceRange m dsc).base
              ∧ (sourceRange m dsc).base
                ≤ ((strippedRange m dsc).base + (sourceRange m dsc).size) % 2 ^ 64 then
            .difStripAdjacent
          else .success := by
  rw [validate, hop]
  rfl

/-- What validation says of a strip, where no address wraps. -/
theorem validate_difStrip_eq (hop : operationOf m dsc = some .difStrip) (h : StripOperands m dsc)
    (hsrc : (sourceRange m dsc).base + (sourceRange m dsc).size < 2 ^ 64)
    (hdst : (strippedRange m dsc).base + (strippedRange m dsc).size < 2 ^ 64) :
    validate m dsc
      = if ((sourceRange m dsc).base ≤ (strippedRange m dsc).base
            ∧ (strippedRange m dsc).base < (sourceRange m dsc).base + (sourceRange m dsc).size)
          ∨ ((strippedRange m dsc).base ≤ (sourceRange m dsc).base
            ∧ (sourceRange m dsc).base + stripDrift m dsc
              < (strippedRange m dsc).base + (strippedRange m dsc).size) then
          .overlapping
        else if (strippedRange m dsc).base < (sourceRange m dsc).base
            ∧ (sourceRange m dsc).base ≤ (strippedRange m dsc).base + (sourceRange m dsc).size then
          .difStripAdjacent
        else .success := by
  obtain ⟨hcomputed, hdrift, hle⟩ := h.computed
  rw [validate_difStrip_ranges hop,
    if_neg fun hnull => (anyEqualZero_pair.mp hnull).elim h.source h.destination,
    if_neg fun hzero => h.positive (anyEqualZero_one.mp hzero), if_neg (not_not.mpr h.blocks),
    hcomputed]
  have hover : overlaps (sourceRange m dsc).base (sourceRange m dsc).size
        (strippedRange m dsc).base ((strippedRange m dsc).size - stripDrift m dsc) = true
      ↔ ((sourceRange m dsc).base ≤ (strippedRange m dsc).base
          ∧ (strippedRange m dsc).base < (sourceRange m dsc).base + (sourceRange m dsc).size)
        ∨ ((strippedRange m dsc).base ≤ (sourceRange m dsc).base
          ∧ (sourceRange m dsc).base + stripDrift m dsc
            < (strippedRange m dsc).base + (strippedRange m dsc).size) := by
    rw [overlaps_eq_true_iff hsrc (by omega)]
    omega
  simp only
  rw [if_congr hover rfl rfl]
  refine ite_congr rfl (fun _ => rfl) fun hfirst => if_congr ?_ rfl rfl
  -- behind its destination, a source that fits leaves the other sums in range too
  refine and_congr_right fun hlt => ?_
  rw [Nat.mod_eq_of_lt (show (strippedRange m dsc).base
      + ((strippedRange m dsc).size - stripDrift m dsc) < 2 ^ 64 by omega),
    Nat.mod_eq_of_lt (show (strippedRange m dsc).base + (sourceRange m dsc).size < 2 ^ 64 by omega)]
  omega

/-- A strip writes these bytes and its record. -/
theorem submit_difStrip_of_notMem (hop : operationOf m dsc = some .difStrip) {x : ℕ}
    (hrecord : x ∉ Region.addrs ⟨getCompletionRecord m dsc, recordSize⟩)
    (hx : x ∉ (strippedRange m dsc).addrs) : (SoftwareDevice.submit m dsc).1 x = m x := by
  rw [SoftwareDevice.submit, hop]
  simp only [Kernels.difStrip]
  rw [completeDif_apply hrecord, dmlLegacyDifStrip, dmlLegacyDifCheck_eq]
  cases Loop.search
      (fun j => difBitsAt m (Kernels.difJob m dsc (Kernels.sourceDifConfig m dsc)) j != 0)
      ((Kernels.difJob m dsc (Kernels.sourceDifConfig m dsc)).sourceLength
        / (Kernels.difJob m dsc (Kernels.sourceDifConfig m dsc)).difConfig.step) with
  | some j => rfl
  | none => exact difStripBlocks_of_notMem (notMem_addrs.mp hx)

/-- **An accepted strip keeps off its source.**  What the size computed for the
destination misses is caught by the test for adjacent buffers, which allows for the whole
size of the source. -/
theorem validate_difStrip_apart (hop : operationOf m dsc = some .difStrip)
    (hsrc : (sourceRange m dsc).base + (sourceRange m dsc).size < 2 ^ 64)
    (hdst : (strippedRange m dsc).base + (strippedRange m dsc).size < 2 ^ 64)
    (hvalid : validate m dsc = .success) :
    (sourceRange m dsc).Apart (strippedRange m dsc)
      ∧ ∀ x ∈ (sourceRange m dsc).addrs,
        x ∉ Region.addrs ⟨getCompletionRecord m dsc, recordSize⟩ →
          (SoftwareDevice.submit m dsc).1 x = m x := by
  have hargs := StripOperands.of_success hop hvalid
  obtain ⟨-, -, hle⟩ := hargs.computed
  rw [validate_difStrip_eq hop hargs hsrc hdst] at hvalid
  simp (disch := decide) only [ite_eq_success_iff] at hvalid
  obtain ⟨hover, hadjacent, -⟩ := hvalid
  have hap : (sourceRange m dsc).Apart (strippedRange m dsc) := by
    unfold Region.Apart
    omega
  exact ⟨hap, fun x hx hrecord => submit_difStrip_of_notMem hop hrecord (hap.notMem hx)⟩

/-- A strip of `k` blocks of 512 bytes. -/
def stripOfBlocks (src dst k : ℕ) : Memory := rawDescriptor .difStrip 64 32 src dst (k * 520)

/-- Four blocks, well apart. -/
theorem validate_difStrip_apart_blocks :
    (sourceRange (stripOfBlocks 4096 8192 4) 64).Apart
      (strippedRange (stripOfBlocks 4096 8192 4) 64) :=
  (validate_difStrip_apart (by decide) (by decide) (by decide)
    (by decide)).1

/-- **A strip classifies a placement rightly exactly where the computed size hides
nothing.** -/
theorem validate_difStrip_classifies_iff (hop : operationOf m dsc = some .difStrip)
    (h : StripOperands m dsc)
    (hsrc : (sourceRange m dsc).base + (sourceRange m dsc).size < 2 ^ 64)
    (hdst : (strippedRange m dsc).base + (strippedRange m dsc).size < 2 ^ 64) :
    ((validate m dsc = .overlapping ↔ ¬(sourceRange m dsc).Apart (strippedRange m dsc))
        ∧ (validate m dsc = .difStripAdjacent → (sourceRange m dsc).Apart (strippedRange m dsc)))
      ↔ ¬HiddenByDrift m dsc := by
  obtain ⟨-, hdrift, hle⟩ := h.computed
  have hpos := h.positive
  rw [validate_difStrip_eq hop h hsrc hdst]
  unfold HiddenByDrift Region.Apart
  split
  · simp only [reduceCtorEq, true_iff, false_imp_iff, and_true]
    omega
  · split
    · simp only [reduceCtorEq, false_iff, true_imp_iff]
      omega
    · simp only [reduceCtorEq, false_iff, false_imp_iff, and_true]
      omega

/-- A short strip into its own source. -/
theorem validate_difStrip_classifies_short :
    validate (stripOfBlocks 8192 8200 4) 64 = .overlapping :=
  ((validate_difStrip_classifies_iff (by decide) (by constructor <;> decide)
    (by decide) (by decide)).mpr (by decide)).1.mpr (by decide)

/-- The destination of 64 blocks is taken for eight bytes too small.  A source that begins
among them is called adjacent. -/
theorem difStrip_misclassified :
    let m := stripOfBlocks (65536 + 32760) 65536 64
    StripOperands m 64
      ∧ (sourceRange m 64).base + (sourceRange m 64).size < 2 ^ 64
      ∧ (strippedRange m 64).base + (strippedRange m 64).size < 2 ^ 64
      ∧ validate m 64 = .difStripAdjacent ∧ ¬(sourceRange m 64).Apart (strippedRange m 64) :=
  ⟨by constructor <;> decide, by decide⟩

end Computed

end DataMover
