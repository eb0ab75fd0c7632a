import DataMover.Kernels

/-!
# Validation of descriptors

`core::validate`: what every submission checks before a descriptor reaches a
device.  Addresses are 64-bit and sizes 32-bit, so the sums of the overlap tests
wrap; for buffers that fit in the address space they do not, and an accepted
descriptor has the geometry its kernel relies on.

## Main results

* `validate_congr` — validation reads the descriptor only.
* `validate_createDelta`, `validate_copyCrc`, `validate_difStrip`,
  `validate_difUpdate` — what an accepted descriptor guarantees.
-/

namespace DataMover

open ByteMemory

/-- `any_equal_zero`. -/
def anyEqualZero (args : List ℕ) : Bool := args.any (· == 0)

theorem anyEqualZero_pair {a b : ℕ} : anyEqualZero [a, b] = true ↔ a = 0 ∨ b = 0 := by
  simp [anyEqualZero]

theorem anyEqualZero_one {a : ℕ} : anyEqualZero [a] = true ↔ a = 0 := by
  simp [anyEqualZero]

/-- `any_misaligned`. -/
def anyMisaligned (alignment : ℕ) (args : List ℕ) : Bool := args.any (· % alignment != 0)

/-- `overlaps`: two address ranges, with 64-bit sums. -/
def overlaps (lhs lhsSize rhs rhsSize : ℕ) : Bool :=
  decide (lhs ≤ rhs ∧ (lhs + lhsSize) % 2 ^ 64 > rhs)
    || decide (rhs ≤ lhs ∧ (rhs + rhsSize) % 2 ^ 64 > lhs)

/-- The overlap test of two ranges that fit in the address space. -/
theorem overlaps_eq_true_iff {lhs lhsSize rhs rhsSize : ℕ} (hl : lhs + lhsSize < 2 ^ 64)
    (hr : rhs + rhsSize < 2 ^ 64) :
    overlaps lhs lhsSize rhs rhsSize = true
      ↔ (lhs ≤ rhs ∧ rhs < lhs + lhsSize) ∨ (rhs ≤ lhs ∧ lhs < rhs + rhsSize) := by
  rw [overlaps, Bool.or_eq_true, decide_eq_true_iff, decide_eq_true_iff, Nat.mod_eq_of_lt hl,
    Nat.mod_eq_of_lt hr]

/-- Ranges that fit in the address space and pass the test are apart. -/
theorem apart_of_overlaps {lhs lhsSize rhs rhsSize : ℕ}
    (h : overlaps lhs lhsSize rhs rhsSize = false) (hl : lhs + lhsSize < 2 ^ 64)
    (hr : rhs + rhsSize < 2 ^ 64) : Region.Apart ⟨lhs, lhsSize⟩ ⟨rhs, rhsSize⟩ := by
  rw [← Bool.not_eq_true, overlaps_eq_true_iff hl hr] at h
  unfold Region.Apart
  simp only
  omega

/-! ### One validator per operation -/

namespace Validate

def memMove (m : Memory) (dsc : ℕ) : ValidationStatus :=
  if anyEqualZero
      [AnyDescriptor.sourceAddress.get m dsc, AnyDescriptor.destinationAddress.get m dsc]
  then .nullAddress
  else if anyEqualZero [AnyDescriptor.transferSize.get m dsc] then .nullSize
  else .success

def fill (m : Memory) (dsc : ℕ) : ValidationStatus :=
  if anyEqualZero [AnyDescriptor.destinationAddress.get m dsc] then .nullAddress
  else if anyEqualZero [AnyDescriptor.transferSize.get m dsc] then .nullSize
  else .success

def compare (m : Memory) (dsc : ℕ) : ValidationStatus :=
  if anyEqualZero [CompareDescriptor.source1Address.get m dsc,
    CompareDescriptor.source2Address.get m dsc] then .nullAddress
  else if anyEqualZero [AnyDescriptor.transferSize.get m dsc] then .nullSize
  else .success

def comparePattern (m : Memory) (dsc : ℕ) : ValidationStatus :=
  if anyEqualZero [AnyDescriptor.sourceAddress.get m dsc] then .nullAddress
  else if anyEqualZero [AnyDescriptor.transferSize.get m dsc] then .nullSize
  else .success

def createDelta (m : Memory) (dsc : ℕ) : ValidationStatus :=
  let maxSize := 0x80000
  let source1 := CreateDeltaDescriptor.source1Address.get m dsc
  let source2 := CreateDeltaDescriptor.source2Address.get m dsc
  let deltaRecord := CreateDeltaDescriptor.deltaRecordAddress.get m dsc
  let transferSize := AnyDescriptor.transferSize.get m dsc
  let maximumDeltaRecordSize := CreateDeltaDescriptor.maximumDeltaRecordSize.get m dsc
  if anyEqualZero [source1, source2, deltaRecord] then .nullAddress
  else if anyEqualZero [transferSize, maximumDeltaRecordSize] then .nullSize
  else if anyMisaligned 8 [source1, source2, deltaRecord] then .misalignment
  else if transferSize % 8 ≠ 0 then .wrongSize
  else if transferSize > maxSize then .largeSize
  else if maximumDeltaRecordSize % 10 ≠ 0 ∨ maximumDeltaRecordSize < 80 then .wrongDeltaSize
  else .success

def applyDelta (m : Memory) (dsc : ℕ) : ValidationStatus :=
  let maxSize := 0x80000
  let destination := AnyDescriptor.destinationAddress.get m dsc
  let deltaRecord := ApplyDeltaDescriptor.deltaRecordAddress.get m dsc
  let transferSize := AnyDescriptor.transferSize.get m dsc
  let deltaRecordSize := ApplyDeltaDescriptor.deltaRecordSize.get m dsc
  if anyEqualZero [destination, deltaRecord] then .nullAddress
  else if anyEqualZero [transferSize, deltaRecordSize] then .nullSize
  else if overlaps deltaRecord deltaRecordSize destination transferSize then .overlapping
  else if anyMisaligned 8 [destination, deltaRecord] then .misalignment
  else if transferSize % 8 ≠ 0 then .wrongSize
  else if transferSize > maxSize then .largeSize
  else if deltaRecordSize % 10 ≠ 0 then .wrongDeltaSize
  else .success

def dualcast (m : Memory) (dsc : ℕ) : ValidationStatus :=
  let source := AnyDescriptor.sourceAddress.get m dsc
  let destination1 := DualcastDescriptor.destination1Address.get m dsc
  let destination2 := DualcastDescriptor.destination2Address.get m dsc
  let transferSize := AnyDescriptor.transferSize.get m dsc
  if anyEqualZero [source, destination1, destination2] then .nullAddress
  else if anyEqualZero [transferSize] then .nullSize
  else if destination1 &&& 0xFFF ≠ destination2 &&& 0xFFF then .wrongDualcastAddress
  else if overlaps source transferSize destination1 transferSize then .overlapping
  else if overlaps source transferSize destination2 transferSize then .overlapping
  else if overlaps destination1 transferSize destination2 transferSize then .overlapping
  else .success

def crc (m : Memory) (dsc : ℕ) : ValidationStatus :=
  if anyEqualZero [AnyDescriptor.sourceAddress.get m dsc] then .nullAddress
  else if anyEqualZero [AnyDescriptor.transferSize.get m dsc] then .nullSize
  else .success

def copyCrc (m : Memory) (dsc : ℕ) : ValidationStatus :=
  let source := AnyDescriptor.sourceAddress.get m dsc
  let destination := AnyDescriptor.destinationAddress.get m dsc
  let transferSize := AnyDescriptor.transferSize.get m dsc
  if anyEqualZero [source, destination] then .nullAddress
  else if anyEqualZero [transferSize] then .nullSize
  else if overlaps source transferSize destination transferSize then .overlapping
  else .success

def cacheFlush (m : Memory) (dsc : ℕ) : ValidationStatus :=
  if anyEqualZero [AnyDescriptor.destinationAddress.get m dsc] then .nullAddress
  else if anyEqualZero [AnyDescriptor.transferSize.get m dsc] then .nullSize
  else .success

/-- `dif_block_sizes[dif_flags & 0b11]`. -/
def blockSize (m : Memory) (dsc : ℕ) : ℕ :=
  ownDifBlockSizes (Kernels.difBlockSize (DifDescriptor.difFlags.get m dsc))

def difCheck (m : Memory) (dsc : ℕ) : ValidationStatus :=
  if anyEqualZero [AnyDescriptor.sourceAddress.get m dsc] then .nullAddress
  else if anyEqualZero [AnyDescriptor.transferSize.get m dsc] then .nullSize
  else if AnyDescriptor.transferSize.get m dsc % (blockSize m dsc + 8) ≠ 0 then .wrongDifSize
  else .success

/-- The destination size is a 32-bit sum. -/
def difInsert (m : Memory) (dsc : ℕ) : ValidationStatus :=
  let source := AnyDescriptor.sourceAddress.get m dsc
  let destination := AnyDescriptor.destinationAddress.get m dsc
  let srcSize := AnyDescriptor.transferSize.get m dsc
  if anyEqualZero [source, destination] then .nullAddress
  else if anyEqualZero [srcSize] then .nullSize
  else if srcSize % blockSize m dsc ≠ 0 then .wrongDifSize
  else
    let dstSize := (srcSize + srcSize / blockSize m dsc * 8) % 2 ^ 32
    if overlaps source srcSize destination dstSize then .overlapping
    else .success

/-- The number of blocks is taken as `src_size / block_size`, not over the size
of a protected block. -/
def difStrip (m : Memory) (dsc : ℕ) : ValidationStatus :=
  let source := AnyDescriptor.sourceAddress.get m dsc
  let destination := AnyDescriptor.destinationAddress.get m dsc
  let srcSize := AnyDescriptor.transferSize.get m dsc
  if anyEqualZero [source, destination] then .nullAddress
  else if anyEqualZero [srcSize] then .nullSize
  else if srcSize % (blockSize m dsc + 8) ≠ 0 then .wrongDifSize
  else
    let dstSize := srcSize - srcSize / blockSize m dsc * 8
    if overlaps source srcSize destination dstSize then .overlapping
    else if destination < source ∧ (destination + dstSize) % 2 ^ 64 ≤ source
        ∧ source ≤ (destination + srcSize) % 2 ^ 64 then
      .difStripAdjacent
    else .success

def difUpdate (m : Memory) (dsc : ℕ) : ValidationStatus :=
  let source := AnyDescriptor.sourceAddress.get m dsc
  let destination := AnyDescriptor.destinationAddress.get m dsc
  let transferSize := AnyDescriptor.transferSize.get m dsc
  if anyEqualZero [source, destination] then .nullAddress
  else if anyEqualZero [transferSize] then .nullSize
  else if transferSize % (blockSize m dsc + 8) ≠ 0 then .wrongDifSize
  else if overlaps source transferSize destination transferSize then .overlapping
  else .success

def batch (m : Memory) (dsc : ℕ) : ValidationStatus :=
  if anyEqualZero [BatchDescriptor.descriptorListAddress.get m dsc] then .nullAddress
  else if BatchDescriptor.descriptorsCount.get m dsc < 4 then .wrongBatchSize
  else .success

end Validate

/-- `core::validate`. -/
def validate (m : Memory) (dsc : ℕ) : ValidationStatus :=
  match operationOf m dsc with
  | some .nop => .success
  | some .batch => Validate.batch m dsc
  | some .drain => .success
  | some .memMove => Validate.memMove m dsc
  | some .fill => Validate.fill m dsc
  | some .compare => Validate.compare m dsc
  | some .comparePattern => Validate.comparePattern m dsc
  | some .createDelta => Validate.createDelta m dsc
  | some .applyDelta => Validate.applyDelta m dsc
  | some .dualcast => Validate.dualcast m dsc
  | some .crc => Validate.crc m dsc
  | some .copyCrc => Validate.copyCrc m dsc
  | some .difCheck => Validate.difCheck m dsc
  | some .difInsert => Validate.difInsert m dsc
  | some .difStrip => Validate.difStrip m dsc
  | some .difUpdate => Validate.difUpdate m dsc
  | some .cacheFlush => Validate.cacheFlush m dsc
  | none => .unsupportedOperation

/-- Validation reads the fields of the descriptor and nothing else. -/
theorem validate_congr {m m' : Memory} {dsc dsc' : ℕ}
    (h : ∀ f : Field, f.Within descriptorSize → f.get m dsc = f.get m' dsc') :
    validate m dsc = validate m' dsc' := by
  have hop : operationOf m dsc = operationOf m' dsc' := by
    rw [operationOf, operationOf, h _ (by decide)]
  have hblock : Validate.blockSize m dsc = Validate.blockSize m' dsc' := by
    rw [Validate.blockSize, Validate.blockSize, h _ (by decide)]
  rw [validate, validate, hop]
  cases operationOf m' dsc' with
  | none => rfl
  | some op =>
    cases op
    all_goals
      simp (disch := decide) only [Validate.batch, Validate.memMove, Validate.fill,
        Validate.compare, Validate.comparePattern, Validate.createDelta, Validate.applyDelta,
        Validate.dualcast, Validate.crc, Validate.copyCrc, Validate.difCheck, Validate.difInsert,
        Validate.difStrip, Validate.difUpdate, Validate.cacheFlush, hblock, h]

/-! ### What an accepted descriptor guarantees -/

section Accepted

variable {m : Memory} {dsc : ℕ}

/-- A chain `RETURN_STATUS_IF (p) (status); rest` that ends in success has passed every
test. -/
theorem ite_eq_success_iff {p : Prop} [Decidable p] {status rest : ValidationStatus}
    (hne : status ≠ .success) : (if p then status else rest) = .success ↔ ¬p ∧ rest = .success := by
  rw [ite_eq_iff]
  constructor
  · rintro (⟨-, h⟩ | h)
    · exact absurd h hne
    · exact h
  · exact Or.inr

theorem validate_createDelta (hop : operationOf m dsc = some .createDelta)
    (h : validate m dsc = .success) :
    AnyDescriptor.transferSize.get m dsc % 8 = 0
      ∧ AnyDescriptor.transferSize.get m dsc ≤ 0x80000
      ∧ CreateDeltaDescriptor.maximumDeltaRecordSize.get m dsc % 10 = 0
      ∧ 80 ≤ CreateDeltaDescriptor.maximumDeltaRecordSize.get m dsc := by
  rw [validate, hop] at h
  simp only [Validate.createDelta] at h
  simp (disch := decide) only [ite_eq_success_iff] at h
  obtain ⟨-, -, -, h8, hle, h10, -⟩ := h
  omega

theorem validate_dualcast (hop : operationOf m dsc = some .dualcast)
    (h : validate m dsc = .success) :
    overlaps (AnyDescriptor.sourceAddress.get m dsc) (AnyDescriptor.transferSize.get m dsc)
        (DualcastDescriptor.destination1Address.get m dsc) (AnyDescriptor.transferSize.get m dsc)
        = false
      ∧ overlaps (AnyDescriptor.sourceAddress.get m dsc) (AnyDescriptor.transferSize.get m dsc)
        (DualcastDescriptor.destination2Address.get m dsc) (AnyDescriptor.transferSize.get m dsc)
        = false
      ∧ overlaps (DualcastDescriptor.destination1Address.get m dsc)
        (AnyDescriptor.transferSize.get m dsc) (DualcastDescriptor.destination2Address.get m dsc)
        (AnyDescriptor.transferSize.get m dsc) = false := by
  rw [validate, hop] at h
  simp only [Validate.dualcast] at h
  simp (disch := decide) only [ite_eq_success_iff] at h
  obtain ⟨-, -, -, h1, h2, h12, -⟩ := h
  exact ⟨Bool.eq_false_iff.mpr h1, Bool.eq_false_iff.mpr h2, Bool.eq_false_iff.mpr h12⟩

theorem validate_copyCrc (hop : operationOf m dsc = some .copyCrc)
    (h : validate m dsc = .success) :
    overlaps (AnyDescriptor.sourceAddress.get m dsc) (AnyDescriptor.transferSize.get m dsc)
      (AnyDescriptor.destinationAddress.get m dsc) (AnyDescriptor.transferSize.get m dsc)
      = false := by
  rw [validate, hop] at h
  simp only [Validate.copyCrc] at h
  simp (disch := decide) only [ite_eq_success_iff] at h
  obtain ⟨-, -, ho, -⟩ := h
  exact Bool.eq_false_iff.mpr ho

theorem validate_applyDelta (hop : operationOf m dsc = some .applyDelta)
    (h : validate m dsc = .success) :
    overlaps (ApplyDeltaDescriptor.deltaRecordAddress.get m dsc)
      (ApplyDeltaDescriptor.deltaRecordSize.get m dsc)
      (AnyDescriptor.destinationAddress.get m dsc) (AnyDescriptor.transferSize.get m dsc)
      = false := by
  rw [validate, hop] at h
  simp only [Validate.applyDelta] at h
  simp (disch := decide) only [ite_eq_success_iff] at h
  obtain ⟨-, -, ho, -⟩ := h
  exact Bool.eq_false_iff.mpr ho

theorem validate_difInsert (hop : operationOf m dsc = some .difInsert)
    (h : validate m dsc = .success) :
    AnyDescriptor.transferSize.get m dsc % Validate.blockSize m dsc = 0 := by
  rw [validate, hop] at h
  simp only [Validate.difInsert] at h
  simp (disch := decide) only [ite_eq_success_iff] at h
  obtain ⟨-, -, hsize, -⟩ := h
  exact not_not.mp hsize

/-- The adjacency test of a strip keeps the whole source size free behind the
destination. -/
theorem validate_difStrip (hop : operationOf m dsc = some .difStrip)
    (h : validate m dsc = .success)
    (hfit : AnyDescriptor.sourceAddress.get m dsc + AnyDescriptor.transferSize.get m dsc < 2 ^ 64)
    (hfit' : AnyDescriptor.destinationAddress.get m dsc + AnyDescriptor.transferSize.get m dsc
      < 2 ^ 64) :
    AnyDescriptor.transferSize.get m dsc % (Validate.blockSize m dsc + 8) = 0
      ∧ Region.Apart ⟨AnyDescriptor.sourceAddress.get m dsc, AnyDescriptor.transferSize.get m dsc⟩
        ⟨AnyDescriptor.destinationAddress.get m dsc, AnyDescriptor.transferSize.get m dsc⟩ := by
  rw [validate, hop] at h
  simp only [Validate.difStrip] at h
  simp (disch := decide) only [ite_eq_success_iff] at h
  obtain ⟨-, -, hsize, hover, hadjacent, -⟩ := h
  refine ⟨not_not.mp hsize, ?_⟩
  rw [overlaps_eq_true_iff hfit (by omega)] at hover
  rw [Nat.mod_eq_of_lt (by omega), Nat.mod_eq_of_lt hfit'] at hadjacent
  unfold Region.Apart
  simp only
  omega

theorem validate_difUpdate (hop : operationOf m dsc = some .difUpdate)
    (h : validate m dsc = .success) :
    AnyDescriptor.transferSize.get m dsc % (Validate.blockSize m dsc + 8) = 0
      ∧ overlaps (AnyDescriptor.sourceAddress.get m dsc) (AnyDescriptor.transferSize.get m dsc)
          (AnyDescriptor.destinationAddress.get m dsc) (AnyDescriptor.transferSize.get m dsc)
        = false := by
  rw [validate, hop] at h
  simp only [Validate.difUpdate] at h
  simp (disch := decide) only [ite_eq_success_iff] at h
  obtain ⟨-, -, hsize, ho, -⟩ := h
  exact ⟨not_not.mp hsize, Bool.eq_false_iff.mpr ho⟩

end Accepted

end DataMover
