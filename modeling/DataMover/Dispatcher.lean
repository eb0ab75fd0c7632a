import DataMover.Avx512.Compare
import DataMover.Avx512.ComparePattern
import DataMover.Avx512.CrcReflected
import DataMover.Avx512.Fill
import DataMover.Avx512.MemMove
import DataMover.CacheFlush
import DataMover.Placement

/-!
# The optimization dispatcher

`sw_dispatcher/optimization_dispatcher.cpp`: the kernels call their reference functions through
pointers, which the constructor of `dispatcher` replaces by the vector functions when `cpuid`
names the features they need.  `create_delta`, `apply_delta` and `dualcast` keep their reference
functions, and the functions of `dml_dif.c` are called directly.

A call that does not come back, or touches memory that is not its own, is `none`.

## Main definitions

* `Pointers`, `dispatcher` — the pointers, and what the constructor makes of them.
* `Dispatched.submit` — `software_device::submit` with the calls going through the pointers.
* `ComesBack` — no comparison of a vector processor runs past the wrap of its counter.

## Main results

* `Agrees`, `agrees_dispatcher` — each pointer against its reference function.
* `dispatched_submit` — the software path on every processor is the reference one, except for
  the comparisons that do not come back.
-/

namespace DataMover

open ByteMemory CacheLine Simd

/-! ### The features of the processor -/

/-- The register `dml_core_cpuid(DML_CPUID_EXTENSIONS)` returns that the kernels depend on.
`ecx` decides only how `umwait` is waited for. -/
structure CoreRegisters where
  ebx : BitVec 32
  deriving DecidableEq, Repr

/-- `DML_AVX512_MASK`: the bits F, DQ, CD, BW and VL. -/
def dmlAvx512Mask : BitVec 32 :=
  1#32 <<< 16 ||| 1#32 <<< 17 ||| 1#32 <<< 28 ||| 1#32 <<< 30 ||| 1#32 <<< 31

/-- `DML_CLFLUSHOPT`. -/
def dmlClflushoptBit : BitVec 32 := 1#32 <<< 23

/-- `DML_CLWB`. -/
def dmlClwbBit : BitVec 32 := 1#32 <<< 24

namespace CoreRegisters

/-- All five AVX-512 bits are set. -/
def hasAvx512 (registers : CoreRegisters) : Bool :=
  registers.ebx &&& dmlAvx512Mask == dmlAvx512Mask

/-- The features the cache functions depend on. -/
def cacheFeatures (registers : CoreRegisters) : CacheFeatures where
  clflushopt := registers.ebx &&& dmlClflushoptBit == dmlClflushoptBit
  clwb := registers.ebx &&& dmlClwbBit == dmlClwbBit

end CoreRegisters

/-- A processor: its registers, the cache size the copy asks for, and the value it gives a
64-bit shift by 64. -/
structure Processor where
  registers : CoreRegisters
  cacheSize : ℕ
  by64 : ShiftBy64
  deriving DecidableEq, Repr

/-! ### The pointers -/

/-- The pointers `gs_*` that the constructor may replace. -/
structure Pointers where
  gsMemMove : Memory → ℕ → ℕ → ℕ → Option Memory
  gsFillU64 : Memory → BitVec 64 → ℕ → ℕ → Option Memory
  gsCompare : Memory → ℕ → ℕ → ℕ → Option (ℕ × ℕ)
  gsComparePattern : Memory → BitVec 64 → ℕ → ℕ → Option (ℕ × ℕ)
  gsCrcU32 : Memory → ℕ → ℕ → BitVec 32 → BitVec 32 → Option (BitVec 32)
  gsCrcReflectedU32 : Memory → ℕ → ℕ → BitVec 32 → BitVec 32 → Option (BitVec 32)
  gsCacheFlush : ℕ → ℕ → List (Instruction ℕ)
  gsCacheWriteBack : ℕ → ℕ → List (Instruction ℕ)

/-- What the pointers are initialised with. -/
def initialPointers : Pointers where
  gsMemMove m src dst transferSize := some (dmlRefMemMove m src dst transferSize)
  gsFillU64 m pattern dst transferSize := some (dmlRefFillU64 m pattern.toNat dst transferSize)
  gsCompare m src1 src2 transferSize := some (dmlRefCompare m src1 src2 transferSize)
  gsComparePattern m pattern src transferSize :=
    some (dmlRefComparePattern m pattern.toNat src transferSize)
  gsCrcU32 m src transferSize crcValue polynomial :=
    some (dmlRefCrc32u m src transferSize crcValue polynomial)
  gsCrcReflectedU32 m src transferSize crcValue polynomial :=
    some (dmlRefCrcReflectedU32 m src transferSize crcValue polynomial)
  gsCacheFlush := Issued.dmlClflush
  gsCacheWriteBack := Issued.dmlClwbUnsupported

/-- The constructor of `dispatcher`.  The comparisons are given the buffers they may read, and
more rounds than a loop that ends can make. -/
def dispatcher (cpu : Processor) : Pointers :=
  let gs := initialPointers
  let gs := if cpu.registers.hasAvx512 then
      { gs with
        gsMemMove := dmlAvx512MemMove cpu.cacheSize
        gsFillU64 := dmlAvx512FillU64 cpu.by64
        gsCompare := fun m src1 src2 transferSize =>
          dmlAvx512Compare (transferSize + 1) (window m src1 transferSize)
            (window m src2 transferSize) transferSize
        gsComparePattern := fun m pattern src transferSize =>
          dmlAvx512ComparePattern (transferSize + 1) pattern (window m src transferSize)
            transferSize
        gsCrcU32 := dmlAvx512CrcU32
        gsCrcReflectedU32 := dmlAvx512CrcReflectedU32 }
    else gs
  let gs := if cpu.registers.cacheFeatures.clflushopt then
      { gs with gsCacheFlush := Issued.dmlClflushopt }
    else gs
  if cpu.registers.cacheFeatures.clwb then { gs with gsCacheWriteBack := Issued.dmlClwb } else gs

/-! ### The kernels -/

namespace Dispatched

variable (gs : Pointers)

def memMove (m : Memory) (dsc : ℕ) : Option Memory := do
  let record := getCompletionRecord m dsc
  let src := AnyDescriptor.sourceAddress.get m dsc
  let dst := AnyDescriptor.destinationAddress.get m dsc
  let transferSize := AnyDescriptor.transferSize.get m dsc
  let m ← gs.gsMemMove m src dst transferSize
  some (Kernels.setStatus m record .success)

def fill (m : Memory) (dsc : ℕ) : Option Memory := do
  let record := getCompletionRecord m dsc
  let pattern := BitVec.ofNat 64 (FillDescriptor.pattern.get m dsc)
  let dst := AnyDescriptor.destinationAddress.get m dsc
  let transferSize := AnyDescriptor.transferSize.get m dsc
  let m ← gs.gsFillU64 m pattern dst transferSize
  some (Kernels.setStatus m record .success)

def compare (m : Memory) (dsc : ℕ) : Option Memory := do
  let record := getCompletionRecord m dsc
  let src1 := CompareDescriptor.source1Address.get m dsc
  let src2 := CompareDescriptor.source2Address.get m dsc
  let transferSize := AnyDescriptor.transferSize.get m dsc
  let expectedResult := CompareDescriptor.expectedResult.get m dsc
  let checkResult := intersects (AnyDescriptor.flags.get m dsc) Flag.checkResult
  let outcome ← gs.gsCompare m src1 src2 transferSize
  some (Kernels.completeCompare m record checkResult expectedResult outcome)

def comparePattern (m : Memory) (dsc : ℕ) : Option Memory := do
  let record := getCompletionRecord m dsc
  let pattern := BitVec.ofNat 64 (ComparePatternDescriptor.pattern.get m dsc)
  let src := AnyDescriptor.sourceAddress.get m dsc
  let transferSize := AnyDescriptor.transferSize.get m dsc
  let expectedResult := ComparePatternDescriptor.expectedResult.get m dsc
  let checkResult := intersects (AnyDescriptor.flags.get m dsc) Flag.checkResult
  let outcome ← gs.gsComparePattern m pattern src transferSize
  some (Kernels.completeCompare m record checkResult expectedResult outcome)

/-- The part of `crc` and `copy_crc` that computes the value. -/
def crcOf (m : Memory) (src transferSize : ℕ) (crcSeed : BitVec 32)
    (operationSpecificFlags : ℕ) : Option (BitVec 32) := do
  let bypassReflection :=
    intersects operationSpecificFlags CrcSpecificFlag.bypassCrcInversionAndReflection
  let bypassDataReflection := intersects operationSpecificFlags CrcSpecificFlag.bypassDataReflection
  let crcValue := if !bypassReflection then reverse32 (~~~crcSeed) else crcSeed
  let crcValue ← if !bypassDataReflection then
      gs.gsCrcReflectedU32 m src transferSize crcValue crcPolynomial
    else gs.gsCrcU32 m src transferSize crcValue crcPolynomial
  some (if !bypassReflection then ~~~(reverse32 crcValue) else crcValue)

def crc (m : Memory) (dsc : ℕ) : Option Memory := do
  let record := getCompletionRecord m dsc
  let src := AnyDescriptor.sourceAddress.get m dsc
  let transferSize := AnyDescriptor.transferSize.get m dsc
  let crcSeed := BitVec.ofNat 32 (CrcDescriptor.crcSeed.get m dsc)
  let flags := AnyDescriptor.operationSpecificFlags.get m dsc
  let crcValue ← crcOf gs m src transferSize crcSeed flags
  let m := CrcCompletionRecord.crcValue.set m record crcValue.toNat
  some (Kernels.setStatus m record .success)

def copyCrc (m : Memory) (dsc : ℕ) : Option Memory := do
  let record := getCompletionRecord m dsc
  let src := AnyDescriptor.sourceAddress.get m dsc
  let dst := AnyDescriptor.destinationAddress.get m dsc
  let transferSize := AnyDescriptor.transferSize.get m dsc
  let crcSeed := BitVec.ofNat 32 (CrcDescriptor.crcSeed.get m dsc)
  let flags := AnyDescriptor.operationSpecificFlags.get m dsc
  let m ← gs.gsMemMove m src dst transferSize
  let crcValue ← crcOf gs m src transferSize crcSeed flags
  let m := CrcCompletionRecord.crcValue.set m record crcValue.toNat
  some (Kernels.setStatus m record .success)

/-- The memory after a flush, and the instructions it issues. -/
def cacheFlush (m : Memory) (dsc : ℕ) : Memory × List (Instruction ℕ) :=
  let record := getCompletionRecord m dsc
  let dst := AnyDescriptor.destinationAddress.get m dsc
  let transferSize := AnyDescriptor.transferSize.get m dsc
  let invalidateCache := cacheControl m dsc
  let issued := if invalidateCache then gs.gsCacheFlush dst transferSize
    else gs.gsCacheWriteBack dst transferSize
  (Kernels.setStatus m record .success, issued ++ [.mfence])

/-- The `switch` of the batch kernel; `some none` is its `default` branch. -/
def batchSwitch (m : Memory) (dsc : ℕ) : Option (Option Memory) :=
  match operationOf m dsc with
  | some .nop => some (some (Kernels.nop m dsc))
  | some .memMove => (memMove gs m dsc).map some
  | some .fill => (fill gs m dsc).map some
  | some .compare => (compare gs m dsc).map some
  | some .comparePattern => (comparePattern gs m dsc).map some
  | some .createDelta => some (some (Kernels.createDelta m dsc))
  | some .applyDelta => some (some (Kernels.applyDelta m dsc))
  | some .dualcast => some (some (Kernels.dualcast m dsc))
  | some .crc => (crc gs m dsc).map some
  | some .copyCrc => (copyCrc gs m dsc).map some
  | some .difCheck => some (some (Kernels.difCheck m dsc))
  | some .difInsert => some (some (Kernels.difInsert m dsc))
  | some .difStrip => some (some (Kernels.difStrip m dsc))
  | some .difUpdate => some (some (Kernels.difUpdate m dsc))
  | some .cacheFlush => some (some (cacheFlush gs m dsc).1)
  | some .batch | some .drain | none => some none

/-- One iteration of the batch loop; `error none` when the kernel does not come back. -/
def batchStep (operations index : ℕ) (m : Memory) : Except (Option (Memory × ℕ)) Memory :=
  let currentDsc := operations + descriptorSize * index
  let currentRecord := getCompletionRecord m currentDsc
  match batchSwitch gs m currentDsc with
  | none => .error none
  | some ran =>
    let m := ran.getD m
    if AnyCompletionRecord.status.get m currentRecord ≠ ExecutionStatus.success.toUnderlying then
      .error (some (m, index))
    else if ran.isNone then
      .error (some (m, index + 1))
    else
      .ok m

def batch (m : Memory) (dsc : ℕ) : Option Memory := do
  let record := getCompletionRecord m dsc
  let operations := BatchDescriptor.descriptorListAddress.get m dsc
  let descriptorsCount := BatchDescriptor.descriptorsCount.get m dsc
  let (m, index) ← match Loop.iterUntil (batchStep gs operations) descriptorsCount m with
    | .ok m => some (m, descriptorsCount)
    | .error left => left
  let status := if index = descriptorsCount then ExecutionStatus.success else .batchError
  let m := BatchCompletionRecord.descriptorsCompleted.set m record index
  some (Kernels.setStatus m record status)

/-- `software_device::submit`. -/
def submit (m : Memory) (dsc : ℕ) : Option (Memory × SubmissionStatus) :=
  match operationOf m dsc with
  | some .nop => some (Kernels.nop m dsc, .success)
  | some .batch => (batch gs m dsc).map (·, .success)
  | some .drain => some (Kernels.drain m dsc, .success)
  | some .memMove => (memMove gs m dsc).map (·, .success)
  | some .fill => (fill gs m dsc).map (·, .success)
  | some .compare => (compare gs m dsc).map (·, .success)
  | some .comparePattern => (comparePattern gs m dsc).map (·, .success)
  | some .createDelta => some (Kernels.createDelta m dsc, .success)
  | some .applyDelta => some (Kernels.applyDelta m dsc, .success)
  | some .dualcast => some (Kernels.dualcast m dsc, .success)
  | some .crc => (crc gs m dsc).map (·, .success)
  | some .copyCrc => (copyCrc gs m dsc).map (·, .success)
  | some .difCheck => some (Kernels.difCheck m dsc, .success)
  | some .difInsert => some (Kernels.difInsert m dsc, .success)
  | some .difStrip => some (Kernels.difStrip m dsc, .success)
  | some .difUpdate => some (Kernels.difUpdate m dsc, .success)
  | some .cacheFlush => some ((cacheFlush gs m dsc).1, .success)
  | none => some (m, .failure)

end Dispatched

/-! ### The pointers against the reference functions -/

/-- The comparison of the processor ends: a vector processor needs the size to be below the wrap
of its counter, or a difference before that. -/
def ComparisonEnds (cpu : Processor) (m : Memory) (src1 src2 transferSize : ℕ) : Prop :=
  cpu.registers.hasAvx512 = true → StopsBeforeWrap m src1 src2 transferSize

/-- Each pointer computes its reference function, the comparison where it ends. -/
structure Agrees (cpu : Processor) (gs : Pointers) : Prop where
  memMove : ∀ m src dst n, n < 2 ^ 32 →
    gs.gsMemMove m src dst n = some (dmlRefMemMove m src dst n)
  fillU64 : ∀ m pattern dst n,
    gs.gsFillU64 m pattern dst n = some (dmlRefFillU64 m pattern.toNat dst n)
  compare : ∀ m src1 src2 n, n < 2 ^ 32 → ComparisonEnds cpu m src1 src2 n →
    gs.gsCompare m src1 src2 n = some (dmlRefCompare m src1 src2 n)
  compare_none : ∀ m src1 src2 n, n < 2 ^ 32 → ¬ComparisonEnds cpu m src1 src2 n →
    gs.gsCompare m src1 src2 n = none
  comparePattern : ∀ m pattern src n, n < 2 ^ 32 →
    gs.gsComparePattern m pattern src n = some (dmlRefComparePattern m pattern.toNat src n)
  crcU32 : ∀ m src n crcValue,
    gs.gsCrcU32 m src n crcValue crcPolynomial = some (dmlRefCrc32u m src n crcValue crcPolynomial)
  crcReflectedU32 : ∀ m src n crcValue, gs.gsCrcReflectedU32 m src n crcValue crcPolynomial
    = some (dmlRefCrcReflectedU32 m src n crcValue crcPolynomial)
  cacheFlush : gs.gsCacheFlush = dispatchCacheFlush cpu.registers.cacheFeatures
  cacheWriteBack : gs.gsCacheWriteBack = dispatchCacheWriteBack cpu.registers.cacheFeatures

/-- The cache functions depend on two features of their own. -/
theorem dispatcher_cache (cpu : Processor) :
    (dispatcher cpu).gsCacheFlush = dispatchCacheFlush cpu.registers.cacheFeatures
      ∧ (dispatcher cpu).gsCacheWriteBack
        = dispatchCacheWriteBack cpu.registers.cacheFeatures := by
  constructor <;> funext dst n <;>
    cases h512 : cpu.registers.hasAvx512 <;>
    cases hflush : cpu.registers.cacheFeatures.clflushopt <;>
    cases hclwb : cpu.registers.cacheFeatures.clwb <;>
    simp [dispatcher, dispatchCacheFlush, dispatchCacheWriteBack, initialPointers, h512, hflush,
      hclwb]

/-- Without AVX-512 the other pointers keep their initial values. -/
theorem dispatcher_reference {cpu : Processor} (h : cpu.registers.hasAvx512 = false) :
    ∃ flush writeBack, dispatcher cpu
      = { initialPointers with gsCacheFlush := flush, gsCacheWriteBack := writeBack } := by
  refine ⟨(dispatcher cpu).gsCacheFlush, (dispatcher cpu).gsCacheWriteBack, ?_⟩
  cases hflush : cpu.registers.cacheFeatures.clflushopt <;>
    cases hclwb : cpu.registers.cacheFeatures.clwb <;>
    simp [dispatcher, h, hflush, hclwb]

/-- With AVX-512 they are the vector functions. -/
theorem dispatcher_avx512 {cpu : Processor} (h : cpu.registers.hasAvx512 = true) :
    (dispatcher cpu).gsMemMove = dmlAvx512MemMove cpu.cacheSize
      ∧ (dispatcher cpu).gsFillU64 = dmlAvx512FillU64 cpu.by64
      ∧ (dispatcher cpu).gsCompare = (fun m src1 src2 n =>
          dmlAvx512Compare (n + 1) (window m src1 n) (window m src2 n) n)
      ∧ (dispatcher cpu).gsComparePattern = (fun m pattern src n =>
          dmlAvx512ComparePattern (n + 1) pattern (window m src n) n)
      ∧ (dispatcher cpu).gsCrcU32 = dmlAvx512CrcU32
      ∧ (dispatcher cpu).gsCrcReflectedU32 = dmlAvx512CrcReflectedU32 := by
  cases hflush : cpu.registers.cacheFeatures.clflushopt <;>
    cases hclwb : cpu.registers.cacheFeatures.clwb <;>
    simp [dispatcher, h, hflush, hclwb]

/-- **The pointers of every processor compute the reference functions.** -/
theorem agrees_dispatcher (cpu : Processor) : Agrees cpu (dispatcher cpu) := by
  obtain ⟨hflush, hwriteBack⟩ := dispatcher_cache cpu
  cases h : cpu.registers.hasAvx512 with
  | false =>
    have hends : ∀ m src1 src2 n, ComparisonEnds cpu m src1 src2 n := by
      intro m src1 src2 n h'
      rw [h] at h'
      cases h'
    obtain ⟨flush, writeBack, heq⟩ := dispatcher_reference h
    refine ⟨?_, ?_, ?_, fun m src1 src2 n _ hnot => absurd (hends m src1 src2 n) hnot, ?_, ?_, ?_,
      hflush, hwriteBack⟩ <;> rw [heq] <;> intros <;> rfl
  | true =>
    have hends : ∀ m src1 src2 n,
        ComparisonEnds cpu m src1 src2 n ↔ StopsBeforeWrap m src1 src2 n :=
      fun m src1 src2 n => ⟨fun hend => hend h, fun hstop _ => hstop⟩
    obtain ⟨hmove, hfill, hcompare, hpattern, hcrc, hreflected⟩ := dispatcher_avx512 h
    refine ⟨?_, ?_, ?_, ?_, ?_, ?_, ?_, hflush, hwriteBack⟩
    · intro m src dst n hn
      rw [hmove, dmlAvx512MemMove_eq cpu.cacheSize m src dst hn, dmlRefMemMove_eq m src dst hn]
    · intro m pattern dst n
      rw [hfill, dmlRefFillU64_eq_filled, dmlAvx512FillU64]
      split
      · next hsmall => rw [fillSmallAvx512_eq m pattern dst hsmall]
      · next hbig => exact fillBigAvx512_eq cpu.by64 m pattern dst (by omega)
    · intro m src1 src2 n hn hend
      rw [hcompare]
      exact dmlAvx512Compare_window hn ((hends m src1 src2 n).mp hend) (Nat.lt_succ_self n)
    · intro m src1 src2 n hn hnot
      rw [hcompare]
      exact dmlAvx512Compare_window_eq_none hn
        (fun hstop => hnot ((hends m src1 src2 n).mpr hstop)) _
    · intro m pattern src n hn
      rw [hpattern]
      exact dmlAvx512ComparePattern_window hn (Nat.lt_succ_self n)
    · intro m src n crcValue
      rw [hcrc]
      exact ownCalculateCrc_eq reflectsBytes_id (ownCrc32LongLeK0_eq m src n crcValue)
    · intro m src n crcValue
      rw [hreflected, dmlRefCrcReflectedU32_eq]
      exact ownCalculateCrc_eq reflectsBytes_dRefl (ownCrc32LongBeK0_eq m src n crcValue)

/-! ### The kernels against the reference kernels -/

/-- The kernel of a descriptor comes back: if it is a comparison, that one ends. -/
def KernelComesBack (cpu : Processor) (m : Memory) (dsc : ℕ) : Prop :=
  operationOf m dsc = some .compare →
    ComparisonEnds cpu m (CompareDescriptor.source1Address.get m dsc)
      (CompareDescriptor.source2Address.get m dsc) (AnyDescriptor.transferSize.get m dsc)

/-- The memory with which the batch loop reaches descriptor `i`, if it does. -/
def batchReaches (m : Memory) (operations i : ℕ) : Except (Memory × ℕ) Memory :=
  Loop.iterUntil (Kernels.batchStep operations) i m

/-- The kernel of a descriptor comes back; for a batch, that of every descriptor of the list
that its loop reaches. -/
structure ComesBack (cpu : Processor) (m : Memory) (dsc : ℕ) : Prop where
  single : KernelComesBack cpu m dsc
  batch : operationOf m dsc = some .batch →
    ∀ i t, i < BatchDescriptor.descriptorsCount.get m dsc →
      batchReaches m (BatchDescriptor.descriptorListAddress.get m dsc) i = .ok t →
      KernelComesBack cpu t
        (BatchDescriptor.descriptorListAddress.get m dsc + descriptorSize * i)

namespace Dispatched

/-- A pattern of 64 bits is the number the descriptor holds. -/
theorem toNat_ofNat_get {f : Field} (hf : f.width = 8) (m : Memory) (dsc : ℕ) :
    (BitVec.ofNat 64 (f.get m dsc)).toNat = f.get m dsc := by
  have hlt := f.get_lt m dsc
  rw [hf] at hlt
  rw [BitVec.toNat_ofNat]
  exact Nat.mod_eq_of_lt hlt

section Agrees

variable {cpu : Processor} {gs : Pointers} (h : Agrees cpu gs) (m : Memory) (dsc : ℕ)
include h

theorem memMove_eq : memMove gs m dsc = some (Kernels.memMove m dsc) := by
  simp only [memMove, h.memMove _ _ _ _ (transferSize_lt m dsc), Option.bind_eq_bind,
    Option.bind_some, Kernels.memMove]

theorem fill_eq : fill gs m dsc = some (Kernels.fill m dsc) := by
  simp only [fill, h.fillU64, Option.bind_eq_bind, Option.bind_some, Kernels.fill,
    @toNat_ofNat_get FillDescriptor.pattern rfl]

theorem compare_eq (hends : ComparisonEnds cpu m (CompareDescriptor.source1Address.get m dsc)
      (CompareDescriptor.source2Address.get m dsc) (AnyDescriptor.transferSize.get m dsc)) :
    compare gs m dsc = some (Kernels.compare m dsc) := by
  simp only [compare, h.compare _ _ _ _ (transferSize_lt m dsc) hends, Option.bind_eq_bind,
    Option.bind_some, Kernels.compare]

theorem compare_eq_none
    (hnot : ¬ComparisonEnds cpu m (CompareDescriptor.source1Address.get m dsc)
      (CompareDescriptor.source2Address.get m dsc) (AnyDescriptor.transferSize.get m dsc)) :
    compare gs m dsc = none := by
  simp only [compare, h.compare_none _ _ _ _ (transferSize_lt m dsc) hnot, Option.bind_eq_bind,
    Option.bind_none]

theorem comparePattern_eq : comparePattern gs m dsc = some (Kernels.comparePattern m dsc) := by
  simp only [comparePattern, h.comparePattern _ _ _ _ (transferSize_lt m dsc), Option.bind_eq_bind,
    Option.bind_some, Kernels.comparePattern,
    @toNat_ofNat_get ComparePatternDescriptor.pattern rfl]

omit dsc in
theorem crcOf_eq (src n : ℕ) (seed : BitVec 32) (flags : ℕ) :
    crcOf gs m src n seed flags = some (Kernels.crcOf m src n seed flags) := by
  unfold crcOf Kernels.crcOf
  cases intersects flags CrcSpecificFlag.bypassDataReflection <;>
    simp only [Bool.not_true, Bool.not_false, Bool.false_eq_true, if_true, if_false, h.crcU32,
      h.crcReflectedU32, Option.bind_eq_bind, Option.bind_some]

theorem crc_eq : crc gs m dsc = some (Kernels.crc m dsc) := by
  simp only [crc, crcOf_eq h, Option.bind_eq_bind, Option.bind_some, Kernels.crc]

theorem copyCrc_eq : copyCrc gs m dsc = some (Kernels.copyCrc m dsc) := by
  simp only [copyCrc, h.memMove _ _ _ _ (transferSize_lt m dsc), crcOf_eq h, Option.bind_eq_bind,
    Option.bind_some, Kernels.copyCrc]

/-- The flush issues what the features of the processor say, and leaves the same memory. -/
theorem cacheFlush_eq : cacheFlush gs m dsc = runCacheFlush cpu.registers.cacheFeatures m dsc := by
  simp only [cacheFlush, h.cacheFlush, h.cacheWriteBack, runCacheFlush]

theorem cacheFlush_memory : (cacheFlush gs m dsc).1 = Kernels.cacheFlush m dsc := by
  rw [cacheFlush_eq h, runCacheFlush_memory]

/-- **One descriptor of a batch.** -/
theorem batchSwitch_eq (hback : KernelComesBack cpu m dsc) :
    batchSwitch gs m dsc = some (Kernels.batchSwitch m dsc) := by
  unfold batchSwitch Kernels.batchSwitch
  cases hop : operationOf m dsc with
  | none => rfl
  | some op =>
    cases op <;> simp only [memMove_eq h, fill_eq h, comparePattern_eq h, crc_eq h, copyCrc_eq h,
      cacheFlush_memory h, Option.map_some]
    -- the comparison is left
    rw [compare_eq h m dsc (hback hop)]
    rfl

theorem batchSwitch_eq_none (hnot : ¬KernelComesBack cpu m dsc) :
    batchSwitch gs m dsc = none := by
  rw [KernelComesBack, Classical.not_imp] at hnot
  obtain ⟨hop, hends⟩ := hnot
  rw [batchSwitch, hop]
  simp only [compare_eq_none h m dsc hends, Option.map_none]

/-- **One iteration of the batch loop.** -/
theorem batchStep_eq (operations index : ℕ)
    (hback : KernelComesBack cpu m (operations + descriptorSize * index)) :
    batchStep gs operations index m = (Kernels.batchStep operations index m).mapError some := by
  simp only [batchStep, batchSwitch_eq h _ _ hback, Kernels.batchStep]
  split
  · rfl
  · split <;> rfl

theorem batchStep_eq_none (operations index : ℕ)
    (hnot : ¬KernelComesBack cpu m (operations + descriptorSize * index)) :
    batchStep gs operations index m = .error none := by
  simp only [batchStep, batchSwitch_eq_none h _ _ hnot]

/-- **The batch loop** goes as that of the reference, unless a kernel it reaches does not come
back. -/
theorem batch_eq (hop : operationOf m dsc = some .batch) :
    (ComesBack cpu m dsc → batch gs m dsc = some (Kernels.batch m dsc))
      ∧ (¬ComesBack cpu m dsc → batch gs m dsc = none) := by
  obtain ⟨hsame, hnone⟩ := @Loop.iterUntil_partial _ _ _ _
    (fun i t => KernelComesBack cpu t
      (BatchDescriptor.descriptorListAddress.get m dsc + descriptorSize * i))
    (fun i t => batchStep_eq h t (BatchDescriptor.descriptorListAddress.get m dsc) i)
    (fun i t => batchStep_eq_none h t (BatchDescriptor.descriptorListAddress.get m dsc) i)
    (BatchDescriptor.descriptorsCount.get m dsc) m
  have hsingle : KernelComesBack cpu m dsc := by
    intro hcompare
    rw [hop] at hcompare
    cases hcompare
  constructor
  · intro hback
    simp only [batch, Kernels.batch, hsame (hback.batch hop)]
    cases Loop.iterUntil (Kernels.batchStep (BatchDescriptor.descriptorListAddress.get m dsc))
      (BatchDescriptor.descriptorsCount.get m dsc) m <;> rfl
  · intro hnot
    have hfails : ∃ i t, i < BatchDescriptor.descriptorsCount.get m dsc ∧
        batchReaches m (BatchDescriptor.descriptorListAddress.get m dsc) i = .ok t ∧
        ¬KernelComesBack cpu t
          (BatchDescriptor.descriptorListAddress.get m dsc + descriptorSize * i) := by
      by_contra hno
      push Not at hno
      exact hnot ⟨hsingle, fun _ i t hi ht => hno i t hi ht⟩
    simp only [batch, hnone hfails, Option.bind_eq_bind, Option.bind_none]

/-- **Any pointers that compute the reference functions** run a descriptor as the reference
does, unless a comparison does not end. -/
theorem submit_eq :
    (ComesBack cpu m dsc → submit gs m dsc = some (SoftwareDevice.submit m dsc))
      ∧ (¬ComesBack cpu m dsc → submit gs m dsc = none) := by
  unfold submit SoftwareDevice.submit
  cases hop : operationOf m dsc with
  | none =>
    refine ⟨fun _ => rfl, fun hnot => absurd ⟨fun hc => ?_, fun hb => ?_⟩ hnot⟩
    · rw [hop] at hc; cases hc
    · rw [hop] at hb; cases hb
  | some op =>
    cases op with
    | batch =>
      obtain ⟨hsame, hnone⟩ := batch_eq h m dsc hop
      exact ⟨fun hback => by simp only [hsame hback, Option.map_some],
        fun hnot => by simp only [hnone hnot, Option.map_none]⟩
    | compare =>
      constructor
      · intro hback
        simp only [compare_eq h m dsc (hback.single hop), Option.map_some]
      · intro hnot
        have hends : ¬ComparisonEnds cpu m (CompareDescriptor.source1Address.get m dsc)
            (CompareDescriptor.source2Address.get m dsc)
            (AnyDescriptor.transferSize.get m dsc) := by
          intro hends
          refine hnot ⟨fun _ => hends, fun hb => ?_⟩
          rw [hop] at hb
          cases hb
        simp only [compare_eq_none h m dsc hends, Option.map_none]
    | _ =>
      -- no other kernel fails to come back
      refine ⟨fun _ => ?_, fun hnot => absurd ⟨fun hc => ?_, fun hb => ?_⟩ hnot⟩
      · simp only [memMove_eq h, fill_eq h, comparePattern_eq h, crc_eq h, copyCrc_eq h,
          cacheFlush_memory h, Option.map_some]
      · rw [hop] at hc; cases hc
      · rw [hop] at hb; cases hb

end Agrees

end Dispatched

/-- **The software path is the same on every processor**: whatever features `cpuid` names,
whatever the cache size, `software_device::submit` leaves the memory and returns the status that
it does with the reference functions, for single descriptors and for batches.  There is no outcome
exactly where a comparison on a vector processor runs past the wrap of its counter: it then goes on
for ever, or reads behind its buffers. -/
theorem dispatched_submit (cpu : Processor) (m : Memory) (dsc : ℕ) :
    (ComesBack cpu m dsc →
        Dispatched.submit (dispatcher cpu) m dsc = some (SoftwareDevice.submit m dsc))
      ∧ (¬ComesBack cpu m dsc → Dispatched.submit (dispatcher cpu) m dsc = none) :=
  Dispatched.submit_eq (agrees_dispatcher cpu) m dsc

end DataMover
