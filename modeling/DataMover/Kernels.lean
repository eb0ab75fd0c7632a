import DataMover.Dif
import DataMover.Ref.Crc
import DataMover.Ref.Delta
import DataMover.Views

/-!
# The software kernels

The kernels of `core/src`, one per operation: each reads its descriptor, runs a
reference function on the operands and writes the completion record, the status
byte last.  `SoftwareDevice.submit` dispatches on the operation code.

A memory goes in and the memory after the kernel comes out.  The address of the
record is read before the operands are touched, as the source's `record` view is.

## Main definitions

* `Kernels.memMove`, …, `Kernels.cacheFlush` — the kernels.
* `Kernels.batch` — the loop over a list of descriptors.
* `SoftwareDevice.submit` — the dispatch.
-/

namespace DataMover

open ByteMemory

namespace Kernels

/-- `record.status() = to_underlying(status)`, the last write of every kernel. -/
def setStatus (m : Memory) (record : ℕ) (status : ExecutionStatus) : Memory :=
  AnyCompletionRecord.status.set m record status.toUnderlying

/-! ### Kernels without operands -/

def nop (m : Memory) (dsc : ℕ) : Memory :=
  let record := getCompletionRecord m dsc
  setStatus m record .success

def drain (m : Memory) (dsc : ℕ) : Memory :=
  let record := getCompletionRecord m dsc
  setStatus m record .success

/-! ### Kernels that write data -/

def memMove (m : Memory) (dsc : ℕ) : Memory :=
  let record := getCompletionRecord m dsc
  let src := AnyDescriptor.sourceAddress.get m dsc
  let dst := AnyDescriptor.destinationAddress.get m dsc
  let transferSize := AnyDescriptor.transferSize.get m dsc
  let m := dmlRefMemMove m src dst transferSize
  setStatus m record .success

def fill (m : Memory) (dsc : ℕ) : Memory :=
  let record := getCompletionRecord m dsc
  let pattern := FillDescriptor.pattern.get m dsc
  let dst := AnyDescriptor.destinationAddress.get m dsc
  let transferSize := AnyDescriptor.transferSize.get m dsc
  let m := dmlRefFillU64 m pattern dst transferSize
  setStatus m record .success

def applyDelta (m : Memory) (dsc : ℕ) : Memory :=
  let record := getCompletionRecord m dsc
  let dst := AnyDescriptor.destinationAddress.get m dsc
  let deltaRecord := ApplyDeltaDescriptor.deltaRecordAddress.get m dsc
  let deltaRecordSize := ApplyDeltaDescriptor.deltaRecordSize.get m dsc
  let m := dmlRefApplyDelta m deltaRecord dst deltaRecordSize
  setStatus m record .success

def dualcast (m : Memory) (dsc : ℕ) : Memory :=
  let record := getCompletionRecord m dsc
  let src := AnyDescriptor.sourceAddress.get m dsc
  let dst1 := DualcastDescriptor.destination1Address.get m dsc
  let dst2 := DualcastDescriptor.destination2Address.get m dsc
  let transferSize := AnyDescriptor.transferSize.get m dsc
  let m := dmlRefDualcast m src dst1 dst2 transferSize
  setStatus m record .success

/-- `dml_clflush` evicts cache lines; the contents of memory stay. -/
def dmlClflush (m : Memory) (_dst _transferSize : ℕ) : Memory := m

/-- `dml_clwb_unsupported` ignores its arguments. -/
def dmlClwbUnsupported (m : Memory) (_dst _transferSize : ℕ) : Memory := m

def cacheFlush (m : Memory) (dsc : ℕ) : Memory :=
  let record := getCompletionRecord m dsc
  let dst := AnyDescriptor.destinationAddress.get m dsc
  let transferSize := AnyDescriptor.transferSize.get m dsc
  let invalidateCache := intersects (AnyDescriptor.flags.get m dsc) Flag.cacheControl
  let m := if invalidateCache then dmlClflush m dst transferSize
    else dmlClwbUnsupported m dst transferSize
  setStatus m record .success

/-! ### Kernels that compare -/

/-- The status of a comparison: the result against the expected one, when the
descriptor asks for the check. -/
def compareStatus (checkResult : Bool) (expectedResult result : ℕ) : ExecutionStatus :=
  if checkResult then
    if expectedResult = result then .success else .falsePredicateSuccess
  else .success

/-- `std::tie(record.bytes_completed(), record.result()) = outcome`, and the
status read off the record. -/
def completeCompare (m : Memory) (record : ℕ) (checkResult : Bool) (expectedResult : ℕ)
    (outcome : ℕ × ℕ) : Memory :=
  let m := AnyCompletionRecord.bytesCompleted.set m record outcome.1
  let m := AnyCompletionRecord.result.set m record outcome.2
  setStatus m record
    (compareStatus checkResult expectedResult (AnyCompletionRecord.result.get m record))

def compare (m : Memory) (dsc : ℕ) : Memory :=
  let record := getCompletionRecord m dsc
  let src1 := CompareDescriptor.source1Address.get m dsc
  let src2 := CompareDescriptor.source2Address.get m dsc
  let transferSize := AnyDescriptor.transferSize.get m dsc
  let expectedResult := CompareDescriptor.expectedResult.get m dsc
  let checkResult := intersects (AnyDescriptor.flags.get m dsc) Flag.checkResult
  completeCompare m record checkResult expectedResult (dmlRefCompare m src1 src2 transferSize)

def comparePattern (m : Memory) (dsc : ℕ) : Memory :=
  let record := getCompletionRecord m dsc
  let pattern := ComparePatternDescriptor.pattern.get m dsc
  let src := AnyDescriptor.sourceAddress.get m dsc
  let transferSize := AnyDescriptor.transferSize.get m dsc
  let expectedResult := ComparePatternDescriptor.expectedResult.get m dsc
  let checkResult := intersects (AnyDescriptor.flags.get m dsc) Flag.checkResult
  completeCompare m record checkResult expectedResult
    (dmlRefComparePattern m pattern src transferSize)

/-- The status of a delta: a mask of expected results rather than one result. -/
def createDeltaStatus (checkResult : Bool) (expectedResult result : ℕ) : ExecutionStatus :=
  if checkResult then
    if expectedResult = 0b000 then .falsePredicateSuccess
    else if expectedResult = 0b111 then .success
    else if expectedResult >>> 1 = result then .success else .falsePredicateSuccess
  else .success

def createDelta (m : Memory) (dsc : ℕ) : Memory :=
  let record := getCompletionRecord m dsc
  let src1 := CreateDeltaDescriptor.source1Address.get m dsc
  let src2 := CreateDeltaDescriptor.source2Address.get m dsc
  let deltaRecord := CreateDeltaDescriptor.deltaRecordAddress.get m dsc
  let deltaMaxSize := CreateDeltaDescriptor.maximumDeltaRecordSize.get m dsc
  let transferSize := AnyDescriptor.transferSize.get m dsc
  let expectedResult := CreateDeltaDescriptor.expectedResultMask.get m dsc &&& 0b111
  let checkResult := intersects (AnyDescriptor.flags.get m dsc) Flag.checkResult
  let (m, deltaRecordSize, result) :=
    dmlRefCreateDelta m src1 src2 transferSize deltaRecord deltaMaxSize
  let m := CreateDeltaCompletionRecord.deltaRecordSize.set m record deltaRecordSize
  let m := AnyCompletionRecord.result.set m record result
  setStatus m record
    (createDeltaStatus checkResult expectedResult (AnyCompletionRecord.result.get m record))

/-! ### CRC -/

/-- The CRC of the `transferSize` bytes at `src`, with the inversion, the
reflection and the data reflection the flags ask for. -/
def crcOf (m : Memory) (src transferSize : ℕ) (crcSeed : BitVec 32)
    (operationSpecificFlags : ℕ) : BitVec 32 :=
  let bypassReflection :=
    intersects operationSpecificFlags CrcSpecificFlag.bypassCrcInversionAndReflection
  let bypassDataReflection := intersects operationSpecificFlags CrcSpecificFlag.bypassDataReflection
  let crcValue := if !bypassReflection then reverse32 (~~~crcSeed) else crcSeed
  let crcValue := if !bypassDataReflection then
      dmlRefCrcReflectedU32 m src transferSize crcValue crcPolynomial
    else dmlRefCrc32u m src transferSize crcValue crcPolynomial
  if !bypassReflection then ~~~(reverse32 crcValue) else crcValue

def crc (m : Memory) (dsc : ℕ) : Memory :=
  let record := getCompletionRecord m dsc
  let src := AnyDescriptor.sourceAddress.get m dsc
  let transferSize := AnyDescriptor.transferSize.get m dsc
  let crcSeed := BitVec.ofNat 32 (CrcDescriptor.crcSeed.get m dsc)
  let flags := AnyDescriptor.operationSpecificFlags.get m dsc
  let crcValue := crcOf m src transferSize crcSeed flags
  let m := CrcCompletionRecord.crcValue.set m record crcValue.toNat
  setStatus m record .success

def copyCrc (m : Memory) (dsc : ℕ) : Memory :=
  let record := getCompletionRecord m dsc
  let src := AnyDescriptor.sourceAddress.get m dsc
  let dst := AnyDescriptor.destinationAddress.get m dsc
  let transferSize := AnyDescriptor.transferSize.get m dsc
  let crcSeed := BitVec.ofNat 32 (CrcDescriptor.crcSeed.get m dsc)
  let flags := AnyDescriptor.operationSpecificFlags.get m dsc
  let m := dmlRefMemMove m src dst transferSize
  -- the source is read again, after the copy
  let crcValue := crcOf m src transferSize crcSeed flags
  let m := CrcCompletionRecord.crcValue.set m record crcValue.toNat
  setStatus m record .success

/-! ### Data integrity fields -/

/-- `static_cast<dml_dif_block_size_t>(dif_options & 0b11)`. -/
def difBlockSize (difOptions : ℕ) : Fin 4 := Fin.ofNat 4 (difOptions &&& 0b11)

/-- The source half of `dml_dif_config_t`, from the descriptor; the job is
zeroed first, so the destination half of a check or a strip is zero. -/
def sourceDifConfig (m : Memory) (dsc : ℕ) : DifConfig where
  flags := DifDescriptor.difFlags.get m dsc <<< 16 ||| DifDescriptor.sourceDifFlags.get m dsc
  sourceReferenceTagSeed := BitVec.ofNat 32 (DifDescriptor.sourceRefTag.get m dsc)
  sourceApplicationTagSeed := BitVec.ofNat 16 (DifDescriptor.sourceAppTag.get m dsc)
  sourceApplicationTagMask := BitVec.ofNat 16 (DifDescriptor.sourceAppTagMask.get m dsc)
  destinationReferenceTagSeed := 0#32
  destinationApplicationTagSeed := 0#16
  destinationApplicationTagMask := 0#16
  blockSize := difBlockSize (DifDescriptor.difFlags.get m dsc)

/-- The destination half, for an insert. -/
def destinationDifConfig (m : Memory) (dsc : ℕ) : DifConfig where
  flags := DifDescriptor.difFlags.get m dsc <<< 16
    ||| DifDescriptor.destinationDifFlags.get m dsc <<< 8
  sourceReferenceTagSeed := 0#32
  sourceApplicationTagSeed := 0#16
  sourceApplicationTagMask := 0#16
  destinationReferenceTagSeed := BitVec.ofNat 32 (DifDescriptor.destinationRefTag.get m dsc)
  destinationApplicationTagSeed := BitVec.ofNat 16 (DifDescriptor.destinationAppTag.get m dsc)
  destinationApplicationTagMask := BitVec.ofNat 16 (DifDescriptor.destinationAppTagMask.get m dsc)
  blockSize := difBlockSize (DifDescriptor.difFlags.get m dsc)

/-- Both halves, for an update. -/
def updateDifConfig (m : Memory) (dsc : ℕ) : DifConfig where
  flags := DifDescriptor.difFlags.get m dsc <<< 16
    ||| DifDescriptor.destinationDifFlags.get m dsc <<< 8
    ||| DifDescriptor.sourceDifFlags.get m dsc
  sourceReferenceTagSeed := BitVec.ofNat 32 (DifDescriptor.sourceRefTag.get m dsc)
  sourceApplicationTagSeed := BitVec.ofNat 16 (DifDescriptor.sourceAppTag.get m dsc)
  sourceApplicationTagMask := BitVec.ofNat 16 (DifDescriptor.sourceAppTagMask.get m dsc)
  destinationReferenceTagSeed := BitVec.ofNat 32 (DifDescriptor.destinationRefTag.get m dsc)
  destinationApplicationTagSeed := BitVec.ofNat 16 (DifDescriptor.destinationAppTag.get m dsc)
  destinationApplicationTagMask := BitVec.ofNat 16 (DifDescriptor.destinationAppTagMask.get m dsc)
  blockSize := difBlockSize (DifDescriptor.difFlags.get m dsc)

/-- The job of a check: no destination. -/
def difCheckJob (m : Memory) (dsc : ℕ) : DmlJob where
  sourceFirstPtr := AnyDescriptor.sourceAddress.get m dsc
  destinationFirstPtr := 0
  sourceLength := AnyDescriptor.transferSize.get m dsc
  offset := 0
  result := 0
  difConfig := sourceDifConfig m dsc

/-- The job of an operation with a destination. -/
def difJob (m : Memory) (dsc : ℕ) (cfg : DifConfig) : DmlJob where
  sourceFirstPtr := AnyDescriptor.sourceAddress.get m dsc
  destinationFirstPtr := AnyDescriptor.destinationAddress.get m dsc
  sourceLength := AnyDescriptor.transferSize.get m dsc
  offset := 0
  result := 0
  difConfig := cfg

/-- The status the record gets for a status of the DIF functions. -/
def difStatus : DmlStatus → ExecutionStatus
  | .ok => .success
  | .difCheckError => .difControlError

/-- The record of a check, a strip or an update. -/
def completeDif (m : Memory) (record : ℕ) (status : DmlStatus) (job : DmlJob) : Memory :=
  let m := DifCompletionRecord.difStatus.set m record job.result
  let m := AnyCompletionRecord.bytesCompleted.set m record job.offset
  setStatus m record (difStatus status)

def difCheck (m : Memory) (dsc : ℕ) : Memory :=
  let record := getCompletionRecord m dsc
  let (status, job) := dmlLegacyDifCheck m (difCheckJob m dsc)
  completeDif m record status job

/-- The insert kernel never fails and has no `dif_status` to write. -/
def difInsert (m : Memory) (dsc : ℕ) : Memory :=
  let record := getCompletionRecord m dsc
  let job := difJob m dsc (destinationDifConfig m dsc)
  let m := dmlLegacyDifInsert m job
  let m := AnyCompletionRecord.bytesCompleted.set m record job.offset
  setStatus m record (difStatus .ok)

def difStrip (m : Memory) (dsc : ℕ) : Memory :=
  let record := getCompletionRecord m dsc
  let (status, m, job) := dmlLegacyDifStrip m (difJob m dsc (sourceDifConfig m dsc))
  completeDif m record status job

def difUpdate (m : Memory) (dsc : ℕ) : Memory :=
  let record := getCompletionRecord m dsc
  let (status, m, job) := dmlLegacyDifUpdate m (difJob m dsc (updateDifConfig m dsc))
  completeDif m record status job

/-! ### Batch -/

/-- The `switch` of the batch kernel; `none` is its `default` branch, which also
takes the operations a batch does not support. -/
def batchSwitch (m : Memory) (dsc : ℕ) : Option Memory :=
  match operationOf m dsc with
  | some .nop => some (nop m dsc)
  | some .memMove => some (memMove m dsc)
  | some .fill => some (fill m dsc)
  | some .compare => some (compare m dsc)
  | some .comparePattern => some (comparePattern m dsc)
  | some .createDelta => some (createDelta m dsc)
  | some .applyDelta => some (applyDelta m dsc)
  | some .dualcast => some (dualcast m dsc)
  | some .crc => some (crc m dsc)
  | some .copyCrc => some (copyCrc m dsc)
  | some .difCheck => some (difCheck m dsc)
  | some .difInsert => some (difInsert m dsc)
  | some .difStrip => some (difStrip m dsc)
  | some .difUpdate => some (difUpdate m dsc)
  | some .cacheFlush => some (cacheFlush m dsc)
  | some .batch | some .drain | none => none

/-- One iteration of the batch loop.  `error` carries the memory and the index
with which the loop is left, its status being *batch error* from then on. -/
def batchStep (operations index : ℕ) (m : Memory) : Except (Memory × ℕ) Memory :=
  let currentDsc := operations + descriptorSize * index
  let currentRecord := getCompletionRecord m currentDsc
  let ran := batchSwitch m currentDsc
  let m := ran.getD m
  if AnyCompletionRecord.status.get m currentRecord ≠ ExecutionStatus.success.toUnderlying then
    .error (m, index)
  else if ran.isNone then
    -- the record already said *success*: the index still advances
    .error (m, index + 1)
  else
    .ok m

def batch (m : Memory) (dsc : ℕ) : Memory :=
  let record := getCompletionRecord m dsc
  let operations := BatchDescriptor.descriptorListAddress.get m dsc
  let descriptorsCount := BatchDescriptor.descriptorsCount.get m dsc
  let (m, index) := match Loop.iterUntil (batchStep operations) descriptorsCount m with
    | .ok m => (m, descriptorsCount)
    | .error (m, index) => (m, index)
  let status := if index = descriptorsCount then ExecutionStatus.success else .batchError
  let m := BatchCompletionRecord.descriptorsCompleted.set m record index
  setStatus m record status

end Kernels

/-! ### The software device -/

/-- `software_device::submit`: the kernel of the operation, run to its end. -/
def SoftwareDevice.submit (m : Memory) (dsc : ℕ) : Memory × SubmissionStatus :=
  match operationOf m dsc with
  | some .nop => (Kernels.nop m dsc, .success)
  | some .batch => (Kernels.batch m dsc, .success)
  | some .drain => (Kernels.drain m dsc, .success)
  | some .memMove => (Kernels.memMove m dsc, .success)
  | some .fill => (Kernels.fill m dsc, .success)
  | some .compare => (Kernels.compare m dsc, .success)
  | some .comparePattern => (Kernels.comparePattern m dsc, .success)
  | some .createDelta => (Kernels.createDelta m dsc, .success)
  | some .applyDelta => (Kernels.applyDelta m dsc, .success)
  | some .dualcast => (Kernels.dualcast m dsc, .success)
  | some .crc => (Kernels.crc m dsc, .success)
  | some .copyCrc => (Kernels.copyCrc m dsc, .success)
  | some .difCheck => (Kernels.difCheck m dsc, .success)
  | some .difInsert => (Kernels.difInsert m dsc, .success)
  | some .difStrip => (Kernels.difStrip m dsc, .success)
  | some .difUpdate => (Kernels.difUpdate m dsc, .success)
  | some .cacheFlush => (Kernels.cacheFlush m dsc, .success)
  | none => (m, .failure)

end DataMover
