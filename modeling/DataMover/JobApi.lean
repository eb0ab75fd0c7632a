import DataMover.CoreInterconnect

/-!
# Waiting on a job

The functions of the C API that look at a submitted job: `dml::wait` and `dml::check`
(`c_api/include/impl.hpp`) wait or poll on the path of the job and then copy the outcome
from the completion record into the job (`write_result.hpp`), with the status of the
record translated to the status of the API (`status.hpp`).

The task of a job holds the descriptor and the record.  All fields of the job that the
outcome is copied to are here, and the checksum, which the caller has in memory.

## Main definitions

* `Job`, `JobStatus` — the part of `dml_job_t` these functions use, and their answers.
* `writeResult` — the outcome of an operation.
* `Job.wait`, `Job.check` — the two entry points.
-/

namespace DataMover

open ByteMemory

/-- The values of `dml_status_t` an execution status is translated to, and the answer of
a job that is still running. -/
inductive JobStatus
  | ok | falsePredicateOk | beingProcessed | pageFaultError | intlInvalidPageRequest | batchError
  | deltaAscendtError | deltaOffsetError | difCheckError | jobOperationError | jobFlagsError
  | intlInvalidReservedField | jobLengthError | batchSizeError | deltaInputSizeError
  | overlappingBufferError | dualcastAlignError | intlMisalignedDescLa
  | intlInvalidCompletionHandle | intlPageFaultOnTranslation | intlMisalignedCrAddress
  | intlMisalignedAddress | intlPrivilegeError | intlTrafficClassError
  | intlReadbackAddressPageError | intlHardwareReadbackTimeout | intlHardwareTimeout
  | intlAddressTranslationError | internalError
  deriving DecidableEq, Repr

/-- `to_own_status` of an execution status. -/
def toOwnStatus : Option ExecutionStatus → JobStatus
  | some .success => .ok
  | some .falsePredicateSuccess => .falsePredicateOk
  | some .pageFaultDuringProcessing => .pageFaultError
  | some .pageResponseError => .intlInvalidPageRequest
  | some .batchError => .batchError
  | some .batchPageFaultError => .pageFaultError
  | some .offsetOrderError => .deltaAscendtError
  | some .offsetOverflow => .deltaOffsetError
  | some .difControlError => .difCheckError
  | some .operationError => .jobOperationError
  | some .flagError => .jobFlagsError
  | some .nonZeroReservedFieldError => .intlInvalidReservedField
  | some .invalidTransferSizeError => .jobLengthError
  | some .descriptorCountError => .batchSizeError
  | some .deltaSizeError => .deltaInputSizeError
  | some .buffersOverlap => .overlappingBufferError
  | some .dualcastMisalignError => .dualcastAlignError
  | some .descriptorListAlignError => .intlMisalignedDescLa
  | some .invalidInterruptHandle => .intlInvalidCompletionHandle
  | some .pageFaultOnTranslation => .intlPageFaultOnTranslation
  | some .completionRecordAlignError => .intlMisalignedCrAddress
  | some .misalignAddressError => .intlMisalignedAddress
  | some .privilegeError => .intlPrivilegeError
  | some .trafficClassError => .intlTrafficClassError
  | some .readbackTranslationError => .intlReadbackAddressPageError
  | some .operationReadbackTimeout => .intlHardwareReadbackTimeout
  | some .hardwareTimeout => .intlHardwareTimeout
  | some .addressTranslationError => .intlAddressTranslationError
  | some .processing | none => .internalError

/-- The path of a job. -/
inductive ExecutionPath
  | software | hardware | automatic
  deriving DecidableEq, Repr

/-- The part of `dml_job_t` that waiting and checking use: the path and the task, its
descriptor and record, from the job's state; the caller's pointers; and the fields the
outcome is written to. -/
structure Job where
  path : ExecutionPath
  dsc : ℕ
  record : ℕ
  operation : Operation
  destinationFirstPtr : ℕ
  crcChecksumPtr : ℕ
  destinationLength : ℕ
  offset : ℕ
  result : ℕ
  deriving DecidableEq, Repr

/-! ### Reading a record -/

/-- `get_status`, without the two high bits. -/
def getStatus (m : Memory) (record : ℕ) : Option ExecutionStatus :=
  ExecutionStatus.ofUnderlying (0b111111 &&& AnyCompletionRecord.status.get m record)

def getResult (m : Memory) (record : ℕ) : ℕ := AnyCompletionRecord.result.get m record

def getBytesCompleted (m : Memory) (record : ℕ) : ℕ :=
  AnyCompletionRecord.bytesCompleted.get m record

def getDeltaRecordSize (m : Memory) (record : ℕ) : ℕ :=
  CreateDeltaCompletionRecord.deltaRecordSize.get m record

def getCrcValue (m : Memory) (record : ℕ) : ℕ := CrcCompletionRecord.crcValue.get m record

/-! ### Writing the outcome -/

/-- What every `write_result_*` returns, with the memory and the job it leaves. -/
def withStatus (m : Memory) (job : Job) : Memory × Job × JobStatus :=
  (m, job, toOwnStatus (getStatus m job.record))

def writeResultNop := withStatus
def writeResultBatch := withStatus
def writeResultDrain := withStatus
def writeResultFill := withStatus
def writeResultDualcast := withStatus
def writeResultApplyDelta := withStatus
def writeResultCacheFlush := withStatus

def writeResultMemMove (m : Memory) (job : Job) : Memory × Job × JobStatus :=
  withStatus m { job with result := getResult m job.record }

/-- The checksum goes to the caller's memory. -/
def writeResultCrc (m : Memory) (job : Job) : Memory × Job × JobStatus :=
  withStatus (store m job.crcChecksumPtr 4 (getCrcValue m job.record)) job

/-- The bytes completed and the result of the record, for the operations that compare. -/
def writeResultCompare (m : Memory) (job : Job) : Memory × Job × JobStatus :=
  withStatus m { job with
    offset := getBytesCompleted m job.record, result := getResult m job.record }

def writeResultDifCheck := writeResultCompare
def writeResultDifStrip := writeResultCompare
def writeResultDifUpdate := writeResultCompare

/-- The offset of a delta is the block index of its first note. -/
def writeResultCreateDelta (m : Memory) (job : Job) : Memory × Job × JobStatus :=
  withStatus m { job with
    destinationLength := getDeltaRecordSize m job.record
    result := getResult m job.record
    offset := load m job.destinationFirstPtr 2 }

def writeResultDifInsert (m : Memory) (job : Job) : Memory × Job × JobStatus :=
  withStatus m { job with offset := getBytesCompleted m job.record }

/-- `write_result`. -/
def writeResult (m : Memory) (job : Job) : Memory × Job × JobStatus :=
  match job.operation with
  | .nop => writeResultNop m job
  | .batch => writeResultBatch m job
  | .drain => writeResultDrain m job
  | .memMove => writeResultMemMove m job
  | .fill => writeResultFill m job
  | .dualcast => writeResultDualcast m job
  | .crc => writeResultCrc m job
  | .copyCrc => writeResultCrc m job
  | .compare => writeResultCompare m job
  | .comparePattern => writeResultCompare m job
  | .createDelta => writeResultCreateDelta m job
  | .applyDelta => writeResultApplyDelta m job
  | .difCheck => writeResultDifCheck m job
  | .difInsert => writeResultDifInsert m job
  | .difStrip => writeResultDifStrip m job
  | .difUpdate => writeResultDifUpdate m job
  | .cacheFlush => writeResultCacheFlush m job

namespace Job

/-- `dml::wait`; `none` when the wait does not return. -/
def wait (m : Memory) (job : Job) (umwait : Bool) : Option (Memory × Job × JobStatus) := do
  let m ← match job.path with
    | .software => Software.wait m job.dsc umwait
    | .hardware => Hardware.wait m job.dsc umwait
    | .automatic => Automatic.wait m job.dsc umwait
  return writeResult m job

/-- `dml::check`. -/
def check (m : Memory) (job : Job) : Option (Memory × Job × JobStatus) := do
  let (m, finished) ← match job.path with
    | .software => some (m, Software.finished m job.dsc)
    | .hardware => some (m, Hardware.finished m job.dsc)
    | .automatic => Automatic.finished m job.dsc
  if finished then return writeResult m job else return (m, job, .beingProcessed)

/-- A call that looks at a submitted job. -/
inductive Call
  | check
  | wait (umwait : Bool)
  deriving DecidableEq, Repr

def call (m : Memory) (job : Job) : Call → Option (Memory × Job × JobStatus)
  | .check => job.check m
  | .wait umwait => job.wait m umwait

/-- A sequence of calls: the memory and the job at the end, and all answers. -/
def calls (m : Memory) (job : Job) : List Call → Option (Memory × Job × List JobStatus)
  | [] => some (m, job, [])
  | c :: cs => do
    let (m, job, status) ← job.call m c
    let (m, job, statuses) ← job.calls m cs
    return (m, job, status :: statuses)

end Job

end DataMover
