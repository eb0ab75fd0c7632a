import DataMover.Lib.Field

/-!
# Operations, statuses and flags

The enumerations shared by the core and the middle layer: operation codes
(`core/operations.hpp`), validation, submission and execution statuses
(`detail/common/status.hpp`), and the flag bits the software path reads
(`detail/common/flags.hpp`, `detail/common/specific_flags.hpp`).  Everything is
stored in memory as a number, so each enumeration comes with its underlying
value.
-/

namespace DataMover

/-- An operation of the accelerator. -/
inductive Operation
  | nop | batch | drain | memMove | fill | compare | comparePattern | createDelta | applyDelta
  | dualcast | crc | copyCrc | difCheck | difInsert | difStrip | difUpdate | cacheFlush
  deriving DecidableEq, Repr

namespace Operation

/-- The operation code. -/
def code : Operation → ℕ
  | nop => 0x00
  | batch => 0x01
  | drain => 0x02
  | memMove => 0x03
  | fill => 0x04
  | compare => 0x05
  | comparePattern => 0x06
  | createDelta => 0x07
  | applyDelta => 0x08
  | dualcast => 0x09
  | crc => 0x10
  | copyCrc => 0x11
  | difCheck => 0x12
  | difInsert => 0x13
  | difStrip => 0x14
  | difUpdate => 0x15
  | cacheFlush => 0x20

/-- The operation of a code; `none` is the `default` branch of a `switch`. -/
def ofCode : ℕ → Option Operation
  | 0x00 => some nop
  | 0x01 => some batch
  | 0x02 => some drain
  | 0x03 => some memMove
  | 0x04 => some fill
  | 0x05 => some compare
  | 0x06 => some comparePattern
  | 0x07 => some createDelta
  | 0x08 => some applyDelta
  | 0x09 => some dualcast
  | 0x10 => some crc
  | 0x11 => some copyCrc
  | 0x12 => some difCheck
  | 0x13 => some difInsert
  | 0x14 => some difStrip
  | 0x15 => some difUpdate
  | 0x20 => some cacheFlush
  | _ => none

@[simp] theorem ofCode_code (op : Operation) : ofCode op.code = some op := by cases op <;> rfl

end Operation

/-- The outcome of validating a descriptor. -/
inductive ValidationStatus
  | success | nullAddress | nullSize | largeSize | overlapping | misalignment | difStripAdjacent
  | wrongSize | wrongDeltaSize | wrongDifSize | wrongDualcastAddress | wrongBatchSize
  | unsupportedOperation | error
  deriving DecidableEq, Repr

/-- The outcome of submitting a descriptor. -/
inductive SubmissionStatus
  | success | queueBusy | failure
  deriving DecidableEq, Repr

/-- The status byte of a completion record. -/
inductive ExecutionStatus
  | processing | success | falsePredicateSuccess | pageFaultDuringProcessing | pageResponseError
  | batchError | batchPageFaultError | offsetOrderError | offsetOverflow | difControlError
  | operationError | flagError | nonZeroReservedFieldError | invalidTransferSizeError
  | descriptorCountError | deltaSizeError | buffersOverlap | dualcastMisalignError
  | descriptorListAlignError | invalidInterruptHandle | pageFaultOnTranslation
  | completionRecordAlignError | misalignAddressError | privilegeError | trafficClassError
  | readbackTranslationError | operationReadbackTimeout | hardwareTimeout
  | addressTranslationError
  deriving DecidableEq, Repr

/-- The value of an execution status in the record. -/
def ExecutionStatus.toUnderlying : ExecutionStatus → ℕ
  | processing => 0x00
  | success => 0x01
  | falsePredicateSuccess => 0x02
  | pageFaultDuringProcessing => 0x03
  | pageResponseError => 0x04
  | batchError => 0x05
  | batchPageFaultError => 0x06
  | offsetOrderError => 0x07
  | offsetOverflow => 0x08
  | difControlError => 0x09
  | operationError => 0x10
  | flagError => 0x11
  | nonZeroReservedFieldError => 0x12
  | invalidTransferSizeError => 0x13
  | descriptorCountError => 0x14
  | deltaSizeError => 0x15
  | buffersOverlap => 0x16
  | dualcastMisalignError => 0x17
  | descriptorListAlignError => 0x18
  | invalidInterruptHandle => 0x19
  | pageFaultOnTranslation => 0x1a
  | completionRecordAlignError => 0x1b
  | misalignAddressError => 0x1c
  | privilegeError => 0x1d
  | trafficClassError => 0x1e
  | readbackTranslationError => 0x1f
  | operationReadbackTimeout => 0x20
  | hardwareTimeout => 0x21
  | addressTranslationError => 0x22

/-- The execution status of a value; `none` where the enumeration has no such value. -/
def ExecutionStatus.ofUnderlying : ℕ → Option ExecutionStatus
  | 0x00 => some processing
  | 0x01 => some success
  | 0x02 => some falsePredicateSuccess
  | 0x03 => some pageFaultDuringProcessing
  | 0x04 => some pageResponseError
  | 0x05 => some batchError
  | 0x06 => some batchPageFaultError
  | 0x07 => some offsetOrderError
  | 0x08 => some offsetOverflow
  | 0x09 => some difControlError
  | 0x10 => some operationError
  | 0x11 => some flagError
  | 0x12 => some nonZeroReservedFieldError
  | 0x13 => some invalidTransferSizeError
  | 0x14 => some descriptorCountError
  | 0x15 => some deltaSizeError
  | 0x16 => some buffersOverlap
  | 0x17 => some dualcastMisalignError
  | 0x18 => some descriptorListAlignError
  | 0x19 => some invalidInterruptHandle
  | 0x1a => some pageFaultOnTranslation
  | 0x1b => some completionRecordAlignError
  | 0x1c => some misalignAddressError
  | 0x1d => some privilegeError
  | 0x1e => some trafficClassError
  | 0x1f => some readbackTranslationError
  | 0x20 => some operationReadbackTimeout
  | 0x21 => some hardwareTimeout
  | 0x22 => some addressTranslationError
  | _ => none

/-! ### Flag bits -/

/-- `intersects lhs rhs`: every bit of `rhs` is set in `lhs`. -/
def intersects (lhs rhs : ℕ) : Bool := lhs &&& rhs == rhs

namespace Flag

/-- The descriptor names a completion record. -/
def completionRecordAddressValid : ℕ := 0b0000000000000100

/-- A completion record is asked for. -/
def requestCompletionRecord : ℕ := 0b0000000000001000

/-- Compare the result with the expected one. -/
def checkResult : ℕ := 0b0000000010000000

/-- Cache control; for a cache flush, the bit the kernel reads as "invalidate". -/
def cacheControl : ℕ := 0b0000000100000000

end Flag

namespace CrcSpecificFlag

/-- Read the seed from memory. -/
def readCrcSeed : ℕ := 0b001

/-- Neither invert nor bit-reverse the seed and the result. -/
def bypassCrcInversionAndReflection : ℕ := 0b010

/-- Take each data byte most significant bit first. -/
def bypassDataReflection : ℕ := 0b100

end CrcSpecificFlag

end DataMover
