import DataMover.Views

/-!
# Building descriptors

`make_descriptor.cpp`: one function for each of the seventeen operations.  Each starts
from a descriptor of zeros and assigns the fields of the operation's view.  `rebind`
(`core_interconnect.cpp`) then ties the descriptor to a completion record.

The descriptor under construction is an object of its own at address 0; `HoldsDescriptor`
says that memory has a copy of it somewhere else.

## Main definitions

* `makeNopDescriptor` and its siblings — the functions of the source.
* `DescriptorArgs`, `DescriptorArgs.make` — a call of one of them, and what it returns.
* `viewDescriptor` — the arguments read back through the view of the operation.
* `viewFields` — the accessors the view of an operation has.
* `rebind` — tying a descriptor to a record.

## Main results

* `viewFields_pairwise` — no two accessors of one view share a byte.
* `viewDescriptor_make` — every accessor returns the argument it was built with.
* `rebind_spec` — what `rebind` changes.
-/

namespace DataMover

open ByteMemory

/-- `descriptor()`: 64 zero bytes. -/
def emptyDescriptor : Memory := fun _ => 0#8

/-- `dif_parameters`. -/
structure DifParameters where
  refTagSeed : BitVec 32
  appTagMask : BitVec 16
  appTagSeed : BitVec 16
  deriving DecidableEq, Repr

/-- The code of an operation, as the descriptor stores it. -/
def operationCode (op : Operation) : BitVec 8 := BitVec.ofNat 8 op.code

/-! ### One function per operation -/

def makeNopDescriptor (options : BitVec 16) : Memory :=
  assignAll emptyDescriptor 0
    [AnyDescriptor.operation.assign (operationCode .nop) rfl,
     AnyDescriptor.flags.assign options rfl]

def makeDrainDescriptor (readbackAddress1 readbackAddress2 : BitVec 64) (options : BitVec 16)
    (specificOptions : BitVec 8) : Memory :=
  assignAll emptyDescriptor 0
    [AnyDescriptor.operation.assign (operationCode .drain) rfl,
     DrainDescriptor.readbackAddress1.assign readbackAddress1 rfl,
     DrainDescriptor.readbackAddress2.assign readbackAddress2 rfl,
     AnyDescriptor.flags.assign options rfl,
     AnyDescriptor.operationSpecificFlags.assign specificOptions rfl]

def makeMemMoveDescriptor (src dst : BitVec 64) (size : BitVec 32) (options : BitVec 16) :
    Memory :=
  assignAll emptyDescriptor 0
    [AnyDescriptor.operation.assign (operationCode .memMove) rfl,
     AnyDescriptor.sourceAddress.assign src rfl,
     AnyDescriptor.destinationAddress.assign dst rfl,
     AnyDescriptor.transferSize.assign size rfl,
     AnyDescriptor.flags.assign options rfl]

def makeFillDescriptor (pattern dst : BitVec 64) (size : BitVec 32) (options : BitVec 16) :
    Memory :=
  assignAll emptyDescriptor 0
    [AnyDescriptor.operation.assign (operationCode .fill) rfl,
     FillDescriptor.pattern.assign pattern rfl,
     AnyDescriptor.destinationAddress.assign dst rfl,
     AnyDescriptor.transferSize.assign size rfl,
     AnyDescriptor.flags.assign options rfl]

def makeDualcastDescriptor (src dst1 dst2 : BitVec 64) (size : BitVec 32) (options : BitVec 16)
    (specificOptions : BitVec 8) : Memory :=
  assignAll emptyDescriptor 0
    [AnyDescriptor.operation.assign (operationCode .dualcast) rfl,
     AnyDescriptor.sourceAddress.assign src rfl,
     DualcastDescriptor.destination1Address.assign dst1 rfl,
     DualcastDescriptor.destination2Address.assign dst2 rfl,
     AnyDescriptor.transferSize.assign size rfl,
     AnyDescriptor.flags.assign options rfl,
     AnyDescriptor.operationSpecificFlags.assign specificOptions rfl]

def makeCompareDescriptor (src1 src2 : BitVec 64) (size : BitVec 32) (options : BitVec 16)
    (expectedResult : BitVec 8) : Memory :=
  assignAll emptyDescriptor 0
    [AnyDescriptor.operation.assign (operationCode .compare) rfl,
     CompareDescriptor.source1Address.assign src1 rfl,
     CompareDescriptor.source2Address.assign src2 rfl,
     AnyDescriptor.transferSize.assign size rfl,
     AnyDescriptor.flags.assign options rfl,
     CompareDescriptor.expectedResult.assign expectedResult rfl]

def makeComparePatternDescriptor (pattern src : BitVec 64) (size : BitVec 32)
    (options : BitVec 16) (expectedResult : BitVec 8) : Memory :=
  assignAll emptyDescriptor 0
    [AnyDescriptor.operation.assign (operationCode .comparePattern) rfl,
     ComparePatternDescriptor.pattern.assign pattern rfl,
     AnyDescriptor.sourceAddress.assign src rfl,
     AnyDescriptor.transferSize.assign size rfl,
     AnyDescriptor.flags.assign options rfl,
     ComparePatternDescriptor.expectedResult.assign expectedResult rfl]

def makeCrcDescriptor (src : BitVec 64) (size crcSeed : BitVec 32) (options : BitVec 16)
    (specificOptions : BitVec 8) : Memory :=
  assignAll emptyDescriptor 0
    [AnyDescriptor.operation.assign (operationCode .crc) rfl,
     AnyDescriptor.sourceAddress.assign src rfl,
     AnyDescriptor.transferSize.assign size rfl,
     AnyDescriptor.flags.assign options rfl,
     AnyDescriptor.operationSpecificFlags.assign specificOptions rfl,
     CrcDescriptor.crcSeed.assign crcSeed rfl]

def makeCopyCrcDescriptor (src dst : BitVec 64) (size crcSeed : BitVec 32) (options : BitVec 16)
    (specificOptions : BitVec 8) : Memory :=
  assignAll emptyDescriptor 0
    [AnyDescriptor.operation.assign (operationCode .copyCrc) rfl,
     AnyDescriptor.sourceAddress.assign src rfl,
     AnyDescriptor.destinationAddress.assign dst rfl,
     AnyDescriptor.transferSize.assign size rfl,
     AnyDescriptor.flags.assign options rfl,
     AnyDescriptor.operationSpecificFlags.assign specificOptions rfl,
     CrcDescriptor.crcSeed.assign crcSeed rfl]

def makeCreateDeltaDescriptor (src1 src2 : BitVec 64) (size : BitVec 32) (deltaRecord : BitVec 64)
    (deltaMaxSize : BitVec 32) (options : BitVec 16) (expectedResult : BitVec 8) : Memory :=
  assignAll emptyDescriptor 0
    [AnyDescriptor.operation.assign (operationCode .createDelta) rfl,
     CreateDeltaDescriptor.source1Address.assign src1 rfl,
     CreateDeltaDescriptor.source2Address.assign src2 rfl,
     CreateDeltaDescriptor.deltaRecordAddress.assign deltaRecord rfl,
     AnyDescriptor.transferSize.assign size rfl,
     CreateDeltaDescriptor.maximumDeltaRecordSize.assign deltaMaxSize rfl,
     AnyDescriptor.flags.assign options rfl,
     CreateDeltaDescriptor.expectedResultMask.assign expectedResult rfl]

def makeApplyDeltaDescriptor (deltaRecord : BitVec 64) (deltaSize : BitVec 32) (dst : BitVec 64)
    (size : BitVec 32) (options : BitVec 16) : Memory :=
  assignAll emptyDescriptor 0
    [AnyDescriptor.operation.assign (operationCode .applyDelta) rfl,
     ApplyDeltaDescriptor.deltaRecordAddress.assign deltaRecord rfl,
     AnyDescriptor.destinationAddress.assign dst rfl,
     AnyDescriptor.transferSize.assign size rfl,
     ApplyDeltaDescriptor.deltaRecordSize.assign deltaSize rfl,
     AnyDescriptor.flags.assign options rfl]

def makeCacheFlushDescriptor (dst : BitVec 64) (size : BitVec 32) (options : BitVec 16) : Memory :=
  assignAll emptyDescriptor 0
    [AnyDescriptor.operation.assign (operationCode .cacheFlush) rfl,
     AnyDescriptor.destinationAddress.assign dst rfl,
     AnyDescriptor.transferSize.assign size rfl,
     AnyDescriptor.flags.assign options rfl]

def makeDifCheckDescriptor (src : BitVec 64) (transferSize : BitVec 32)
    (srcParameters : DifParameters) (options : BitVec 16)
    (specificOptions sourceOptions : BitVec 8) : Memory :=
  assignAll emptyDescriptor 0
    [AnyDescriptor.operation.assign (operationCode .difCheck) rfl,
     AnyDescriptor.sourceAddress.assign src rfl,
     AnyDescriptor.transferSize.assign transferSize rfl,
     AnyDescriptor.flags.assign options rfl,
     DifDescriptor.difFlags.assign specificOptions rfl,
     DifDescriptor.sourceDifFlags.assign sourceOptions rfl,
     DifDescriptor.sourceRefTag.assign srcParameters.refTagSeed rfl,
     DifDescriptor.sourceAppTag.assign srcParameters.appTagSeed rfl,
     DifDescriptor.sourceAppTagMask.assign srcParameters.appTagMask rfl]

def makeDifInsertDescriptor (src dst : BitVec 64) (transferSize : BitVec 32)
    (dstParameters : DifParameters) (options : BitVec 16)
    (specificOptions destinationOptions : BitVec 8) : Memory :=
  assignAll emptyDescriptor 0
    [AnyDescriptor.operation.assign (operationCode .difInsert) rfl,
     AnyDescriptor.sourceAddress.assign src rfl,
     AnyDescriptor.destinationAddress.assign dst rfl,
     AnyDescriptor.transferSize.assign transferSize rfl,
     AnyDescriptor.flags.assign options rfl,
     DifDescriptor.difFlags.assign specificOptions rfl,
     DifDescriptor.destinationDifFlags.assign destinationOptions rfl,
     DifDescriptor.destinationRefTag.assign dstParameters.refTagSeed rfl,
     DifDescriptor.destinationAppTag.assign dstParameters.appTagSeed rfl,
     DifDescriptor.destinationAppTagMask.assign dstParameters.appTagMask rfl]

def makeDifStripDescriptor (src dst : BitVec 64) (transferSize : BitVec 32)
    (srcParameters : DifParameters) (options : BitVec 16)
    (specificOptions sourceOptions : BitVec 8) : Memory :=
  assignAll emptyDescriptor 0
    [AnyDescriptor.operation.assign (operationCode .difStrip) rfl,
     AnyDescriptor.sourceAddress.assign src rfl,
     AnyDescriptor.destinationAddress.assign dst rfl,
     AnyDescriptor.transferSize.assign transferSize rfl,
     AnyDescriptor.flags.assign options rfl,
     DifDescriptor.difFlags.assign specificOptions rfl,
     DifDescriptor.sourceDifFlags.assign sourceOptions rfl,
     DifDescriptor.sourceRefTag.assign srcParameters.refTagSeed rfl,
     DifDescriptor.sourceAppTag.assign srcParameters.appTagSeed rfl,
     DifDescriptor.sourceAppTagMask.assign srcParameters.appTagMask rfl]

def makeDifUpdateDescriptor (src dst : BitVec 64) (transferSize : BitVec 32)
    (srcParameters dstParameters : DifParameters) (options : BitVec 16)
    (specificOptions sourceOptions destinationOptions : BitVec 8) : Memory :=
  assignAll emptyDescriptor 0
    [AnyDescriptor.operation.assign (operationCode .difUpdate) rfl,
     AnyDescriptor.sourceAddress.assign src rfl,
     AnyDescriptor.destinationAddress.assign dst rfl,
     AnyDescriptor.transferSize.assign transferSize rfl,
     AnyDescriptor.flags.assign options rfl,
     DifDescriptor.difFlags.assign specificOptions rfl,
     DifDescriptor.sourceDifFlags.assign sourceOptions rfl,
     DifDescriptor.sourceRefTag.assign srcParameters.refTagSeed rfl,
     DifDescriptor.sourceAppTag.assign srcParameters.appTagSeed rfl,
     DifDescriptor.sourceAppTagMask.assign srcParameters.appTagMask rfl,
     DifDescriptor.destinationDifFlags.assign destinationOptions rfl,
     DifDescriptor.destinationRefTag.assign dstParameters.refTagSeed rfl,
     DifDescriptor.destinationAppTag.assign dstParameters.appTagSeed rfl,
     DifDescriptor.destinationAppTagMask.assign dstParameters.appTagMask rfl]

def makeBatchDescriptor (src : BitVec 64) (length : BitVec 32) (options : BitVec 16) : Memory :=
  assignAll emptyDescriptor 0
    [AnyDescriptor.operation.assign (operationCode .batch) rfl,
     BatchDescriptor.descriptorListAddress.assign src rfl,
     BatchDescriptor.descriptorsCount.assign length rfl,
     AnyDescriptor.flags.assign options rfl]

/-! ### Calls -/

/-- A call of one of the functions. -/
inductive DescriptorArgs
  | nop (options : BitVec 16)
  | drain (readbackAddress1 readbackAddress2 : BitVec 64) (options : BitVec 16)
      (specificOptions : BitVec 8)
  | memMove (src dst : BitVec 64) (size : BitVec 32) (options : BitVec 16)
  | fill (pattern dst : BitVec 64) (size : BitVec 32) (options : BitVec 16)
  | dualcast (src dst1 dst2 : BitVec 64) (size : BitVec 32) (options : BitVec 16)
      (specificOptions : BitVec 8)
  | compare (src1 src2 : BitVec 64) (size : BitVec 32) (options : BitVec 16)
      (expectedResult : BitVec 8)
  | comparePattern (pattern src : BitVec 64) (size : BitVec 32) (options : BitVec 16)
      (expectedResult : BitVec 8)
  | crc (src : BitVec 64) (size crcSeed : BitVec 32) (options : BitVec 16)
      (specificOptions : BitVec 8)
  | copyCrc (src dst : BitVec 64) (size crcSeed : BitVec 32) (options : BitVec 16)
      (specificOptions : BitVec 8)
  | createDelta (src1 src2 : BitVec 64) (size : BitVec 32) (deltaRecord : BitVec 64)
      (deltaMaxSize : BitVec 32) (options : BitVec 16) (expectedResult : BitVec 8)
  | applyDelta (deltaRecord : BitVec 64) (deltaSize : BitVec 32) (dst : BitVec 64)
      (size : BitVec 32) (options : BitVec 16)
  | cacheFlush (dst : BitVec 64) (size : BitVec 32) (options : BitVec 16)
  | difCheck (src : BitVec 64) (transferSize : BitVec 32) (srcParameters : DifParameters)
      (options : BitVec 16) (specificOptions sourceOptions : BitVec 8)
  | difInsert (src dst : BitVec 64) (transferSize : BitVec 32) (dstParameters : DifParameters)
      (options : BitVec 16) (specificOptions destinationOptions : BitVec 8)
  | difStrip (src dst : BitVec 64) (transferSize : BitVec 32) (srcParameters : DifParameters)
      (options : BitVec 16) (specificOptions sourceOptions : BitVec 8)
  | difUpdate (src dst : BitVec 64) (transferSize : BitVec 32)
      (srcParameters dstParameters : DifParameters) (options : BitVec 16)
      (specificOptions sourceOptions destinationOptions : BitVec 8)
  | batch (src : BitVec 64) (length : BitVec 32) (options : BitVec 16)
  deriving DecidableEq, Repr

namespace DescriptorArgs

def operation : DescriptorArgs → Operation
  | nop .. => .nop
  | drain .. => .drain
  | memMove .. => .memMove
  | fill .. => .fill
  | dualcast .. => .dualcast
  | compare .. => .compare
  | comparePattern .. => .comparePattern
  | crc .. => .crc
  | copyCrc .. => .copyCrc
  | createDelta .. => .createDelta
  | applyDelta .. => .applyDelta
  | cacheFlush .. => .cacheFlush
  | difCheck .. => .difCheck
  | difInsert .. => .difInsert
  | difStrip .. => .difStrip
  | difUpdate .. => .difUpdate
  | batch .. => .batch

/-- The descriptor a call returns. -/
def make : DescriptorArgs → Memory
  | nop o => makeNopDescriptor o
  | drain a b o p => makeDrainDescriptor a b o p
  | memMove s d n o => makeMemMoveDescriptor s d n o
  | fill p d n o => makeFillDescriptor p d n o
  | dualcast s d e n o p => makeDualcastDescriptor s d e n o p
  | compare s t n o r => makeCompareDescriptor s t n o r
  | comparePattern p s n o r => makeComparePatternDescriptor p s n o r
  | crc s n c o p => makeCrcDescriptor s n c o p
  | copyCrc s d n c o p => makeCopyCrcDescriptor s d n c o p
  | createDelta s t n d k o r => makeCreateDeltaDescriptor s t n d k o r
  | applyDelta d k t n o => makeApplyDeltaDescriptor d k t n o
  | cacheFlush d n o => makeCacheFlushDescriptor d n o
  | difCheck s n a o p q => makeDifCheckDescriptor s n a o p q
  | difInsert s d n b o p r => makeDifInsertDescriptor s d n b o p r
  | difStrip s d n a o p q => makeDifStripDescriptor s d n a o p q
  | difUpdate s d n a b o p q r => makeDifUpdateDescriptor s d n a b o p q r
  | batch s n o => makeBatchDescriptor s n o

end DescriptorArgs

/-! ### Views -/

/-- The accessors every view inherits and keeps. -/
def commonFields : List Field :=
  [AnyDescriptor.operation, AnyDescriptor.flags, AnyDescriptor.operationSpecificFlags,
    AnyDescriptor.completionRecordAddress, AnyDescriptor.completionInterruptHandle]

/-- The accessors of the source half of a dif view. -/
def sourceDifFields : List Field :=
  [DifDescriptor.sourceDifFlags, DifDescriptor.sourceRefTag, DifDescriptor.sourceAppTag,
    DifDescriptor.sourceAppTagMask]

/-- The accessors of the destination half of a dif view. -/
def destinationDifFields : List Field :=
  [DifDescriptor.destinationDifFlags, DifDescriptor.destinationRefTag,
    DifDescriptor.destinationAppTag, DifDescriptor.destinationAppTagMask]

/-- The public accessors of the view of an operation. -/
def viewFields : Operation → List Field
  | .nop => commonFields
  | .batch => commonFields ++ [BatchDescriptor.descriptorListAddress,
      AnyDescriptor.destinationAddress, BatchDescriptor.descriptorsCount]
  | .drain => commonFields ++ [DrainDescriptor.readbackAddress1, DrainDescriptor.readbackAddress2,
      AnyDescriptor.transferSize]
  | .memMove => commonFields ++ [AnyDescriptor.sourceAddress, AnyDescriptor.destinationAddress,
      AnyDescriptor.transferSize]
  | .fill => commonFields ++ [FillDescriptor.pattern, AnyDescriptor.destinationAddress,
      AnyDescriptor.transferSize]
  | .compare => commonFields ++ [CompareDescriptor.source1Address,
      CompareDescriptor.source2Address, AnyDescriptor.transferSize,
      CompareDescriptor.expectedResult]
  | .comparePattern => commonFields ++ [AnyDescriptor.sourceAddress,
      ComparePatternDescriptor.pattern, AnyDescriptor.transferSize,
      ComparePatternDescriptor.expectedResult]
  | .createDelta => commonFields ++ [CreateDeltaDescriptor.source1Address,
      CreateDeltaDescriptor.source2Address, AnyDescriptor.transferSize,
      CreateDeltaDescriptor.deltaRecordAddress, CreateDeltaDescriptor.maximumDeltaRecordSize,
      CreateDeltaDescriptor.expectedResultMask]
  | .applyDelta => commonFields ++ [ApplyDeltaDescriptor.deltaRecordAddress,
      AnyDescriptor.destinationAddress, AnyDescriptor.transferSize,
      ApplyDeltaDescriptor.deltaRecordSize]
  | .dualcast => commonFields ++ [AnyDescriptor.sourceAddress,
      DualcastDescriptor.destination1Address, AnyDescriptor.transferSize,
      DualcastDescriptor.destination2Address]
  | .crc => commonFields ++ [AnyDescriptor.sourceAddress, AnyDescriptor.transferSize,
      CrcDescriptor.crcSeed, CrcDescriptor.crcSeedAddress]
  | .copyCrc => commonFields ++ [AnyDescriptor.sourceAddress, AnyDescriptor.destinationAddress,
      AnyDescriptor.transferSize, CrcDescriptor.crcSeed, CrcDescriptor.crcSeedAddress]
  | .difCheck => commonFields ++ [AnyDescriptor.sourceAddress, AnyDescriptor.transferSize,
      DifDescriptor.difFlags] ++ sourceDifFields
  | .difInsert => commonFields ++ [AnyDescriptor.sourceAddress, AnyDescriptor.destinationAddress,
      AnyDescriptor.transferSize, DifDescriptor.difFlags] ++ destinationDifFields
  | .difStrip => commonFields ++ [AnyDescriptor.sourceAddress, AnyDescriptor.destinationAddress,
      AnyDescriptor.transferSize, DifDescriptor.difFlags] ++ sourceDifFields
  | .difUpdate => commonFields ++ [AnyDescriptor.sourceAddress, AnyDescriptor.destinationAddress,
      AnyDescriptor.transferSize, DifDescriptor.difFlags] ++ sourceDifFields
      ++ destinationDifFields
  | .cacheFlush => commonFields ++ [AnyDescriptor.destinationAddress, AnyDescriptor.transferSize]

/-- The fields that building a descriptor assigns, in order. -/
def assignedFields : Operation → List Field
  | .nop => [AnyDescriptor.operation, AnyDescriptor.flags]
  | .batch => [AnyDescriptor.operation, BatchDescriptor.descriptorListAddress,
      BatchDescriptor.descriptorsCount, AnyDescriptor.flags]
  | .drain => [AnyDescriptor.operation, DrainDescriptor.readbackAddress1,
      DrainDescriptor.readbackAddress2, AnyDescriptor.flags, AnyDescriptor.operationSpecificFlags]
  | .memMove => [AnyDescriptor.operation, AnyDescriptor.sourceAddress,
      AnyDescriptor.destinationAddress, AnyDescriptor.transferSize, AnyDescriptor.flags]
  | .fill => [AnyDescriptor.operation, FillDescriptor.pattern, AnyDescriptor.destinationAddress,
      AnyDescriptor.transferSize, AnyDescriptor.flags]
  | .compare => [AnyDescriptor.operation, CompareDescriptor.source1Address,
      CompareDescriptor.source2Address, AnyDescriptor.transferSize, AnyDescriptor.flags,
      CompareDescriptor.expectedResult]
  | .comparePattern => [AnyDescriptor.operation, ComparePatternDescriptor.pattern,
      AnyDescriptor.sourceAddress, AnyDescriptor.transferSize, AnyDescriptor.flags,
      ComparePatternDescriptor.expectedResult]
  | .createDelta => [AnyDescriptor.operation, CreateDeltaDescriptor.source1Address,
      CreateDeltaDescriptor.source2Address, CreateDeltaDescriptor.deltaRecordAddress,
      AnyDescriptor.transferSize, CreateDeltaDescriptor.maximumDeltaRecordSize,
      AnyDescriptor.flags, CreateDeltaDescriptor.expectedResultMask]
  | .applyDelta => [AnyDescriptor.operation, ApplyDeltaDescriptor.deltaRecordAddress,
      AnyDescriptor.destinationAddress, AnyDescriptor.transferSize,
      ApplyDeltaDescriptor.deltaRecordSize, AnyDescriptor.flags]
  | .dualcast => [AnyDescriptor.operation, AnyDescriptor.sourceAddress,
      DualcastDescriptor.destination1Address, DualcastDescriptor.destination2Address,
      AnyDescriptor.transferSize, AnyDescriptor.flags, AnyDescriptor.operationSpecificFlags]
  | .crc => [AnyDescriptor.operation, AnyDescriptor.sourceAddress, AnyDescriptor.transferSize,
      AnyDescriptor.flags, AnyDescriptor.operationSpecificFlags, CrcDescriptor.crcSeed]
  | .copyCrc => [AnyDescriptor.operation, AnyDescriptor.sourceAddress,
      AnyDescriptor.destinationAddress, AnyDescriptor.transferSize, AnyDescriptor.flags,
      AnyDescriptor.operationSpecificFlags, CrcDescriptor.crcSeed]
  | .difCheck => [AnyDescriptor.operation, AnyDescriptor.sourceAddress,
      AnyDescriptor.transferSize, AnyDescriptor.flags, DifDescriptor.difFlags] ++ sourceDifFields
  | .difInsert => [AnyDescriptor.operation, AnyDescriptor.sourceAddress,
      AnyDescriptor.destinationAddress, AnyDescriptor.transferSize, AnyDescriptor.flags,
      DifDescriptor.difFlags] ++ destinationDifFields
  | .difStrip => [AnyDescriptor.operation, AnyDescriptor.sourceAddress,
      AnyDescriptor.destinationAddress, AnyDescriptor.transferSize, AnyDescriptor.flags,
      DifDescriptor.difFlags] ++ sourceDifFields
  | .difUpdate => [AnyDescriptor.operation, AnyDescriptor.sourceAddress,
      AnyDescriptor.destinationAddress, AnyDescriptor.transferSize, AnyDescriptor.flags,
      DifDescriptor.difFlags] ++ sourceDifFields ++ destinationDifFields
  | .cacheFlush => [AnyDescriptor.operation, AnyDescriptor.destinationAddress,
      AnyDescriptor.transferSize, AnyDescriptor.flags]

theorem assignedFields_pairwise (op : Operation) :
    (assignedFields op).Pairwise Field.Apart := by
  cases op <;> decide

/-- The accessors that are left alone are apart from those that are assigned. -/
theorem apart_assignedFields (op : Operation) :
    ∀ f ∈ viewFields op, f ∉ assignedFields op → ∀ g ∈ assignedFields op, f.Apart g := by
  cases op <;> decide

/-- **No two accessors of one view share a byte**, and all of them lie in the descriptor. -/
theorem viewFields_pairwise (op : Operation) :
    (viewFields op).Pairwise Field.Apart ∧ ∀ f ∈ viewFields op, f.Within descriptorSize := by
  cases op <;> decide

section View

variable (m : Memory) (dsc : ℕ)

/-- A field of `w` bits. -/
def readBits (f : Field) (w : ℕ) : BitVec w := BitVec.ofNat w (f.get m dsc)

/-- The source parameters of a dif descriptor. -/
def sourceParameters : DifParameters where
  refTagSeed := readBits m dsc DifDescriptor.sourceRefTag 32
  appTagMask := readBits m dsc DifDescriptor.sourceAppTagMask 16
  appTagSeed := readBits m dsc DifDescriptor.sourceAppTag 16

/-- The destination parameters of a dif descriptor. -/
def destinationParameters : DifParameters where
  refTagSeed := readBits m dsc DifDescriptor.destinationRefTag 32
  appTagMask := readBits m dsc DifDescriptor.destinationAppTagMask 16
  appTagSeed := readBits m dsc DifDescriptor.destinationAppTag 16

/-- The arguments a descriptor was built with, through the accessors of its view. -/
def viewDescriptor : Option DescriptorArgs :=
  let src := readBits m dsc AnyDescriptor.sourceAddress 64
  let dst := readBits m dsc AnyDescriptor.destinationAddress 64
  let size := readBits m dsc AnyDescriptor.transferSize 32
  let options := readBits m dsc AnyDescriptor.flags 16
  let specificOptions := readBits m dsc AnyDescriptor.operationSpecificFlags 8
  let difOptions := readBits m dsc DifDescriptor.difFlags 8
  let sourceOptions := readBits m dsc DifDescriptor.sourceDifFlags 8
  let destinationOptions := readBits m dsc DifDescriptor.destinationDifFlags 8
  match operationOf m dsc with
  | none => none
  | some .nop => some (.nop options)
  | some .batch => some (.batch (readBits m dsc BatchDescriptor.descriptorListAddress 64)
      (readBits m dsc BatchDescriptor.descriptorsCount 32) options)
  | some .drain => some (.drain (readBits m dsc DrainDescriptor.readbackAddress1 64)
      (readBits m dsc DrainDescriptor.readbackAddress2 64) options specificOptions)
  | some .memMove => some (.memMove src dst size options)
  | some .fill => some (.fill (readBits m dsc FillDescriptor.pattern 64) dst size options)
  | some .compare => some (.compare (readBits m dsc CompareDescriptor.source1Address 64)
      (readBits m dsc CompareDescriptor.source2Address 64) size options
      (readBits m dsc CompareDescriptor.expectedResult 8))
  | some .comparePattern => some (.comparePattern
      (readBits m dsc ComparePatternDescriptor.pattern 64) src size options
      (readBits m dsc ComparePatternDescriptor.expectedResult 8))
  | some .createDelta => some (.createDelta (readBits m dsc CreateDeltaDescriptor.source1Address 64)
      (readBits m dsc CreateDeltaDescriptor.source2Address 64) size
      (readBits m dsc CreateDeltaDescriptor.deltaRecordAddress 64)
      (readBits m dsc CreateDeltaDescriptor.maximumDeltaRecordSize 32) options
      (readBits m dsc CreateDeltaDescriptor.expectedResultMask 8))
  | some .applyDelta => some (.applyDelta
      (readBits m dsc ApplyDeltaDescriptor.deltaRecordAddress 64)
      (readBits m dsc ApplyDeltaDescriptor.deltaRecordSize 32) dst size options)
  | some .dualcast => some (.dualcast src (readBits m dsc DualcastDescriptor.destination1Address 64)
      (readBits m dsc DualcastDescriptor.destination2Address 64) size options specificOptions)
  | some .crc => some (.crc src size (readBits m dsc CrcDescriptor.crcSeed 32) options
      specificOptions)
  | some .copyCrc => some (.copyCrc src dst size (readBits m dsc CrcDescriptor.crcSeed 32) options
      specificOptions)
  | some .difCheck => some (.difCheck src size (sourceParameters m dsc) options difOptions
      sourceOptions)
  | some .difInsert => some (.difInsert src dst size (destinationParameters m dsc) options
      difOptions destinationOptions)
  | some .difStrip => some (.difStrip src dst size (sourceParameters m dsc) options difOptions
      sourceOptions)
  | some .difUpdate => some (.difUpdate src dst size (sourceParameters m dsc)
      (destinationParameters m dsc) options difOptions sourceOptions destinationOptions)
  | some .cacheFlush => some (.cacheFlush dst size options)

end View

/-! ### Reading a descriptor back -/

theorem toNat_operationCode (op : Operation) : (operationCode op).toNat = op.code := by
  cases op <;> rfl

theorem operationOf_of_get {m : Memory} {dsc : ℕ} {op : Operation}
    (h : AnyDescriptor.operation.get m dsc = (operationCode op).toNat) :
    operationOf m dsc = some op := by
  rw [operationOf, h, toNat_operationCode, Operation.ofCode_code]

/-- Every function assigns the fields of its list to a descriptor of zeros. -/
theorem exists_assignments (args : DescriptorArgs) :
    ∃ l, args.make = assignAll emptyDescriptor 0 l
      ∧ l.map Assignment.field = assignedFields args.operation := by
  cases args <;> exact ⟨_, rfl, rfl⟩

/-- An accessor that building the descriptor leaves alone reads zero. -/
theorem get_make_of_notMem (args : DescriptorArgs) {f : Field}
    (hf : f ∈ viewFields args.operation) (hnot : f ∉ assignedFields args.operation) :
    f.get args.make 0 = 0 := by
  obtain ⟨l, hl, hfields⟩ := exists_assignments args
  have hzero : f.get emptyDescriptor 0 = 0 := by
    rw [Field.get, load_eq_iff (Nat.two_pow_pos _)]
    intro i _
    simp [emptyDescriptor, byteAt]
  rw [hl, get_assignAll_of_apart, hzero]
  rw [hfields]
  exact apart_assignedFields args.operation f hf hnot

/-- To read a descriptor back it is enough to know the fields that were assigned. -/
theorem viewDescriptor_of_assignments {args : DescriptorArgs} {l : List Assignment}
    (hl : args.make = assignAll emptyDescriptor 0 l)
    (hfields : l.map Assignment.field = assignedFields args.operation)
    (h : (∀ a ∈ l, a.field.get args.make 0 = a.value) → viewDescriptor args.make 0 = some args) :
    viewDescriptor args.make 0 = some args := by
  apply h
  rw [hl]
  refine get_assignAll_of_mem ?_ emptyDescriptor
  rw [hfields]
  exact assignedFields_pairwise args.operation

/-- **Every accessor returns the argument the descriptor was built with**, for all
seventeen operations. -/
theorem viewDescriptor_make (args : DescriptorArgs) : viewDescriptor args.make 0 = some args := by
  cases args
  all_goals
    refine viewDescriptor_of_assignments rfl rfl fun h => ?_
    simp only [List.forall_mem_cons, List.not_mem_nil, false_imp_iff, implies_true, and_true,
      Field.assign] at h
    simp only [viewDescriptor, operationOf_of_get h.1, readBits, sourceParameters,
      destinationParameters, h, BitVec.ofNat_toNat, BitVec.setWidth_eq]

theorem operationOf_of_viewDescriptor {m : Memory} {dsc : ℕ} {args : DescriptorArgs}
    (h : viewDescriptor m dsc = some args) : operationOf m dsc = some args.operation := by
  unfold viewDescriptor at h
  cases hop : operationOf m dsc with
  | none => simp [hop] at h
  | some op =>
    cases op
    all_goals
      simp only [hop, Option.some.injEq] at h
      rw [← h, DescriptorArgs.operation]

theorem operationOf_make (args : DescriptorArgs) :
    operationOf args.make 0 = some args.operation :=
  operationOf_of_viewDescriptor (viewDescriptor_make args)

/-- A field of `8 * width` bits is its own value. -/
theorem get_of_readBits {m : Memory} {dsc w : ℕ} {f : Field} {v : BitVec w}
    (hw : 8 * f.width = w) (h : readBits m dsc f w = v) : f.get m dsc = v.toNat := by
  rw [← h, readBits, BitVec.toNat_ofNat, Nat.mod_eq_of_lt]
  rw [← hw]
  exact f.get_lt m dsc

/-! ### Copies of a descriptor -/

/-- Memory holds a copy of the descriptor `d` at `a`. -/
def HoldsDescriptor (m : Memory) (a : ℕ) (d : Memory) : Prop :=
  ∀ i, i < descriptorSize → m (a + i) = d i

theorem HoldsDescriptor.get {m d : Memory} {a : ℕ} (h : HoldsDescriptor m a d) {f : Field}
    (hf : f.Within descriptorSize) : f.get m a = f.get d 0 := by
  unfold Field.Within at hf
  refine load_congr fun i hi => ?_
  rw [Nat.add_assoc, h _ (by omega), Nat.zero_add]

/-! ### The record of a descriptor -/

/-- The two flags that `rebind` sets. -/
def completionRecordFlags : ℕ := Flag.completionRecordAddressValid ||| Flag.requestCompletionRecord

theorem testBit_completionRecordFlags (i : ℕ) :
    completionRecordFlags.testBit i = decide (i = 2 ∨ i = 3) := by
  rcases Nat.lt_or_ge i 4 with hi | hi
  · have hsmall : ∀ i < 4, completionRecordFlags.testBit i = decide (i = 2 ∨ i = 3) := by decide
    exact hsmall i hi
  · have hlt : completionRecordFlags < 2 ^ i :=
      lt_of_lt_of_le (by decide) (Nat.pow_le_pow_right (by omega) hi)
    rw [Nat.testBit_lt_two_pow hlt, decide_eq_false (by omega)]

/-- `rebind`. -/
def rebind (m : Memory) (dsc record : ℕ) : Memory :=
  let m := AnyDescriptor.completionRecordAddress.set m dsc record
  AnyDescriptor.flags.set m dsc (AnyDescriptor.flags.get m dsc ||| completionRecordFlags)

section Rebind

variable {m : Memory} {dsc record : ℕ}

/-- The flags are read from the descriptor as it was. -/
theorem rebind_eq :
    rebind m dsc record
      = AnyDescriptor.flags.set (AnyDescriptor.completionRecordAddress.set m dsc record) dsc
          (AnyDescriptor.flags.get m dsc ||| completionRecordFlags) := by
  have hflags : AnyDescriptor.flags.get (AnyDescriptor.completionRecordAddress.set m dsc record) dsc
      = AnyDescriptor.flags.get m dsc := Field.get_set_of_apart (by decide) m dsc record
  rw [rebind, hflags]

theorem flags_rebind :
    AnyDescriptor.flags.get (rebind m dsc record) dsc
      = AnyDescriptor.flags.get m dsc ||| completionRecordFlags := by
  have hlt : AnyDescriptor.flags.get m dsc ||| completionRecordFlags
      < 2 ^ (8 * AnyDescriptor.flags.width) :=
    Nat.or_lt_two_pow (AnyDescriptor.flags.get_lt m dsc) (by decide)
  rw [rebind_eq, Field.get_set_self_of_lt _ _ hlt]

theorem completionRecordAddress_rebind (h : record < 2 ^ 64) :
    AnyDescriptor.completionRecordAddress.get (rebind m dsc record) dsc = record := by
  rw [rebind, Field.get_set_of_apart (by decide), Field.get_set_self_of_lt _ _ h]

/-- The bytes `rebind` leaves alone. -/
theorem rebind_apply {x : ℕ} (hflags : x ∉ Region.addrs ⟨dsc + 4, 2⟩)
    (hrecord : x ∉ Region.addrs ⟨dsc + 8, 8⟩) : rebind m dsc record x = m x := by
  rw [Region.mem_addrs] at hflags hrecord
  simp only at hflags hrecord
  rw [rebind, Field.set, store_apply_of_notMem (by simp only [AnyDescriptor.flags]; omega),
    Field.set, store_apply_of_notMem (by simp only [AnyDescriptor.completionRecordAddress]; omega)]

/-- Another field of the descriptor. -/
theorem get_rebind {f : Field} (hflags : f.Apart AnyDescriptor.flags)
    (hrecord : f.Apart AnyDescriptor.completionRecordAddress) :
    f.get (rebind m dsc record) dsc = f.get m dsc := by
  rw [rebind, Field.get_set_of_apart hflags, Field.get_set_of_apart hrecord]

/-- Only the last record counts. -/
theorem rebind_rebind (first : ℕ) :
    rebind (rebind m dsc first) dsc record = rebind m dsc record := by
  have hflags : AnyDescriptor.flags.get (rebind m dsc first) dsc ||| completionRecordFlags
      = AnyDescriptor.flags.get m dsc ||| completionRecordFlags := by
    rw [flags_rebind, Nat.or_assoc, Nat.or_self]
  funext x
  rw [rebind_eq, hflags, rebind_eq, rebind_eq]
  simp only [Field.set, store_apply]
  split_ifs <;> rfl

/-- Copies of a descriptor that are tied to the same record stay copies. -/
theorem HoldsDescriptor.rebind {d : Memory} (h : HoldsDescriptor m dsc d) (record : ℕ) :
    HoldsDescriptor (rebind m dsc record) dsc (rebind d 0 record) := by
  have hset : ∀ (f : Field) (m d : Memory) (v : ℕ), HoldsDescriptor m dsc d →
      HoldsDescriptor (f.set m dsc v) dsc (f.set d 0 v) := by
    intro f m d v hm i hi
    rw [Field.set, Field.set, store_apply, store_apply, hm i hi]
    by_cases hfield : f.offset ≤ i ∧ i < f.offset + f.width
    · rw [if_pos (by omega), if_pos (by omega)]
      congr 1; omega
    · rw [if_neg (by omega), if_neg (by omega)]
  rw [rebind_eq, rebind_eq, h.get (by decide)]
  exact hset _ _ _ _ (hset _ _ _ _ h)

/-- **What `rebind` changes**: the record address and the two completion flags, bit by
bit. -/
theorem rebind_spec (h : record < 2 ^ 64) :
    AnyDescriptor.completionRecordAddress.get (rebind m dsc record) dsc = record
      ∧ (∀ i, (AnyDescriptor.flags.get (rebind m dsc record) dsc).testBit i
          = (decide (i = 2 ∨ i = 3) || (AnyDescriptor.flags.get m dsc).testBit i))
      ∧ ∀ x, x ∉ Region.addrs ⟨dsc + 4, 2⟩ → x ∉ Region.addrs ⟨dsc + 8, 8⟩ →
          rebind m dsc record x = m x := by
  refine ⟨completionRecordAddress_rebind h, fun i => ?_, fun x => rebind_apply⟩
  rw [flags_rebind, Nat.testBit_or, testBit_completionRecordFlags, Bool.or_comm]

end Rebind

/-! ### Tasks -/

/-- `task`: a descriptor and a record of zeros, tied together; here the record is at
`scratch`. -/
def makeTaskDescriptor (args : DescriptorArgs) (scratch : ℕ) : Memory := rebind args.make 0 scratch

/-- `task_view::operator=`, and the assignment of one task to another: the descriptor and
the record of a fresh task are copied and tied together again. -/
def assignTask (m : Memory) (dsc record : ℕ) (d : Memory) : Memory :=
  let m := paste m dsc descriptorSize d
  let m := paste m record recordSize fun _ => 0#8
  rebind m dsc record

section AssignTask

variable {m d : Memory} {dsc record : ℕ}

/-- The bytes the assignment leaves alone. -/
theorem assignTask_apply {x : ℕ} (hdsc : x ∉ Region.addrs ⟨dsc, descriptorSize⟩)
    (hrecord : x ∉ Region.addrs ⟨record, recordSize⟩) : assignTask m dsc record d x = m x := by
  have hx : x ∉ Region.addrs ⟨dsc + 4, 2⟩ ∧ x ∉ Region.addrs ⟨dsc + 8, 8⟩ := by
    rw [Region.mem_addrs] at hdsc
    simp only [Region.mem_addrs, descriptorSize] at hdsc ⊢
    omega
  rw [assignTask, rebind_apply hx.1 hx.2, paste_apply_of_notMem hrecord, paste_apply_of_notMem hdsc]

/-- The assignment copies the descriptor and ties it to the record. -/
theorem holdsDescriptor_assign
    (hapart : Region.Apart ⟨dsc, descriptorSize⟩ ⟨record, recordSize⟩) :
    HoldsDescriptor (assignTask m dsc record d) dsc (rebind d 0 record) := by
  have hcopy : HoldsDescriptor
      (paste (paste m dsc descriptorSize d) record recordSize fun _ => 0#8) dsc d := by
    intro i hi
    rw [paste_apply_of_notMem (hapart.notMem (Region.add_mem_addrs hi)), paste_apply_of_lt hi]
  exact hcopy.rebind record

/-- **An assigned task**: its descriptor is that of the task, tied to the record at the new
place, whatever record it had before. -/
theorem holdsDescriptor_assignTask
    (hapart : Region.Apart ⟨dsc, descriptorSize⟩ ⟨record, recordSize⟩) (scratch : ℕ) :
    HoldsDescriptor (assignTask m dsc record (rebind d 0 scratch)) dsc (rebind d 0 record) := by
  have htied : HoldsDescriptor (assignTask m dsc record (rebind d 0 scratch)) dsc
      (rebind (rebind d 0 scratch) 0 record) := holdsDescriptor_assign hapart
  rw [rebind_rebind] at htied
  exact htied

end AssignTask

end DataMover
