import DataMover.Types

/-!
# Descriptor and completion record views

A descriptor is 64 bytes, a completion record 32; both are addresses here, and
the views of `core/descriptor_views.hpp` and `core/completion_record_views.hpp`
are the fields each operation gives to those bytes.  A view that renames a field
of its base class is an abbreviation of it, so that two names of the same bytes
are visibly the same field.
-/

namespace DataMover

open ByteMemory

/-- The size of a descriptor. -/
abbrev descriptorSize : ℕ := 64

/-- The size of a completion record. -/
abbrev recordSize : ℕ := 32

/-! ### Descriptors -/

namespace AnyDescriptor

def flags : Field := ⟨4, 2⟩
def operationSpecificFlags : Field := ⟨6, 1⟩
def operation : Field := ⟨7, 1⟩
def completionRecordAddress : Field := ⟨8, 8⟩
def sourceAddress : Field := ⟨16, 8⟩
def destinationAddress : Field := ⟨24, 8⟩
def transferSize : Field := ⟨32, 4⟩
def completionInterruptHandle : Field := ⟨36, 2⟩

end AnyDescriptor

namespace BatchDescriptor

abbrev descriptorListAddress : Field := AnyDescriptor.sourceAddress
abbrev descriptorsCount : Field := AnyDescriptor.transferSize

end BatchDescriptor

namespace DrainDescriptor

abbrev readbackAddress1 : Field := AnyDescriptor.sourceAddress
abbrev readbackAddress2 : Field := AnyDescriptor.destinationAddress

end DrainDescriptor

namespace FillDescriptor

abbrev pattern : Field := AnyDescriptor.sourceAddress

end FillDescriptor

namespace CompareDescriptor

abbrev source1Address : Field := AnyDescriptor.sourceAddress
abbrev source2Address : Field := AnyDescriptor.destinationAddress
def expectedResult : Field := ⟨40, 1⟩

end CompareDescriptor

namespace ComparePatternDescriptor

abbrev pattern : Field := AnyDescriptor.destinationAddress
abbrev expectedResult : Field := CompareDescriptor.expectedResult

end ComparePatternDescriptor

namespace CreateDeltaDescriptor

abbrev source1Address : Field := AnyDescriptor.sourceAddress
abbrev source2Address : Field := AnyDescriptor.destinationAddress
def deltaRecordAddress : Field := ⟨40, 8⟩
def maximumDeltaRecordSize : Field := ⟨48, 4⟩
def expectedResultMask : Field := ⟨56, 1⟩

end CreateDeltaDescriptor

namespace ApplyDeltaDescriptor

abbrev deltaRecordAddress : Field := AnyDescriptor.sourceAddress
def deltaRecordSize : Field := ⟨40, 4⟩

end ApplyDeltaDescriptor

namespace DualcastDescriptor

abbrev destination1Address : Field := AnyDescriptor.destinationAddress
def destination2Address : Field := ⟨40, 8⟩

end DualcastDescriptor

namespace CrcDescriptor

def crcSeed : Field := ⟨40, 4⟩
def crcSeedAddress : Field := ⟨48, 8⟩

end CrcDescriptor

/-- The dif descriptors share one layout; each operation exposes the source
fields, the destination fields or both. -/
def DifDescriptor.sourceDifFlags : Field := ⟨40, 1⟩

namespace DifDescriptor

def destinationDifFlags : Field := ⟨41, 1⟩
def difFlags : Field := ⟨42, 1⟩
def sourceRefTag : Field := ⟨48, 4⟩
def sourceAppTagMask : Field := ⟨52, 2⟩
def sourceAppTag : Field := ⟨54, 2⟩
def destinationRefTag : Field := ⟨56, 4⟩
def destinationAppTagMask : Field := ⟨60, 2⟩
def destinationAppTag : Field := ⟨62, 2⟩

end DifDescriptor

/-! ### Completion records -/

namespace AnyCompletionRecord

def status : Field := ⟨0, 1⟩
def result : Field := ⟨1, 1⟩
def bytesCompleted : Field := ⟨4, 4⟩

end AnyCompletionRecord

namespace BatchCompletionRecord

abbrev descriptorsCompleted : Field := AnyCompletionRecord.bytesCompleted

end BatchCompletionRecord

namespace CreateDeltaCompletionRecord

def deltaRecordSize : Field := ⟨16, 4⟩

end CreateDeltaCompletionRecord

namespace CrcCompletionRecord

def crcValue : Field := ⟨16, 4⟩

end CrcCompletionRecord

/-- The dif records share one layout, like the dif descriptors. -/
abbrev DifCompletionRecord.difStatus : Field := AnyCompletionRecord.result

namespace DifCompletionRecord

def sourceRefTag : Field := ⟨16, 4⟩
def sourceAppTag : Field := ⟨22, 2⟩
def destinationRefTag : Field := ⟨24, 4⟩
def destinationAppTag : Field := ⟨30, 2⟩

end DifCompletionRecord

/-! ### From a descriptor to its record -/

/-- `get_completion_record`: the address of the record a descriptor points to. -/
def getCompletionRecord (m : Memory) (dsc : ℕ) : ℕ :=
  AnyDescriptor.completionRecordAddress.get m dsc

/-- The operation a descriptor asks for, `none` for an unknown code. -/
def operationOf (m : Memory) (dsc : ℕ) : Option Operation :=
  Operation.ofCode (AnyDescriptor.operation.get m dsc)

/-- A descriptor in an otherwise empty memory. -/
def rawDescriptor (op : Operation) (dsc record src dst n : ℕ) : Memory :=
  let m : Memory := fun _ => 0
  let m := AnyDescriptor.operation.set m dsc op.code
  let m := AnyDescriptor.completionRecordAddress.set m dsc record
  let m := AnyDescriptor.sourceAddress.set m dsc src
  let m := AnyDescriptor.destinationAddress.set m dsc dst
  AnyDescriptor.transferSize.set m dsc n

end DataMover
