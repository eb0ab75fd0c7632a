import DataMover.Lib.Loop
import DataMover.Lib.Memory
import DataMover.Lib.Field
import DataMover.Lib.Blocks
import DataMover.Lib.SameChange
import DataMover.Lib.Cyclic
import DataMover.Lib.CacheLine
import DataMover.Lib.Heap
import DataMover.Lib.Schedule
import DataMover.Lib.Deferred
import DataMover.Lib.InOrder
import DataMover.Lib.Ownership
import DataMover.Lib.Simd
import DataMover.Lib.SimdCompare
import DataMover.Lib.Simd128
import DataMover.Lib.Carryless
import DataMover.Lib.CrcRegister
import DataMover.Lib.LongDivision
import DataMover.Types
import DataMover.Views
import DataMover.Ref.Move
import DataMover.Ref.Crc
import DataMover.Ref.Compare
import DataMover.Ref.Delta
import DataMover.Avx512.MemMove
import DataMover.Avx512.Fill
import DataMover.Avx512.Compare
import DataMover.Avx512.ComparePattern
import DataMover.Avx512.Crc
import DataMover.Avx512.CrcFold
import DataMover.Avx512.CrcShort
import DataMover.Avx512.CrcLong
import DataMover.Avx512.CrcReflected
import DataMover.Avx512.CrcTable
import DataMover.Dif
import DataMover.DifSplit
import DataMover.DifReport
import DataMover.DifRoundTrip
import DataMover.DifBurst
import DataMover.DifUpdate
import DataMover.DifFailure
import DataMover.DifRelay
import DataMover.Kernels
import DataMover.CacheFlush
import DataMover.CrcRemainder
import DataMover.DeltaRecord
import DataMover.Dispatcher
import DataMover.Validation
import DataMover.Overlap
import DataMover.PartialCompletion
import DataMover.AccumulateRecords
import DataMover.CoreInterconnect
import DataMover.Completes
import DataMover.Placement
import DataMover.Locality
import DataMover.BatchRun
import DataMover.BatchKernel
import DataMover.BatchResult
import DataMover.Jobs
import DataMover.Continuation.Descriptor
import DataMover.Continuation.Wait
import DataMover.Continuation.Crc
import DataMover.Continuation.MemMove
import DataMover.Continuation.Compare
import DataMover.Continuation.Pattern
import DataMover.Continuation.Delta
import DataMover.Continuation.BytesCompleted
import DataMover.Continuation.Dif
import DataMover.Continuation.DifInsertStrip
import DataMover.Continuation.Batch
import DataMover.Continuation.Once
import DataMover.Continuation.Remaining
import DataMover.HwDevice
import DataMover.HardwareDevice
import DataMover.HwDiscovery
import DataMover.AutomaticPath
import DataMover.JobApi
import DataMover.MakeDescriptor
import DataMover.MakeTask
import DataMover.JobSubmit
import DataMover.BatchApi
import DataMover.CopyOnly
import DataMover.BatchLayout
import DataMover.Sequence
import DataMover.Execute
import DataMover.DeltaResult
import DataMover.Relocation
import DataMover.SequenceBatch
import DataMover.OperationResult
import DataMover.JobExecute
import DataMover.CrcStream
import DataMover.Handler
import DataMover.HandlerRuns
