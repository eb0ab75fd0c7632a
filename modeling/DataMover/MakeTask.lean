import DataMover.Kernels
import DataMover.MakeDescriptor

/-!
# From a job to its descriptor

`dml_job_t` as the user fills it in, the accessors of `job_view.hpp` that split its flag
words, and `make_task` (`c_api/include/make_task.hpp`), which turns the job into a call of
one of the functions that build descriptors.

The dif flags are packed twice: the 32 bits of the configuration go into three bytes of the
descriptor, with the block size or-ed into the third, and the kernels put a word together
from them again.

## Main definitions

* `UserJob`, `JobDifConfig` — the IN fields of `dml_job_t`.
* `UserJob.makeTask` — the call a job stands for.
* `HoldsDif` — what a descriptor holds of the configuration of a dif job.
* `DifConfig.Rebuilds` — a configuration that agrees with that of a job.

## Main results

* `difConfig_rebuilds` — the kernels rebuild the configuration of the job.
* `descriptor_agrees` — encoding and decoding agree.
-/

namespace DataMover

open ByteMemory

/-- `dml_dif_config_t`, as the user fills it in. -/
structure JobDifConfig where
  flags : BitVec 32
  sourceReferenceTagSeed : BitVec 32
  sourceApplicationTagSeed : BitVec 16
  sourceApplicationTagMask : BitVec 16
  destinationReferenceTagSeed : BitVec 32
  destinationApplicationTagSeed : BitVec 16
  destinationApplicationTagMask : BitVec 16
  blockSize : BitVec 32
  deriving DecidableEq, Repr

/-- The IN fields of `dml_job_t`; `numa_id` selects a device and is not part of the
descriptor. -/
structure UserJob where
  sourceFirstPtr : BitVec 64
  sourceSecondPtr : BitVec 64
  destinationFirstPtr : BitVec 64
  destinationSecondPtr : BitVec 64
  crcChecksumPtr : BitVec 64
  sourceLength : BitVec 32
  destinationLength : BitVec 32
  pattern : BitVec 64
  operation : BitVec 32
  expectedResult : BitVec 32
  flags : BitVec 64
  difConfig : JobDifConfig
  numaId : BitVec 32
  deriving DecidableEq, Repr

/-- `dml::align`: the next multiple of 64. -/
def align (pointer : BitVec 64) : BitVec 64 :=
  let offset := pointer &&& 63#64
  let offset := if offset ≠ 0#64 then 64#64 - offset else offset
  pointer + offset

/-! ### The accessors of a job -/

/-- The low half of a flag word goes to the flags of the descriptor. -/
def flags16 (flags : BitVec 64) : BitVec 16 := (flags &&& 0xFFFF#64).setWidth 16

/-- The third byte holds the flags of the operation. -/
def specificFlags8 (flags : BitVec 64) : BitVec 8 := ((flags >>> 16) &&& 0xFF#64).setWidth 8

namespace JobDifConfig

variable (cfg : JobDifConfig)

def difSrcFlags : BitVec 8 := (cfg.flags &&& 0xFF#32).setWidth 8

def difDstFlags : BitVec 8 := ((cfg.flags >>> 8) &&& 0xFF#32).setWidth 8

/-- The block size is or-ed into the low bits. -/
def difFlags : BitVec 8 := (((cfg.flags >>> 16) &&& 0xFF#32) ||| cfg.blockSize).setWidth 8

def srcParameters : DifParameters where
  refTagSeed := cfg.sourceReferenceTagSeed
  appTagMask := cfg.sourceApplicationTagMask
  appTagSeed := cfg.sourceApplicationTagSeed

def dstParameters : DifParameters where
  refTagSeed := cfg.destinationReferenceTagSeed
  appTagMask := cfg.destinationApplicationTagMask
  appTagSeed := cfg.destinationApplicationTagSeed

end JobDifConfig

namespace UserJob

def jobFlags (job : UserJob) : BitVec 16 := flags16 job.flags

def specificFlags (job : UserJob) : BitVec 8 := specificFlags8 job.flags

def expectedResult8 (job : UserJob) : BitVec 8 := job.expectedResult.setWidth 8

/-- The operation of a job; `none` is the `default` of a `switch`. -/
def op (job : UserJob) : Option Operation := Operation.ofCode job.operation.toNat

/-- The seed of a CRC job: the caller's, when the flags ask for it. -/
def crcSeed (m : Memory) (job : UserJob) : BitVec 32 :=
  if intersects job.specificFlags.toNat CrcSpecificFlag.readCrcSeed then
    BitVec.ofNat 32 (load m job.crcChecksumPtr.toNat 4)
  else 0#32

/-- The flags of a CRC job, without the one that asks for the seed. -/
def crcOptions (job : UserJob) : BitVec 8 :=
  job.specificFlags &&& (0xFF#8 ^^^ BitVec.ofNat 8 CrcSpecificFlag.readCrcSeed)

/-- `make_task`. -/
def makeTask (m : Memory) (job : UserJob) : DescriptorArgs :=
  match job.op with
  | some .nop => .nop job.jobFlags
  | some .batch => .batch (align job.destinationFirstPtr) (job.destinationLength / 96#32)
      job.jobFlags
  | some .drain => .drain job.destinationFirstPtr job.destinationSecondPtr job.jobFlags
      job.specificFlags
  | some .memMove => .memMove job.sourceFirstPtr job.destinationFirstPtr job.sourceLength
      job.jobFlags
  | some .fill => .fill job.pattern job.destinationFirstPtr job.destinationLength job.jobFlags
  | some .dualcast => .dualcast job.sourceFirstPtr job.destinationFirstPtr
      job.destinationSecondPtr job.sourceLength job.jobFlags job.specificFlags
  | some .compare => .compare job.sourceFirstPtr job.sourceSecondPtr job.sourceLength job.jobFlags
      job.expectedResult8
  | some .comparePattern => .comparePattern job.pattern job.sourceFirstPtr job.sourceLength
      job.jobFlags job.expectedResult8
  | some .crc => .crc job.sourceFirstPtr job.sourceLength (job.crcSeed m) job.jobFlags
      job.crcOptions
  | some .copyCrc => .copyCrc job.sourceFirstPtr job.destinationFirstPtr job.sourceLength
      (job.crcSeed m) job.jobFlags job.crcOptions
  | some .createDelta => .createDelta job.sourceFirstPtr job.sourceSecondPtr job.sourceLength
      job.destinationFirstPtr job.destinationLength job.jobFlags job.expectedResult8
  | some .applyDelta => .applyDelta job.sourceFirstPtr job.sourceLength job.destinationFirstPtr
      job.destinationLength job.jobFlags
  | some .difCheck => .difCheck job.sourceFirstPtr job.sourceLength job.difConfig.srcParameters
      job.jobFlags job.difConfig.difFlags job.difConfig.difSrcFlags
  | some .difInsert => .difInsert job.sourceFirstPtr job.destinationFirstPtr job.sourceLength
      job.difConfig.dstParameters job.jobFlags job.difConfig.difFlags job.difConfig.difDstFlags
  | some .difStrip => .difStrip job.sourceFirstPtr job.destinationFirstPtr job.sourceLength
      job.difConfig.srcParameters job.jobFlags job.difConfig.difFlags job.difConfig.difSrcFlags
  | some .difUpdate => .difUpdate job.sourceFirstPtr job.destinationFirstPtr job.sourceLength
      job.difConfig.srcParameters job.difConfig.dstParameters job.jobFlags job.difConfig.difFlags
      job.difConfig.difSrcFlags job.difConfig.difDstFlags
  | some .cacheFlush => .cacheFlush job.destinationFirstPtr job.destinationLength job.jobFlags
  -- an unknown operation becomes a safe one
  | none => .nop job.jobFlags

/-- The descriptor of the task of a job, tied to the record of the task. -/
def taskDescriptor (m : Memory) (job : UserJob) (record : ℕ) : Memory :=
  rebind (job.makeTask m).make 0 record

end UserJob

/-! ### Fields of a task descriptor -/

section TaskDescriptor

variable {m m' : Memory} {job : UserJob} {dsc record : ℕ}

/-- A field that `rebind` does not touch is the one the descriptor was built with. -/
theorem get_taskDescriptor (hm : HoldsDescriptor m' dsc (job.taskDescriptor m record)) {f : Field}
    (hwithin : f.Within descriptorSize) (hflags : f.Apart AnyDescriptor.flags)
    (hrecord : f.Apart AnyDescriptor.completionRecordAddress) :
    f.get m' dsc = f.get (job.makeTask m).make 0 := by
  rw [hm.get hwithin, UserJob.taskDescriptor, get_rebind hflags hrecord]

theorem sourceParameters_taskDescriptor
    (hm : HoldsDescriptor m' dsc (job.taskDescriptor m record)) :
    sourceParameters m' dsc = sourceParameters (job.makeTask m).make 0 := by
  simp only [sourceParameters, readBits]
  rw [get_taskDescriptor hm, get_taskDescriptor hm, get_taskDescriptor hm] <;> decide

theorem destinationParameters_taskDescriptor
    (hm : HoldsDescriptor m' dsc (job.taskDescriptor m record)) :
    destinationParameters m' dsc = destinationParameters (job.makeTask m).make 0 := by
  simp only [destinationParameters, readBits]
  rw [get_taskDescriptor hm, get_taskDescriptor hm, get_taskDescriptor hm] <;> decide

end TaskDescriptor

/-! ### The dif flags, there and back -/

/-- The flag bits that `dmldefs.h` names. -/
def documentedDifFlags : BitVec 32 := 0x0CFFFF#32

/-- The configuration a dif kernel rebuilds from its descriptor. -/
def rebuiltDifConfig (op : Operation) (m : Memory) (dsc : ℕ) : DifConfig :=
  match op with
  | .difInsert => Kernels.destinationDifConfig m dsc
  | .difUpdate => Kernels.updateDifConfig m dsc
  | _ => Kernels.sourceDifConfig m dsc

/-- The operations that read a protected source, and those that write a protected
destination. -/
def readsDif (op : Operation) : Bool := op == .difCheck || op == .difStrip || op == .difUpdate

def writesDif (op : Operation) : Bool := op == .difInsert || op == .difUpdate

/-- `cfg` is what the job asked for, in what concerns the operation. -/
structure DifConfig.Rebuilds (cfg : DifConfig) (op : Operation) (job : JobDifConfig) : Prop where
  blockSize : cfg.blockSize.val = job.blockSize.toNat
  crcFlags : ∀ i, 18 ≤ i → cfg.flags.testBit i = job.flags.getLsbD i
  sourceFlags : readsDif op = true → ∀ i, i < 8 → cfg.flags.testBit i = job.flags.getLsbD i
  sourceSeeds : readsDif op = true →
    cfg.sourceReferenceTagSeed = job.sourceReferenceTagSeed
      ∧ cfg.sourceApplicationTagSeed = job.sourceApplicationTagSeed
      ∧ cfg.sourceApplicationTagMask = job.sourceApplicationTagMask
  destinationFlags : writesDif op = true → ∀ i, 8 ≤ i → i < 16 →
    cfg.flags.testBit i = job.flags.getLsbD i
  destinationSeeds : writesDif op = true →
    cfg.destinationReferenceTagSeed = job.destinationReferenceTagSeed
      ∧ cfg.destinationApplicationTagSeed = job.destinationApplicationTagSeed
      ∧ cfg.destinationApplicationTagMask = job.destinationApplicationTagMask

/-- The three flag bytes of a dif descriptor as one word. -/
def packDifFlags (dif dst src : BitVec 8) : ℕ :=
  dif.toNat <<< 16 ||| dst.toNat <<< 8 ||| src.toNat

/-- Each byte of the word is one of the three. -/
theorem testBit_packDifFlags (dif dst src : BitVec 8) (i : ℕ) :
    (packDifFlags dif dst src).testBit i
      = if i < 8 then src.getLsbD i else if i < 16 then dst.getLsbD (i - 8)
        else dif.getLsbD (i - 16) := by
  rw [packDifFlags, Nat.testBit_or, Nat.testBit_or, Nat.testBit_shiftLeft, Nat.testBit_shiftLeft]
  simp only [BitVec.testBit_toNat]
  split_ifs with h8 h16
  · simp [show ¬ 16 ≤ i by omega, show ¬ 8 ≤ i by omega]
  · simp [show ¬ 16 ≤ i by omega, show 8 ≤ i by omega]
  · simp [show 16 ≤ i by omega, BitVec.getLsbD_of_ge src i (by omega),
      BitVec.getLsbD_of_ge dst (i - 8) (by omega)]

section Pack

variable {cfg : JobDifConfig}

theorem getLsbD_difSrcFlags {i : ℕ} (hi : i < 8) :
    cfg.difSrcFlags.getLsbD i = cfg.flags.getLsbD i := by
  have hmask : ∀ i < 8, (0xFF#32).getLsbD i = true := by decide
  rw [JobDifConfig.difSrcFlags, BitVec.getLsbD_setWidth, BitVec.getLsbD_and, hmask i hi]
  simp [hi]

theorem getLsbD_difDstFlags {i : ℕ} (hlo : 8 ≤ i) (hhi : i < 16) :
    cfg.difDstFlags.getLsbD (i - 8) = cfg.flags.getLsbD i := by
  have hmask : ∀ i < 8, (0xFF#32).getLsbD i = true := by decide
  rw [JobDifConfig.difDstFlags, BitVec.getLsbD_setWidth, BitVec.getLsbD_and,
    hmask _ (by omega), BitVec.getLsbD_ushiftRight, show 8 + (i - 8) = i by omega]
  simp [show i - 8 < 8 by omega]

theorem getLsbD_blockSize (hblock : cfg.blockSize.toNat < 4) {i : ℕ} (hi : 2 ≤ i) :
    cfg.blockSize.getLsbD i = false := by
  rw [← BitVec.testBit_toNat]
  exact Nat.testBit_lt_two_pow (lt_of_lt_of_le hblock (Nat.pow_le_pow_right two_pos hi))

theorem getLsbD_flags_of_documented (hflags : cfg.flags &&& ~~~documentedDifFlags = 0#32) {i : ℕ}
    (hi : documentedDifFlags.getLsbD i = false) : cfg.flags.getLsbD i = false := by
  rcases Nat.lt_or_ge i 32 with hlt | hge
  · have hbit : (cfg.flags &&& ~~~documentedDifFlags).getLsbD i = false := by rw [hflags]; simp
    rw [BitVec.getLsbD_and, BitVec.getLsbD_not, hi] at hbit
    simpa [hlt] using hbit
  · exact BitVec.getLsbD_of_ge _ _ hge

/-- Above the block size the third byte holds the CRC flags. -/
theorem getLsbD_difFlags (hblock : cfg.blockSize.toNat < 4)
    (hflags : cfg.flags &&& ~~~documentedDifFlags = 0#32) {i : ℕ} (hi : 18 ≤ i) :
    cfg.difFlags.getLsbD (i - 16) = cfg.flags.getLsbD i := by
  rw [JobDifConfig.difFlags, BitVec.getLsbD_setWidth, BitVec.getLsbD_or, BitVec.getLsbD_and,
    getLsbD_blockSize hblock (by omega), BitVec.getLsbD_ushiftRight,
    show 16 + (i - 16) = i by omega]
  rcases Nat.lt_or_ge i 24 with hlt | hge
  · have hmask : ∀ i < 8, (0xFF#32).getLsbD i = true := by decide
    rw [hmask _ (by omega)]
    simp [show i - 16 < 8 by omega]
  · have hundocumented : documentedDifFlags.getLsbD i = false := by
      rw [← BitVec.testBit_toNat]
      exact Nat.testBit_lt_two_pow
        (lt_of_lt_of_le (by decide : _ < 2 ^ 20) (Nat.pow_le_pow_right two_pos (by omega)))
    rw [getLsbD_flags_of_documented hflags hundocumented]
    simp

/-- The low two bits are the block size. -/
theorem difBlockSize_difFlags (hblock : cfg.blockSize.toNat < 4)
    (hflags : cfg.flags &&& ~~~documentedDifFlags = 0#32) :
    (Kernels.difBlockSize cfg.difFlags.toNat).val = cfg.blockSize.toNat := by
  have hbits : cfg.difFlags.toNat &&& 0b11 = cfg.blockSize.toNat := by
    apply Nat.eq_of_testBit_eq
    intro i
    rw [Nat.testBit_and, BitVec.testBit_toNat, BitVec.testBit_toNat]
    rcases Nat.lt_or_ge i 2 with hi | hi
    · -- the word has no documented flag where the block size goes
      have hmask : ∀ i < 2, (0b11 : ℕ).testBit i = true := by decide
      have hundocumented : ∀ i < 2, documentedDifFlags.getLsbD (16 + i) = false := by decide
      rw [hmask i hi, Bool.and_true, JobDifConfig.difFlags, BitVec.getLsbD_setWidth,
        BitVec.getLsbD_or, BitVec.getLsbD_and, BitVec.getLsbD_ushiftRight,
        getLsbD_flags_of_documented hflags (hundocumented i hi)]
      simp [show i < 8 by omega]
    · rw [getLsbD_blockSize hblock hi, Nat.testBit_lt_two_pow (x := 0b11), Bool.and_false]
      exact lt_of_lt_of_le (by decide) (Nat.pow_le_pow_right two_pos hi)
  rw [Kernels.difBlockSize, hbits, Fin.val_ofNat, Nat.mod_eq_of_lt hblock]

/-- Three bytes and two sets of parameters are enough. -/
theorem rebuilds_of_pack {rebuilt : DifConfig} {op : Operation} (dst src : BitVec 8)
    (hblock : cfg.blockSize.toNat < 4) (hflags : cfg.flags &&& ~~~documentedDifFlags = 0#32)
    (hpack : rebuilt.flags = packDifFlags cfg.difFlags dst src)
    (hsize : rebuilt.blockSize = Kernels.difBlockSize cfg.difFlags.toNat)
    (hsrc : readsDif op = true → src = cfg.difSrcFlags
      ∧ DifParameters.mk rebuilt.sourceReferenceTagSeed rebuilt.sourceApplicationTagMask
          rebuilt.sourceApplicationTagSeed = cfg.srcParameters)
    (hdst : writesDif op = true → dst = cfg.difDstFlags
      ∧ DifParameters.mk rebuilt.destinationReferenceTagSeed rebuilt.destinationApplicationTagMask
          rebuilt.destinationApplicationTagSeed = cfg.dstParameters) :
    rebuilt.Rebuilds op cfg where
  blockSize := by rw [hsize, difBlockSize_difFlags hblock hflags]
  crcFlags i hi := by
    rw [hpack, testBit_packDifFlags, if_neg (by omega), if_neg (by omega),
      getLsbD_difFlags hblock hflags hi]
  sourceFlags hop i hi := by
    rw [hpack, testBit_packDifFlags, if_pos hi, (hsrc hop).1, getLsbD_difSrcFlags hi]
  sourceSeeds hop := by
    obtain ⟨href, hmask, happ⟩ := DifParameters.mk.inj (hsrc hop).2
    exact ⟨href, happ, hmask⟩
  destinationFlags hop i hlo hhi := by
    rw [hpack, testBit_packDifFlags, if_neg (by omega), if_pos hhi, (hdst hop).1,
      getLsbD_difDstFlags hlo hhi]
  destinationSeeds hop := by
    obtain ⟨href, hmask, happ⟩ := DifParameters.mk.inj (hdst hop).2
    exact ⟨href, happ, hmask⟩

/-- A check and a strip rebuild the source half only. -/
theorem sourceDifConfig_rebuilds {m : Memory} {dsc : ℕ} {op : Operation}
    (hblock : cfg.blockSize.toNat < 4) (hflags : cfg.flags &&& ~~~documentedDifFlags = 0#32)
    (hop : writesDif op = false)
    (hdif : DifDescriptor.difFlags.get m dsc = cfg.difFlags.toNat)
    (hsrc : DifDescriptor.sourceDifFlags.get m dsc = cfg.difSrcFlags.toNat)
    (hparameters : sourceParameters m dsc = cfg.srcParameters) :
    (Kernels.sourceDifConfig m dsc).Rebuilds op cfg := by
  refine rebuilds_of_pack 0#8 cfg.difSrcFlags hblock hflags ?_ ?_
    (fun _ => ⟨rfl, hparameters⟩) (fun hwrites => by simp [hop] at hwrites)
  · simp [Kernels.sourceDifConfig, packDifFlags, hdif, hsrc]
  · simp only [Kernels.sourceDifConfig, hdif]

end Pack

/-- What the descriptor of a dif job holds of its configuration: the flags of the job, and
the half or halves the operation uses. -/
structure HoldsDif (d : Memory) (op : Operation) (cfg : JobDifConfig) : Prop where
  difFlags : readBits d 0 DifDescriptor.difFlags 8 = cfg.difFlags
  source : readsDif op = true → readBits d 0 DifDescriptor.sourceDifFlags 8 = cfg.difSrcFlags
    ∧ sourceParameters d 0 = cfg.srcParameters
  destination : writesDif op = true →
    readBits d 0 DifDescriptor.destinationDifFlags 8 = cfg.difDstFlags
      ∧ destinationParameters d 0 = cfg.dstParameters

theorem holdsDif_makeTask {m : Memory} {job : UserJob} {op : Operation} (hop : job.op = some op)
    (hdif : (readsDif op || writesDif op) = true) :
    HoldsDif (job.makeTask m).make op job.difConfig := by
  have hview := viewDescriptor_make (job.makeTask m)
  have hcode := operationOf_make (job.makeTask m)
  -- the view of each operation gives back the bytes and the seeds of the job
  cases op with
  | difCheck =>
    simp only [UserJob.makeTask, hop, viewDescriptor, DescriptorArgs.operation] at hview hcode ⊢
    simp only [hcode, Option.some.injEq, DescriptorArgs.difCheck.injEq] at hview
    obtain ⟨-, -, hparameters, -, hoptions, hsrc⟩ := hview
    exact ⟨hoptions, fun _ => ⟨hsrc, hparameters⟩, fun h => absurd h (by decide)⟩
  | difStrip =>
    simp only [UserJob.makeTask, hop, viewDescriptor, DescriptorArgs.operation] at hview hcode ⊢
    simp only [hcode, Option.some.injEq, DescriptorArgs.difStrip.injEq] at hview
    obtain ⟨-, -, -, hparameters, -, hoptions, hsrc⟩ := hview
    exact ⟨hoptions, fun _ => ⟨hsrc, hparameters⟩, fun h => absurd h (by decide)⟩
  | difInsert =>
    simp only [UserJob.makeTask, hop, viewDescriptor, DescriptorArgs.operation] at hview hcode ⊢
    simp only [hcode, Option.some.injEq, DescriptorArgs.difInsert.injEq] at hview
    obtain ⟨-, -, -, hparameters, -, hoptions, hdst⟩ := hview
    exact ⟨hoptions, fun h => absurd h (by decide), fun _ => ⟨hdst, hparameters⟩⟩
  | difUpdate =>
    simp only [UserJob.makeTask, hop, viewDescriptor, DescriptorArgs.operation] at hview hcode ⊢
    simp only [hcode, Option.some.injEq, DescriptorArgs.difUpdate.injEq] at hview
    obtain ⟨-, -, -, hsrcParameters, hdstParameters, -, hoptions, hsrc, hdst⟩ := hview
    exact ⟨hoptions, fun _ => ⟨hsrc, hsrcParameters⟩, fun _ => ⟨hdst, hdstParameters⟩⟩
  | _ => simp [readsDif, writesDif] at hdif

/-- **The kernels rebuild the configuration of the job** from any copy of its descriptor. -/
theorem difConfig_rebuilds {m m' : Memory} {job : UserJob} {op : Operation} {dsc record : ℕ}
    (hop : job.op = some op) (hdif : (readsDif op || writesDif op) = true)
    (hblock : job.difConfig.blockSize.toNat < 4)
    (hflags : job.difConfig.flags &&& ~~~documentedDifFlags = 0#32)
    (hm : HoldsDescriptor m' dsc (job.taskDescriptor m record)) :
    (rebuiltDifConfig op m' dsc).Rebuilds op job.difConfig := by
  obtain ⟨hoptions, hsource, hdestination⟩ := holdsDif_makeTask (m := m) hop hdif
  -- a byte of the copy is that of the descriptor
  have hbyte : ∀ {f : Field} {v : BitVec 8}, f.Within descriptorSize →
      f.Apart AnyDescriptor.flags → f.Apart AnyDescriptor.completionRecordAddress →
      8 * f.width = 8 → readBits (job.makeTask m).make 0 f 8 = v → f.get m' dsc = v.toNat := by
    intro f v hwithin hflags hrecord hwidth hv
    rw [get_taskDescriptor hm hwithin hflags hrecord]
    exact get_of_readBits hwidth hv
  have hdifFlags := hbyte (by decide) (by decide) (by decide) rfl hoptions
  have hsrcFlags := fun h => hbyte (by decide) (by decide) (by decide) rfl (hsource h).1
  have hdstFlags := fun h => hbyte (by decide) (by decide) (by decide) rfl (hdestination h).1
  have hsrcParameters := fun h => (sourceParameters_taskDescriptor hm).trans (hsource h).2
  have hdstParameters := fun h => (destinationParameters_taskDescriptor hm).trans (hdestination h).2
  cases op with
  | difCheck | difStrip =>
    exact sourceDifConfig_rebuilds hblock hflags rfl hdifFlags (hsrcFlags rfl) (hsrcParameters rfl)
  | difInsert =>
    refine rebuilds_of_pack job.difConfig.difDstFlags 0#8 hblock hflags ?_ ?_
      (fun hreads => absurd hreads (by decide)) (fun _ => ⟨rfl, hdstParameters rfl⟩)
    · simp [rebuiltDifConfig, Kernels.destinationDifConfig, packDifFlags, hdifFlags, hdstFlags rfl]
    · simp only [rebuiltDifConfig, Kernels.destinationDifConfig, hdifFlags]
  | difUpdate =>
    refine rebuilds_of_pack job.difConfig.difDstFlags job.difConfig.difSrcFlags hblock hflags ?_ ?_
      (fun _ => ⟨rfl, hsrcParameters rfl⟩) (fun _ => ⟨rfl, hdstParameters rfl⟩)
    · simp only [rebuiltDifConfig, Kernels.updateDifConfig, packDifFlags, hdifFlags, hsrcFlags rfl,
        hdstFlags rfl]
    · simp only [rebuiltDifConfig, Kernels.updateDifConfig, hdifFlags]
  | _ => simp [readsDif, writesDif] at hdif

/-! ### The format as a whole -/

/-- **Encoding and decoding agree**: the accessors of a view do not overlap, each of them
returns what the descriptor was built with (and zero when there was no argument for it),
`rebind` changes the record address and the two completion flags only, and the kernels
rebuild the dif configuration of the job. -/
theorem descriptor_agrees :
    (∀ op, (viewFields op).Pairwise Field.Apart ∧ ∀ f ∈ viewFields op, f.Within descriptorSize)
      ∧ (∀ args : DescriptorArgs, viewDescriptor args.make 0 = some args
          ∧ ∀ f ∈ viewFields args.operation, f ∉ assignedFields args.operation →
              f.get args.make 0 = 0)
      ∧ (∀ (m : Memory) (dsc record : ℕ), record < 2 ^ 64 →
          AnyDescriptor.completionRecordAddress.get (rebind m dsc record) dsc = record
            ∧ (∀ i, (AnyDescriptor.flags.get (rebind m dsc record) dsc).testBit i
                = (decide (i = 2 ∨ i = 3) || (AnyDescriptor.flags.get m dsc).testBit i))
            ∧ ∀ x, x ∉ Region.addrs ⟨dsc + 4, 2⟩ → x ∉ Region.addrs ⟨dsc + 8, 8⟩ →
                rebind m dsc record x = m x)
      ∧ ∀ (m m' : Memory) (job : UserJob) (op : Operation) (dsc record : ℕ),
          job.op = some op → (readsDif op || writesDif op) = true →
          job.difConfig.blockSize.toNat < 4 →
          job.difConfig.flags &&& ~~~documentedDifFlags = 0#32 →
          HoldsDescriptor m' dsc (job.taskDescriptor m record) →
          (rebuiltDifConfig op m' dsc).Rebuilds op job.difConfig := by
  refine ⟨viewFields_pairwise, fun args => ⟨viewDescriptor_make args, ?_⟩, ?_, ?_⟩
  · intro f hf hnot
    exact get_make_of_notMem args hf hnot
  · intro m dsc record hrecord
    exact rebind_spec hrecord
  · intro m m' job op dsc record hop hdif hblock hflags hm
    exact difConfig_rebuilds hop hdif hblock hflags hm

/-- An update of two blocks of 520 bytes, with some flag set in every byte. -/
def sampleUpdateJob : UserJob where
  sourceFirstPtr := 0x1000#64
  sourceSecondPtr := 0#64
  destinationFirstPtr := 0x8000#64
  destinationSecondPtr := 0#64
  crcChecksumPtr := 0#64
  sourceLength := 1056#32
  destinationLength := 1056#32
  pattern := 0#64
  operation := 0x15#32
  expectedResult := 0#32
  flags := 0#64
  difConfig :=
    { flags := 0x041820#32
      sourceReferenceTagSeed := 7#32
      sourceApplicationTagSeed := 5#16
      sourceApplicationTagMask := 0xFF00#16
      destinationReferenceTagSeed := 9#32
      destinationApplicationTagSeed := 3#16
      destinationApplicationTagMask := 0x00FF#16
      blockSize := 1#32 }
  numaId := 0#32

theorem descriptor_agrees_update :
    AnyDescriptor.completionRecordAddress.get (rebind emptyDescriptor 0 4096) 0 = 4096
      ∧ (rebuiltDifConfig .difUpdate (sampleUpdateJob.taskDescriptor emptyDescriptor 4096)
          0).Rebuilds .difUpdate sampleUpdateJob.difConfig :=
  ⟨(descriptor_agrees.2.2.1 emptyDescriptor 0 4096 (by decide)).1,
    descriptor_agrees.2.2.2 emptyDescriptor _ sampleUpdateJob .difUpdate 0 4096 rfl rfl (by decide)
      (by decide) fun i _ => by rw [Nat.zero_add]⟩

end DataMover
