import DataMover.Kernels

/-!
# Inserting, checking and stripping

The three functions agree on the layout of a protected block: what an insert wrote, a
check with the same seeds, mask, guard options and tag formats finds as expected, block
after block, and a strip gives the source back.

## Main definitions

* `DifConfig.Reads` — a configuration that reads what another one writes.
* `DifJob.Protects` — a job over the protected stream an insert leaves.

## Main results

* `difBitsAt_insert` — no error bits at any block of an inserted stream.
* `dif_roundTrip` — the round trip.
-/

namespace DataMover

open ByteMemory

/-- A check under `chk` expects what an insert under `ins` writes, and does not take a
field of ones for an error. -/
structure DifConfig.Reads (chk ins : DifConfig) : Prop where
  blockSize : chk.blockSize = ins.blockSize
  referenceTagSeed : chk.sourceReferenceTagSeed = ins.destinationReferenceTagSeed
  applicationTagSeed : chk.sourceApplicationTagSeed = ins.destinationApplicationTagSeed
  applicationTagMask : chk.sourceApplicationTagMask = ins.destinationApplicationTagMask
  invertCrcSeed : hasFlag chk.flags DifFlag.invertCrcSeed = hasFlag ins.flags DifFlag.invertCrcSeed
  invertCrcResult :
    hasFlag chk.flags DifFlag.invertCrcResult = hasFlag ins.flags DifFlag.invertCrcResult
  applicationTagFormat :
    hasFlag chk.flags DifFlag.srcIncAppTag = hasFlag ins.flags DifFlag.dstIncAppTag
  referenceTagFormat :
    hasFlag chk.flags DifFlag.srcFixRefTag = hasFlag ins.flags DifFlag.dstFixRefTag
  noError : ¬(hasFlag chk.flags DifFlag.srcFDetectAll = true
    ∧ hasFlag chk.flags DifFlag.srcFEnableError = true)

/-- `out` is a job over the `n` protected blocks that the insert `job` of `n` blocks
leaves, and neither job writes what it reads. -/
structure DmlJob.Protects (job out : DmlJob) (n : ℕ) : Prop where
  reads : out.difConfig.Reads job.difConfig
  sourceLength : job.sourceLength = n * job.difConfig.blockBytes
  sourceFirstPtr : out.sourceFirstPtr = job.destinationFirstPtr
  protectedLength : out.sourceLength = n * job.difConfig.step
  insert_apart : Region.Apart ⟨job.sourceFirstPtr, n * job.difConfig.blockBytes⟩
    ⟨job.destinationFirstPtr, n * job.difConfig.step⟩

namespace DifConfig.Reads

variable {chk ins : DifConfig} (h : chk.Reads ins)
include h

theorem blockBytes : chk.blockBytes = ins.blockBytes := blockBytes_of_blockSize h.blockSize

theorem step : chk.step = ins.step := step_of_blockSize h.blockSize

theorem sameGuard : chk.SameGuard ins := ⟨h.blockSize, h.invertCrcSeed, h.invertCrcResult⟩

theorem appIncrement : chk.sourceAppIncrement = ins.destinationAppIncrement := by
  rw [DifConfig.sourceAppIncrement, DifConfig.destinationAppIncrement, h.applicationTagFormat]

theorem refIncrement : chk.sourceRefIncrement = ins.destinationRefIncrement := by
  rw [DifConfig.sourceRefIncrement, DifConfig.destinationRefIncrement, h.referenceTagFormat]

/-- Equal blocks have the same guard under both configurations. -/
theorem guardOf {m m' : Memory} {src src' : ℕ}
    (hblock : ∀ i, i < ins.blockBytes → m' (src' + i) = m (src + i)) :
    DataMover.guardOf m' chk src' = DataMover.guardOf m ins src :=
  h.sameGuard.guardOf_eq hblock

end DifConfig.Reads

/-! ### The field of a block -/

section Field

variable {m : Memory} {a : ℕ} {guard app : BitVec 16} {ref : BitVec 32}

/-- The three parts of a field, read back. -/
theorem load_difByte (h : ∀ i, i < 8 → m (a + i) = difByte guard app ref i) :
    load m a 2 = guard.toNat ∧ load m (a + 2) 2 = app.toNat ∧ load m (a + 4) 4 = ref.toNat := by
  refine ⟨?_, ?_, ?_⟩
  · rw [load_eq_iff guard.isLt]
    intro i hi
    rw [h i (by omega), difByte, if_pos hi]
  · rw [load_eq_iff app.isLt]
    intro i hi
    rw [Nat.add_assoc, h _ (by omega), difByte, if_neg (by omega), if_pos (by omega),
      Nat.add_sub_cancel_left]
  · rw [load_eq_iff ref.isLt]
    intro i hi
    rw [Nat.add_assoc, h _ (by omega), difByte, if_neg (by omega), if_neg (by omega),
      Nat.add_sub_cancel_left]

/-- A block whose field is the expected one has no error bits. -/
theorem difCheckBits_eq_zero {cfg : DifConfig} {src : ℕ} {app : BitVec 16} {ref : BitVec 32}
    (hno : ¬(hasFlag cfg.flags DifFlag.srcFDetectAll = true
      ∧ hasFlag cfg.flags DifFlag.srcFEnableError = true))
    (h : ∀ i, i < 8 → m (src + cfg.blockBytes + i)
      = difByte (guardOf m cfg src) (reverseBytes16u (app &&& ~~~cfg.sourceApplicationTagMask))
          (reverseBytes32u ref) i) :
    difCheckBits m cfg src app ref = 0 := by
  obtain ⟨hguard, happ, href⟩ := load_difByte h
  have hall : (hasFlag cfg.flags DifFlag.srcFDetectAll
      && hasFlag cfg.flags DifFlag.srcFEnableError) = false := by
    rw [Bool.and_eq_false_iff]
    by_contra hboth
    simp only [not_or, Bool.not_eq_false] at hboth
    exact hno hboth
  simp only [difCheckBits, hguard, happ, href, BitVec.ofNat_toNat, BitVec.setWidth_eq, hall,
    Bool.false_and, Bool.false_eq_true, if_false, bne_self_eq_false, Bool.and_false, Nat.or_self,
    ite_self]

end Field

/-! ### The round trip -/

section RoundTrip

variable {m : Memory} {job out : DmlJob} {n : ℕ} (h : job.Protects out n)
include h

/-- The protected stream, block by block. -/
theorem DmlJob.Protects.insert_eq :
    dmlLegacyDifInsert m job
      = writeBlocks m job.destinationFirstPtr job.difConfig.step n (insertedByte m job) :=
  dmlLegacyDifInsert_eq
    (by rw [h.sourceLength, Nat.mul_div_cancel _ job.difConfig.blockBytes_pos]) h.insert_apart

/-- **No error bits at any block of an inserted stream.** -/
theorem difBitsAt_insert {j : ℕ} (hj : j < n) :
    difBitsAt (dmlLegacyDifInsert m job) out j = 0 := by
  have hr := h.reads
  have hbyte : ∀ i, i < job.difConfig.step →
      dmlLegacyDifInsert m job (job.destinationFirstPtr + j * job.difConfig.step + i)
        = insertedByte m job j i := fun i hi => by
    rw [h.insert_eq, writeBlocks_of_lt hj hi]
  have hstep : job.difConfig.step = job.difConfig.blockBytes + 8 := rfl
  have hguard : guardOf (dmlLegacyDifInsert m job) out.difConfig
      (job.destinationFirstPtr + j * job.difConfig.step)
        = guardOf m job.difConfig (job.sourceFirstPtr + j * job.difConfig.blockBytes) := by
    refine hr.guardOf fun i hi => ?_
    rw [hbyte i (by omega), insertedByte, if_pos hi]
  refine difCheckBits_eq_zero hr.noError fun i hi => ?_
  rw [h.sourceFirstPtr, hr.step, hguard, hr.blockBytes, hr.applicationTagSeed, hr.appIncrement,
    hr.referenceTagSeed, hr.refIncrement, hr.applicationTagMask, Nat.add_assoc,
    hbyte _ (by omega), insertedByte, if_neg (by omega), Nat.add_sub_cancel_left]
  rfl

/-- The check passes. -/
theorem dmlLegacyDifCheck_insert : (dmlLegacyDifCheck (dmlLegacyDifInsert m job) out).1 = .ok := by
  refine dmlLegacyDifCheck_ok_iff.mpr fun j hj => difBitsAt_insert h ?_
  rwa [h.protectedLength, h.reads.step, Nat.mul_div_cancel _ job.difConfig.step_pos] at hj

/-- Nothing is copied out of a stream whose check fails; this one passes. -/
theorem dmlLegacyDifStrip_insert :
    (dmlLegacyDifStrip (dmlLegacyDifInsert m job) out).1 = .ok
      ∧ (dmlLegacyDifStrip (dmlLegacyDifInsert m job) out).2.1
        = difStripBlocks (dmlLegacyDifInsert m job) out := by
  rw [dmlLegacyDifStrip, dmlLegacyDifCheck_of_ok (dmlLegacyDifCheck_insert h)]
  exact ⟨rfl, rfl⟩

/-- **The round trip.**  A check of what an insert wrote passes, and a strip gives the
source back. -/
theorem dif_roundTrip (m : Memory)
    (hstrip : Region.Apart ⟨job.destinationFirstPtr, n * job.difConfig.step⟩
      ⟨out.destinationFirstPtr, n * job.difConfig.blockBytes⟩) :
    (dmlLegacyDifCheck (dmlLegacyDifInsert m job) out).1 = .ok
      ∧ (dmlLegacyDifStrip (dmlLegacyDifInsert m job) out).1 = .ok
      ∧ ∀ i, i < n * job.difConfig.blockBytes →
        (dmlLegacyDifStrip (dmlLegacyDifInsert m job) out).2.1 (out.destinationFirstPtr + i)
          = m (job.sourceFirstPtr + i) := by
  obtain ⟨hok, hmem⟩ := dmlLegacyDifStrip_insert (m := m) h
  refine ⟨dmlLegacyDifCheck_insert h, hok, fun i hi => ?_⟩
  have hb := job.difConfig.blockBytes_pos
  have hstep : job.difConfig.step = job.difConfig.blockBytes + 8 := rfl
  -- byte `i` of the source is byte `i % b` of block `i / b`
  have hj : i / job.difConfig.blockBytes < n := Nat.div_lt_of_lt_mul (by rwa [Nat.mul_comm] at hi)
  have ht : i % job.difConfig.blockBytes < job.difConfig.blockBytes := Nat.mod_lt _ hb
  have hsplit : ∀ a, a + i = a + i / job.difConfig.blockBytes * job.difConfig.blockBytes
      + i % job.difConfig.blockBytes := fun a => by
    rw [Nat.add_assoc, Nat.mul_comm, Nat.div_add_mod]
  have hblocks : difStripBlocks (dmlLegacyDifInsert m job) out
      = writeBlocks (dmlLegacyDifInsert m job) out.destinationFirstPtr out.difConfig.blockBytes n
          (strippedByte (dmlLegacyDifInsert m job) out) := by
    refine difStripBlocks_eq ?_ ?_
    · rw [h.protectedLength, h.reads.step, Nat.mul_div_cancel _ job.difConfig.step_pos]
    · rw [h.sourceFirstPtr, h.reads.step, h.reads.blockBytes]
      exact hstrip
  rw [h.reads.blockBytes] at hblocks
  rw [hmem, hblocks, hsplit, writeBlocks_of_lt hj ht, strippedByte, h.sourceFirstPtr, h.reads.step,
    h.insert_eq, writeBlocks_of_lt hj (by omega), insertedByte, if_pos ht, hsplit]

end RoundTrip

/-- Two blocks of 512 bytes at 2048, inserted at 4096, with an incrementing application
tag that wraps and a fixed reference tag. -/
def insertSample : DmlJob where
  sourceFirstPtr := 2048
  destinationFirstPtr := 4096
  sourceLength := 1024
  offset := 0
  result := 0
  difConfig :=
    { flags := DifFlag.invertCrcSeed ||| DifFlag.dstIncAppTag ||| DifFlag.dstFixRefTag
      sourceReferenceTagSeed := 0
      sourceApplicationTagSeed := 0
      sourceApplicationTagMask := 0
      destinationReferenceTagSeed := 0x12345678
      destinationApplicationTagSeed := 0xFFFF
      destinationApplicationTagMask := 0x00F0
      blockSize := Kernels.difBlockSize 0 }

/-- The strip of the sample, back to where it came from. -/
def stripSample : DmlJob where
  sourceFirstPtr := 4096
  destinationFirstPtr := 2048
  sourceLength := 1040
  offset := 0
  result := 0
  difConfig :=
    { flags := DifFlag.invertCrcSeed ||| DifFlag.srcIncAppTag ||| DifFlag.srcFixRefTag
      sourceReferenceTagSeed := 0x12345678
      sourceApplicationTagSeed := 0xFFFF
      sourceApplicationTagMask := 0x00F0
      destinationReferenceTagSeed := 0
      destinationApplicationTagSeed := 0
      destinationApplicationTagMask := 0
      blockSize := Kernels.difBlockSize 0 }

/-- The round trip of two blocks of any contents. -/
theorem dif_roundTrip_sample :
    insertSample.Protects stripSample 2
      ∧ (dmlLegacyDifCheck (dmlLegacyDifInsert (fun x => BitVec.ofNat 8 x) insertSample)
          stripSample).1 = .ok := by
  have hprotects : insertSample.Protects stripSample 2 := by
    refine ⟨?_, by decide, by decide, by decide, by decide⟩
    constructor <;> decide
  exact ⟨hprotects, (dif_roundTrip hprotects _ (by decide)).1⟩

end DataMover
