import DataMover.Dif

/-!
# A protected stream in two parts

A walk over a protected stream that stops after `b` blocks and goes on with the
tags it had reached sees the same blocks, tags and error bits as one walk over the
whole stream.

## Main definitions

* `ContinuesSource`, `ContinuesDestination` — a configuration whose source or
  destination tags are those of block `b`.
* `Resumes` — a job that starts at block `b` of the source of another.

## Main results

* `dmlLegacyDifCheck_resume` — the check of the rest finds what the whole check
  finds.
* `updatedByte_resume`, `insertedByte_resume`, `strippedByte_resume` — the blocks of
  the rest are the blocks of the whole from `b` on.
-/

namespace DataMover

open ByteMemory

/-! ### Configurations -/

/-- The source tags go on at block `b`. -/
structure ContinuesSource (cfg' cfg : DifConfig) (b : ℕ) : Prop where
  flags : cfg'.flags = cfg.flags
  blockSize : cfg'.blockSize = cfg.blockSize
  mask : cfg'.sourceApplicationTagMask = cfg.sourceApplicationTagMask
  app : cfg'.sourceApplicationTagSeed = tagAt cfg.sourceApplicationTagSeed cfg.sourceAppIncrement b
  ref : cfg'.sourceReferenceTagSeed = tagAt cfg.sourceReferenceTagSeed cfg.sourceRefIncrement b

/-- The destination tags go on at block `b`. -/
structure ContinuesDestination (cfg' cfg : DifConfig) (b : ℕ) : Prop where
  flags : cfg'.flags = cfg.flags
  blockSize : cfg'.blockSize = cfg.blockSize
  mask : cfg'.destinationApplicationTagMask = cfg.destinationApplicationTagMask
  app : cfg'.destinationApplicationTagSeed
    = tagAt cfg.destinationApplicationTagSeed cfg.destinationAppIncrement b
  ref : cfg'.destinationReferenceTagSeed
    = tagAt cfg.destinationReferenceTagSeed cfg.destinationRefIncrement b

section Config

variable {cfg' cfg : DifConfig} {b : ℕ}

/-- The guard depends on the flags, the block size and the bytes of the block. -/
theorem guardOf_of_flags (hflags : cfg'.flags = cfg.flags) (hsize : cfg'.blockSize = cfg.blockSize)
    {m m' : Memory} {src src' : ℕ}
    (h : ∀ i, i < cfg.blockBytes → m' (src' + i) = m (src + i)) :
    guardOf m' cfg' src' = guardOf m cfg src := by
  have hsame : cfg'.SameGuard cfg := ⟨hsize, by rw [hflags], by rw [hflags]⟩
  exact hsame.guardOf_eq h

theorem ContinuesSource.app_at (h : ContinuesSource cfg' cfg b) (j : ℕ) :
    tagAt cfg'.sourceApplicationTagSeed cfg'.sourceAppIncrement j
      = tagAt cfg.sourceApplicationTagSeed cfg.sourceAppIncrement (b + j) := by
  have hinc : cfg'.sourceAppIncrement = cfg.sourceAppIncrement := by
    unfold DifConfig.sourceAppIncrement
    rw [h.flags]
  rw [hinc, h.app, tagAt_tagAt]

theorem ContinuesSource.ref_at (h : ContinuesSource cfg' cfg b) (j : ℕ) :
    tagAt cfg'.sourceReferenceTagSeed cfg'.sourceRefIncrement j
      = tagAt cfg.sourceReferenceTagSeed cfg.sourceRefIncrement (b + j) := by
  have hinc : cfg'.sourceRefIncrement = cfg.sourceRefIncrement := by
    unfold DifConfig.sourceRefIncrement
    rw [h.flags]
  rw [hinc, h.ref, tagAt_tagAt]

theorem ContinuesDestination.app_at (h : ContinuesDestination cfg' cfg b) (j : ℕ) :
    destinationAppTagAt cfg' j = destinationAppTagAt cfg (b + j) := by
  have hinc : cfg'.destinationAppIncrement = cfg.destinationAppIncrement := by
    unfold DifConfig.destinationAppIncrement
    rw [h.flags]
  unfold destinationAppTagAt
  rw [hinc, h.app, tagAt_tagAt, h.mask]

theorem ContinuesDestination.ref_at (h : ContinuesDestination cfg' cfg b) (j : ℕ) :
    destinationRefTagAt cfg' j = destinationRefTagAt cfg (b + j) := by
  have hinc : cfg'.destinationRefIncrement = cfg.destinationRefIncrement := by
    unfold DifConfig.destinationRefIncrement
    rw [h.flags]
  unfold destinationRefTagAt
  rw [hinc, h.ref, tagAt_tagAt]

/-- The error bits of a block depend on its bytes, the expected tags and the
settings of the check. -/
theorem ContinuesSource.difCheckBits_eq (h : ContinuesSource cfg' cfg b) {m m' : Memory}
    {src : ℕ} (hread : ∀ i, i < cfg.step → m' (src + i) = m (src + i)) (app : BitVec 16)
    (ref : BitVec 32) : difCheckBits m' cfg' src app ref = difCheckBits m cfg src app ref := by
  have hstep : cfg.step = cfg.blockBytes + 8 := rfl
  have hload : ∀ o w, o + w ≤ 8 →
      load m' (src + cfg.blockBytes + o) w = load m (src + cfg.blockBytes + o) w := by
    intro o w how
    refine load_congr fun i hi => ?_
    rw [Nat.add_assoc, Nat.add_assoc]
    exact hread _ (by omega)
  have h0 := hload 0 2 (by decide)
  have h8 := hload 0 8 (by decide)
  rw [Nat.add_zero] at h0 h8
  have hguard : guardOf m' cfg' src = guardOf m cfg src :=
    guardOf_of_flags h.flags h.blockSize fun i hi => hread i (by omega)
  unfold difCheckBits
  simp only [blockBytes_of_blockSize h.blockSize, h.flags, h.mask, hguard, h0, h8,
    hload 2 2 (by decide), hload 4 4 (by decide)]

end Config

/-! ### Jobs -/

/-- The job starts at block `b` of the protected source of `job`, with the tags of
that block, and has what is left of it. -/
structure Resumes (job' job : DmlJob) (b : ℕ) : Prop where
  config : ContinuesSource job'.difConfig job.difConfig b
  pointer : job'.sourceFirstPtr = job.sourceFirstPtr + b * job.difConfig.step
  length : job'.sourceLength = job.sourceLength - b * job.difConfig.step

section Check

variable {m m' : Memory} {job job' : DmlJob} {b : ℕ} (hr : Resumes job' job b)
include hr

theorem Resumes.step_eq : job'.difConfig.step = job.difConfig.step :=
  step_of_blockSize hr.config.blockSize

/-- The blocks that are left. -/
theorem Resumes.blocks :
    job'.sourceLength / job'.difConfig.step = job.sourceLength / job.difConfig.step - b := by
  rw [hr.step_eq, hr.length, Nat.mul_comm, Nat.sub_mul_div]

/-- Block `j` of the rest lies where block `b + j` of the whole does. -/
theorem Resumes.block_pointer (j : ℕ) :
    job'.sourceFirstPtr + j * job'.difConfig.step
      = job.sourceFirstPtr + (b + j) * job.difConfig.step := by
  rw [hr.step_eq, hr.pointer, Nat.add_mul, Nat.add_assoc]

/-- The error bits of the rest are those of the whole. -/
theorem difBitsAt_resume {j : ℕ}
    (hread : ∀ i, i < job.difConfig.step →
      m' (job.sourceFirstPtr + (b + j) * job.difConfig.step + i)
        = m (job.sourceFirstPtr + (b + j) * job.difConfig.step + i)) :
    difBitsAt m' job' j = difBitsAt m job (b + j) := by
  unfold difBitsAt
  simp only
  rw [hr.block_pointer, hr.config.app_at, hr.config.ref_at, hr.config.difCheckBits_eq hread]

/-- **The check of the rest finds what the whole check finds**: the same status
and error bits, and an offset that counts from block `b`. -/
theorem dmlLegacyDifCheck_resume (hb : b * job.difConfig.step ≤ job.sourceLength)
    (hread : ∀ i, i < job.sourceLength →
      m' (job.sourceFirstPtr + i) = m (job.sourceFirstPtr + i))
    (hpass : ∀ j, j < b → difBitsAt m job j = 0) :
    (dmlLegacyDifCheck m' job').1 = (dmlLegacyDifCheck m job).1
      ∧ (dmlLegacyDifCheck m' job').2.result = (dmlLegacyDifCheck m job).2.result
      ∧ ((dmlLegacyDifCheck m job).1 = .difCheckError →
        ((dmlLegacyDifCheck m' job').2.offset + b * job.difConfig.step) % 2 ^ 32
          = (dmlLegacyDifCheck m job).2.offset) := by
  have hblocks : b ≤ job.sourceLength / job.difConfig.step :=
    (Nat.le_div_iff_mul_le job.difConfig.step_pos).mpr hb
  obtain ⟨n, hn⟩ := Nat.exists_eq_add_of_le hblocks
  have hrest : job'.sourceLength / job'.difConfig.step = n := by
    rw [hr.blocks, hn, Nat.add_sub_cancel_left]
  have hbits : ∀ j, j < n → difBitsAt m' job' j = difBitsAt m job (b + j) := by
    intro j hj
    refine difBitsAt_resume hr fun i hi => ?_
    have hlt := add_mul_lt (show b + j < job.sourceLength / job.difConfig.step by omega) hi
    have hle := Nat.div_mul_le_self job.sourceLength job.difConfig.step
    rw [Nat.add_assoc]
    exact hread _ (by omega)
  have hsearch : Loop.search (fun j => difBitsAt m' job' j != 0) n
      = Loop.search (fun j => difBitsAt m job (b + j) != 0) n :=
    Loop.search_congr fun j hj => by rw [hbits j hj]
  have hwhole := Loop.search_add (p := fun j => difBitsAt m job j != 0)
    (fun j hj => by rw [hpass j hj]; rfl) n
  rw [dmlLegacyDifCheck_eq, dmlLegacyDifCheck_eq, hrest, hn, hsearch, hwhole]
  cases hfound : Loop.search (fun j => difBitsAt m job (b + j) != 0) n with
  | none => exact ⟨rfl, rfl, fun h => nomatch h⟩
  | some j =>
    have hj := (Loop.search_eq_some.mp hfound).1
    simp only [Option.map_some]
    refine ⟨trivial, hbits j hj, fun _ => ?_⟩
    rw [hr.step_eq, Nat.mod_add_mod, Nat.add_comm b j, Nat.add_mul]

end Check

/-! ### Blocks of the destination -/

section Blocks

variable {m m' : Memory} {job job' : DmlJob} {b : ℕ}

/-- The updated blocks of the rest. -/
theorem updatedByte_resume (hr : Resumes job' job b)
    (hd : ContinuesDestination job'.difConfig job.difConfig b) {j i : ℕ}
    (hread : ∀ i, i < job.difConfig.step →
      m' (job.sourceFirstPtr + (b + j) * job.difConfig.step + i)
        = m (job.sourceFirstPtr + (b + j) * job.difConfig.step + i))
    (hi : i < job.difConfig.step) : updatedByte m' job' j i = updatedByte m job (b + j) i := by
  have hstep : job.difConfig.step = job.difConfig.blockBytes + 8 := rfl
  have hguard := guardOf_of_flags hd.flags hd.blockSize fun i hi => hread i (by omega)
  unfold updatedByte
  simp only
  rw [hr.block_pointer, hd.app_at, hd.ref_at]
  unfold updatedBlockByte
  rw [blockBytes_of_blockSize hd.blockSize, hd.flags, hguard, hread i hi]

/-- The stripped blocks of the rest. -/
theorem strippedByte_resume (hr : Resumes job' job b) (m : Memory) (j i : ℕ) :
    strippedByte m job' j i = strippedByte m job (b + j) i := by
  unfold strippedByte
  rw [hr.block_pointer]

/-- The protected blocks of the rest of an insert, whose source is not protected. -/
theorem insertedByte_resume (hd : ContinuesDestination job'.difConfig job.difConfig b)
    (hpointer : job'.sourceFirstPtr = job.sourceFirstPtr + b * job.difConfig.blockBytes) {j i : ℕ}
    (hread : ∀ i, i < job.difConfig.blockBytes →
      m' (job.sourceFirstPtr + (b + j) * job.difConfig.blockBytes + i)
        = m (job.sourceFirstPtr + (b + j) * job.difConfig.blockBytes + i)) :
    insertedByte m' job' j i = insertedByte m job (b + j) i := by
  have hguard := guardOf_of_flags hd.flags hd.blockSize hread
  have hblock : job'.sourceFirstPtr + j * job'.difConfig.blockBytes
      = job.sourceFirstPtr + (b + j) * job.difConfig.blockBytes := by
    rw [blockBytes_of_blockSize hd.blockSize, hpointer, Nat.add_mul, Nat.add_assoc]
  unfold insertedByte
  simp only
  rw [hblock, hd.app_at, hd.ref_at, hguard, blockBytes_of_blockSize hd.blockSize]
  split
  · next hi => exact hread i hi
  · rfl

end Blocks

end DataMover
