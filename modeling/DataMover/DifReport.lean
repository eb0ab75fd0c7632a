import DataMover.Kernels

/-!
# What a DIF check reports

The documentation of a check lists the conditions of each error bit.  The code follows
it but for the application tag.  A 1 bit of the mask masks a bit of the tag; the code
inverts the mask and then

* skips the comparison when no bit is masked, where the documentation skips it when all
  are, and
* masks the expected tag but not the stored one.

So the report is the documented one exactly when, at every block that is reached, the two
ways of comparing the application tag agree.

## Main definitions

* `documentedBits` — the error bits of a block by the documentation.
* `ReportsDocumented` — a check that reports the first documented error.
* `AgreesUnderMask` — both ways of comparing an application tag give the same answer.

## Main results

* `appTagMismatch_eq_iff` — when they do.
* `reportsDocumented_iff` — when the report is the documented one.
-/

namespace DataMover

open ByteMemory

/-! ### Application tags -/

theorem reverseBytes16u_reverseBytes16u (v : BitVec 16) :
    reverseBytes16u (reverseBytes16u v) = v := by
  refine BitVec.eq_of_getLsbD_eq fun i hi => ?_
  simp only [reverseBytes16u, BitVec.getLsbD_append, BitVec.getLsbD_extractLsb']
  rcases Nat.lt_or_ge i 8 with h | h
  · simp [h, show ¬8 + i < 8 by omega]
  · simp [show ¬i < 8 by omega, show i - 8 < 8 by omega, show 8 + (i - 8) = i by omega]

/-- The bytes of two tags are the same in either order. -/
theorem reverseBytes16u_eq_iff {v w : BitVec 16} :
    reverseBytes16u v = w ↔ v = reverseBytes16u w := by
  constructor
  · rintro rfl
    exact (reverseBytes16u_reverseBytes16u v).symm
  · rintro rfl
    exact reverseBytes16u_reverseBytes16u w

section Mask

variable (mask expected stored : BitVec 16)

/-- The tags differ in a bit the mask leaves unmasked. -/
def UnmaskedDiffer : Prop := (expected ^^^ stored) &&& ~~~mask ≠ 0#16

instance : Decidable (UnmaskedDiffer mask expected stored) := inferInstanceAs (Decidable (_ ≠ _))

/-- The documented condition of an application tag mismatch. -/
def documentedAppTagMismatch : Bool :=
  mask != 0xFFFF#16 && decide (UnmaskedDiffer mask expected stored)

/-- The condition of the code, for the tags as numbers. -/
def codeAppTagMismatch : Bool := ~~~mask != 0xFFFF#16 && (expected &&& ~~~mask) != stored

/-- Both conditions give the same answer: without a mask the tags are equal, and with one
the stored tag has no masked bit set or differs in an unmasked one. -/
def AgreesUnderMask : Prop :=
  if mask = 0#16 then stored = expected
  else stored &&& mask = 0#16 ∨ UnmaskedDiffer mask expected stored

end Mask

section Agree

variable {mask expected stored : BitVec 16}

theorem not_mask_eq_iff : ~~~mask = 0xFFFF#16 ↔ mask = 0#16 := by
  constructor
  · intro h
    rw [← BitVec.not_not (b := mask), h]
    decide
  · rintro rfl
    decide

/-- The gate of the documentation changes nothing: with every bit masked, no unmasked bit
differs. -/
theorem documentedAppTagMismatch_eq :
    documentedAppTagMismatch mask expected stored
      = decide (UnmaskedDiffer mask expected stored) := by
  unfold documentedAppTagMismatch
  by_cases h : mask = 0xFFFF#16
  · subst h
    have hnone : ¬UnmaskedDiffer 0xFFFF#16 expected stored := by
      rw [UnmaskedDiffer, show ~~~(0xFFFF#16) = 0#16 by decide, BitVec.and_zero]
      exact not_not.mpr rfl
    simp [hnone]
  · simp [h]

/-- A stored tag without masked bits is compared in its unmasked ones. -/
theorem masked_eq_iff (h : stored &&& mask = 0#16) :
    expected &&& ~~~mask = stored ↔ ¬UnmaskedDiffer mask expected stored := by
  rw [UnmaskedDiffer, not_not, BitVec.eq_of_getLsbD_eq_iff, BitVec.eq_of_getLsbD_eq_iff]
  refine forall₂_congr fun i hi => ?_
  have hbit : (stored &&& mask).getLsbD i = false := by rw [h, BitVec.getLsbD_zero]
  rw [BitVec.getLsbD_and] at hbit
  rw [BitVec.getLsbD_and, BitVec.getLsbD_and, BitVec.getLsbD_xor, BitVec.getLsbD_not,
    BitVec.getLsbD_zero]
  simp only [hi, decide_true, Bool.true_and]
  revert hbit
  cases expected.getLsbD i <;> cases stored.getLsbD i <;> cases mask.getLsbD i <;> decide

/-- A stored tag with a masked bit set is never what the code expects. -/
theorem masked_ne (h : stored &&& mask ≠ 0#16) : expected &&& ~~~mask ≠ stored := by
  rintro rfl
  refine h ?_
  refine BitVec.eq_of_getLsbD_eq fun i hi => ?_
  rw [BitVec.getLsbD_and, BitVec.getLsbD_and, BitVec.getLsbD_not, BitVec.getLsbD_zero]
  cases mask.getLsbD i <;> simp

/-- **The two ways of comparing an application tag.** -/
theorem appTagMismatch_eq_iff :
    codeAppTagMismatch mask expected stored = documentedAppTagMismatch mask expected stored
      ↔ AgreesUnderMask mask expected stored := by
  rw [documentedAppTagMismatch_eq, codeAppTagMismatch, AgreesUnderMask]
  by_cases h0 : mask = 0#16
  · subst h0
    rw [if_pos rfl]
    have hall : ¬UnmaskedDiffer 0#16 expected stored ↔ stored = expected := by
      rw [UnmaskedDiffer, not_not, show ~~~(0#16) = BitVec.allOnes 16 by decide,
        BitVec.and_allOnes, BitVec.xor_eq_zero_iff]
      exact eq_comm
    have hgate : (~~~(0#16) != 0xFFFF#16) = false := by decide
    rw [hgate, Bool.false_and, ← hall, eq_comm, decide_eq_false_iff_not]
  · have hgate : (~~~mask != 0xFFFF#16) = true := by
      rw [bne_iff_ne, ne_eq, not_mask_eq_iff]
      exact h0
    rw [if_neg h0, hgate, Bool.true_and]
    by_cases hmasked : stored &&& mask = 0#16
    · have hiff : expected &&& ~~~mask = stored ↔ ¬UnmaskedDiffer mask expected stored :=
        masked_eq_iff hmasked
      by_cases hu : UnmaskedDiffer mask expected stored
      · have hne : expected &&& ~~~mask ≠ stored := fun h => hiff.mp h hu
        simp [hmasked, hu, hne]
      · simp [hmasked, hu, hiff.mpr hu]
    · have hcode : (expected &&& ~~~mask != stored) = true := by
        rw [bne_iff_ne]
        exact masked_ne hmasked
      rw [hcode, eq_comm, decide_eq_true_iff]
      exact ⟨Or.inr, fun h => h.resolve_left hmasked⟩

end Agree

/-! ### The error bits of a block -/

section Bits

variable (m : Memory) (cfg : DifConfig) (src : ℕ)

/-- The application tag stored in the field of the block at `src`, which is big-endian. -/
def storedAppTag : BitVec 16 :=
  reverseBytes16u (BitVec.ofNat 16 (load m (src + cfg.blockBytes + 2) 2))

/-- The field is all ones, and that is to be reported. -/
def allOnesError : Bool :=
  hasFlag cfg.flags DifFlag.srcFDetectAll && hasFlag cfg.flags DifFlag.srcFEnableError
    && load m (src + cfg.blockBytes) 8 == 2 ^ 64 - 1

/-- An enabled F-detect condition on the tags holds. -/
def fDetected : Bool :=
  (hasFlag cfg.flags DifFlag.srcFDetectTags
      && BitVec.ofNat 16 (load m (src + cfg.blockBytes + 2) 2) == 0xFFFF#16
      && BitVec.ofNat 32 (load m (src + cfg.blockBytes + 4) 4) == 0xFFFFFFFF#32)
    || (hasFlag cfg.flags DifFlag.srcFDetectAppTag
      && BitVec.ofNat 16 (load m (src + cfg.blockBytes + 2) 2) == 0xFFFF#16)

/-- The field of the block is compared with the expected one. -/
def compared : Bool := !allOnesError m cfg src && !fDetected m cfg src

/-- The guard is checked and differs. -/
def guardMismatches : Bool :=
  !hasFlag cfg.flags DifFlag.srcGuardCheckDisable
    && guardOf m cfg src != BitVec.ofNat 16 (load m (src + cfg.blockBytes) 2)

/-- The reference tag is checked and differs. -/
def referenceTagMismatches (referenceTag : BitVec 32) : Bool :=
  !hasFlag cfg.flags DifFlag.srcRefTagCheckDisable
    && reverseBytes32u referenceTag != BitVec.ofNat 32 (load m (src + cfg.blockBytes + 4) 4)

/-- The error bits of a block, given whether its application tag mismatches. -/
def blockBits (referenceTag : BitVec 32) (appTagMismatches : Bool) : ℕ :=
  if allOnesError m cfg src then DifCheck.allBitsSetDetectError
  else if !fDetected m cfg src then
    (if guardMismatches m cfg src then DifCheck.guardMismatch else 0)
      ||| (if referenceTagMismatches m cfg src referenceTag then DifCheck.referenceTagMismatch
        else 0)
      ||| (if appTagMismatches then DifCheck.applicationTagMismatch else 0)
  else 0

/-- The error bits of a block by the documentation. -/
def documentedBits (applicationTag : BitVec 16) (referenceTag : BitVec 32) : ℕ :=
  blockBits m cfg src referenceTag
    (documentedAppTagMismatch cfg.sourceApplicationTagMask applicationTag (storedAppTag m cfg src))

variable {m cfg src} {ref : BitVec 32}

/-- The error bits of the code differ from the documented ones in the application tag
only. -/
theorem difCheckBits_eq_blockBits (app : BitVec 16) :
    difCheckBits m cfg src app ref
      = blockBits m cfg src ref
          (codeAppTagMismatch cfg.sourceApplicationTagMask app (storedAppTag m cfg src)) := by
  have happ : (reverseBytes16u (app &&& ~~~cfg.sourceApplicationTagMask)
        != BitVec.ofNat 16 (load m (src + cfg.blockBytes + 2) 2))
      = ((app &&& ~~~cfg.sourceApplicationTagMask) != storedAppTag m cfg src) := by
    rw [Bool.eq_iff_iff, bne_iff_ne, bne_iff_ne]
    exact not_congr reverseBytes16u_eq_iff
  simp only [difCheckBits, happ, ← Bool.not_or]
  rfl

/-- The bit of the application tag shows whenever the field is compared. -/
theorem blockBits_eq_iff {a a' : Bool} :
    blockBits m cfg src ref a = blockBits m cfg src ref a'
      ↔ (compared m cfg src = true → a = a') := by
  unfold blockBits compared
  cases allOnesError m cfg src with
  | true => simp
  | false =>
    cases fDetected m cfg src with
    | true => simp
    | false =>
      simp only [Bool.false_eq_true, if_false, Bool.not_false, if_true, Bool.and_self,
        forall_const]
      generalize guardMismatches m cfg src = g
      generalize referenceTagMismatches m cfg src ref = r
      revert g r a a'
      decide

end Bits

/-! ### The report -/

/-- The application tag expected at block `b`. -/
def expectedAppTagAt (job : DmlJob) (b : ℕ) : BitVec 16 :=
  tagAt job.difConfig.sourceApplicationTagSeed job.difConfig.sourceAppIncrement b

/-- The block `b` of a job. -/
def blockAt (job : DmlJob) (b : ℕ) : ℕ := job.sourceFirstPtr + b * job.difConfig.step

/-- The documented error bits of block `b`. -/
def documentedBitsAt (m : Memory) (job : DmlJob) (b : ℕ) : ℕ :=
  documentedBits m job.difConfig (blockAt job b) (expectedAppTagAt job b)
    (tagAt job.difConfig.sourceReferenceTagSeed job.difConfig.sourceRefIncrement b)

/-- The check stops at the first block with a documented error, with its offset and its
bits, and passes when there is none. -/
def ReportsDocumented (m : Memory) (job : DmlJob) : Prop :=
  dmlLegacyDifCheck m job
    = match Loop.search (fun b => documentedBitsAt m job b != 0)
          (job.sourceLength / job.difConfig.step) with
      | some b => (.difCheckError,
          { job with offset := b * job.difConfig.step, result := documentedBitsAt m job b })
      | none => (.ok, { job with result := 0 })

/-- The outcome of a check, from the first block with error bits. -/
def outcomeOf (job : DmlJob) : Option (ℕ × ℕ) → DmlStatus × DmlJob
  | some (b, bits) =>
    (.difCheckError, { job with offset := b * job.difConfig.step, result := bits })
  | none => (.ok, { job with result := 0 })

/-- An outcome tells the block and the bits. -/
theorem outcomeOf_injective (job : DmlJob) : Function.Injective (outcomeOf job) := by
  have hpos := job.difConfig.step_pos
  intro o o' h
  cases o with
  | none =>
    cases o' with
    | none => rfl
    | some p => exact absurd (congrArg Prod.fst h) (by simp [outcomeOf])
  | some p =>
    cases o' with
    | none => exact absurd (congrArg Prod.fst h) (by simp [outcomeOf])
    | some p' =>
      have hjob := congrArg Prod.snd h
      have hoffset := congrArg DmlJob.offset hjob
      have hresult := congrArg DmlJob.result hjob
      simp only [outcomeOf] at hoffset hresult
      rw [Prod.ext (Nat.eq_of_mul_eq_mul_right hpos hoffset) hresult]

section Report

variable {m : Memory} {job : DmlJob}

theorem dmlLegacyDifCheck_eq_outcomeOf (hlen : job.sourceLength < 2 ^ 32) :
    dmlLegacyDifCheck m job
      = outcomeOf job ((Loop.search (fun b => difBitsAt m job b != 0)
          (job.sourceLength / job.difConfig.step)).map fun b => (b, difBitsAt m job b)) := by
  rw [dmlLegacyDifCheck_eq]
  cases hsearch : Loop.search (fun b => difBitsAt m job b != 0)
      (job.sourceLength / job.difConfig.step) with
  | none => rfl
  | some b =>
    have hb := (Loop.search_eq_some.mp hsearch).1
    have hle : b * job.difConfig.step ≤ job.sourceLength :=
      (Nat.mul_le_mul_right _ hb.le).trans (Nat.div_mul_le_self _ _)
    simp only [Option.map_some, outcomeOf]
    rw [Nat.mod_eq_of_lt (by omega)]

theorem reportsDocumented_iff_eq (hlen : job.sourceLength < 2 ^ 32) :
    ReportsDocumented m job
      ↔ (Loop.search (fun b => difBitsAt m job b != 0)
          (job.sourceLength / job.difConfig.step)).map (fun b => (b, difBitsAt m job b))
        = (Loop.search (fun b => documentedBitsAt m job b != 0)
          (job.sourceLength / job.difConfig.step)).map
            (fun b => (b, documentedBitsAt m job b)) := by
  rw [← (outcomeOf_injective job).eq_iff, ← dmlLegacyDifCheck_eq_outcomeOf hlen, ReportsDocumented]
  cases Loop.search (fun b => documentedBitsAt m job b != 0)
      (job.sourceLength / job.difConfig.step) with
  | none => rfl
  | some b => rfl

/-- **The report of a check is the documented one** exactly when, at every block that is
reached and compared, masking the tag the code's way and the documented way agree. -/
theorem reportsDocumented_iff (hlen : job.sourceLength < 2 ^ 32) :
    ReportsDocumented m job
      ↔ ∀ b, b < job.sourceLength / job.difConfig.step →
          (∀ j, j < b → documentedBitsAt m job j = 0) →
          compared m job.difConfig (blockAt job b) = true →
          AgreesUnderMask job.difConfig.sourceApplicationTagMask (expectedAppTagAt job b)
            (storedAppTag m job.difConfig (blockAt job b)) := by
  rw [reportsDocumented_iff_eq hlen, Loop.search_value_eq_iff]
  refine forall₃_congr fun b _ _ => ?_
  have hcode : difBitsAt m job b = _ := difCheckBits_eq_blockBits _
  rw [hcode, documentedBitsAt, documentedBits]
  exact blockBits_eq_iff.trans (imp_congr_right fun _ => appTagMismatch_eq_iff)

end Report

/-- A check of one block at 1024 that looks at the application tag only. -/
def tagJob (mask seed : BitVec 16) : DmlJob where
  sourceFirstPtr := 1024
  destinationFirstPtr := 0
  sourceLength := 520
  offset := 0
  result := 0
  difConfig :=
    { flags := DifFlag.srcGuardCheckDisable ||| DifFlag.srcRefTagCheckDisable
      sourceReferenceTagSeed := 0
      sourceApplicationTagSeed := seed
      sourceApplicationTagMask := mask
      destinationReferenceTagSeed := 0
      destinationApplicationTagSeed := 0
      destinationApplicationTagMask := 0
      blockSize := Kernels.difBlockSize 0 }

/-- A memory whose block at 1024 has the application tag `tag`. -/
def tagMemory (tag : BitVec 16) : Memory :=
  store (fun _ => 0) (1024 + 512 + 2) 2 (reverseBytes16u tag).toNat

/-- With the high byte masked and not set, the code and the documentation agree. -/
theorem reportsDocumented_sample : ReportsDocumented (tagMemory 0x12) (tagJob 0xFF00 0x13) := by
  refine (reportsDocumented_iff (by decide)).mpr fun b hb _ _ => ?_
  obtain rfl : b = 0 := by
    have hcount : (tagJob 0xFF00 0x13).sourceLength / (tagJob 0xFF00 0x13).difConfig.step = 1 := rfl
    omega
  rw [AgreesUnderMask, if_neg (by decide)]
  exact Or.inl (by decide)

/-- With no bit masked a wrong tag is not reported; with the low byte masked, a tag that
differs in that byte only is. -/
theorem reportsDocumented_wrong_mask :
    ¬ReportsDocumented (tagMemory 0x1234) (tagJob 0x0000 0x5678)
      ∧ ¬ReportsDocumented (tagMemory 0x1234) (tagJob 0x00FF 0x1200) := by
  constructor
  · intro h
    have hstatus := congrArg Prod.fst h
    revert hstatus
    decide
  · intro h
    have hstatus := congrArg Prod.fst h
    revert hstatus
    decide

end DataMover
