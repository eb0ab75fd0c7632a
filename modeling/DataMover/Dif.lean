import DataMover.Lib.Blocks
import DataMover.Ref.Move

/-!
# Data integrity fields

The DIF functions of `dif_impl/dml_dif.c`: a protected stream is a sequence of
blocks, each followed by 8 bytes — a CRC-16 guard, an application tag and a
reference tag, all stored big-endian.  `check` compares the stored tags with the
expected ones, `insert` adds the fields, `strip` removes them after a check, and
`update` replaces them after a check.

Every function walks the stream with pointers and two running tags.  The tags
follow their own sequence (`tagAt`), so each walk is characterised by what it
does at block `j`.

## Main results

* `dmlLegacyDifCheck_eq` — the check reports the first block with error bits.
* `dmlLegacyDifInsert_eq`, `difStripBlocks_eq`, `difUpdateBlocks_eq` — the
  destination, block by block.
-/

namespace DataMover

open ByteMemory

/-! ### Flags and constants -/

namespace DifFlag

def invertCrcSeed : ℕ := 0x040000
def invertCrcResult : ℕ := 0x080000
def srcFEnableError : ℕ := 0x000001
def srcFDetectAll : ℕ := 0x000002
def srcFDetectAppTag : ℕ := 0x000004
def srcFDetectTags : ℕ := 0x000008
def srcIncAppTag : ℕ := 0x000010
def srcGuardCheckDisable : ℕ := 0x000020
def srcRefTagCheckDisable : ℕ := 0x000040
def srcFixRefTag : ℕ := 0x000080
def dstPassAppTag : ℕ := 0x000800
def dstIncAppTag : ℕ := 0x001000
def dstPassGuard : ℕ := 0x002000
def dstPassRefTag : ℕ := 0x004000
def dstFixRefTag : ℕ := 0x008000

end DifFlag

namespace DifCheck

def guardMismatch : ℕ := 0x01
def applicationTagMismatch : ℕ := 0x02
def referenceTagMismatch : ℕ := 0x04
def allBitsSetDetectError : ℕ := 0x08

end DifCheck

/-- `(flags & flag) ? true : false`. -/
def hasFlag (flags flag : ℕ) : Bool := flags &&& flag != 0

/-- The statuses the DIF functions return. -/
inductive DmlStatus
  | ok | difCheckError
  deriving DecidableEq, Repr

/-- `dml_dif_config_t`. -/
structure DifConfig where
  flags : ℕ
  sourceReferenceTagSeed : BitVec 32
  sourceApplicationTagSeed : BitVec 16
  sourceApplicationTagMask : BitVec 16
  destinationReferenceTagSeed : BitVec 32
  destinationApplicationTagSeed : BitVec 16
  destinationApplicationTagMask : BitVec 16
  blockSize : Fin 4

/-- The part of `dml_job_t` the DIF functions use. -/
structure DmlJob where
  sourceFirstPtr : ℕ
  destinationFirstPtr : ℕ
  sourceLength : ℕ
  offset : ℕ
  result : ℕ
  difConfig : DifConfig

/-- `own_dif_block_sizes`. -/
def ownDifBlockSizes : Fin 4 → ℕ
  | 0 => 512
  | 1 => 520
  | 2 => 4096
  | 3 => 4104

namespace DifConfig

/-- The bytes of a block without its integrity field. -/
def blockBytes (cfg : DifConfig) : ℕ := ownDifBlockSizes cfg.blockSize

/-- The bytes of a block with its integrity field. -/
def step (cfg : DifConfig) : ℕ := cfg.blockBytes + 8

def crcSeed (cfg : DifConfig) : BitVec 16 :=
  if hasFlag cfg.flags DifFlag.invertCrcSeed then 0xFFFF#16 else 0#16

def sourceAppIncrement (cfg : DifConfig) : BitVec 16 :=
  if hasFlag cfg.flags DifFlag.srcIncAppTag then 1#16 else 0#16

def sourceRefIncrement (cfg : DifConfig) : BitVec 32 :=
  if hasFlag cfg.flags DifFlag.srcFixRefTag then 0#32 else 1#32

def destinationAppIncrement (cfg : DifConfig) : BitVec 16 :=
  if hasFlag cfg.flags DifFlag.dstIncAppTag then 1#16 else 0#16

def destinationRefIncrement (cfg : DifConfig) : BitVec 32 :=
  if hasFlag cfg.flags DifFlag.dstFixRefTag then 0#32 else 1#32

theorem blockBytes_pos (cfg : DifConfig) : 0 < cfg.blockBytes := by
  have h : ∀ b, 0 < ownDifBlockSizes b := by decide
  exact h cfg.blockSize

theorem blockBytes_lt (cfg : DifConfig) : cfg.blockBytes < 2 ^ 16 := by
  have h : ∀ b, ownDifBlockSizes b < 2 ^ 16 := by decide
  exact h cfg.blockSize

theorem step_pos (cfg : DifConfig) : 0 < cfg.step := by unfold step; omega

end DifConfig

/-- `reverse_bytes_16u`. -/
def reverseBytes16u (value : BitVec 16) : BitVec 16 :=
  value.extractLsb' 0 8 ++ value.extractLsb' 8 8

/-- `reverse_bytes_32u`. -/
def reverseBytes32u (value : BitVec 32) : BitVec 32 :=
  value.extractLsb' 0 8 ++ value.extractLsb' 8 8 ++ value.extractLsb' 16 8 ++ value.extractLsb' 24 8

/-! ### The guard -/

/-- `OWN_DIF_CRC_POLYNOMIAL`, the T10 polynomial. -/
def ownDifCrcPolynomial : BitVec 16 := 0x8BB7#16

/-- `calculate_crc_16u`: one data byte. -/
def calculateCrc16u (crcValue : BitVec 16) (data : BitVec 8) (polynomial : BitVec 16) : BitVec 16 :=
  Loop.iter (fun _ crcValue =>
    if crcValue &&& 0x8000#16 ≠ 0#16 then (crcValue <<< 1) ^^^ polynomial else crcValue <<< 1) 8
    (crcValue ^^^ (data.setWidth 16 <<< 8))

/-- `crc_16u`. -/
def crc16u (m : Memory) (src transferSize : ℕ) (crcValue polynomial : BitVec 16) : BitVec 16 :=
  Loop.iter (fun byte crcValue => calculateCrc16u crcValue (m (src + byte)) polynomial)
    transferSize crcValue

theorem crc16u_congr {m m' : Memory} {src src' n : ℕ}
    (h : ∀ i, i < n → m (src + i) = m' (src' + i)) (crcValue polynomial : BitVec 16) :
    crc16u m src n crcValue polynomial = crc16u m' src' n crcValue polynomial := by
  refine Loop.iter_congr (fun i hi => ?_) crcValue
  rw [h i hi]

/-- The guard of the block at `src`, as the integrity field stores it. -/
def guardOf (m : Memory) (cfg : DifConfig) (src : ℕ) : BitVec 16 :=
  let crc := crc16u m src cfg.blockBytes cfg.crcSeed ownDifCrcPolynomial
  reverseBytes16u (if hasFlag cfg.flags DifFlag.invertCrcResult then ~~~crc else crc)

theorem guardOf_congr {m m' : Memory} {cfg : DifConfig} {src src' : ℕ}
    (h : ∀ i, i < cfg.blockBytes → m (src + i) = m' (src' + i)) :
    guardOf m cfg src = guardOf m' cfg src' := by
  unfold guardOf
  rw [crc16u_congr h]

section SameGuard

variable {cfg' cfg : DifConfig}

theorem blockBytes_of_blockSize (h : cfg'.blockSize = cfg.blockSize) :
    cfg'.blockBytes = cfg.blockBytes := by
  unfold DifConfig.blockBytes
  rw [h]

theorem step_of_blockSize (h : cfg'.blockSize = cfg.blockSize) : cfg'.step = cfg.step := by
  unfold DifConfig.step
  rw [blockBytes_of_blockSize h]

/-- The configurations compute the same guard of the same block. -/
structure DifConfig.SameGuard (cfg' cfg : DifConfig) : Prop where
  blockSize : cfg'.blockSize = cfg.blockSize
  invertCrcSeed : hasFlag cfg'.flags DifFlag.invertCrcSeed = hasFlag cfg.flags DifFlag.invertCrcSeed
  invertCrcResult :
    hasFlag cfg'.flags DifFlag.invertCrcResult = hasFlag cfg.flags DifFlag.invertCrcResult

theorem DifConfig.SameGuard.crcSeed_eq (h : cfg'.SameGuard cfg) : cfg'.crcSeed = cfg.crcSeed := by
  rw [DifConfig.crcSeed, DifConfig.crcSeed, h.invertCrcSeed]

theorem DifConfig.SameGuard.guardOf_eq (h : cfg'.SameGuard cfg) {m m' : Memory} {src src' : ℕ}
    (hblock : ∀ i, i < cfg.blockBytes → m' (src' + i) = m (src + i)) :
    guardOf m' cfg' src' = guardOf m cfg src := by
  unfold guardOf
  rw [h.crcSeed_eq, blockBytes_of_blockSize h.blockSize, h.invertCrcResult, crc16u_congr hblock]

end SameGuard

/-! ### Running tags -/

/-- A tag after `j` blocks: `j` additions of the increment to the seed, wrapping
at the width of the tag. -/
def tagAt {w : ℕ} (seed increment : BitVec w) : ℕ → BitVec w
  | 0 => seed
  | j + 1 => tagAt seed increment j + increment

/-- A tag carried over at block `k` goes on as if it had never stopped. -/
theorem tagAt_tagAt {w : ℕ} (seed increment : BitVec w) (k j : ℕ) :
    tagAt (tagAt seed increment k) increment j = tagAt seed increment (k + j) := by
  induction j with
  | zero => rfl
  | succ j ih => rw [tagAt, ih, ← Nat.add_assoc, tagAt]

/-! ### Check -/

/-- The error bits of one block, 0 when it passes: the checks of one iteration
of `dml_legacy_dif_check`, for the block at `sourcePtr` and the expected tags. -/
def difCheckBits (m : Memory) (cfg : DifConfig) (sourcePtr : ℕ) (applicationTag : BitVec 16)
    (referenceTag : BitVec 32) : ℕ :=
  let difPtr := sourcePtr + cfg.blockBytes
  let guardTag := BitVec.ofNat 16 (load m difPtr 2)
  let storedApplicationTag := BitVec.ofNat 16 (load m (difPtr + 2) 2)
  let storedReferenceTag := BitVec.ofNat 32 (load m (difPtr + 4) 4)
  let applicationTagMask := ~~~cfg.sourceApplicationTagMask
  let fTagsDetected := hasFlag cfg.flags DifFlag.srcFDetectTags
    && storedApplicationTag == 0xFFFF#16 && storedReferenceTag == 0xFFFFFFFF#32
  let fApplicationTagDetected := hasFlag cfg.flags DifFlag.srcFDetectAppTag
    && storedApplicationTag == 0xFFFF#16
  if hasFlag cfg.flags DifFlag.srcFDetectAll && hasFlag cfg.flags DifFlag.srcFEnableError
      && load m difPtr 8 == 2 ^ 64 - 1 then
    DifCheck.allBitsSetDetectError
  else if !fTagsDetected && !fApplicationTagDetected then
    (if !hasFlag cfg.flags DifFlag.srcGuardCheckDisable && guardOf m cfg sourcePtr != guardTag then
      DifCheck.guardMismatch else 0)
    ||| (if !hasFlag cfg.flags DifFlag.srcRefTagCheckDisable
        && reverseBytes32u referenceTag != storedReferenceTag then
      DifCheck.referenceTagMismatch else 0)
    ||| (if applicationTagMask != 0xFFFF#16
        && reverseBytes16u (applicationTag &&& applicationTagMask) != storedApplicationTag then
      DifCheck.applicationTagMismatch else 0)
  else
    0

/-- One iteration of `dml_legacy_dif_check`; `error` returns the offset and the
bits. -/
def difCheckStep (m : Memory) (cfg : DifConfig) (block : ℕ) :
    ℕ × BitVec 16 × BitVec 32 → Except (ℕ × ℕ) (ℕ × BitVec 16 × BitVec 32)
  | (sourcePtr, applicationTag, referenceTag) =>
    let checkAccumulator := difCheckBits m cfg sourcePtr applicationTag referenceTag
    if checkAccumulator ≠ 0 then
      .error (block * cfg.step % 2 ^ 32, checkAccumulator)
    else
      .ok (sourcePtr + cfg.step, applicationTag + cfg.sourceAppIncrement,
        referenceTag + cfg.sourceRefIncrement)

/-- `dml_legacy_dif_check`: the status, and the job with its offset and result. -/
def dmlLegacyDifCheck (m : Memory) (job : DmlJob) : DmlStatus × DmlJob :=
  let cfg := job.difConfig
  let blockCount := job.sourceLength / cfg.step
  match Loop.iterUntil (difCheckStep m cfg) blockCount
      (job.sourceFirstPtr, cfg.sourceApplicationTagSeed, cfg.sourceReferenceTagSeed) with
  | .error (offset, result) => (.difCheckError, { job with offset := offset, result := result })
  | .ok _ => (.ok, { job with result := 0 })

/-- The error bits of block `j` of a job. -/
def difBitsAt (m : Memory) (job : DmlJob) (j : ℕ) : ℕ :=
  let cfg := job.difConfig
  difCheckBits m cfg (job.sourceFirstPtr + j * cfg.step)
    (tagAt cfg.sourceApplicationTagSeed cfg.sourceAppIncrement j)
    (tagAt cfg.sourceReferenceTagSeed cfg.sourceRefIncrement j)

/-- **The check reports the first block with error bits.** -/
theorem dmlLegacyDifCheck_eq (m : Memory) (job : DmlJob) :
    dmlLegacyDifCheck m job
      = match Loop.search (fun j => difBitsAt m job j != 0)
            (job.sourceLength / job.difConfig.step) with
        | some j => (.difCheckError,
            { job with offset := j * job.difConfig.step % 2 ^ 32, result := difBitsAt m job j })
        | none => (.ok, { job with result := 0 }) := by
  set cfg := job.difConfig with hcfg
  let st : ℕ → ℕ × BitVec 16 × BitVec 32 := fun j =>
    (job.sourceFirstPtr + j * cfg.step,
      tagAt cfg.sourceApplicationTagSeed cfg.sourceAppIncrement j,
      tagAt cfg.sourceReferenceTagSeed cfg.sourceRefIncrement j)
  have hstep : ∀ j, difCheckStep m cfg j (st j)
      = if difBitsAt m job j != 0 then .error (j * cfg.step % 2 ^ 32, difBitsAt m job j)
        else .ok (st (j + 1)) := by
    intro j
    have hbits : difCheckBits m cfg (job.sourceFirstPtr + j * cfg.step)
        (tagAt cfg.sourceApplicationTagSeed cfg.sourceAppIncrement j)
        (tagAt cfg.sourceReferenceTagSeed cfg.sourceRefIncrement j) = difBitsAt m job j := rfl
    simp only [difCheckStep, st, hbits, bne_iff_ne, tagAt]
    rw [Nat.add_mul, Nat.one_mul, Nat.add_assoc]
  have hloop := Loop.iterUntil_eq_search (n := job.sourceLength / cfg.step) fun j _ => hstep j
  have hst0 : st 0 = (job.sourceFirstPtr, cfg.sourceApplicationTagSeed,
      cfg.sourceReferenceTagSeed) := by
    simp [st, tagAt]
  rw [hst0] at hloop
  unfold dmlLegacyDifCheck
  simp only [← hcfg]
  rw [hloop]
  cases Loop.search (fun j => difBitsAt m job j != 0) (job.sourceLength / cfg.step) <;> rfl

theorem dmlLegacyDifCheck_ok_iff {m : Memory} {job : DmlJob} :
    (dmlLegacyDifCheck m job).1 = .ok
      ↔ ∀ j, j < job.sourceLength / job.difConfig.step → difBitsAt m job j = 0 := by
  rw [dmlLegacyDifCheck_eq]
  cases hsearch : Loop.search (fun j => difBitsAt m job j != 0)
      (job.sourceLength / job.difConfig.step) with
  | none =>
    rw [Loop.search_eq_none] at hsearch
    simp only [true_iff]
    intro j hj
    simpa using hsearch j hj
  | some j =>
    obtain ⟨hj, hbits, -⟩ := Loop.search_eq_some.mp hsearch
    simp only [reduceCtorEq, false_iff]
    intro h
    rw [h j hj] at hbits
    simp at hbits

/-- A check that passes clears the result of the job. -/
theorem dmlLegacyDifCheck_of_ok {m : Memory} {job : DmlJob}
    (hok : (dmlLegacyDifCheck m job).1 = .ok) :
    dmlLegacyDifCheck m job = (.ok, { job with result := 0 }) := by
  rw [dmlLegacyDifCheck_eq] at hok ⊢
  cases hsearch : Loop.search (fun j => difBitsAt m job j != 0)
      (job.sourceLength / job.difConfig.step) with
  | none => rfl
  | some j =>
    rw [hsearch] at hok
    exact absurd hok (by simp)

/-! ### Insert -/

/-- One iteration of `dml_legacy_dif_insert`: copy the block, then write its
field.  The guard is computed over the copy. -/
def difInsertBlock (m : Memory) (cfg : DifConfig) (sourcePtr destinationPtr : ℕ)
    (applicationTag : BitVec 16) (referenceTag : BitVec 32) : Memory :=
  let difPtr := destinationPtr + cfg.blockBytes
  let applicationTagMask := ~~~cfg.destinationApplicationTagMask
  let m := dmlRefMemMove m sourcePtr destinationPtr cfg.blockBytes
  let guard := guardOf m cfg destinationPtr
  let m := store m (difPtr + 2) 2 (reverseBytes16u (applicationTag &&& applicationTagMask)).toNat
  let m := store m (difPtr + 4) 4 (reverseBytes32u referenceTag).toNat
  store m difPtr 2 guard.toNat

/-- `dml_legacy_dif_insert`: the memory after the run; it always returns OK and
leaves the job as it is. -/
def dmlLegacyDifInsert (m : Memory) (job : DmlJob) : Memory :=
  let cfg := job.difConfig
  let blockCount := job.sourceLength / cfg.blockBytes
  (Loop.iter (fun _ (m, sourcePtr, destinationPtr, applicationTag, referenceTag) =>
    (difInsertBlock m cfg sourcePtr destinationPtr applicationTag referenceTag,
      sourcePtr + cfg.blockBytes, destinationPtr + cfg.step,
      applicationTag + cfg.destinationAppIncrement, referenceTag + cfg.destinationRefIncrement))
    blockCount
    (m, job.sourceFirstPtr, job.destinationFirstPtr, cfg.destinationApplicationTagSeed,
      cfg.destinationReferenceTagSeed)).1

/-- The application tag an integrity field of the destination stores at block `j`. -/
def destinationAppTagAt (cfg : DifConfig) (j : ℕ) : BitVec 16 :=
  reverseBytes16u (tagAt cfg.destinationApplicationTagSeed cfg.destinationAppIncrement j
    &&& ~~~cfg.destinationApplicationTagMask)

/-- The reference tag an integrity field of the destination stores at block `j`. -/
def destinationRefTagAt (cfg : DifConfig) (j : ℕ) : BitVec 32 :=
  reverseBytes32u (tagAt cfg.destinationReferenceTagSeed cfg.destinationRefIncrement j)

/-- Byte `i` of an integrity field. -/
def difByte (guard applicationTag : BitVec 16) (referenceTag : BitVec 32) (i : ℕ) : BitVec 8 :=
  if i < 2 then byteAt guard.toNat i
  else if i < 4 then byteAt applicationTag.toNat (i - 2)
  else byteAt referenceTag.toNat (i - 4)

/-- Byte `i` of block `j` of the destination of an insert. -/
def insertedByte (m : Memory) (job : DmlJob) (j i : ℕ) : BitVec 8 :=
  let cfg := job.difConfig
  let src := job.sourceFirstPtr + j * cfg.blockBytes
  if i < cfg.blockBytes then m (src + i)
  else difByte (guardOf m cfg src) (destinationAppTagAt cfg j) (destinationRefTagAt cfg j)
    (i - cfg.blockBytes)

theorem difInsertBlock_eq (m : Memory) (cfg : DifConfig) (src dst : ℕ) (app : BitVec 16)
    (ref : BitVec 32) :
    difInsertBlock m cfg src dst app ref
      = writeBlock m dst cfg.step fun i =>
          if i < cfg.blockBytes then m (src + i)
          else difByte (guardOf m cfg src)
            (reverseBytes16u (app &&& ~~~cfg.destinationApplicationTagMask)) (reverseBytes32u ref)
            (i - cfg.blockBytes) := by
  have hbs := cfg.blockBytes_lt
  -- the guard of the copy is the guard of the source
  have hguard : guardOf (move m src dst cfg.blockBytes) cfg dst = guardOf m cfg src :=
    guardOf_congr fun i hi => move_apply_of_lt hi
  unfold difInsertBlock
  simp only
  rw [dmlRefMemMove_eq m src dst (by omega), hguard]
  have hstep : cfg.step = cfg.blockBytes + 8 := rfl
  funext x
  simp only [store_apply, writeBlock, difByte]
  rcases Nat.lt_or_ge x (dst + cfg.blockBytes) with h | h
  · -- before the field: the copied block
    rw [if_neg (by omega), if_neg (by omega), if_neg (by omega), move_apply]
    by_cases hx : dst ≤ x
    · rw [if_pos (by omega), if_pos (by omega), if_pos (by omega)]
    · rw [if_neg (by omega), if_neg (by omega)]
  · rcases Nat.lt_or_ge x (dst + cfg.blockBytes + 8) with h8 | h8
    · -- in the field: guard, application tag, reference tag
      rw [if_pos (show dst ≤ x ∧ x < dst + cfg.step by omega),
        if_neg (show ¬x - dst < cfg.blockBytes by omega)]
      rcases Nat.lt_or_ge x (dst + cfg.blockBytes + 2) with h2 | h2
      · rw [if_pos (by omega), if_pos (by omega), Nat.sub_add_eq]
      · rw [if_neg (by omega)]
        rcases Nat.lt_or_ge x (dst + cfg.blockBytes + 4) with h4 | h4
        · rw [if_neg (by omega), if_pos (by omega), if_neg (by omega), if_pos (by omega),
            Nat.sub_add_eq, Nat.sub_add_eq]
        · rw [if_pos (by omega), if_neg (by omega), if_neg (by omega), Nat.sub_add_eq,
            Nat.sub_add_eq]
    · rw [if_neg (by omega), if_neg (by omega), if_neg (by omega), if_neg (by omega),
        move_apply_of_notMem (by omega)]

/-- A loop over blocks with the pointers and tags it carries along made explicit. -/
theorem iter_tagged (body : Memory → ℕ → ℕ → BitVec 16 → BitVec 32 → Memory) (c d : ℕ)
    (appIncrement : BitVec 16) (refIncrement : BitVec 32) (src dst : ℕ) (app : BitVec 16)
    (ref : BitVec 32) (n : ℕ) (m : Memory) :
    (Loop.iter (fun _ (m, sourcePtr, destinationPtr, applicationTag, referenceTag) =>
      (body m sourcePtr destinationPtr applicationTag referenceTag,
        sourcePtr + c, destinationPtr + d,
        applicationTag + appIncrement, referenceTag + refIncrement)) n (m, src, dst, app, ref)).1
      = Loop.iter (fun j m => body m (src + j * c) (dst + j * d) (tagAt app appIncrement j)
          (tagAt ref refIncrement j)) n m := by
  let st : ℕ → ℕ × ℕ × BitVec 16 × BitVec 32 := fun j =>
    (src + j * c, dst + j * d, tagAt app appIncrement j, tagAt ref refIncrement j)
  have hst0 : st 0 = (src, dst, app, ref) := by simp [st, tagAt]
  rw [← hst0, Loop.iter_tracked (g := fun j m => body m (src + j * c) (dst + j * d)
    (tagAt app appIncrement j) (tagAt ref refIncrement j)) st]
  intro j x
  simp only [st, tagAt, Nat.add_mul, Nat.one_mul, Nat.add_assoc]

theorem dmlLegacyDifInsert_iter (m : Memory) (job : DmlJob) :
    dmlLegacyDifInsert m job
      = Loop.iter (fun j m => difInsertBlock m job.difConfig
          (job.sourceFirstPtr + j * job.difConfig.blockBytes)
          (job.destinationFirstPtr + j * job.difConfig.step)
          (tagAt job.difConfig.destinationApplicationTagSeed
            job.difConfig.destinationAppIncrement j)
          (tagAt job.difConfig.destinationReferenceTagSeed job.difConfig.destinationRefIncrement j))
          (job.sourceLength / job.difConfig.blockBytes) m :=
  iter_tagged (fun m => difInsertBlock m job.difConfig) _ _ _ _ _ _ _ _ _ _

/-- An insert writes its destination only. -/
theorem dmlLegacyDifInsert_of_notMem {m : Memory} {job : DmlJob} {x : ℕ}
    (hx : x < job.destinationFirstPtr ∨ job.destinationFirstPtr
      + job.sourceLength / job.difConfig.blockBytes * job.difConfig.step ≤ x) :
    dmlLegacyDifInsert m job x = m x := by
  rw [dmlLegacyDifInsert_iter]
  refine Loop.iter_preserves (fun m : Memory => m x) (fun j t hj => ?_) m
  have hlt := add_mul_lt hj (Nat.sub_lt job.difConfig.step_pos Nat.one_pos)
  rw [difInsertBlock_eq, writeBlock_of_notMem (by omega)]

/-- **The destination of an insert, block by block.** -/
theorem dmlLegacyDifInsert_eq {m : Memory} {job : DmlJob} {n : ℕ}
    (hn : job.sourceLength / job.difConfig.blockBytes = n)
    (hap : Region.Apart ⟨job.sourceFirstPtr, n * job.difConfig.blockBytes⟩
      ⟨job.destinationFirstPtr, n * job.difConfig.step⟩) :
    dmlLegacyDifInsert m job
      = writeBlocks m job.destinationFirstPtr job.difConfig.step n (insertedByte m job) := by
  rw [dmlLegacyDifInsert_iter, hn]
  set cfg := job.difConfig with hcfg
  refine iter_writeBlock fun j t hj ht => ?_
  have hread : ∀ i, i < cfg.blockBytes →
      t (job.sourceFirstPtr + j * cfg.blockBytes + i)
        = m (job.sourceFirstPtr + j * cfg.blockBytes + i) :=
    fun i hi => source_unchanged hap ht hj hi
  rw [difInsertBlock_eq, guardOf_congr hread]
  funext x
  simp only [writeBlock, insertedByte, ← hcfg, destinationAppTagAt, destinationRefTagAt]
  split
  · split
    · next h => exact hread _ h
    · rfl
  · rfl

/-! ### Strip -/

/-- The copying loop of `dml_legacy_dif_strip`. -/
def difStripBlocks (m : Memory) (job : DmlJob) : Memory :=
  let cfg := job.difConfig
  let blockCount := job.sourceLength / cfg.step
  (Loop.iter (fun _ (m, sourcePtr, destinationPtr) =>
    (dmlRefMemMove m sourcePtr destinationPtr cfg.blockBytes,
      sourcePtr + cfg.step, destinationPtr + cfg.blockBytes))
    blockCount (m, job.sourceFirstPtr, job.destinationFirstPtr)).1

/-- `dml_legacy_dif_strip`: nothing is copied unless the check passes. -/
def dmlLegacyDifStrip (m : Memory) (job : DmlJob) : DmlStatus × Memory × DmlJob :=
  match dmlLegacyDifCheck m job with
  | (.ok, job) => (.ok, difStripBlocks m job, job)
  | (status, job) => (status, m, job)

/-- Byte `i` of block `j` of the destination of a strip. -/
def strippedByte (m : Memory) (job : DmlJob) (j i : ℕ) : BitVec 8 :=
  m (job.sourceFirstPtr + j * job.difConfig.step + i)

/-- The copying loop with its pointers made explicit. -/
theorem difStripBlocks_iter (m : Memory) (job : DmlJob) :
    difStripBlocks m job
      = Loop.iter (fun j m => dmlRefMemMove m (job.sourceFirstPtr + j * job.difConfig.step)
          (job.destinationFirstPtr + j * job.difConfig.blockBytes) job.difConfig.blockBytes)
          (job.sourceLength / job.difConfig.step) m := by
  set cfg := job.difConfig with hcfg
  let st : ℕ → ℕ × ℕ := fun j =>
    (job.sourceFirstPtr + j * cfg.step, job.destinationFirstPtr + j * cfg.blockBytes)
  have hst0 : st 0 = (job.sourceFirstPtr, job.destinationFirstPtr) := by simp [st]
  unfold difStripBlocks
  simp only [← hcfg]
  rw [← hst0, Loop.iter_tracked (g := fun j m => dmlRefMemMove m
    (job.sourceFirstPtr + j * cfg.step) (job.destinationFirstPtr + j * cfg.blockBytes)
    cfg.blockBytes) st]
  intro j x
  simp only [st, Nat.add_mul, Nat.one_mul, Nat.add_assoc]

/-- A strip writes its destination only. -/
theorem difStripBlocks_of_notMem {m : Memory} {job : DmlJob} {x : ℕ}
    (hx : x < job.destinationFirstPtr ∨ job.destinationFirstPtr
      + job.sourceLength / job.difConfig.step * job.difConfig.blockBytes ≤ x) :
    difStripBlocks m job x = m x := by
  rw [difStripBlocks_iter]
  refine Loop.iter_preserves (fun m : Memory => m x) (fun j t hj => ?_) m
  have hbs := job.difConfig.blockBytes_lt
  have hlt := add_mul_lt hj (Nat.sub_lt job.difConfig.blockBytes_pos Nat.one_pos)
  rw [dmlRefMemMove_eq _ _ _ (by omega), move_apply_of_notMem (by omega)]

/-- **The destination of a strip, block by block.** -/
theorem difStripBlocks_eq {m : Memory} {job : DmlJob} {n : ℕ}
    (hn : job.sourceLength / job.difConfig.step = n)
    (hap : Region.Apart ⟨job.sourceFirstPtr, n * job.difConfig.step⟩
      ⟨job.destinationFirstPtr, n * job.difConfig.blockBytes⟩) :
    difStripBlocks m job
      = writeBlocks m job.destinationFirstPtr job.difConfig.blockBytes n (strippedByte m job) := by
  rw [difStripBlocks_iter, hn]
  set cfg := job.difConfig with hcfg
  have hbs := cfg.blockBytes_lt
  have hstep : cfg.step = cfg.blockBytes + 8 := rfl
  refine iter_writeBlock fun j t hj ht => ?_
  rw [dmlRefMemMove_eq _ _ _ (by omega)]
  funext x
  rw [move_apply, writeBlock]
  split
  · next hx =>
    rw [strippedByte, ← hcfg]
    exact source_unchanged hap ht hj (by omega)
  · rfl

/-! ### Update -/

/-- One iteration of `dml_legacy_dif_update`: copy the block with its field, then
replace the parts of the field that are not passed through. -/
def difUpdateBlock (m : Memory) (cfg : DifConfig) (sourcePtr destinationPtr : ℕ)
    (applicationTag : BitVec 16) (referenceTag : BitVec 32) : Memory :=
  let difPtr := destinationPtr + cfg.blockBytes
  let applicationTagMask := ~~~cfg.destinationApplicationTagMask
  let m := dmlRefMemMove m sourcePtr destinationPtr cfg.step
  let m := if hasFlag cfg.flags DifFlag.dstPassGuard then m
    else store m difPtr 2 (guardOf m cfg destinationPtr).toNat
  let m := if hasFlag cfg.flags DifFlag.dstPassAppTag then m
    else store m (difPtr + 2) 2 (reverseBytes16u (applicationTag &&& applicationTagMask)).toNat
  if hasFlag cfg.flags DifFlag.dstPassRefTag then m
  else store m (difPtr + 4) 4 (reverseBytes32u referenceTag).toNat

/-- The rewriting loop of `dml_legacy_dif_update`. -/
def difUpdateBlocks (m : Memory) (job : DmlJob) : Memory :=
  let cfg := job.difConfig
  let blockCount := job.sourceLength / cfg.step
  (Loop.iter (fun _ (m, sourcePtr, destinationPtr, applicationTag, referenceTag) =>
    (difUpdateBlock m cfg sourcePtr destinationPtr applicationTag referenceTag,
      sourcePtr + cfg.step, destinationPtr + cfg.step,
      applicationTag + cfg.destinationAppIncrement, referenceTag + cfg.destinationRefIncrement))
    blockCount
    (m, job.sourceFirstPtr, job.destinationFirstPtr, cfg.destinationApplicationTagSeed,
      cfg.destinationReferenceTagSeed)).1

/-- `dml_legacy_dif_update`: nothing is written unless the check passes. -/
def dmlLegacyDifUpdate (m : Memory) (job : DmlJob) : DmlStatus × Memory × DmlJob :=
  match dmlLegacyDifCheck m job with
  | (.ok, job) => (.ok, difUpdateBlocks m job, job)
  | (status, job) => (status, m, job)

/-- Byte `i` of the block an update makes of the one at `src`. -/
def updatedBlockByte (m : Memory) (cfg : DifConfig) (src : ℕ) (app : BitVec 16) (ref : BitVec 32)
    (i : ℕ) : BitVec 8 :=
  if i < cfg.blockBytes then m (src + i)
  else if i < cfg.blockBytes + 2 then
    if hasFlag cfg.flags DifFlag.dstPassGuard then m (src + i)
    else byteAt (guardOf m cfg src).toNat (i - cfg.blockBytes)
  else if i < cfg.blockBytes + 4 then
    if hasFlag cfg.flags DifFlag.dstPassAppTag then m (src + i)
    else byteAt app.toNat (i - (cfg.blockBytes + 2))
  else
    if hasFlag cfg.flags DifFlag.dstPassRefTag then m (src + i)
    else byteAt ref.toNat (i - (cfg.blockBytes + 4))

/-- Byte `i` of block `j` of the destination of an update. -/
def updatedByte (m : Memory) (job : DmlJob) (j i : ℕ) : BitVec 8 :=
  let cfg := job.difConfig
  updatedBlockByte m cfg (job.sourceFirstPtr + j * cfg.step) (destinationAppTagAt cfg j)
    (destinationRefTagAt cfg j) i

theorem difUpdateBlock_eq (m : Memory) (cfg : DifConfig) (src dst : ℕ) (app : BitVec 16)
    (ref : BitVec 32) :
    difUpdateBlock m cfg src dst app ref
      = writeBlock m dst cfg.step (updatedBlockByte m cfg src
          (reverseBytes16u (app &&& ~~~cfg.destinationApplicationTagMask))
          (reverseBytes32u ref)) := by
  have hbs := cfg.blockBytes_lt
  have hstep : cfg.step = cfg.blockBytes + 8 := rfl
  have hguard : guardOf (move m src dst cfg.step) cfg dst = guardOf m cfg src :=
    guardOf_congr fun i hi => move_apply_of_lt (by omega)
  unfold difUpdateBlock
  simp only
  rw [dmlRefMemMove_eq m src dst (by omega), hguard]
  funext x
  -- each part of the field is written or passed through, byte by byte
  have hpart : ∀ (pass : Bool) (t : Memory) (a w v : ℕ),
      (if pass = true then t else store t a w v) x
        = if a ≤ x ∧ x < a + w then (if pass = true then t x else byteAt v (x - a)) else t x := by
    intro pass t a w v
    cases pass with
    | true => simp
    | false => rfl
  simp only [hpart, writeBlock, updatedBlockByte]
  by_cases hin : dst ≤ x ∧ x < dst + cfg.step
  · have hmove : move m src dst cfg.step x = m (src + (x - dst)) := by
      rw [move_apply, if_pos hin]
    rw [if_pos hin, hmove]
    rcases Nat.lt_or_ge x (dst + cfg.blockBytes) with h | h
    · rw [if_neg (by omega), if_neg (by omega), if_neg (by omega), if_pos (by omega)]
    · rw [if_neg (show ¬x - dst < cfg.blockBytes by omega)]
      rcases Nat.lt_or_ge x (dst + cfg.blockBytes + 2) with h2 | h2
      · rw [if_neg (by omega), if_neg (by omega), if_pos (by omega),
          if_pos (show x - dst < cfg.blockBytes + 2 by omega), Nat.sub_add_eq]
      · rw [if_neg (show ¬x - dst < cfg.blockBytes + 2 by omega)]
        rcases Nat.lt_or_ge x (dst + cfg.blockBytes + 4) with h4 | h4
        · rw [if_neg (by omega), if_pos (by omega),
            if_neg (show ¬(dst + cfg.blockBytes ≤ x ∧ x < dst + cfg.blockBytes + 2) by omega),
            if_pos (show x - dst < cfg.blockBytes + 4 by omega),
            show x - (dst + cfg.blockBytes + 2) = x - dst - (cfg.blockBytes + 2) by omega]
        · rw [if_pos (by omega),
            if_neg (show ¬(dst + cfg.blockBytes + 2 ≤ x ∧ x < dst + cfg.blockBytes + 2 + 2) by
              omega),
            if_neg (show ¬(dst + cfg.blockBytes ≤ x ∧ x < dst + cfg.blockBytes + 2) by omega),
            if_neg (show ¬x - dst < cfg.blockBytes + 4 by omega),
            show x - (dst + cfg.blockBytes + 4) = x - dst - (cfg.blockBytes + 4) by omega]
  · rw [if_neg hin, if_neg (by omega), if_neg (by omega), if_neg (by omega),
      move_apply_of_notMem (by omega)]

/-- The block an update makes depends on the bytes of the source block only. -/
theorem updatedBlockByte_congr {m m' : Memory} {cfg : DifConfig} {src src' : ℕ}
    (h : ∀ i, i < cfg.step → m (src + i) = m' (src' + i)) (app : BitVec 16) (ref : BitVec 32)
    {i : ℕ} (hi : i < cfg.step) :
    updatedBlockByte m cfg src app ref i = updatedBlockByte m' cfg src' app ref i := by
  have hstep : cfg.step = cfg.blockBytes + 8 := rfl
  have hguard : guardOf m cfg src = guardOf m' cfg src' :=
    guardOf_congr fun i hi => h i (by omega)
  unfold updatedBlockByte
  rw [h i hi, hguard]

theorem difUpdateBlocks_iter (m : Memory) (job : DmlJob) :
    difUpdateBlocks m job
      = Loop.iter (fun j m => difUpdateBlock m job.difConfig
          (job.sourceFirstPtr + j * job.difConfig.step)
          (job.destinationFirstPtr + j * job.difConfig.step)
          (tagAt job.difConfig.destinationApplicationTagSeed
            job.difConfig.destinationAppIncrement j)
          (tagAt job.difConfig.destinationReferenceTagSeed job.difConfig.destinationRefIncrement j))
          (job.sourceLength / job.difConfig.step) m :=
  iter_tagged (fun m => difUpdateBlock m job.difConfig) _ _ _ _ _ _ _ _ _ _

/-- An update writes its destination only. -/
theorem difUpdateBlocks_of_notMem {m : Memory} {job : DmlJob} {x : ℕ}
    (hx : x < job.destinationFirstPtr ∨ job.destinationFirstPtr
      + job.sourceLength / job.difConfig.step * job.difConfig.step ≤ x) :
    difUpdateBlocks m job x = m x := by
  rw [difUpdateBlocks_iter]
  refine Loop.iter_preserves (fun m : Memory => m x) (fun j t hj => ?_) m
  have hlt := add_mul_lt hj (Nat.sub_lt job.difConfig.step_pos Nat.one_pos)
  rw [difUpdateBlock_eq, writeBlock_of_notMem (by omega)]

/-- **The destination of an update, block by block.** -/
theorem difUpdateBlocks_eq {m : Memory} {job : DmlJob} {n : ℕ}
    (hn : job.sourceLength / job.difConfig.step = n)
    (hap : Region.Apart ⟨job.sourceFirstPtr, n * job.difConfig.step⟩
      ⟨job.destinationFirstPtr, n * job.difConfig.step⟩) :
    difUpdateBlocks m job
      = writeBlocks m job.destinationFirstPtr job.difConfig.step n (updatedByte m job) := by
  rw [difUpdateBlocks_iter, hn]
  set cfg := job.difConfig with hcfg
  refine iter_writeBlock fun j t hj ht => ?_
  have hread : ∀ i, i < cfg.step →
      t (job.sourceFirstPtr + j * cfg.step + i) = m (job.sourceFirstPtr + j * cfg.step + i) :=
    fun i hi => source_unchanged hap ht hj hi
  rw [difUpdateBlock_eq]
  funext x
  simp only [writeBlock, updatedByte, ← hcfg, destinationAppTagAt, destinationRefTagAt]
  split
  · exact updatedBlockByte_congr hread _ _ (by omega)
  · rfl

end DataMover
