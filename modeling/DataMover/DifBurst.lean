import DataMover.DifReport
import DataMover.DifRoundTrip
import DataMover.Lib.CrcRegister

/-!
# Bursts of errors in a protected block

The guard of a block is the register of a check of width 16, whose polynomial has a constant
term.  So an error that flips bits of the data within 16 consecutive ones changes the guard,
at any place of a block of any size, and a check that compares the field reports it.

## Main definitions

* `Burst` — an error within 16 consecutive bits of a block.
* `Corrupted` — a block with an error in its data and its guard as it was.
* `CarriesGuard` — a block whose guard is that of its data.

## Main results

* `guardOf_ne_of_burst` — the guard of a block with a burst.
* `carriesGuard_insert` — the guards an insert leaves.
* `difCheck_detects_burst` — a check of an inserted block with a burst.
-/

namespace DataMover

open ByteMemory Carryless

/-! ### The guard as a register -/

theorem calculateCrc16u_eq (crcValue : BitVec 16) (data : BitVec 8) (polynomial : BitVec 16) :
    calculateCrc16u crcValue data polynomial = crcByte polynomial crcValue data := by
  refine Loop.iter_congr (fun _ _ => ?_) _
  funext v
  exact crcBit_eq_mask (by decide) (by decide) polynomial v

/-- The bytes of a block, as a message. -/
theorem crc16u_eq (m : Memory) (src transferSize : ℕ) (crcValue polynomial : BitVec 16) :
    crc16u m src transferSize crcValue polynomial
      = crcBytes polynomial (fun i => m (src + i)) transferSize crcValue :=
  Loop.iter_congr (fun _ _ => funext fun v => calculateCrc16u_eq v _ _) _

/-! ### Bursts -/

/-- The error flips a bit of the first `n` bytes, and none of them outside of 16 consecutive
ones, the most significant bit of a byte first. -/
structure Burst (error : ℕ → BitVec 8) (n : ℕ) : Prop where
  nonzero : ∃ i, i < 8 * n ∧ messageBit error i = true
  confined : ∃ s, ∀ i, i < 8 * n → messageBit error i = true → s ≤ i ∧ i < s + 16

/-- The block at `dst` in `m'` is the block at `src` in `m` with the error in its data and
the same guard. -/
structure Corrupted (error : ℕ → BitVec 8) (cfg : DifConfig) (m : Memory) (src : ℕ) (m' : Memory)
    (dst : ℕ) : Prop where
  data : ∀ i, i < cfg.blockBytes → m' (dst + i) = m (src + i) ^^^ error i
  guard : ∀ i, i < 2 → m' (dst + cfg.blockBytes + i) = m (src + cfg.blockBytes + i)

/-- One bit is a burst. -/
theorem burst_twoPow {n t b : ℕ} (ht : t < n) (hb : b < 8) :
    Burst (fun i => if i = t then BitVec.twoPow 8 b else 0#8) n := by
  have hbit : ∀ i, messageBit (fun i => if i = t then BitVec.twoPow 8 b else 0#8) i = true
      ↔ i = 8 * t + (7 - b) := by
    intro i
    rw [messageBit]
    by_cases h : i / 8 = t
    · rw [if_pos h, BitVec.getLsbD_twoPow]
      simp only [Bool.and_eq_true, decide_eq_true_eq]
      omega
    · rw [if_neg h, BitVec.getLsbD_zero]
      simp only [Bool.false_eq_true, false_iff]
      omega
  constructor
  · exact ⟨8 * t + (7 - b), by omega, (hbit _).mpr rfl⟩
  · refine ⟨8 * t + (7 - b), fun i _ h => ?_⟩
    have := (hbit i).mp h
    omega

section Detect

variable {m m' : Memory} {error : ℕ → BitVec 8}

/-- The T10 polynomial has a constant term. -/
theorem crc16u_ne_of_burst {n src dst : ℕ} (hburst : Burst error n)
    (hdata : ∀ i, i < n → m' (dst + i) = m (src + i) ^^^ error i) (seed : BitVec 16) :
    crc16u m' dst n seed ownDifCrcPolynomial ≠ crc16u m src n seed ownDifCrcPolynomial := by
  obtain ⟨s, hconfined⟩ := hburst.confined
  have hbit : ∀ i, i < 8 * n →
      (messageBit (fun i => m' (dst + i)) i ≠ messageBit (fun i => m (src + i)) i
        ↔ messageBit error i = true) := by
    intro i hi
    simp only [messageBit]
    rw [hdata _ (by omega), BitVec.getLsbD_xor]
    cases (m (src + i / 8)).getLsbD (7 - i % 8) <;> cases (error (i / 8)).getLsbD (7 - i % 8) <;>
      decide
  rw [crc16u_eq, crc16u_eq]
  refine crcBytes_ne_of_burst (by decide) (by decide) ?_ (s := s) (fun i hi hne => ?_) seed
  · obtain ⟨i, hi, herror⟩ := hburst.nonzero
    exact ⟨i, hi, (hbit i hi).mpr herror⟩
  · exact hconfined i hi ((hbit i hi).mp hne)

/-- **The guard of a block with a burst** is not the guard the block had. -/
theorem guardOf_ne_of_burst {chk ins : DifConfig} (hsame : chk.SameGuard ins) {src dst : ℕ}
    (hburst : Burst error ins.blockBytes)
    (hdata : ∀ i, i < ins.blockBytes → m' (dst + i) = m (src + i) ^^^ error i) :
    guardOf m' chk dst ≠ guardOf m ins src := by
  have hcrc := crc16u_ne_of_burst hburst hdata ins.crcSeed
  intro heq
  unfold guardOf at heq
  simp only at heq
  rw [blockBytes_of_blockSize hsame.blockSize, hsame.crcSeed_eq, hsame.invertCrcResult,
    reverseBytes16u_eq_iff, reverseBytes16u_reverseBytes16u] at heq
  cases hinvert : hasFlag ins.flags DifFlag.invertCrcResult with
  | true =>
    rw [hinvert, if_pos rfl, if_pos rfl, BitVec.not_inj] at heq
    exact hcrc heq
  | false =>
    rw [hinvert, if_neg (by simp), if_neg (by simp)] at heq
    exact hcrc heq

/-- A guard that differs shows in the error bits of a block that is compared. -/
theorem hasFlag_difCheckBits {cfg : DifConfig} {src : ℕ} (app : BitVec 16) (ref : BitVec 32)
    (hcompared : compared m cfg src = true) (hmismatch : guardMismatches m cfg src = true) :
    hasFlag (difCheckBits m cfg src app ref) DifCheck.guardMismatch = true := by
  rw [difCheckBits_eq_blockBits, blockBits]
  unfold compared at hcompared
  rw [Bool.and_eq_true, Bool.not_eq_true'] at hcompared
  rw [if_neg (by rw [hcompared.1]; simp), if_pos hcompared.2, if_pos hmismatch]
  generalize referenceTagMismatches m cfg src ref = r
  generalize codeAppTagMismatch cfg.sourceApplicationTagMask app (storedAppTag m cfg src) = a
  revert r a
  decide

end Detect

/-! ### Inserted guards -/

/-- The guard in the field of the block at `src` is that of its data. -/
def CarriesGuard (m : Memory) (cfg : DifConfig) (src : ℕ) : Prop :=
  load m (src + cfg.blockBytes) 2 = (guardOf m cfg src).toNat

section Insert

variable {m m' : Memory} {cfg : DifConfig} {job : DmlJob}

theorem CarriesGuard.congr {src : ℕ} (h : ∀ i, i < cfg.step → m' (src + i) = m (src + i))
    (hcarries : CarriesGuard m cfg src) : CarriesGuard m' cfg src := by
  have hstep : cfg.step = cfg.blockBytes + 8 := rfl
  have hload : load m' (src + cfg.blockBytes) 2 = load m (src + cfg.blockBytes) 2 :=
    load_congr fun i hi => by rw [Nat.add_assoc, h _ (by omega)]
  have hguard : guardOf m' cfg src = guardOf m cfg src := guardOf_congr fun i hi => h i (by omega)
  rw [CarriesGuard, hload, hguard]
  exact hcarries

/-- A block written with the data of another one and its guard. -/
theorem carriesGuard_writeBlock {src dst : ℕ} {out : ℕ → BitVec 8}
    (hdata : ∀ i, i < cfg.blockBytes → out i = m (src + i))
    (hfield : ∀ i, i < 2 → out (cfg.blockBytes + i) = byteAt (guardOf m cfg src).toNat i) :
    CarriesGuard (writeBlock m dst cfg.step out) cfg dst := by
  have hstep : cfg.step = cfg.blockBytes + 8 := rfl
  have hguard : guardOf (writeBlock m dst cfg.step out) cfg dst = guardOf m cfg src := by
    refine guardOf_congr fun i hi => ?_
    rw [writeBlock_of_lt (by omega), hdata i hi]
  rw [CarriesGuard, hguard, load_eq_iff (guardOf m cfg src).isLt]
  intro i hi
  rw [Nat.add_assoc, writeBlock_of_lt (by omega), hfield i hi]

theorem carriesGuard_difInsertBlock (m : Memory) (cfg : DifConfig) (src dst : ℕ) (app : BitVec 16)
    (ref : BitVec 32) : CarriesGuard (difInsertBlock m cfg src dst app ref) cfg dst := by
  rw [difInsertBlock_eq]
  refine carriesGuard_writeBlock (fun i hi => if_pos hi) fun i hi => ?_
  rw [if_neg (by omega), difByte, Nat.add_sub_cancel_left, if_pos hi]

/-- **Every block of an insert carries its guard**, wherever the source lies: a block is
written once, and its guard is computed from the copy. -/
theorem carriesGuard_insert (m : Memory) {j : ℕ}
    (hj : j < job.sourceLength / job.difConfig.blockBytes) :
    CarriesGuard (dmlLegacyDifInsert m job) job.difConfig
      (job.destinationFirstPtr + j * job.difConfig.step) := by
  rw [dmlLegacyDifInsert_iter]
  -- after `k` iterations the first `k` blocks carry their guards
  refine Loop.iter_invariant (fun k t => ∀ j, j < k →
    CarriesGuard t job.difConfig (job.destinationFirstPtr + j * job.difConfig.step))
    (fun j hj => absurd hj (Nat.not_lt_zero j)) (fun k t _ hinv j hj => ?_) j hj
  rcases Nat.lt_succ_iff_lt_or_eq.mp hj with hlt | rfl
  · refine (hinv j hlt).congr fun i hi => ?_
    have hbelow := add_mul_lt hlt hi
    rw [difInsertBlock_eq, writeBlock_of_notMem (by omega)]
  · exact carriesGuard_difInsertBlock _ _ _ _ _ _

/-- A block that carried its guard before the burst has the wrong one after it. -/
theorem guardMismatches_of_burst {chk ins : DifConfig} {error : ℕ → BitVec 8} {src dst : ℕ}
    (hsame : chk.SameGuard ins) (hcarries : CarriesGuard m ins src)
    (hburst : Burst error ins.blockBytes) (hcorrupted : Corrupted error ins m src m' dst)
    (henabled : hasFlag chk.flags DifFlag.srcGuardCheckDisable = false) :
    guardMismatches m' chk dst = true := by
  have hstored : load m' (dst + chk.blockBytes) 2 = (guardOf m ins src).toNat := by
    rw [blockBytes_of_blockSize hsame.blockSize, ← hcarries]
    exact load_congr hcorrupted.guard
  rw [guardMismatches, henabled, hstored, BitVec.ofNat_toNat, BitVec.setWidth_eq, Bool.not_false,
    Bool.true_and, bne_iff_ne]
  exact guardOf_ne_of_burst hsame hburst hcorrupted.data

/-- The check of a job finds the guard of block `b` wrong, and fails there unless it fails
before. -/
structure ReportsGuard (m : Memory) (job : DmlJob) (b : ℕ) : Prop where
  mismatch : hasFlag (difBitsAt m job b) DifCheck.guardMismatch = true
  status : (dmlLegacyDifCheck m job).1 = .difCheckError
  first : (∀ k, k < b → difBitsAt m job k = 0) → dmlLegacyDifCheck m job
    = (.difCheckError, { job with offset := b * job.difConfig.step, result := difBitsAt m job b })

theorem reportsGuard_of_mismatches {b : ℕ} (hlen : job.sourceLength < 2 ^ 32)
    (hb : b < job.sourceLength / job.difConfig.step)
    (hcompared : compared m job.difConfig (blockAt job b) = true)
    (hmismatch : guardMismatches m job.difConfig (blockAt job b) = true) :
    ReportsGuard m job b := by
  have hflag : hasFlag (difBitsAt m job b) DifCheck.guardMismatch = true :=
    hasFlag_difCheckBits _ _ hcompared hmismatch
  have hbits : difBitsAt m job b ≠ 0 := by
    intro h
    rw [h] at hflag
    exact absurd hflag (by decide)
  constructor
  · exact hflag
  · cases hstatus : (dmlLegacyDifCheck m job).1 with
    | ok => exact absurd (dmlLegacyDifCheck_ok_iff.mp hstatus b hb) hbits
    | difCheckError => rfl
  · intro hfirst
    have hsearch : Loop.search (fun b => difBitsAt m job b != 0)
        (job.sourceLength / job.difConfig.step) = some b :=
      Loop.search_eq_some.mpr ⟨hb, by simpa using hbits, fun k hk => by simpa using hfirst k hk⟩
    rw [dmlLegacyDifCheck_eq_outcomeOf hlen, hsearch]
    rfl

/-- **A burst in the data of an inserted block is detected.**  A check that computes the same
guards reports a guard mismatch at the block whose data bits were flipped and whose guard was
not; so it does for every single bit. -/
theorem difCheck_detects_burst (m m' : Memory) {job out : DmlJob} {j b : ℕ}
    (hsame : out.difConfig.SameGuard job.difConfig)
    (hj : j < job.sourceLength / job.difConfig.blockBytes)
    (hb : b < out.sourceLength / out.difConfig.step) (hlen : out.sourceLength < 2 ^ 32)
    (henabled : hasFlag out.difConfig.flags DifFlag.srcGuardCheckDisable = false)
    (hcompared : compared m' out.difConfig (blockAt out b) = true) :
    (∀ error, Burst error job.difConfig.blockBytes →
        Corrupted error job.difConfig (dmlLegacyDifInsert m job)
          (job.destinationFirstPtr + j * job.difConfig.step) m' (blockAt out b) →
        ReportsGuard m' out b)
      ∧ ∀ t k, t < job.difConfig.blockBytes → k < 8 →
        Corrupted (fun i => if i = t then BitVec.twoPow 8 k else 0#8) job.difConfig
          (dmlLegacyDifInsert m job) (job.destinationFirstPtr + j * job.difConfig.step) m'
          (blockAt out b) →
        ReportsGuard m' out b := by
  have hdetect : ∀ error, Burst error job.difConfig.blockBytes →
      Corrupted error job.difConfig (dmlLegacyDifInsert m job)
        (job.destinationFirstPtr + j * job.difConfig.step) m' (blockAt out b) →
      ReportsGuard m' out b := by
    intro error hburst hcorrupted
    exact reportsGuard_of_mismatches hlen hb hcompared
      (guardMismatches_of_burst hsame (carriesGuard_insert m hj) hburst hcorrupted henabled)
  exact ⟨hdetect, fun t k ht hk => hdetect _ (burst_twoPow ht hk)⟩

end Insert

/-- The second block of the sample's destination, with the bits of two bytes flipped. -/
def corruptedSample (m : Memory) : Memory := fun x =>
  dmlLegacyDifInsert m insertSample x ^^^ if x = 4626 ∨ x = 4627 then 0xFF#8 else 0#8

/-- Sixteen flipped bits in a block of any contents. -/
theorem difCheck_detects_burst_sample :
    ReportsGuard (corruptedSample fun x => BitVec.ofNat 8 x) stripSample 1 := by
  have hburst : Burst (fun i => if i = 10 ∨ i = 11 then 0xFF#8 else 0#8) 512 := by
    constructor
    · exact ⟨80, by decide, by decide⟩
    · refine ⟨80, fun i _ h => ?_⟩
      by_contra hout
      rw [messageBit, if_neg (by omega), BitVec.getLsbD_zero] at h
      cases h
  have hsame : stripSample.difConfig.SameGuard insertSample.difConfig :=
    ⟨rfl, by decide, by decide⟩
  have hblock : 1 < insertSample.sourceLength / insertSample.difConfig.blockBytes := by decide
  have hchecked : 1 < stripSample.sourceLength / stripSample.difConfig.step := by decide
  refine (difCheck_detects_burst (fun x => BitVec.ofNat 8 x)
    (corruptedSample fun x => BitVec.ofNat 8 x) hsame hblock hchecked (by decide) (by decide)
    rfl).1 _ hburst
    ⟨fun i hi => ?_, fun i hi => ?_⟩
  · -- block 1 of the destination starts at 4616
    have hiff : 4616 + i = 4626 ∨ 4616 + i = 4627 ↔ i = 10 ∨ i = 11 := by omega
    show corruptedSample _ (4616 + i) = _
    simp only [corruptedSample, hiff]
    rfl
  · show corruptedSample _ (4616 + 512 + i) = _
    simp only [corruptedSample]
    rw [if_neg (by omega), BitVec.xor_zero]
    rfl

end DataMover
