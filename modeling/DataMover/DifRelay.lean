import DataMover.DifBurst
import DataMover.DifUpdate

/-!
# A protected stream on its way

Data is protected once, by an insert; it then goes from place to place, where updates give it new
tags, and is unpacked at the end, by a strip.  Between two of these jobs the stream is in
somebody else's hands, who may put it somewhere else and damage it.

Whatever the number of updates: when every job on the way reports success, the data that comes
out is the data that went in, as long as what happens to a block between two jobs is at most a
short burst.  Without damage every job reports success.

## Main definitions

* `Transit`, `Intact` — what may happen to a stream between two jobs, and that nothing does.
* `DifRelay` — an insert, and any number of transits and updates that report success.
* `difUpdates` — updates one after another, up to the first that fails.

## Main results

* `intact_of_check` — a check that passes has seen no burst.
* `DifRelay.intact` — nor has any job of a relay that reports success.
* `dif_relay_delivers` — what a strip at the end gives back.
* `dif_relay_completes` — without damage every job succeeds.
-/

namespace DataMover

open ByteMemory

/-! ### Streams -/

/-- A protected stream of `n` blocks at `base`: its data, and the guards of its blocks. -/
structure Stream (m : Memory) (cfg : DifConfig) (base n : ℕ) (data : ℕ → BitVec 8) : Prop where
  data : ∀ j, j < n → ∀ i, i < cfg.blockBytes →
    m (base + j * cfg.step + i) = data (j * cfg.blockBytes + i)
  guard : ∀ j, j < n → CarriesGuard m cfg (base + j * cfg.step)

/-- **What may happen to a stream between two jobs**: it may get somewhere else, and of each
block a few consecutive bits of its data may be flipped.  Nothing is said about the rest of the
memory. -/
def Transit (cfg : DifConfig) (n : ℕ) (m : Memory) (base : ℕ) (m' : Memory) (base' : ℕ) : Prop :=
  ∀ j, j < n →
    (∀ i, i < cfg.step → m' (base' + j * cfg.step + i) = m (base + j * cfg.step + i))
      ∨ ∃ error, Burst error cfg.blockBytes
          ∧ Corrupted error cfg m (base + j * cfg.step) m' (base' + j * cfg.step)

/-- Every block arrives as it was sent. -/
def Intact (cfg : DifConfig) (n : ℕ) (m : Memory) (base : ℕ) (m' : Memory) (base' : ℕ) : Prop :=
  ∀ j, j < n → ∀ i, i < cfg.step → m' (base' + j * cfg.step + i) = m (base + j * cfg.step + i)

/-- A job that checks the guards of a stream of `n` blocks, and has no way around it. -/
structure DmlJob.ChecksGuards (job : DmlJob) (cfg : DifConfig) (n : ℕ) : Prop where
  sameGuard : job.difConfig.SameGuard cfg
  sourceLength : job.sourceLength = n * job.difConfig.step
  guardEnabled : hasFlag job.difConfig.flags DifFlag.srcGuardCheckDisable = false
  tagsCompared : hasFlag job.difConfig.flags DifFlag.srcFDetectTags = false
  appTagCompared : hasFlag job.difConfig.flags DifFlag.srcFDetectAppTag = false

/-- An update does not write what it reads. -/
def DmlJob.UpdatesApart (job : DmlJob) (n : ℕ) : Prop :=
  Region.Apart ⟨job.sourceFirstPtr, n * job.difConfig.step⟩
    ⟨job.destinationFirstPtr, n * job.difConfig.step⟩

instance (job : DmlJob) (n : ℕ) : Decidable (job.UpdatesApart n) :=
  inferInstanceAs (Decidable (Region.Apart _ _))

/-- An insert and any number of updates that report success, with a transit of kind `T` before
each update: what each update found, the memory at the end, and where in it the stream is. -/
inductive DifRelay (T : DifConfig → ℕ → Memory → ℕ → Memory → ℕ → Prop) (m : Memory) (job : DmlJob)
    (n : ℕ) : List (Memory × DmlJob) → Memory → ℕ → Prop
  | insert : DifRelay T m job n [] (dmlLegacyDifInsert m job) job.destinationFirstPtr
  | update {found : List (Memory × DmlJob)} {t t' : Memory} {base : ℕ} {hop : DmlJob}
      (h : DifRelay T m job n found t base)
      (htransit : T job.difConfig n t base t' hop.sourceFirstPtr)
      (hchecks : hop.ChecksGuards job.difConfig n) (hap : hop.UpdatesApart n)
      (hok : (dmlLegacyDifUpdate t' hop).1 = .ok) :
      DifRelay T m job n (found ++ [(t', hop)]) (dmlLegacyDifUpdate t' hop).2.1
        hop.destinationFirstPtr

/-! ### A check that passes -/

section Check

variable {m m' : Memory} {cfg : DifConfig} {base n : ℕ} {job : DmlJob} {data : ℕ → BitVec 8}

theorem DmlJob.ChecksGuards.blocks (h : job.ChecksGuards cfg n) :
    job.sourceLength / job.difConfig.step = n := by
  rw [h.sourceLength, Nat.mul_div_cancel _ job.difConfig.step_pos]

/-- A guard that differs fails the block, as the job has no way around the comparison. -/
theorem DmlJob.ChecksGuards.difCheckBits_ne_zero (h : job.ChecksGuards cfg n) {src : ℕ}
    (app : BitVec 16) (ref : BitVec 32) (hmismatch : guardMismatches m job.difConfig src = true) :
    difCheckBits m job.difConfig src app ref ≠ 0 := by
  have hdetected : fDetected m job.difConfig src = false := by
    simp only [fDetected, h.tagsCompared, h.appTagCompared, Bool.false_and, Bool.or_self]
  cases hall : allOnesError m job.difConfig src with
  | true =>
    rw [difCheckBits_eq_blockBits, blockBits, if_pos hall]
    decide
  | false =>
    intro hzero
    have hflag := hasFlag_difCheckBits app ref (by rw [compared, hall, hdetected]; rfl) hmismatch
    rw [hzero] at hflag
    exact absurd hflag (by decide)

/-- **A check that passes has seen no burst**: every block has arrived as it was sent. -/
theorem intact_of_check (hstream : Stream m cfg base n data)
    (htransit : Transit cfg n m base m' job.sourceFirstPtr) (h : job.ChecksGuards cfg n)
    (hok : (dmlLegacyDifCheck m' job).1 = .ok) : Intact cfg n m base m' job.sourceFirstPtr := by
  intro j hj i hi
  rcases htransit j hj with hintact | ⟨error, hburst, hcorrupted⟩
  · exact hintact i hi
  · have hmismatch := guardMismatches_of_burst h.sameGuard (hstream.guard j hj) hburst hcorrupted
      h.guardEnabled
    rw [← step_of_blockSize h.sameGuard.blockSize] at hmismatch
    have hbits := dmlLegacyDifCheck_ok_iff.mp hok j (h.blocks.symm ▸ hj)
    exact absurd hbits (h.difCheckBits_ne_zero _ _ hmismatch)

/-- The guards are the same under every configuration that computes the same ones. -/
theorem Stream.sameGuard {cfg' : DifConfig} (h : Stream m cfg base n data)
    (hsame : cfg'.SameGuard cfg) : Stream m cfg' base n data := by
  have hsize := blockBytes_of_blockSize hsame.blockSize
  have hstep := step_of_blockSize hsame.blockSize
  constructor
  · rw [hsize, hstep]
    exact h.data
  · intro j hj
    rw [CarriesGuard, hstep, hsize, hsame.guardOf_eq fun _ _ => rfl]
    exact h.guard j hj

theorem DifConfig.SameGuard.symm {cfg' : DifConfig} (h : cfg'.SameGuard cfg) :
    cfg.SameGuard cfg' :=
  ⟨h.blockSize.symm, h.invertCrcSeed.symm, h.invertCrcResult.symm⟩

/-- A stream arrives with its blocks. -/
theorem Stream.of_intact {base' : ℕ} (hstream : Stream m cfg base n data)
    (hintact : Intact cfg n m base m' base') : Stream m' cfg base' n data := by
  have hstep : cfg.step = cfg.blockBytes + 8 := rfl
  constructor
  · intro j hj i hi
    rw [hintact j hj i (by omega)]
    exact hstream.data j hj i hi
  · -- the guard has arrived with its block
    intro j hj
    have hguard := hstream.guard j hj
    rw [CarriesGuard] at hguard ⊢
    rw [@guardOf_congr _ m _ _ _ fun i hi => hintact j hj i (by omega), ← hguard]
    refine load_congr fun i hi => ?_
    rw [Nat.add_assoc, Nat.add_assoc _ cfg.blockBytes i]
    exact hintact j hj _ (by omega)

/-- The stream is where the job has checked it. -/
theorem stream_of_check (hstream : Stream m cfg base n data)
    (htransit : Transit cfg n m base m' job.sourceFirstPtr) (h : job.ChecksGuards cfg n)
    (hok : (dmlLegacyDifCheck m' job).1 = .ok) :
    Stream m' job.difConfig job.sourceFirstPtr n data :=
  (hstream.of_intact (intact_of_check hstream htransit h hok)).sameGuard h.sameGuard

end Check

/-! ### The jobs -/

section Jobs

variable {m : Memory} {n : ℕ} {job : DmlJob} {data : ℕ → BitVec 8}

/-- **An insert makes a stream** of its source. -/
theorem stream_insert (hlen : job.sourceLength = n * job.difConfig.blockBytes)
    (hap : Region.Apart ⟨job.sourceFirstPtr, n * job.difConfig.blockBytes⟩
      ⟨job.destinationFirstPtr, n * job.difConfig.step⟩) :
    Stream (dmlLegacyDifInsert m job) job.difConfig job.destinationFirstPtr n
      fun i => m (job.sourceFirstPtr + i) := by
  have hblocks : job.sourceLength / job.difConfig.blockBytes = n := by
    rw [hlen, Nat.mul_div_cancel _ job.difConfig.blockBytes_pos]
  have hstep : job.difConfig.step = job.difConfig.blockBytes + 8 := rfl
  constructor
  · intro j hj i hi
    rw [dmlLegacyDifInsert_eq hblocks hap, writeBlocks_of_lt hj (by omega), insertedByte,
      if_pos hi, Nat.add_assoc]
  · intro j hj
    exact carriesGuard_insert m (hblocks.symm ▸ hj)

/-- **An update keeps the stream**: it copies the data, and the guard it writes or passes on is
that of the data. -/
theorem stream_update (hsource : Stream m job.difConfig job.sourceFirstPtr n data)
    (hlen : job.sourceLength = n * job.difConfig.step) (hap : job.UpdatesApart n) :
    Stream (difUpdateBlocks m job) job.difConfig job.destinationFirstPtr n data := by
  have hblocks : job.sourceLength / job.difConfig.step = n := by
    rw [hlen, Nat.mul_div_cancel _ job.difConfig.step_pos]
  rw [DmlJob.UpdatesApart, ← hblocks] at hap
  have hdata := fun j hj i => @difUpdateBlocks_data m job hap j i (hblocks.symm ▸ hj)
  constructor
  · intro j hj i hi
    rw [hdata j hj i hi]
    exact hsource.data j hj i hi
  · intro j hj
    have hguard := hsource.guard j hj
    have hfield := (@load_update m job hap j (hblocks.symm ▸ hj)).1
    rw [CarriesGuard] at hguard ⊢
    rw [guardOf_congr fun i hi => hdata j hj i hi]
    simp only [Nat.add_zero, hguard, updatedField, ite_self] at hfield
    exact hfield

/-- What a strip takes out of a stream. -/
theorem strip_stream (hsource : Stream m job.difConfig job.sourceFirstPtr n data)
    (hlen : job.sourceLength = n * job.difConfig.step)
    (hap : Region.Apart ⟨job.sourceFirstPtr, n * job.difConfig.step⟩
      ⟨job.destinationFirstPtr, n * job.difConfig.blockBytes⟩)
    {i : ℕ} (hi : i < n * job.difConfig.blockBytes) :
    difStripBlocks m job (job.destinationFirstPtr + i) = data i := by
  have hblocks : job.sourceLength / job.difConfig.step = n := by
    rw [hlen, Nat.mul_div_cancel _ job.difConfig.step_pos]
  -- byte `i` is byte `i % b` of block `i / b`
  have hj : i / job.difConfig.blockBytes < n := Nat.div_lt_of_lt_mul (by rwa [Nat.mul_comm] at hi)
  have ht : i % job.difConfig.blockBytes < job.difConfig.blockBytes :=
    Nat.mod_lt _ job.difConfig.blockBytes_pos
  have hsplit : i = i / job.difConfig.blockBytes * job.difConfig.blockBytes
      + i % job.difConfig.blockBytes := by
    rw [Nat.mul_comm, Nat.div_add_mod]
  have hbyte := hsource.data _ hj _ ht
  rw [← hsplit] at hbyte
  rw [← hbyte, difStripBlocks_eq hblocks hap]
  conv_lhs => rw [hsplit, ← Nat.add_assoc]
  rw [writeBlocks_of_lt hj ht]
  rfl

end Jobs

/-! ### A relay that reports success -/

section Relay

variable {m t t' : Memory} {job out : DmlJob} {n base : ℕ} {found : List (Memory × DmlJob)}
  (hlen : job.sourceLength = n * job.difConfig.blockBytes)
  (hap : Region.Apart ⟨job.sourceFirstPtr, n * job.difConfig.blockBytes⟩
    ⟨job.destinationFirstPtr, n * job.difConfig.step⟩)

theorem dmlLegacyDifUpdate_ok_iff {m : Memory} {job : DmlJob} :
    (dmlLegacyDifUpdate m job).1 = .ok ↔ (dmlLegacyDifCheck m job).1 = .ok := by
  rw [dmlLegacyDifUpdate]
  split
  · next heq => rw [heq]
  · next heq => rw [heq]

theorem dmlLegacyDifStrip_ok_iff {m : Memory} {job : DmlJob} :
    (dmlLegacyDifStrip m job).1 = .ok ↔ (dmlLegacyDifCheck m job).1 = .ok := by
  rw [dmlLegacyDifStrip]
  split
  · next heq => rw [heq]
  · next heq => rw [heq]

theorem dmlLegacyDifStrip_of_ok {m : Memory} {job : DmlJob}
    (hok : (dmlLegacyDifCheck m job).1 = .ok) :
    (dmlLegacyDifStrip m job).2.1 = difStripBlocks m job := by
  rw [dmlLegacyDifStrip, dmlLegacyDifCheck_of_ok hok]
  rfl

include hlen hap

/-- **The invariant of a relay**: the stream carries the data of the source. -/
theorem DifRelay.stream (h : DifRelay Transit m job n found t base) :
    Stream t job.difConfig base n fun i => m (job.sourceFirstPtr + i) := by
  induction h with
  | insert => exact stream_insert hlen hap
  | update h htransit hchecks hapart hok ih =>
    have hcheck := dmlLegacyDifUpdate_ok_iff.mp hok
    have harrived := stream_of_check ih htransit hchecks hcheck
    rw [(dmlLegacyDifUpdate_of_ok hcheck).2]
    exact (stream_update harrived hchecks.sourceLength hapart).sameGuard hchecks.sameGuard.symm

/-- **No job of a relay has been given a damaged block.** -/
theorem DifRelay.intact (h : DifRelay Transit m job n found t base) :
    DifRelay Intact m job n found t base := by
  induction h with
  | insert => exact .insert
  | update h htransit hchecks hapart hok ih =>
    have hcheck := dmlLegacyDifUpdate_ok_iff.mp hok
    exact .update ih (intact_of_check (h.stream hlen hap) htransit hchecks hcheck) hchecks hapart
      hok

/-- **What comes out is what went in**: after any number of transits and updates, when they and
the strip at the end report success, no block has been damaged in any of the transits, and the
strip gives back the source of the insert. -/
theorem dif_relay_delivers (h : DifRelay Transit m job n found t base)
    (htransit : Transit job.difConfig n t base t' out.sourceFirstPtr)
    (hchecks : out.ChecksGuards job.difConfig n)
    (hstrip : Region.Apart ⟨out.sourceFirstPtr, n * out.difConfig.step⟩
      ⟨out.destinationFirstPtr, n * out.difConfig.blockBytes⟩)
    (hok : (dmlLegacyDifStrip t' out).1 = .ok) :
    DifRelay Intact m job n found t base
      ∧ Intact job.difConfig n t base t' out.sourceFirstPtr
      ∧ ∀ i, i < n * job.difConfig.blockBytes →
        (dmlLegacyDifStrip t' out).2.1 (out.destinationFirstPtr + i)
          = m (job.sourceFirstPtr + i) := by
  have hstream := h.stream hlen hap
  have hcheck := dmlLegacyDifStrip_ok_iff.mp hok
  refine ⟨h.intact hlen hap, intact_of_check hstream htransit hchecks hcheck, fun i hi => ?_⟩
  rw [dmlLegacyDifStrip_of_ok hcheck]
  refine strip_stream (stream_of_check hstream htransit hchecks hcheck) hchecks.sourceLength hstrip
    ?_
  rwa [blockBytes_of_blockSize hchecks.sameGuard.blockSize]

end Relay

/-! ### A relay without damage -/

/-- Updates one after another, up to the first that fails. -/
def difUpdates (m : Memory) : List DmlJob → DmlStatus × Memory
  | [] => (.ok, m)
  | hop :: hops =>
    match dmlLegacyDifUpdate m hop with
    | (.ok, m, _) => difUpdates m hops
    | (status, m, _) => (status, m)

/-- An update that writes every part of every field, of a stream of `n` blocks. -/
structure DmlJob.WritesAll (job : DmlJob) (n : ℕ) : Prop where
  apart : job.UpdatesApart n
  guard : hasFlag job.difConfig.flags DifFlag.dstPassGuard = false
  applicationTag : hasFlag job.difConfig.flags DifFlag.dstPassAppTag = false
  referenceTag : hasFlag job.difConfig.flags DifFlag.dstPassRefTag = false

/-- Every job takes up what the one before it has left, under the configuration it has left it
with; `reads` says so of the first. -/
def Relays (n : ℕ) (reads : DmlJob → Prop) : List DmlJob → DmlJob → Prop
  | [], out => reads out
  | hop :: hops, out => reads hop ∧ hop.WritesAll n ∧ Relays n hop.Rewrites hops out

section Clean

variable {m : Memory} {job out : DmlJob} {n : ℕ} {hops : List DmlJob} {data : ℕ → BitVec 8}

/-- A job finds a stream of `n` blocks it accepts. -/
structure DmlJob.Accepts (job : DmlJob) (m : Memory) (n : ℕ) (data : ℕ → BitVec 8) : Prop where
  check : (dmlLegacyDifCheck m job).1 = .ok
  sourceLength : job.sourceLength = n * job.difConfig.step
  stream : Stream m job.difConfig job.sourceFirstPtr n data

/-- What an update leaves is accepted by the job that takes it up. -/
theorem accepts_update {hop next : DmlJob} (h : hop.Accepts m n data) (hwrites : hop.WritesAll n)
    (hnext : hop.Rewrites next) : next.Accepts (difUpdateBlocks m hop) n data := by
  have hblocks : hop.sourceLength / hop.difConfig.step = n := by
    rw [h.sourceLength, Nat.mul_div_cancel _ hop.difConfig.step_pos]
  have hapart := hwrites.apart
  rw [DmlJob.UpdatesApart, ← hblocks] at hapart
  constructor
  · exact dmlLegacyDifCheck_update hapart hnext hwrites.guard hwrites.applicationTag
      hwrites.referenceTag
  · rw [hnext.sourceLength, h.sourceLength, hnext.reads.step]
  · rw [hnext.sourceFirstPtr]
    exact (stream_update h.stream h.sourceLength hwrites.apart).sameGuard hnext.reads.sameGuard

/-- **The run of a relay without damage.** -/
theorem difUpdates_run {reads : DmlJob → Prop} (hrelays : Relays n reads hops out)
    (haccepts : ∀ job, reads job → job.Accepts m n data) :
    ∃ m', difUpdates m hops = (.ok, m') ∧ out.Accepts m' n data := by
  induction hops generalizing m reads with
  | nil => exact ⟨m, rfl, haccepts out hrelays⟩
  | cons hop hops ih =>
    obtain ⟨hreads, hwrites, hrest⟩ := hrelays
    have hhop := haccepts hop hreads
    obtain ⟨m', hrun, hout⟩ := ih hrest fun next hnext => accepts_update hhop hwrites hnext
    have hupdate : dmlLegacyDifUpdate m hop
        = (.ok, difUpdateBlocks m hop, { hop with result := 0 }) := by
      rw [dmlLegacyDifUpdate, dmlLegacyDifCheck_of_ok hhop.check]
      rfl
    refine ⟨m', ?_, hout⟩
    rw [difUpdates, hupdate]
    exact hrun

/-- **Without damage every job succeeds**: an insert, any number of updates that each take up
what the one before has left, and at the end a check and a strip, which gives back the source. -/
theorem dif_relay_completes (m : Memory)
    (hlen : job.sourceLength = n * job.difConfig.blockBytes)
    (hap : Region.Apart ⟨job.sourceFirstPtr, n * job.difConfig.blockBytes⟩
      ⟨job.destinationFirstPtr, n * job.difConfig.step⟩)
    (hrelays : Relays n (job.Protects · n) hops out)
    (hstrip : Region.Apart ⟨out.sourceFirstPtr, n * out.difConfig.step⟩
      ⟨out.destinationFirstPtr, n * out.difConfig.blockBytes⟩) :
    ∃ m', difUpdates (dmlLegacyDifInsert m job) hops = (.ok, m')
      ∧ (dmlLegacyDifCheck m' out).1 = .ok
      ∧ (dmlLegacyDifStrip m' out).1 = .ok
      ∧ ∀ i, i < n * out.difConfig.blockBytes →
        (dmlLegacyDifStrip m' out).2.1 (out.destinationFirstPtr + i)
          = m (job.sourceFirstPtr + i) := by
  have hfirst : ∀ first, job.Protects first n →
      first.Accepts (dmlLegacyDifInsert m job) n fun i => m (job.sourceFirstPtr + i) := by
    intro first hfirst
    refine ⟨dmlLegacyDifCheck_insert hfirst, ?_, ?_⟩
    · rw [hfirst.protectedLength, hfirst.reads.step]
    · rw [hfirst.sourceFirstPtr]
      exact (stream_insert hlen hap).sameGuard hfirst.reads.sameGuard
  obtain ⟨m', hrun, hout⟩ := difUpdates_run hrelays hfirst
  refine ⟨m', hrun, hout.check, dmlLegacyDifStrip_ok_iff.mpr hout.check, fun i hi => ?_⟩
  rw [dmlLegacyDifStrip_of_ok hout.check]
  exact strip_stream hout.stream hout.sourceLength hstrip hi

end Clean

/-- New tags for the blocks of `insertSample`, which are taken to 8192. -/
def relayHop : DmlJob where
  sourceFirstPtr := 4096
  destinationFirstPtr := 8192
  sourceLength := 1040
  offset := 0
  result := 0
  difConfig :=
    { flags := DifFlag.invertCrcSeed ||| DifFlag.srcIncAppTag ||| DifFlag.srcFixRefTag
        ||| DifFlag.dstIncAppTag
      sourceReferenceTagSeed := 0x12345678
      sourceApplicationTagSeed := 0xFFFF
      sourceApplicationTagMask := 0x00F0
      destinationReferenceTagSeed := 0xFFFFFFFF
      destinationApplicationTagSeed := 3
      destinationApplicationTagMask := 0x0F00
      blockSize := Kernels.difBlockSize 0 }

/-- The end of the relay, at 16384. -/
def relayEnd : DmlJob where
  sourceFirstPtr := 8192
  destinationFirstPtr := 16384
  sourceLength := 1040
  offset := 0
  result := 0
  difConfig :=
    { flags := DifFlag.invertCrcSeed ||| DifFlag.srcIncAppTag
      sourceReferenceTagSeed := 0xFFFFFFFF
      sourceApplicationTagSeed := 3
      sourceApplicationTagMask := 0x0F00
      destinationReferenceTagSeed := 0
      destinationApplicationTagSeed := 0
      destinationApplicationTagMask := 0
      blockSize := Kernels.difBlockSize 0 }

theorem protects_relayHop : insertSample.Protects relayHop 2 := by
  refine ⟨?_, by decide, by decide, by decide, by decide⟩
  constructor <;> decide

theorem rewrites_relayEnd : relayHop.Rewrites relayEnd := by
  refine ⟨?_, by decide, by decide⟩
  constructor <;> decide

/-- A memory in which no two neighbouring bytes are the same. -/
def relayMemory : Memory := fun x => BitVec.ofNat 8 x

/-- Two blocks, by way of one update. -/
theorem dif_relay_completes_sample :
    ∃ m', difUpdates (dmlLegacyDifInsert relayMemory insertSample) [relayHop] = (.ok, m')
      ∧ (dmlLegacyDifStrip m' relayEnd).1 = .ok
      ∧ ∀ i, i < 2 * relayEnd.difConfig.blockBytes →
        (dmlLegacyDifStrip m' relayEnd).2.1 (relayEnd.destinationFirstPtr + i)
          = relayMemory (insertSample.sourceFirstPtr + i) := by
  have hrelays : Relays 2 (insertSample.Protects · 2) [relayHop] relayEnd :=
    ⟨protects_relayHop, ⟨by decide, by decide, by decide, by decide⟩, rewrites_relayEnd⟩
  obtain ⟨m', hrun, -, hok, hdata⟩ := dif_relay_completes relayMemory (by decide)
    (by decide) hrelays (by decide)
  exact ⟨m', hrun, hok, hdata⟩

/-- The same two blocks, when nobody looks at them on the way. -/
theorem dif_relay_delivers_sample :
    ∃ t, DifRelay Intact relayMemory insertSample 2
        [(dmlLegacyDifInsert relayMemory insertSample, relayHop)] t relayHop.destinationFirstPtr
      ∧ ∀ i, i < 2 * insertSample.difConfig.blockBytes →
        (dmlLegacyDifStrip t relayEnd).2.1 (relayEnd.destinationFirstPtr + i)
          = relayMemory (insertSample.sourceFirstPtr + i) := by
  have hcheck := dmlLegacyDifCheck_insert (m := relayMemory) protects_relayHop
  have hchecks : relayHop.ChecksGuards insertSample.difConfig 2 := by
    refine ⟨⟨?_, ?_, ?_⟩, ?_, ?_, ?_, ?_⟩ <;> decide
  have hend : relayEnd.ChecksGuards insertSample.difConfig 2 := by
    refine ⟨⟨?_, ?_, ?_⟩, ?_, ?_, ?_, ?_⟩ <;> decide
  have hstay : ∀ (t : Memory) (base : ℕ), Transit insertSample.difConfig 2 t base t base :=
    fun t base j _ => Or.inl fun i _ => rfl
  have hrelay := DifRelay.update .insert (hstay (dmlLegacyDifInsert relayMemory insertSample)
    insertSample.destinationFirstPtr) hchecks (by decide) (dmlLegacyDifUpdate_ok_iff.mpr hcheck)
  have hok : (dmlLegacyDifStrip (dmlLegacyDifUpdate (dmlLegacyDifInsert relayMemory insertSample)
      relayHop).2.1 relayEnd).1 = .ok := by
    rw [(dmlLegacyDifUpdate_of_ok hcheck).2]
    exact dmlLegacyDifStrip_ok_iff.mpr (dmlLegacyDifCheck_update (by decide) rewrites_relayEnd
      (by decide) (by decide) (by decide))
  obtain ⟨hintact, -, hdata⟩ := dif_relay_delivers (by decide) (by decide) hrelay
    (hstay _ relayHop.destinationFirstPtr) hend (by decide) hok
  exact ⟨_, hintact, hdata⟩

end DataMover
