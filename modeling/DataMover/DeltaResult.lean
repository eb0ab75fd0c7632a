import DataMover.DeltaRecord
import DataMover.JobApi
import DataMover.Sequence

/-!
# What `create_delta` reports

The delta record of `create_delta` is canonical: the notes of the first differing blocks,
in order, as many as there is room for, and nothing behind them.  The completion record
says how large it is and whether the buffers agree, differ, or differ in more blocks than
were noted.

Two things it does not say.  The expected result is a mask of outcomes, and the kernel
shifts it and compares it as a number.  And where a delta overflows, the place to go on
from stays in the loop: the field the result takes it from is never written.

## Main definitions

* `CanonicalDelta` — the record, its size and the result, for two buffers.
* `MaskHonoured` — the status is the one the mask asks for.
* `StopsAt` — the block a delta overflows at.
* `makeResult` — `make_result<create_delta_result>`.

## Main results

* `createDelta_canonical` — the record is canonical.
* `maskHonoured_iff` — the masks that are read as masks.
* `bytesCompleted_resumes_iff` — an overflow reports what the record held before.
-/

namespace DataMover

open ByteMemory

/-! ### The canonical record -/

/-- The block of note `index`. -/
def noteData (m : Memory) (deltaRecord index : ℕ) : ℕ := load m (deltaRecord + 10 * index + 2) 8

/-- `out`, a memory with the size of a record and a result, is the canonical delta of two
buffers of `m`: the record at `delta` has the notes of the first differing blocks. -/
structure CanonicalDelta (m : Memory) (src1 src2 n delta max : ℕ) (out : Memory × ℕ × ℕ) :
    Prop where
  size : out.2.1 = 10 * min (differingBlocks m src1 src2 (n / 8)).length (max / 10)
  increasing : ∀ i j, i < j → j < out.2.1 / 10 →
    noteOffset out.1 delta i < noteOffset out.1 delta j
  differs : ∀ j, j < out.2.1 / 10 → noteOffset out.1 delta j < n / 8
    ∧ blockDiffers m src1 src2 (noteOffset out.1 delta j) = true
  data : ∀ j, j < out.2.1 / 10 →
    noteData out.1 delta j = load m (src2 + 8 * noteOffset out.1 delta j) 8
  first : (List.range (out.2.1 / 10)).map (noteOffset out.1 delta)
    = (differingBlocks m src1 src2 (n / 8)).take (max / 10)
  untouched : ∀ x, x ∉ Region.addrs ⟨delta, out.2.1⟩ → out.1 x = m x
  equal_iff : out.2.2 = resultEqual ↔ (differingBlocks m src1 src2 (n / 8)).length = 0
  notEqual_iff : out.2.2 = resultNotEqual ↔ (differingBlocks m src1 src2 (n / 8)).length ≠ 0
    ∧ (differingBlocks m src1 src2 (n / 8)).length ≤ max / 10
  overflow_iff : out.2.2 = resultOverflow ↔ max / 10 < (differingBlocks m src1 src2 (n / 8)).length

section Canonical

variable {m : Memory} {src1 src2 n delta max : ℕ}

/-- The three results of a run. -/
theorem deltaResult_cases (d max : ℕ) :
    (deltaResult d max = resultEqual ↔ d = 0)
      ∧ (deltaResult d max = resultNotEqual ↔ d ≠ 0 ∧ d ≤ max / 10)
      ∧ (deltaResult d max = resultOverflow ↔ max / 10 < d) := by
  unfold deltaResult resultOverflow resultNotEqual resultEqual
  by_cases hover : max / 10 < d
  · rw [if_pos hover]
    omega
  · rw [if_neg hover]
    by_cases hd : d = 0
    · simp [hd]
    · simp [hd]
      omega

/-- **The record of the reference function is canonical.** -/
theorem canonicalDelta_dmlRefCreateDelta (hn : n ≤ 0x80000) (hmax : max < 2 ^ 32)
    (h1 : Region.Apart ⟨src1, n⟩ ⟨delta, max⟩) (h2 : Region.Apart ⟨src2, n⟩ ⟨delta, max⟩) :
    CanonicalDelta m src1 src2 n delta max (dmlRefCreateDelta m src1 src2 n delta max) := by
  rw [dmlRefCreateDelta_eq hmax h1 h2]
  have hpair := pairwise_differingBlocks m src1 src2 (n / 8)
  set D := differingBlocks m src1 src2 (n / 8) with hD
  set blocks := D.take (max / 10) with hblocks
  have hsorted := List.pairwise_iff_getElem.mp (hpair.sublist (List.take_sublist (max / 10) D))
  rw [← hblocks] at hsorted
  have hnotes : recordedNotes m src1 src2 (n / 8) max = blocks.map (noteOf m src2) := rfl
  have hlength : blocks.length = min D.length (max / 10) := by
    rw [hblocks, List.length_take, Nat.min_comm]
  have hmem : ∀ b ∈ blocks, b < n / 8 ∧ blockDiffers m src1 src2 b = true := fun b hb =>
    mem_differingBlocks.mp (List.mem_of_mem_take hb)
  -- the notes are read back from where they were written
  have hload : ∀ j (hj : j < blocks.length),
      noteOffset (writeNotes m delta (blocks.map (noteOf m src2))) delta j = blocks[j]
        ∧ noteData (writeNotes m delta (blocks.map (noteOf m src2))) delta j
          = load m (src2 + 8 * blocks[j]) 8 := by
    intro j hj
    refine load_note (fun i hi => ?_) (fun b hb => ?_) hj
    · exact writeNotes_of_lt _ _ _ _ (by rwa [List.length_map])
    · have hlt := (hmem b hb).1
      omega
  rw [hnotes, List.length_map]
  obtain ⟨hequal, hnotEqual, hoverflow⟩ := deltaResult_cases D.length max
  have hcount : 10 * blocks.length / 10 = blocks.length :=
    Nat.mul_div_cancel_left _ (by decide)
  constructor
  · exact congrArg (10 * ·) hlength
  · intro i j hij hj
    simp only [hcount] at hj
    rw [(hload i (by omega)).1, (hload j hj).1]
    exact hsorted i j (by omega) hj hij
  · intro j hj
    simp only [hcount] at hj
    rw [(hload j hj).1]
    exact hmem _ (List.getElem_mem hj)
  · intro j hj
    simp only [hcount] at hj
    rw [(hload j hj).1, (hload j hj).2]
  · simp only [hcount]
    refine List.ext_getElem (by rw [List.length_map, List.length_range]) fun j _ hj => ?_
    rw [List.getElem_map, List.getElem_range]
    exact (hload j hj).1
  · intro x hx
    refine writeNotes_of_notMem _ _ _ _ ?_
    rw [List.length_map]
    exact notMem_addrs.mp hx
  · exact hequal
  · exact hnotEqual
  · exact hoverflow

/-- **`create_delta` produces the canonical delta**, and the completion record has its
size and its result. -/
theorem createDelta_canonical {dsc : ℕ} (hop : operationOf m dsc = some .createDelta)
    (hvalid : validate m dsc = .success)
    (h1 : Region.Apart
      ⟨CreateDeltaDescriptor.source1Address.get m dsc, AnyDescriptor.transferSize.get m dsc⟩
      ⟨CreateDeltaDescriptor.deltaRecordAddress.get m dsc,
        CreateDeltaDescriptor.maximumDeltaRecordSize.get m dsc⟩)
    (h2 : Region.Apart
      ⟨CreateDeltaDescriptor.source2Address.get m dsc, AnyDescriptor.transferSize.get m dsc⟩
      ⟨CreateDeltaDescriptor.deltaRecordAddress.get m dsc,
        CreateDeltaDescriptor.maximumDeltaRecordSize.get m dsc⟩) :
    let src1 := CreateDeltaDescriptor.source1Address.get m dsc
    let src2 := CreateDeltaDescriptor.source2Address.get m dsc
    let n := AnyDescriptor.transferSize.get m dsc
    let delta := CreateDeltaDescriptor.deltaRecordAddress.get m dsc
    let max := CreateDeltaDescriptor.maximumDeltaRecordSize.get m dsc
    let out := dmlRefCreateDelta m src1 src2 n delta max
    CanonicalDelta m src1 src2 n delta max out
      ∧ CreateDeltaCompletionRecord.deltaRecordSize.get (SoftwareDevice.submit m dsc).1
          (getCompletionRecord m dsc) = out.2.1
      ∧ AnyCompletionRecord.result.get (SoftwareDevice.submit m dsc).1
          (getCompletionRecord m dsc) = out.2.2
      ∧ ∀ x, x ∉ Region.addrs ⟨getCompletionRecord m dsc, recordSize⟩ →
          (SoftwareDevice.submit m dsc).1 x = out.1 x := by
  intro src1 src2 n delta max out
  obtain ⟨hsize, hresult, -, hmem⟩ := submit_createDelta hop rfl rfl rfl rfl rfl
  have hlarge := (validate_createDelta hop hvalid).2.1
  exact ⟨canonicalDelta_dmlRefCreateDelta hlarge (Field.get_lt _ m dsc) h1 h2, hsize, hresult, hmem⟩

/-- One note, for the second block. -/
theorem createDelta_canonical_twoBlocks :
    CreateDeltaCompletionRecord.deltaRecordSize.get (SoftwareDevice.submit twoBlocks 64).1
        (getCompletionRecord twoBlocks 64) = 10
      ∧ AnyCompletionRecord.result.get (SoftwareDevice.submit twoBlocks 64).1
        (getCompletionRecord twoBlocks 64) = resultNotEqual := by
  have hop : operationOf twoBlocks 64 = some .createDelta := by decide
  obtain ⟨hcanonical, hsize, hresult, -⟩ := createDelta_canonical hop (by decide)
    (by decide) (by decide)
  refine ⟨hsize.trans (hcanonical.size.trans (by decide)), hresult.trans ?_⟩
  exact hcanonical.notEqual_iff.mpr (by decide)

end Canonical

/-! ### The mask of expected results -/

section Mask

variable {m : Memory} {dsc : ℕ}

/-- One iteration keeps the size of a record that has a note away from zero. -/
theorem createDeltaStep_size {src1 src2 delta max index : ℕ} (hmax : max < 2 ^ 32)
    {t u : Memory × ℕ} (hsize : t.2 ≤ max)
    (h : createDeltaStep src1 src2 delta max index t = .ok u) :
    (blockDiffers t.1 src1 src2 index = false ∧ u = t)
      ∨ (blockDiffers t.1 src1 src2 index = true ∧ u.2 = t.2 + 10 ∧ u.2 ≤ max) := by
  obtain ⟨t, size⟩ := t
  simp only [createDeltaStep] at h hsize ⊢
  by_cases hb : blockDiffers t src1 src2 index = true
  · rw [if_pos hb] at h
    by_cases hroom : size + 10 > max
    · rw [if_pos hroom] at h
      cases h
    · rw [if_neg hroom] at h
      cases h
      refine Or.inr ⟨hb, ?_⟩
      simp only
      omega
  · rw [if_neg hb] at h
    cases h
    exact Or.inl ⟨Bool.eq_false_iff.mpr hb, rfl⟩

/-- After `j` blocks either no difference has been found and nothing written, or the record
has a note. -/
def DeltaProgress (m : Memory) (src1 src2 max j : ℕ) (t : Memory × ℕ) : Prop :=
  t.2 ≤ max ∧ ((differingBlocks m src1 src2 j = [] ∧ t = (m, 0))
    ∨ (differingBlocks m src1 src2 j ≠ [] ∧ t.2 ≠ 0))

theorem DeltaProgress.step {src1 src2 delta max j : ℕ} (hmax : max < 2 ^ 32) {t u : Memory × ℕ}
    (ht : DeltaProgress m src1 src2 max j t)
    (h : createDeltaStep src1 src2 delta max j t = .ok u) :
    DeltaProgress m src1 src2 max (j + 1) u := by
  obtain ⟨hle, hfound⟩ := ht
  have hsucc := differingBlocks_succ m src1 src2 j
  rcases createDeltaStep_size hmax hle h with ⟨hsame, rfl⟩ | ⟨hdiffers, hsize, hroom⟩
  · refine ⟨hle, ?_⟩
    rcases hfound with ⟨hnone, rfl⟩ | ⟨hsome, hpos⟩
    · simp only at hsame
      exact Or.inl ⟨by rw [hsucc, hnone, hsame]; rfl, rfl⟩
    · exact Or.inr ⟨by rw [hsucc]; simp [hsome], hpos⟩
  · refine ⟨hroom, Or.inr ⟨?_, by omega⟩⟩
    rcases hfound with ⟨-, rfl⟩ | ⟨hsome, -⟩
    · simp only at hdiffers
      simp [hsucc, hdiffers]
    · simp [hsucc, hsome]

/-- An iteration returns when its block differs and there is no room for a note. -/
theorem createDeltaStep_returns {src1 src2 delta max index : ℕ} {t r : Memory × ℕ}
    (h : createDeltaStep src1 src2 delta max index t = .error r) :
    blockDiffers t.1 src1 src2 index = true ∧ t.2 + 10 > max := by
  obtain ⟨t, size⟩ := t
  simp only [createDeltaStep] at h
  by_cases hb : blockDiffers t src1 src2 index = true
  · rw [if_pos hb] at h
    by_cases hroom : size + 10 > max
    · exact ⟨hb, hroom⟩
    · rw [if_neg hroom] at h
      cases h
  · rw [if_neg hb] at h
    cases h

/-- A return means that a block differs. -/
theorem DeltaProgress.returned {src1 src2 delta max j n : ℕ} {t r : Memory × ℕ}
    (ht : DeltaProgress m src1 src2 max j t) (hj : j < n)
    (h : createDeltaStep src1 src2 delta max j t = .error r) :
    differingBlocks m src1 src2 n ≠ [] := by
  rcases ht.2 with ⟨-, rfl⟩ | ⟨hsome, -⟩
  · exact List.ne_nil_of_mem (mem_differingBlocks.mpr ⟨hj, (createDeltaStep_returns h).1⟩)
  · obtain ⟨b, hb⟩ := List.exists_mem_of_ne_nil _ hsome
    rw [mem_differingBlocks] at hb
    exact List.ne_nil_of_mem (mem_differingBlocks.mpr ⟨hb.1.trans hj, hb.2⟩)

/-- **The result is *equal* exactly when no block differs**, wherever the record lies: the
first difference is found in memory as it was. -/
theorem dmlRefCreateDelta_equal_iff {src1 src2 n delta max : ℕ} (hmax : max < 2 ^ 32) :
    (dmlRefCreateDelta m src1 src2 n delta max).2.2 = resultEqual
      ↔ differingBlocks m src1 src2 (n / 8) = [] := by
  obtain ⟨hok, herr⟩ := Loop.iterUntil_invariant (f := createDeltaStep src1 src2 delta max)
    (n := n / 8) (s := (m, 0)) (DeltaProgress m src1 src2 max)
    (fun _ => differingBlocks m src1 src2 (n / 8) ≠ [])
    ⟨Nat.zero_le _, Or.inl ⟨rfl, rfl⟩⟩
    (fun j t u _ ht hu => ht.step hmax hu) (fun j t r hj ht hr => ht.returned hj hr)
  unfold dmlRefCreateDelta
  split
  · next h => simp [herr _ h, resultOverflow, resultEqual]
  · next h =>
    obtain ⟨-, ⟨hnone, hsize⟩ | ⟨hsome, hsize⟩⟩ := hok _ h
    · cases hsize
      simp [hnone]
    · simp only [hsome, iff_false]
      rw [if_pos hsize]
      decide

/-- The buffers of a `create_delta` agree, in all their whole blocks. -/
def BuffersAgree (m : Memory) (dsc : ℕ) : Prop :=
  ∀ i, i < 8 * (AnyDescriptor.transferSize.get m dsc / 8) →
    m (CreateDeltaDescriptor.source1Address.get m dsc + i)
      = m (CreateDeltaDescriptor.source2Address.get m dsc + i)

/-- The status is the one the descriptor asks for: with the check-result flag, *success*
when the mask of expected results has the bit of the actual one. -/
def MaskHonoured (m : Memory) (dsc : ℕ) : Prop :=
  let m' := (SoftwareDevice.submit m dsc).1
  let record := getCompletionRecord m dsc
  let mask := CreateDeltaDescriptor.expectedResultMask.get m dsc &&& 0b111
  let expected := if intersects (AnyDescriptor.flags.get m dsc) Flag.checkResult then
      if mask.testBit (AnyCompletionRecord.result.get m' record) then ExecutionStatus.success
      else .falsePredicateSuccess
    else .success
  AnyCompletionRecord.status.get m' record = expected.toUnderlying

/-- The masks of more than one outcome, but not of all, against the three outcomes. -/
theorem createDeltaStatus_eq_iff : ∀ mask < 8, ∀ result < 3,
    (Kernels.createDeltaStatus true mask result).toUnderlying
        = (if mask.testBit result then ExecutionStatus.success
            else .falsePredicateSuccess).toUnderlying
      ↔ ¬((mask = 3 ∨ mask = 5) ∧ result = resultEqual ∨ mask = 6 ∧ result ≠ resultEqual) := by
  decide

/-- **The mask is honoured except with two of its bits set.**  Shifted by one it is compared
as a number: 3 is *not equal* only, 5 is *overflow* only, 6 is nothing. -/
theorem maskHonoured_iff (hop : operationOf m dsc = some .createDelta) :
    MaskHonoured m dsc
      ↔ intersects (AnyDescriptor.flags.get m dsc) Flag.checkResult = false
        ∨ ¬((CreateDeltaDescriptor.expectedResultMask.get m dsc &&& 0b111 = 3
            ∨ CreateDeltaDescriptor.expectedResultMask.get m dsc &&& 0b111 = 5)
              ∧ BuffersAgree m dsc
          ∨ CreateDeltaDescriptor.expectedResultMask.get m dsc &&& 0b111 = 6
              ∧ ¬BuffersAgree m dsc) := by
  obtain ⟨-, hresult, hstatus, -⟩ := submit_createDelta hop rfl rfl rfl rfl rfl
  have hmask : CreateDeltaDescriptor.expectedResultMask.get m dsc &&& 0b111 < 8 :=
    Nat.and_lt_two_pow _ (by decide : 0b111 < 2 ^ 3)
  have hequal : (dmlRefCreateDelta m (CreateDeltaDescriptor.source1Address.get m dsc)
      (CreateDeltaDescriptor.source2Address.get m dsc) (AnyDescriptor.transferSize.get m dsc)
      (CreateDeltaDescriptor.deltaRecordAddress.get m dsc)
      (CreateDeltaDescriptor.maximumDeltaRecordSize.get m dsc)).2.2 = resultEqual
        ↔ BuffersAgree m dsc :=
    (dmlRefCreateDelta_equal_iff (Field.get_lt _ m dsc)).trans differingBlocks_eq_nil_iff_bytes
  have hlt := dmlRefCreateDelta_result_lt m (CreateDeltaDescriptor.source1Address.get m dsc)
    (CreateDeltaDescriptor.source2Address.get m dsc) (AnyDescriptor.transferSize.get m dsc)
    (CreateDeltaDescriptor.deltaRecordAddress.get m dsc)
    (CreateDeltaDescriptor.maximumDeltaRecordSize.get m dsc)
  unfold MaskHonoured
  simp only
  rw [hresult, hstatus, ← hequal]
  cases intersects (AnyDescriptor.flags.get m dsc) Flag.checkResult with
  | false => simp [Kernels.createDeltaStatus]
  | true =>
    rw [if_pos rfl, createDeltaStatus_eq_iff _ hmask _ hlt]
    simp

/-- A `create_delta` of two blocks, with the check of the result against `mask`; `value` is
a byte of the second source, where the first has zero. -/
def maskSample (mask value : ℕ) : Memory :=
  let m := rawDescriptor .createDelta 64 32 128 192 16
  let m := CreateDeltaDescriptor.deltaRecordAddress.set m 64 256
  let m := CreateDeltaDescriptor.maximumDeltaRecordSize.set m 64 80
  let m := AnyDescriptor.flags.set m 64 Flag.checkResult
  let m := CreateDeltaDescriptor.expectedResultMask.set m 64 mask
  store m 203 1 value

/-- Buffers that differ, where *equal* or *not equal* is expected. -/
theorem maskHonoured_notEqual : MaskHonoured (maskSample 0b011 7) 64 := by
  refine (maskHonoured_iff (by decide)).mpr (Or.inr fun h => ?_)
  rcases h with ⟨-, hagree⟩ | ⟨hsix, -⟩
  · exact absurd (hagree 11 (by decide)) (by decide)
  · exact absurd hsix (by decide)

/-- Buffers that agree, where *equal* or *not equal* is expected: the predicate is called
false. -/
theorem mask_read_as_number :
    validate (maskSample 0b011 0) 64 = .success
      ∧ AnyCompletionRecord.result.get (SoftwareDevice.submit (maskSample 0b011 0) 64).1
          (getCompletionRecord (maskSample 0b011 0) 64) = resultEqual
      ∧ ¬MaskHonoured (maskSample 0b011 0) 64 := by
  refine ⟨by decide, by decide, ?_⟩
  unfold MaskHonoured
  decide

end Mask

/-! ### Where to resume -/

/-- The comparison result of a value; `none` where the enumeration has no such value. -/
def ComparisonResult.ofUnderlying : ℕ → Option ComparisonResult
  | 0 => some .equal
  | 1 => some .notEqual
  | 2 => some .overflow
  | _ => none

/-- `create_delta_result`, as the caller gets it. -/
structure MadeDeltaResult where
  status : StatusCode
  result : Option ComparisonResult
  bytesCompleted : ℕ
  deltaRecordSize : ℕ
  deriving DecidableEq, Repr

/-- `make_result<create_delta_result>`. -/
def makeResult (m : Memory) (record : ℕ) : MadeDeltaResult where
  status := ExecutionStatus.toOwn (getStatus m record)
  result := ComparisonResult.ofUnderlying (getResult m record)
  bytesCompleted := getBytesCompleted m record
  deltaRecordSize := getDeltaRecordSize m record

/-- The loop of a `create_delta` returns at block `b`: it differs, and is the first such
block that is not recorded. -/
def StopsAt (m : Memory) (dsc b : ℕ) : Prop :=
  b < AnyDescriptor.transferSize.get m dsc / 8
    ∧ ∃ r, Loop.ReturnsAt (createDeltaStep (CreateDeltaDescriptor.source1Address.get m dsc)
        (CreateDeltaDescriptor.source2Address.get m dsc)
        (CreateDeltaDescriptor.deltaRecordAddress.get m dsc)
        (CreateDeltaDescriptor.maximumDeltaRecordSize.get m dsc)) (m, 0) b r

section Resume

variable {m : Memory} {dsc b c : ℕ}

theorem StopsAt.unique (hb : StopsAt m dsc b) (hc : StopsAt m dsc c) : b = c := by
  obtain ⟨-, r, hr⟩ := hb
  obtain ⟨-, r', hr'⟩ := hc
  exact hr.unique hr'

/-- An overflow is a stop. -/
theorem exists_stopsAt {src1 src2 n delta max : ℕ}
    (hover : (dmlRefCreateDelta m src1 src2 n delta max).2.2 = resultOverflow) :
    ∃ b, b < n / 8 ∧ ∃ r, Loop.ReturnsAt (createDeltaStep src1 src2 delta max) (m, 0) b r := by
  unfold dmlRefCreateDelta at hover
  split at hover
  · next h =>
    obtain ⟨b, hb, hreturns⟩ := Loop.iterUntil_eq_error.mp h
    exact ⟨b, hb, _, hreturns⟩
  · simp only at hover
    split at hover
    · exact absurd hover (by decide)
    · exact absurd hover (by decide)

/-- The first block is never the one: there is room for a note. -/
theorem StopsAt.pos (hmax : 80 ≤ CreateDeltaDescriptor.maximumDeltaRecordSize.get m dsc)
    (hb : StopsAt m dsc b) : 0 < b := by
  obtain ⟨-, r, t, ht, hreturns⟩ := hb
  rcases Nat.eq_zero_or_pos b with rfl | hpos
  · cases ht
    have hroom := (createDeltaStep_returns hreturns).2
    simp only at hroom
    omega
  · exact hpos

/-- With the buffers apart from the record, the differing blocks before the stop are as many
as there is room for. -/
theorem StopsAt.differs (hapart : DeltaApart m dsc) (hb : StopsAt m dsc b) :
    blockDiffers m (CreateDeltaDescriptor.source1Address.get m dsc)
        (CreateDeltaDescriptor.source2Address.get m dsc) b = true
      ∧ (differingBlocks m (CreateDeltaDescriptor.source1Address.get m dsc)
        (CreateDeltaDescriptor.source2Address.get m dsc) b).length
          = CreateDeltaDescriptor.maximumDeltaRecordSize.get m dsc / 10 := by
  obtain ⟨hlt, r, hreturns⟩ := hb
  have hafter := hreturns.iterUntil_succ
  obtain ⟨t, hbefore, -⟩ := hreturns
  have hmax : CreateDeltaDescriptor.maximumDeltaRecordSize.get m dsc < 2 ^ 32 :=
    Field.get_lt _ m dsc
  have hinside : ∀ a, Region.Inside ⟨a, 8 * (AnyDescriptor.transferSize.get m dsc / 8)⟩
      ⟨a, AnyDescriptor.transferSize.get m dsc⟩ := fun a => ⟨le_rfl, by simp only; omega⟩
  have hloop := iterUntil_createDeltaStep (m := m) hmax
    (hapart.source1.mono (hinside _) (Region.Inside.refl _))
    (hapart.source2.mono (hinside _) (Region.Inside.refl _))
  rw [hloop b (by omega)] at hbefore
  rw [hloop (b + 1) (by omega), differingBlocks_succ] at hafter
  set D := differingBlocks m (CreateDeltaDescriptor.source1Address.get m dsc)
    (CreateDeltaDescriptor.source2Address.get m dsc) b with hD
  -- the notes of the blocks before `b` fit, with that of `b` they do not
  have hfit : D.length ≤ CreateDeltaDescriptor.maximumDeltaRecordSize.get m dsc / 10 := by
    by_contra hover
    rw [if_neg hover] at hbefore
    cases hbefore
  have hdiffers : blockDiffers m (CreateDeltaDescriptor.source1Address.get m dsc)
      (CreateDeltaDescriptor.source2Address.get m dsc) b = true := by
    by_contra hsame
    rw [if_neg hsame, List.append_nil, if_pos hfit] at hafter
    cases hafter
  have hover :
      ¬(D ++ [b]).length ≤ CreateDeltaDescriptor.maximumDeltaRecordSize.get m dsc / 10 := by
    intro hle
    rw [if_pos hdiffers, if_pos hle] at hafter
    cases hafter
  rw [List.length_append, List.length_singleton] at hover
  exact ⟨hdiffers, by omega⟩

/-- Those blocks are the noted ones, and the stop is the next. -/
theorem StopsAt.notedBlocks_eq (hapart : DeltaApart m dsc) (hb : StopsAt m dsc b) :
    notedBlocks m dsc = differingBlocks m (CreateDeltaDescriptor.source1Address.get m dsc)
        (CreateDeltaDescriptor.source2Address.get m dsc) b
      ∧ (differingBlocks m (CreateDeltaDescriptor.source1Address.get m dsc)
        (CreateDeltaDescriptor.source2Address.get m dsc)
        (AnyDescriptor.transferSize.get m dsc / 8))[
          CreateDeltaDescriptor.maximumDeltaRecordSize.get m dsc / 10]? = some b := by
  obtain ⟨hdiffers, hlength⟩ := hb.differs hapart
  obtain ⟨k, hk⟩ := Nat.exists_eq_add_of_lt hb.1
  have hsplit := differingBlocks_add m (CreateDeltaDescriptor.source1Address.get m dsc)
    (CreateDeltaDescriptor.source2Address.get m dsc) (b + 1) k
  rw [differingBlocks_succ, if_pos hdiffers, List.append_assoc] at hsplit
  rw [notedBlocks, show AnyDescriptor.transferSize.get m dsc / 8 = b + 1 + k by omega, hsplit,
    ← hlength]
  exact ⟨List.take_left, by simp⟩

/-- So the stop is the first difference without a note. -/
theorem StopsAt.firstUnrecorded (hop : operationOf m dsc = some .createDelta)
    (hvalid : validate m dsc = .success) (hapart : DeltaApart m dsc) (hb : StopsAt m dsc b) :
    FirstUnrecorded m (CreateDeltaDescriptor.source1Address.get m dsc)
      (CreateDeltaDescriptor.source2Address.get m dsc) (AnyDescriptor.transferSize.get m dsc)
      (SoftwareDevice.submit m dsc).1 (CreateDeltaDescriptor.deltaRecordAddress.get m dsc)
      (getDeltaRecordSize (SoftwareDevice.submit m dsc).1 (getCompletionRecord m dsc)) b := by
  obtain ⟨hdiffers, -⟩ := hb.differs hapart
  obtain ⟨hnoted, -⟩ := hb.notedBlocks_eq hapart
  rw [getDeltaRecordSize, (submit_createDelta_eq hop hapart).1]
  refine ⟨hb.1, hdiffers, ?_, fun c hc hc' => ?_⟩
  · rw [noted_iff hop hapart hvalid, hnoted, mem_differingBlocks]
    exact fun h => lt_irrefl _ h.1
  · rw [noted_iff hop hapart hvalid, hnoted, mem_differingBlocks]
    exact ⟨hc, hc'⟩

/-- The kernel leaves the field alone. -/
theorem bytesCompleted_submit_createDelta (hop : operationOf m dsc = some .createDelta)
    (hrecord : Region.Apart ⟨getCompletionRecord m dsc, recordSize⟩
      ⟨CreateDeltaDescriptor.deltaRecordAddress.get m dsc,
        CreateDeltaDescriptor.maximumDeltaRecordSize.get m dsc⟩) :
    AnyCompletionRecord.bytesCompleted.get (SoftwareDevice.submit m dsc).1
        (getCompletionRecord m dsc)
      = AnyCompletionRecord.bytesCompleted.get m (getCompletionRecord m dsc) := by
  rw [SoftwareDevice.submit, hop]
  simp only [Kernels.createDelta]
  rw [get_setStatus (by decide), Field.get_set_of_apart (by decide),
    Field.get_set_of_apart (by decide)]
  refine Field.get_congr (by decide : AnyCompletionRecord.bytesCompleted.Within recordSize)
    fun x hx => ?_
  exact dmlRefCreateDelta_of_notMem (notMem_addrs.mp (hrecord.notMem hx))

/-- **An overflow reports where to resume exactly when the record said so before.**  The
field the result takes it from is never written, and in a record that holds zero it is
wrong for every overflow. -/
theorem bytesCompleted_resumes_iff (hop : operationOf m dsc = some .createDelta)
    (hvalid : validate m dsc = .success)
    (hrecord : Region.Apart ⟨getCompletionRecord m dsc, recordSize⟩
      ⟨CreateDeltaDescriptor.deltaRecordAddress.get m dsc,
        CreateDeltaDescriptor.maximumDeltaRecordSize.get m dsc⟩)
    (hover : AnyCompletionRecord.result.get (SoftwareDevice.submit m dsc).1
      (getCompletionRecord m dsc) = resultOverflow) :
    ∃ b, (∀ c, StopsAt m dsc c ↔ c = b)
      ∧ (DeltaApart m dsc →
        (differingBlocks m (CreateDeltaDescriptor.source1Address.get m dsc)
            (CreateDeltaDescriptor.source2Address.get m dsc)
            (AnyDescriptor.transferSize.get m dsc / 8))[
              CreateDeltaDescriptor.maximumDeltaRecordSize.get m dsc / 10]? = some b
          ∧ FirstUnrecorded m (CreateDeltaDescriptor.source1Address.get m dsc)
            (CreateDeltaDescriptor.source2Address.get m dsc) (AnyDescriptor.transferSize.get m dsc)
            (SoftwareDevice.submit m dsc).1 (CreateDeltaDescriptor.deltaRecordAddress.get m dsc)
            (getDeltaRecordSize (SoftwareDevice.submit m dsc).1 (getCompletionRecord m dsc)) b)
      ∧ ((makeResult (SoftwareDevice.submit m dsc).1 (getCompletionRecord m dsc)).bytesCompleted
          = 8 * b
        ↔ AnyCompletionRecord.bytesCompleted.get m (getCompletionRecord m dsc) = 8 * b)
      ∧ (AnyCompletionRecord.bytesCompleted.get m (getCompletionRecord m dsc) = 0 →
        (makeResult (SoftwareDevice.submit m dsc).1 (getCompletionRecord m dsc)).bytesCompleted
          ≠ 8 * b) := by
  rw [(submit_createDelta hop rfl rfl rfl rfl rfl).2.1] at hover
  obtain ⟨b, hb⟩ := exists_stopsAt hover
  have hstops : StopsAt m dsc b := hb
  have hkept : (makeResult (SoftwareDevice.submit m dsc).1
      (getCompletionRecord m dsc)).bytesCompleted
        = AnyCompletionRecord.bytesCompleted.get m (getCompletionRecord m dsc) :=
    bytesCompleted_submit_createDelta hop hrecord
  refine ⟨b, fun c => ⟨fun hc => hc.unique hstops, fun hc => hc ▸ hstops⟩,
    fun hapart => ⟨(hstops.notedBlocks_eq hapart).2, hstops.firstUnrecorded hop hvalid hapart⟩,
    by rw [hkept], fun hzero => ?_⟩
  have hpos := hstops.pos (validate_createDelta hop hvalid).2.2.2
  rw [hkept, hzero]
  omega

/-- A `create_delta` of nine blocks that all differ, with room for eight notes, and a
record whose field is zero. -/
def overflowSample : Memory :=
  let m := rawDescriptor .createDelta 64 32 128 256 72
  let m := CreateDeltaDescriptor.deltaRecordAddress.set m 64 384
  let m := CreateDeltaDescriptor.maximumDeltaRecordSize.set m 64 80
  store m 256 72 (2 ^ 576 - 1)

/-- The result is not the stop. -/
theorem bytesCompleted_resumes_overflowSample :
    ∃ b, StopsAt overflowSample 64 b
      ∧ (makeResult (SoftwareDevice.submit overflowSample 64).1
          (getCompletionRecord overflowSample 64)).bytesCompleted ≠ 8 * b := by
  have hop : operationOf overflowSample 64 = some .createDelta := by decide
  obtain ⟨b, hstops, -, -, hzero⟩ := bytesCompleted_resumes_iff hop (by decide)
    (by decide +kernel) (by decide +kernel)
  exact ⟨b, (hstops b).mpr rfl, hzero (by decide)⟩

/-- Block 8 is the first without a note, and the bytes completed are none. -/
theorem overflow_resumes_nowhere :
    validate overflowSample 64 = .success
      ∧ FirstUnrecorded overflowSample 128 256 72 (SoftwareDevice.submit overflowSample 64).1 384
        80 8
      ∧ makeResult (SoftwareDevice.submit overflowSample 64).1 32
        = ⟨.ok, some .overflow, 0, 80⟩ := by
  have hop : operationOf overflowSample 64 = some .createDelta := by decide
  have hvalid : validate overflowSample 64 = .success := by decide
  have hapart : DeltaApart overflowSample 64 := by
    constructor <;> decide
  have hfirst := firstUnrecorded_of_overflow hop hapart hvalid (by decide +kernel)
  refine ⟨hvalid, ?_, by decide +kernel⟩
  convert hfirst using 1 <;> decide +kernel

end Resume

end DataMover
