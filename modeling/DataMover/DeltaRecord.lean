import DataMover.Placement
import DataMover.Validation

/-!
# Delta records

A delta record is data: `apply_delta` writes wherever its notes point.  The kernel
is given the size of the destination and does not read it, so a note past the end
is written all the same, and the record reports *success*.

The records `create_delta` makes are of another kind.  Their notes are those of the
differing blocks, in order, and applying them to a copy of the first source rebuilds
the second, or as much of it as the record had room for.

## Main definitions

* `DeltaConfined` — an `apply_delta` that stays in its destination and reports a note
  that points elsewhere.
* `FirstUnrecorded` — the first difference a delta record has no note of.

## Main results

* `deltaConfined_iff` — the kernel is confined exactly when every note points inside.
* `dmlRefApplyDelta_blocks` — what applying the notes of given blocks leaves.
* `applyDelta_createDelta` — the round trip.
-/

namespace DataMover

open ByteMemory

/-! ### A record of arbitrary bytes -/

/-- The block index of note `index`. -/
def noteOffset (m : Memory) (deltaRecord index : ℕ) : ℕ := load m (deltaRecord + 10 * index) 2

section Confined

variable {m : Memory} {dsc : ℕ}

/-- The kernel writes its destination and its completion record only, and does not
report *success* when a note points past the destination. -/
structure DeltaConfined (m : Memory) (dsc : ℕ) : Prop where
  within : ∀ x, x ∉ Region.addrs ⟨AnyDescriptor.destinationAddress.get m dsc,
      AnyDescriptor.transferSize.get m dsc⟩ →
    x ∉ Region.addrs ⟨getCompletionRecord m dsc, recordSize⟩ → Kernels.applyDelta m dsc x = m x
  reported : (∃ index, index < ApplyDeltaDescriptor.deltaRecordSize.get m dsc / 10
      ∧ AnyDescriptor.transferSize.get m dsc / 8
        ≤ noteOffset m (ApplyDeltaDescriptor.deltaRecordAddress.get m dsc) index) →
    AnyCompletionRecord.status.get (Kernels.applyDelta m dsc) (getCompletionRecord m dsc)
      ≠ ExecutionStatus.success.toUnderlying

/-- The kernel knows no status but *success*. -/
theorem status_applyDelta (m : Memory) (dsc : ℕ) :
    AnyCompletionRecord.status.get (Kernels.applyDelta m dsc) (getCompletionRecord m dsc)
      = ExecutionStatus.success.toUnderlying :=
  status_setStatus _ _ _

/-- **`apply_delta` is confined exactly when every note points into its
destination.**  Nothing in the kernel enforces it. -/
theorem deltaConfined_iff (hop : operationOf m dsc = some .applyDelta)
    (hvalid : validate m dsc = .success)
    (hrecord : ApplyDeltaDescriptor.deltaRecordAddress.get m dsc
      + ApplyDeltaDescriptor.deltaRecordSize.get m dsc < 2 ^ 64)
    (hdst : AnyDescriptor.destinationAddress.get m dsc + AnyDescriptor.transferSize.get m dsc
      < 2 ^ 64) :
    DeltaConfined m dsc
      ↔ ∀ index, index < ApplyDeltaDescriptor.deltaRecordSize.get m dsc / 10 →
          noteOffset m (ApplyDeltaDescriptor.deltaRecordAddress.get m dsc) index
            < AnyDescriptor.transferSize.get m dsc / 8 := by
  constructor
  · intro h index hindex
    by_contra hpast
    exact h.reported ⟨index, hindex, not_lt.mp hpast⟩ (status_applyDelta m dsc)
  · intro hnotes
    refine ⟨fun x hx hrec => ?_, ?_⟩
    · have hap := apart_of_overlaps (validate_applyDelta hop hvalid) hrecord hdst
      have hwithin : NotesWithin m (ApplyDeltaDescriptor.deltaRecordAddress.get m dsc)
          (ApplyDeltaDescriptor.deltaRecordSize.get m dsc)
          (AnyDescriptor.transferSize.get m dsc) := fun index hindex => by
        have hlt := hnotes index hindex
        unfold noteOffset at hlt
        omega
      simp only [Kernels.applyDelta]
      rw [setStatus_apply hrec]
      exact dmlRefApplyDelta_of_notMem hwithin hap (notMem_addrs.mp hx)
    · rintro ⟨index, hindex, hpast⟩
      exact absurd (hnotes index hindex) (not_lt.mpr hpast)

/-- An `apply_delta` of one note for eight bytes at 160; the note, at 128, is for
block `offset`. -/
def oneNote (offset : ℕ) : Memory :=
  let m := rawDescriptor .applyDelta 64 32 128 160 8
  let m := ApplyDeltaDescriptor.deltaRecordSize.set m 64 10
  store (store m 128 2 offset) 130 8 0xff

/-- A note for the block of the destination. -/
theorem deltaConfined_inside : DeltaConfined (oneNote 0) 64 :=
  (deltaConfined_iff (by decide) (by decide) (by decide)
    (by decide)).mpr (by decide)

/-- A note for the block after it: the byte at 168 is written and the status is
*success*. -/
theorem deltaConfined_outside :
    validate (oneNote 1) 64 = .success ∧ Kernels.applyDelta (oneNote 1) 64 168 ≠ oneNote 1 168
      ∧ ¬DeltaConfined (oneNote 1) 64 := by
  refine ⟨by decide, by decide, fun h => ?_⟩
  exact h.reported ⟨0, by decide, by decide⟩ (status_applyDelta _ _)

end Confined

/-! ### Applying the notes of given blocks -/

section Apply

variable {m w : Memory} {src2 rec dst n : ℕ}

/-- The notes of `blocks`, read off a record that holds them. -/
theorem load_note {blocks : List ℕ}
    (hrec : ∀ i, i < 10 * blocks.length → w (rec + i) = notesByte (blocks.map (noteOf m src2)) i)
    (hidx : ∀ b ∈ blocks, b < 2 ^ 16) {j : ℕ} (hj : j < blocks.length) :
    load w (rec + 10 * j) 2 = blocks[j]
      ∧ load w (rec + 10 * j + 2) 8 = load m (src2 + 8 * blocks[j]) 8 := by
  have hget : (blocks.map (noteOf m src2)).getD j (0, 0) = noteOf m src2 blocks[j] := by
    rw [List.getD_eq_getElem _ _ (by rw [List.length_map]; exact hj), List.getElem_map]
  constructor
  · rw [load_eq_iff (hidx _ (List.getElem_mem hj))]
    intro t ht
    rw [Nat.add_assoc, hrec _ (by omega), notesByte, show (10 * j + t) / 10 = j by omega,
      show (10 * j + t) % 10 = t by omega, if_pos ht, hget, noteOf]
  · rw [load_eq_iff (load_lt m _ 8)]
    intro t ht
    rw [Nat.add_assoc, Nat.add_assoc, hrec _ (by omega), notesByte,
      show (10 * j + (2 + t)) / 10 = j by omega, show (10 * j + (2 + t)) % 10 = 2 + t by omega,
      if_neg (by omega), hget, noteOf, Nat.add_sub_cancel_left]

/-- **Applying the notes of given blocks**: those blocks are of the second source,
the others stay. -/
theorem dmlRefApplyDelta_blocks {blocks : List ℕ}
    (hrec : ∀ i, i < 10 * blocks.length → w (rec + i) = notesByte (blocks.map (noteOf m src2)) i)
    (hidx : ∀ b ∈ blocks, b < 2 ^ 16) (hin : ∀ b ∈ blocks, 8 * b + 8 ≤ n)
    (hap : Region.Apart ⟨rec, 10 * blocks.length⟩ ⟨dst, n⟩) {b t : ℕ} (ht : t < 8) :
    dmlRefApplyDelta w rec dst (10 * blocks.length) (dst + 8 * b + t)
      = if b ∈ blocks then m (src2 + 8 * b + t) else w (dst + 8 * b + t) := by
  unfold dmlRefApplyDelta
  rw [Nat.mul_div_cancel_left _ (by decide : 0 < 10)]
  -- after `j` notes the record is as it was and the first `j` blocks are in place
  have hall := Loop.iter_invariant (n := blocks.length) (s := w)
    (f := fun index u => store u (dst + 8 * load u (rec + 10 * index) 2) 8
      (load u (rec + 10 * index + 2) 8))
    (fun j u => (∀ x, x < dst ∨ dst + n ≤ x → u x = w x)
      ∧ ∀ b t, t < 8 → u (dst + 8 * b + t)
        = if b ∈ blocks.take j then m (src2 + 8 * b + t) else w (dst + 8 * b + t))
    ⟨fun _ _ => rfl, fun _ _ _ => by simp⟩ fun j u hj hu => ?step
  · have hblock := hall.2 b t ht
    rwa [List.take_length] at hblock
  · obtain ⟨hout, hblocks⟩ := hu
    have hread : ∀ a k, rec ≤ a → a + k ≤ rec + 10 * blocks.length → load u a k = load w a k := by
      intro a k hlo hhi
      refine load_congr fun i hi => hout _ ?_
      unfold Region.Apart at hap
      simp only at hap
      omega
    obtain ⟨hoffset, hdata⟩ := load_note hrec hidx hj
    have hblock := hin _ (List.getElem_mem hj)
    simp only [hread _ 2 (show rec ≤ rec + 10 * j by omega) (by omega),
      hread _ 8 (show rec ≤ rec + 10 * j + 2 by omega) (by omega), hoffset, hdata]
    refine ⟨fun x hx => ?_, fun b t ht => ?_⟩
    · rw [store_apply_of_notMem (by omega)]
      exact hout x hx
    · have hmem : b ∈ blocks.take (j + 1) ↔ b ∈ blocks.take j ∨ b = blocks[j] := by
        rw [List.take_add_one, List.getElem?_eq_getElem hj, Option.toList_some, List.mem_append,
          List.mem_singleton]
      by_cases hb : b = blocks[j]
      · rw [if_pos (hmem.mpr (Or.inr hb)), hb, store_apply_of_lt ht, byteAt_load m _ ht]
      · rw [store_apply_of_notMem (by omega), hblocks b t ht]
        by_cases hbj : b ∈ blocks.take j
        · rw [if_pos hbj, if_pos (hmem.mpr (Or.inl hbj))]
        · rw [if_neg hbj, if_neg (fun h => (hmem.mp h).elim hbj hb)]

end Apply

/-! ### The record a `create_delta` makes -/

/-- A record of `size` bytes has a note of block `b`. -/
def Noted (m : Memory) (deltaRecord size b : ℕ) : Prop :=
  ∃ index, index < size / 10 ∧ noteOffset m deltaRecord index = b

/-- Block `b` is the first in which the sources in `m` differ and of which the record
in `m'` has no note. -/
structure FirstUnrecorded (m : Memory) (src1 src2 n : ℕ) (m' : Memory) (deltaRecord size b : ℕ) :
    Prop where
  lt : b < n / 8
  differs : blockDiffers m src1 src2 b = true
  unrecorded : ¬Noted m' deltaRecord size b
  first : ∀ c, c < b → blockDiffers m src1 src2 c = true → Noted m' deltaRecord size c

section Blocks

variable {m : Memory} {src1 src2 n : ℕ}

theorem pairwise_differingBlocks (m : Memory) (src1 src2 n : ℕ) :
    (differingBlocks m src1 src2 n).Pairwise (· < ·) :=
  List.Pairwise.filter _ List.pairwise_lt_range

/-- The first `k` differing blocks are those before the next one. -/
theorem mem_take_differingBlocks {k : ℕ} (hk : k < (differingBlocks m src1 src2 n).length) {b : ℕ} :
    b ∈ (differingBlocks m src1 src2 n).take k
      ↔ b ∈ differingBlocks m src1 src2 n ∧ b < (differingBlocks m src1 src2 n)[k] := by
  have hsorted := List.pairwise_iff_getElem.mp (pairwise_differingBlocks m src1 src2 n)
  set D := differingBlocks m src1 src2 n
  constructor
  · intro h
    obtain ⟨j, hj, rfl⟩ := List.mem_take_iff_getElem.mp h
    exact ⟨List.getElem_mem _, hsorted j k (by omega) hk (by omega)⟩
  · rintro ⟨hmem, hlt⟩
    obtain ⟨j, hj, rfl⟩ := List.mem_iff_getElem.mp hmem
    have hjk : j < k := by
      by_contra hge
      rcases Nat.lt_or_eq_of_le (not_lt.mp hge) with h | h
      · exact absurd (hsorted k j hk hj h) (not_lt.mpr hlt.le)
      · subst h
        exact lt_irrefl _ hlt
    exact List.mem_take_iff_getElem.mpr ⟨j, by omega, rfl⟩

/-- A block that does not differ is the same in both sources. -/
theorem eq_of_notMem_differingBlocks {b t : ℕ} (hb : b < n)
    (hmem : b ∉ differingBlocks m src1 src2 n) (ht : t < 8) :
    m (src1 + 8 * b + t) = m (src2 + 8 * b + t) := by
  refine blockDiffers_eq_false_iff.mp (Bool.eq_false_iff.mpr fun h => ?_) t ht
  exact hmem (mem_differingBlocks.mpr ⟨hb, h⟩)

end Blocks

/-! ### The `create_delta` kernel -/

section CreateKernel

variable {m : Memory} {dsc src1 src2 n delta max : ℕ}

theorem dmlRefCreateDelta_result_lt (m : Memory) (src1 src2 n delta max : ℕ) :
    (dmlRefCreateDelta m src1 src2 n delta max).2.2 < 3 := by
  unfold dmlRefCreateDelta
  split
  · exact (by decide : resultOverflow < 3)
  · simp only
    split
    · exact (by decide : resultNotEqual < 3)
    · exact (by decide : resultEqual < 3)

/-- What the `create_delta` kernel leaves: the record fields it writes, and all
other memory. -/
theorem submit_createDelta (hop : operationOf m dsc = some .createDelta)
    (h1 : CreateDeltaDescriptor.source1Address.get m dsc = src1)
    (h2 : CreateDeltaDescriptor.source2Address.get m dsc = src2)
    (hn : AnyDescriptor.transferSize.get m dsc = n)
    (hdelta : CreateDeltaDescriptor.deltaRecordAddress.get m dsc = delta)
    (hmax : CreateDeltaDescriptor.maximumDeltaRecordSize.get m dsc = max) :
    CreateDeltaCompletionRecord.deltaRecordSize.get (SoftwareDevice.submit m dsc).1
        (getCompletionRecord m dsc) = (dmlRefCreateDelta m src1 src2 n delta max).2.1
      ∧ AnyCompletionRecord.result.get (SoftwareDevice.submit m dsc).1 (getCompletionRecord m dsc)
        = (dmlRefCreateDelta m src1 src2 n delta max).2.2
      ∧ AnyCompletionRecord.status.get (SoftwareDevice.submit m dsc).1 (getCompletionRecord m dsc)
        = (Kernels.createDeltaStatus
            (intersects (AnyDescriptor.flags.get m dsc) Flag.checkResult)
            (CreateDeltaDescriptor.expectedResultMask.get m dsc &&& 0b111)
            (dmlRefCreateDelta m src1 src2 n delta max).2.2).toUnderlying
      ∧ ∀ x, x ∉ Region.addrs ⟨getCompletionRecord m dsc, recordSize⟩ →
        (SoftwareDevice.submit m dsc).1 x = (dmlRefCreateDelta m src1 src2 n delta max).1 x := by
  have hmaxlt : max < 2 ^ 32 := hmax ▸ Field.get_lt _ m dsc
  have hsize := (dmlRefCreateDelta_size m src1 src2 n delta max hmaxlt).1
  have hresult : _ < 2 ^ 8 :=
    (dmlRefCreateDelta_result_lt m src1 src2 n delta max).trans (by decide)
  rw [SoftwareDevice.submit, hop]
  simp only [Kernels.createDelta, h1, h2, hn, hdelta, hmax]
  set out := dmlRefCreateDelta m src1 src2 n delta max with hout
  -- the status is computed from the result just written to the record
  have hread : AnyCompletionRecord.result.get (AnyCompletionRecord.result.set
      (CreateDeltaCompletionRecord.deltaRecordSize.set out.1 (getCompletionRecord m dsc) out.2.1)
      (getCompletionRecord m dsc) out.2.2) (getCompletionRecord m dsc) = out.2.2 :=
    Field.get_set_self_of_lt _ _ hresult
  rw [hread]
  refine ⟨?_, ?_, status_setStatus _ _ _, fun x hx => ?_⟩
  · rw [get_setStatus (by decide), Field.get_set_of_apart (by decide)]
    exact Field.get_set_self_of_lt _ _ (lt_of_le_of_lt hsize hmaxlt)
  · rw [get_setStatus (by decide), hread]
  · rw [setStatus_apply hx, set_apply_of_notMem hx (by decide), set_apply_of_notMem hx (by decide)]

end CreateKernel

/-! ### The round trip -/

/-- In `w`, the descriptor at `d` applies the record that the `create_delta` at `dsc`
makes of `m` to a copy of the first source. -/
structure AppliesRecord (m : Memory) (dsc : ℕ) (w : Memory) (d : ℕ) : Prop where
  operation : operationOf w d = some .applyDelta
  size : ApplyDeltaDescriptor.deltaRecordSize.get w d
    = CreateDeltaCompletionRecord.deltaRecordSize.get (SoftwareDevice.submit m dsc).1
        (getCompletionRecord m dsc)
  record : ∀ i, i < ApplyDeltaDescriptor.deltaRecordSize.get w d →
    w (ApplyDeltaDescriptor.deltaRecordAddress.get w d + i)
      = (SoftwareDevice.submit m dsc).1 (CreateDeltaDescriptor.deltaRecordAddress.get m dsc + i)
  copy : ∀ i, i < AnyDescriptor.transferSize.get m dsc →
    w (AnyDescriptor.destinationAddress.get w d + i)
      = m (CreateDeltaDescriptor.source1Address.get m dsc + i)
  delta_apart : Region.Apart ⟨ApplyDeltaDescriptor.deltaRecordAddress.get w d,
      ApplyDeltaDescriptor.deltaRecordSize.get w d⟩
    ⟨AnyDescriptor.destinationAddress.get w d, AnyDescriptor.transferSize.get m dsc⟩
  record_apart : Region.Apart ⟨getCompletionRecord w d, recordSize⟩
    ⟨AnyDescriptor.destinationAddress.get w d, AnyDescriptor.transferSize.get m dsc⟩

/-- The sources of a `create_delta` and its completion record are apart from the
delta record. -/
structure DeltaApart (m : Memory) (dsc : ℕ) : Prop where
  source1 : Region.Apart
    ⟨CreateDeltaDescriptor.source1Address.get m dsc, AnyDescriptor.transferSize.get m dsc⟩
    ⟨CreateDeltaDescriptor.deltaRecordAddress.get m dsc,
      CreateDeltaDescriptor.maximumDeltaRecordSize.get m dsc⟩
  source2 : Region.Apart
    ⟨CreateDeltaDescriptor.source2Address.get m dsc, AnyDescriptor.transferSize.get m dsc⟩
    ⟨CreateDeltaDescriptor.deltaRecordAddress.get m dsc,
      CreateDeltaDescriptor.maximumDeltaRecordSize.get m dsc⟩
  record : Region.Apart ⟨getCompletionRecord m dsc, recordSize⟩
    ⟨CreateDeltaDescriptor.deltaRecordAddress.get m dsc,
      CreateDeltaDescriptor.maximumDeltaRecordSize.get m dsc⟩

section RoundTrip

variable {m w : Memory} {dsc d : ℕ}

/-- The blocks a `create_delta` has notes of. -/
def notedBlocks (m : Memory) (dsc : ℕ) : List ℕ :=
  (differingBlocks m (CreateDeltaDescriptor.source1Address.get m dsc)
    (CreateDeltaDescriptor.source2Address.get m dsc)
    (AnyDescriptor.transferSize.get m dsc / 8)).take
      (CreateDeltaDescriptor.maximumDeltaRecordSize.get m dsc / 10)

variable (hop : operationOf m dsc = some .createDelta) (hapart : DeltaApart m dsc)
include hop hapart

/-- What a `create_delta` reports, and the record it leaves. -/
theorem submit_createDelta_eq :
    CreateDeltaCompletionRecord.deltaRecordSize.get (SoftwareDevice.submit m dsc).1
        (getCompletionRecord m dsc) = 10 * (notedBlocks m dsc).length
      ∧ AnyCompletionRecord.result.get (SoftwareDevice.submit m dsc).1 (getCompletionRecord m dsc)
        = deltaResult (differingBlocks m (CreateDeltaDescriptor.source1Address.get m dsc)
            (CreateDeltaDescriptor.source2Address.get m dsc)
            (AnyDescriptor.transferSize.get m dsc / 8)).length
          (CreateDeltaDescriptor.maximumDeltaRecordSize.get m dsc)
      ∧ ∀ i, i < 10 * (notedBlocks m dsc).length →
        (SoftwareDevice.submit m dsc).1 (CreateDeltaDescriptor.deltaRecordAddress.get m dsc + i)
          = notesByte ((notedBlocks m dsc).map
              (noteOf m (CreateDeltaDescriptor.source2Address.get m dsc))) i := by
  have hmax : CreateDeltaDescriptor.maximumDeltaRecordSize.get m dsc < 2 ^ 32 :=
    Field.get_lt _ m dsc
  obtain ⟨hsize, hresult, -, hmem⟩ := submit_createDelta hop rfl rfl rfl rfl rfl
  have heq := dmlRefCreateDelta_eq (m := m) hmax hapart.source1 hapart.source2
  have hnotes : recordedNotes m (CreateDeltaDescriptor.source1Address.get m dsc)
      (CreateDeltaDescriptor.source2Address.get m dsc) (AnyDescriptor.transferSize.get m dsc / 8)
      (CreateDeltaDescriptor.maximumDeltaRecordSize.get m dsc)
        = (notedBlocks m dsc).map (noteOf m (CreateDeltaDescriptor.source2Address.get m dsc)) := rfl
  have hroom : 10 * (notedBlocks m dsc).length
      ≤ CreateDeltaDescriptor.maximumDeltaRecordSize.get m dsc := by
    rw [notedBlocks, List.length_take]
    omega
  rw [heq, hnotes] at hsize hresult hmem
  rw [List.length_map] at hsize
  refine ⟨hsize, hresult, fun i hi => ?_⟩
  rw [hmem _ (hapart.record.symm.notMem (Region.add_mem_addrs (by omega)))]
  exact writeNotes_of_lt _ _ _ _ (by rw [List.length_map]; exact hi)

omit hapart in
/-- The blocks with a note are blocks of the sources, and their index fits 16 bits. -/
theorem notedBlocks_lt (hvalid : validate m dsc = .success) :
    ∀ b ∈ notedBlocks m dsc, b < 2 ^ 16 ∧ 8 * b + 8 ≤ AnyDescriptor.transferSize.get m dsc := by
  intro b hb
  obtain ⟨-, hlarge, -⟩ := validate_createDelta hop hvalid
  have hlt := (mem_differingBlocks.mp (List.mem_of_mem_take hb)).1
  omega

/-- Applying the record, block by block. -/
theorem submit_applyDelta_blocks (hvalid : validate m dsc = .success) (h : AppliesRecord m dsc w d)
    {b t : ℕ} (ht : t < 8) (hbt : 8 * b + t < AnyDescriptor.transferSize.get m dsc) :
    (SoftwareDevice.submit w d).1 (AnyDescriptor.destinationAddress.get w d + (8 * b + t))
      = if b ∈ notedBlocks m dsc
        then m (CreateDeltaDescriptor.source2Address.get m dsc + (8 * b + t))
        else m (CreateDeltaDescriptor.source1Address.get m dsc + (8 * b + t)) := by
  obtain ⟨hsize, -, hbytes⟩ := submit_createDelta_eq hop hapart
  have hlt := notedBlocks_lt hop hvalid
  have hw := h.size.trans hsize
  have hap := h.delta_apart
  have hrecord := h.record
  rw [hw] at hap hrecord
  rw [SoftwareDevice.submit, h.operation]
  simp only [Kernels.applyDelta, hw]
  rw [setStatus_apply (h.record_apart.symm.notMem (Region.add_mem_addrs hbt)), ← Nat.add_assoc,
    dmlRefApplyDelta_blocks (fun i hi => (hrecord i hi).trans (hbytes i hi))
      (fun b hb => (hlt b hb).1) (fun b hb => (hlt b hb).2) hap ht,
    Nat.add_assoc (AnyDescriptor.destinationAddress.get w d), h.copy _ hbt,
    Nat.add_assoc (CreateDeltaDescriptor.source2Address.get m dsc)]

/-- A block has a note when it is one of the noted blocks. -/
theorem noted_iff (hvalid : validate m dsc = .success) {b : ℕ} :
    Noted (SoftwareDevice.submit m dsc).1 (CreateDeltaDescriptor.deltaRecordAddress.get m dsc)
        (10 * (notedBlocks m dsc).length) b ↔ b ∈ notedBlocks m dsc := by
  obtain ⟨-, -, hbytes⟩ := submit_createDelta_eq hop hapart
  have hidx := fun b hb => (notedBlocks_lt hop hvalid b hb).1
  rw [Noted, Nat.mul_div_cancel_left _ (by decide : 0 < 10), List.mem_iff_getElem]
  constructor
  · rintro ⟨j, hj, rfl⟩
    exact ⟨j, hj, (load_note hbytes hidx hj).1.symm⟩
  · rintro ⟨j, hj, rfl⟩
    exact ⟨j, hj, (load_note hbytes hidx hj).1⟩

/-- Applying the record, byte by byte. -/
theorem submit_applyDelta_byte (hvalid : validate m dsc = .success) (h : AppliesRecord m dsc w d)
    {i : ℕ} (hi : i < AnyDescriptor.transferSize.get m dsc) :
    (SoftwareDevice.submit w d).1 (AnyDescriptor.destinationAddress.get w d + i)
      = if i / 8 ∈ notedBlocks m dsc then m (CreateDeltaDescriptor.source2Address.get m dsc + i)
        else m (CreateDeltaDescriptor.source1Address.get m dsc + i) := by
  have hbyte := submit_applyDelta_blocks hop hapart hvalid h (Nat.mod_lt i (by decide : 0 < 8))
    (lt_of_eq_of_lt (Nat.div_add_mod i 8) hi)
  rwa [Nat.div_add_mod] at hbyte

omit hapart in
/-- A byte of a block that does not differ. -/
theorem source1_eq_source2 (hvalid : validate m dsc = .success) {i : ℕ}
    (hi : i < AnyDescriptor.transferSize.get m dsc)
    (hmem : i / 8 ∉ differingBlocks m (CreateDeltaDescriptor.source1Address.get m dsc)
      (CreateDeltaDescriptor.source2Address.get m dsc)
      (AnyDescriptor.transferSize.get m dsc / 8)) :
    m (CreateDeltaDescriptor.source1Address.get m dsc + i)
      = m (CreateDeltaDescriptor.source2Address.get m dsc + i) := by
  -- the size is a multiple of 8, so the last byte is in a whole block
  have h8 := (validate_createDelta hop hvalid).1
  have heq := eq_of_notMem_differingBlocks (by omega) hmem (Nat.mod_lt i (by decide : 0 < 8))
  rwa [Nat.add_assoc, Nat.add_assoc, Nat.div_add_mod] at heq

/-- A record with room for every difference rebuilds the second source. -/
theorem applied_of_fits (hvalid : validate m dsc = .success) (h : AppliesRecord m dsc w d)
    (hroom : (differingBlocks m (CreateDeltaDescriptor.source1Address.get m dsc)
        (CreateDeltaDescriptor.source2Address.get m dsc)
        (AnyDescriptor.transferSize.get m dsc / 8)).length
      ≤ CreateDeltaDescriptor.maximumDeltaRecordSize.get m dsc / 10) {i : ℕ}
    (hi : i < AnyDescriptor.transferSize.get m dsc) :
    (SoftwareDevice.submit w d).1 (AnyDescriptor.destinationAddress.get w d + i)
      = m (CreateDeltaDescriptor.source2Address.get m dsc + i) := by
  rw [submit_applyDelta_byte hop hapart hvalid h hi, notedBlocks, List.take_of_length_le hroom]
  split
  · rfl
  · next hmem => exact source1_eq_source2 hop hvalid hi hmem

/-- The first difference that a record without room for every difference has no note of. -/
theorem firstUnrecorded_of_overflow (hvalid : validate m dsc = .success)
    (hroom : CreateDeltaDescriptor.maximumDeltaRecordSize.get m dsc / 10
      < (differingBlocks m (CreateDeltaDescriptor.source1Address.get m dsc)
        (CreateDeltaDescriptor.source2Address.get m dsc)
        (AnyDescriptor.transferSize.get m dsc / 8)).length) :
    FirstUnrecorded m (CreateDeltaDescriptor.source1Address.get m dsc)
      (CreateDeltaDescriptor.source2Address.get m dsc) (AnyDescriptor.transferSize.get m dsc)
      (SoftwareDevice.submit m dsc).1 (CreateDeltaDescriptor.deltaRecordAddress.get m dsc)
      (10 * (notedBlocks m dsc).length)
      ((differingBlocks m (CreateDeltaDescriptor.source1Address.get m dsc)
        (CreateDeltaDescriptor.source2Address.get m dsc)
        (AnyDescriptor.transferSize.get m dsc / 8))[
          CreateDeltaDescriptor.maximumDeltaRecordSize.get m dsc / 10]) := by
  have hf := mem_differingBlocks.mp (List.getElem_mem hroom)
  refine ⟨hf.1, hf.2, ?_, ?_⟩
  · rw [noted_iff hop hapart hvalid]
    exact fun hnoted => lt_irrefl _ ((mem_take_differingBlocks hroom).mp hnoted).2
  · intro c hc hdiffers
    rw [noted_iff hop hapart hvalid]
    exact (mem_take_differingBlocks hroom).mpr
      ⟨mem_differingBlocks.mpr ⟨hc.trans hf.1, hdiffers⟩, hc⟩

/-- A record without room for every difference rebuilds the second source up to the first
difference it has no note of. -/
theorem applied_of_overflow (hvalid : validate m dsc = .success) (h : AppliesRecord m dsc w d)
    (hroom : CreateDeltaDescriptor.maximumDeltaRecordSize.get m dsc / 10
      < (differingBlocks m (CreateDeltaDescriptor.source1Address.get m dsc)
        (CreateDeltaDescriptor.source2Address.get m dsc)
        (AnyDescriptor.transferSize.get m dsc / 8)).length) :
    ∃ b, FirstUnrecorded m (CreateDeltaDescriptor.source1Address.get m dsc)
        (CreateDeltaDescriptor.source2Address.get m dsc) (AnyDescriptor.transferSize.get m dsc)
        (SoftwareDevice.submit m dsc).1 (CreateDeltaDescriptor.deltaRecordAddress.get m dsc)
        (ApplyDeltaDescriptor.deltaRecordSize.get w d) b
      ∧ ∀ i, i < AnyDescriptor.transferSize.get m dsc →
        (SoftwareDevice.submit w d).1 (AnyDescriptor.destinationAddress.get w d + i)
          = if i < 8 * b then m (CreateDeltaDescriptor.source2Address.get m dsc + i)
            else m (CreateDeltaDescriptor.source1Address.get m dsc + i) := by
  obtain ⟨hsize, -, -⟩ := submit_createDelta_eq hop hapart
  have hfirst := firstUnrecorded_of_overflow hop hapart hvalid hroom
  rw [← hsize, ← h.size] at hfirst
  refine ⟨_, hfirst, fun i hi => ?_⟩
  -- the noted blocks are the differing ones before it
  have hnoted := mem_take_differingBlocks hroom (b := i / 8)
  set f := (differingBlocks m (CreateDeltaDescriptor.source1Address.get m dsc)
    (CreateDeltaDescriptor.source2Address.get m dsc)
    (AnyDescriptor.transferSize.get m dsc / 8))[
      CreateDeltaDescriptor.maximumDeltaRecordSize.get m dsc / 10]
  rw [show i / 8 < f ↔ i < 8 * f by omega] at hnoted
  rw [submit_applyDelta_byte hop hapart hvalid h hi, notedBlocks]
  by_cases hbefore : i < 8 * f
  · rw [if_pos hbefore]
    split
    · rfl
    · next hmem =>
      exact source1_eq_source2 hop hvalid hi fun hdiffers => hmem (hnoted.mpr ⟨hdiffers, hbefore⟩)
  · rw [if_neg hbefore, if_neg fun hn => hbefore (hnoted.mp hn).2]

omit hop hapart in
/-- **The round trip.**  The record of a `create_delta` that fits turns a copy of the
first source into the second; one that overflows does so up to the first difference it
has no note of. -/
theorem applyDelta_createDelta (hop : operationOf m dsc = some .createDelta)
    (hvalid : validate m dsc = .success) (hapart : DeltaApart m dsc)
    (h : AppliesRecord m dsc w d) :
    (AnyCompletionRecord.result.get (SoftwareDevice.submit m dsc).1 (getCompletionRecord m dsc)
          = resultEqual
        ∨ AnyCompletionRecord.result.get (SoftwareDevice.submit m dsc).1 (getCompletionRecord m dsc)
          = resultNotEqual →
      ∀ i, i < AnyDescriptor.transferSize.get m dsc →
        (SoftwareDevice.submit w d).1 (AnyDescriptor.destinationAddress.get w d + i)
          = m (CreateDeltaDescriptor.source2Address.get m dsc + i))
    ∧ (AnyCompletionRecord.result.get (SoftwareDevice.submit m dsc).1 (getCompletionRecord m dsc)
          = resultOverflow →
      ∃ b, FirstUnrecorded m (CreateDeltaDescriptor.source1Address.get m dsc)
          (CreateDeltaDescriptor.source2Address.get m dsc) (AnyDescriptor.transferSize.get m dsc)
          (SoftwareDevice.submit m dsc).1 (CreateDeltaDescriptor.deltaRecordAddress.get m dsc)
          (ApplyDeltaDescriptor.deltaRecordSize.get w d) b
        ∧ ∀ i, i < AnyDescriptor.transferSize.get m dsc →
          (SoftwareDevice.submit w d).1 (AnyDescriptor.destinationAddress.get w d + i)
            = if i < 8 * b then m (CreateDeltaDescriptor.source2Address.get m dsc + i)
              else m (CreateDeltaDescriptor.source1Address.get m dsc + i)) := by
  obtain ⟨-, hresult, -⟩ := submit_createDelta_eq hop hapart
  rw [hresult]
  constructor
  · intro hfits i hi
    refine applied_of_fits hop hapart hvalid h (deltaResult_ne_overflow_iff.mp fun hover => ?_) hi
    rw [hover] at hfits
    exact absurd hfits (by decide)
  · intro hover
    refine applied_of_overflow hop hapart hvalid h (Nat.lt_of_not_le fun hroom => ?_)
    exact deltaResult_ne_overflow_iff.mpr hroom hover

end RoundTrip

/-- A `create_delta` of two sources of two blocks, at 128 and 192, that differ in the
second; the delta record is at 256. -/
def twoBlocks : Memory :=
  let m := rawDescriptor .createDelta 64 32 128 192 16
  let m := CreateDeltaDescriptor.deltaRecordAddress.set m 64 256
  let m := CreateDeltaDescriptor.maximumDeltaRecordSize.set m 64 80
  store m 203 1 7

/-- An `apply_delta` at 512 of the record made, onto a copy of the first source at 640. -/
def twoBlocksApplied : Memory :=
  let m := (SoftwareDevice.submit twoBlocks 64).1
  let m := AnyDescriptor.operation.set m 512 Operation.applyDelta.code
  let m := AnyDescriptor.completionRecordAddress.set m 512 608
  let m := AnyDescriptor.sourceAddress.set m 512 256
  let m := AnyDescriptor.destinationAddress.set m 512 640
  let m := AnyDescriptor.transferSize.set m 512 16
  ApplyDeltaDescriptor.deltaRecordSize.set m 512 10

/-- The byte that differs arrives. -/
theorem applyDelta_createDelta_twoBlocks :
    (SoftwareDevice.submit twoBlocksApplied 512).1 651 = 7 := by
  have hresult : AnyCompletionRecord.result.get (SoftwareDevice.submit twoBlocks 64).1
      (getCompletionRecord twoBlocks 64) = resultNotEqual := by
    decide
  have hdst : AnyDescriptor.destinationAddress.get twoBlocksApplied 512 = 640 := by decide
  have hsrc : CreateDeltaDescriptor.source2Address.get twoBlocks 64 = 192 := by decide
  have happlies : AppliesRecord twoBlocks 64 twoBlocksApplied 512 := by
    constructor <;> decide
  have hapart : DeltaApart twoBlocks 64 := by
    constructor <;> decide
  have hbyte := (applyDelta_createDelta (by decide) (by decide) hapart happlies).1
    (Or.inr hresult) 11 (by decide)
  rw [hdst, hsrc] at hbyte
  exact hbyte.trans (by decide)

end DataMover
