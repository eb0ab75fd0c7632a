import DataMover.Continuation.Delta

/-!
# How much the merged record claims

`update_for_continuation` means to clear the completion record before the
software takes over, but clears a copy.  The kernels that do not write the bytes
completed therefore leave those of the hardware in place, and the merge adds them
once more.  Only the insert kernel writes the field, with 0.

## Main definitions

* `MergesBytes` — the operations whose records are merged by adding the bytes.

## Main results

* `submit_bytesCompleted` — what a kernel leaves in the field.
* `wait_bytesCompleted` — what the wait leaves there.
* `bytesCompleted_le_iff` — when that is at most what was asked for.
-/

namespace DataMover

open ByteMemory

/-- The operations whose records are merged, other than by comparing or
checking. -/
def MergesBytes (op : Operation) : Prop :=
  op ∈ [Operation.memMove, .fill, .createDelta, .applyDelta, .dualcast, .crc, .copyCrc, .difInsert,
    .cacheFlush]

instance (op : Operation) : Decidable (MergesBytes op) := inferInstanceAs (Decidable (_ ∈ _))

/-! ### The kernels -/

section Kernels

variable {m : Memory} {dsc : ℕ} {op : Operation}

/-- The record is outside every buffer. -/
theorem Placed.outside (hp : Placed m dsc) {a n : ℕ} (hR : ⟨a, n⟩ ∈ operands m dsc) {x : ℕ}
    (hx : x ∈ Region.addrs ⟨getCompletionRecord m dsc, recordSize⟩) : x < a ∨ a + n ≤ x :=
  notMem_addrs.mp ((hp.apart_record _ hR).symm.notMem hx)

/-- **The bytes completed after a kernel**: the insert kernel writes 0, the others
leave the field. -/
theorem submit_bytesCompleted (hop : operationOf m dsc = some op) (hmerges : MergesBytes op)
    (hp : Placed m dsc) (hdelta : DeltaWithin m dsc) :
    AnyCompletionRecord.bytesCompleted.get (SoftwareDevice.submit m dsc).1
        (getCompletionRecord m dsc)
      = if op = .difInsert then 0
        else AnyCompletionRecord.bytesCompleted.get m (getCompletionRecord m dsc) := by
  have hn := transferSize_lt m dsc
  -- a kernel that writes buffers and the status leaves the rest of the record
  have hframe : ∀ t : Memory,
      Set.EqOn t m (Region.addrs ⟨getCompletionRecord m dsc, recordSize⟩) →
      AnyCompletionRecord.bytesCompleted.get t (getCompletionRecord m dsc)
        = AnyCompletionRecord.bytesCompleted.get m (getCompletionRecord m dsc) :=
    fun t ht => Field.get_congr (by decide) ht
  rw [SoftwareDevice.submit, hop]
  cases op with
  | memMove =>
    rw [if_neg (by decide)]
    simp only [Kernels.memMove]
    rw [get_setStatus (by decide)]
    refine hframe _ fun x hx => ?_
    rw [dmlRefMemMove_eq _ _ _ hn]
    exact move_apply_of_notMem (hp.outside (by simp [operands, hop]) hx)
  | fill =>
    rw [if_neg (by decide)]
    simp only [Kernels.fill]
    rw [get_setStatus (by decide)]
    refine hframe _ fun x hx => ?_
    have hout := hp.outside (by simp [operands, hop]; exact ⟨rfl, rfl⟩) hx
    rw [dmlRefFillU64_eq, if_neg (by omega)]
  | createDelta =>
    rw [if_neg (by decide)]
    simp only [Kernels.createDelta]
    rw [get_setStatus (by decide), Field.get_set_of_apart (by decide),
      Field.get_set_of_apart (by decide)]
    refine hframe _ fun x hx => ?_
    exact dmlRefCreateDelta_of_notMem (hp.outside (by simp [operands, hop]) hx)
  | applyDelta =>
    rw [if_neg (by decide)]
    simp only [Kernels.applyDelta]
    rw [get_setStatus (by decide)]
    refine hframe _ fun x hx => ?_
    obtain ⟨hnotes, hap⟩ := hdelta hop
    exact dmlRefApplyDelta_of_notMem hnotes hap (hp.outside (by simp [operands, hop]) hx)
  | dualcast =>
    rw [if_neg (by decide)]
    simp only [Kernels.dualcast]
    rw [get_setStatus (by decide)]
    refine hframe _ fun x hx => ?_
    exact dmlRefDualcast_of_notMem
      (hp.outside (by simp [operands, hop, DualcastDescriptor.destination1Address,
        AnyDescriptor.destinationAddress]) hx)
      (hp.outside (by simp [operands, hop]) hx)
  | crc =>
    rw [if_neg (by decide)]
    simp only [Kernels.crc]
    rw [get_setStatus (by decide), Field.get_set_of_apart (by decide)]
  | copyCrc =>
    rw [if_neg (by decide)]
    simp only [Kernels.copyCrc]
    rw [get_setStatus (by decide), Field.get_set_of_apart (by decide)]
    refine hframe _ fun x hx => ?_
    rw [dmlRefMemMove_eq _ _ _ hn]
    exact move_apply_of_notMem (hp.outside (by simp [operands, hop]) hx)
  | difInsert =>
    rw [if_pos rfl]
    simp only [Kernels.difInsert]
    rw [get_setStatus (by decide)]
    exact Field.get_set_self_of_lt (v := 0) _ _ (by decide)
  | cacheFlush =>
    rw [if_neg (by decide)]
    simp only [Kernels.cacheFlush, Kernels.dmlClflush, Kernels.dmlClwbUnsupported, ite_self]
    rw [get_setStatus (by decide)]
  | _ => exact absurd hmerges (by decide)

end Kernels

/-! ### Waiting -/

section Wait

variable {m₀ w m : Memory} {dsc k : ℕ} {op : Operation}

/-- What a `create_delta` leaves: the bytes the software left plus those of the
hardware. -/
theorem createDelta_bytesCompleted (umwait : Bool) (hop : operationOf m₀ dsc = some .createDelta)
    (hp : Placed m₀ dsc) (hk : k ≤ requested m₀ dsc) (hfault : PageFault m₀ w m dsc k)
    (hsize : CreateDeltaCompletionRecord.deltaRecordSize.get m (getCompletionRecord m₀ dsc)
      ≤ CreateDeltaDescriptor.maximumDeltaRecordSize.get m₀ dsc) :
    ∃ m', Automatic.wait m dsc umwait = some m'
      ∧ AnyCompletionRecord.bytesCompleted.get m' (getCompletionRecord m₀ dsc)
        = (AnyCompletionRecord.bytesCompleted.get (resumed m dsc) (getCompletionRecord m₀ dsc) + k)
          % 2 ^ 32 := by
  rw [requested_of_ne hop (by decide)] at hk
  have hwait := createDelta_wait umwait hop hp hk hfault hsize
  obtain ⟨-, -, hmem⟩ := mem_operands_createDelta hop
  have hfit := hp.fits _ hmem
  simp only at hfit
  -- the notes of the software are whole, and fit in the room that is left
  obtain ⟨hroom, -⟩ := updateCreateDelta_record (hfault.operation hp hop) (hfault.record hp)
    hp.record_apart (by rw [hfault.get hp (by decide)]; exact hsize)
    (by rw [hfault.get hp (by decide)]; omega)
  rw [hfault.get hp (by decide)] at hroom
  obtain ⟨hnew, -⟩ := submit_createDelta (hfault.update_operation hp hop) rfl rfl rfl rfl hroom
  rw [getCompletionRecord_updateForContinuation, hfault.record hp] at hnew
  have hmax : CreateDeltaDescriptor.maximumDeltaRecordSize.get m₀ dsc < 2 ^ 32 :=
    Field.get_lt _ m₀ dsc
  obtain ⟨hle, hwhole⟩ := dmlRefCreateDelta_size (updateForContinuation m dsc)
    (CreateDeltaDescriptor.source1Address.get (updateForContinuation m dsc) dsc)
    (CreateDeltaDescriptor.source2Address.get (updateForContinuation m dsc) dsc)
    (AnyDescriptor.transferSize.get (updateForContinuation m dsc) dsc)
    (CreateDeltaDescriptor.deltaRecordAddress.get (updateForContinuation m dsc) dsc)
    (CreateDeltaDescriptor.maximumDeltaRecordSize.get m₀ dsc
      - CreateDeltaCompletionRecord.deltaRecordSize.get m (getCompletionRecord m₀ dsc)) (by omega)
  rw [← hnew] at hle hwhole
  obtain ⟨c, hc⟩ := Nat.dvd_of_mod_eq_zero hwhole
  have hargs : DeltaArgs m₀ dsc _ _ _ _ _ := ⟨hop, rfl, rfl, rfl, rfl, rfl⟩
  rw [resumed, hc] at hwait
  refine ⟨_, hwait, ?_⟩
  rw [Field.get_addAssign_of_apart (by decide), hargs.get_rebaseNotes hp (by decide) (by omega)]
  exact Field.get_set_self _ _ _ _

/-- **The bytes completed after the wait.**  Those of the hardware are counted
twice, except by an insert. -/
theorem wait_bytesCompleted (umwait : Bool) (hop : operationOf m₀ dsc = some op)
    (hmerges : MergesBytes op) (hp : Placed m₀ dsc) (hvalid : validate m₀ dsc = .success)
    (hk : k ≤ requested m₀ dsc) (hfault : PageFault m₀ w m dsc k)
    (hsize : op = .createDelta →
      CreateDeltaCompletionRecord.deltaRecordSize.get m (getCompletionRecord m₀ dsc)
        ≤ CreateDeltaDescriptor.maximumDeltaRecordSize.get m₀ dsc)
    (hnotes : op = .applyDelta →
      NotesWithin w (ApplyDeltaDescriptor.deltaRecordAddress.get m₀ dsc + k)
        (ApplyDeltaDescriptor.deltaRecordSize.get m₀ dsc - k)
        (AnyDescriptor.transferSize.get m₀ dsc)) :
    ∃ m', Automatic.wait m dsc umwait = some m'
      ∧ AnyCompletionRecord.bytesCompleted.get m' (getCompletionRecord m₀ dsc)
        = if op = .difInsert then k else 2 * k % 2 ^ 32 := by
  have hopm := hfault.operation hp hop
  have hpm := hfault.placed hp
  have hr : Resumable m dsc := by
    refine hfault.resumable hp hop hk hsize fun h => ?_
    rw [h] at hop
    exact validate_difInsert hop hvalid
  have hwithin : DeltaWithin (updateForContinuation m dsc) dsc := by
    refine hfault.deltaWithin hp hop hk fun h => ⟨hnotes h, ?_⟩
    rw [h] at hop
    obtain ⟨hmem1, hmem2⟩ := mem_operands_applyDelta hop
    exact apart_of_overlaps (validate_applyDelta hop hvalid) (hp.fits _ hmem1) (hp.fits _ hmem2)
  -- the software run finds the record as the hardware left it
  have hbefore : AnyCompletionRecord.bytesCompleted.get (updateForContinuation m dsc)
      (getCompletionRecord m₀ dsc) = k := by
    rw [← hfault.bytes]
    refine Field.get_congr (by decide)
      fun x (hx : x ∈ Region.addrs ⟨getCompletionRecord m₀ dsc, recordSize⟩) => ?_
    have hout := notMem_addrs.mp (hp.record_apart.notMem hx)
    exact updateForContinuation_apply (by omega)
  have hafter := submit_bytesCompleted (hfault.update_operation hp hop) hmerges
    (hpm.updateForContinuation hr) hwithin
  rw [getCompletionRecord_updateForContinuation, hfault.record hp, hbefore] at hafter
  have hklt : k < 2 ^ 32 := hfault.bytes ▸ Field.get_lt _ m _
  have hsum : (AnyCompletionRecord.bytesCompleted.get (resumed m dsc) (getCompletionRecord m₀ dsc)
      + k) % 2 ^ 32 = if op = .difInsert then k else 2 * k % 2 ^ 32 := by
    rw [resumed, hafter]
    split
    · rw [Nat.zero_add, Nat.mod_eq_of_lt hklt]
    · rw [← Nat.two_mul]
  rw [← hsum]
  by_cases hcreate : op = .createDelta
  · rw [hcreate] at hop
    exact createDelta_bytesCompleted umwait hop hp hk hfault (hsize hcreate)
  · have hadds : AddsBytes op := by
      cases op <;> first | exact absurd hmerges (by decide) | exact absurd rfl hcreate | decide
    have hbatch : operationOf m dsc ≠ some .batch := by
      rw [hopm]
      exact fun h => hadds.2.2.1 (Option.some.inj h)
    refine ⟨_, wait_eq_addAssign hpm hr hbatch hwithin (hfault.isPageFault hp) hopm hadds umwait,
      ?_⟩
    rw [hfault.record hp, hfault.bytes]
    exact Field.get_set_self _ _ _ _

/-- **When the merged record claims no more than was asked for**: for an insert
always, for the other operations when the hardware had done at most half of the
work, or when the sum wraps. -/
theorem bytesCompleted_le_iff (umwait : Bool) (hop : operationOf m₀ dsc = some op)
    (hmerges : MergesBytes op) (hp : Placed m₀ dsc) (hvalid : validate m₀ dsc = .success)
    (hk : k ≤ requested m₀ dsc) (hfault : PageFault m₀ w m dsc k)
    (hsize : op = .createDelta →
      CreateDeltaCompletionRecord.deltaRecordSize.get m (getCompletionRecord m₀ dsc)
        ≤ CreateDeltaDescriptor.maximumDeltaRecordSize.get m₀ dsc)
    (hnotes : op = .applyDelta →
      NotesWithin w (ApplyDeltaDescriptor.deltaRecordAddress.get m₀ dsc + k)
        (ApplyDeltaDescriptor.deltaRecordSize.get m₀ dsc - k)
        (AnyDescriptor.transferSize.get m₀ dsc)) :
    ∃ m', Automatic.wait m dsc umwait = some m'
      ∧ (AnyCompletionRecord.bytesCompleted.get m' (getCompletionRecord m₀ dsc) ≤ requested m₀ dsc
        ↔ op = .difInsert ∨ 2 * k ≤ requested m₀ dsc ∨ 2 ^ 32 ≤ 2 * k) := by
  obtain ⟨m', hwait, hbytes⟩ :=
    wait_bytesCompleted umwait hop hmerges hp hvalid hk hfault hsize hnotes
  refine ⟨m', hwait, ?_⟩
  rw [hbytes]
  by_cases hinsert : op = .difInsert
  · rw [if_pos hinsert]
    exact ⟨fun _ => Or.inl hinsert, fun _ => hk⟩
  · rw [if_neg hinsert]
    have hklt : k < 2 ^ 32 := hfault.bytes ▸ Field.get_lt _ m _
    constructor
    · intro hle
      right
      omega
    · rintro (h | h | h)
      · exact absurd h hinsert
      · exact le_trans (Nat.mod_le _ _) h
      · omega

end Wait

/-- A move of 8 zero bytes from 128 to 160. -/
def moveSample : Memory := rawDescriptor .memMove 64 32 128 160 8

/-- A move stopped half way claims the whole, and no more. -/
theorem bytesCompleted_le_sample :
    Placed moveSample 64 ∧ validate moveSample 64 = .success
      ∧ ∃ m', Automatic.wait (writeFault moveSample 32 4) 64 true = some m'
        ∧ AnyCompletionRecord.bytesCompleted.get m' 32 ≤ requested moveSample 64 := by
  have hop : operationOf moveSample 64 = some .memMove := by decide
  have hp : Placed moveSample 64 := by decide
  have hvalid : validate moveSample 64 = .success := by decide
  have hrec : getCompletionRecord moveSample 64 = 32 := by decide
  have hreq : requested moveSample 64 = 8 := by decide
  have hfault := pageFault_writeFault moveSample moveSample 64 (k := 4) (by decide) fun _ _ => rfl
  rw [hrec] at hfault
  obtain ⟨m', hwait, hiff⟩ := bytesCompleted_le_iff true hop (by decide) hp hvalid
    (by rw [hreq]; decide) hfault (by simp) (by simp)
  rw [hrec] at hiff
  exact ⟨hp, hvalid, m', hwait, hiff.mpr (Or.inr (Or.inl (by rw [hreq])))⟩

/-- A move of 8 bytes stopped after 5 claims 10. -/
theorem bytesCompleted_counted_twice :
    operationOf moveSample 64 = some .memMove ∧ validate moveSample 64 = .success
      ∧ Placed moveSample 64 ∧ requested moveSample 64 = 8
      ∧ PageFault moveSample moveSample (writeFault moveSample 32 5) 64 5
      ∧ ∃ m', Automatic.wait (writeFault moveSample 32 5) 64 true = some m'
        ∧ AnyCompletionRecord.bytesCompleted.get m' 32 = 10
        ∧ ¬AnyCompletionRecord.bytesCompleted.get m' 32 ≤ requested moveSample 64 := by
  have hop : operationOf moveSample 64 = some .memMove := by decide
  have hp : Placed moveSample 64 := by decide
  have hvalid : validate moveSample 64 = .success := by decide
  have hrec : getCompletionRecord moveSample 64 = 32 := by decide
  have hreq : requested moveSample 64 = 8 := by decide
  have hfault := pageFault_writeFault moveSample moveSample 64 (k := 5) (by decide) fun _ _ => rfl
  rw [hrec] at hfault
  obtain ⟨m', hwait, hbytes⟩ := wait_bytesCompleted true hop (by decide) hp hvalid
    (by rw [hreq]; decide) hfault (by simp) (by simp)
  rw [hrec, if_neg (by decide)] at hbytes
  refine ⟨hop, hvalid, hp, hreq, hfault, m', hwait, hbytes, ?_⟩
  rw [hbytes, hreq]
  decide

end DataMover
