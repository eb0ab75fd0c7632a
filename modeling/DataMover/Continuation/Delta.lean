import DataMover.Continuation.Wait
import DataMover.DeltaRecord

/-!
# Continuing a delta

The continuation of `create_delta` appends its notes after those of the hardware,
in the room they leave, and numbers them from the fault; the merge then adds the
blocks of the prefix to every new index.  Together the two parts are the notes of
the uninterrupted run, also when the second part overflows.

The result and the status, on the other hand, are those of the second part alone.

## Main definitions

* `DeltaFault` — the hardware compared `k` bytes and recorded their notes.

## Main results

* `createDelta_wait` — the merged memory, for any state of the record buffer.
* `createDelta_continuation` — the delta record and its size are those of the
  uninterrupted run.
* `createDelta_outcome_iff` — result and status are, exactly when the prefix has
  no difference or the rest has one.
-/

namespace DataMover

open ByteMemory

/-! ### The buffers -/

section Buffers

variable {m : Memory} {dsc : ℕ}

theorem mem_operands_createDelta (hop : operationOf m dsc = some .createDelta) :
    ⟨CreateDeltaDescriptor.source1Address.get m dsc, AnyDescriptor.transferSize.get m dsc⟩
        ∈ operands m dsc
      ∧ ⟨CreateDeltaDescriptor.source2Address.get m dsc, AnyDescriptor.transferSize.get m dsc⟩
        ∈ operands m dsc
      ∧ ⟨CreateDeltaDescriptor.deltaRecordAddress.get m dsc,
          CreateDeltaDescriptor.maximumDeltaRecordSize.get m dsc⟩ ∈ operands m dsc := by
  simp [operands, hop]

end Buffers

/-! ### Waiting -/

section Wait

variable {m₀ w m : Memory} {dsc k : ℕ}

/-- **The merged memory of a continued `create_delta`.** -/
theorem createDelta_wait (umwait : Bool) (hop : operationOf m₀ dsc = some .createDelta)
    (hp : Placed m₀ dsc) (hk : k ≤ AnyDescriptor.transferSize.get m₀ dsc)
    (hfault : PageFault m₀ w m dsc k)
    (hsize : CreateDeltaCompletionRecord.deltaRecordSize.get m (getCompletionRecord m₀ dsc)
      ≤ CreateDeltaDescriptor.maximumDeltaRecordSize.get m₀ dsc) :
    Automatic.wait m dsc umwait
      = some (CreateDeltaCompletionRecord.deltaRecordSize.addAssign
          (rebaseNotes
            (AnyCompletionRecord.bytesCompleted.addAssign (resumed m dsc)
              (getCompletionRecord m₀ dsc) k)
            (CreateDeltaDescriptor.deltaRecordAddress.get m₀ dsc
              + CreateDeltaCompletionRecord.deltaRecordSize.get m (getCompletionRecord m₀ dsc))
            (CreateDeltaCompletionRecord.deltaRecordSize.get (resumed m dsc)
              (getCompletionRecord m₀ dsc)) (k / 8))
          (getCompletionRecord m₀ dsc)
          (CreateDeltaCompletionRecord.deltaRecordSize.get m (getCompletionRecord m₀ dsc))) := by
  have hopm := hfault.operation hp hop
  have hbatch : operationOf m dsc ≠ some .batch := by rw [hopm]; simp
  have hreq : k ≤ requested m₀ dsc := by
    rw [requested_of_ne hop (by decide)]
    exact hk
  have hr := hfault.resumable hp hop hreq (fun _ => hsize) (by simp)
  have hpm := hfault.placed hp
  have hdelta := hfault.deltaWithin hp hop hreq (by simp)
  obtain ⟨-, -, hmem⟩ := mem_operands_createDelta hop
  have hfit := hp.fits _ hmem
  simp only at hfit
  -- the descriptor still holds the address of the second part
  have haddr : CreateDeltaDescriptor.deltaRecordAddress.get
      (AnyCompletionRecord.bytesCompleted.addAssign (resumed m dsc) (getCompletionRecord m₀ dsc) k)
        dsc
      = CreateDeltaDescriptor.deltaRecordAddress.get m₀ dsc
        + CreateDeltaCompletionRecord.deltaRecordSize.get m (getCompletionRecord m₀ dsc) := by
    rw [Field.get_addAssign_elsewhere hp.record_apart (by decide) (by decide),
      Field.get_congr (by decide) (resumed_descriptor hpm hr hbatch hdelta),
      (updateCreateDelta_record hopm (hfault.record hp) hp.record_apart
        (by rw [hfault.get hp (by decide)]; exact hsize)
        (by rw [hfault.get hp (by decide)]; omega)).2, hfault.get hp (by decide)]
  rw [wait_eq hpm hr hbatch hdelta (hfault.isPageFault hp) (by rw [hopm]; simp) umwait,
    accumulateRecords, operationOf_resumed hpm hr hbatch hdelta, hopm]
  simp only [accumulateRecordsCreateDelta]
  rw [getCompletionRecord_resumed hpm hr hbatch hdelta, get_clone (by decide),
    get_clone (by decide), hfault.bytesCompleted hp, hfault.record hp, haddr,
    Field.get_addAssign_of_apart (by decide)]

end Wait

/-! ### A stopped delta -/

/-- The arguments of a `create_delta` descriptor. -/
structure DeltaArgs (m : Memory) (dsc src1 src2 n delta max : ℕ) : Prop where
  operation : operationOf m dsc = some .createDelta
  source1 : CreateDeltaDescriptor.source1Address.get m dsc = src1
  source2 : CreateDeltaDescriptor.source2Address.get m dsc = src2
  size : AnyDescriptor.transferSize.get m dsc = n
  record : CreateDeltaDescriptor.deltaRecordAddress.get m dsc = delta
  room : CreateDeltaDescriptor.maximumDeltaRecordSize.get m dsc = max

/-- The hardware stopped after comparing `k` bytes: the record buffer holds the
notes of that prefix and the completion record their size; they fit. -/
structure DeltaFault (m₀ w m : Memory) (dsc k src1 src2 delta max : ℕ) : Prop where
  fault : PageFault m₀ w m dsc k
  kept : ∀ x, x ∉ Region.addrs ⟨delta, max⟩ → w x = m₀ x
  size : CreateDeltaCompletionRecord.deltaRecordSize.get m (getCompletionRecord m₀ dsc)
    = (dmlRefCreateDelta m₀ src1 src2 k delta max).2.1
  written : ∀ i, i < (dmlRefCreateDelta m₀ src1 src2 k delta max).2.1 →
    w (delta + i) = (dmlRefCreateDelta m₀ src1 src2 k delta max).1 (delta + i)
  fits : (dmlRefCreateDelta m₀ src1 src2 k delta max).2.2 ≠ resultOverflow

section Continuation

variable {m₀ w m : Memory} {dsc k src1 src2 n delta max : ℕ}
  (hargs : DeltaArgs m₀ dsc src1 src2 n delta max) (hp : Placed m₀ dsc)
  (hap1 : Region.Apart ⟨src1, n⟩ ⟨delta, max⟩) (hap2 : Region.Apart ⟨src2, n⟩ ⟨delta, max⟩)
  (hk : k ≤ n) (hfault : DeltaFault m₀ w m dsc k src1 src2 delta max)

omit hargs hp hfault in
/-- A run over a prefix of the sources. -/
theorem createDelta_prefix_eq (m₀ : Memory) (hmax : max < 2 ^ 32)
    (hap1 : Region.Apart ⟨src1, n⟩ ⟨delta, max⟩) (hap2 : Region.Apart ⟨src2, n⟩ ⟨delta, max⟩)
    (hk : k ≤ n) :
    dmlRefCreateDelta m₀ src1 src2 k delta max
      = (writeNotes m₀ delta (recordedNotes m₀ src1 src2 (k / 8) max),
          10 * (recordedNotes m₀ src1 src2 (k / 8) max).length,
          deltaResult (differingBlocks m₀ src1 src2 (k / 8)).length max) := by
  have hin : ∀ s, Region.Inside ⟨s, k⟩ ⟨s, n⟩ := fun s =>
    ⟨le_rfl, by simp only; omega⟩
  exact dmlRefCreateDelta_eq hmax (hap1.mono (hin src1) (Region.Inside.refl _))
    (hap2.mono (hin src2) (Region.Inside.refl _))

include hargs in
theorem DeltaArgs.room_lt : max < 2 ^ 32 := hargs.room ▸ Field.get_lt _ m₀ dsc

include hargs hp in
/-- Rebasing notes inside the delta record does not reach the completion record. -/
theorem DeltaArgs.get_rebaseNotes {t : Memory} {f : Field} (hf : f.Within recordSize)
    {s c blocks : ℕ} (hc : s + 10 * c ≤ max) :
    f.get (rebaseNotes t (delta + s) (10 * c) blocks) (getCompletionRecord m₀ dsc)
      = f.get t (getCompletionRecord m₀ dsc) := by
  obtain ⟨-, -, hmem⟩ := mem_operands_createDelta hargs.operation
  rw [hargs.record, hargs.room] at hmem
  refine Field.get_congr hf fun x hx => ?_
  have hnot := notMem_addrs.mp ((hp.apart_record _ hmem).symm.notMem hx)
  have houtside : x < delta + s ∨ delta + s + 10 * c ≤ x := by omega
  exact rebaseNotes_of_notMem houtside

include hargs hap1 hap2 hk hfault in
/-- The differing blocks of the prefix fit, and fill `10` bytes each. -/
theorem DeltaFault.prefix_length :
    (differingBlocks m₀ src1 src2 (k / 8)).length ≤ max / 10
      ∧ (recordedNotes m₀ src1 src2 (k / 8) max).length
        = (differingBlocks m₀ src1 src2 (k / 8)).length
      ∧ CreateDeltaCompletionRecord.deltaRecordSize.get m (getCompletionRecord m₀ dsc)
        = 10 * (differingBlocks m₀ src1 src2 (k / 8)).length := by
  have hrun := createDelta_prefix_eq (k := k) m₀ hargs.room_lt hap1 hap2 hk
  have hfits := hfault.fits
  have hsize := hfault.size
  rw [hrun] at hfits hsize
  have hle := deltaResult_ne_overflow_iff.mp hfits
  have hlen : (recordedNotes m₀ src1 src2 (k / 8) max).length
      = (differingBlocks m₀ src1 src2 (k / 8)).length := by
    rw [length_recordedNotes]; omega
  exact ⟨hle, hlen, by rw [hsize]; simp only; rw [hlen]⟩

include hargs hp hap1 hap2 hk hfault

/-- The rewritten descriptor asks for the rest, in the room that is left. -/
theorem DeltaFault.update_args {d : ℕ} (hd : d = (differingBlocks m₀ src1 src2 (k / 8)).length) :
    DeltaArgs (updateForContinuation m dsc) dsc (src1 + k) (src2 + k) (n - k) (delta + 10 * d)
      (max - 10 * d) := by
  obtain ⟨hle, -, hsize⟩ := hfault.prefix_length hargs hap1 hap2 hk
  have hf := hfault.fault
  obtain ⟨hmem1, hmem2, hmem3⟩ := mem_operands_createDelta hargs.operation
  have hfit1 := hp.fits _ hmem1
  have hfit2 := hp.fits _ hmem2
  have hfit3 := hp.fits _ hmem3
  simp only [hargs.source1, hargs.source2, hargs.size, hargs.record, hargs.room]
    at hfit1 hfit2 hfit3
  obtain ⟨hroom, haddr⟩ := updateCreateDelta_record (hf.operation hp hargs.operation)
    (hf.record hp) hp.record_apart (by rw [hf.get hp (by decide), hargs.room, hsize]; omega)
    (by rw [hf.get hp (by decide), hargs.record, hsize]; omega)
  rw [hf.get hp (by decide), hsize, ← hd] at hroom haddr
  exact
    { operation := hf.update_operation hp hargs.operation
      source1 := by
        rw [hf.update_advanced hp hargs.operation (by simp [advancedFields]) (by decide)
          (by rw [hargs.source1]; omega), hargs.source1]
      source2 := by
        rw [hf.update_advanced hp hargs.operation (by simp [advancedFields]) (by decide)
          (by rw [hargs.source2]; omega), hargs.source2]
      size := by
        rw [hf.update_shrunk hp hargs.operation (by decide) (by decide)
          (by rw [hargs.size]; exact hk), hargs.size]
      record := by rw [haddr, hargs.record]
      room := by rw [hroom, hargs.room] }

omit hk in
/-- The sources are still the original ones. -/
theorem DeltaFault.update_source :
    (∀ i, i < n → updateForContinuation m dsc (src1 + i) = m₀ (src1 + i))
      ∧ ∀ i, i < n → updateForContinuation m dsc (src2 + i) = m₀ (src2 + i) := by
  obtain ⟨hmem1, hmem2, -⟩ := mem_operands_createDelta hargs.operation
  rw [hargs.source1, hargs.size] at hmem1
  rw [hargs.source2, hargs.size] at hmem2
  have hin : ∀ s i, i < n → s + i ∈ Region.addrs ⟨s, n⟩ := fun s i hi =>
    Region.add_mem_addrs (by omega)
  constructor
  · intro i hi
    rw [hfault.fault.update_apply hp hmem1 (hin src1 i hi)]
    exact hfault.kept _ (hap1.notMem (hin src1 i hi))
  · intro i hi
    rw [hfault.fault.update_apply hp hmem2 (hin src2 i hi)]
    exact hfault.kept _ (hap2.notMem (hin src2 i hi))

/-- **The second part of a delta**: the notes of the rest, in the room that is
left. -/
theorem DeltaFault.rest_eq {d : ℕ} (hd : d = (differingBlocks m₀ src1 src2 (k / 8)).length) :
    dmlRefCreateDelta (updateForContinuation m dsc) (src1 + k) (src2 + k) (n - k) (delta + 10 * d)
        (max - 10 * d)
      = (writeNotes (updateForContinuation m dsc) (delta + 10 * d)
            (recordedNotes m₀ (src1 + k) (src2 + k) ((n - k) / 8) (max - 10 * d)),
          10 * (recordedNotes m₀ (src1 + k) (src2 + k) ((n - k) / 8) (max - 10 * d)).length,
          deltaResult (differingBlocks m₀ (src1 + k) (src2 + k) ((n - k) / 8)).length
            (max - 10 * d)) := by
  obtain ⟨hle, -, -⟩ := hfault.prefix_length hargs hap1 hap2 hk
  obtain ⟨hs1, hs2⟩ := hfault.update_source hargs hp hap1 hap2
  have hmax := hargs.room_lt
  have hroom : Region.Inside ⟨delta + 10 * d, max - 10 * d⟩ ⟨delta, max⟩ :=
    inside_advance (by omega)
  have h1 : ∀ i, i < 8 * ((n - k) / 8) →
      updateForContinuation m dsc (src1 + k + i) = m₀ (src1 + k + i) := by
    intro i hi
    rw [Nat.add_assoc]
    exact hs1 _ (by omega)
  have h2 : ∀ i, i < 8 * ((n - k) / 8) →
      updateForContinuation m dsc (src2 + k + i) = m₀ (src2 + k + i) := by
    intro i hi
    rw [Nat.add_assoc]
    exact hs2 _ (by omega)
  rw [dmlRefCreateDelta_eq (by omega) (hap1.mono (inside_advance hk) hroom)
    (hap2.mono (inside_advance hk) hroom), recordedNotes_congr h1 h2, differingBlocks_congr h1 h2]

omit hp in
/-- The notes of the whole are those of the two parts, the second rebased. -/
theorem DeltaFault.whole_notes (h8 : k % 8 = 0) {d : ℕ}
    (hd : d = (differingBlocks m₀ src1 src2 (k / 8)).length) :
    recordedNotes m₀ src1 src2 (n / 8) max
      = recordedNotes m₀ src1 src2 (k / 8) max
        ++ (recordedNotes m₀ (src1 + k) (src2 + k) ((n - k) / 8) (max - 10 * d)).map
            fun p => (k / 8 + p.1, p.2) := by
  obtain ⟨hle, -, -⟩ := hfault.prefix_length hargs hap1 hap2 hk
  have hsplit := recordedNotes_add (n := (n - k) / 8) hle
  rwa [show k / 8 + (n - k) / 8 = n / 8 by omega, show 8 * (k / 8) = k by omega, ← hd] at hsplit

/-- What the software run over the rest leaves: the size and the outcome of the
rest, and its notes behind those of the hardware. -/
theorem DeltaFault.resumed_eq {d : ℕ} (hd : d = (differingBlocks m₀ src1 src2 (k / 8)).length)
    {notes : List (ℕ × ℕ)}
    (hnotes : notes = recordedNotes m₀ (src1 + k) (src2 + k) ((n - k) / 8) (max - 10 * d)) :
    CreateDeltaCompletionRecord.deltaRecordSize.get (resumed m dsc) (getCompletionRecord m₀ dsc)
        = 10 * notes.length
      ∧ ∀ x, x ∉ Region.addrs ⟨getCompletionRecord m₀ dsc, recordSize⟩ →
        resumed m dsc x = writeNotes (updateForContinuation m dsc) (delta + 10 * d) notes x := by
  have hargs' := hfault.update_args hargs hp hap1 hap2 hk hd
  have hrest := hfault.rest_eq hargs hp hap1 hap2 hk hd
  obtain ⟨hsize, -, -, hmem⟩ := submit_createDelta hargs'.operation hargs'.source1 hargs'.source2
    hargs'.size hargs'.record hargs'.room
  rw [getCompletionRecord_updateForContinuation, hfault.fault.record hp, hrest] at hsize hmem
  rw [hnotes]
  exact ⟨hsize, hmem⟩

/-- The hardware's notes are still in place when the software has run. -/
theorem DeltaFault.resumed_stopped {d : ℕ}
    (hd : d = (differingBlocks m₀ src1 src2 (k / 8)).length) {i : ℕ} (hi : i < 10 * d) :
    resumed m dsc (delta + i) = notesByte (recordedNotes m₀ src1 src2 (k / 8) max) i := by
  obtain ⟨hle, hlen, -⟩ := hfault.prefix_length hargs hap1 hap2 hk
  obtain ⟨-, -, hmem⟩ := mem_operands_createDelta hargs.operation
  rw [hargs.record, hargs.room] at hmem
  have hin : delta + i ∈ Region.addrs ⟨delta, max⟩ := Region.add_mem_addrs (by omega)
  have hrec := (hp.apart_record _ hmem).notMem hin
  have hwritten := hfault.written i
  rw [createDelta_prefix_eq m₀ hargs.room_lt hap1 hap2 hk] at hwritten
  simp only at hwritten
  rw [(hfault.resumed_eq hargs hp hap1 hap2 hk hd rfl).2 _ hrec,
    writeNotes_of_notMem _ _ _ _ (by omega), hfault.fault.update_apply hp hmem hin,
    hwritten (by omega), writeNotes_of_lt _ _ _ _ (by omega)]

/-- **A continued `create_delta` leaves the delta record of the uninterrupted
run**, and its size, whether or not the second part overflows. -/
theorem createDelta_continuation (umwait : Bool) (hvalid : validate m₀ dsc = .success)
    (h8 : k % 8 = 0) :
    ∃ m', Automatic.wait m dsc umwait = some m'
      ∧ CreateDeltaCompletionRecord.deltaRecordSize.get m' (getCompletionRecord m₀ dsc)
        = CreateDeltaCompletionRecord.deltaRecordSize.get (SoftwareDevice.submit m₀ dsc).1
            (getCompletionRecord m₀ dsc)
      ∧ ∀ i, i < CreateDeltaCompletionRecord.deltaRecordSize.get m' (getCompletionRecord m₀ dsc) →
        m' (delta + i) = (SoftwareDevice.submit m₀ dsc).1 (delta + i) := by
  obtain ⟨hn8, hnle, -⟩ := validate_createDelta hargs.operation hvalid
  rw [hargs.size] at hn8 hnle
  obtain ⟨hle, hlen1, hsize1⟩ := hfault.prefix_length hargs hap1 hap2 hk
  obtain ⟨-, -, hmem⟩ := mem_operands_createDelta hargs.operation
  rw [hargs.record, hargs.room] at hmem
  have hmax := hargs.room_lt
  -- the uninterrupted run, its notes split at the fault
  obtain ⟨hwsize, -, -, hwmem⟩ := submit_createDelta hargs.operation hargs.source1 hargs.source2
    hargs.size hargs.record hargs.room
  rw [dmlRefCreateDelta_eq hmax hap1 hap2, hfault.whole_notes hargs hap1 hap2 hk h8 rfl]
    at hwsize hwmem
  -- the continuation
  have hwait := createDelta_wait umwait hargs.operation hp (by rw [hargs.size]; exact hk)
    hfault.fault (by rw [hargs.room, hsize1]; omega)
  set d := (differingBlocks m₀ src1 src2 (k / 8)).length with hd
  set notes := recordedNotes m₀ (src1 + k) (src2 + k) ((n - k) / 8) (max - 10 * d) with hnotes
  obtain ⟨hsize2, hmem2⟩ := hfault.resumed_eq hargs hp hap1 hap2 hk hd hnotes
  have hlen2 : notes.length ≤ (max - 10 * d) / 10 := by
    rw [hnotes, length_recordedNotes]; omega
  rw [hsize2, hsize1, hargs.record] at hwait
  simp only [List.length_append, List.length_map, hlen1] at hwsize hwmem
  set bytes := AnyCompletionRecord.bytesCompleted.addAssign (resumed m dsc)
    (getCompletionRecord m₀ dsc) k with hbytes
  have hin : ∀ i, i < 10 * (d + notes.length) → delta + i ∈ Region.addrs ⟨delta, max⟩ :=
    fun i hi => Region.add_mem_addrs (by omega)
  have hrec : ∀ i, i < 10 * (d + notes.length) →
      delta + i ∉ Region.addrs ⟨getCompletionRecord m₀ dsc, recordSize⟩ :=
    fun i hi => (hp.apart_record _ hmem).notMem (hin i hi)
  have hsize : CreateDeltaCompletionRecord.deltaRecordSize.get
      (rebaseNotes bytes (delta + 10 * d) (10 * notes.length) (k / 8)) (getCompletionRecord m₀ dsc)
      = 10 * notes.length := by
    rw [hargs.get_rebaseNotes hp (by decide) (by omega), hbytes,
      Field.get_addAssign_of_apart (by decide), hsize2]
  refine ⟨_, hwait, ?_, ?_⟩
  · rw [Field.get_addAssign_self (by rw [hsize]; change _ < 2 ^ 32; omega), hsize, hwsize]
    omega
  · rw [Field.get_addAssign_self (by rw [hsize]; change _ < 2 ^ 32; omega), hsize]
    intro i hi
    have hi' : i < 10 * (d + notes.length) := by omega
    rw [Field.addAssign, set_apply_of_notMem (hrec i hi') (by decide), hwmem _ (hrec i hi'),
      writeNotes_of_lt _ _ _ _ (by rw [List.length_append, List.length_map, hlen1]; exact hi')]
    have happly : ∀ j, j < 10 * (d + notes.length) →
        bytes (delta + j) = resumed m dsc (delta + j) :=
      fun j hj => set_apply_of_notMem (hrec j hj) (by decide) _
    rcases Nat.lt_or_ge i (10 * d) with hlt | hge
    · rw [rebaseNotes_of_notMem (by omega), happly i hi',
        hfault.resumed_stopped hargs hp hap1 hap2 hk hd hlt,
        notesByte_append_left (by rw [hlen1]; exact hlt)]
    · obtain ⟨t, rfl⟩ := Nat.exists_eq_add_of_le hge
      have hright := notesByte_append_right (recordedNotes m₀ src1 src2 (k / 8) max)
        (notes.map fun p => (k / 8 + p.1, p.2)) t
      rw [hlen1] at hright
      rw [hright, ← Nat.add_assoc]
      refine rebaseNotes_notes (fun j hj => ?_) (fun j hj => ?_) (by omega)
      · rw [Nat.add_assoc, happly _ (by omega), hmem2 _ (hrec _ (by omega)), ← Nat.add_assoc,
          writeNotes_of_lt _ _ _ _ hj]
      · exact lt_of_lt_of_le (recordedNotes_index_lt hj) (by omega)

/-- The result and the status after the wait are those of the rest. -/
theorem DeltaFault.outcome (umwait : Bool) {d e : ℕ}
    (hd : d = (differingBlocks m₀ src1 src2 (k / 8)).length)
    (he : e = (differingBlocks m₀ (src1 + k) (src2 + k) ((n - k) / 8)).length) :
    ∃ m', Automatic.wait m dsc umwait = some m'
      ∧ AnyCompletionRecord.result.get m' (getCompletionRecord m₀ dsc)
        = deltaResult e (max - 10 * d)
      ∧ AnyCompletionRecord.status.get m' (getCompletionRecord m₀ dsc)
        = (Kernels.createDeltaStatus
            (intersects (AnyDescriptor.flags.get m₀ dsc) Flag.checkResult)
            (CreateDeltaDescriptor.expectedResultMask.get m₀ dsc &&& 0b111)
            (deltaResult e (max - 10 * d))).toUnderlying := by
  obtain ⟨hle, hlen1, hsize1⟩ := hfault.prefix_length hargs hap1 hap2 hk
  have hargs' := hfault.update_args hargs hp hap1 hap2 hk hd
  have hrest := hfault.rest_eq hargs hp hap1 hap2 hk hd
  obtain ⟨hsize, hresult, hstatus, -⟩ := submit_createDelta hargs'.operation hargs'.source1
    hargs'.source2 hargs'.size hargs'.record hargs'.room
  rw [getCompletionRecord_updateForContinuation, hfault.fault.record hp, hrest]
    at hsize hresult hstatus
  have hflags : AnyDescriptor.flags.get (updateForContinuation m dsc) dsc
      = AnyDescriptor.flags.get m₀ dsc :=
    hfault.fault.update_kept hp hargs.operation (by decide) (by decide)
  have hmask : CreateDeltaDescriptor.expectedResultMask.get (updateForContinuation m dsc) dsc
      = CreateDeltaDescriptor.expectedResultMask.get m₀ dsc :=
    hfault.fault.update_kept hp hargs.operation (by decide) (by decide)
  rw [hflags, hmask] at hstatus
  have hwait := createDelta_wait umwait hargs.operation hp (by rw [hargs.size]; exact hk)
    hfault.fault (by rw [hargs.room, hsize1]; omega)
  have hlen2 := length_recordedNotes m₀ (src1 + k) (src2 + k) ((n - k) / 8) (max - 10 * d)
  rw [resumed, hsize, hsize1, hargs.record, ← hd] at hwait
  -- merging leaves the two fields as the software wrote them
  have hget : ∀ f : Field, f.Within recordSize →
      f.Apart CreateDeltaCompletionRecord.deltaRecordSize →
      f.Apart AnyCompletionRecord.bytesCompleted →
      f.get (CreateDeltaCompletionRecord.deltaRecordSize.addAssign
        (rebaseNotes
          (AnyCompletionRecord.bytesCompleted.addAssign
            (SoftwareDevice.submit (updateForContinuation m dsc) dsc).1
            (getCompletionRecord m₀ dsc) k)
          (delta + 10 * d)
          (10 * (recordedNotes m₀ (src1 + k) (src2 + k) ((n - k) / 8) (max - 10 * d)).length)
          (k / 8))
        (getCompletionRecord m₀ dsc) (10 * d)) (getCompletionRecord m₀ dsc)
        = f.get (SoftwareDevice.submit (updateForContinuation m dsc) dsc).1
            (getCompletionRecord m₀ dsc) := by
    intro f hf hfsize hfbytes
    rw [Field.get_addAssign_of_apart hfsize, hargs.get_rebaseNotes hp hf (by omega),
      Field.get_addAssign_of_apart hfbytes]
  refine ⟨_, hwait, ?_, ?_⟩
  · rw [hget _ (by decide) (by decide) (by decide), hresult, he]
  · rw [hget _ (by decide) (by decide) (by decide), hstatus, he]

/-- **When a continued `create_delta` reports the outcome of the uninterrupted
run**: exactly when the prefix has no difference, or the rest has one. -/
theorem createDelta_outcome_iff (umwait : Bool) (h8 : k % 8 = 0) :
    ∃ m', Automatic.wait m dsc umwait = some m'
      ∧ ((AnyCompletionRecord.result.get m' (getCompletionRecord m₀ dsc)
            = AnyCompletionRecord.result.get (SoftwareDevice.submit m₀ dsc).1
                (getCompletionRecord m₀ dsc)
          ∧ AnyCompletionRecord.status.get m' (getCompletionRecord m₀ dsc)
            = AnyCompletionRecord.status.get (SoftwareDevice.submit m₀ dsc).1
                (getCompletionRecord m₀ dsc))
        ↔ (∀ i, i < k → m₀ (src1 + i) = m₀ (src2 + i))
          ∨ ∃ i, k ≤ i ∧ i < 8 * (n / 8) ∧ m₀ (src1 + i) ≠ m₀ (src2 + i)) := by
  obtain ⟨hle, -, -⟩ := hfault.prefix_length hargs hap1 hap2 hk
  obtain ⟨m', hwait, hresult, hstatus⟩ := hfault.outcome hargs hp hap1 hap2 hk umwait rfl rfl
  obtain ⟨-, hresult₀, hstatus₀, -⟩ := submit_createDelta hargs.operation hargs.source1
    hargs.source2 hargs.size hargs.record hargs.room
  rw [dmlRefCreateDelta_eq hargs.room_lt hap1 hap2] at hresult₀ hstatus₀
  simp only at hresult₀ hstatus₀
  have hsplit := differingBlocks_add m₀ src1 src2 (k / 8) ((n - k) / 8)
  rw [show k / 8 + (n - k) / 8 = n / 8 by omega, show 8 * (k / 8) = k by omega] at hsplit
  rw [hsplit, List.length_append, List.length_map] at hresult₀ hstatus₀
  refine ⟨m', hwait, ?_⟩
  rw [hresult, hresult₀, hstatus, hstatus₀]
  -- the status follows the result
  have hfollows : ∀ a b : ℕ, (a = b ∧
      (Kernels.createDeltaStatus (intersects (AnyDescriptor.flags.get m₀ dsc) Flag.checkResult)
        (CreateDeltaDescriptor.expectedResultMask.get m₀ dsc &&& 0b111) a).toUnderlying
      = (Kernels.createDeltaStatus (intersects (AnyDescriptor.flags.get m₀ dsc) Flag.checkResult)
        (CreateDeltaDescriptor.expectedResultMask.get m₀ dsc &&& 0b111) b).toUnderlying) ↔ a = b :=
    fun a b => ⟨And.left, fun h => ⟨h, by rw [h]⟩⟩
  rw [hfollows, deltaResult_add_eq_iff hle, List.length_eq_zero_iff, Ne, List.length_eq_zero_iff,
    differingBlocks_eq_nil_iff_bytes, differingBlocks_eq_nil_iff_bytes,
    show 8 * (k / 8) = k by omega]
  refine or_congr_right ?_
  constructor
  · intro h
    push Not at h
    obtain ⟨i, hi, hne⟩ := h
    refine ⟨k + i, by omega, by omega, ?_⟩
    rwa [← Nat.add_assoc, ← Nat.add_assoc]
  · rintro ⟨i, hki, hi, hne⟩ h
    have heq := h (i - k) (by omega)
    rw [Nat.add_assoc, Nat.add_assoc, Nat.add_sub_cancel' hki] at heq
    exact hne heq

end Continuation

/-! ### Stopped states -/

/-- What the hardware leaves when it compares the first `k` bytes as the software
would. -/
def deltaStopped (m₀ : Memory) (dsc k src1 src2 delta max : ℕ) : Memory :=
  let out := dmlRefCreateDelta m₀ src1 src2 k delta max
  CreateDeltaCompletionRecord.deltaRecordSize.set
    (writeFault out.1 (getCompletionRecord m₀ dsc) k) (getCompletionRecord m₀ dsc) out.2.1

theorem deltaFault_deltaStopped {m₀ : Memory} {dsc k src1 src2 n delta max : ℕ}
    (hargs : DeltaArgs m₀ dsc src1 src2 n delta max) (hp : Placed m₀ dsc) (hk : k < 2 ^ 32)
    (hfits : (dmlRefCreateDelta m₀ src1 src2 k delta max).2.2 ≠ resultOverflow) :
    DeltaFault m₀ (dmlRefCreateDelta m₀ src1 src2 k delta max).1
      (deltaStopped m₀ dsc k src1 src2 delta max) dsc k src1 src2 delta max := by
  obtain ⟨-, -, hmem⟩ := mem_operands_createDelta hargs.operation
  rw [hargs.record, hargs.room] at hmem
  have hkept : ∀ x, x ∉ Region.addrs ⟨delta, max⟩ →
      (dmlRefCreateDelta m₀ src1 src2 k delta max).1 x = m₀ x :=
    fun x hx => dmlRefCreateDelta_of_notMem (notMem_addrs.mp hx)
  have hdsc : Set.EqOn (dmlRefCreateDelta m₀ src1 src2 k delta max).1 m₀
      (Region.addrs ⟨dsc, descriptorSize⟩) :=
    fun x hx => hkept x ((hp.apart_descriptor _ hmem).symm.notMem hx)
  have hsize := (dmlRefCreateDelta_size m₀ src1 src2 k delta max hargs.room_lt).1
  exact
    { fault := (pageFault_writeFault m₀ _ dsc hk hdsc).set (by decide) (by decide) (by decide) _
      kept := hkept
      size := Field.get_set_self_of_lt _ _ (lt_of_le_of_lt hsize hargs.room_lt)
      written := fun _ _ => rfl
      fits := hfits }

/-- Sixteen bytes at 128 against sixteen zeros at 192, with a delta record of 80
bytes at 256: byte 0 differs, and byte 8 when it is not zero. -/
def deltaSample (byte8 : ℕ) : Memory :=
  let m := rawDescriptor .createDelta 64 32 128 192 16
  let m := CreateDeltaDescriptor.deltaRecordAddress.set m 64 256
  let m := CreateDeltaDescriptor.maximumDeltaRecordSize.set m 64 80
  store (store m 128 1 1) 136 1 byte8

/-- Differences on both sides of the fault: both notes are in the record. -/
theorem createDelta_continuation_sample :
    Placed (deltaSample 1) 64
      ∧ ∃ m', Automatic.wait (deltaStopped (deltaSample 1) 64 8 128 192 256 80) 64 true = some m'
        ∧ CreateDeltaCompletionRecord.deltaRecordSize.get m' 32
          = CreateDeltaCompletionRecord.deltaRecordSize.get
              (SoftwareDevice.submit (deltaSample 1) 64).1 32
        ∧ ∀ i, i < CreateDeltaCompletionRecord.deltaRecordSize.get m' 32 →
          m' (256 + i) = (SoftwareDevice.submit (deltaSample 1) 64).1 (256 + i) := by
  have hp : Placed (deltaSample 1) 64 := by decide
  have hargs : DeltaArgs (deltaSample 1) 64 128 192 16 256 80 := by
    constructor <;> decide
  have hvalid : validate (deltaSample 1) 64 = .success := by decide
  have hrec : getCompletionRecord (deltaSample 1) 64 = 32 := by decide
  have hfault := deltaFault_deltaStopped (k := 8) hargs hp (by decide) (by decide)
  obtain ⟨m', hwait, hsize, hbytes⟩ := createDelta_continuation hargs hp (by decide) (by decide)
    (by decide) hfault true hvalid (by decide)
  rw [hrec] at hsize hbytes
  exact ⟨hp, m', hwait, hsize, hbytes⟩

/-- Differences on both sides of the fault: the outcome is *not equal* either way. -/
theorem createDelta_outcome_sample :
    Placed (deltaSample 1) 64
      ∧ ∃ m', Automatic.wait (deltaStopped (deltaSample 1) 64 8 128 192 256 80) 64 true = some m'
        ∧ AnyCompletionRecord.result.get m' 32
          = AnyCompletionRecord.result.get (SoftwareDevice.submit (deltaSample 1) 64).1 32
        ∧ AnyCompletionRecord.status.get m' 32
          = AnyCompletionRecord.status.get (SoftwareDevice.submit (deltaSample 1) 64).1 32 := by
  have hp : Placed (deltaSample 1) 64 := by decide
  have hargs : DeltaArgs (deltaSample 1) 64 128 192 16 256 80 := by
    constructor <;> decide
  have hrec : getCompletionRecord (deltaSample 1) 64 = 32 := by decide
  have hdiff : deltaSample 1 (128 + 8) ≠ deltaSample 1 (192 + 8) := by decide
  have hfault := deltaFault_deltaStopped (k := 8) hargs hp (by decide) (by decide)
  obtain ⟨m', hwait, hiff⟩ := createDelta_outcome_iff hargs hp (by decide) (by decide)
    (by decide) hfault true (by decide)
  rw [hrec] at hiff
  exact ⟨hp, m', hwait, hiff.mpr (Or.inr ⟨8, by decide, by decide, hdiff⟩)⟩

/-- A difference before the fault only: the uninterrupted run reports *not equal*,
the merged record *equal*. -/
theorem createDelta_outcome_lost :
    validate (deltaSample 0) 64 = .success ∧ Placed (deltaSample 0) 64
      ∧ DeltaArgs (deltaSample 0) 64 128 192 16 256 80
      ∧ DeltaFault (deltaSample 0) (dmlRefCreateDelta (deltaSample 0) 128 192 8 256 80).1
        (deltaStopped (deltaSample 0) 64 8 128 192 256 80) 64 8 128 192 256 80
      ∧ ∃ m', Automatic.wait (deltaStopped (deltaSample 0) 64 8 128 192 256 80) 64 true = some m'
        ∧ AnyCompletionRecord.result.get m' 32 = resultEqual
        ∧ AnyCompletionRecord.result.get (SoftwareDevice.submit (deltaSample 0) 64).1 32
          = resultNotEqual
        ∧ ¬(AnyCompletionRecord.result.get m' 32
            = AnyCompletionRecord.result.get (SoftwareDevice.submit (deltaSample 0) 64).1 32
          ∧ AnyCompletionRecord.status.get m' 32
            = AnyCompletionRecord.status.get (SoftwareDevice.submit (deltaSample 0) 64).1 32) := by
  have hp : Placed (deltaSample 0) 64 := by decide
  have hargs : DeltaArgs (deltaSample 0) 64 128 192 16 256 80 := by
    constructor <;> decide
  have hrec : getCompletionRecord (deltaSample 0) 64 = 32 := by decide
  have hfault := deltaFault_deltaStopped (k := 8) hargs hp (by decide) (by decide)
  obtain ⟨m', hwait, hresult, -⟩ := hfault.outcome hargs hp (by decide) (by decide) (by decide)
    true rfl rfl
  have hrest : AnyCompletionRecord.result.get m' 32 = resultEqual := by
    rw [hrec] at hresult
    rw [hresult]
    decide
  have hwhole : AnyCompletionRecord.result.get (SoftwareDevice.submit (deltaSample 0) 64).1 32
      = resultNotEqual := by
    decide
  refine ⟨by decide, hp, hargs, hfault, m', hwait, hrest, hwhole, ?_⟩
  rintro ⟨hsame, -⟩
  rw [hrest, hwhole] at hsame
  exact absurd hsame (by decide)

end DataMover
