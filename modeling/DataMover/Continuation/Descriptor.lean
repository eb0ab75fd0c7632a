import DataMover.Placement

/-!
# The descriptor of a continuation

What `update_for_continuation` makes of each descriptor, as a table: which fields
advance by the bytes completed, which shrink by them, and which are taken over
from the record.  The arithmetic wraps in the source; it does not wrap for a
placed descriptor whose record claims no more bytes than were requested.

## Main definitions

* `advancedFields`, `shrunkFields`, `takenOverFields` — the table.
* `requested` — the bytes of work a descriptor asks for.
* `Resumable` — the record claims no more than that.

## Main results

* `get_advanced`, `get_shrunk`, `get_takenOver`, `get_kept` — the fields of the
  continuation, for every operation.
* `operands_updateForContinuation` — its buffers are parts of the original ones.
* `Placed.updateForContinuation` — so it is placed as well.
-/

namespace DataMover

open ByteMemory

/-! ### The table -/

/-- The addresses that advance; those of a memory move only when the hardware
worked forward (result 0). -/
def advancedFields (op : Operation) (result : ℕ) : List Field :=
  match op with
  | .memMove =>
    if result = 0 then [AnyDescriptor.sourceAddress, AnyDescriptor.destinationAddress] else []
  | .copyCrc | .difInsert | .difStrip | .difUpdate =>
    [AnyDescriptor.sourceAddress, AnyDescriptor.destinationAddress]
  | .compare => [CompareDescriptor.source1Address, CompareDescriptor.source2Address]
  | .createDelta => [CreateDeltaDescriptor.source1Address, CreateDeltaDescriptor.source2Address]
  | .fill | .cacheFlush => [AnyDescriptor.destinationAddress]
  | .comparePattern | .crc | .difCheck => [AnyDescriptor.sourceAddress]
  | .applyDelta => [ApplyDeltaDescriptor.deltaRecordAddress]
  | .dualcast => [AnyDescriptor.sourceAddress, DualcastDescriptor.destination1Address,
      DualcastDescriptor.destination2Address]
  | .nop | .drain | .batch => []

/-- The size that shrinks. -/
def shrunkFields : Operation → List Field
  | .applyDelta => [ApplyDeltaDescriptor.deltaRecordSize]
  | .nop | .drain | .batch => []
  | _ => [AnyDescriptor.transferSize]

/-- The fields taken over from the record, each with the record field it gets. -/
def takenOverFields : Operation → List (Field × Field)
  | .crc | .copyCrc => [(CrcDescriptor.crcSeed, CrcCompletionRecord.crcValue)]
  | .difCheck | .difStrip =>
    [(DifDescriptor.sourceAppTag, DifCompletionRecord.sourceAppTag),
      (DifDescriptor.sourceRefTag, DifCompletionRecord.sourceRefTag)]
  | .difInsert =>
    [(DifDescriptor.destinationAppTag, DifCompletionRecord.destinationAppTag),
      (DifDescriptor.destinationRefTag, DifCompletionRecord.destinationRefTag)]
  | .difUpdate =>
    [(DifDescriptor.sourceAppTag, DifCompletionRecord.sourceAppTag),
      (DifDescriptor.sourceRefTag, DifCompletionRecord.sourceRefTag),
      (DifDescriptor.destinationAppTag, DifCompletionRecord.destinationAppTag),
      (DifDescriptor.destinationRefTag, DifCompletionRecord.destinationRefTag)]
  | _ => []

/-- All the fields an update writes. -/
def touchedFields (op : Operation) : List Field :=
  advancedFields op 0 ++ shrunkFields op ++ (takenOverFields op).map Prod.fst
    ++ if op = .createDelta then
        [CreateDeltaDescriptor.maximumDeltaRecordSize, CreateDeltaDescriptor.deltaRecordAddress]
      else []

section Table

variable {m : Memory} {dsc record : ℕ} {op : Operation}

/-- **What every update does**: fields advance, shrink or are taken over as the
table says. -/
theorem updateForContinuation_table (hop : operationOf m dsc = some op)
    (hrec : getCompletionRecord m dsc = record)
    (hap : Region.Apart ⟨record, recordSize⟩ ⟨dsc, descriptorSize⟩) :
    (∀ f ∈ advancedFields op (AnyCompletionRecord.result.get m record),
        f.get (updateForContinuation m dsc) dsc
          = (f.get m dsc + AnyCompletionRecord.bytesCompleted.get m record) % 2 ^ (8 * f.width))
      ∧ (∀ f ∈ shrunkFields op,
        f.get (updateForContinuation m dsc) dsc
          = (f.get m dsc + (2 ^ (8 * f.width)
              - AnyCompletionRecord.bytesCompleted.get m record % 2 ^ (8 * f.width)))
            % 2 ^ (8 * f.width))
      ∧ ∀ p ∈ takenOverFields op,
        p.1.get (updateForContinuation m dsc) dsc = p.2.get m record := by
  rw [updateForContinuation, hop]
  cases op with
  | nop | drain | batch => simp [advancedFields, shrunkFields, takenOverFields]
  -- a backward copy only shrinks: what is left is at the front
  | memMove =>
    by_cases h0 : AnyCompletionRecord.result.get m record = 0
    · simp (disch := decide) only [advancedFields, shrunkFields, takenOverFields, if_pos h0,
        List.mem_cons, List.not_mem_nil, or_false, forall_eq_or_imp, forall_eq, false_imp_iff,
        implies_true, and_true, updateMemMoveForContinuation, hrec, get_advance_of_apart,
        get_shrink_of_apart, get_advance_self, get_shrink_self, get_record_advance hap]
    · simp (disch := decide) only [advancedFields, shrunkFields, takenOverFields, if_neg h0,
        List.mem_cons, List.not_mem_nil, or_false, forall_eq, false_imp_iff,
        implies_true, and_true, updateMemMoveForContinuation, hrec, get_shrink_self]
  | _ =>
    simp (disch := decide) only [advancedFields, shrunkFields, takenOverFields, List.mem_cons,
      List.not_mem_nil, or_false, forall_eq_or_imp, forall_eq, false_imp_iff, implies_true,
      and_true, updateFillForContinuation, updateCompareForContinuation,
      updateComparePatternForContinuation, updateCreateDeltaForContinuation,
      updateApplyDeltaForContinuation, updateDualcastForContinuation, updateCrcForContinuation,
      updateCopyCrcForContinuation, updateDifCheckForContinuation, updateDifInsertForContinuation,
      updateDifStripForContinuation, updateDifUpdateForContinuation,
      updateCacheFlushForContinuation, hrec, get_advance_of_apart, get_shrink_of_apart,
      get_takeOver_of_apart, get_advance_self, get_shrink_self, get_takeOver_self,
      get_record_advance hap, get_record_shrink hap, get_record_takeOver hap,
      Field.get_subAssign_of_apart, Field.get_addAssign_of_apart]

theorem mem_advancedFields_zero {f : Field} {result : ℕ} (hf : f ∈ advancedFields op result) :
    f ∈ advancedFields op 0 := by
  cases op with
  | memMove =>
    simp only [advancedFields] at hf ⊢
    split at hf
    · exact hf
    · exact absurd hf List.not_mem_nil
  | _ => exact hf

theorem width_of_mem_advancedFields {f : Field} {result : ℕ} (hf : f ∈ advancedFields op result) :
    f.width = 8 := by
  have h : ∀ op, ∀ f ∈ advancedFields op 0, f.width = 8 := by
    intro op
    cases op <;> decide
  exact h op f (mem_advancedFields_zero hf)

section Rows

variable (hop : operationOf m dsc = some op) (hrec : getCompletionRecord m dsc = record)
  (hap : Region.Apart ⟨record, recordSize⟩ ⟨dsc, descriptorSize⟩) {f : Field}
include hop hrec hap

/-- An address advances by the bytes completed. -/
theorem get_advanced (hf : f ∈ advancedFields op (AnyCompletionRecord.result.get m record))
    (hfit : f.get m dsc + AnyCompletionRecord.bytesCompleted.get m record < 2 ^ 64) :
    f.get (updateForContinuation m dsc) dsc
      = f.get m dsc + AnyCompletionRecord.bytesCompleted.get m record := by
  rw [(updateForContinuation_table hop hrec hap).1 f hf, width_of_mem_advancedFields hf]
  exact Nat.mod_eq_of_lt hfit

/-- A size shrinks by the bytes completed. -/
theorem get_shrunk (hf : f ∈ shrunkFields op)
    (hle : AnyCompletionRecord.bytesCompleted.get m record ≤ f.get m dsc) :
    f.get (updateForContinuation m dsc) dsc
      = f.get m dsc - AnyCompletionRecord.bytesCompleted.get m record := by
  rw [(updateForContinuation_table hop hrec hap).2.1 f hf]
  exact wrapSub hle (f.get_lt m dsc)

/-- A seed or a tag is taken over from the record. -/
theorem get_takenOver {g : Field} (hfg : (f, g) ∈ takenOverFields op) :
    f.get (updateForContinuation m dsc) dsc = g.get m record :=
  (updateForContinuation_table hop hrec hap).2.2 (f, g) hfg

end Rows

/-- The other fields stay. -/
theorem get_kept (hop : operationOf m dsc = some op) {f : Field}
    (hf : ∀ g ∈ touchedFields op, f.Apart g) :
    f.get (updateForContinuation m dsc) dsc = f.get m dsc := by
  rw [updateForContinuation, hop]
  cases op with
  | nop | drain | batch => rfl
  | memMove =>
    simp [touchedFields, advancedFields, shrunkFields, takenOverFields] at hf
    simp only [updateMemMoveForContinuation]
    split
    · simp (disch := simp only [hf]) only [get_advance_of_apart, get_shrink_of_apart]
    · simp (disch := simp only [hf]) only [get_shrink_of_apart]
  | _ =>
    simp [touchedFields, advancedFields, shrunkFields, takenOverFields] at hf
    simp (disch := simp only [hf]) only [updateFillForContinuation, updateCompareForContinuation,
      updateComparePatternForContinuation, updateCreateDeltaForContinuation,
      updateApplyDeltaForContinuation, updateDualcastForContinuation, updateCrcForContinuation,
      updateCopyCrcForContinuation, updateDifCheckForContinuation, updateDifInsertForContinuation,
      updateDifStripForContinuation, updateDifUpdateForContinuation,
      updateCacheFlushForContinuation, get_advance_of_apart, get_shrink_of_apart,
      get_takeOver_of_apart, Field.get_subAssign_of_apart, Field.get_addAssign_of_apart]

/-- The two fields only `create_delta` updates: the rest of the record buffer. -/
theorem updateCreateDelta_record (hop : operationOf m dsc = some .createDelta)
    (hrec : getCompletionRecord m dsc = record)
    (hap : Region.Apart ⟨record, recordSize⟩ ⟨dsc, descriptorSize⟩)
    (hle : CreateDeltaCompletionRecord.deltaRecordSize.get m record
      ≤ CreateDeltaDescriptor.maximumDeltaRecordSize.get m dsc)
    (hfit : CreateDeltaDescriptor.deltaRecordAddress.get m dsc
      + CreateDeltaCompletionRecord.deltaRecordSize.get m record < 2 ^ 64) :
    CreateDeltaDescriptor.maximumDeltaRecordSize.get (updateForContinuation m dsc) dsc
        = CreateDeltaDescriptor.maximumDeltaRecordSize.get m dsc
          - CreateDeltaCompletionRecord.deltaRecordSize.get m record
      ∧ CreateDeltaDescriptor.deltaRecordAddress.get (updateForContinuation m dsc) dsc
        = CreateDeltaDescriptor.deltaRecordAddress.get m dsc
          + CreateDeltaCompletionRecord.deltaRecordSize.get m record := by
  rw [updateForContinuation, hop]
  simp (disch := decide) only [updateCreateDeltaForContinuation, hrec, Field.addAssign,
    Field.subAssign, Field.get_set_self, Field.get_set_of_apart, get_advance_of_apart,
    get_shrink_of_apart, Field.get_set_elsewhere hap.symm, get_record_advance hap,
    get_record_shrink hap]
  exact ⟨wrapSub hle (Field.get_lt _ m dsc), Nat.mod_eq_of_lt hfit⟩

end Table

/-! ### Placement of the continuation -/

/-- The bytes of work a descriptor asks for: the transfer size, or the size of
the delta record for `apply_delta`. -/
def requested (m : Memory) (dsc : ℕ) : ℕ :=
  if operationOf m dsc = some .applyDelta then ApplyDeltaDescriptor.deltaRecordSize.get m dsc
  else AnyDescriptor.transferSize.get m dsc

theorem requested_of_ne {m : Memory} {dsc : ℕ} {op : Operation}
    (hop : operationOf m dsc = some op) (hne : op ≠ .applyDelta) :
    requested m dsc = AnyDescriptor.transferSize.get m dsc :=
  if_neg fun h => hne (Option.some.inj (hop.symm.trans h))

/-- The record claims no more than the descriptor asked for. -/
structure Resumable (m : Memory) (dsc : ℕ) : Prop where
  bytes_le : AnyCompletionRecord.bytesCompleted.get m (getCompletionRecord m dsc) ≤ requested m dsc
  delta_le : operationOf m dsc = some .createDelta →
    CreateDeltaCompletionRecord.deltaRecordSize.get m (getCompletionRecord m dsc)
      ≤ CreateDeltaDescriptor.maximumDeltaRecordSize.get m dsc
  insert_size : operationOf m dsc = some .difInsert →
    AnyDescriptor.transferSize.get m dsc % difBlockBytes m dsc = 0

section Head

variable (m : Memory) (dsc : ℕ)

/-- An update keeps the first 16 bytes of the descriptor. -/
theorem get_head {f : Field} (hf : f.Within 16) :
    f.get (updateForContinuation m dsc) dsc = f.get m dsc :=
  Field.get_congr hf fun x hx => by
    rw [Region.mem_addrs] at hx
    exact updateForContinuation_apply (Or.inl hx.2)

theorem operationOf_updateForContinuation :
    operationOf (updateForContinuation m dsc) dsc = operationOf m dsc := by
  rw [operationOf, operationOf, get_head m dsc (by decide)]

theorem getCompletionRecord_updateForContinuation :
    getCompletionRecord (updateForContinuation m dsc) dsc = getCompletionRecord m dsc :=
  get_head m dsc (by decide)

end Head

section Placement

variable {m : Memory} {dsc : ℕ} {op : Operation}

/-- What is left of a buffer after its first `k` bytes. -/
theorem inside_advance {a n k : ℕ} (h : k ≤ n) : Region.Inside ⟨a + k, n - k⟩ ⟨a, n⟩ := by
  constructor <;> simp only <;> omega

/-- The operations whose buffers are one transfer size long, each at an address
that advances. -/
def Uniform (op : Operation) : Prop :=
  op ≠ .createDelta ∧ op ≠ .applyDelta ∧ op ≠ .difInsert

theorem operands_of_uniform (hop : operationOf m dsc = some op) (hu : Uniform op) :
    operands m dsc
      = (advancedFields op 0).map fun f => ⟨f.get m dsc, AnyDescriptor.transferSize.get m dsc⟩ := by
  unfold operands
  rw [hop]
  obtain ⟨h1, h2, h3⟩ := hu
  cases op with
  | createDelta => exact absurd rfl h1
  | applyDelta => exact absurd rfl h2
  | difInsert => exact absurd rfl h3
  | _ => rfl

/-- An address that may advance does, or stays for a memory move that worked
backward. -/
theorem get_advanced_or_kept {record : ℕ} (hop : operationOf m dsc = some op)
    (hrec : getCompletionRecord m dsc = record)
    (hap : Region.Apart ⟨record, recordSize⟩ ⟨dsc, descriptorSize⟩) {f : Field}
    (hf : f ∈ advancedFields op 0)
    (hfit : f.get m dsc + AnyCompletionRecord.bytesCompleted.get m record < 2 ^ 64) :
    f.get (updateForContinuation m dsc) dsc
        = f.get m dsc + AnyCompletionRecord.bytesCompleted.get m record
      ∨ f.get (updateForContinuation m dsc) dsc = f.get m dsc := by
  by_cases hadv : f ∈ advancedFields op (AnyCompletionRecord.result.get m record)
  · exact Or.inl (get_advanced hop hrec hap hadv hfit)
  · right
    cases op with
    | memMove =>
      have h0 : AnyCompletionRecord.result.get m record ≠ 0 := by
        intro h0
        rw [h0] at hadv
        exact hadv hf
      rw [updateForContinuation, hop]
      simp only [updateMemMoveForContinuation, hrec, if_neg h0]
      have hsize : ∀ g ∈ advancedFields .memMove 0, g.Apart AnyDescriptor.transferSize := by
        decide
      exact get_shrink_of_apart (hsize f hf)
    | _ => exact absurd hf hadv

theorem difBlockBytes_updateForContinuation (hop : operationOf m dsc = some op)
    (hf : ∀ g ∈ touchedFields op, DifDescriptor.difFlags.Apart g) :
    difBlockBytes (updateForContinuation m dsc) dsc = difBlockBytes m dsc := by
  rw [difBlockBytes, difBlockBytes, get_kept hop hf]

/-- What is left of the destination of an insert, from the source bytes done:
the source is a whole number of blocks. -/
theorem insert_size_le {n k bs : ℕ} (hbs : n % bs = 0) (hk : k ≤ n) :
    k + (n - k) / bs * (bs + 8) ≤ n / bs * (bs + 8) := by
  have hn : n / bs * bs = n := by rw [Nat.div_mul_cancel (Nat.dvd_of_mod_eq_zero hbs)]
  have hle : (n - k) / bs ≤ n / bs := Nat.div_le_div_right (Nat.sub_le n k)
  have hmul := Nat.div_mul_le_self (n - k) bs
  rw [Nat.mul_add, Nat.mul_add]
  omega

/-- **The buffers of the continuation are parts of the original ones.** -/
theorem operands_updateForContinuation (hp : Placed m dsc) (hr : Resumable m dsc) :
    ∀ R ∈ operands (updateForContinuation m dsc) dsc, ∃ R₀ ∈ operands m dsc, R.Inside R₀ := by
  have hop' := operationOf_updateForContinuation m dsc
  have hk := hr.bytes_le
  have hfits := hp.fits
  have hap := hp.record_apart
  cases hop : operationOf m dsc with
  | none =>
    rw [hop] at hop'
    simp [operands, hop']
  | some op =>
    rw [hop] at hop'
    by_cases hu : Uniform op
    · -- one transfer size per buffer
      rw [operands_of_uniform hop' hu, operands_of_uniform hop hu]
      rw [operands_of_uniform hop hu] at hfits
      intro R hR
      obtain ⟨f, hf, rfl⟩ := List.mem_map.mp hR
      refine ⟨_, List.mem_map.mpr ⟨f, hf, rfl⟩, ?_⟩
      have hfit := hfits _ (List.mem_map.mpr ⟨f, hf, rfl⟩)
      rw [requested_of_ne hop hu.2.1] at hk
      have hsize : AnyDescriptor.transferSize ∈ shrunkFields op := by
        cases op with
        | nop | drain | batch => exact absurd hf List.not_mem_nil
        | applyDelta => exact absurd rfl hu.2.1
        | _ => decide
      rw [get_shrunk hop rfl hap hsize hk]
      simp only at hfit
      rcases get_advanced_or_kept hop rfl hap hf (by omega) with h | h
      · rw [h]
        exact inside_advance hk
      · rw [h]
        constructor <;> simp only <;> omega
    · -- `create_delta`, `apply_delta` and `dif_insert` have a buffer of their own kind
      unfold operands at hfits ⊢
      rw [hop] at hfits ⊢
      rw [hop']
      cases op with
      | createDelta =>
        simp only [List.mem_cons, List.not_mem_nil, or_false, forall_eq_or_imp, forall_eq,
          exists_eq_or_imp, exists_eq_left] at hfits ⊢
        obtain ⟨hfit1, hfit2, hfit3⟩ := hfits
        rw [requested_of_ne hop (by decide)] at hk
        have hle := hr.delta_le hop
        obtain ⟨hmax, haddr⟩ := updateCreateDelta_record hop rfl hap hle (by omega)
        rw [get_advanced hop rfl hap (f := AnyDescriptor.sourceAddress) (by simp [advancedFields])
            (by omega),
          get_advanced hop rfl hap (f := AnyDescriptor.destinationAddress)
            (by simp [advancedFields]) (by omega),
          get_shrunk hop rfl hap (by decide) hk, hmax, haddr]
        exact ⟨Or.inl (inside_advance hk), Or.inr (Or.inl (inside_advance hk)),
          Or.inr (Or.inr (inside_advance hle))⟩
      | applyDelta =>
        simp only [List.mem_cons, List.not_mem_nil, or_false, forall_eq_or_imp, forall_eq,
          exists_eq_or_imp, exists_eq_left] at hfits ⊢
        obtain ⟨hfit1, hfit2⟩ := hfits
        rw [requested, hop, if_pos rfl] at hk
        rw [get_advanced hop rfl hap (f := AnyDescriptor.sourceAddress) (by simp [advancedFields])
            (by omega),
          get_shrunk hop rfl hap (f := ApplyDeltaDescriptor.deltaRecordSize) (by decide) hk,
          get_kept hop (f := AnyDescriptor.destinationAddress) (by decide),
          get_kept hop (f := AnyDescriptor.transferSize) (by decide)]
        exact ⟨Or.inl (inside_advance hk), Or.inr (Region.Inside.refl _)⟩
      | difInsert =>
        simp only [List.mem_cons, List.not_mem_nil, or_false, forall_eq_or_imp, forall_eq,
          exists_eq_or_imp, exists_eq_left] at hfits ⊢
        obtain ⟨hfit1, hfit2⟩ := hfits
        rw [requested_of_ne hop (by decide)] at hk
        -- the destination advances by the source bytes done, without the fields between
        have hle := insert_size_le (hr.insert_size hop) hk
        rw [difBlockBytes_updateForContinuation hop (by decide),
          get_advanced hop rfl hap (f := AnyDescriptor.sourceAddress) (by simp [advancedFields])
            (by omega),
          get_advanced hop rfl hap (f := AnyDescriptor.destinationAddress)
            (by simp [advancedFields]) (by omega),
          get_shrunk hop rfl hap (by decide) hk]
        refine ⟨Or.inl (inside_advance hk), Or.inr ⟨?_, ?_⟩⟩
        · simp only; omega
        · simp only; omega
      | _ => exact absurd ⟨by decide, by decide, by decide⟩ hu

/-- **The continuation is placed as the original was.** -/
theorem Placed.updateForContinuation (hp : Placed m dsc) (hr : Resumable m dsc) :
    Placed (updateForContinuation m dsc) dsc where
  record_apart := by
    rw [getCompletionRecord_updateForContinuation]
    exact hp.record_apart
  apart_descriptor R hR := by
    obtain ⟨R₀, hR₀, hin⟩ := operands_updateForContinuation hp hr R hR
    exact (hp.apart_descriptor R₀ hR₀).mono hin (Region.Inside.refl _)
  apart_record R hR := by
    rw [getCompletionRecord_updateForContinuation]
    obtain ⟨R₀, hR₀, hin⟩ := operands_updateForContinuation hp hr R hR
    exact (hp.apart_record R₀ hR₀).mono hin (Region.Inside.refl _)
  fits R hR := by
    obtain ⟨R₀, hR₀, hin⟩ := operands_updateForContinuation hp hr R hR
    exact lt_of_le_of_lt hin.2 (hp.fits R₀ hR₀)

end Placement

end DataMover
