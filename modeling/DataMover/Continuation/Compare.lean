import DataMover.Continuation.Wait

/-!
# Continuing a comparison

`compare` merges its two records by *assigning* the bytes completed of the first,
where every other operation adds.  The offset the software found in the remainder
is lost: the merged record reports the position of the fault.  Result and status
are those of the remainder, which the equal prefix does not change.

## Main definitions

* `SameOutcome` — two records agree on status, result and bytes completed.

## Main results

* `compare_wait` — the record after `wait`.
* `compare_continuation_iff` — it is the record of the uninterrupted comparison
  exactly when the first difference is at the fault, or the fault is at the start
  of equal buffers.
-/

namespace DataMover

open ByteMemory

/-! ### Records of a comparison -/

/-- The records say the same: status, result and bytes completed. -/
def SameOutcome (m m' : Memory) (record : ℕ) : Prop :=
  AnyCompletionRecord.status.get m record = AnyCompletionRecord.status.get m' record
    ∧ AnyCompletionRecord.result.get m record = AnyCompletionRecord.result.get m' record
    ∧ AnyCompletionRecord.bytesCompleted.get m record
      = AnyCompletionRecord.bytesCompleted.get m' record

/-- The record of a comparison with a given outcome. -/
theorem completeCompare_record (m : Memory) (record : ℕ) (check : Bool) (expected : ℕ)
    {outcome : ℕ × ℕ} (h1 : outcome.1 < 2 ^ 32) (h2 : outcome.2 < 2 ^ 8) :
    AnyCompletionRecord.status.get
        (Kernels.completeCompare m record check expected outcome) record
        = (Kernels.compareStatus check expected outcome.2).toUnderlying
      ∧ AnyCompletionRecord.result.get
        (Kernels.completeCompare m record check expected outcome) record = outcome.2
      ∧ AnyCompletionRecord.bytesCompleted.get
        (Kernels.completeCompare m record check expected outcome) record = outcome.1 := by
  have hresult : AnyCompletionRecord.result.get (AnyCompletionRecord.result.set
      (AnyCompletionRecord.bytesCompleted.set m record outcome.1) record outcome.2) record
        = outcome.2 := Field.get_set_self_of_lt _ _ h2
  simp only [Kernels.completeCompare, hresult]
  refine ⟨status_setStatus _ _ _, ?_, ?_⟩
  · rw [get_setStatus (by decide), hresult]
  · rw [get_setStatus (by decide), Field.get_set_of_apart (by decide),
      Field.get_set_self_of_lt _ _ h1]

section Continuation

variable {m₀ m : Memory} {dsc k : ℕ}

/-- The record a software comparison writes. -/
theorem submit_compare {src1 src2 n : ℕ} (hop : operationOf m dsc = some .compare)
    (h1 : CompareDescriptor.source1Address.get m dsc = src1)
    (h2 : CompareDescriptor.source2Address.get m dsc = src2)
    (hn : AnyDescriptor.transferSize.get m dsc = n) :
    AnyCompletionRecord.status.get (SoftwareDevice.submit m dsc).1 (getCompletionRecord m dsc)
        = (Kernels.compareStatus (intersects (AnyDescriptor.flags.get m dsc) Flag.checkResult)
            (CompareDescriptor.expectedResult.get m dsc)
            (dmlRefCompare m src1 src2 n).2).toUnderlying
      ∧ AnyCompletionRecord.result.get (SoftwareDevice.submit m dsc).1 (getCompletionRecord m dsc)
        = (dmlRefCompare m src1 src2 n).2
      ∧ AnyCompletionRecord.bytesCompleted.get (SoftwareDevice.submit m dsc).1
          (getCompletionRecord m dsc) = (dmlRefCompare m src1 src2 n).1 := by
  obtain ⟨hlt1, hlt2⟩ := dmlRefCompare_lt m src1 src2 n
  rw [SoftwareDevice.submit, hop]
  simp only [Kernels.compare, h1, h2, hn]
  exact completeCompare_record m _ _ _ hlt1 hlt2

theorem mem_operands_compare (hop : operationOf m₀ dsc = some .compare) :
    ⟨CompareDescriptor.source1Address.get m₀ dsc, AnyDescriptor.transferSize.get m₀ dsc⟩
        ∈ operands m₀ dsc
      ∧ ⟨CompareDescriptor.source2Address.get m₀ dsc, AnyDescriptor.transferSize.get m₀ dsc⟩
        ∈ operands m₀ dsc := by
  simp [operands, hop]

/-- The software compares the rest of the original buffers. -/
theorem resumed_compare (hop : operationOf m₀ dsc = some .compare) (hp : Placed m₀ dsc)
    (hk : k ≤ AnyDescriptor.transferSize.get m₀ dsc) (hfault : PageFault m₀ m₀ m dsc k)
    {rest : ℕ × ℕ}
    (hrest : rest = dmlRefCompare m₀ (CompareDescriptor.source1Address.get m₀ dsc + k)
      (CompareDescriptor.source2Address.get m₀ dsc + k)
      (AnyDescriptor.transferSize.get m₀ dsc - k)) :
    AnyCompletionRecord.status.get (resumed m dsc) (getCompletionRecord m₀ dsc)
        = (Kernels.compareStatus (intersects (AnyDescriptor.flags.get m₀ dsc) Flag.checkResult)
            (CompareDescriptor.expectedResult.get m₀ dsc) rest.2).toUnderlying
      ∧ AnyCompletionRecord.result.get (resumed m dsc) (getCompletionRecord m₀ dsc) = rest.2 := by
  obtain ⟨hmem1, hmem2⟩ := mem_operands_compare hop
  have hfit1 := hp.fits _ hmem1
  have hfit2 := hp.fits _ hmem2
  simp only at hfit1 hfit2
  set n := AnyDescriptor.transferSize.get m₀ dsc with hn
  set src1 := CompareDescriptor.source1Address.get m₀ dsc with hsrc1
  set src2 := CompareDescriptor.source2Address.get m₀ dsc with hsrc2
  have hs1 : CompareDescriptor.source1Address.get (updateForContinuation m dsc) dsc = src1 + k :=
    hfault.update_advanced hp hop (by simp [advancedFields]) (by decide) (by omega)
  have hs2 : CompareDescriptor.source2Address.get (updateForContinuation m dsc) dsc = src2 + k :=
    hfault.update_advanced hp hop (by simp [advancedFields]) (by decide) (by omega)
  have hn₁ : AnyDescriptor.transferSize.get (updateForContinuation m dsc) dsc = n - k :=
    hfault.update_shrunk hp hop (by decide) (by decide) hk
  have hflags : AnyDescriptor.flags.get (updateForContinuation m dsc) dsc
      = AnyDescriptor.flags.get m₀ dsc := hfault.update_kept hp hop (by decide) (by decide)
  have hexp : CompareDescriptor.expectedResult.get (updateForContinuation m dsc) dsc
      = CompareDescriptor.expectedResult.get m₀ dsc :=
    hfault.update_kept hp hop (by decide) (by decide)
  -- the sources are as they were: only descriptor and record were written
  have hread :
      dmlRefCompare (updateForContinuation m dsc) (src1 + k) (src2 + k) (n - k) = rest := by
    rw [hrest]
    refine dmlRefCompare_congr (fun i hi => ?_) fun i hi => ?_
    · exact hfault.update_apply hp hmem1
        (Region.mem_addrs.mpr ⟨by simp only; omega, by simp only; omega⟩)
    · exact hfault.update_apply hp hmem2
        (Region.mem_addrs.mpr ⟨by simp only; omega, by simp only; omega⟩)
  obtain ⟨hstatus, hresult, -⟩ := submit_compare (hfault.update_operation hp hop) hs1 hs2 hn₁
  rw [hread, getCompletionRecord_updateForContinuation, hfault.record hp] at hstatus hresult
  rw [hflags, hexp] at hstatus
  exact ⟨hstatus, hresult⟩

/-- **The record after waiting for a comparison**: status and result of the
remainder, and the position of the fault. -/
theorem compare_wait (umwait : Bool) (hop : operationOf m₀ dsc = some .compare)
    (hp : Placed m₀ dsc) (hk : k ≤ AnyDescriptor.transferSize.get m₀ dsc)
    (hfault : PageFault m₀ m₀ m dsc k) {rest : ℕ × ℕ}
    (hrest : rest = dmlRefCompare m₀ (CompareDescriptor.source1Address.get m₀ dsc + k)
      (CompareDescriptor.source2Address.get m₀ dsc + k)
      (AnyDescriptor.transferSize.get m₀ dsc - k)) :
    ∃ m', Automatic.wait m dsc umwait = some m'
      ∧ AnyCompletionRecord.status.get m' (getCompletionRecord m₀ dsc)
        = (Kernels.compareStatus (intersects (AnyDescriptor.flags.get m₀ dsc) Flag.checkResult)
            (CompareDescriptor.expectedResult.get m₀ dsc) rest.2).toUnderlying
      ∧ AnyCompletionRecord.result.get m' (getCompletionRecord m₀ dsc) = rest.2
      ∧ AnyCompletionRecord.bytesCompleted.get m' (getCompletionRecord m₀ dsc) = k := by
  have hopm := hfault.operation hp hop
  have hbatch : operationOf m dsc ≠ some .batch := by rw [hopm]; simp
  have hreq : k ≤ requested m₀ dsc := by
    rw [requested_of_ne hop (by decide)]
    exact hk
  have hr := hfault.resumable hp hop hreq (by simp) (by simp)
  have hdelta := hfault.deltaWithin hp hop hreq (by simp)
  have hlt : k < 2 ^ 32 := lt_of_le_of_lt hk (transferSize_lt m₀ dsc)
  have hwait := wait_eq (hfault.placed hp) hr hbatch hdelta (hfault.isPageFault hp)
    (by rw [hopm]; simp) umwait
  rw [accumulateRecords, operationOf_resumed (hfault.placed hp) hr hbatch hdelta, hopm] at hwait
  -- the merge of a comparison overwrites the bytes completed of the software run
  simp only [accumulateRecordsCompare] at hwait
  rw [getCompletionRecord_resumed (hfault.placed hp) hr hbatch hdelta, get_clone (by decide),
    hfault.bytesCompleted hp, hfault.record hp] at hwait
  obtain ⟨hstatus, hresult⟩ := resumed_compare hop hp hk hfault hrest
  refine ⟨_, hwait, ?_, ?_, ?_⟩
  · rw [Field.get_set_of_apart (by decide), hstatus]
  · rw [Field.get_set_of_apart (by decide), hresult]
  · exact Field.get_set_self_of_lt _ _ hlt

/-- **When a continued comparison is transparent**: the record is that of the
uninterrupted comparison exactly when the byte at the fault is the first to
differ, or the fault is at the start of equal buffers. -/
theorem compare_continuation_iff (umwait : Bool) (hop : operationOf m₀ dsc = some .compare)
    (hp : Placed m₀ dsc) (hk : k ≤ AnyDescriptor.transferSize.get m₀ dsc)
    (hequal : ∀ i, i < k → m₀ (CompareDescriptor.source1Address.get m₀ dsc + i)
      = m₀ (CompareDescriptor.source2Address.get m₀ dsc + i))
    (hfault : PageFault m₀ m₀ m dsc k) :
    ∃ m', Automatic.wait m dsc umwait = some m'
      ∧ (SameOutcome m' (SoftwareDevice.submit m₀ dsc).1 (getCompletionRecord m₀ dsc)
        ↔ (k < AnyDescriptor.transferSize.get m₀ dsc
            ∧ m₀ (CompareDescriptor.source1Address.get m₀ dsc + k)
              ≠ m₀ (CompareDescriptor.source2Address.get m₀ dsc + k))
          ∨ (k = 0 ∧ ∀ i, i < AnyDescriptor.transferSize.get m₀ dsc →
            m₀ (CompareDescriptor.source1Address.get m₀ dsc + i)
              = m₀ (CompareDescriptor.source2Address.get m₀ dsc + i))) := by
  obtain ⟨m', hwait, hstatus, hresult, hbytes⟩ := compare_wait umwait hop hp hk hfault rfl
  refine ⟨m', hwait, ?_⟩
  obtain ⟨hstatus₀, hresult₀, hbytes₀⟩ := submit_compare hop rfl rfl rfl
  set n := AnyDescriptor.transferSize.get m₀ dsc with hn
  set src1 := CompareDescriptor.source1Address.get m₀ dsc with hsrc1
  set src2 := CompareDescriptor.source2Address.get m₀ dsc with hsrc2
  have hlt : n < 2 ^ 32 := transferSize_lt m₀ dsc
  have hprefix : ∀ i, i < k → differsAt m₀ src1 src2 i = false := fun i hi => by
    rw [differsAt, hequal i hi]; simp
  have hwhole := dmlRefCompare_add (n := n - k) (by omega) hprefix
  rw [Nat.add_sub_cancel' hk] at hwhole
  rw [SameOutcome, hstatus, hresult, hbytes, hstatus₀, hresult₀, hbytes₀, hwhole]
  unfold dmlRefCompare
  cases hsearch : Loop.search (differsAt m₀ (src1 + k) (src2 + k)) (n - k) with
  | none =>
    -- no difference at all: the uninterrupted comparison reports 0
    have hsame : ∀ i, i < n → m₀ (src1 + i) = m₀ (src2 + i) := by
      intro i hi
      rcases Nat.lt_or_ge i k with hik | hik
      · exact hequal i hik
      · have := Loop.search_eq_none.mp hsearch (i - k) (by omega)
        rw [differsAt, show src1 + k + (i - k) = src1 + i by omega,
          show src2 + k + (i - k) = src2 + i by omega] at this
        simpa using this
    simp only [true_and]
    constructor
    · intro h0
      exact Or.inr ⟨h0, hsame⟩
    · rintro (⟨hkn, hne⟩ | ⟨h0, -⟩)
      · exact absurd (hsame k hkn) hne
      · exact h0
  | some index =>
    obtain ⟨hidx, hdiff, hfirst⟩ := Loop.search_eq_some.mp hsearch
    simp only [true_and]
    constructor
    · intro h0
      have hzero : index = 0 := by omega
      subst hzero
      left
      rw [differsAt] at hdiff
      exact ⟨by omega, by simpa using hdiff⟩
    · rintro (⟨hkn, hne⟩ | ⟨-, hall⟩)
      · -- the difference at the fault is the first one
        have hzero : index = 0 := by
          by_contra hpos
          have := hfirst 0 (by omega)
          rw [differsAt] at this
          simp at this
          exact hne this
        omega
      · rw [differsAt] at hdiff
        have := hall (k + index) (by omega)
        simp [Nat.add_assoc, this] at hdiff

end Continuation

/-- Eight bytes at 128 against eight at 160 that differ in byte `i` only. -/
def compareSample (i : ℕ) : Memory :=
  store (rawDescriptor .compare 64 32 128 160 8) (128 + i) 1 1

/-- A difference right at the fault is reported where it is. -/
theorem compare_continuation_sample :
    Placed (compareSample 4) 64
      ∧ ∃ m', Automatic.wait (writeFault (compareSample 4) 32 4) 64 true = some m'
        ∧ SameOutcome m' (SoftwareDevice.submit (compareSample 4) 64).1 32 := by
  have hop : operationOf (compareSample 4) 64 = some .compare := by decide
  have hp : Placed (compareSample 4) 64 := by decide
  have hrec : getCompletionRecord (compareSample 4) 64 = 32 := by decide
  have hn : AnyDescriptor.transferSize.get (compareSample 4) 64 = 8 := by decide
  have hs1 : CompareDescriptor.source1Address.get (compareSample 4) 64 = 128 := by decide
  have hs2 : CompareDescriptor.source2Address.get (compareSample 4) 64 = 160 := by decide
  have hequal : ∀ i, i < 4 → compareSample 4 (128 + i) = compareSample 4 (160 + i) := by
    decide
  have hdiff : compareSample 4 (128 + 4) ≠ compareSample 4 (160 + 4) := by decide
  have hfault := pageFault_writeFault (compareSample 4) (compareSample 4) 64
    (k := 4) (by decide) fun _ _ => rfl
  rw [hrec] at hfault
  obtain ⟨m', hwait, hiff⟩ := compare_continuation_iff true hop hp (by rw [hn]; decide)
    (by rw [hs1, hs2]; exact hequal) hfault
  rw [hrec, hn, hs1, hs2] at hiff
  exact ⟨hp, m', hwait, hiff.mpr (Or.inl ⟨by decide, hdiff⟩)⟩

/-- A difference past the fault is reported at the fault: the buffers differ in
byte 6, and after a fault at byte 4 the merged record says 4. -/
theorem compare_continuation_offset_lost :
    operationOf (compareSample 6) 64 = some .compare ∧ validate (compareSample 6) 64 = .success
      ∧ Placed (compareSample 6) 64
      ∧ (∀ i, i < 4 → compareSample 6 (128 + i) = compareSample 6 (160 + i))
      ∧ PageFault (compareSample 6) (compareSample 6) (writeFault (compareSample 6) 32 4) 64 4
      ∧ ∃ m', Automatic.wait (writeFault (compareSample 6) 32 4) 64 true = some m'
        ∧ AnyCompletionRecord.bytesCompleted.get m' 32 = 4
        ∧ AnyCompletionRecord.bytesCompleted.get (SoftwareDevice.submit (compareSample 6) 64).1 32
          = 6
        ∧ ¬SameOutcome m' (SoftwareDevice.submit (compareSample 6) 64).1 32 := by
  have hop : operationOf (compareSample 6) 64 = some .compare := by decide
  have hp : Placed (compareSample 6) 64 := by decide
  have hrec : getCompletionRecord (compareSample 6) 64 = 32 := by decide
  have hk : 4 ≤ AnyDescriptor.transferSize.get (compareSample 6) 64 := by decide
  have hfault := pageFault_writeFault (compareSample 6) (compareSample 6) 64
    (k := 4) (by decide) fun _ _ => rfl
  rw [hrec] at hfault
  obtain ⟨m', hwait, -, -, hbytes⟩ := compare_wait true hop hp hk hfault rfl
  rw [hrec] at hbytes
  have hwhole : AnyCompletionRecord.bytesCompleted.get
      (SoftwareDevice.submit (compareSample 6) 64).1 32 = 6 := by
    decide
  refine ⟨hop, by decide, hp, by decide, hfault, m', hwait, hbytes, hwhole, ?_⟩
  rintro ⟨-, -, hsame⟩
  rw [hbytes, hwhole] at hsame
  exact absurd hsame (by decide)

end DataMover
