import DataMover.Continuation.Compare

/-!
# Continuing a fill and a pattern comparison

Both kernels start at the first byte of the pattern.  The continuation starts
there again, at byte `k` of the buffer, so the pattern is out of phase unless `k`
is a multiple of 8 or the pattern happens to look the same from both places.  The
pattern comparison moreover adds its two offsets also when it found no mismatch,
where the uninterrupted run reports 0.

## Main definitions

* `InPhase` — the rotated pattern agrees with the pattern on the remaining bytes.
* `SameMismatch` — both readings of the pattern find their first mismatch in the
  same place, and report it alike.

## Main results

* `fill_wait`, `comparePattern_wait` — what `wait` leaves.
* `pattern_continuation_iff` — when it is what the uninterrupted run leaves.
-/

namespace DataMover

open ByteMemory

/-! ### Fill -/

/-- The pattern looks the same `k` bytes further on, as far as the remaining `r`
bytes use it. -/
def InPhase (pattern k r : ℕ) : Prop :=
  ∀ i, i < min 8 r → byteAt pattern i = byteAt pattern ((k + i) % 8)

instance (pattern k r : ℕ) : Decidable (InPhase pattern k r) :=
  inferInstanceAs (Decidable (∀ i, i < min 8 r → _))

section Fill

variable {m₀ m : Memory} {dsc k : ℕ}

/-- The memory after the kernel, outside the record. -/
theorem submit_fill_apply {pattern dst n x : ℕ} (hop : operationOf m dsc = some .fill)
    (hpat : FillDescriptor.pattern.get m dsc = pattern)
    (hdst : AnyDescriptor.destinationAddress.get m dsc = dst)
    (hn : AnyDescriptor.transferSize.get m dsc = n)
    (hx : x ∉ Region.addrs ⟨getCompletionRecord m dsc, recordSize⟩) :
    (SoftwareDevice.submit m dsc).1 x
      = if dst ≤ x ∧ x < dst + n then byteAt pattern ((x - dst) % 8) else m x := by
  rw [SoftwareDevice.submit, hop]
  simp only [Kernels.fill, hpat, hdst, hn]
  rw [setStatus_apply hx, dmlRefFillU64_eq]

theorem mem_operands_fill (hop : operationOf m₀ dsc = some .fill) :
    ⟨AnyDescriptor.destinationAddress.get m₀ dsc, AnyDescriptor.transferSize.get m₀ dsc⟩
      ∈ operands m₀ dsc := by
  simp [operands, hop]

theorem fill_kept (hop : operationOf m₀ dsc = some .fill) (hp : Placed m₀ dsc)
    (hk : k ≤ AnyDescriptor.transferSize.get m₀ dsc) (pattern : ℕ) :
    Set.EqOn (dmlRefFillU64 m₀ pattern (AnyDescriptor.destinationAddress.get m₀ dsc) k) m₀
      (Region.addrs ⟨dsc, descriptorSize⟩) := by
  intro x hx
  have hnot := (hp.apart_descriptor _ (mem_operands_fill hop)).symm.notMem hx
  rw [notMem_addrs] at hnot
  rw [dmlRefFillU64_eq, if_neg (by omega)]

/-- **What waiting for a fill leaves**: from byte `k` on the pattern starts over. -/
theorem fill_wait (umwait : Bool) (hop : operationOf m₀ dsc = some .fill) (hp : Placed m₀ dsc)
    (hk : k ≤ AnyDescriptor.transferSize.get m₀ dsc)
    (hfault : PageFault m₀ (dmlRefFillU64 m₀ (FillDescriptor.pattern.get m₀ dsc)
      (AnyDescriptor.destinationAddress.get m₀ dsc) k) m dsc k) :
    ∃ m', Automatic.wait m dsc umwait = some m'
      ∧ ∀ j, j < AnyDescriptor.transferSize.get m₀ dsc →
        m' (AnyDescriptor.destinationAddress.get m₀ dsc + j)
          = byteAt (FillDescriptor.pattern.get m₀ dsc) (if j < k then j % 8 else (j - k) % 8) := by
  have hplain : PageFault.Plain .fill := ⟨by simp [AddsBytes], by simp, by simp⟩
  have hreq : k ≤ requested m₀ dsc := by
    rw [requested_of_ne hop (by decide)]
    exact hk
  refine ⟨_, hfault.wait_eq_addAssign hp hop hreq hplain umwait, ?_⟩
  have hmem := mem_operands_fill hop
  have hfit := hp.fits _ hmem
  simp only at hfit
  intro j hj
  set n := AnyDescriptor.transferSize.get m₀ dsc with hn
  set dst := AnyDescriptor.destinationAddress.get m₀ dsc with hdst
  set pattern := FillDescriptor.pattern.get m₀ dsc with hpat
  have hin : dst + j ∈ Region.addrs ⟨dst, n⟩ := Region.add_mem_addrs (by omega)
  have hrec := (hp.apart_record _ hmem).notMem hin
  have hpat₁ : FillDescriptor.pattern.get (updateForContinuation m dsc) dsc = pattern :=
    hfault.update_kept hp hop (by decide) (by decide)
  have hdst₁ : AnyDescriptor.destinationAddress.get (updateForContinuation m dsc) dsc = dst + k :=
    hfault.update_advanced hp hop (by simp [advancedFields]) (by decide) (by omega)
  have hn₁ : AnyDescriptor.transferSize.get (updateForContinuation m dsc) dsc = n - k :=
    hfault.update_shrunk hp hop (by decide) (by decide) hk
  rw [addAssign_apply_of_notMem hrec (by decide), resumed,
    submit_fill_apply (hfault.update_operation hp hop) hpat₁ hdst₁ hn₁
      (by rw [getCompletionRecord_updateForContinuation, hfault.record hp]; exact hrec)]
  rcases Nat.lt_or_ge j k with hjk | hjk
  · -- filled by the hardware
    rw [if_neg (by omega), hfault.update_apply hp hmem hin, dmlRefFillU64_eq, if_pos (by omega),
      if_pos hjk, Nat.add_sub_cancel_left]
  · -- filled by the software, from the start of the pattern
    rw [if_pos (by omega), if_neg (by omega), show dst + j - (dst + k) = j - k by omega]

/-- The filled bytes are right exactly when the pattern is in phase. -/
theorem fill_iff_inPhase {pattern n : ℕ} (hk : k ≤ n) :
    (∀ j, j < n → byteAt pattern (if j < k then j % 8 else (j - k) % 8) = byteAt pattern (j % 8))
      ↔ InPhase pattern k (n - k) := by
  constructor
  · intro h i hi
    have := h (k + i) (by omega)
    rwa [if_neg (by omega), Nat.add_sub_cancel_left, Nat.mod_eq_of_lt (by omega : i < 8)] at this
  · intro h j hj
    rcases Nat.lt_or_ge j k with hjk | hjk
    · rw [if_pos hjk]
    · rw [if_neg (by omega), h ((j - k) % 8) (by omega)]
      congr 1
      omega

end Fill

/-! ### Pattern comparison -/

/-- From byte `k` on, the buffer first differs from the pattern and from the
pattern restarted at `k` in one and the same byte; and unless `k` is a multiple
of 8, that byte is in the last, incomplete chunk of both the buffer and the
remainder, where offsets are not rounded. -/
def SameMismatch (m : Memory) (pattern src n k : ℕ) : Prop :=
  ∃ f, k ≤ f ∧ f < n
    ∧ differsFromPattern m pattern src f = true
    ∧ differsFromPattern m pattern (src + k) (f - k) = true
    ∧ (∀ j, k ≤ j → j < f → differsFromPattern m pattern src j = false
      ∧ differsFromPattern m pattern (src + k) (j - k) = false)
    ∧ (k % 8 = 0 ∨ (8 * (n / 8) ≤ f ∧ 8 * ((n - k) / 8) ≤ f - k))

section ComparePattern

variable {m₀ m : Memory} {dsc k : ℕ}

theorem dmlRefComparePattern_lt (m : Memory) (src : ℕ) {pattern n : ℕ} (hp : pattern < 2 ^ 64)
    (hn : n < 2 ^ 32) :
    (dmlRefComparePattern m pattern src n).1 ≤ n
      ∧ (dmlRefComparePattern m pattern src n).2 < 2 ^ 8 := by
  rw [dmlRefComparePattern_eq hp hn]
  cases h : Loop.search (differsFromPattern m pattern src) n with
  | none => exact ⟨Nat.zero_le n, (by decide : resultEqual < 2 ^ 8)⟩
  | some f =>
    have hlt := (Loop.search_eq_some.mp h).1
    have hle := chunkStart_le n f
    exact ⟨by simp only; omega, (by decide : resultNotEqual < 2 ^ 8)⟩

/-- The record a software pattern comparison writes. -/
theorem submit_comparePattern {pattern src n : ℕ} (hop : operationOf m dsc = some .comparePattern)
    (hpat : ComparePatternDescriptor.pattern.get m dsc = pattern)
    (hsrc : AnyDescriptor.sourceAddress.get m dsc = src)
    (hn : AnyDescriptor.transferSize.get m dsc = n) :
    AnyCompletionRecord.status.get (SoftwareDevice.submit m dsc).1 (getCompletionRecord m dsc)
        = (Kernels.compareStatus (intersects (AnyDescriptor.flags.get m dsc) Flag.checkResult)
            (ComparePatternDescriptor.expectedResult.get m dsc)
            (dmlRefComparePattern m pattern src n).2).toUnderlying
      ∧ AnyCompletionRecord.result.get (SoftwareDevice.submit m dsc).1 (getCompletionRecord m dsc)
        = (dmlRefComparePattern m pattern src n).2
      ∧ AnyCompletionRecord.bytesCompleted.get (SoftwareDevice.submit m dsc).1
          (getCompletionRecord m dsc) = (dmlRefComparePattern m pattern src n).1 := by
  have hnlt : n < 2 ^ 32 := hn ▸ transferSize_lt m dsc
  have hplt : pattern < 2 ^ 64 := hpat ▸ Field.get_lt _ m dsc
  obtain ⟨hlt1, hlt2⟩ := dmlRefComparePattern_lt m src hplt hnlt
  rw [SoftwareDevice.submit, hop]
  simp only [Kernels.comparePattern, hpat, hsrc, hn]
  exact completeCompare_record m _ _ _ (lt_of_le_of_lt hlt1 hnlt) hlt2

theorem mem_operands_comparePattern (hop : operationOf m₀ dsc = some .comparePattern) :
    ⟨AnyDescriptor.sourceAddress.get m₀ dsc, AnyDescriptor.transferSize.get m₀ dsc⟩
      ∈ operands m₀ dsc := by
  simp [operands, hop]

/-- **The record after waiting for a pattern comparison**: status and result of
the remainder, compared with the pattern from its start, and the sum of the two
offsets. -/
theorem comparePattern_wait (umwait : Bool) (hop : operationOf m₀ dsc = some .comparePattern)
    (hp : Placed m₀ dsc) (hk : k ≤ AnyDescriptor.transferSize.get m₀ dsc)
    (hfault : PageFault m₀ m₀ m dsc k) {rest : ℕ × ℕ}
    (hrest : rest = dmlRefComparePattern m₀ (ComparePatternDescriptor.pattern.get m₀ dsc)
      (AnyDescriptor.sourceAddress.get m₀ dsc + k) (AnyDescriptor.transferSize.get m₀ dsc - k)) :
    ∃ m', Automatic.wait m dsc umwait = some m'
      ∧ AnyCompletionRecord.status.get m' (getCompletionRecord m₀ dsc)
        = (Kernels.compareStatus (intersects (AnyDescriptor.flags.get m₀ dsc) Flag.checkResult)
            (ComparePatternDescriptor.expectedResult.get m₀ dsc) rest.2).toUnderlying
      ∧ AnyCompletionRecord.result.get m' (getCompletionRecord m₀ dsc) = rest.2
      ∧ AnyCompletionRecord.bytesCompleted.get m' (getCompletionRecord m₀ dsc) = rest.1 + k := by
  have hplain : PageFault.Plain .comparePattern := ⟨by simp [AddsBytes], by simp, by simp⟩
  have hreq : k ≤ requested m₀ dsc := by
    rw [requested_of_ne hop (by decide)]
    exact hk
  have hmem := mem_operands_comparePattern hop
  have hfit := hp.fits _ hmem
  simp only at hfit
  set n := AnyDescriptor.transferSize.get m₀ dsc with hn
  set src := AnyDescriptor.sourceAddress.get m₀ dsc with hsrc
  set pattern := ComparePatternDescriptor.pattern.get m₀ dsc with hpat
  have hnlt : n < 2 ^ 32 := transferSize_lt m₀ dsc
  have hplt : pattern < 2 ^ 64 := Field.get_lt _ m₀ dsc
  have hpat₁ : ComparePatternDescriptor.pattern.get (updateForContinuation m dsc) dsc = pattern :=
    hfault.update_kept hp hop (by decide) (by decide)
  have hsrc₁ : AnyDescriptor.sourceAddress.get (updateForContinuation m dsc) dsc = src + k :=
    hfault.update_advanced hp hop (by simp [advancedFields]) (by decide) (by omega)
  have hn₁ : AnyDescriptor.transferSize.get (updateForContinuation m dsc) dsc = n - k :=
    hfault.update_shrunk hp hop (by decide) (by decide) hk
  have hflags : AnyDescriptor.flags.get (updateForContinuation m dsc) dsc
      = AnyDescriptor.flags.get m₀ dsc := hfault.update_kept hp hop (by decide) (by decide)
  have hexp : ComparePatternDescriptor.expectedResult.get (updateForContinuation m dsc) dsc
      = ComparePatternDescriptor.expectedResult.get m₀ dsc :=
    hfault.update_kept hp hop (by decide) (by decide)
  -- the source is as it was: only descriptor and record were written
  have hread : dmlRefComparePattern (updateForContinuation m dsc) pattern (src + k) (n - k)
      = rest := by
    rw [hrest, dmlRefComparePattern_eq hplt (by omega), dmlRefComparePattern_eq hplt (by omega),
      search_differsFromPattern_congr fun i hi => hfault.update_apply hp hmem
        (Region.mem_addrs.mpr ⟨by simp only; omega, by simp only; omega⟩)]
  obtain ⟨hlt1, -⟩ := dmlRefComparePattern_lt m₀ (src + k) (n := n - k) hplt (by omega)
  rw [← hrest] at hlt1
  obtain ⟨hstatus, hresult, hbytes⟩ :=
    submit_comparePattern (hfault.update_operation hp hop) hpat₁ hsrc₁ hn₁
  rw [hread, getCompletionRecord_updateForContinuation, hfault.record hp] at hstatus hresult hbytes
  rw [hflags, hexp] at hstatus
  refine ⟨_, hfault.wait_eq_addAssign hp hop hreq hplain umwait, ?_, ?_, ?_⟩
  · rw [Field.get_addAssign_of_apart (by decide), resumed, hstatus]
  · rw [Field.get_addAssign_of_apart (by decide), resumed, hresult]
  · rw [resumed, Field.get_addAssign_self (by rw [hbytes]; change rest.1 + k < 2 ^ 32; omega),
      hbytes]

end ComparePattern

/-! ### When the two readings agree -/

section Phase

variable {m : Memory} {pattern src n k : ℕ}

/-- In phase, the restarted pattern is the pattern. -/
theorem differsFromPattern_shift (h8 : k % 8 = 0) :
    differsFromPattern m pattern (src + k) = fun i => differsFromPattern m pattern src (k + i) := by
  funext i
  unfold differsFromPattern
  rw [Nat.add_assoc, show (k + i) % 8 = i % 8 by omega]

/-- The first mismatches the two readings find. -/
theorem sameMismatch_iff (hmatch : ∀ i, i < k → differsFromPattern m pattern src i = false) :
    SameMismatch m pattern src n k
      ↔ ∃ f, k ≤ f ∧ Loop.search (differsFromPattern m pattern src) n = some f
        ∧ Loop.search (differsFromPattern m pattern (src + k)) (n - k) = some (f - k)
        ∧ (k % 8 = 0 ∨ (8 * (n / 8) ≤ f ∧ 8 * ((n - k) / 8) ≤ f - k)) := by
  constructor
  · rintro ⟨f, hkf, hfn, hd, hd', hbefore, hphase⟩
    refine ⟨f, hkf, Loop.search_eq_some.mpr ⟨hfn, hd, fun j hj => ?_⟩,
      Loop.search_eq_some.mpr ⟨by omega, hd', fun j hj => ?_⟩, hphase⟩
    · rcases Nat.lt_or_ge j k with hjk | hjk
      · exact hmatch j hjk
      · exact (hbefore j hjk hj).1
    · have := (hbefore (k + j) (by omega) (by omega)).2
      rwa [Nat.add_sub_cancel_left] at this
  · rintro ⟨f, hkf, hf, hg, hphase⟩
    obtain ⟨hfn, hd, hfirst⟩ := Loop.search_eq_some.mp hf
    obtain ⟨-, hd', hfirst'⟩ := Loop.search_eq_some.mp hg
    exact ⟨f, hkf, hfn, hd, hd',
      fun j hjk hjf => ⟨hfirst j hjf, hfirst' (j - k) (by omega)⟩, hphase⟩

/-- Out of phase, two reported offsets coincide only in the incomplete chunk of
both: elsewhere one of them is rounded down to a multiple of 8 and the other is
`k` more than such a multiple. -/
theorem chunkStart_add_eq_iff {f g : ℕ} (h8 : k % 8 ≠ 0) (hf : f < n)
    (hg : g < n - k) :
    chunkStart (n - k) g + k = chunkStart n f
      ↔ g = f - k ∧ k ≤ f ∧ 8 * (n / 8) ≤ f ∧ 8 * ((n - k) / 8) ≤ f - k := by
  unfold chunkStart
  split <;> split <;> omega

/-- **When the pattern comparison merges to the right offset and result.** -/
theorem comparePattern_eq_iff (hp : pattern < 2 ^ 64) (hn : n < 2 ^ 32) (hk : k ≤ n)
    (hmatch : ∀ i, i < k → differsFromPattern m pattern src i = false) :
    ((dmlRefComparePattern m pattern (src + k) (n - k)).2
        = (dmlRefComparePattern m pattern src n).2
      ∧ (dmlRefComparePattern m pattern (src + k) (n - k)).1 + k
        = (dmlRefComparePattern m pattern src n).1)
      ↔ k = 0 ∨ SameMismatch m pattern src n k := by
  rw [dmlRefComparePattern_eq hp hn, dmlRefComparePattern_eq hp (by omega : n - k < 2 ^ 32),
    sameMismatch_iff hmatch]
  by_cases h8 : k % 8 = 0
  · -- in phase: the second mismatch is the first one, `k` bytes earlier
    have hsplit := Loop.search_add hmatch (n - k)
    rw [Nat.add_sub_cancel' hk, ← differsFromPattern_shift h8] at hsplit
    cases hg : Loop.search (differsFromPattern m pattern (src + k)) (n - k) with
    | none =>
      rw [hsplit, hg]
      simp
    | some g =>
      have hlt := (Loop.search_eq_some.mp hg).1
      rw [hsplit, hg]
      simp only [Option.map_some, Option.some.injEq, true_and]
      have hchunk : chunkStart (n - k) g + k = chunkStart n (k + g) := by
        unfold chunkStart
        split <;> split <;> omega
      exact ⟨fun _ => Or.inr ⟨k + g, by omega, rfl, by omega, Or.inl h8⟩, fun _ => hchunk⟩
  · have h0 : k ≠ 0 := by
      intro h0
      rw [h0] at h8
      exact h8 rfl
    -- out of phase the two searches look for different things
    cases hf : Loop.search (differsFromPattern m pattern src) n with
    | none =>
      cases hg : Loop.search (differsFromPattern m pattern (src + k)) (n - k) with
      | none => simp
      | some g => simp [resultNotEqual, resultEqual, h0]
    | some f =>
      cases hg : Loop.search (differsFromPattern m pattern (src + k)) (n - k) with
      | none => simp [resultNotEqual, resultEqual, h0]
      | some g =>
        have hfn := (Loop.search_eq_some.mp hf).1
        have hgn := (Loop.search_eq_some.mp hg).1
        simp only [true_and, Option.some.injEq, h0, false_or, h8]
        rw [chunkStart_add_eq_iff h8 hfn hgn]
        constructor
        · rintro ⟨hgf, hkf, hN, hR⟩
          exact ⟨f, hkf, rfl, hgf, hN, hR⟩
        · rintro ⟨f', hkf, rfl, hgf, hN, hR⟩
          exact ⟨hgf, hkf, hN, hR⟩

end Phase

/-- **When a continued fill and a continued pattern comparison are transparent.**
The fill is right exactly when the pattern is in phase for the remaining bytes;
the comparison exactly when nothing had been done, or both readings of the
pattern report the same mismatch. -/
theorem pattern_continuation_iff (umwait : Bool) {m₀ m : Memory} {dsc k : ℕ} (hp : Placed m₀ dsc)
    (hk : k ≤ AnyDescriptor.transferSize.get m₀ dsc) :
    (operationOf m₀ dsc = some .fill →
      PageFault m₀ (dmlRefFillU64 m₀ (FillDescriptor.pattern.get m₀ dsc)
        (AnyDescriptor.destinationAddress.get m₀ dsc) k) m dsc k →
      ∃ m', Automatic.wait m dsc umwait = some m'
        ∧ ((∀ j, j < AnyDescriptor.transferSize.get m₀ dsc →
            m' (AnyDescriptor.destinationAddress.get m₀ dsc + j)
              = byteAt (FillDescriptor.pattern.get m₀ dsc) (j % 8))
          ↔ InPhase (FillDescriptor.pattern.get m₀ dsc) k
              (AnyDescriptor.transferSize.get m₀ dsc - k)))
    ∧ (operationOf m₀ dsc = some .comparePattern →
      PageFault m₀ m₀ m dsc k →
      (∀ i, i < k → m₀ (AnyDescriptor.sourceAddress.get m₀ dsc + i)
        = byteAt (ComparePatternDescriptor.pattern.get m₀ dsc) (i % 8)) →
      ∃ m', Automatic.wait m dsc umwait = some m'
        ∧ (SameOutcome m' (SoftwareDevice.submit m₀ dsc).1 (getCompletionRecord m₀ dsc)
          ↔ k = 0 ∨ SameMismatch m₀ (ComparePatternDescriptor.pattern.get m₀ dsc)
              (AnyDescriptor.sourceAddress.get m₀ dsc) (AnyDescriptor.transferSize.get m₀ dsc)
              k)) := by
  constructor
  · intro hop hfault
    obtain ⟨m', hwait, hbytes⟩ := fill_wait umwait hop hp hk hfault
    refine ⟨m', hwait, ?_⟩
    rw [← fill_iff_inPhase hk]
    exact ⟨fun h j hj => (hbytes j hj).symm.trans (h j hj),
      fun h j hj => (hbytes j hj).trans (h j hj)⟩
  · intro hop hfault hmatch
    obtain ⟨m', hwait, hstatus, hresult, hbytes⟩ := comparePattern_wait umwait hop hp hk hfault rfl
    refine ⟨m', hwait, ?_⟩
    obtain ⟨hstatus₀, hresult₀, hbytes₀⟩ := submit_comparePattern hop rfl rfl rfl
    have hdiff : ∀ i, i < k → differsFromPattern m₀ (ComparePatternDescriptor.pattern.get m₀ dsc)
        (AnyDescriptor.sourceAddress.get m₀ dsc) i = false := by
      intro i hi
      rw [differsFromPattern, hmatch i hi]
      simp
    rw [SameOutcome, hstatus, hresult, hbytes, hstatus₀, hresult₀, hbytes₀,
      ← comparePattern_eq_iff (Field.get_lt _ m₀ dsc) (transferSize_lt m₀ dsc) hk hdiff]
    -- equal results give equal statuses
    constructor
    · rintro ⟨-, hr, hb⟩
      exact ⟨hr, hb⟩
    · rintro ⟨hr, hb⟩
      exact ⟨by rw [hr], hr, hb⟩

/-- Eight bytes at 160 filled with a pattern. -/
def fillSample (pattern : ℕ) : Memory := rawDescriptor .fill 64 32 pattern 160 8

/-- A buffer of `n` zero bytes at 128, compared with a pattern. -/
def comparePatternSample (pattern n : ℕ) : Memory :=
  rawDescriptor .comparePattern 64 32 128 pattern n

/-- A pattern of equal bytes is in phase everywhere, and a fault at the start of
a pattern comparison does no harm. -/
theorem pattern_continuation_sample :
    (∃ m', Automatic.wait (writeFault (dmlRefFillU64 (fillSample 0x0101010101010101)
        0x0101010101010101 160 3) 32 3) 64 true = some m'
      ∧ ∀ j, j < 8 → m' (160 + j) = byteAt 0x0101010101010101 (j % 8))
    ∧ ∃ m', Automatic.wait (writeFault (comparePatternSample 0 16) 32 0) 64 true = some m'
      ∧ SameOutcome m' (SoftwareDevice.submit (comparePatternSample 0 16) 64).1 32 := by
  constructor
  · have hop : operationOf (fillSample 0x0101010101010101) 64 = some .fill := by decide
    have hp : Placed (fillSample 0x0101010101010101) 64 := by decide
    have hrec : getCompletionRecord (fillSample 0x0101010101010101) 64 = 32 := by decide
    have hdst : AnyDescriptor.destinationAddress.get (fillSample 0x0101010101010101) 64 = 160 := by
      decide
    have hpat : FillDescriptor.pattern.get (fillSample 0x0101010101010101) 64
        = 0x0101010101010101 := by decide
    have hn : AnyDescriptor.transferSize.get (fillSample 0x0101010101010101) 64 = 8 := by
      decide
    have hk : 3 ≤ AnyDescriptor.transferSize.get (fillSample 0x0101010101010101) 64 := by
      rw [hn]; decide
    have hfault := pageFault_writeFault _ _ _ (k := 3) (by decide)
      (fill_kept hop hp hk (FillDescriptor.pattern.get (fillSample 0x0101010101010101) 64))
    obtain ⟨m', hwait, hiff⟩ := (pattern_continuation_iff true hp hk).1 hop hfault
    rw [hrec, hpat, hdst] at hwait
    rw [hpat, hdst, hn] at hiff
    exact ⟨m', hwait, hiff.mpr (by decide)⟩
  · have hop : operationOf (comparePatternSample 0 16) 64 = some .comparePattern := by
      decide
    have hp : Placed (comparePatternSample 0 16) 64 := by decide
    have hrec : getCompletionRecord (comparePatternSample 0 16) 64 = 32 := by decide
    have hfault := pageFault_writeFault (comparePatternSample 0 16)
      (comparePatternSample 0 16) 64 (k := 0) (by decide) fun _ _ => rfl
    rw [hrec] at hfault
    obtain ⟨m', hwait, hiff⟩ := (pattern_continuation_iff true hp (Nat.zero_le _)).2 hop hfault
      fun i hi => absurd hi (Nat.not_lt_zero i)
    rw [hrec] at hiff
    exact ⟨m', hwait, hiff.mpr (Or.inl rfl)⟩

/-- A fault at byte 3 of a fill with the pattern 1, 2, …, 8 leaves byte 3 as 1
instead of 4; and a fault at byte 8 of a pattern comparison that matches to its
end leaves 8 bytes completed instead of 0. -/
theorem pattern_continuation_out_of_phase :
    (validate (fillSample 0x0807060504030201) 64 = .success
      ∧ Placed (fillSample 0x0807060504030201) 64
      ∧ PageFault (fillSample 0x0807060504030201)
          (dmlRefFillU64 (fillSample 0x0807060504030201) 0x0807060504030201 160 3)
          (writeFault (dmlRefFillU64 (fillSample 0x0807060504030201) 0x0807060504030201 160 3) 32 3)
          64 3
      ∧ ∃ m', Automatic.wait (writeFault (dmlRefFillU64 (fillSample 0x0807060504030201)
          0x0807060504030201 160 3) 32 3) 64 true = some m'
        ∧ m' (160 + 3) ≠ byteAt 0x0807060504030201 (3 % 8))
    ∧ validate (comparePatternSample 0 16) 64 = .success ∧ Placed (comparePatternSample 0 16) 64
      ∧ PageFault (comparePatternSample 0 16) (comparePatternSample 0 16)
          (writeFault (comparePatternSample 0 16) 32 8) 64 8
      ∧ (∀ i, i < 8 → comparePatternSample 0 16 (128 + i) = byteAt 0 (i % 8))
      ∧ ∃ m', Automatic.wait (writeFault (comparePatternSample 0 16) 32 8) 64 true = some m'
        ∧ AnyCompletionRecord.bytesCompleted.get m' 32 = 8
        ∧ AnyCompletionRecord.bytesCompleted.get
          (SoftwareDevice.submit (comparePatternSample 0 16) 64).1 32 = 0 := by
  refine ⟨⟨by decide, by decide, ?_⟩, by decide, by decide, ?_⟩
  · have hop : operationOf (fillSample 0x0807060504030201) 64 = some .fill := by decide
    have hp : Placed (fillSample 0x0807060504030201) 64 := by decide
    have hrec : getCompletionRecord (fillSample 0x0807060504030201) 64 = 32 := by decide
    have hdst : AnyDescriptor.destinationAddress.get (fillSample 0x0807060504030201) 64 = 160 := by
      decide
    have hpat : FillDescriptor.pattern.get (fillSample 0x0807060504030201) 64
        = 0x0807060504030201 := by decide
    have hn : AnyDescriptor.transferSize.get (fillSample 0x0807060504030201) 64 = 8 := by
      decide
    have hk : 3 ≤ AnyDescriptor.transferSize.get (fillSample 0x0807060504030201) 64 := by
      rw [hn]; decide
    have hfault := pageFault_writeFault _ _ _ (k := 3) (by decide)
      (fill_kept hop hp hk (FillDescriptor.pattern.get (fillSample 0x0807060504030201) 64))
    obtain ⟨m', hwait, hbytes⟩ := fill_wait true hop hp hk hfault
    have hbyte := hbytes 3 (by rw [hn]; decide)
    rw [hpat, hdst] at hbyte
    rw [hrec, hpat, hdst] at hfault hwait
    refine ⟨hfault, m', hwait, ?_⟩
    rw [hbyte]
    decide
  · have hop : operationOf (comparePatternSample 0 16) 64 = some .comparePattern := by
      decide
    have hp : Placed (comparePatternSample 0 16) 64 := by decide
    have hrec : getCompletionRecord (comparePatternSample 0 16) 64 = 32 := by decide
    have hk : 8 ≤ AnyDescriptor.transferSize.get (comparePatternSample 0 16) 64 := by
      decide
    have hfault := pageFault_writeFault (comparePatternSample 0 16)
      (comparePatternSample 0 16) 64 (k := 8) (by decide) fun _ _ => rfl
    rw [hrec] at hfault
    have hrest : ((0, 0) : ℕ × ℕ) = dmlRefComparePattern (comparePatternSample 0 16)
        (ComparePatternDescriptor.pattern.get (comparePatternSample 0 16) 64)
        (AnyDescriptor.sourceAddress.get (comparePatternSample 0 16) 64 + 8)
        (AnyDescriptor.transferSize.get (comparePatternSample 0 16) 64 - 8) := by decide
    obtain ⟨m', hwait, -, -, hbytes⟩ := comparePattern_wait true hop hp hk hfault hrest
    rw [hrec] at hbytes
    exact ⟨hfault, by decide, m', hwait, hbytes, by decide⟩

end DataMover
