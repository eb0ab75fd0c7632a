import DataMover.Continuation.Wait

/-!
# Continuing a memory move

The hardware may have worked from either end.  Working forward, it has done the
first `k` bytes and both addresses advance; working backward, it has done the last
`k` bytes and only the size shrinks.  In both cases the remainder is a move of its
own, for which the software chooses a direction anew, and by then part of the
source may already be overwritten.  The two parts make up the whole move because
the part done first overwrote no source byte of the other.

## Main results

* `memMove_continuation` — after `wait` the memory is the block move of the
  initial memory.
-/

namespace DataMover

open ByteMemory

/-- The part of the move the hardware has made, from the end the record's result
field tells. -/
def movePart (m : Memory) (src dst n k result : ℕ) : Memory :=
  if result = 0 then move m src dst k else move m (src + (n - k)) (dst + (n - k)) k

/-- The direction the hardware worked in overwrites no source byte it has yet to
read. -/
def DirectionSafe (src dst n result : ℕ) : Prop :=
  if result = 0 then ForwardSafe src dst n else BackwardSafe src dst n

instance (src dst n result : ℕ) : Decidable (DirectionSafe src dst n result) :=
  inferInstanceAs (Decidable (if result = 0 then ForwardSafe src dst n else BackwardSafe src dst n))

section Continuation

variable {m₀ m w : Memory} {dsc k : ℕ}

/-- The memory after the kernel, outside the record. -/
theorem submit_memMove_apply {src dst n x : ℕ} (hop : operationOf m dsc = some .memMove)
    (hsrc : AnyDescriptor.sourceAddress.get m dsc = src)
    (hdst : AnyDescriptor.destinationAddress.get m dsc = dst)
    (hn : AnyDescriptor.transferSize.get m dsc = n)
    (hx : x ∉ Region.addrs ⟨getCompletionRecord m dsc, recordSize⟩) :
    (SoftwareDevice.submit m dsc).1 x = move m src dst n x := by
  have hlt : n < 2 ^ 32 := hn ▸ transferSize_lt m dsc
  rw [SoftwareDevice.submit, hop]
  simp only [Kernels.memMove, hsrc, hdst, hn]
  rw [setStatus_apply hx, dmlRefMemMove_eq _ _ _ hlt]

theorem mem_operands_memMove (hop : operationOf m₀ dsc = some .memMove) :
    ⟨AnyDescriptor.sourceAddress.get m₀ dsc, AnyDescriptor.transferSize.get m₀ dsc⟩
        ∈ operands m₀ dsc
      ∧ ⟨AnyDescriptor.destinationAddress.get m₀ dsc, AnyDescriptor.transferSize.get m₀ dsc⟩
        ∈ operands m₀ dsc := by
  simp [operands, hop]

/-- Either part lies inside the destination. -/
theorem movePart_apply {src dst n result x : ℕ} (hk : k ≤ n) (hx : x ∉ Region.addrs ⟨dst, n⟩) :
    movePart m src dst n k result x = m x := by
  have hx := notMem_addrs.mp hx
  unfold movePart
  split
  · exact move_apply_of_notMem (by omega)
  · exact move_apply_of_notMem (by omega)

/-- The rewritten descriptor asks for what is left, from the end that is left. -/
theorem update_memMove (hop : operationOf m₀ dsc = some .memMove) (hp : Placed m₀ dsc)
    (hk : k ≤ AnyDescriptor.transferSize.get m₀ dsc) (hfault : PageFault m₀ w m dsc k) {d : ℕ}
    (hd : d = if AnyCompletionRecord.result.get m (getCompletionRecord m₀ dsc) = 0 then k else 0) :
    AnyDescriptor.sourceAddress.get (updateForContinuation m dsc) dsc
        = AnyDescriptor.sourceAddress.get m₀ dsc + d
      ∧ AnyDescriptor.destinationAddress.get (updateForContinuation m dsc) dsc
        = AnyDescriptor.destinationAddress.get m₀ dsc + d
      ∧ AnyDescriptor.transferSize.get (updateForContinuation m dsc) dsc
        = AnyDescriptor.transferSize.get m₀ dsc - k := by
  obtain ⟨hsmem, hdmem⟩ := mem_operands_memMove hop
  have hfits := hp.fits _ hsmem
  have hfitd := hp.fits _ hdmem
  simp only at hfits hfitd
  have hsize := hfault.update_shrunk hp hop (f := AnyDescriptor.transferSize) (by decide)
    (by decide) hk
  by_cases h0 : AnyCompletionRecord.result.get m (getCompletionRecord m₀ dsc) = 0
  · rw [if_pos h0] at hd
    subst hd
    refine ⟨hfault.update_advanced hp hop ?_ (by decide) (by omega),
      hfault.update_advanced hp hop ?_ (by decide) (by omega), hsize⟩ <;>
    simp [advancedFields, h0]
  · rw [if_neg h0] at hd
    subst hd
    have hupd : updateForContinuation m dsc
        = shrink AnyDescriptor.transferSize m dsc (getCompletionRecord m₀ dsc) := by
      rw [updateForContinuation, hfault.operation hp hop]
      simp only [updateMemMoveForContinuation, hfault.record hp, if_neg h0]
    refine ⟨?_, ?_, hsize⟩
    · rw [hupd, get_shrink_of_apart (by decide), hfault.get hp (by decide), Nat.add_zero]
    · rw [hupd, get_shrink_of_apart (by decide), hfault.get hp (by decide), Nat.add_zero]

/-- **A memory move stopped by a page fault ends as the whole move**: apart from
the descriptor and the record, the memory is the block move of the initial one. -/
theorem memMove_continuation (umwait : Bool) (hop : operationOf m₀ dsc = some .memMove)
    (hp : Placed m₀ dsc) (hk : k ≤ AnyDescriptor.transferSize.get m₀ dsc)
    (hsafe : DirectionSafe (AnyDescriptor.sourceAddress.get m₀ dsc)
      (AnyDescriptor.destinationAddress.get m₀ dsc) (AnyDescriptor.transferSize.get m₀ dsc)
      (AnyCompletionRecord.result.get m (getCompletionRecord m₀ dsc)))
    (hfault : PageFault m₀ (movePart m₀ (AnyDescriptor.sourceAddress.get m₀ dsc)
      (AnyDescriptor.destinationAddress.get m₀ dsc) (AnyDescriptor.transferSize.get m₀ dsc) k
      (AnyCompletionRecord.result.get m (getCompletionRecord m₀ dsc))) m dsc k) :
    ∃ m', Automatic.wait m dsc umwait = some m'
      ∧ ∀ x, x ∉ Region.addrs ⟨getCompletionRecord m₀ dsc, recordSize⟩ →
        x ∉ Region.addrs ⟨dsc, descriptorSize⟩ →
        m' x = move m₀ (AnyDescriptor.sourceAddress.get m₀ dsc)
          (AnyDescriptor.destinationAddress.get m₀ dsc) (AnyDescriptor.transferSize.get m₀ dsc)
          x := by
  have hplain : PageFault.Plain .memMove := ⟨by simp [AddsBytes], by simp, by simp⟩
  have hreq : k ≤ requested m₀ dsc := by
    rw [requested_of_ne hop (by decide)]
    exact hk
  refine ⟨_, hfault.wait_eq_addAssign hp hop hreq hplain umwait, ?_⟩
  intro x hrec hdsc
  obtain ⟨hsmem, -⟩ := mem_operands_memMove hop
  obtain ⟨hsrc₁, hdst₁, hn₁⟩ := update_memMove hop hp hk hfault rfl
  rw [addAssign_apply_of_notMem hrec (by decide), resumed,
    submit_memMove_apply (hfault.update_operation hp hop) hsrc₁ hdst₁ hn₁
      (by rw [getCompletionRecord_updateForContinuation, hfault.record hp]; exact hrec)]
  set n := AnyDescriptor.transferSize.get m₀ dsc with hn
  set src := AnyDescriptor.sourceAddress.get m₀ dsc with hsrc
  set dst := AnyDescriptor.destinationAddress.get m₀ dsc with hdst
  set r := AnyCompletionRecord.result.get m (getCompletionRecord m₀ dsc) with hr
  -- the remainder reads the memory the hardware left
  have hread : ∀ d, d + (n - k) ≤ n →
      move (updateForContinuation m dsc) (src + d) (dst + d) (n - k) x
        = move (movePart m₀ src dst n k r) (src + d) (dst + d) (n - k) x := by
    intro d hd
    refine move_congr (fun i hi => ?_) (hfault.update_apply_of_notMem hrec hdsc)
    exact hfault.update_apply hp hsmem
      (Region.mem_addrs.mpr ⟨by simp only; omega, by simp only; omega⟩)
  unfold DirectionSafe at hsafe
  by_cases h0 : r = 0
  · -- first part first
    rw [if_pos h0] at hsafe
    rw [if_pos h0, hread k (by omega), movePart, if_pos h0, move_forward m₀
      (by rw [Nat.add_sub_cancel' hk]; exact hsafe), Nat.add_sub_cancel' hk]
  · -- last part first
    rw [if_neg h0] at hsafe
    rw [if_neg h0, hread 0 (by omega), movePart, if_neg h0, Nat.add_zero, Nat.add_zero,
      move_backward m₀ (by rw [Nat.sub_add_cancel hk]; exact hsafe), Nat.sub_add_cancel hk]

end Continuation

/-- Eight bytes from 128 to 132, overlapping; the hardware has moved the last
three of them. -/
theorem memMove_continuation_sample :
    let m₀ := rawDescriptor .memMove 64 32 128 132 8
    let m := AnyCompletionRecord.result.set (writeFault (movePart m₀ 128 132 8 3 1) 32 3) 32 1
    Placed m₀ 64 ∧ DirectionSafe 128 132 8 1
      ∧ ∃ m', Automatic.wait m 64 false = some m'
        ∧ ∀ x, x ∉ Region.addrs ⟨32, recordSize⟩ → x ∉ Region.addrs ⟨64, descriptorSize⟩ →
          m' x = move m₀ 128 132 8 x := by
  intro m₀ m
  have hop : operationOf m₀ 64 = some .memMove := by decide
  have hp : Placed m₀ 64 := by decide
  have hrec : getCompletionRecord m₀ 64 = 32 := by decide
  have hsrc : AnyDescriptor.sourceAddress.get m₀ 64 = 128 := by decide
  have hdst : AnyDescriptor.destinationAddress.get m₀ 64 = 132 := by decide
  have hn : AnyDescriptor.transferSize.get m₀ 64 = 8 := by decide
  have hsafe : DirectionSafe 128 132 8 1 := by decide
  have hresult : AnyCompletionRecord.result.get m 32 = 1 :=
    Field.get_set_self_of_lt _ _ (by decide)
  have hkept : Set.EqOn (movePart m₀ 128 132 8 3 1) m₀ (Region.addrs ⟨64, descriptorSize⟩) :=
    fun x hx => movePart_apply (by decide)
      (Region.Apart.notMem (A := ⟨64, descriptorSize⟩) (by decide) hx)
  have hfault : PageFault m₀ (movePart m₀ 128 132 8 3 1) m 64 3 :=
    (pageFault_writeFault _ _ _ (k := 3) (by decide) hkept).set (g := AnyCompletionRecord.result)
      (by decide) (by decide) (by decide) 1
  obtain ⟨m', hwait, heq⟩ := memMove_continuation (k := 3) false hop
    hp (by rw [hn]; decide) (by rw [hsrc, hdst, hn, hrec, hresult]; exact hsafe)
    (by rw [hsrc, hdst, hn, hrec, hresult]; exact hfault)
  rw [hsrc, hdst, hn, hrec] at heq
  exact ⟨hp, hsafe, m', hwait, heq⟩

end DataMover
