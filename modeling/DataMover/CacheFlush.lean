import DataMover.Kernels
import DataMover.Lib.CacheLine

/-!
# The cache flush

The kernel `cache_flush` (`cache_flush.cpp`) and the loops it calls
(`sw_dispatcher/cache_flush/cache_flush.c`).  Memory keeps its contents, so what the kernel does
shows in the instructions it issues, and in the lines of the caches they leave.

The loops make `transfer_size / 64` steps of 64 bytes from the destination on: they cover the
range when it begins and ends at the border of a line, and miss its last line else.  The kernel
evicts the lines when the cache control flag is set and writes them back when it is clear, which
is the documented effect of that flag the other way round.

## Main definitions

* `forEachLine` — the loop; `runCacheFlush` — the kernel with the instructions it issues.
* `CoversRange`, `HasDocumentedEffect` — what the documentation of the operation asks for.

## Main results

* `runCacheFlush_memory` — memory is left as the kernel without the instructions leaves it.
* `cacheAfter_runCacheFlush` — the state of every line after the kernel.
* `coversRange_iff`, `hasDocumentedEffect_iff` — when each half of the documentation is met.
-/

namespace DataMover

open ByteMemory CacheLine

/-! ### The loops -/

/-- `cache_line_size`. -/
def cacheLineSize : ℕ := 64

/-- The line that holds an address. -/
def lineOf (address : ℕ) : ℕ := address / cacheLineSize

/-- The loop that `dml_clflushopt`, `dml_clflush` and `dml_clwb` share, between its fences. -/
def forEachLine (instruction : ℕ → Instruction ℕ) (dst transferSize : ℕ) :
    List (Instruction ℕ) :=
  let cacheLineCount := transferSize / cacheLineSize
  .mfence :: (List.range cacheLineCount).map
    (fun cacheLineIndex => instruction ((dst + cacheLineSize * cacheLineIndex) % 2 ^ 64))
    ++ [.mfence]

namespace Issued

def dmlClflushopt (dst transferSize : ℕ) : List (Instruction ℕ) :=
  forEachLine .clflushopt dst transferSize

def dmlClflush (dst transferSize : ℕ) : List (Instruction ℕ) :=
  forEachLine .clflush dst transferSize

def dmlClwb (dst transferSize : ℕ) : List (Instruction ℕ) :=
  forEachLine .clwb dst transferSize

def dmlClwbUnsupported (_dst _transferSize : ℕ) : List (Instruction ℕ) := []

end Issued

/-! ### The dispatcher and the kernel -/

/-- The features of the processor that the dispatcher asks for. -/
structure CacheFeatures where
  clflushopt : Bool
  clwb : Bool
  deriving DecidableEq, Repr

/-- `dispatch::cache_flush`. -/
def dispatchCacheFlush (cpu : CacheFeatures) (dst transferSize : ℕ) : List (Instruction ℕ) :=
  if cpu.clflushopt then Issued.dmlClflushopt dst transferSize
  else Issued.dmlClflush dst transferSize

/-- `dispatch::cache_write_back`. -/
def dispatchCacheWriteBack (cpu : CacheFeatures) (dst transferSize : ℕ) : List (Instruction ℕ) :=
  if cpu.clwb then Issued.dmlClwb dst transferSize
  else Issued.dmlClwbUnsupported dst transferSize

/-- `intersects(dsc.flags(), cache_flush_flag::cache_control)`; the same bit is
`DML_FLAG_DONT_INVALIDATE_CACHE`. -/
def cacheControl (m : Memory) (dsc : ℕ) : Bool :=
  intersects (AnyDescriptor.flags.get m dsc) Flag.cacheControl

/-- The kernel `cache_flush`: the memory it leaves and the instructions it issues. -/
def runCacheFlush (cpu : CacheFeatures) (m : Memory) (dsc : ℕ) :
    Memory × List (Instruction ℕ) :=
  let record := getCompletionRecord m dsc
  let dst := AnyDescriptor.destinationAddress.get m dsc
  let transferSize := AnyDescriptor.transferSize.get m dsc
  let invalidateCache := cacheControl m dsc
  let issued := if invalidateCache then dispatchCacheFlush cpu dst transferSize
    else dispatchCacheWriteBack cpu dst transferSize
  (Kernels.setStatus m record .success, issued ++ [.mfence])

/-- **The memory** is what the kernel of the batch and of the dispatch leaves. -/
theorem runCacheFlush_memory (cpu : CacheFeatures) (m : Memory) (dsc : ℕ) :
    (runCacheFlush cpu m dsc).1 = Kernels.cacheFlush m dsc := by
  rw [runCacheFlush, Kernels.cacheFlush, Kernels.dmlClflush, Kernels.dmlClwbUnsupported, ite_self]

/-! ### The instructions issued -/

section Issue

variable {cpu : CacheFeatures} {m : Memory} {dsc dst n : ℕ} {e : Instruction ℕ}

theorem mem_forEachLine {instruction : ℕ → Instruction ℕ} :
    e ∈ forEachLine instruction dst n ↔
      e = .mfence ∨ ∃ k, k < n / 64 ∧ instruction ((dst + 64 * k) % 2 ^ 64) = e := by
  simp only [forEachLine, cacheLineSize, List.mem_append, List.mem_cons, List.mem_map,
    List.mem_range, List.not_mem_nil, or_false]
  rw [or_right_comm, or_self]

/-- The instructions of the kernel issue for the lines, of one kind. -/
def flushInstruction (cpu : CacheFeatures) (m : Memory) (dsc : ℕ) : ℕ → Instruction ℕ :=
  if cacheControl m dsc then if cpu.clflushopt then .clflushopt else .clflush else .clwb

/-- Whether the kernel issues anything for the lines: a processor without `clwb` has no
instruction to write them back. -/
def flushesLines (cpu : CacheFeatures) (m : Memory) (dsc : ℕ) : Bool :=
  cacheControl m dsc || cpu.clwb

/-- **What the kernel issues**: fences, and one instruction for each step of the loop. -/
theorem mem_runCacheFlush :
    e ∈ (runCacheFlush cpu m dsc).2 ↔ e = .mfence ∨ (flushesLines cpu m dsc = true ∧
      ∃ k, k < AnyDescriptor.transferSize.get m dsc / 64 ∧
        flushInstruction cpu m dsc
          ((AnyDescriptor.destinationAddress.get m dsc + 64 * k) % 2 ^ 64) = e) := by
  simp only [runCacheFlush, List.mem_append, List.mem_singleton, flushesLines, flushInstruction]
  cases cacheControl m dsc with
  | true =>
    cases hopt : cpu.clflushopt <;>
      simp only [if_true, dispatchCacheFlush, hopt, Issued.dmlClflush, Issued.dmlClflushopt,
        mem_forEachLine, Bool.true_or, true_and, Bool.false_eq_true, if_false] <;>
      rw [or_right_comm, or_self]
  | false =>
    cases hclwb : cpu.clwb with
    | true =>
      simp only [Bool.false_eq_true, if_false, if_true, dispatchCacheWriteBack, hclwb,
        Issued.dmlClwb, mem_forEachLine, Bool.false_or, true_and]
      rw [or_right_comm, or_self]
    | false =>
      simp only [Bool.false_eq_true, if_false, dispatchCacheWriteBack, hclwb,
        Issued.dmlClwbUnsupported, List.not_mem_nil, Bool.false_or, false_and, or_false, false_or]

/-- An instruction for a line names the address it was made of. -/
@[simp] theorem address_flushInstruction (a : ℕ) :
    (flushInstruction cpu m dsc a).address = some a := by
  unfold flushInstruction
  split
  · split <;> rfl
  · rfl

/-- The effect of the instructions: the lines are evicted when the flag is set. -/
theorem effect_flushInstruction (a : ℕ) : (flushInstruction cpu m dsc a).effect =
    if cacheControl m dsc then LineState.evicted else LineState.writtenBack := by
  unfold flushInstruction
  split
  · split <;> rfl
  · rfl

/-- The lines for which the kernel issues an instruction. -/
theorem reaches_runCacheFlush {x : ℕ} :
    Reaches lineOf (runCacheFlush cpu m dsc).2 x ↔ flushesLines cpu m dsc = true ∧
      ∃ k, k < AnyDescriptor.transferSize.get m dsc / 64 ∧
        lineOf ((AnyDescriptor.destinationAddress.get m dsc + 64 * k) % 2 ^ 64) = x := by
  constructor
  · rintro ⟨e, he, a, ha, hx⟩
    rcases mem_runCacheFlush.mp he with rfl | ⟨hflush, k, hk, rfl⟩
    · cases ha
    · rw [address_flushInstruction, Option.some.injEq] at ha
      exact ⟨hflush, k, hk, by rw [ha, hx]⟩
  · rintro ⟨hflush, k, hk, hx⟩
    exact ⟨_, mem_runCacheFlush.mpr (Or.inr ⟨hflush, k, hk, rfl⟩), _,
      address_flushInstruction _, hx⟩

/-- **The lines of the caches after the kernel.** -/
theorem cacheAfter_runCacheFlush (cache : ℕ → LineState) (x : ℕ)
    [Decidable (Reaches lineOf (runCacheFlush cpu m dsc).2 x)] :
    run lineOf cache (runCacheFlush cpu m dsc).2 x =
      if Reaches lineOf (runCacheFlush cpu m dsc).2 x then
        if cacheControl m dsc then .absent else (cache x).writtenBack
      else cache x := by
  have heffect : ∀ e ∈ (runCacheFlush cpu m dsc).2, ∀ a, e.address = some a →
      e.effect = if cacheControl m dsc then LineState.evicted else LineState.writtenBack := by
    intro e he a ha
    rcases mem_runCacheFlush.mp he with rfl | ⟨-, k, -, rfl⟩
    · cases ha
    · exact effect_flushInstruction _
  split
  · next hreach =>
    cases hflag : cacheControl m dsc <;> rw [hflag] at heffect
    · exact run_of_reaches LineState.writtenBack_writtenBack heffect hreach
    · exact @run_of_reaches _ _ _ _ _ _ _ LineState.evicted (fun _ => rfl) heffect hreach
  · next hnot => exact run_of_not_reaches hnot

end Issue

/-! ### What the documentation asks for -/

/-- Every line with a byte of the `n` bytes from `dst` on has its instruction. -/
def CoversRange (issued : List (Instruction ℕ)) (dst n : ℕ) : Prop :=
  ∀ i, i < n → Reaches lineOf issued (lineOf ((dst + i) % 2 ^ 64))

/-- The lines are invalidated when the flag is clear, and only written back when it is set. -/
def HasDocumentedEffect (issued : List (Instruction ℕ)) (dontInvalidateCache : Bool) : Prop :=
  ∀ e ∈ issued, ∀ a, e.address = some a →
    e.effect = if dontInvalidateCache then LineState.writtenBack else LineState.evicted

section Documented

variable (cpu : CacheFeatures) (m : Memory) (dsc : ℕ)

/-- **When the whole range is covered**: it begins and ends at the border of a line, and there
is an instruction to issue. -/
theorem coversRange_iff (hsize : AnyDescriptor.transferSize.get m dsc ≠ 0) :
    CoversRange (runCacheFlush cpu m dsc).2 (AnyDescriptor.destinationAddress.get m dsc)
        (AnyDescriptor.transferSize.get m dsc)
      ↔ 64 ∣ AnyDescriptor.destinationAddress.get m dsc ∧
        64 ∣ AnyDescriptor.transferSize.get m dsc ∧ flushesLines cpu m dsc = true := by
  have hdst : AnyDescriptor.destinationAddress.get m dsc < 2 ^ 64 :=
    Field.get_lt AnyDescriptor.destinationAddress m dsc
  have hn : AnyDescriptor.transferSize.get m dsc < 2 ^ 32 :=
    Field.get_lt AnyDescriptor.transferSize m dsc
  simp only [CoversRange, reaches_runCacheFlush, lineOf, cacheLineSize]
  constructor
  · -- the line of the last byte is among the steps only when there is no rest
    intro hcovers
    obtain ⟨hflush, k, hk, hline⟩ := hcovers (AnyDescriptor.transferSize.get m dsc - 1) (by omega)
    exact ⟨by omega, by omega, hflush⟩
  · rintro ⟨hd, hs, hflush⟩ i hi
    exact ⟨hflush, i / 64, by omega, by omega⟩

/-- **When the effect is the documented one**: only where the kernel issues nothing at all. -/
theorem hasDocumentedEffect_iff :
    HasDocumentedEffect (runCacheFlush cpu m dsc).2 (cacheControl m dsc)
      ↔ AnyDescriptor.transferSize.get m dsc < 64 ∨ flushesLines cpu m dsc = false := by
  constructor
  · intro heffect
    by_contra hnot
    push Not at hnot
    obtain ⟨hsize, hflush⟩ := hnot
    -- the instruction of the first step
    have hfirst := heffect _ (mem_runCacheFlush.mpr
      (Or.inr ⟨Bool.eq_true_of_not_eq_false hflush, 0, by omega, rfl⟩)) _
      (address_flushInstruction _)
    rw [effect_flushInstruction] at hfirst
    have hmodified := congrFun hfirst .modified
    cases hflag : cacheControl m dsc <;> rw [hflag] at hmodified <;> cases hmodified
  · intro hnone e he a ha
    rcases mem_runCacheFlush.mp he with rfl | ⟨hflush, k, hk, -⟩
    · cases ha
    · rcases hnone with hsize | hnone
      · omega
      · rw [hnone] at hflush
        cases hflush

/-- **The kernel never does what is documented**: when each half is met, and that they are
never met together. -/
theorem cacheFlush_documented_never (hsize : AnyDescriptor.transferSize.get m dsc ≠ 0) :
    (CoversRange (runCacheFlush cpu m dsc).2 (AnyDescriptor.destinationAddress.get m dsc)
        (AnyDescriptor.transferSize.get m dsc)
      ↔ 64 ∣ AnyDescriptor.destinationAddress.get m dsc ∧
        64 ∣ AnyDescriptor.transferSize.get m dsc ∧ flushesLines cpu m dsc = true) ∧
    (HasDocumentedEffect (runCacheFlush cpu m dsc).2 (cacheControl m dsc)
      ↔ AnyDescriptor.transferSize.get m dsc < 64 ∨ flushesLines cpu m dsc = false) ∧
    ¬(CoversRange (runCacheFlush cpu m dsc).2 (AnyDescriptor.destinationAddress.get m dsc)
        (AnyDescriptor.transferSize.get m dsc) ∧
      HasDocumentedEffect (runCacheFlush cpu m dsc).2 (cacheControl m dsc)) := by
  refine ⟨coversRange_iff cpu m dsc hsize, hasDocumentedEffect_iff cpu m dsc, ?_⟩
  rintro ⟨hcovers, heffect⟩
  obtain ⟨-, hlines, hflush⟩ := (coversRange_iff cpu m dsc hsize).mp hcovers
  rcases (hasDocumentedEffect_iff cpu m dsc).mp heffect with hsmall | hnone
  · omega
  · rw [hflush] at hnone
    cases hnone

end Documented

/-- A cache flush of `n` bytes at `dst`, with its record at 64. -/
def flushOfBytes (dst n flags : ℕ) : Memory :=
  AnyDescriptor.flags.set (rawDescriptor .cacheFlush 0 64 0 dst n) 0 flags

/-- A page, with the flag clear. -/
theorem cacheFlush_documented_never_page :
    ¬(CoversRange (runCacheFlush ⟨true, true⟩ (flushOfBytes 0x1000 4096 0) 0).2
        (AnyDescriptor.destinationAddress.get (flushOfBytes 0x1000 4096 0) 0)
        (AnyDescriptor.transferSize.get (flushOfBytes 0x1000 4096 0) 0) ∧
      HasDocumentedEffect (runCacheFlush ⟨true, true⟩ (flushOfBytes 0x1000 4096 0) 0).2
        (cacheControl (flushOfBytes 0x1000 4096 0) 0)) :=
  (cacheFlush_documented_never ⟨true, true⟩ (flushOfBytes 0x1000 4096 0) 0 (by decide)).2.2

/-- One line with the flag clear is only written back; of 100 bytes with the flag set, the
second line has no instruction. -/
theorem cacheFlush_keeps_line_misses_line :
    ((runCacheFlush ⟨true, true⟩ (flushOfBytes 0x1000 64 0) 0).2
        = [.mfence, .clwb 0x1000, .mfence, .mfence] ∧
      ¬HasDocumentedEffect (runCacheFlush ⟨true, true⟩ (flushOfBytes 0x1000 64 0) 0).2
        (cacheControl (flushOfBytes 0x1000 64 0) 0)) ∧
    ((runCacheFlush ⟨true, true⟩ (flushOfBytes 0x1000 100 0x100) 0).2
        = [.mfence, .clflushopt 0x1000, .mfence, .mfence] ∧
      ¬CoversRange (runCacheFlush ⟨true, true⟩ (flushOfBytes 0x1000 100 0x100) 0).2
        0x1000 100) := by
  have hkept : (runCacheFlush ⟨true, true⟩ (flushOfBytes 0x1000 64 0) 0).2
      = [.mfence, .clwb 0x1000, .mfence, .mfence] := by decide
  have hmissed : (runCacheFlush ⟨true, true⟩ (flushOfBytes 0x1000 100 0x100) 0).2
      = [.mfence, .clflushopt 0x1000, .mfence, .mfence] := by decide
  refine ⟨⟨hkept, ?_⟩, hmissed, ?_⟩
  · have hclear : cacheControl (flushOfBytes 0x1000 64 0) 0 = false := by decide
    rw [hkept, hclear]
    intro heffect
    have hline := heffect (.clwb 0x1000) (by decide) 0x1000 rfl
    exact absurd (congrFun hline .modified) (by decide)
  · rw [hmissed]
    intro hcovers
    -- byte 64 is the first of the second line
    obtain ⟨e, he, a, ha, hline⟩ := hcovers 64 (by decide)
    simp only [List.mem_cons, List.not_mem_nil, or_false] at he
    rcases he with rfl | rfl | rfl | rfl
    · cases ha
    · cases ha
      exact absurd hline (by decide)
    · cases ha
    · cases ha

end DataMover
