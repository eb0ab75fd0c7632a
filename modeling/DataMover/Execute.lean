import DataMover.Completes
import DataMover.Continuation.MemMove
import DataMover.Continuation.Pattern
import DataMover.JobApi
import DataMover.Sequence

/-!
# Executing an operation on views

`dml::execute` on the software path (`hl/execute.hpp`, `hl/detail/execute.hpp`) over views that
`make_view` builds from a pointer and a number of elements (`hl/data_view.hpp`).

The number of elements and the product with their size are of 64 bits, the size of a view of
32.  What does not fit is cut off, of the source and of the destination alike, so that the
check of their sizes does not notice: the operation then handles the beginning of the ranges
and reports success.

## Main definitions

* `makeView` — a view of `length` elements.
* `execute`, `executeMemMove`, `executeFill` — the calls.
* `RejectedOr` — an error, or a memory with a property.

## Main results

* `executeMemMove_cases`, `executeFill_cases` — what a call answers and leaves.
* `movedOrRejected_iff`, `filledOrRejected_iff` — when the whole range is handled.
-/

namespace DataMover

open ByteMemory

/-! ### Views -/

/-- `make_view(data_ptr, length)` for elements of `elementSize` bytes: the product has 64 bits,
`dml::size_t` has 32. -/
def makeView (elementSize : BitVec 64) (data length : BitVec 64) : DataView where
  data := data
  size := (length * elementSize).setWidth 32

/-- The bytes of `length` elements. -/
def byteCount (elementSize length : BitVec 64) : ℕ := length.toNat * elementSize.toNat

/-- **The size of a view** is what is left of the number of bytes in 32 bits. -/
theorem toNat_size_makeView (elementSize data length : BitVec 64) :
    (makeView elementSize data length).size.toNat = byteCount elementSize length % 2 ^ 32 := by
  rw [makeView, BitVec.toNat_setWidth, BitVec.toNat_mul, byteCount]
  exact Nat.mod_mod_of_dvd _ (by decide)

/-! ### The calls -/

/-- `task(dsc)`: the descriptor and a record of zeros, tied together. -/
def constructTask (m : Memory) (dsc record : ℕ) (args : DescriptorArgs) : Memory :=
  assignTask m dsc record args.make

/-- `detail::execute<software>`, with the descriptor and the record of the task at `dsc` and
`record`; a wait that does not return has no result. -/
def execute (dsc record : ℕ) (m : Memory) (rangeCheck : StatusCode) (args : DescriptorArgs) :
    Option (Memory × StatusCode) :=
  if rangeCheck ≠ .ok then some (m, rangeCheck)
  else
    let m := constructTask m dsc record args
    let validationStatus := Software.validate m dsc
    if validationStatus ≠ .success then some (m, validationStatus.toOwn)
    else
      let (m, submissionStatus) := Software.submit m dsc
      if submissionStatus ≠ .success then some (m, .error)
      else do
        let m ← Software.wait m dsc false
        return (m, ExecutionStatus.toOwn (getStatus m record))

/-- `execute<software>(mem_move, src, dst)`. -/
def executeMemMove (dsc record : ℕ) (m : Memory) (srcView dstView : DataView)
    (options : BitVec 16) : Option (Memory × StatusCode) :=
  let rangeCheck := if srcView.size ≠ dstView.size then .inconsistentSize else .ok
  execute dsc record m rangeCheck (.memMove srcView.data dstView.data srcView.size options)

/-- `execute<software>(fill, pattern, dst)`. -/
def executeFill (dsc record : ℕ) (m : Memory) (pattern : BitVec 64) (dstView : DataView)
    (options : BitVec 16) : Option (Memory × StatusCode) :=
  execute dsc record m .ok (.fill pattern dstView.data dstView.size options)

/-! ### The task of a call -/

section Task

variable {m : Memory} {dsc record : ℕ} {args : DescriptorArgs}

/-- Where the task of a call is: its descriptor and its record are apart. -/
structure TaskPlaced (dsc record : ℕ) : Prop where
  apart : Region.Apart ⟨dsc, descriptorSize⟩ ⟨record, recordSize⟩
  fits : record < 2 ^ 64

/-- A buffer of the caller, apart from the task. -/
structure ApartFromTask (dsc record : ℕ) (R : Region) : Prop where
  descriptor : R.Apart ⟨dsc, descriptorSize⟩
  record : R.Apart ⟨record, recordSize⟩

/-- The memory of the caller is as it was when the task is made. -/
theorem constructTask_apply {R : Region} (hR : ApartFromTask dsc record R) {x : ℕ}
    (hx : x ∈ R.addrs) : constructTask m dsc record args x = m x :=
  assignTask_apply (hR.descriptor.notMem hx) (hR.record.notMem hx)

/-- A field that is not the flags or the record address is the one the arguments gave. -/
theorem get_constructTask (hp : TaskPlaced dsc record) {f : Field}
    (hwithin : f.Within descriptorSize) (hflags : f.Apart AnyDescriptor.flags)
    (hrecord : f.Apart AnyDescriptor.completionRecordAddress) :
    f.get (constructTask m dsc record args) dsc = f.get args.make 0 := by
  have hholds : HoldsDescriptor (constructTask m dsc record args) dsc (rebind args.make 0 record) :=
    holdsDescriptor_assign hp.apart
  rw [hholds.get hwithin, get_rebind hflags hrecord]

/-- A field that the view of the arguments shows. -/
theorem get_constructTask_of_readBits (hp : TaskPlaced dsc record) {f : Field} {w : ℕ}
    {v : BitVec w} (hw : 8 * f.width = w) (h : readBits args.make 0 f w = v)
    (hwithin : f.Within descriptorSize) (hflags : f.Apart AnyDescriptor.flags)
    (hrecord : f.Apart AnyDescriptor.completionRecordAddress) :
    f.get (constructTask m dsc record args) dsc = v.toNat := by
  rw [get_constructTask hp hwithin hflags hrecord]
  exact get_of_readBits hw h

theorem operationOf_constructTask (hp : TaskPlaced dsc record) :
    operationOf (constructTask m dsc record args) dsc = some args.operation := by
  rw [← operationOf_make args, operationOf, operationOf,
    get_constructTask hp (by decide) (by decide) (by decide)]

theorem getCompletionRecord_constructTask (hp : TaskPlaced dsc record) :
    getCompletionRecord (constructTask m dsc record args) dsc = record := by
  have hholds : HoldsDescriptor (constructTask m dsc record args) dsc (rebind args.make 0 record) :=
    holdsDescriptor_assign hp.apart
  rw [getCompletionRecord, hholds.get (by decide), completionRecordAddress_rebind hp.fits]

/-- **An accepted call**: when the kernel ends with the status `success` and leaves the
descriptor alone, the call ends with `ok` and leaves what the kernel left. -/
theorem execute_of_valid
    (hvalid : validate (constructTask m dsc record args) dsc = .success)
    (hsubmit : ∃ t, (SoftwareDevice.submit (constructTask m dsc record args) dsc).1
      = Kernels.setStatus t record .success)
    (hkept : Set.EqOn (SoftwareDevice.submit (constructTask m dsc record args) dsc).1
      (constructTask m dsc record args) (Region.addrs ⟨dsc, descriptorSize⟩)) :
    execute dsc record m .ok args
      = some ((SoftwareDevice.submit (constructTask m dsc record args) dsc).1, .ok) := by
  have hrecord : getCompletionRecord
      (SoftwareDevice.submit (constructTask m dsc record args) dsc).1 dsc
      = getCompletionRecord (constructTask m dsc record args) dsc :=
    @Field.get_congr _ descriptorSize (by decide) _ _ _ hkept
  have hknown := validate_none hvalid
  have hdone := submit_of_ne_none hknown
  have hwait := wait_submit hknown hrecord false
  have hstatus : getStatus (SoftwareDevice.submit (constructTask m dsc record args) dsc).1 record
      = some .success := by
    obtain ⟨t, ht⟩ := hsubmit
    rw [ht, getStatus, status_setStatus]
    rfl
  rw [execute, if_neg (by simp)]
  simp only [Software.validate, hvalid, ne_eq, not_true_eq_false, if_false, Software.submit, hdone,
    hwait, Option.bind_eq_bind, Option.bind_some, hstatus]
  rfl

/-- A call that validation rejects. -/
theorem execute_of_invalid
    (hvalid : validate (constructTask m dsc record args) dsc ≠ .success) :
    execute dsc record m .ok args = some (constructTask m dsc record args,
      (validate (constructTask m dsc record args) dsc).toOwn) := by
  rw [execute, if_neg (by simp)]
  exact if_pos hvalid

/-- **A call whose views have one size**: an error when `null`, else `ok` and what the kernel
left, which is `f` outside of the record. -/
theorem execute_cases (hp : TaskPlaced dsc record) {null : Prop} {f : Memory}
    (hvalid : validate (constructTask m dsc record args) dsc = .success ↔ ¬null)
    (hsubmit : ∃ t, (SoftwareDevice.submit (constructTask m dsc record args) dsc).1
      = Kernels.setStatus t record .success)
    (happly : ∀ x, x ∉ Region.addrs ⟨record, recordSize⟩ →
      (SoftwareDevice.submit (constructTask m dsc record args) dsc).1 x = f x)
    (hkept : Set.EqOn f (constructTask m dsc record args)
      (Region.addrs ⟨dsc, descriptorSize⟩)) :
    (null ∧ ∃ m' status, execute dsc record m .ok args = some (m', status) ∧ status ≠ .ok) ∨
      (¬null ∧ ∃ m', execute dsc record m .ok args = some (m', .ok)
        ∧ ∀ x, x ∉ Region.addrs ⟨record, recordSize⟩ → m' x = f x) := by
  by_cases hok : validate (constructTask m dsc record args) dsc = .success
  · right
    have hdescriptor : Set.EqOn
        (SoftwareDevice.submit (constructTask m dsc record args) dsc).1
        (constructTask m dsc record args) (Region.addrs ⟨dsc, descriptorSize⟩) := by
      intro x hx
      rw [happly x (hp.apart.notMem hx)]
      exact hkept hx
    exact ⟨hvalid.mp hok, _, execute_of_valid hok hsubmit hdescriptor, happly⟩
  · left
    refine ⟨?_, _, _, execute_of_invalid hok, fun h => hok (ValidationStatus.toOwn_eq_ok.mp h)⟩
    by_contra hnull
    exact hok (hvalid.mpr hnull)

end Task

/-! ### Moves -/

section Move

variable {m : Memory} {dsc record : ℕ}

/-- The fields of the task of a move. -/
theorem get_constructTask_memMove (m : Memory) (hp : TaskPlaced dsc record) (src dst : BitVec 64)
    (size : BitVec 32) (options : BitVec 16) :
    AnyDescriptor.sourceAddress.get
        (constructTask m dsc record (.memMove src dst size options)) dsc = src.toNat
      ∧ AnyDescriptor.destinationAddress.get
        (constructTask m dsc record (.memMove src dst size options)) dsc = dst.toNat
      ∧ AnyDescriptor.transferSize.get
        (constructTask m dsc record (.memMove src dst size options)) dsc = size.toNat := by
  have hview := viewDescriptor_make (.memMove src dst size options)
  simp only [viewDescriptor, operationOf_make, DescriptorArgs.operation, Option.some.injEq,
    DescriptorArgs.memMove.injEq] at hview
  obtain ⟨hsrc, hdst, hsize, -⟩ := hview
  refine ⟨?_, ?_, ?_⟩
  · exact get_constructTask_of_readBits hp rfl hsrc (by decide) (by decide) (by decide)
  · exact get_constructTask_of_readBits hp rfl hdst (by decide) (by decide) (by decide)
  · exact get_constructTask_of_readBits hp rfl hsize (by decide) (by decide) (by decide)

/-- The validation of a move. -/
theorem validate_memMove_iff {m : Memory} (hop : operationOf m dsc = some .memMove) :
    validate m dsc = .success ↔ AnyDescriptor.sourceAddress.get m dsc ≠ 0
      ∧ AnyDescriptor.destinationAddress.get m dsc ≠ 0
      ∧ AnyDescriptor.transferSize.get m dsc ≠ 0 := by
  rw [validate, hop]
  simp (disch := decide) only [Validate.memMove, ite_eq_success_iff, anyEqualZero_pair,
    anyEqualZero_one]
  tauto

/-- **A move over views of one size**: an error for a null pointer or an empty view, else the
bytes of the view are moved. -/
theorem executeMemMove_cases (hp : TaskPlaced dsc record) (src dst : BitVec 64)
    (size : BitVec 32) (options : BitVec 16)
    (hdst : ApartFromTask dsc record ⟨dst.toNat, size.toNat⟩) :
    ((src = 0#64 ∨ dst = 0#64 ∨ size = 0#32) ∧
        ∃ m' status, executeMemMove dsc record m ⟨src, size⟩ ⟨dst, size⟩ options = some (m', status)
          ∧ status ≠ .ok) ∨
      (¬(src = 0#64 ∨ dst = 0#64 ∨ size = 0#32) ∧
        ∃ m', executeMemMove dsc record m ⟨src, size⟩ ⟨dst, size⟩ options = some (m', .ok)
          ∧ ∀ x, x ∉ Region.addrs ⟨record, recordSize⟩ →
            m' x = move (constructTask m dsc record (.memMove src dst size options)) src.toNat
              dst.toNat size.toNat x) := by
  have hop : operationOf (constructTask m dsc record (.memMove src dst size options)) dsc
      = some .memMove := operationOf_constructTask hp
  obtain ⟨hsource, hdestination, hsize⟩ := get_constructTask_memMove m hp src dst size options
  have hrecord := @getCompletionRecord_constructTask m dsc record
    (.memMove src dst size options) hp
  have hcall : executeMemMove dsc record m ⟨src, size⟩ ⟨dst, size⟩ options
      = execute dsc record m .ok (.memMove src dst size options) := by
    simp [executeMemMove]
  rw [hcall]
  refine execute_cases hp ?_ ?_ ?_ ?_
  · rw [validate_memMove_iff hop, hsource, hdestination, hsize]
    simp only [BitVec.toNat_eq, BitVec.toNat_zero, not_or, ne_eq]
  · rw [SoftwareDevice.submit, hop]
    simp only [Kernels.memMove, hrecord]
    exact ⟨_, rfl⟩
  · intro x hx
    exact submit_memMove_apply hop hsource hdestination hsize (by rwa [hrecord])
  · -- the destination is apart from the descriptor
    intro x hx
    exact move_apply_of_notMem (notMem_addrs.mp (hdst.descriptor.symm.notMem hx))

end Move

/-! ### Fills -/

section Fill

variable {m : Memory} {dsc record : ℕ}

/-- The fields of the task of a fill. -/
theorem get_constructTask_fill (m : Memory) (hp : TaskPlaced dsc record) (pattern dst : BitVec 64)
    (size : BitVec 32) (options : BitVec 16) :
    FillDescriptor.pattern.get
        (constructTask m dsc record (.fill pattern dst size options)) dsc = pattern.toNat
      ∧ AnyDescriptor.destinationAddress.get
        (constructTask m dsc record (.fill pattern dst size options)) dsc = dst.toNat
      ∧ AnyDescriptor.transferSize.get
        (constructTask m dsc record (.fill pattern dst size options)) dsc = size.toNat := by
  have hview := viewDescriptor_make (.fill pattern dst size options)
  simp only [viewDescriptor, operationOf_make, DescriptorArgs.operation, Option.some.injEq,
    DescriptorArgs.fill.injEq] at hview
  obtain ⟨hpattern, hdst, hsize, -⟩ := hview
  refine ⟨?_, ?_, ?_⟩
  · exact get_constructTask_of_readBits hp rfl hpattern (by decide) (by decide) (by decide)
  · exact get_constructTask_of_readBits hp rfl hdst (by decide) (by decide) (by decide)
  · exact get_constructTask_of_readBits hp rfl hsize (by decide) (by decide) (by decide)

/-- The validation of a fill. -/
theorem validate_fill_iff {m : Memory} (hop : operationOf m dsc = some .fill) :
    validate m dsc = .success ↔ AnyDescriptor.destinationAddress.get m dsc ≠ 0
      ∧ AnyDescriptor.transferSize.get m dsc ≠ 0 := by
  rw [validate, hop]
  simp (disch := decide) only [Validate.fill, ite_eq_success_iff, anyEqualZero_one, and_true]

/-- **A fill over a view**: an error for a null pointer or an empty view, else the bytes of the
view are filled. -/
theorem executeFill_cases (hp : TaskPlaced dsc record) (pattern dst : BitVec 64)
    (size : BitVec 32) (options : BitVec 16)
    (hdst : ApartFromTask dsc record ⟨dst.toNat, size.toNat⟩) :
    ((dst = 0#64 ∨ size = 0#32) ∧
        ∃ m' status, executeFill dsc record m pattern ⟨dst, size⟩ options = some (m', status)
          ∧ status ≠ .ok) ∨
      (¬(dst = 0#64 ∨ size = 0#32) ∧
        ∃ m', executeFill dsc record m pattern ⟨dst, size⟩ options = some (m', .ok)
          ∧ ∀ x, x ∉ Region.addrs ⟨record, recordSize⟩ →
            m' x = if dst.toNat ≤ x ∧ x < dst.toNat + size.toNat then
              byteAt pattern.toNat ((x - dst.toNat) % 8)
              else constructTask m dsc record (.fill pattern dst size options) x) := by
  have hop : operationOf (constructTask m dsc record (.fill pattern dst size options)) dsc
      = some .fill := operationOf_constructTask hp
  obtain ⟨hpattern, hdestination, hsize⟩ := get_constructTask_fill m hp pattern dst size options
  have hrecord := @getCompletionRecord_constructTask m dsc record
    (.fill pattern dst size options) hp
  unfold executeFill
  refine execute_cases hp ?_ ?_ ?_ ?_
  · rw [validate_fill_iff hop, hdestination, hsize]
    simp only [BitVec.toNat_eq, BitVec.toNat_zero, not_or, ne_eq]
  · rw [SoftwareDevice.submit, hop]
    simp only [Kernels.fill, hrecord]
    exact ⟨_, rfl⟩
  · intro x hx
    exact submit_fill_apply hop hpattern hdestination hsize (by rwa [hrecord])
  · -- the destination is apart from the descriptor
    intro x hx
    have hnot := notMem_addrs.mp (hdst.descriptor.symm.notMem hx)
    exact if_neg (by omega)

end Fill

/-! ### The whole range, or an error -/

/-- The call returns an error, or leaves a memory with `P`. -/
def RejectedOr (outcome : Option (Memory × StatusCode)) (P : Memory → Prop) : Prop :=
  ∃ m' status, outcome = some (m', status) ∧ (status ≠ .ok ∨ P m')

/-- A call that is rejected when `null`, and else leaves a memory that has `P` when `Q`. -/
theorem rejectedOr_iff {outcome : Option (Memory × StatusCode)} {P : Memory → Prop} {null Q : Prop}
    (h : (null ∧ ∃ m' status, outcome = some (m', status) ∧ status ≠ .ok) ∨
      (¬null ∧ ∃ m', outcome = some (m', .ok) ∧ (P m' ↔ Q))) :
    RejectedOr outcome P ↔ null ∨ Q := by
  rcases h with ⟨hnull, m', status, hcall, hstatus⟩ | ⟨hnull, m', hcall, hiff⟩
  · exact iff_of_true ⟨m', status, hcall, Or.inl hstatus⟩ (Or.inl hnull)
  · constructor
    · rintro ⟨m'', status, hcall', hor⟩
      rw [hcall] at hcall'
      cases hcall'
      rcases hor with hstatus | hP
      · exact absurd rfl hstatus
      · exact Or.inr (hiff.mp hP)
    · rintro (h | hQ)
      · exact absurd h hnull
      · exact ⟨m', .ok, hcall, Or.inr (hiff.mpr hQ)⟩

/-- **Where the first `k` of `n` bytes have been written**, the whole range is right exactly
when the rest has been right before. -/
theorem written_iff {m m' : Memory} {dst k n : ℕ} {f : ℕ → BitVec 8}
    (h : ∀ i, i < n → m' (dst + i) = if i < k then f i else m (dst + i)) :
    (∀ i, i < n → m' (dst + i) = f i) ↔ ∀ i, k ≤ i → i < n → m (dst + i) = f i := by
  constructor
  · intro hall i hk hi
    rw [← hall i hi, h i hi, if_neg (by omega)]
  · intro hrest i hi
    rw [h i hi]
    split
    · rfl
    · exact hrest i (by omega) hi

/-- The size of a view is 0 when the number of bytes is a multiple of `2 ^ 32`. -/
theorem size_makeView_eq_zero {elementSize data length : BitVec 64} :
    (makeView elementSize data length).size = 0#32 ↔ byteCount elementSize length % 2 ^ 32 = 0 := by
  rw [← toNat_size_makeView elementSize data length]
  constructor
  · intro h
    rw [h]
    rfl
  · exact fun h => BitVec.eq_of_toNat_eq h

section Whole

variable {m : Memory} {dsc record : ℕ} {elementSize count src dst : BitVec 64}

/-- A view lies within its range. -/
theorem ApartFromTask.view
    (h : ApartFromTask dsc record ⟨dst.toNat, byteCount elementSize count⟩) :
    ApartFromTask dsc record ⟨dst.toNat, (makeView elementSize dst count).size.toNat⟩ := by
  have hinside : Region.Inside ⟨dst.toNat, (makeView elementSize dst count).size.toNat⟩
      ⟨dst.toNat, byteCount elementSize count⟩ := by
    rw [toNat_size_makeView]
    exact ⟨Nat.le_refl _, Nat.add_le_add_left (Nat.mod_le _ _) _⟩
  exact ⟨h.descriptor.mono hinside (Region.Inside.refl _),
    h.record.mono hinside (Region.Inside.refl _)⟩

/-- **When a move handles its whole range, or answers with an error.** -/
theorem movedOrRejected_iff (hp : TaskPlaced dsc record)
    (hsrc : ApartFromTask dsc record ⟨src.toNat, byteCount elementSize count⟩)
    (hdst : ApartFromTask dsc record ⟨dst.toNat, byteCount elementSize count⟩)
    (options : BitVec 16) :
    RejectedOr (executeMemMove dsc record m (makeView elementSize src count)
        (makeView elementSize dst count) options)
        (fun m' => ∀ i, i < byteCount elementSize count → m' (dst.toNat + i) = m (src.toNat + i))
      ↔ (src = 0#64 ∨ dst = 0#64 ∨ byteCount elementSize count % 2 ^ 32 = 0) ∨
        ∀ i, byteCount elementSize count % 2 ^ 32 ≤ i → i < byteCount elementSize count →
          m (dst.toNat + i) = m (src.toNat + i) := by
  have hsize := toNat_size_makeView elementSize dst count
  have hcases := executeMemMove_cases (m := m) hp src dst (makeView elementSize dst count).size
    options hdst.view
  rw [size_makeView_eq_zero] at hcases
  refine rejectedOr_iff ?_
  rcases hcases with hreject | ⟨hnull, m', hcall, hm'⟩
  · exact Or.inl hreject
  · refine Or.inr ⟨hnull, m', hcall, written_iff fun i hi => ?_⟩
    have hx : dst.toNat + i ∈ Region.addrs ⟨dst.toNat, byteCount elementSize count⟩ :=
      Region.add_mem_addrs hi
    rw [hm' _ (hdst.record.notMem hx), hsize]
    split
    · next hlt =>
      rw [move_apply_of_lt hlt, constructTask_apply hsrc (Region.add_mem_addrs hi)]
    · next hge =>
      rw [move_apply_of_notMem (by omega), constructTask_apply hdst hx]

/-- **When a fill handles its whole range, or answers with an error.** -/
theorem filledOrRejected_iff (hp : TaskPlaced dsc record)
    (hdst : ApartFromTask dsc record ⟨dst.toNat, byteCount elementSize count⟩)
    (pattern : BitVec 64) (options : BitVec 16) :
    RejectedOr (executeFill dsc record m pattern (makeView elementSize dst count) options)
        (fun m' => ∀ i, i < byteCount elementSize count →
          m' (dst.toNat + i) = byteAt pattern.toNat (i % 8))
      ↔ (dst = 0#64 ∨ byteCount elementSize count % 2 ^ 32 = 0) ∨
        ∀ i, byteCount elementSize count % 2 ^ 32 ≤ i → i < byteCount elementSize count →
          m (dst.toNat + i) = byteAt pattern.toNat (i % 8) := by
  have hsize := toNat_size_makeView elementSize dst count
  have hcases := executeFill_cases (m := m) hp pattern dst (makeView elementSize dst count).size
    options hdst.view
  rw [size_makeView_eq_zero] at hcases
  refine rejectedOr_iff ?_
  rcases hcases with hreject | ⟨hnull, m', hcall, hm'⟩
  · exact Or.inl hreject
  · refine Or.inr ⟨hnull, m', hcall, written_iff fun i hi => ?_⟩
    have hx : dst.toNat + i ∈ Region.addrs ⟨dst.toNat, byteCount elementSize count⟩ :=
      Region.add_mem_addrs hi
    rw [hm' _ (hdst.record.notMem hx), hsize, Nat.add_sub_cancel_left]
    split
    · next hlt => rw [if_pos (by omega)]
    · next hge => rw [if_neg (by omega), constructTask_apply hdst hx]

/-- **When a request is not shortened silently**: a call that is rejected, or whose range has
`2 ^ 32` bytes or more of which all those past the cut were right before. -/
theorem request_not_shortened_iff (hp : TaskPlaced dsc record)
    (hsrc : ApartFromTask dsc record ⟨src.toNat, byteCount elementSize count⟩)
    (hdst : ApartFromTask dsc record ⟨dst.toNat, byteCount elementSize count⟩)
    (pattern : BitVec 64) (moveOptions fillOptions : BitVec 16) :
    (RejectedOr (executeMemMove dsc record m (makeView elementSize src count)
        (makeView elementSize dst count) moveOptions)
        (fun m' => ∀ i, i < byteCount elementSize count → m' (dst.toNat + i) = m (src.toNat + i))
      ↔ (src = 0#64 ∨ dst = 0#64 ∨ byteCount elementSize count % 2 ^ 32 = 0) ∨
        ∀ i, byteCount elementSize count % 2 ^ 32 ≤ i → i < byteCount elementSize count →
          m (dst.toNat + i) = m (src.toNat + i)) ∧
    (RejectedOr (executeFill dsc record m pattern (makeView elementSize dst count) fillOptions)
        (fun m' => ∀ i, i < byteCount elementSize count →
          m' (dst.toNat + i) = byteAt pattern.toNat (i % 8))
      ↔ (dst = 0#64 ∨ byteCount elementSize count % 2 ^ 32 = 0) ∨
        ∀ i, byteCount elementSize count % 2 ^ 32 ≤ i → i < byteCount elementSize count →
          m (dst.toNat + i) = byteAt pattern.toNat (i % 8)) :=
  ⟨movedOrRejected_iff hp hsrc hdst moveOptions, filledOrRejected_iff hp hdst pattern fillOptions⟩

end Whole

/-- Sixteen elements of four bytes: nothing is cut off, and both calls handle their range. -/
theorem request_not_shortened_iff_16 :
    RejectedOr (executeMemMove 64 128 (fun a => BitVec.ofNat 8 a) (makeView 4 0x1000 16)
        (makeView 4 0x2000 16) 0)
        (fun m' => ∀ i, i < byteCount 4 16 →
          m' ((0x2000#64).toNat + i) = BitVec.ofNat 8 ((0x1000#64).toNat + i)) ∧
      RejectedOr (executeFill 64 128 (fun a => BitVec.ofNat 8 a) 0x0102 (makeView 4 0x2000 16) 0)
        (fun m' => ∀ i, i < byteCount 4 16 →
          m' ((0x2000#64).toNat + i) = byteAt (0x0102#64).toNat (i % 8)) := by
  have hp : TaskPlaced 64 128 := ⟨by decide, by decide⟩
  have hsrc : ApartFromTask 64 128 ⟨(0x1000#64).toNat, byteCount 4 16⟩ := ⟨by decide, by decide⟩
  have hdst : ApartFromTask 64 128 ⟨(0x2000#64).toNat, byteCount 4 16⟩ := ⟨by decide, by decide⟩
  have hcount : byteCount 4 16 = 64 := by decide
  obtain ⟨hmove, hfill⟩ := request_not_shortened_iff (m := fun a => BitVec.ofNat 8 a) hp hsrc hdst
    0x0102 0 0
  refine ⟨hmove.mpr (Or.inr fun i hk hi => ?_), hfill.mpr (Or.inr fun i hk hi => ?_)⟩
  · rw [hcount] at hk hi
    omega
  · rw [hcount] at hk hi
    omega

/-- `2 ^ 32 + 16` bytes of ones moved over zeros: the call moves sixteen and answers `ok`. -/
theorem request_shortened :
    ¬RejectedOr (executeMemMove (2 ^ 40) (2 ^ 40 + 64) (fun a => if a < 2 ^ 33 then 1 else 0)
      (makeView 1 0x1000 0x100000010) (makeView 1 0x400000000 0x100000010) 0)
      (fun m' => ∀ i, i < byteCount 1 0x100000010 →
        m' ((0x400000000#64).toNat + i)
          = if (0x1000#64).toNat + i < 2 ^ 33 then 1#8 else 0#8) := by
  intro h
  have hp : TaskPlaced (2 ^ 40) (2 ^ 40 + 64) := ⟨by decide, by decide⟩
  have hcut := (movedOrRejected_iff hp ⟨by decide, by decide⟩ ⟨by decide, by decide⟩ 0).mp h
  rcases hcut with hnull | hrest
  · exact absurd hnull (by decide)
  · -- the byte past the cut is still 0
    have h16 := hrest 16 (by decide) (by decide)
    exact absurd h16 (by decide)

end DataMover
