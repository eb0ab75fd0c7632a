import DataMover.BatchRun
import DataMover.Validation

/-!
# The outcome of the batch kernel

The batch kernel walks a list of descriptors that may read and write each other's
buffers, and even the list itself, so each descriptor is what memory says when its
turn comes.  The kernel is compared with the device executing the same list one
descriptor at a time.

The loop decides from the record of the current descriptor.  For an operation the
kernel does not support nothing writes that record, and what an earlier run left
there decides.

## Main definitions

* `submitInTurn` — submitting one descriptor after the other, up to the first whose
  record does not say *success*.
* `Succeeds`, `leading` — a descriptor of the list that is supported and succeeds, and
  how many of them lead the list.
* `BatchExact` — what a batch should report.

## Main results

* `batch_eq_leading` — the kernel in closed form.
* `batch_eq_submitInTurn` — a batch is the submission of its descriptors in turn.
* `batchExact_iff` — the report is exact unless a stale record says *success*.
-/

namespace DataMover

open ByteMemory

/-- The descriptor asks for an operation the batch kernel supports. -/
def Supported (m : Memory) (dsc : ℕ) : Prop := ∃ op ∈ batchOperations, operationOf m dsc = some op

instance (m : Memory) (dsc : ℕ) : Decidable (Supported m dsc) :=
  inferInstanceAs (Decidable (∃ op ∈ batchOperations, operationOf m dsc = some op))

/-- The status byte of the record at `record` is *success*. -/
def SaysSuccess (m : Memory) (record : ℕ) : Prop :=
  AnyCompletionRecord.status.get m record = ExecutionStatus.success.toUnderlying

instance (m : Memory) (record : ℕ) : Decidable (SaysSuccess m record) :=
  inferInstanceAs (Decidable (_ = _))

/-- The operations of the device are those of the batch kernel, `drain` and `batch`. -/
theorem mem_batchOperations {op : Operation} (hdrain : op ≠ .drain) (hbatch : op ≠ .batch) :
    op ∈ batchOperations := by
  cases op with
  | drain => exact absurd rfl hdrain
  | batch => exact absurd rfl hbatch
  | _ => decide

theorem batchSwitch_of_supported {m : Memory} {dsc : ℕ} (h : Supported m dsc) :
    Kernels.batchSwitch m dsc = some (SoftwareDevice.submit m dsc).1 := by
  obtain ⟨op, hmem, hop⟩ := h
  exact batchSwitch_eq hop hmem

theorem batchSwitch_of_not_supported {m : Memory} {dsc : ℕ} (h : ¬Supported m dsc) :
    Kernels.batchSwitch m dsc = none := by
  rw [Kernels.batchSwitch]
  cases hop : operationOf m dsc with
  | none => rfl
  | some op =>
    cases op with
    | batch | drain => rfl
    | _ => exact absurd ⟨_, by decide, hop⟩ h

/-! ### One descriptor at a time -/

section Run

variable (m : Memory) (operations : ℕ)

/-- The record of descriptor `i`, as the descriptor has it when its turn comes. -/
def recordInTurn (i : ℕ) : ℕ := innerRecord (runFirst m operations i) operations i

/-- Executed in turn, descriptor `i` leaves *success* in its record. -/
def EndsWell (i : ℕ) : Prop :=
  SaysSuccess (runFirst m operations (i + 1)) (recordInTurn m operations i)

/-- When its turn comes, descriptor `i` is a supported operation. -/
def SupportedInTurn (i : ℕ) : Prop :=
  Supported (runFirst m operations i) (innerDescriptor operations i)

/-- Descriptor `i` is supported and succeeds. -/
def Succeeds (i : ℕ) : Prop := SupportedInTurn m operations i ∧ EndsWell m operations i

instance (i : ℕ) : Decidable (EndsWell m operations i) :=
  inferInstanceAs (Decidable (SaysSuccess _ _))

instance (i : ℕ) : Decidable (SupportedInTurn m operations i) :=
  inferInstanceAs (Decidable (Supported _ _))

instance (i : ℕ) : Decidable (Succeeds m operations i) := inferInstanceAs (Decidable (_ ∧ _))

/-- How many of the first `count` descriptors lead the list, supported and successful. -/
def leading (count : ℕ) : ℕ :=
  (Loop.search (fun i => !decide (Succeeds m operations i)) count).getD count

/-- One descriptor submitted on its own; the loop is left when it does not succeed. -/
def submitInner (index : ℕ) (m : Memory) : Except (Memory × ℕ) Memory :=
  let current := innerDescriptor operations index
  let record := getCompletionRecord m current
  let m := (SoftwareDevice.submit m current).1
  if SaysSuccess m record then .ok m else .error (m, index)

/-- Submitting `count` descriptors in turn: the memory at the end, and how many
succeeded before the first that did not. -/
def submitInTurn (count : ℕ) : Memory × ℕ :=
  match Loop.iterUntil (submitInner operations) count m with
  | .ok m => (m, count)
  | .error (m, index) => (m, index)

end Run

section Loops

variable {m : Memory} {operations : ℕ}

theorem leading_eq_iff {count : ℕ} :
    leading m operations count = count ↔ ∀ i, i < count → Succeeds m operations i := by
  unfold leading
  cases h : Loop.search (fun i => !decide (Succeeds m operations i)) count with
  | none =>
    have hall := Loop.search_eq_none.mp h
    simpa using hall
  | some i =>
    obtain ⟨hi, hbad, -⟩ := Loop.search_eq_some.mp h
    rw [Option.getD_some]
    constructor
    · intro heq; omega
    · intro hall
      simp [hall i hi] at hbad

theorem submitInner_runFirst (m : Memory) (operations i : ℕ) :
    submitInner operations i (runFirst m operations i)
      = if (!decide (EndsWell m operations i)) = true then .error (runFirst m operations (i + 1), i)
        else .ok (runFirst m operations (i + 1)) := by
  by_cases h : EndsWell m operations i
  · rw [if_neg (by simpa using h)]
    exact if_pos h
  · rw [if_pos (by simpa using h)]
    exact if_neg h

/-- The submission in turn, up to the first descriptor that does not succeed. -/
theorem submitInTurn_eq (count : ℕ) :
    submitInTurn m operations count
      = match Loop.search (fun i => !decide (EndsWell m operations i)) count with
        | some i => (runFirst m operations (i + 1), i)
        | none => (runFirst m operations count, count) := by
  have hloop := Loop.iterUntil_eq_search (n := count)
    (fun i _ => submitInner_runFirst m operations i)
  rw [show runFirst m operations 0 = m from rfl] at hloop
  rw [submitInTurn, hloop]
  cases Loop.search (fun i => !decide (EndsWell m operations i)) count with
  | some i => rfl
  | none => rfl

/-- On a supported descriptor the batch loop submits it. -/
theorem batchStep_of_supported {i : ℕ} (h : Supported m (innerDescriptor operations i)) :
    Kernels.batchStep operations i m = submitInner operations i m := by
  have hswitch : Kernels.batchSwitch m (operations + descriptorSize * i)
      = some (SoftwareDevice.submit m (innerDescriptor operations i)).1 :=
    batchSwitch_of_supported h
  simp only [Kernels.batchStep, hswitch, Option.getD_some, Option.isNone_some, Bool.false_eq_true,
    if_false, ite_not]
  rfl

/-- On any other the loop is left, and the record the descriptor points to decides
whether the index still advances. -/
theorem batchStep_of_not_supported {i : ℕ} (h : ¬Supported m (innerDescriptor operations i)) :
    Kernels.batchStep operations i m
      = .error (m, if SaysSuccess m (innerRecord m operations i) then i + 1 else i) := by
  have hswitch : Kernels.batchSwitch m (operations + descriptorSize * i) = none :=
    batchSwitch_of_not_supported h
  simp only [Kernels.batchStep, hswitch, Option.getD_none, Option.isNone_none, if_true]
  by_cases hstale : SaysSuccess m (innerRecord m operations i)
  · rw [if_pos hstale]
    exact if_neg (not_not.mpr hstale)
  · rw [if_neg hstale]
    exact if_pos hstale

/-- Where the batch loop is left at a descriptor that is unsupported or fails. -/
def leftAt (m : Memory) (operations i : ℕ) : Memory × ℕ :=
  if SupportedInTurn m operations i then (runFirst m operations (i + 1), i)
  else (runFirst m operations i,
    if SaysSuccess (runFirst m operations i) (recordInTurn m operations i) then i + 1 else i)

/-- One iteration of the batch loop, in the run it belongs to. -/
theorem batchStep_runFirst (m : Memory) (operations i : ℕ) :
    Kernels.batchStep operations i (runFirst m operations i)
      = if (!decide (Succeeds m operations i)) = true then .error (leftAt m operations i)
        else .ok (runFirst m operations (i + 1)) := by
  by_cases hs : SupportedInTurn m operations i
  · rw [batchStep_of_supported hs, submitInner_runFirst, leftAt, if_pos hs]
    by_cases hw : EndsWell m operations i
    · simp [Succeeds, hs, hw]
    · simp [Succeeds, hw]
  · rw [batchStep_of_not_supported hs, leftAt, if_neg hs]
    simp only [Succeeds, hs, false_and, decide_false, Bool.not_false, if_true]
    rfl

end Loops

/-! ### The kernel -/

section Kernel

variable {m : Memory} {dsc : ℕ}

/-- What the batch kernel writes into its record. -/
def completeBatch (m : Memory) (record count index : ℕ) : Memory :=
  Kernels.setStatus (BatchCompletionRecord.descriptorsCompleted.set m record index) record
    (if index = count then .success else .batchError)

theorem completeBatch_apply {record count index x : ℕ}
    (hx : x ∉ Region.addrs ⟨record, recordSize⟩) : completeBatch m record count index x = m x := by
  rw [completeBatch, setStatus_apply hx, set_apply_of_notMem hx (by decide)]

theorem descriptorsCompleted_completeBatch {record count index : ℕ} (h : index < 2 ^ 32) :
    BatchCompletionRecord.descriptorsCompleted.get (completeBatch m record count index) record
      = index := by
  rw [completeBatch, Kernels.setStatus, Field.get_set_of_apart (by decide),
    Field.get_set_self_of_lt _ _ h]

theorem saysSuccess_completeBatch {record count index : ℕ} :
    SaysSuccess (completeBatch m record count index) record ↔ index = count := by
  rw [SaysSuccess, completeBatch, status_setStatus]
  by_cases h : index = count
  · rw [if_pos h]; exact ⟨fun _ => h, fun _ => rfl⟩
  · rw [if_neg h]; exact ⟨fun hc => absurd hc (by decide), fun hc => absurd hc h⟩

/-- **The batch kernel in closed form**: the descriptors that lead the list, and what
the first that does not makes of the loop. -/
theorem batch_eq_leading :
    Kernels.batch m dsc
      = (let operations := BatchDescriptor.descriptorListAddress.get m dsc
        let count := BatchDescriptor.descriptorsCount.get m dsc
        let left := match Loop.search (fun i => !decide (Succeeds m operations i)) count with
          | some i => leftAt m operations i
          | none => (runFirst m operations count, count)
        completeBatch left.1 (getCompletionRecord m dsc) count left.2) := by
  set operations := BatchDescriptor.descriptorListAddress.get m dsc with hops
  set count := BatchDescriptor.descriptorsCount.get m dsc with hcount
  have hloop := Loop.iterUntil_eq_search (n := count)
    (fun i _ => batchStep_runFirst m operations i)
  rw [show runFirst m operations 0 = m from rfl] at hloop
  simp only [Kernels.batch, ← hops, ← hcount, hloop]
  cases Loop.search (fun i => !decide (Succeeds m operations i)) count with
  | some i => rfl
  | none => rfl

/-- When every descriptor that is reached is supported, the loop is left as the
submission in turn is. -/
theorem leading_eq_submitInTurn {operations count : ℕ}
    (hsupported : ∀ i, i < count → (∀ j, j < i → EndsWell m operations j) →
      SupportedInTurn m operations i) :
    (match Loop.search (fun i => !decide (Succeeds m operations i)) count with
      | some i => leftAt m operations i
      | none => (runFirst m operations count, count)) = submitInTurn m operations count := by
  rw [submitInTurn_eq]
  cases hsearch : Loop.search (fun i => !decide (EndsWell m operations i)) count with
  | none =>
    have hwell := Loop.search_eq_none.mp hsearch
    have hnone : Loop.search (fun i => !decide (Succeeds m operations i)) count = none := by
      refine Loop.search_eq_none.mpr fun i hi => ?_
      have hs := hsupported i hi fun j hj => by simpa using hwell j (by omega)
      have hsucceeds : Succeeds m operations i := ⟨hs, by simpa using hwell i hi⟩
      simpa using hsucceeds
    rw [hnone]
  | some i =>
    obtain ⟨hi, hfails, hfirst⟩ := Loop.search_eq_some.mp hsearch
    have hbefore : ∀ j, j < i → EndsWell m operations j := fun j hj => by simpa using hfirst j hj
    have hs := hsupported i hi hbefore
    have hsome : Loop.search (fun i => !decide (Succeeds m operations i)) count = some i := by
      refine Loop.search_eq_some.mpr ⟨hi, ?_, fun j hj => ?_⟩
      · have hbad : ¬Succeeds m operations i := fun h => by simp [h.2] at hfails
        simpa using hbad
      · have hsj := hsupported j (by omega) fun l hl => hbefore l (by omega)
        have hsucceeds : Succeeds m operations j := ⟨hsj, hbefore j hj⟩
        simpa using hsucceeds
    rw [hsome]
    simp only [leftAt, if_pos hs]

/-- The list of the batch descriptor at `dsc`, submitted in turn. -/
def submitList (m : Memory) (dsc : ℕ) : Memory × ℕ :=
  submitInTurn m (BatchDescriptor.descriptorListAddress.get m dsc)
    (BatchDescriptor.descriptorsCount.get m dsc)

/-- A batch at 64 of three empty operations and one more, whose record has a status
already; the list is at 256 and the records are from 512 on. -/
def lastInBatch (op : Operation) (status : ExecutionStatus) : Memory :=
  let m := rawDescriptor .batch 64 32 256 0 4
  let m := Loop.iter (fun i m =>
    AnyDescriptor.completionRecordAddress.set m (256 + 64 * i) (512 + 32 * i)) 4 m
  let m := AnyDescriptor.operation.set m (256 + 64 * 3) op.code
  Kernels.setStatus m (512 + 32 * 3) status

/-- **A batch is the submission of its descriptors in turn.**  The batch writes its
own record on top; and each operation the device handles, other than `drain` and
`batch`, is handled by the switch of the batch with the kernel of the device. -/
theorem batch_eq_submitInTurn (m : Memory) (dsc : ℕ)
    (hsupported : ∀ i, i < BatchDescriptor.descriptorsCount.get m dsc →
      (∀ j, j < i → EndsWell m (BatchDescriptor.descriptorListAddress.get m dsc) j) →
      SupportedInTurn m (BatchDescriptor.descriptorListAddress.get m dsc) i) :
    Kernels.batch m dsc
        = completeBatch (submitList m dsc).1 (getCompletionRecord m dsc)
            (BatchDescriptor.descriptorsCount.get m dsc) (submitList m dsc).2
      ∧ Set.EqOn (Kernels.batch m dsc) (submitList m dsc).1
          (Region.addrs ⟨getCompletionRecord m dsc, recordSize⟩)ᶜ
      ∧ ∀ (t : Memory) (d : ℕ) (op : Operation), operationOf t d = some op → op ≠ .drain →
        op ≠ .batch → Kernels.batchSwitch t d = some (SoftwareDevice.submit t d).1 := by
  have heq : Kernels.batch m dsc = _ := batch_eq_leading
  simp only [leading_eq_submitInTurn hsupported] at heq
  refine ⟨heq, fun x hx => ?_, fun t d op hop hdrain hbatch => ?_⟩
  · rw [heq]
    exact completeBatch_apply hx
  · exact batchSwitch_eq hop (mem_batchOperations hdrain hbatch)

/-- The last of the four copies four bytes, from 1024 to 2048. -/
def movingBatch : Memory :=
  let m := AnyDescriptor.sourceAddress.set (lastInBatch .memMove .processing) (256 + 64 * 3) 1024
  let m := AnyDescriptor.destinationAddress.set m (256 + 64 * 3) 2048
  let m := AnyDescriptor.transferSize.set m (256 + 64 * 3) 4
  store m 1024 4 0xDDCCBBAA

/-- Three empty operations and a copy, submitted in turn: the batch copies the bytes. -/
theorem batch_eq_submitInTurn_move :
    Set.EqOn (Kernels.batch movingBatch 64) (submitList movingBatch 64).1
        (Region.addrs ⟨32, recordSize⟩)ᶜ
      ∧ load movingBatch 2048 4 = 0
      ∧ load (Kernels.batch movingBatch 64) 2048 4 = 0xDDCCBBAA := by
  have hrec : getCompletionRecord movingBatch 64 = 32 := by decide
  have hcount : BatchDescriptor.descriptorsCount.get movingBatch 64 = 4 := by decide
  have hlist : BatchDescriptor.descriptorListAddress.get movingBatch 64 = 256 := by decide
  have hsupported : ∀ i, i < 4 → SupportedInTurn movingBatch 256 i := by decide
  have hinTurn := (batch_eq_submitInTurn movingBatch 64 fun i hi _ => by
    rw [hcount] at hi
    rw [hlist]
    exact hsupported i hi).2.1
  rw [hrec] at hinTurn
  have hcopied : load (submitList movingBatch 64).1 2048 4 = 0xDDCCBBAA := by decide
  refine ⟨hinTurn, by decide, ?_⟩
  rw [← hcopied]
  exact load_congr fun i hi => hinTurn (notMem_addrs.mpr (Or.inr (by
    unfold recordSize
    omega)))

/-! ### What a batch reports -/

/-- How many descriptors are executed: those that lead the list, and the first that
fails if it is one the kernel supports. -/
def executed (m : Memory) (operations count : ℕ) : ℕ :=
  if leading m operations count < count
      ∧ SupportedInTurn m operations (leading m operations count)
    then leading m operations count + 1 else leading m operations count

/-- The batch at `dsc` reports what happened: *success* when every descriptor is
supported and succeeds, the number of descriptors that lead the list, and nothing is
executed after them but the first that fails. -/
structure BatchExact (m : Memory) (dsc : ℕ) : Prop where
  success_iff : SaysSuccess (Kernels.batch m dsc) (getCompletionRecord m dsc)
    ↔ ∀ i, i < BatchDescriptor.descriptorsCount.get m dsc →
        Succeeds m (BatchDescriptor.descriptorListAddress.get m dsc) i
  completed : BatchCompletionRecord.descriptorsCompleted.get (Kernels.batch m dsc)
      (getCompletionRecord m dsc)
    = leading m (BatchDescriptor.descriptorListAddress.get m dsc)
        (BatchDescriptor.descriptorsCount.get m dsc)
  stops : Set.EqOn (Kernels.batch m dsc)
    (runFirst m (BatchDescriptor.descriptorListAddress.get m dsc)
      (executed m (BatchDescriptor.descriptorListAddress.get m dsc)
        (BatchDescriptor.descriptorsCount.get m dsc)))
    (Region.addrs ⟨getCompletionRecord m dsc, recordSize⟩)ᶜ

/-- When the descriptor after those that lead the list comes up, it is unsupported
and its record says *success*, left by an earlier run. -/
def StaleSuccess (m : Memory) (operations i : ℕ) : Prop :=
  ¬SupportedInTurn m operations i
    ∧ SaysSuccess (runFirst m operations i) (recordInTurn m operations i)

instance (m : Memory) (operations i : ℕ) : Decidable (StaleSuccess m operations i) :=
  inferInstanceAs (Decidable (_ ∧ _))

section Report

variable {operations count : ℕ}

/-- The memory the loop is left with is that of the descriptors executed. -/
theorem left_memory :
    (match Loop.search (fun i => !decide (Succeeds m operations i)) count with
      | some i => leftAt m operations i
      | none => (runFirst m operations count, count)).1
      = runFirst m operations (executed m operations count) := by
  unfold executed leading
  cases hsearch : Loop.search (fun i => !decide (Succeeds m operations i)) count with
  | none => simp
  | some i =>
    obtain ⟨hi, -, -⟩ := Loop.search_eq_some.mp hsearch
    simp only [Option.getD_some, leftAt]
    by_cases hs : SupportedInTurn m operations i
    · rw [if_pos hs, if_pos ⟨hi, hs⟩]
    · rw [if_neg hs,
        if_neg (show ¬(i < count ∧ SupportedInTurn m operations i) from fun h => hs h.2)]

/-- The index the loop is left with counts the descriptors that lead the list, and one
more when the next is stale. -/
theorem left_index :
    (match Loop.search (fun i => !decide (Succeeds m operations i)) count with
      | some i => leftAt m operations i
      | none => (runFirst m operations count, count)).2
      = if leading m operations count < count
            ∧ StaleSuccess m operations (leading m operations count)
        then leading m operations count + 1 else leading m operations count := by
  unfold leading
  cases hsearch : Loop.search (fun i => !decide (Succeeds m operations i)) count with
  | none => simp
  | some i =>
    obtain ⟨hi, -, -⟩ := Loop.search_eq_some.mp hsearch
    simp only [Option.getD_some, leftAt]
    by_cases hs : SupportedInTurn m operations i
    · rw [if_pos hs, if_neg (by unfold StaleSuccess; tauto)]
    · rw [if_neg hs]
      simp only [StaleSuccess, hs, hi, true_and, not_false_eq_true]

theorem leading_le (m : Memory) (operations count : ℕ) : leading m operations count ≤ count := by
  unfold leading
  cases hsearch : Loop.search (fun i => !decide (Succeeds m operations i)) count with
  | none => exact le_rfl
  | some i => exact (Loop.search_eq_some.mp hsearch).1.le

theorem executed_le (m : Memory) (operations count : ℕ) : executed m operations count ≤ count := by
  have hle := leading_le m operations count
  unfold executed
  split_ifs with h
  · omega
  · exact hle

theorem succeeds_of_lt_leading {i : ℕ} (hi : i < leading m operations count) :
    Succeeds m operations i := by
  unfold leading at hi
  cases hsearch : Loop.search (fun i => !decide (Succeeds m operations i)) count with
  | none =>
    rw [hsearch] at hi
    simpa using Loop.search_eq_none.mp hsearch i hi
  | some j =>
    rw [hsearch] at hi
    simpa using (Loop.search_eq_some.mp hsearch).2.2 i hi

theorem not_succeeds_leading (h : leading m operations count < count) :
    ¬Succeeds m operations (leading m operations count) := by
  unfold leading at h ⊢
  cases hsearch : Loop.search (fun i => !decide (Succeeds m operations i)) count with
  | none =>
    rw [hsearch, Option.getD_none] at h
    exact absurd h (lt_irrefl _)
  | some i =>
    simpa using (Loop.search_eq_some.mp hsearch).2.1

/-- A stale descriptor that is reached is the one after those that lead the list. -/
theorem eq_leading_of_reached {i : ℕ} (hi : i < count)
    (hreached : ∀ j, j < i → Succeeds m operations j) (hstale : StaleSuccess m operations i) :
    i = leading m operations count := by
  rcases Nat.lt_trichotomy i (leading m operations count) with hlt | heq | hgt
  · exact absurd (succeeds_of_lt_leading hlt).1 hstale.1
  · exact heq
  · exact absurd (hreached _ hgt) (not_succeeds_leading (by omega))

end Report

/-- **The report of a batch is exact unless a stale record says success**: it goes
wrong exactly when the first descriptor that is not supported comes up, after
descriptors that all succeeded, with *success* already in its record. -/
theorem batchExact_iff (m : Memory) (dsc : ℕ) :
    BatchExact m dsc
      ↔ ∀ i, i < BatchDescriptor.descriptorsCount.get m dsc →
          (∀ j, j < i → Succeeds m (BatchDescriptor.descriptorListAddress.get m dsc) j) →
          ¬StaleSuccess m (BatchDescriptor.descriptorListAddress.get m dsc) i := by
  have heq : Kernels.batch m dsc = _ := batch_eq_leading
  have hlt : BatchDescriptor.descriptorsCount.get m dsc < 2 ^ 32 := Field.get_lt _ m dsc
  simp only [left_memory, left_index] at heq
  set operations := BatchDescriptor.descriptorListAddress.get m dsc with hops
  set count := BatchDescriptor.descriptorsCount.get m dsc with hcount
  have hle := leading_le m operations count
  constructor
  · intro hexact i hi hreached hstale
    -- the count the batch reports is one too many
    obtain rfl := eq_leading_of_reached hi hreached hstale
    rw [if_pos ⟨hi, hstale⟩] at heq
    have hcompleted := hexact.completed
    rw [heq, descriptorsCompleted_completeBatch (by omega), ← hops, ← hcount] at hcompleted
    omega
  · intro hfresh
    have hleft : ¬(leading m operations count < count
        ∧ StaleSuccess m operations (leading m operations count)) := fun h =>
      hfresh _ h.1 (fun j hj => succeeds_of_lt_leading hj) h.2
    rw [if_neg hleft] at heq
    constructor
    · rw [heq, saysSuccess_completeBatch]
      exact leading_eq_iff
    · rw [heq]
      exact descriptorsCompleted_completeBatch (by omega)
    · intro x hx
      rw [heq]
      exact completeBatch_apply hx

/-- A batch that ends with a `drain` whose record still says *success*: the batch
reports success, though the `drain` is not supported and was not executed. -/
theorem batchExact_stale_drain :
    validate (lastInBatch .drain .success) 64 = .success
      ∧ SaysSuccess (Kernels.batch (lastInBatch .drain .success) 64) 32
      ∧ ¬BatchExact (lastInBatch .drain .success) 64 := by
  refine ⟨by decide, by decide, fun h => ?_⟩
  have hall := h.success_iff.mp (by decide) 3 (by decide)
  exact absurd hall.1 (by decide)

end Kernel

end DataMover
