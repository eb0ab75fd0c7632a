import Mathlib.Data.List.Range
import Mathlib.Tactic.Common

/-!
# The work queues of a device

`hw_device::enqueue_descriptor`: a descriptor is offered to the queues of the device in a
circle, from the queue after the one that took the last descriptor.  The index of that
queue is a variable of the thread: every device the thread uses shares it, and the first
device that is used sets it.  A device holds at most eight queues, so the 32-bit index
never wraps and is a natural number here.

## Main definitions

* `enqueueDescriptor` — one call, with the queues it touches.
* `enqueueRun` — the calls of one thread, in order.
* `RoundRobin` — what a call on a device should do.

## Main results

* `roundRobin_iff` — one call: when the index the thread brings along does no harm.
* `enqueueRun_roundRobin_iff` — the calls of a thread.
* `enqueueRun_of_same_count` — devices with the same number of queues never go wrong.
-/

namespace DataMover

/-- The statuses of `hw_device::enqueue_descriptor`. -/
inductive EnqueueStatus
  | ok | workQueueOverflowError
  deriving DecidableEq, Repr

/-- A call: how many queues the device has, and which of them have room. -/
structure EnqueueCall where
  nQueues : ℕ
  accepts : ℕ → Bool
  pos : 0 < nQueues

/-- What a call leaves behind: its status, the queues it touched, in order, and
`last_wq_idx`. -/
structure Enqueued where
  status : EnqueueStatus
  touched : List ℕ
  lastWqIdx : ℕ
  deriving DecidableEq, Repr

/-! ### The model -/

/-- `count` iterations of one of the two loops, from the queue `idx` on: the queues that were
touched, and the one that took the descriptor. -/
def enqueueFrom (accepts : ℕ → Bool) (idx : ℕ) : ℕ → List ℕ × Option ℕ
  | 0 => ([], none)
  | count + 1 =>
    if accepts idx then ([idx], some idx)
    else
      let (touched, taken) := enqueueFrom accepts (idx + 1) count
      (idx :: touched, taken)

/-- `last_wq_idx` as a call finds it: the first one starts behind the last queue of its own
device. -/
def EnqueueCall.lastWqIdx (call : EnqueueCall) (last : Option ℕ) : ℕ :=
  last.getD (call.nQueues - 1)

/-- `hw_device::enqueue_descriptor`.  The second loop runs up to `last_wq_idx`, whatever the
number of queues. -/
def enqueueDescriptor (call : EnqueueCall) (last : Option ℕ) : Enqueued :=
  let lastWqIdx := call.lastWqIdx last
  match enqueueFrom call.accepts (lastWqIdx + 1) (call.nQueues - (lastWqIdx + 1)) with
  | (touched, some idx) => ⟨.ok, touched, idx⟩
  | (touched, none) =>
    match enqueueFrom call.accepts 0 (lastWqIdx + 1) with
    | (touched', some idx) => ⟨.ok, touched ++ touched', idx⟩
    | (touched', none) => ⟨.workQueueOverflowError, touched ++ touched', lastWqIdx⟩

/-- One step of a thread: a call, the index it found and what it left behind. -/
structure EnqueueStep where
  call : EnqueueCall
  last : Option ℕ
  result : Enqueued

/-- The calls of one thread. -/
def enqueueRun (last : Option ℕ) : List EnqueueCall → List EnqueueStep
  | [] => []
  | call :: calls =>
    let result := enqueueDescriptor call last
    ⟨call, last, result⟩ :: enqueueRun (some result.lastWqIdx) calls

/-- **What a call should do**: touch queues of the device only, each at most once, succeed
when exactly one of them takes the descriptor, and give up only when all of them have
refused it. -/
structure RoundRobin (call : EnqueueCall) (result : Enqueued) : Prop where
  below : ∀ q ∈ result.touched, q < call.nQueues
  once : result.touched.Nodup
  ok_iff : result.status = .ok ↔ ∃! q, q ∈ result.touched ∧ call.accepts q = true
  overflow : result.status = .workQueueOverflowError →
    ∀ q < call.nQueues, q ∈ result.touched ∧ call.accepts q = false

/-! ### One call -/

/-- A loop that finds no room has touched all its queues, any other one those up to the
first with room. -/
inductive LoopOutcome (accepts : ℕ → Bool) (idx count : ℕ) : List ℕ × Option ℕ → Prop
  | refused (h : ∀ q, idx ≤ q → q < idx + count → accepts q = false) :
      LoopOutcome accepts idx count (List.range' idx count, none)
  | taken (k : ℕ) (hk : k < count) (htake : accepts (idx + k) = true)
      (h : ∀ q, idx ≤ q → q < idx + k → accepts q = false) :
      LoopOutcome accepts idx count (List.range' idx (k + 1), some (idx + k))

theorem enqueueFrom_cases (accepts : ℕ → Bool) (idx count : ℕ) :
    LoopOutcome accepts idx count (enqueueFrom accepts idx count) := by
  induction count generalizing idx with
  | zero => exact .refused fun q hle hlt => absurd hlt (by omega)
  | succ count ih =>
    rw [enqueueFrom]
    by_cases haccept : accepts idx = true
    · rw [if_pos haccept]
      exact .taken 0 (by omega) haccept fun q hle hlt => absurd hlt (by omega)
    · rw [if_neg haccept]
      have hidx : accepts idx = false := Bool.eq_false_iff.mpr haccept
      -- the queue at the head has refused, the others are up to the rest of the loop
      have hhead : ∀ {k : ℕ}, (∀ q, idx + 1 ≤ q → q < idx + 1 + k → accepts q = false) →
          ∀ q, idx ≤ q → q < idx + (k + 1) → accepts q = false := by
        intro k h q hle hlt
        rcases Nat.eq_or_lt_of_le hle with rfl | hgt
        · exact hidx
        · exact h q hgt (by omega)
      have hrest := ih (idx + 1)
      generalize enqueueFrom accepts (idx + 1) count = r at hrest ⊢
      cases hrest with
      | refused h => exact .refused (hhead h)
      | taken k hk htake h =>
        have hshift : idx + 1 + k = idx + (k + 1) := by omega
        rw [hshift] at htake ⊢
        exact .taken (k + 1) (by omega) htake (hhead h)

/-- What a call can do: find room in the first loop or in the second, or nowhere.  `last` is
the index it found. -/
inductive CallOutcome (call : EnqueueCall) (last : ℕ) : Enqueued → Prop
  | first (k : ℕ) (hk : last + 1 + k < call.nQueues) (htake : call.accepts (last + 1 + k) = true)
      (h : ∀ q, last + 1 ≤ q → q < last + 1 + k → call.accepts q = false) :
      CallOutcome call last ⟨.ok, List.range' (last + 1) (k + 1), last + 1 + k⟩
  | second (k : ℕ) (hk : k ≤ last) (htake : call.accepts k = true)
      (habove : ∀ q, last < q → q < call.nQueues → call.accepts q = false)
      (hbelow : ∀ q < k, call.accepts q = false) :
      CallOutcome call last
        ⟨.ok, List.range' (last + 1) (call.nQueues - (last + 1)) ++ List.range' 0 (k + 1), k⟩
  | overflow (habove : ∀ q, last < q → q < call.nQueues → call.accepts q = false)
      (hbelow : ∀ q ≤ last, call.accepts q = false) :
      CallOutcome call last
        ⟨.workQueueOverflowError,
          List.range' (last + 1) (call.nQueues - (last + 1)) ++ List.range' 0 (last + 1), last⟩

theorem enqueueDescriptor_cases (call : EnqueueCall) (last : Option ℕ) :
    CallOutcome call (call.lastWqIdx last) (enqueueDescriptor call last) := by
  rw [enqueueDescriptor]
  generalize call.lastWqIdx last = l
  have hfirst := enqueueFrom_cases call.accepts (l + 1) (call.nQueues - (l + 1))
  have hsecond := enqueueFrom_cases call.accepts 0 (l + 1)
  generalize enqueueFrom call.accepts (l + 1) (call.nQueues - (l + 1)) = r at hfirst ⊢
  generalize enqueueFrom call.accepts 0 (l + 1) = r' at hsecond ⊢
  cases hfirst with
  | taken k hk htake h => exact .first k (by omega) htake h
  | refused habove =>
    have habove' : ∀ q, l < q → q < call.nQueues → call.accepts q = false :=
      fun q hgt hlt => habove q hgt (by omega)
    cases hsecond with
    | taken k hk htake h =>
      rw [Nat.zero_add] at htake ⊢
      exact .second k (by omega) htake habove' fun q hq => h q (Nat.zero_le q) (by omega)
    | refused hbelow =>
      exact .overflow habove' fun q hq => hbelow q (Nat.zero_le q) (by omega)

section Call

variable {call : EnqueueCall} {last : ℕ}

/-- The queues of the two loops, as long as the second does not run over the first. -/
theorem nodup_touched (k : ℕ) (hk : k ≤ last + 1) :
    (List.range' (last + 1) (call.nQueues - (last + 1)) ++ List.range' 0 k).Nodup := by
  refine List.nodup_append.mpr ⟨List.nodup_range', List.nodup_range', ?_⟩
  intro p hp q hq
  rw [List.mem_range'_1] at hp hq
  omega

theorem mem_touched {k q : ℕ} :
    q ∈ List.range' (last + 1) (call.nQueues - (last + 1)) ++ List.range' 0 k
      ↔ last < q ∧ q < call.nQueues ∨ q < k := by
  rw [List.mem_append, List.mem_range'_1, List.mem_range'_1]
  omega

/-- A call that finds room where it should. -/
theorem roundRobin_ok {touched : List ℕ} {idx : ℕ} (hbelow : ∀ q ∈ touched, q < call.nQueues)
    (honce : touched.Nodup) (hmem : idx ∈ touched) (htake : call.accepts idx = true)
    (hrefused : ∀ q ∈ touched, q ≠ idx → call.accepts q = false) :
    RoundRobin call ⟨.ok, touched, idx⟩ where
  below := hbelow
  once := honce
  ok_iff := by
    refine ⟨fun _ => ⟨idx, ⟨hmem, htake⟩, ?_⟩, fun _ => rfl⟩
    rintro q ⟨hq, haccept⟩
    by_contra hne
    rw [hrefused q hq hne] at haccept
    exact absurd haccept (by decide)
  overflow := fun h => absurd h (by simp)

/-- A call that finds no room, and has asked every queue. -/
theorem roundRobin_overflow {touched : List ℕ} (honce : touched.Nodup)
    (hmem : ∀ q, q ∈ touched ↔ q < call.nQueues)
    (hrefused : ∀ q < call.nQueues, call.accepts q = false) :
    RoundRobin call ⟨.workQueueOverflowError, touched, last⟩ where
  below := fun q hq => (hmem q).mp hq
  once := honce
  ok_iff := by
    refine ⟨fun h => absurd h (by simp), ?_⟩
    rintro ⟨q, ⟨hq, haccept⟩, -⟩
    rw [hrefused q ((hmem q).mp hq)] at haccept
    exact absurd haccept (by decide)
  overflow := fun _ q hq => ⟨(hmem q).mpr hq, hrefused q hq⟩

/-- Room in the first loop. -/
theorem roundRobin_first {k : ℕ} (hk : last + 1 + k < call.nQueues)
    (htake : call.accepts (last + 1 + k) = true)
    (h : ∀ q, last + 1 ≤ q → q < last + 1 + k → call.accepts q = false) :
    RoundRobin call ⟨.ok, List.range' (last + 1) (k + 1), last + 1 + k⟩ := by
  refine roundRobin_ok ?_ List.nodup_range' ?_ htake ?_
  · intro q hq
    rw [List.mem_range'_1] at hq
    omega
  · rw [List.mem_range'_1]
    omega
  · intro q hq hne
    rw [List.mem_range'_1] at hq
    exact h q hq.1 (by omega)

/-- Room in the second loop, in a queue of the device. -/
theorem roundRobin_second {k : ℕ} (hk : k ≤ last) (hlt : k < call.nQueues)
    (htake : call.accepts k = true)
    (habove : ∀ q, last < q → q < call.nQueues → call.accepts q = false)
    (hbelow : ∀ q < k, call.accepts q = false) :
    RoundRobin call
      ⟨.ok, List.range' (last + 1) (call.nQueues - (last + 1)) ++ List.range' 0 (k + 1), k⟩ := by
  refine roundRobin_ok ?_ (nodup_touched (k + 1) (by omega)) ?_ htake ?_
  · intro q hq
    rcases mem_touched.mp hq with hq | hq
    · exact hq.2
    · omega
  · exact mem_touched.mpr (Or.inr k.lt_succ_self)
  · intro q hq hne
    rcases mem_touched.mp hq with hq | hq
    · exact habove q hq.1 hq.2
    · exact hbelow q (by omega)

end Call

/-- **One call**: it goes round the queues of its device unless the index it finds is beyond
them and all of them refuse. -/
theorem roundRobin_iff (call : EnqueueCall) (last : Option ℕ) :
    RoundRobin call (enqueueDescriptor call last)
      ↔ call.lastWqIdx last < call.nQueues ∨ ∃ q < call.nQueues, call.accepts q = true := by
  have hcases := enqueueDescriptor_cases call last
  generalize call.lastWqIdx last = l at hcases ⊢
  generalize enqueueDescriptor call last = result at hcases ⊢
  cases hcases with
  | first k hk htake h =>
    exact ⟨fun _ => Or.inl (by omega), fun _ => roundRobin_first hk htake h⟩
  | second k hk htake habove hbelow =>
    constructor
    · intro h
      exact Or.inr ⟨k, h.below k (mem_touched.mpr (Or.inr k.lt_succ_self)), htake⟩
    · intro h
      refine roundRobin_second hk ?_ htake habove hbelow
      rcases h with hlast | ⟨q, hq, haccept⟩
      · exact lt_of_le_of_lt hk hlast
      · -- the loop stops at the first queue with room
        refine lt_of_le_of_lt (Nat.le_of_not_lt fun hgt => ?_) hq
        rw [hbelow q hgt] at haccept
        exact absurd haccept (by decide)
  | overflow habove hbelow =>
    constructor
    · intro h
      exact Or.inl (h.below l (mem_touched.mpr (Or.inr l.lt_succ_self)))
    · intro h
      have hrefused : ∀ q < call.nQueues, call.accepts q = false := by
        intro q hq
        rcases Nat.lt_or_ge l q with hgt | hle
        · exact habove q hgt hq
        · exact hbelow q hle
      have hlast : l < call.nQueues := by
        rcases h with hlast | ⟨q, hq, haccept⟩
        · exact hlast
        · rw [hrefused q hq] at haccept
          exact absurd haccept (by decide)
      refine roundRobin_overflow (nodup_touched (l + 1) le_rfl) (fun q => ?_) hrefused
      rw [mem_touched]
      omega

/-! ### The calls of a thread -/

/-- Every step of a run is a call on the index it found. -/
theorem enqueueRun_result {last : Option ℕ} {calls : List EnqueueCall} {step : EnqueueStep}
    (h : step ∈ enqueueRun last calls) : step.result = enqueueDescriptor step.call step.last := by
  induction calls generalizing last with
  | nil => exact absurd h List.not_mem_nil
  | cons call calls ih =>
    rw [enqueueRun] at h
    rcases List.mem_cons.mp h with rfl | hrest
    · rfl
    · exact ih hrest

/-- **The calls of a thread** all go round the queues of their devices exactly when none of
them finds an index beyond its device while every queue of the device is full. -/
theorem enqueueRun_roundRobin_iff (calls : List EnqueueCall) :
    (∀ step ∈ enqueueRun none calls, RoundRobin step.call step.result)
      ↔ ∀ step ∈ enqueueRun none calls,
          step.call.lastWqIdx step.last < step.call.nQueues
            ∨ ∃ q < step.call.nQueues, step.call.accepts q = true := by
  refine forall₂_congr fun step hstep => ?_
  rw [enqueueRun_result hstep]
  exact roundRobin_iff step.call step.last

/-- A device with two queues and one with a single queue, all of them full: the second call
goes on to a queue that its device does not have. -/
theorem enqueueRun_two_devices :
    ¬∀ step ∈ enqueueRun none [⟨2, fun _ => false, by decide⟩, ⟨1, fun _ => false, by decide⟩],
      RoundRobin step.call step.result := by
  intro h
  have hbeyond := (h _ (List.mem_cons_of_mem _ List.mem_cons_self)).below 1 (by decide)
  exact absurd hbeyond (by decide)

/-- An index below the number of queues stays there. -/
theorem lastWqIdx_enqueueDescriptor_lt {call : EnqueueCall} {last : Option ℕ}
    (h : call.lastWqIdx last < call.nQueues) :
    (enqueueDescriptor call last).lastWqIdx < call.nQueues := by
  have hcases := enqueueDescriptor_cases call last
  generalize call.lastWqIdx last = l at hcases h
  generalize enqueueDescriptor call last = result at hcases ⊢
  cases hcases with
  | first _ hk => exact hk
  | second _ hk => exact lt_of_le_of_lt hk h
  | overflow => exact h

/-- **Devices with the same number of queues** never disturb each other, however their
queues fill up. -/
theorem enqueueRun_of_same_count {n : ℕ} {calls : List EnqueueCall}
    (h : ∀ call ∈ calls, call.nQueues = n) :
    ∀ step ∈ enqueueRun none calls, RoundRobin step.call step.result := by
  -- the index is below the common number, from the first call on
  have hrun : ∀ last : Option ℕ, (∀ i ∈ last, i < n) → ∀ step ∈ enqueueRun last calls,
      RoundRobin step.call step.result := by
    induction calls with
    | nil =>
      intro last _ step hstep
      exact absurd hstep List.not_mem_nil
    | cons call calls ih =>
      intro last hlast step hstep
      have hn : call.nQueues = n := h call List.mem_cons_self
      have hlt : call.lastWqIdx last < call.nQueues := by
        cases last with
        | none => exact Nat.sub_lt call.pos Nat.one_pos
        | some i => exact hn ▸ hlast i rfl
      rw [enqueueRun] at hstep
      rcases List.mem_cons.mp hstep with rfl | hrest
      · exact (roundRobin_iff call last).mpr (Or.inl hlt)
      · refine ih (fun c hc => h c (List.mem_cons_of_mem _ hc)) _ ?_ step hrest
        intro i hi
        obtain rfl := Option.some.inj hi
        exact hn ▸ lastWqIdx_enqueueDescriptor_lt hlt
  exact hrun none (by simp)

end DataMover
