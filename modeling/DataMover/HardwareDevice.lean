import DataMover.HwDevice
import DataMover.Lib.Cyclic
import DataMover.MakeDescriptor

/-!
# Choosing a device

`hardware_device::submit`: the devices are looked at in a circle, from the one after the
device the thread looked at last.  Those on another NUMA node are passed over, the others
are offered the descriptor, until one takes it or every device has been looked at.

The loop is written over any `enqueue` with any state of its own, so that a device may
accept and refuse as it likes; `enqueue` is the one of the source.  The table of devices is
an array of eight, so the 32-bit index never wraps and is a natural number here.

## Main definitions

* `HwDispatcher` — the table of devices.
* `HwDispatcher.submit` — one call, with the devices it looks at and its offers.
* `HwDispatcher.submitRun` — the calls of one thread, in order.
* `enqueue` — an offer to the queues of a device.

## Main results

* `HwDispatcher.submitLoop_spec` — what the loop does, from any index.
* `submitRun_balanced` — the calls of a thread, whatever the devices do.
* `hardwareSubmit_apply` — a submission changes the completion record and nothing else.
-/

namespace DataMover

open ByteMemory Cyclic

/-- `hw_device`: a device without a queue is never put into the table. -/
structure HwDevice where
  numaId : BitVec 64
  queueCount : ℕ
  pos : 0 < queueCount

/-- `hw_dispatcher`: the array of devices, and how many of its entries are in use. -/
structure HwDispatcher where
  devices : ℕ → HwDevice
  deviceCount : ℕ

/-- `get_numa_id`: Linux keeps the node above the low twelve bits of `TSC_AUX`. -/
def getNumaId (tscAux : BitVec 32) : BitVec 32 := tscAux >>> 12

/-- A call of `hardware_device::submit`: the NUMA id it asks for, the register of the
processor it runs on, and how the devices answer to its descriptor. -/
structure SubmitCall (σ : Type*) where
  numaId : BitVec 32
  tscAux : BitVec 32
  enqueue : ℕ → σ → Bool × σ

/-- `own_numa_id`. -/
def SubmitCall.ownNumaId {σ : Type*} (call : SubmitCall σ) : BitVec 32 :=
  if call.numaId = BitVec.allOnes 32 then getNumaId call.tscAux else call.numaId

/-- What a call leaves behind: its status, `current_device_idx`, the state of the devices,
the devices it looked at, and its offers with their answers. -/
structure Submitted (σ : Type*) where
  status : SubmissionStatus
  currentDeviceIdx : ℕ
  state : σ
  looked : List ℕ
  offered : List (ℕ × Bool)

/-- One step of a thread: a call, the index it found and what it left behind. -/
structure SubmitStep (σ : Type*) where
  call : SubmitCall σ
  start : ℕ
  result : Submitted σ

namespace HwDispatcher

variable {σ : Type*} (t : HwDispatcher)

/-- `dispatcher.device(idx)`. -/
def device (idx : ℕ) : HwDevice := t.devices (idx % t.deviceCount)

/-- `is_hw_support`: the initialization succeeds when it finds a device. -/
def isHwSupport : Bool := decide (0 < t.deviceCount)

/-- The device is on the node. -/
def onNode (ownNumaId : BitVec 32) (d : ℕ) : Bool :=
  ownNumaId.setWidth 64 == (t.devices d).numaId

/-- The loop of `submit`, for the devices that are left to try. -/
def submitLoop (ownNumaId : BitVec 32) (enqueue : ℕ → σ → Bool × σ) : ℕ → ℕ → σ → Submitted σ
  | 0, idx, s => ⟨.queueBusy, idx, s, [], []⟩
  | left + 1, idx, s =>
    let device := idx % t.deviceCount
    let next := (idx + 1) % t.deviceCount
    if ownNumaId.setWidth 64 ≠ (t.device idx).numaId then
      let r := submitLoop ownNumaId enqueue left next s
      { r with looked := device :: r.looked }
    else
      let (accepted, s) := enqueue device s
      if accepted then ⟨.success, next, s, [device], [(device, true)]⟩
      else
        let r := submitLoop ownNumaId enqueue left next s
        { r with looked := device :: r.looked, offered := (device, false) :: r.offered }

/-- `hardware_device::submit`. -/
def submit (call : SubmitCall σ) (idx : ℕ) (s : σ) : Submitted σ :=
  if t.isHwSupport then t.submitLoop call.ownNumaId call.enqueue t.deviceCount idx s
  else ⟨.failure, idx, s, [], []⟩

/-- The calls of one thread, from the index `current_device_idx` has. -/
def submitRun (idx : ℕ) (s : σ) : List (SubmitCall σ) → List (SubmitStep σ)
  | [] => []
  | call :: calls =>
    let result := t.submit call idx s
    ⟨call, idx, result⟩ :: submitRun result.currentDeviceIdx result.state calls

end HwDispatcher

/-- `enqueue`: the completion record is zeroed, then the descriptor is offered to the queues
of the device.  The state is the memory and the `last_wq_idx` of the thread; which queues
have room is up to the hardware. -/
def enqueue (t : HwDispatcher) (dsc : ℕ) (accepts : ℕ → ℕ → Bool) (d : ℕ)
    (s : Memory × Option ℕ) : Bool × (Memory × Option ℕ) :=
  let m := paste s.1 (getCompletionRecord s.1 dsc) recordSize fun _ => 0#8
  let r := enqueueDescriptor ⟨(t.devices d).queueCount, accepts d, (t.devices d).pos⟩ s.2
  (r.status == .ok, (m, some r.lastWqIdx))

/-! ### The loop -/

namespace HwDispatcher

variable {σ : Type*} {t : HwDispatcher} {ownNumaId : BitVec 32} {enqueue : ℕ → σ → Bool × σ}

/-- How a loop with `left` devices to try can end: the last offer is taken, or all of them
are refused and no device is left. -/
inductive Ended (left : ℕ) : SubmissionStatus → List ℕ → List (ℕ × Bool) → Prop
  | success (looked : List ℕ) (refused : List (ℕ × Bool)) (d : ℕ)
      (h : ∀ o ∈ refused, o.2 = false) : Ended left .success looked (refused ++ [(d, true)])
  | busy (looked : List ℕ) (offered : List (ℕ × Bool)) (hlen : looked.length = left)
      (h : ∀ o ∈ offered, o.2 = false) : Ended left .queueBusy looked offered

theorem Ended.cons {left : ℕ} {status : SubmissionStatus} {looked : List ℕ}
    {offered offers : List (ℕ × Bool)} (h : Ended left status looked offered) (d : ℕ)
    (hoffers : ∀ o ∈ offers, o.2 = false) :
    Ended (left + 1) status (d :: looked) (offers ++ offered) := by
  have happend : ∀ {l : List (ℕ × Bool)}, (∀ o ∈ l, o.2 = false) →
      ∀ o ∈ offers ++ l, o.2 = false := by
    intro l hl o ho
    rcases List.mem_append.mp ho with ho | ho
    · exact hoffers o ho
    · exact hl o ho
  cases h with
  | success _ refused d' h =>
    rw [← List.append_assoc]
    exact .success _ _ _ (happend h)
  | busy _ _ hlen h => exact .busy _ _ (congrArg Nat.succ hlen) (happend h)

/-- What the loop does from the index `idx` on. -/
structure LoopSpec (t : HwDispatcher) (ownNumaId : BitVec 32) (left idx : ℕ) (r : Submitted σ) :
    Prop where
  looked : r.looked = turns t.deviceCount idx r.looked.length
  length_le : r.looked.length ≤ left
  index : r.currentDeviceIdx = (idx + r.looked.length) % t.deviceCount
  offered : r.offered.map Prod.fst = r.looked.filter (t.onNode ownNumaId)
  ended : Ended left r.status r.looked r.offered

/-- One more device before the loop: it is looked at, and its offer, if it gets one, is
refused. -/
theorem LoopSpec.cons {left idx : ℕ} {r : Submitted σ}
    (h : LoopSpec t ownNumaId left ((idx + 1) % t.deviceCount) r) (offers : List (ℕ × Bool))
    (hoffers : offers.map Prod.fst = [idx % t.deviceCount].filter (t.onNode ownNumaId))
    (hrefused : ∀ o ∈ offers, o.2 = false) :
    LoopSpec t ownNumaId (left + 1) idx
      { r with looked := idx % t.deviceCount :: r.looked, offered := offers ++ r.offered } where
  looked := by
    rw [List.length_cons, turns_succ, ← turns_mod t.deviceCount (idx + 1), ← h.looked]
  length_le := Nat.succ_le_succ h.length_le
  index := by
    rw [h.index, List.length_cons, Nat.mod_add_mod]
    congr 1
    omega
  offered := by
    rw [List.map_append, h.offered, hoffers, ← List.filter_append, List.singleton_append]
  ended := h.ended.cons (idx % t.deviceCount) hrefused

/-- **What the loop does**, whatever the devices answer. -/
theorem submitLoop_spec (left : ℕ) {idx : ℕ} (hidx : idx < t.deviceCount) (s : σ) :
    LoopSpec t ownNumaId left idx (t.submitLoop ownNumaId enqueue left idx s) := by
  have hpos : 0 < t.deviceCount := lt_of_le_of_lt (Nat.zero_le idx) hidx
  induction left generalizing idx s with
  | zero =>
    refine ⟨rfl, le_rfl, (Nat.mod_eq_of_lt hidx).symm, rfl, .busy _ _ rfl ?_⟩
    intro o ho
    exact absurd ho List.not_mem_nil
  | succ left ih =>
    have hnext : (idx + 1) % t.deviceCount < t.deviceCount := Nat.mod_lt _ hpos
    rw [submitLoop]
    by_cases hnode : ownNumaId.setWidth 64 = (t.device idx).numaId
    · have hon : t.onNode ownNumaId (idx % t.deviceCount) = true := beq_iff_eq.mpr hnode
      rw [if_neg (not_not.mpr hnode)]
      rcases hanswer : enqueue (idx % t.deviceCount) s with ⟨accepted, s'⟩
      cases accepted with
      | true =>
        refine ⟨?_, Nat.succ_le_succ (Nat.zero_le left), rfl, ?_, .success _ [] _ (by simp)⟩
        · simp only [List.length_singleton, turns_succ, turns_zero, if_true]
        · simp only [if_true, List.map_cons, List.map_nil, List.filter_cons, hon, List.filter_nil]
      | false =>
        refine (ih hnext s').cons [(idx % t.deviceCount, false)] ?_ ?_
        · rw [List.filter_cons_of_pos hon]
          rfl
        · intro o ho
          rw [List.mem_singleton.mp ho]
    · have hoff : t.onNode ownNumaId (idx % t.deviceCount) = false := beq_eq_false_iff_ne.mpr hnode
      rw [if_pos hnode]
      refine (ih hnext s).cons [] ?_ ?_
      · rw [List.filter_cons_of_neg (by simp [hoff])]
        rfl
      · intro o ho
        exact absurd ho List.not_mem_nil

/-- **What a call should do**, with `idx` the index it finds: look at the devices in a
circle, at most one round, offer the descriptor to those on the node and to no others, each
once and until one takes it, succeed when one does, and be busy when all of them have
refused. -/
structure Balanced (t : HwDispatcher) (ownNumaId : BitVec 32) (idx : ℕ) (r : Submitted σ) :
    Prop where
  on_node : ∀ o ∈ r.offered, ownNumaId.setWidth 64 = (t.devices o.1).numaId
  once : (r.offered.map Prod.fst).Nodup
  round : r.looked.length ≤ t.deviceCount ∧ r.looked = turns t.deviceCount idx r.looked.length
  in_order : r.offered.map Prod.fst = r.looked.filter (t.onNode ownNumaId)
  at_most_one : (r.offered.filter Prod.snd).length ≤ 1
  success_iff : r.status = .success ↔ ∃ o ∈ r.offered, o.2 = true
  busy_iff : r.status = .queueBusy ↔ ∀ d < t.deviceCount,
    ownNumaId.setWidth 64 = (t.devices d).numaId → (d, false) ∈ r.offered
  index_lt : r.currentDeviceIdx < t.deviceCount
  index_eq : r.currentDeviceIdx = (idx + r.looked.length) % t.deviceCount

theorem Ended.accepted {left : ℕ} {status : SubmissionStatus} {looked : List ℕ}
    {offered : List (ℕ × Bool)} (h : Ended left status looked offered) :
    (offered.filter Prod.snd).length ≤ 1 ∧ (status = .success ↔ ∃ o ∈ offered, o.2 = true)
      ∧ (status = .queueBusy ↔ ∀ o ∈ offered, o.2 = false)
      ∧ (status = .queueBusy → looked.length = left) := by
  have hnone : ∀ {l : List (ℕ × Bool)}, (∀ o ∈ l, o.2 = false) → l.filter Prod.snd = [] := by
    intro l hl
    refine List.filter_eq_nil_iff.mpr fun o ho => ?_
    rw [hl o ho]
    decide
  cases h with
  | success _ refused d h =>
    have hmem : (d, true) ∈ refused ++ [(d, true)] := List.mem_append_right _ List.mem_cons_self
    refine ⟨?_, ⟨fun _ => ⟨_, hmem, rfl⟩, fun _ => rfl⟩, ⟨fun hbusy => ?_, fun hall => ?_⟩,
      fun hbusy => ?_⟩
    · rw [List.filter_append, hnone h]
      exact le_rfl
    · exact absurd hbusy (by decide)
    · exact absurd (hall _ hmem) (by simp)
    · exact absurd hbusy (by decide)
  | busy _ _ hlen h =>
    refine ⟨?_, ⟨fun hsuccess => absurd hsuccess (by decide), ?_⟩, ⟨fun _ => h, fun _ => rfl⟩,
      fun _ => hlen⟩
    · rw [hnone h]
      exact Nat.zero_le 1
    · rintro ⟨o, ho, htrue⟩
      rw [h o ho] at htrue
      exact absurd htrue (by decide)

/-- A loop that may try every device is balanced. -/
theorem LoopSpec.balanced {idx : ℕ} {r : Submitted σ} (hpos : 0 < t.deviceCount)
    (h : LoopSpec t ownNumaId t.deviceCount idx r) : Balanced t ownNumaId idx r := by
  obtain ⟨hone, hsuccess, hbusy, hlen⟩ := h.ended.accepted
  have hnodup : (r.offered.map Prod.fst).Nodup := by
    rw [h.offered, h.looked]
    exact (nodup_turns h.length_le).filter _
  have hnode : ∀ o ∈ r.offered, o.1 ∈ r.looked ∧ t.onNode ownNumaId o.1 = true := by
    intro o ho
    have hmem : o.1 ∈ r.offered.map Prod.fst := List.mem_map_of_mem ho
    rw [h.offered] at hmem
    exact List.mem_filter.mp hmem
  have hlt : ∀ o ∈ r.offered, o.1 < t.deviceCount := by
    intro o ho
    have hmem := (hnode o ho).1
    rw [h.looked] at hmem
    exact lt_of_mem_turns hpos hmem
  refine ⟨fun o ho => beq_iff_eq.mp (hnode o ho).2, hnodup, ⟨h.length_le, h.looked⟩, h.offered,
    hone, hsuccess, ?_, ?_, h.index⟩
  · rw [hbusy]
    constructor
    · -- every device has been looked at, and those on the node have been offered
      intro hrefused d hd hd'
      have hmem : d ∈ r.offered.map Prod.fst := by
        rw [h.offered, h.looked, hlen (hbusy.mpr hrefused)]
        exact List.mem_filter.mpr ⟨mem_turns_round hd, beq_iff_eq.mpr hd'⟩
      obtain ⟨o, ho, rfl⟩ := List.mem_map.mp hmem
      have hpair : o = (o.1, false) := Prod.ext rfl (hrefused o ho)
      exact hpair ▸ ho
    · -- an offer is one of those, and each device has only one
      intro hall o ho
      have hpair := hall o.1 (hlt o ho) (beq_iff_eq.mp (hnode o ho).2)
      have heq := List.inj_on_of_nodup_map hnodup ho hpair rfl
      exact congrArg Prod.snd heq
  · rw [h.index]
    exact Nat.mod_lt _ hpos

theorem submit_balanced (call : SubmitCall σ) {idx : ℕ} (hidx : idx < t.deviceCount) (s : σ) :
    Balanced t call.ownNumaId idx (t.submit call idx s) := by
  have hpos : 0 < t.deviceCount := lt_of_le_of_lt (Nat.zero_le idx) hidx
  rw [submit, isHwSupport, if_pos (decide_eq_true hpos)]
  exact (submitLoop_spec t.deviceCount hidx s).balanced hpos

/-- A run from any index: every call is balanced, and the devices they look at come one
after the other, from one call to the next. -/
theorem submitRun_spec (calls : List (SubmitCall σ)) {idx : ℕ} (hidx : idx < t.deviceCount)
    (s : σ) :
    (∀ step ∈ t.submitRun idx s calls, Balanced t step.call.ownNumaId step.start step.result)
      ∧ ∃ k, (t.submitRun idx s calls).flatMap (fun step => step.result.looked)
          = turns t.deviceCount idx k := by
  induction calls generalizing idx s with
  | nil =>
    refine ⟨fun step hstep => absurd hstep List.not_mem_nil, 0, rfl⟩
  | cons call calls ih =>
    have hcall := submit_balanced call hidx s
    obtain ⟨hrest, k, hk⟩ := ih hcall.index_lt (t.submit call idx s).state
    rw [submitRun]
    refine ⟨fun step hstep => ?_, (t.submit call idx s).looked.length + k, ?_⟩
    · rcases List.mem_cons.mp hstep with rfl | hmem
      · exact hcall
      · exact hrest step hmem
    · rw [List.flatMap_cons, hk, hcall.index_eq, turns_mod, turns_add, ← hcall.round.2]

end HwDispatcher

/-! ### Threads -/

/-- **The calls of a thread**, with any devices, any NUMA ids and any answers: every one of
them is balanced, and together they look at the devices in one circle, from the first
device on. -/
theorem submitRun_balanced {σ : Type*} (t : HwDispatcher) (hpos : 0 < t.deviceCount) (s : σ)
    (calls : List (SubmitCall σ)) :
    (∀ step ∈ t.submitRun 0 s calls,
        HwDispatcher.Balanced t step.call.ownNumaId step.start step.result)
      ∧ ∃ k, (t.submitRun 0 s calls).flatMap (fun step => step.result.looked)
          = turns t.deviceCount 0 k :=
  HwDispatcher.submitRun_spec calls hpos s

/-- A device with one queue on each of the nodes 0 and 1. -/
def twoNodes : HwDispatcher where
  devices d := if d = 0 then ⟨0#64, 1, Nat.one_pos⟩ else ⟨1#64, 1, Nat.one_pos⟩
  deviceCount := 2

/-- Two calls, the first for node 1, where it is refused, the second for the node of the
thread. -/
theorem submitRun_balanced_twoNodes :
    let calls : List (SubmitCall Unit) :=
      [⟨1#32, 0#32, fun _ s => (false, s)⟩, ⟨0xFFFFFFFF#32, 0x1003#32, fun _ s => (true, s)⟩]
    0 < twoNodes.deviceCount
      ∧ (∀ step ∈ twoNodes.submitRun 0 () calls,
          HwDispatcher.Balanced twoNodes step.call.ownNumaId step.start step.result)
      ∧ ∃ k, (twoNodes.submitRun 0 () calls).flatMap (fun step => step.result.looked)
          = turns twoNodes.deviceCount 0 k :=
  ⟨by decide, submitRun_balanced twoNodes (by decide) () _⟩

/-! ### The memory -/

section Memory

variable {t : HwDispatcher} {dsc : ℕ} {accepts : ℕ → ℕ → Bool}

/-- An offer changes the completion record and nothing else. -/
theorem enqueue_apply (d : ℕ) (s : Memory × Option ℕ) {x : ℕ}
    (hx : x ∉ Region.addrs ⟨getCompletionRecord s.1 dsc, recordSize⟩) :
    (enqueue t dsc accepts d s).2.1 x = s.1 x := by
  simp only [enqueue]
  rw [paste_apply_of_notMem hx]

/-- What no offer changes, the loop does not change. -/
theorem HwDispatcher.submitLoop_invariant {σ : Type*} {ownNumaId : BitVec 32}
    {enqueue : ℕ → σ → Bool × σ} (I : σ → Prop) (hstep : ∀ d s, I s → I (enqueue d s).2)
    (left idx : ℕ) {s : σ} (hs : I s) :
    I (t.submitLoop ownNumaId enqueue left idx s).state := by
  induction left generalizing idx s with
  | zero => exact hs
  | succ left ih =>
    rw [submitLoop]
    by_cases hnode : ownNumaId.setWidth 64 = (t.device idx).numaId
    · have hs' := hstep (idx % t.deviceCount) s hs
      rw [if_neg (not_not.mpr hnode)]
      generalize enqueue (idx % t.deviceCount) s = answer at hs' ⊢
      obtain ⟨accepted, s'⟩ := answer
      cases accepted with
      | true => exact hs'
      | false => exact ih _ hs'
    · rw [if_pos hnode]
      exact ih _ hs

/-- **A submission changes the completion record and nothing else**, however many devices
refuse it. -/
theorem hardwareSubmit_apply {m : Memory} {last : Option ℕ} {call : SubmitCall (Memory × Option ℕ)}
    (hcall : call.enqueue = enqueue t dsc accepts)
    (hapart : Region.Apart ⟨dsc, descriptorSize⟩ ⟨getCompletionRecord m dsc, recordSize⟩)
    (idx : ℕ) {x : ℕ} (hx : x ∉ Region.addrs ⟨getCompletionRecord m dsc, recordSize⟩) :
    (t.submit call idx (m, last)).state.1 x = m x := by
  -- the descriptor is not touched either, so every offer finds the same record
  let I : Memory × Option ℕ → Prop := fun s =>
    ∀ x, x ∉ Region.addrs ⟨getCompletionRecord m dsc, recordSize⟩ → s.1 x = m x
  have hrecord : ∀ s, I s → getCompletionRecord s.1 dsc = getCompletionRecord m dsc := by
    intro s hs
    have hwithin : AnyDescriptor.completionRecordAddress.Within descriptorSize := by decide
    exact Field.get_congr hwithin fun y hy => hs y (hapart.notMem hy)
  have hstep : ∀ d s, I s → I (call.enqueue d s).2 := by
    intro d s hs y hy
    rw [hcall, enqueue_apply d s ((hrecord s hs).symm ▸ hy)]
    exact hs y hy
  have hloop : I (t.submit call idx (m, last)).state := by
    rw [HwDispatcher.submit]
    split
    · exact HwDispatcher.submitLoop_invariant I hstep _ _ fun _ _ => rfl
    · exact fun _ _ => rfl
  exact hloop x hx

end Memory

end DataMover
