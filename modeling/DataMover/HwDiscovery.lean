import DataMover.HardwareDevice
import DataMover.Lib.Heap
import DataMover.Lib.Loop

/-!
# Discovering the hardware

`hw_dispatcher::initialize_hw` walks over the devices of the driver, and
`hw_device::initialize_new_device` over the work queues of each.  Both write into arrays of eight
through an iterator that moves on only past a usable entry, and neither looks where the iterator
stands: a ninth usable queue, and any device after the eighth usable one, is written behind the
array, a device even when it turns out to be unusable.

The arrays are tables without an end that keep a record of the slots written, so that the model
goes on where the program has left its memory.

## Main definitions

* `AccfgWq`, `AccfgDevice`, `Driver` — what the driver and the system answer.
* `initializeNewQueue`, `initializeNewDevice`, `initializeHw` — the functions of the source.
* `StaysWithin` — the tables are kept within their bounds, the queues in ascending order.
* `FitsTables` — no more devices and queues than there are slots.

## Main results

* `queueLoop`, `deviceLoop` — what the two loops leave after any number of entries.
* `initializeHw_staysWithin_iff` — when the tables are kept.
* `initializeHw_devices` — no device and no queue is lost on the way.
* `queueCount_forSubmission` — the tables that submission works on.
-/

namespace DataMover

namespace Discovery

open Heap

/-! ### What the driver answers -/

/-- `accfg_wq_state`. -/
inductive WqState
  | disabled | enabled | quiescing | locked | unknown
  deriving DecidableEq, Repr

/-- `accfg_wq_mode`. -/
inductive WqMode
  | shared | dedicated | modeUnknown
  deriving DecidableEq, Repr

/-- `accfg_device_state`. -/
inductive DeviceState
  | disabled | enabled | unknown
  deriving DecidableEq, Repr

/-- A work queue: what the driver says of it, and how the system answers to opening and
mapping its portal. -/
structure AccfgWq where
  state : WqState
  mode : WqMode
  /-- `dsa_work_queue_get_device_path`: negative for an error. -/
  pathStatus : ℤ
  /-- `open`: negative for an error. -/
  fd : ℤ
  /-- `mmap`: nothing for `MAP_FAILED`. -/
  regionPtr : Option (BitVec 64)
  /-- The traffic class B of the group, when there is a group. -/
  group : Option ℤ
  priority : BitVec 32
  deriving DecidableEq, Repr

/-- A device. -/
structure AccfgDevice where
  name : List (BitVec 8)
  version : BitVec 32
  state : DeviceState
  genCapRegister : BitVec 64
  numaNode : BitVec 64
  workQueues : List AccfgWq
  deriving DecidableEq, Repr

/-- `dsahw_status_t`, of the functions modelled here. -/
inductive DsahwStatus
  | ok | libaccelNotFound | libaccelError | workQueuesNotAvailable
  deriving DecidableEq, Repr

/-- The driver: how its loading and the creation of a context end, and its devices. -/
structure Driver where
  initializeStatus : DsahwStatus
  contextCreationStatus : BitVec 32
  context : BitVec 64
  devices : List AccfgDevice
  deriving DecidableEq, Repr

/-! ### The tables -/

/-- `MAX_DEVICE_COUNT`. -/
def maxDevices : ℕ := 8

/-- `MAX_WORK_QUEUE_COUNT`. -/
def maxWorkingQueues : ℕ := 8

/-- `hw_queue::supported_memory_type`. -/
inductive SupportedMemoryType
  | durable | nonDurable
  deriving DecidableEq, Repr

/-- The members of `hw_queue` that its assignment moves.  Regions are mapped at the beginning of
a page, so `portal_offset_` is always 0 here. -/
structure HwQueue where
  priority : BitVec 32
  portalMask : BitVec 64
  portalPtr : BitVec 64
  deriving DecidableEq, Repr

/-- `hw_queue::priority`, by which the queues are compared. -/
def HwQueue.priorityKey (queue : HwQueue) : ℤ := queue.priority.toInt

/-- `hw_device`.  The assignment of a queue leaves out `memory_type_`, which so belongs to the
slot and not to the queue in it. -/
structure HwDevice where
  workingQueues : Table HwQueue
  memoryTypes : ℕ → SupportedMemoryType
  queueCount : ℕ
  genCapRegister : BitVec 64
  numaNodeId : BitVec 64
  versionMajor : BitVec 32
  versionMinor : BitVec 32

/-- `hw_device()`. -/
def HwDevice.fresh : HwDevice where
  workingQueues := ⟨fun _ => ⟨0, 0, 0⟩, []⟩
  memoryTypes := fun _ => .nonDurable
  queueCount := 0
  genCapRegister := 0
  numaNodeId := 0
  versionMajor := 0
  versionMinor := 0

/-- `hw_dispatcher`. -/
structure HwDispatcher where
  devices : Table HwDevice
  deviceCount : ℕ
  driverContextPtr : BitVec 64

/-- `hw_dispatcher`, before `initialize_hw`. -/
def HwDispatcher.fresh : HwDispatcher where
  devices := ⟨fun _ => .fresh, []⟩
  deviceCount := 0
  driverContextPtr := 0

/-! ### A queue -/

/-- `hw_queue::initialize_new_queue`: what is written into the slot of the queue, or the status
with which the slot is left as it was. -/
def initializeNewQueue (wq : AccfgWq) : Except DsahwStatus (HwQueue × SupportedMemoryType) :=
  if wq.state ≠ .enabled then .error .workQueuesNotAvailable
  else if wq.mode ≠ .shared then .error .workQueuesNotAvailable
  else if wq.pathStatus < 0 then .error .libaccelError
  else if wq.fd < 0 then .error .libaccelError
  else
    match wq.regionPtr, wq.group with
    | none, _ => .error .libaccelError
    | some _, none => .error .libaccelError
    | some regionPtr, some trafficClassB =>
      .ok (⟨wq.priority, regionPtr &&& ~~~0xFFF#64, regionPtr⟩,
        if trafficClassB ≠ 0 then .durable else .nonDurable)

/-- A queue that descriptors can be submitted to. -/
def AccfgWq.usable (wq : AccfgWq) : Bool :=
  wq.state = .enabled ∧ wq.mode = .shared ∧ 0 ≤ wq.pathStatus ∧ 0 ≤ wq.fd ∧
    wq.regionPtr.isSome ∧ wq.group.isSome

/-- What a usable queue leaves in its slot. -/
def AccfgWq.toHwQueue (wq : AccfgWq) : HwQueue :=
  ⟨wq.priority, wq.regionPtr.getD 0 &&& ~~~0xFFF#64, wq.regionPtr.getD 0⟩

/-! ### A device -/

/-- The word at the beginning of a string; behind its end there are zeros. -/
def loadWord (s : List (BitVec 8)) : BitVec 32 :=
  s.getD 3 0 ++ s.getD 2 0 ++ s.getD 1 0 ++ s.getD 0 0

/-- `own_search_device_name`: three letters of either case anywhere in a string. -/
def ownSearchDeviceName (name : BitVec 32) (nameSize : ℕ) : List (BitVec 8) → Bool
  | [] => false
  | c :: src =>
    if (c :: src).getD nameSize 0 = 0 then false
    else if name = loadWord (c :: src) ||| 0xFF202020 then true
    else ownSearchDeviceName name nameSize src

/-- `DSA_DEVICE_ID`. -/
def dsaDeviceId : BitVec 32 := 0xFF617364

/-- `DEVICE_NAME_LENGTH`, one less than the name is long. -/
def deviceNameLength : ℕ := 2

/-- One turn of the loop over the work queues. -/
def queueStep (s : HwDevice × ℕ) (wq : AccfgWq) : HwDevice × ℕ :=
  match initializeNewQueue wq with
  | .error _ => s
  | .ok (queue, memoryType) =>
    let (device, wqIt) := s
    let workingQueues := device.workingQueues.write wqIt queue
    ({ device with
        workingQueues := pushHeap HwQueue.priorityKey workingQueues (wqIt + 1)
        memoryTypes := Function.update device.memoryTypes wqIt memoryType },
      wqIt + 1)

/-- The end of `hw_device::initialize_new_device`, once the iterator stands behind the last
usable queue: the number of the queues and their order. -/
def finishDevice (device : HwDevice) (wqIt : ℕ) : HwDevice × DsahwStatus :=
  let device := { device with queueCount := wqIt % 2 ^ 32 }
  let workingQueues :=
    if 1 < device.queueCount then
      sortHeap HwQueue.priorityKey device.workingQueues device.queueCount
    else device.workingQueues
  let device := { device with workingQueues := workingQueues }
  if device.queueCount = 0 then (device, .workQueuesNotAvailable) else (device, .ok)

/-- `hw_device::initialize_new_device`, on the slot `device`. -/
def initializeNewDevice (device : HwDevice) (descriptor : AccfgDevice) :
    HwDevice × DsahwStatus :=
  let isDsaDevice := ownSearchDeviceName dsaDeviceId deviceNameLength descriptor.name
  let device := { device with
    versionMajor := descriptor.version >>> 8
    versionMinor := descriptor.version &&& 0xFF }
  if !isDsaDevice || 2#32 < device.versionMajor then (device, .workQueuesNotAvailable)
  else if descriptor.state ≠ .enabled then (device, .workQueuesNotAvailable)
  else
    let device := { device with
      genCapRegister := descriptor.genCapRegister
      numaNodeId := descriptor.numaNode }
    let (device, wqIt) := descriptor.workQueues.foldl queueStep (device, 0)
    finishDevice device wqIt

/-! ### The dispatcher -/

/-- One turn of the loop over the devices. -/
def deviceStep (s : Table HwDevice × ℕ) (descriptor : AccfgDevice) : Table HwDevice × ℕ :=
  let (devices, deviceIt) := s
  let (device, status) := initializeNewDevice (devices.cells deviceIt) descriptor
  (devices.write deviceIt device, if status = .ok then deviceIt + 1 else deviceIt)

/-- `hw_dispatcher::initialize_hw`. -/
def initializeHw (driver : Driver) : HwDispatcher × DsahwStatus :=
  if driver.initializeStatus ≠ .ok then (.fresh, driver.initializeStatus)
  else if driver.contextCreationStatus ≠ 0 then (.fresh, .libaccelError)
  else
    let (devices, deviceIt) := driver.devices.foldl deviceStep (HwDispatcher.fresh.devices, 0)
    let t := { HwDispatcher.fresh with devices := devices, deviceCount := deviceIt }
    if t.deviceCount ≤ 0 then (t, .workQueuesNotAvailable)
    else ({ t with driverContextPtr := driver.context }, .ok)

/-! ### The loop over the queues -/

/-- A queue is usable or left out. -/
theorem initializeNewQueue_cases (wq : AccfgWq) :
    (wq.usable = true ∧ ∃ memoryType, initializeNewQueue wq = .ok (wq.toHwQueue, memoryType)) ∨
      (wq.usable = false ∧ ∃ status, initializeNewQueue wq = .error status) := by
  rcases wq with ⟨state, mode, pathStatus, fd, regionPtr, group, priority⟩
  simp only [initializeNewQueue, AccfgWq.usable, AccfgWq.toHwQueue]
  by_cases hstate : state = .enabled
  · by_cases hmode : mode = .shared
    · by_cases hpath : pathStatus < 0
      · right
        simp [hstate, hmode, hpath]
      · by_cases hfd : fd < 0
        · right
          simp [hstate, hmode, hpath, hfd]
        · cases regionPtr <;> cases group <;>
            simp [hstate, hmode, hpath, hfd, not_lt.mp hpath, not_lt.mp hfd]
    · right
      simp [hstate, hmode]
  · right
    simp [hstate]

/-- A list with one more element, filtered. -/
theorem filter_concat {α : Type*} (p : α → Bool) (l : List α) (a : α) :
    (l ++ [a]).filter p = if p a = true then l.filter p ++ [a] else l.filter p := by
  rw [List.filter_append]
  split
  · next h => rw [List.filter_cons_of_pos h, List.filter_nil]
  · next h => rw [List.filter_cons_of_neg h, List.filter_nil, List.append_nil]

/-- The queues of a device that can be used. -/
def usableQueues (workQueues : List AccfgWq) : List AccfgWq := workQueues.filter (·.usable)

/-- What the loop over the queues has made of the slot `start` after the queues `done`. -/
structure QueueLoop (start : HwDevice) (done : List AccfgWq) (s : HwDevice × ℕ) : Prop where
  count : s.2 = (usableQueues done).length
  heap : IsHeap HwQueue.priorityKey s.1.workingQueues s.2
  perm : (s.1.workingQueues.toList s.2).Perm ((usableQueues done).map AccfgWq.toHwQueue)
  written : ∀ q, q ∈ s.1.workingQueues.written ↔ q ∈ start.workingQueues.written ∨ q < s.2
  numaNodeId : s.1.numaNodeId = start.numaNodeId

theorem queueStep_keeps {start : HwDevice} {done : List AccfgWq} (wq : AccfgWq)
    {s : HwDevice × ℕ} (h : QueueLoop start done s) :
    QueueLoop start (done ++ [wq]) (queueStep s wq) := by
  obtain ⟨device, wqIt⟩ := s
  rcases initializeNewQueue_cases wq with ⟨husable, memoryType, hok⟩ | ⟨hnot, status, herror⟩
  · have hdone : usableQueues (done ++ [wq]) = usableQueues done ++ [wq] := by
      rw [usableQueues, filter_concat, if_pos husable, usableQueues]
    have hwritten : (device.workingQueues.write wqIt wq.toHwQueue).toList (wqIt + 1)
        = device.workingQueues.toList wqIt ++ [wq.toHwQueue] := by
      rw [Table.toList_succ, Table.write_cells_self]
      congr 1
      exact List.map_congr_left fun i hi =>
        device.workingQueues.write_cells_of_ne (List.mem_range.mp hi).ne _
    have hheap : IsHeap HwQueue.priorityKey (device.workingQueues.write wqIt wq.toHwQueue)
        wqIt := by
      intro i hi hlt
      have hp : parent i < wqIt := (parent_lt hi).trans hlt
      rw [Table.write_cells_of_ne _ hlt.ne, Table.write_cells_of_ne _ hp.ne]
      exact h.heap i hi hlt
    have hpush := pushHeap_reorders HwQueue.priorityKey
      (device.workingQueues.write wqIt wq.toHwQueue) (Nat.succ_pos wqIt)
    simp only [queueStep, hok]
    refine ⟨?_, isHeap_pushHeap hheap, ?_, ?_, h.numaNodeId⟩
    · rw [hdone, List.length_append, List.length_singleton, ← h.count]
    · rw [hdone, List.map_append, List.map_singleton]
      refine hpush.perm.trans ?_
      rw [hwritten]
      exact h.perm.append_right _
    · intro q
      obtain ⟨w, hw, hlt⟩ := hpush.written
      rw [hw, List.mem_append, Table.write_written, List.mem_append, List.mem_singleton, h.written]
      constructor
      · rintro (((hq | hq) | rfl) | hq)
        · exact Or.inl hq
        · exact Or.inr (by omega)
        · exact Or.inr (by omega)
        · exact Or.inr (hlt q hq)
      · rintro (hq | hq)
        · exact Or.inl (Or.inl (Or.inl hq))
        · rcases Nat.eq_or_lt_of_le (Nat.le_of_lt_succ hq) with rfl | hlt'
          · exact Or.inl (Or.inr rfl)
          · exact Or.inl (Or.inl (Or.inr hlt'))
  · have hdone : usableQueues (done ++ [wq]) = usableQueues done := by
      rw [usableQueues, filter_concat, if_neg (by simp [hnot]), usableQueues]
    simp only [queueStep, herror]
    exact ⟨hdone ▸ h.count, h.heap, hdone ▸ h.perm, h.written, h.numaNodeId⟩

/-- **The loop over the queues.** -/
theorem queueLoop (start : HwDevice) (workQueues : List AccfgWq) :
    QueueLoop start workQueues (workQueues.foldl queueStep (start, 0)) := by
  refine @Loop.foldl_processed _ _ _ (QueueLoop start) (fun done wq s h => queueStep_keeps wq h)
    [] _ ⟨rfl, ?_, List.Perm.refl _, ?_, rfl⟩ workQueues
  · exact fun i _ hi => absurd hi (Nat.not_lt_zero i)
  · intro q
    simp

/-! ### One device -/

/-- A device of the kind and version that is supported, and enabled: one whose queues are
looked at. -/
def AccfgDevice.opened (d : AccfgDevice) : Bool :=
  ownSearchDeviceName dsaDeviceId deviceNameLength d.name ∧ d.version >>> 8 ≤ 2#32 ∧
    d.state = .enabled

/-- How many queues of a device are put into its table. -/
def AccfgDevice.usableCount (d : AccfgDevice) : ℕ := (usableQueues d.workQueues).length

/-- A device for which the iterator moves on; the number of its queues has 32 bits. -/
def AccfgDevice.accepted (d : AccfgDevice) : Bool := d.opened ∧ d.usableCount % 2 ^ 32 ≠ 0

theorem opened_of_accepted {d : AccfgDevice} (h : d.accepted = true) : d.opened = true := by
  simp only [AccfgDevice.accepted, decide_eq_true_eq] at h
  exact h.1

/-- What `initialize_new_device` makes of the slot `start`. -/
structure DeviceOutcome (start : HwDevice) (d : AccfgDevice) (r : HwDevice × DsahwStatus) :
    Prop where
  status : r.2 = .ok ↔ d.accepted = true
  written : ∀ q, q ∈ r.1.workingQueues.written ↔
    q ∈ start.workingQueues.written ∨ (d.opened = true ∧ q < d.usableCount)
  count : d.opened = true → r.1.queueCount = d.usableCount % 2 ^ 32
  sorted : d.opened = true → SortedBelow HwQueue.priorityKey r.1.workingQueues r.1.queueCount
  perm : d.opened = true → d.usableCount < 2 ^ 32 → (r.1.workingQueues.toList r.1.queueCount).Perm
    ((usableQueues d.workQueues).map AccfgWq.toHwQueue)
  numaNodeId : d.opened = true → r.1.numaNodeId = d.numaNode

/-- A device that is passed over: at most the version is written. -/
theorem initializeNewDevice_of_not_opened (start : HwDevice) {d : AccfgDevice}
    (h : d.opened = false) : (initializeNewDevice start d).2 = .workQueuesNotAvailable ∧
      (initializeNewDevice start d).1.workingQueues = start.workingQueues := by
  simp only [initializeNewDevice]
  split
  · exact ⟨rfl, rfl⟩
  · next hguard =>
    split
    · exact ⟨rfl, rfl⟩
    · next hstate =>
      exfalso
      simp only [Bool.or_eq_true, Bool.not_eq_true', decide_eq_true_eq, not_or,
        Bool.not_eq_false, BitVec.not_lt] at hguard
      simp [AccfgDevice.opened, hguard.1, hguard.2, not_not.mp hstate] at h

/-- A slot with the properties of the device, before its queues are looked at. -/
def openDevice (start : HwDevice) (d : AccfgDevice) : HwDevice :=
  { start with
    versionMajor := d.version >>> 8
    versionMinor := d.version &&& 0xFF
    genCapRegister := d.genCapRegister
    numaNodeId := d.numaNode }

/-- A device whose queues are looked at. -/
theorem initializeNewDevice_of_opened (start : HwDevice) {d : AccfgDevice}
    (h : d.opened = true) : initializeNewDevice start d =
      finishDevice (d.workQueues.foldl queueStep (openDevice start d, 0)).1
        (d.workQueues.foldl queueStep (openDevice start d, 0)).2 := by
  simp only [AccfgDevice.opened, decide_eq_true_eq] at h
  obtain ⟨hname, hversion, hstate⟩ := h
  rw [initializeNewDevice, if_neg (by simp [hname, hversion]), if_neg (by simp [hstate])]
  rfl

/-- The end of `initialize_new_device`, after the queues `done`: those that have been written
are sorted, when their number fits into 32 bits all of them. -/
theorem finishDevice_spec {start : HwDevice} {done : List AccfgWq} {s : HwDevice × ℕ}
    (h : QueueLoop start done s) :
    ((finishDevice s.1 s.2).2 = .ok ↔ (usableQueues done).length % 2 ^ 32 ≠ 0) ∧
      (finishDevice s.1 s.2).1.queueCount = (usableQueues done).length % 2 ^ 32 ∧
      (finishDevice s.1 s.2).1.numaNodeId = start.numaNodeId ∧
      Reorders ((usableQueues done).length % 2 ^ 32) s.1.workingQueues
        (finishDevice s.1 s.2).1.workingQueues ∧
      SortedBelow HwQueue.priorityKey (finishDevice s.1 s.2).1.workingQueues
        ((usableQueues done).length % 2 ^ 32) := by
  have hle : (usableQueues done).length % 2 ^ 32 ≤ s.2 := h.count ▸ Nat.mod_le _ _
  have hheap := h.heap.mono hle
  rw [← h.count] at hheap ⊢
  generalize hn : s.2 % 2 ^ 32 = n at hheap ⊢
  have hqueues : (finishDevice s.1 s.2).1.workingQueues =
      if 1 < n then sortHeap HwQueue.priorityKey s.1.workingQueues n else s.1.workingQueues := by
    simp only [finishDevice, hn]
    split <;> rfl
  refine ⟨?_, ?_, ?_, ?_⟩
  · simp only [finishDevice, hn]
    split <;> simp [*]
  · simp only [finishDevice, hn]
    split <;> rfl
  · simp only [finishDevice, hn]
    split <;> exact h.numaNodeId
  · rw [hqueues]
    split
    · exact ⟨sortHeap_reorders hheap, sortHeap_sorted hheap⟩
    · next hsmall => exact ⟨Reorders.refl _ _, fun i j hij hj => absurd hj (by omega)⟩

/-- **What `initialize_new_device` makes of a slot.** -/
theorem initializeNewDevice_outcome (start : HwDevice) (d : AccfgDevice) :
    DeviceOutcome start d (initializeNewDevice start d) := by
  cases hopened : d.opened with
  | false =>
    obtain ⟨hstatus, hqueues⟩ := initializeNewDevice_of_not_opened start hopened
    refine ⟨?_, ?_, ?_, ?_, ?_, ?_⟩
    · simp [hstatus, AccfgDevice.accepted, hopened]
    · simp [hqueues, hopened]
    all_goals
      intro htrue
      rw [hopened] at htrue
      cases htrue
  | true =>
    have hloop := queueLoop (openDevice start d) d.workQueues
    obtain ⟨hstatus, hcount, hnuma, hreorders, hsorted⟩ := finishDevice_spec hloop
    rw [← initializeNewDevice_of_opened start hopened] at hstatus hcount hnuma hreorders hsorted
    refine ⟨?_, ?_, fun _ => hcount, fun _ => by rwa [hcount], ?_, fun _ => hnuma⟩
    · simpa [AccfgDevice.accepted, AccfgDevice.usableCount, hopened] using hstatus
    · -- sorting writes no slot that the loop has not written
      intro q
      obtain ⟨w, hw, hlt⟩ := hreorders.written
      have hlen : d.usableCount = (usableQueues d.workQueues).length := rfl
      rw [hw, List.mem_append, hloop.written, hloop.count, ← hlen]
      constructor
      · rintro ((hq | hq) | hq)
        · exact Or.inl hq
        · exact Or.inr ⟨hopened, hq⟩
        · exact Or.inr ⟨hopened, (hlt q hq).trans_le (Nat.mod_le _ _)⟩
      · rintro (hq | ⟨-, hq⟩)
        · exact Or.inl (Or.inl hq)
        · exact Or.inl (Or.inr hq)
    · intro _ hfits
      have hmod : (usableQueues d.workQueues).length % 2 ^ 32
          = (d.workQueues.foldl queueStep (openDevice start d, 0)).2 := by
        rw [hloop.count]
        exact Nat.mod_eq_of_lt hfits
      rw [hcount]
      refine hreorders.perm.trans ?_
      rw [hmod]
      exact hloop.perm

/-! ### The loop over the devices -/

/-- The devices for which the iterator moves on. -/
def acceptedDevices (devices : List AccfgDevice) : List AccfgDevice :=
  devices.filter (·.accepted)

theorem acceptedDevices_concat (before : List AccfgDevice) (d : AccfgDevice) :
    acceptedDevices (before ++ [d]) = if d.accepted = true then acceptedDevices before ++ [d]
      else acceptedDevices before :=
  filter_concat _ before d

/-- The slot for a device, by the devices before it. -/
def slotAfter (before : List AccfgDevice) : ℕ := (acceptedDevices before).length

theorem slotAfter_concat (before : List AccfgDevice) (d : AccfgDevice) :
    slotAfter (before ++ [d]) = if d.accepted = true then slotAfter before + 1
      else slotAfter before := by
  rw [slotAfter, acceptedDevices_concat, slotAfter]
  split
  · rw [List.length_append, List.length_singleton]
  · rfl

/-- What the loop over the devices has made of fresh tables after the devices `done`. -/
structure DeviceLoop (done : List AccfgDevice) (s : Table HwDevice × ℕ) : Prop where
  count : s.2 = slotAfter done
  written : ∀ i, i ∈ s.1.written ↔ Loop.Meets (fun before _ => i = slotAfter before) done
  queuesWritten : ∀ i q, q ∈ (s.1.cells i).workingQueues.written ↔
    Loop.Meets (fun before d => i = slotAfter before ∧ d.opened = true ∧ q < d.usableCount) done
  initialised : ∀ i d, (acceptedDevices done)[i]? = some d →
    ∃ start, DeviceOutcome start d (s.1.cells i, .ok)

theorem deviceStep_keeps {done : List AccfgDevice} (d : AccfgDevice) {s : Table HwDevice × ℕ}
    (h : DeviceLoop done s) : DeviceLoop (done ++ [d]) (deviceStep s d) := by
  obtain ⟨devices, deviceIt⟩ := s
  obtain ⟨hcount, hwritten, hqueues, hinit⟩ := h
  simp only at hcount hwritten hqueues hinit
  have hout := initializeNewDevice_outcome (devices.cells deviceIt) d
  simp only [deviceStep]
  generalize initializeNewDevice (devices.cells deviceIt) d = r at hout ⊢
  obtain ⟨device, status⟩ := r
  refine ⟨?_, ?_, ?_, ?_⟩
  · simp only [slotAfter_concat, hout.status, hcount]
  · intro i
    rw [Table.write_written, List.mem_append, List.mem_singleton, hwritten, Loop.meets_concat,
      hcount]
  · intro i q
    rw [Loop.meets_concat]
    by_cases hi : i = deviceIt
    · rw [hi, Table.write_cells_self, hout.written, hqueues]
      simp [hcount]
    · rw [Table.write_cells_of_ne _ hi, hqueues]
      simp [← hcount, hi]
  · intro i d' hd'
    have hlen : deviceIt = (acceptedDevices done).length := hcount
    -- the devices before keep their slots, the new one is behind them
    have hbefore : (acceptedDevices done)[i]? = some d' →
        ∃ start, DeviceOutcome start d' ((devices.write deviceIt device).cells i, .ok) := by
      intro hget
      have hlt := (List.getElem?_eq_some_iff.mp hget).1
      rw [Table.write_cells_of_ne _ (by omega)]
      exact hinit i d' hget
    rw [acceptedDevices_concat] at hd'
    split at hd'
    · next haccepted =>
      rw [List.getElem?_append] at hd'
      split at hd'
      · exact hbefore hd'
      · next hge =>
        obtain ⟨hi, hlast⟩ := List.getElem?_eq_some_iff.mp hd'
        have hlastIndex : i = deviceIt := by
          rw [List.length_singleton] at hi
          omega
        have hok : status = .ok := hout.status.mpr haccepted
        rw [List.getElem_singleton] at hlast
        subst hlast hlastIndex hok
        rw [Table.write_cells_self]
        exact ⟨_, hout⟩
    · exact hbefore hd'

/-- **The loop over the devices.** -/
theorem deviceLoop (devices : List AccfgDevice) :
    DeviceLoop devices (devices.foldl deviceStep (HwDispatcher.fresh.devices, 0)) := by
  refine @Loop.foldl_processed _ _ _ DeviceLoop (fun done d s h => deviceStep_keeps d h)
    [] _ ⟨rfl, ?_, ?_, ?_⟩ devices
  · exact fun i => iff_of_false List.not_mem_nil Loop.not_meets_nil
  · exact fun i q => iff_of_false List.not_mem_nil Loop.not_meets_nil
  · exact fun i d hd => by cases hd

/-- A slot in use is that of a device. -/
theorem DeviceLoop.exists_device {devices : List AccfgDevice} {s : Table HwDevice × ℕ}
    (h : DeviceLoop devices s) {i : ℕ} (hi : i < s.2) : ∃ start, ∃ d ∈ devices,
      d.accepted = true ∧ DeviceOutcome start d (s.1.cells i, .ok) := by
  have hlt : i < (acceptedDevices devices).length := by
    rw [h.count] at hi
    exact hi
  obtain ⟨start, hout⟩ := h.initialised i _ (List.getElem?_eq_getElem hlt)
  obtain ⟨hmem, haccepted⟩ := List.mem_filter.mp (List.getElem_mem hlt)
  exact ⟨start, _, hmem, haccepted, hout⟩

/-! ### The bounds -/

/-- **The tables are kept**: only slots of the arrays are written, the counts stay within them,
and the queues of every device that was found are in ascending order of their priority. -/
structure StaysWithin (t : HwDispatcher) : Prop where
  devicesWritten : ∀ i ∈ t.devices.written, i < maxDevices
  queuesWritten : ∀ i, ∀ q ∈ (t.devices.cells i).workingQueues.written, q < maxWorkingQueues
  deviceCount : t.deviceCount ≤ maxDevices
  queueCount : ∀ i, i < t.deviceCount → (t.devices.cells i).queueCount ≤ maxWorkingQueues
  sorted : ∀ i, i < t.deviceCount →
    SortedBelow HwQueue.priorityKey (t.devices.cells i).workingQueues
      (t.devices.cells i).queueCount

/-- A device that can be used: supported, enabled, and with a usable queue. -/
def AccfgDevice.usable (d : AccfgDevice) : Bool := d.opened ∧ d.usableCount ≠ 0

/-- No device is enumerated once eight usable ones have been, and no device whose queues are
looked at has more than eight usable ones. -/
structure FitsTables (devices : List AccfgDevice) : Prop where
  slots : ∀ before d after, devices = before ++ d :: after →
    (before.filter (·.usable)).length < maxDevices
  queues : ∀ d ∈ devices, d.opened = true → d.usableCount ≤ maxWorkingQueues

/-- Where no device has too many queues, the iterator moves past the usable devices. -/
theorem acceptedDevices_eq {devices : List AccfgDevice}
    (h : ∀ d ∈ devices, d.opened = true → d.usableCount ≤ maxWorkingQueues) :
    acceptedDevices devices = devices.filter (·.usable) := by
  refine List.filter_congr fun d hd => ?_
  cases hopened : d.opened with
  | false => simp [AccfgDevice.accepted, AccfgDevice.usable, hopened]
  | true =>
    have hle := h d hd hopened
    rw [AccfgDevice.accepted, AccfgDevice.usable,
      Nat.mod_eq_of_lt (hle.trans_lt (by decide))]

/-- Where the tables are kept, no device has too many queues. -/
theorem queues_of_written {devices : List AccfgDevice} {s : Table HwDevice × ℕ}
    (hloop : DeviceLoop devices s)
    (h : ∀ i, ∀ q ∈ (s.1.cells i).workingQueues.written, q < maxWorkingQueues) :
    ∀ d ∈ devices, d.opened = true → d.usableCount ≤ maxWorkingQueues := by
  intro d hd hopened
  obtain ⟨before, after, rfl⟩ := List.append_of_mem hd
  by_contra hmany
  -- the first slot behind the table is written
  have hwritten : maxWorkingQueues ∈ (s.1.cells (slotAfter before)).workingQueues.written :=
    (hloop.queuesWritten _ _).mpr ⟨before, d, after, rfl, rfl, hopened, not_le.mp hmany⟩
  exact absurd (h _ _ hwritten) (Nat.lt_irrefl _)

/-- Whether the driver gives no devices at all. -/
def Driver.fails (driver : Driver) : Bool :=
  driver.initializeStatus ≠ .ok ∨ driver.contextCreationStatus ≠ 0

theorem initializeHw_of_fails {driver : Driver} (h : driver.fails = true) :
    (initializeHw driver).1 = .fresh := by
  simp only [Driver.fails, decide_eq_true_eq] at h
  rw [initializeHw]
  split
  · rfl
  · next hinit => rw [if_pos (h.resolve_left hinit)]

/-- The tables are what the loop over the devices leaves. -/
theorem initializeHw_loop {driver : Driver} (h : driver.fails = false) :
    DeviceLoop driver.devices
      ((initializeHw driver).1.devices, (initializeHw driver).1.deviceCount) := by
  have htables : ((initializeHw driver).1.devices, (initializeHw driver).1.deviceCount)
      = driver.devices.foldl deviceStep (HwDispatcher.fresh.devices, 0) := by
    simp only [Driver.fails, decide_eq_false_iff_not, not_or, not_not] at h
    rw [initializeHw, if_neg (not_not.mpr h.1), if_neg (not_not.mpr h.2)]
    simp only
    split <;> rfl
  rw [htables]
  exact deviceLoop driver.devices

theorem staysWithin_fresh : StaysWithin .fresh where
  devicesWritten := fun _ hi => absurd hi List.not_mem_nil
  queuesWritten := fun _ _ hq => absurd hq List.not_mem_nil
  deviceCount := Nat.zero_le _
  queueCount := fun _ hi => absurd hi (Nat.not_lt_zero _)
  sorted := fun _ hi => absurd hi (Nat.not_lt_zero _)

/-- The devices fit into tables that are kept. -/
theorem fitsTables_of_staysWithin {t : HwDispatcher} {devices : List AccfgDevice}
    (hloop : DeviceLoop devices (t.devices, t.deviceCount)) (h : StaysWithin t) :
    FitsTables devices := by
  have hqueues := queues_of_written hloop h.queuesWritten
  refine ⟨?_, hqueues⟩
  rintro before d after rfl
  rw [← acceptedDevices_eq fun d' hd' => hqueues d' (List.mem_append_left _ hd')]
  exact h.devicesWritten _ ((hloop.written _).mpr ⟨before, d, after, rfl, rfl⟩)

/-- Devices that fit are kept within the tables. -/
theorem staysWithin_of_fitsTables {t : HwDispatcher} {devices : List AccfgDevice}
    (hloop : DeviceLoop devices (t.devices, t.deviceCount)) (h : FitsTables devices) :
    StaysWithin t := by
  have hslot : ∀ before d after, devices = before ++ d :: after →
      slotAfter before < maxDevices := by
    rintro before d after rfl
    rw [slotAfter, acceptedDevices_eq fun d' hd' => h.queues d' (List.mem_append_left _ hd')]
    exact h.slots before d after rfl
  have hcount : t.deviceCount = slotAfter devices := hloop.count
  refine ⟨?_, ?_, ?_, ?_, ?_⟩
  · intro i hi
    obtain ⟨before, d, after, hsplit, rfl⟩ := (hloop.written i).mp hi
    exact hslot before d after hsplit
  · intro i q hq
    obtain ⟨before, d, after, rfl, -, hopened, hlt⟩ := (hloop.queuesWritten i q).mp hq
    exact hlt.trans_le (h.queues d (List.mem_append_right _ List.mem_cons_self) hopened)
  · rw [hcount]
    rcases List.eq_nil_or_concat devices with rfl | ⟨before, d, hlast⟩
    · exact Nat.zero_le _
    · -- the last device has found a slot
      rw [List.concat_eq_append] at hlast
      have hlt := hslot before d [] hlast
      rw [hlast, slotAfter_concat]
      split <;> omega
  · intro i hi
    obtain ⟨start, d, hd, haccepted, hout⟩ := hloop.exists_device hi
    rw [hout.count (opened_of_accepted haccepted)]
    exact (Nat.mod_le _ _).trans (h.queues d hd (opened_of_accepted haccepted))
  · intro i hi
    obtain ⟨start, d, -, haccepted, hout⟩ := hloop.exists_device hi
    exact hout.sorted (opened_of_accepted haccepted)

/-- **When the tables are kept**: the driver gives no devices at all, or they fit. -/
theorem initializeHw_staysWithin_iff (driver : Driver) :
    StaysWithin (initializeHw driver).1 ↔ driver.fails = true ∨ FitsTables driver.devices := by
  cases hfails : driver.fails with
  | true =>
    rw [initializeHw_of_fails hfails]
    exact iff_of_true staysWithin_fresh (Or.inl rfl)
  | false =>
    constructor
    · exact fun h => Or.inr (fitsTables_of_staysWithin (initializeHw_loop hfails) h)
    · rintro (h | h)
      · cases h
      · exact staysWithin_of_fitsTables (initializeHw_loop hfails) h

/-- A shared queue that can be opened and mapped. -/
def sharedQueue (priority : BitVec 32) : AccfgWq where
  state := .enabled
  mode := .shared
  pathStatus := 0
  fd := 3
  regionPtr := some 0x7f0000000000
  group := some 0
  priority := priority

/-- The device `dsa0`, with queues of the given priorities. -/
def dsaDevice (priorities : List (BitVec 32)) : AccfgDevice where
  name := [0x64, 0x73, 0x61, 0x30]
  version := 0x100
  state := .enabled
  genCapRegister := 0
  numaNode := 0
  workQueues := priorities.map sharedQueue

/-- The device `iax1`, which is not supported. -/
def iaxDevice : AccfgDevice := { dsaDevice [10] with name := [0x69, 0x61, 0x78, 0x31] }

/-- A driver that enumerates the given devices. -/
def driverOf (devices : List AccfgDevice) : Driver := ⟨.ok, 0, 0x1000, devices⟩

/-- Eight usable devices and one of another kind: it is left out, but its version is written
behind the table.  A ninth queue is written behind the table of its device. -/
theorem initializeHw_writes_behind :
    ¬StaysWithin (initializeHw (driverOf (List.replicate 8 (dsaDevice [10]) ++ [iaxDevice]))).1 ∧
      ¬StaysWithin (initializeHw (driverOf [dsaDevice [9, 8, 7, 6, 5, 4, 3, 2, 1]])).1 := by
  constructor
  · intro h
    have hfits := fitsTables_of_staysWithin (initializeHw_loop rfl) h
    exact absurd (hfits.slots (List.replicate 8 (dsaDevice [10])) iaxDevice [] rfl) (by decide)
  · intro h
    have hfits := fitsTables_of_staysWithin (initializeHw_loop rfl) h
    exact absurd (hfits.queues _ List.mem_cons_self (by decide)) (by decide)

/-! ### What submission finds -/

/-- **The slots in use**, where the devices fit: the usable devices in the order of the driver,
each with its usable queues, put into another order. -/
theorem initializeHw_devices {driver : Driver} (hfails : driver.fails = false)
    (h : FitsTables driver.devices) {i : ℕ} {d : AccfgDevice}
    (hd : (driver.devices.filter (·.usable))[i]? = some d) :
    ((initializeHw driver).1.devices.cells i).numaNodeId = d.numaNode ∧
      ((initializeHw driver).1.devices.cells i).queueCount = d.usableCount ∧
      (((initializeHw driver).1.devices.cells i).workingQueues.toList d.usableCount).Perm
        ((usableQueues d.workQueues).map AccfgWq.toHwQueue) := by
  have hmem := (List.mem_filter.mp (List.mem_of_getElem? hd))
  have hopened : d.opened = true := by
    have husable := hmem.2
    simp only [AccfgDevice.usable, decide_eq_true_eq] at husable
    exact husable.1
  have hlt : d.usableCount < 2 ^ 32 := (h.queues d hmem.1 hopened).trans_lt (by decide)
  rw [← acceptedDevices_eq h.queues] at hd
  obtain ⟨start, hout⟩ := (initializeHw_loop hfails).initialised i d hd
  have hcount := hout.count hopened
  rw [Nat.mod_eq_of_lt hlt] at hcount
  have hperm := hout.perm hopened hlt
  rw [hcount] at hperm
  exact ⟨hout.numaNodeId hopened, hcount, hperm⟩

/-- The devices as `hardware_device::submit` looks at them; a slot that is not in use counts as
one queue. -/
def HwDispatcher.forSubmission (t : HwDispatcher) : DataMover.HwDispatcher where
  devices := fun i =>
    ⟨(t.devices.cells i).numaNodeId, max 1 (t.devices.cells i).queueCount, by omega⟩
  deviceCount := t.deviceCount

/-- **No device without a queue** is ever in use: submission works on the counts that
discovery has found. -/
theorem queueCount_forSubmission (driver : Driver) {i : ℕ}
    (hi : i < (initializeHw driver).1.deviceCount) :
    ((initializeHw driver).1.forSubmission.devices i).queueCount
      = ((initializeHw driver).1.devices.cells i).queueCount := by
  refine max_eq_right ?_
  cases hfails : driver.fails with
  | true =>
    rw [initializeHw_of_fails hfails] at hi
    exact absurd hi (Nat.not_lt_zero i)
  | false =>
    obtain ⟨start, d, -, haccepted, hout⟩ := (initializeHw_loop hfails).exists_device hi
    simp only [AccfgDevice.accepted, decide_eq_true_eq] at haccepted
    rw [hout.count haccepted.1]
    exact Nat.one_le_iff_ne_zero.mpr haccepted.2

end Discovery

end DataMover
