import CloudOS.Process.LostWakeup

/-!
What happens when task ids run out.

`next_task_id` saturates, so the task after the last id gets that id again. Its
registration finds the endpoint of the first one and succeeds, and from then on
two tasks share an endpoint. If the first one waits there, the second one is out
of step with it.
-/

namespace CloudOS.Ipc

theorem Endpoints.find_registered {e : Endpoints} {taskId : Nat} (unknown : e.find taskId = none)
    (index : Fin maxEndpoints) {endpoint : Endpoint} (owner : endpoint.owner = taskId)
    (c : Capability) :
    (setCapability (Function.update e index endpoint) (index, 0) c).find taskId = some index := by
  have owners : ∀ i, (setCapability (Function.update e index endpoint) (index, 0) c i).owner =
      if i = index then taskId else (e i).owner := by
    intro i
    rw [setCapability_apply, Function.update_apply]
    split
    · exact owner
    · rfl
  cases found : (setCapability (Function.update e index endpoint) (index, 0) c).find taskId with
  | none =>
      refine absurd ?_ (find_eq_none.mp found index)
      rw [owners, if_pos rfl]
  | some i =>
      have owned := find_eq_some found
      rw [owners] at owned
      split at owned
      · rename_i here
        rw [here]
      · exact absurd owned (find_eq_none.mp unknown i)

namespace IpcState

theorem hasMessage_of_empty {s : IpcState} {taskId : Nat} {index : Fin maxEndpoints}
    (found : s.find taskId = some index) (empty : (s.endpoints index).len = 0) :
    s.hasMessage taskId = .ok false := by
  unfold hasMessage
  rw [found]
  simp [empty]

/-- The owner of an endpoint with an intact root capability may receive. -/
theorem canReceive_of_root {s : IpcState} {taskId generation : Nat} {index : Fin maxEndpoints}
    (found : s.find taskId = some index)
    (root : (s.endpoints index).capabilities 0 = rootCapability taskId generation)
    (positive : generation ≠ 0) (fits : generation ≤ maxGeneration) :
    s.canReceive taskId = (.ok (), s) := by
  have decoded := decodeHandle_encodeHandle 0 positive fits
  have handle : s.selfCapability taskId = .ok (encodeHandle 0 generation) := by
    unfold selfCapability
    rw [found]
    dsimp only
    rw [root]
    exact if_neg (by simp [rootCapability]; decide)
  have resolved : s.resolveCapability taskId (encodeHandle 0 generation) CapabilityRights.receive =
      (.ok (rootCapability taskId generation), s) := by
    unfold resolveCapability
    rw [found]
    dsimp only
    rw [show encodeHandle 0 generation = encodeHandle ((0 : Fin maxCapabilitiesPerEndpoint) : Nat)
      generation from rfl, decoded]
    dsimp only
    rw [root, if_neg (by simp [rootCapability]), if_neg (by simp [rootCapability]; decide),
      if_neg (by simp [rootCapability, found])]
  unfold canReceive
  rw [handle]
  dsimp only
  rw [resolve, resolved]
  exact if_neg (fun other => other rfl)

/-- Registration of a new task while an endpoint is free. -/
theorem register_succeeds {s : IpcState} (initialized : s.initialized = true) {taskId : Nat}
    (nonzero : taskId ≠ 0) (unknown : s.find taskId = none) {free : Fin maxEndpoints}
    (unowned : (s.mailboxes free).owner = 0) (counter : s.nextCapabilityGeneration ≤ maxGeneration) :
    ∃ s', s.register taskId = (.ok (), s') ∧ s'.canReceive taskId = (.ok (), s') ∧
      s'.hasMessage taskId = .ok false ∧ s'.initialized = true ∧
      s'.nextCapabilityGeneration ≤ maxGeneration := by
  unfold register
  rw [if_neg (by simp [initialized]), if_neg nonzero, if_neg (by simp [unknown])]
  cases vacant : s.endpoints.find 0 with
  | none => exact absurd unowned (find_eq_none.mp vacant free)
  | some index =>
      have spec := allocate_spec (Function.update s.endpoints index
        { Endpoint.empty with owner := taskId }) s.nextCapabilityGeneration
      refine ⟨_, rfl, ?_, ?_, initialized, spec.2.2.2.2⟩
      · refine canReceive_of_root (Endpoints.find_registered unknown index rfl _) ?_
          (Nat.one_le_iff_ne_zero.mp spec.2.1) (spec.2.2.1 counter)
        refine (Endpoints.capability_setCapability _ (index, 0) (index, 0) _).trans ?_
        exact if_pos rfl
      · refine hasMessage_of_empty (Endpoints.find_registered unknown index rfl _) ?_
        dsimp only [allocateGeneration]
        rw [Endpoints.setCapability_apply, Function.update_self]
        rfl

end IpcState

end CloudOS.Ipc

namespace CloudOS.Scheduler

/-! ### Scheduling stays on -/

variable {s : Scheduler}

theorem enqueueAt_initialized (s : Scheduler) (id readySince : Nat) :
    (s.enqueueAt id readySince).2.initialized = s.initialized := by
  unfold enqueueAt
  split_ifs
  all_goals rfl

theorem remove_initialized (s : Scheduler) (id : Nat) :
    (s.remove id).2.initialized = s.initialized := by
  unfold remove removeAt
  split
  · rfl
  · dsimp only
    split_ifs
    all_goals rfl

theorem removeBlocked_initialized (s : Scheduler) (id : Nat) :
    (s.removeBlocked id).2.initialized = s.initialized := by
  unfold removeBlocked
  split
  · rfl
  · rfl

theorem beginTask_initialized (s : Scheduler) (id : Nat) :
    (s.beginTask id).initialized = s.initialized := by
  unfold beginTask
  dsimp only
  rw [removeBlocked_initialized, remove_initialized]

theorem finishTask_initialized (s : Scheduler) (id : Nat) :
    (s.finishTask id).initialized = s.initialized := by
  unfold finishTask
  dsimp only
  rw [removeBlocked_initialized, remove_initialized]
  split
  · rfl
  · rfl

end CloudOS.Scheduler

namespace CloudOS.Process

open Lib.Word (maxWord satAdd)
open CloudOS.Ipc (IpcState Mailbox maxEndpoints maxGeneration)

/-! ### Free endpoints -/

/-- With a slot to spare there is an endpoint to spare. -/
theorem Attuned.exists_free {tasks : Fin maxTasks → Task} {valid : Fin maxTasks → Bool}
    {mailboxes : Fin maxEndpoints → Mailbox} (attuned : Attuned tasks valid mailboxes)
    {i : Fin maxTasks} (dead : (tasks i).live = false) : ∃ e, (mailboxes e).owner = 0 := by
  refine exists_unowned attuned.owned attuned.single (i := i) ?_
  simp [dead]

namespace System

variable {s : System} {issued : Nat}

/-- `install_task` once it has a slot and an endpoint. -/
theorem installTask_registered {i : Fin maxTasks} {ipc : IpcState}
    (found : s.table.freeSlot = some i)
    (registers : s.ipc.register s.table.nextTaskId = (.ok (), ipc)) (parentId address : Nat)
    (image : ProcessImage) :
    (s.installTask parentId address image).2.table.task = Function.update s.table.task i
        (freshTask s.table.nextTaskId parentId address image) ∧
      (s.installTask parentId address image).2.ipc = ipc ∧
      (s.installTask parentId address image).2.scheduler =
        (s.scheduler.enqueue s.table.nextTaskId).2 := by
  unfold installTask
  dsimp only
  have same : (if s.table.initialized then s.table else s.table.init).task = s.table.task ∧
      (if s.table.initialized then s.table else s.table.init).freeSlot = s.table.freeSlot ∧
      (if s.table.initialized then s.table else s.table.init).nextTaskId =
        s.table.nextTaskId := by
    split
    · exact ⟨rfl, rfl, rfl⟩
    · exact ⟨rfl, rfl, rfl⟩
  generalize (if s.table.initialized then s.table else s.table.init) = table at *
  obtain ⟨tasks, free, next⟩ := same
  rw [free, found]
  dsimp only
  rw [next, registers]
  refine ⟨?_, rfl, rfl⟩
  rw [← tasks]
  refine (ProcessTable.task_of_slots (t := table) rfl).trans ?_
  rfl

/-- In a wakeful system, a slot without a live task can be reused. -/
theorem Wakeful.exists_freeSlot (wakeful : s.Wakeful issued) {i : Fin maxTasks}
    (dead : (s.table.task i).live = false) : ∃ j, s.table.freeSlot = some j := by
  cases found : s.table.freeSlot with
  | some j => exact ⟨j, rfl⟩
  | none =>
      have taken := Lib.Scan.first_eq_none.mp found i
      have fit := wakeful.attuned.fit i
      cases state : (s.table.task i).state with
      | empty => simp [state] at taken
      | exited => simp [state, fit.orphan, fit.retired state] at taken
      | ready => simp [Task.live, state] at dead
      | running => simp [Task.live, state] at dead
      | blocked => simp [Task.live, state] at dead

/-! ### Idle systems -/

/-- A wakeful system in which the message layer is up, and nobody runs or is
blocked. -/
structure Idle (s : System) (issued : Nat) : Prop where
  wakeful : s.Wakeful issued
  initialized : s.ipc.initialized = true
  counter : s.ipc.nextCapabilityGeneration ≤ maxGeneration
  scheduling : s.scheduler.initialized = true
  unblocked : s.scheduler.blockedTasks = []
  current : s.scheduler.currentTask = 0

/-- What is known after a spawn. -/
structure Spawned (s s' : System) (id : Nat) (image : ProcessImage) (i : Fin maxTasks) : Prop where
  dead : (s.table.task i).live = false
  tasks : s'.table.task = Function.update s.table.task i (freshTask id 0 64 image)
  queued : id ∈ s'.scheduler.queued ∧ ∀ other ∈ s.scheduler.queued, other ∈ s'.scheduler.queued
  canReceive : s'.ipc.canReceive id = (.ok (), s'.ipc)
  empty : s'.ipc.hasMessage id = .ok false

theorem Idle.spawn (idle : s.Idle issued) (few : issued < maxWord) {d : Fin maxTasks}
    (dead : (s.table.task d).live = false) {image : ProcessImage} (root : image.rootFrame ≠ 0) :
    ∃ i, Spawned s (perform s (.spawn (some image) (some 64))) (issued + 1) image i ∧
      (perform s (.spawn (some image) (some 64))).Idle (issued + 1) := by
  obtain ⟨i, found⟩ := idle.wakeful.exists_freeSlot dead
  obtain ⟨e, unowned⟩ := idle.wakeful.attuned.exists_free dead
  have next : s.table.nextTaskId = issued + 1 := by
    rw [Agree.next idle.wakeful.agrees]
    omega
  have fresh : ∀ j, (s.table.task j).live = true → (s.table.task j).id ≠ issued + 1 := by
    intro j live
    have := (Agree.ids idle.wakeful.agrees j (Task.live_iff.mp live).1).2
    omega
  have unknown : s.ipc.find (issued + 1) = none := by
    rw [IpcState.find_eq_none]
    intro e' owner
    obtain ⟨j, live, id⟩ := idle.wakeful.attuned.owned e' (by omega)
    exact fresh j live (id.trans owner)
  obtain ⟨ipc, registers, canReceive, empty, initialized, counter⟩ :=
    IpcState.register_succeeds idle.initialized (by omega : issued + 1 ≠ 0) unknown unowned
      idle.counter
  obtain ⟨tasks, messages, scheduled⟩ := installTask_registered found (next ▸ registers) 0 64 image
  obtain ⟨issued', bound, wakeful⟩ := spawnImage_wakeful idle.wakeful few image root (some 64)
  change (s.installTask 0 64 image).2.Wakeful issued' at wakeful
  change ∃ i, Spawned s (s.installTask 0 64 image).2 (issued + 1) image i ∧
    (s.installTask 0 64 image).2.Idle (issued + 1)
  generalize (s.installTask 0 64 image).2 = s' at *
  rw [next] at tasks scheduled
  have space : s.scheduler.len < queueCapacity := by
    refine Agree.len_lt idle.wakeful.agrees (i := d) ?_
    cases state : (s.table.task d).state with
    | empty => exact Or.inl rfl
    | exited => exact Or.inr (Or.inl rfl)
    | ready => simp [Task.live, state] at dead
    | running => simp [Task.live, state] at dead
    | blocked => simp [Task.live, state] at dead
  have unplaced : ¬ s.scheduler.placement.Has (issued + 1) := by
    intro has
    obtain ⟨j, live, id⟩ := Agree.placed idle.wakeful.agrees _ has
    exact fresh j live id
  obtain ⟨scheduler, enqueues, places, -⟩ := (Agree.sound idle.wakeful.agrees).enqueueAt
    (by omega : issued + 1 ≠ 0) unplaced space s.scheduler.timerTicks
  have after : s'.scheduler = scheduler := scheduled.trans (congrArg Prod.snd enqueues)
  have queued : s'.scheduler.queued = s.scheduler.queued ++ [issued + 1] := by
    rw [after]
    exact congrArg Placement.queued places
  -- the new task has the largest id
  have here : s'.table.task i = freshTask (issued + 1) 0 64 image := by
    rw [tasks, Function.update_self]
  have exact_ : issued' = issued + 1 := by
    have := (Agree.ids wakeful.agrees i (by rw [here]; exact fun state => by cases state)).2
    rw [here] at this
    exact le_antisymm bound this
  subst exact_
  refine ⟨i, ⟨ProcessTable.freeSlot_eq_some found, tasks, ?_, ?_, ?_⟩, wakeful, ?_, ?_, ?_, ?_, ?_⟩
  · rw [queued]
    exact ⟨List.mem_append_right _ List.mem_cons_self, fun _ mem => List.mem_append_left _ mem⟩
  · rw [messages]
    exact canReceive
  · rw [messages]
    exact empty
  · rw [messages]
    exact initialized
  · rw [messages]
    exact counter
  · rw [scheduled, Scheduler.enqueue, Scheduler.enqueueAt_initialized]
    exact idle.scheduling
  · rw [after]
    exact (Scheduler.blockedTasks_of_places places).trans idle.unblocked
  · rw [after]
    exact (congrArg Placement.current places).trans idle.current

/-- Cleanup leaves the other tasks alone. -/
theorem cleanupTask_frame (s : System) (id : Nat) (teardown : Teardown) :
    (∀ j, ((s.cleanupTask id teardown).2.table.task j).state = (s.table.task j).state) ∧
      (s.cleanupTask id teardown).2.scheduler = s.scheduler ∧
      (s.cleanupTask id teardown).2.ipc.initialized = s.ipc.initialized ∧
      (s.cleanupTask id teardown).2.ipc.nextCapabilityGeneration =
        s.ipc.nextCapabilityGeneration := by
  have messages := s.ipc.unregister_frame id
  unfold cleanupTask
  cases found : s.table.findTask id with
  | none => exact ⟨fun _ => rfl, rfl, rfl, rfl⟩
  | some i =>
      dsimp only
      split
      · exact ⟨fun _ => rfl, rfl, rfl, rfl⟩
      generalize s.ipc.unregister id = result at messages
      obtain ⟨outcome, ipc⟩ := result
      refine ⟨fun j => ?_, rfl, ?_⟩
      · change (Function.update s.table.slots i _ j).task.state = (s.table.slots j).task.state
        by_cases here : j = i
        · rw [here, Function.update_self]
        · rw [Function.update_of_ne here]
      · cases outcome with
        | ok dropped => exact messages
        | error error => exact messages

/-- A live task ends, and the system is idle again. -/
theorem Idle.exit (idle : s.Idle issued) {i : Fin maxTasks} (live : (s.table.task i).live = true)
    (teardown : Teardown) :
    (perform s (.exit (s.table.task i).id 0 0 teardown)).Idle issued ∧
      ∀ j, (j = i ∨ (s.table.task j).live = false) →
        ((perform s (.exit (s.table.task i).id 0 0 teardown)).table.task j).live = false := by
  have wakeful := exit_wakeful idle.wakeful (s.table.task i).id 0 0 teardown
  have found := idle.wakeful.agrees.findTask (Task.live_iff.mp live).1
  have orphan := (idle.wakeful.attuned.fit i).orphan
  have finished := (Agree.sound idle.wakeful.agrees).finishTask (s.table.task i).id
  obtain ⟨states, scheduled, initialized, counter⟩ := cleanupTask_frame
    (s.markExited (s.table.task i).id 0 0).2 (s.table.task i).id teardown
  change ((s.markExited (s.table.task i).id 0 0).2.cleanupTask (s.table.task i).id teardown).2.Idle
    issued ∧ ∀ j, _ → (((s.markExited (s.table.task i).id 0 0).2.cleanupTask (s.table.task i).id
      teardown).2.table.task j).live = false
  generalize ((s.markExited (s.table.task i).id 0 0).2.cleanupTask (s.table.task i).id
    teardown).2 = s' at *
  rw [markExited_orphan found orphan] at states scheduled initialized counter
  rw [retire_scheduler] at scheduled
  have queue : s'.scheduler.placement = s.scheduler.placement.finish (s.table.task i).id := by
    rw [scheduled]
    exact finished.1
  refine ⟨⟨wakeful, initialized.trans idle.initialized, counter.trans_le idle.counter, ?_, ?_, ?_⟩,
    fun j dead => ?_⟩
  · rw [scheduled, Scheduler.finishTask_initialized]
    exact idle.scheduling
  · rw [Scheduler.blockedTasks_of_places queue]
    change s.scheduler.blockedTasks.erase _ = []
    rw [idle.unblocked]
    rfl
  · refine (congrArg Placement.current queue).trans ?_
    change (if s.scheduler.currentTask = _ then 0 else s.scheduler.currentTask) = 0
    rw [idle.current]
    exact ite_self 0
  · by_cases here : j = i
    · subst here
      have state : (s'.table.task j).state = .exited := by
        rw [states]
        refine (congrArg Task.state
          (congrFun (ProcessTable.task_of_slots (t := s.table) rfl) j)).trans ?_
        rw [Function.update_self]
      simp [Task.live, state]
    · have unchanged := states j
      rw [retire_task _ _ _ _ _ here] at unchanged
      rw [Task.live, unchanged]
      exact dead.resolve_left here

/-! ### A receive that blocks -/

theorem modify_eq_self (s : System) (i : Fin maxTasks) {f : Task → Task}
    (same : f (s.table.task i) = s.table.task i) : s.modify i f = s := by
  have slots : Function.update s.table.slots i { s.table.slots i with task := f (s.table.task i) } =
      s.table.slots := by
    rw [same]
    exact Function.update_eq_self i s.table.slots
  unfold modify ProcessTable.modify
  rw [show (s.table.slots i).task = s.table.task i from rfl, slots]

/-- The current task can block: it has just been started, and another one is
ready. -/
structure Sleepy (s : System) (i : Fin maxTasks) : Prop where
  found : s.table.findTask s.scheduler.currentTask = some i
  running : s.scheduler.currentTask ≠ 0
  state : (s.table.task i).state = .running
  target : (s.table.task i).waitTarget = 0
  pending : (s.table.task i).ipcRestartPending = false
  reason : (s.table.task i).ipcWakeReason = .none
  scheduling : s.scheduler.initialized = true
  unblocked : s.scheduler.blockedTasks = []
  ready : s.scheduler.queued ≠ []

theorem Wakeful.blockForIpcSyscall_switches (wakeful : s.Wakeful issued) {i : Fin maxTasks}
    (sleepy : Sleepy s i) (ipc : IpcState) (frame : SyscallFrame) (deadlineTick : Nat) :
    ∃ root, (blockForIpcSyscall { s with ipc } s.scheduler.currentTask frame deadlineTick).1 =
      some root := by
  have sound := Agree.sound wakeful.agrees
  have flag := (wakeful.attuned.fit i).not_waiting (by rw [sleepy.state]; decide)
  have switches := sound.blockCurrentAndDispatch_switches sleepy.scheduling sleepy.running
    (by
      rw [← s.scheduler.length_queued]
      exact List.length_pos_iff.mpr sleepy.ready)
    (by
      rw [← s.scheduler.length_blockedTasks, sleepy.unblocked]
      decide)
  unfold blockForIpcSyscall
  dsimp only
  rw [sleepy.found]
  dsimp only
  rw [if_neg (by simp [sleepy.state, sleepy.target, flag, sleepy.pending])]
  rcases sound.blockCurrentAndDispatch_cases s.scheduler.currentTask with
    ⟨decision, eq, unswitched⟩ |
      ⟨decision, scheduler, eq, switched, previous, -, -, mem, -, -⟩
  · rw [eq, unswitched] at switches
    cases switches
  · obtain ⟨j, target, live, -⟩ := wakeful.queued mem
    obtain ⟨valid, root, -⟩ := (wakeful.attuned.fit j).able live
    have sameTasks := task_saveContext { s with ipc } i (saveSyscallContext frame true)
    have sameValid := valid_saveContext { s with ipc } i (saveSyscallContext frame true)
    rw [show (saveContext { s with ipc } i (saveSyscallContext frame true)).scheduler =
      s.scheduler from rfl, eq, if_neg (by simp [switched, previous]),
      ProcessTable.findTask_congr sameTasks,
      target]
    dsimp only
    rw [if_neg ?_]
    · exact ⟨_, rfl⟩
    · have valid' : ((saveContext { s with ipc } i
          (saveSyscallContext frame true)).table.slots j).contextValid = true := by
        refine (congrFun sameValid j).trans ?_
        rw [Function.update_apply]
        split
        · rfl
        · exact valid
      have root' : ((saveContext { s with ipc } i (saveSyscallContext frame true)).table.slots
          j).task.addressSpaceRoot ≠ 0 :=
        (congrArg Task.addressSpaceRoot (congrFun sameTasks j)).trans_ne root
      simp [valid', root']

/-- What is known after a receive that blocked. -/
structure Slept (s s' : System) (i : Fin maxTasks) : Prop where
  state : (s'.table.task i).state = .blocked
  id : (s'.table.task i).id = (s.table.task i).id
  dead : ∀ j, (s.table.task j).live = false → (s'.table.task j).live = false
  initialized : s'.ipc.initialized = s.ipc.initialized
  next : s'.table.nextTaskId = s.table.nextTaskId

theorem Wakeful.receive_blocks (wakeful : s.Wakeful issued) {i : Fin maxTasks}
    (sleepy : Sleepy s i)
    (allowed : s.ipc.canReceive s.scheduler.currentTask = (.ok (), s.ipc))
    (empty : s.ipc.hasMessage s.scheduler.currentTask = .ok false) (memory : UserMemory)
    (buffer : ∀ address length, memory.validateUserBuffer address length true = true) :
    Slept s (perform s (.syscall memory .receive 0 blankFrame)) i := by
  obtain ⟨e, mailbox, len⟩ := IpcState.hasMessage_eq_false empty
  obtain ⟨ipc, set, -⟩ := IpcState.setWaiting_mailboxes wakeful.unique mailbox true
  obtain ⟨root, switched⟩ := wakeful.blockForIpcSyscall_switches sleepy ipc blankFrame 0
  have result := blockForIpcSyscall_result (s := { s with ipc }) (Agree.sound wakeful.agrees)
    s.scheduler.currentTask blankFrame 0
  have taken : s.takeIpcWakeReason s.currentTask = (.none, s) := by
    unfold takeIpcWakeReason
    rw [show s.currentTask = s.scheduler.currentTask from rfl, sleepy.found]
    dsimp only
    rw [sleepy.reason, if_neg (fun expired => by cases expired), modify_eq_self]
    rw [← sleepy.reason]
  have received : ∀ output, s.receive s.currentTask output false =
      (.error .queueEmpty, s, output) := by
    intro output
    have front : (s.ipc.endpoints e).front = none := if_pos len
    unfold receive Ipc.IpcState.receive
    rw [show s.currentTask = s.scheduler.currentTask from rfl, allowed]
    dsimp only
    rw [mailbox]
    dsimp only
    rw [front]
    rfl
  have attempt : (perform s (.syscall memory .receive 0 blankFrame)) =
      (blockForIpcSyscall { s with ipc } s.scheduler.currentTask blankFrame 0).2.2.countBlocked := by
    have blocks : s.blockSyscall s.currentTask blankFrame 0 = (.ok (.switched root),
        (blockForIpcSyscall { s with ipc } s.scheduler.currentTask blankFrame 0).2.1,
        (blockForIpcSyscall { s with ipc } s.scheduler.currentTask blankFrame 0).2.2.countBlocked) := by
      unfold blockSyscall
      rw [show s.currentTask = s.scheduler.currentTask from rfl, allowed]
      dsimp only
      rw [empty]
      dsimp only
      rw [set]
      dsimp only
      generalize blockForIpcSyscall { s with ipc } s.scheduler.currentTask blankFrame 0 = blocking
        at switched
      obtain ⟨outcome, frame, s'⟩ := blocking
      dsimp only at switched
      rw [switched]
    have call : (s.receiveAttempt memory 0 blankFrame none).2.2 =
        (blockForIpcSyscall { s with ipc } s.scheduler.currentTask blankFrame 0).2.2.countBlocked := by
      unfold receiveAttempt
      dsimp only
      rw [if_neg (show ¬ s.currentTask = 0 from sleepy.running), if_neg (by simp [buffer]), taken]
      dsimp only
      rw [received]
      dsimp only
      rw [if_neg (by simp), blocks]
    rw [← call]
    change (s.dispatch memory .receive 0 blankFrame).2.2 = _
    unfold dispatch
    dsimp only
    split
    · rfl
    · rfl
  rw [attempt]
  generalize blockForIpcSyscall { s with ipc } s.scheduler.currentTask blankFrame 0 = blocking at *
  obtain ⟨outcome, frame, s'⟩ := blocking
  dsimp only at switched result ⊢
  subst switched
  cases result with
  | @switched waited i' j next root _ found' target other isCurrent nonzero mem places sound beside
      tasks valid =>
      cases sleepy.found.symm.trans found'
      obtain ⟨j', target', liveNext, -⟩ := wakeful.queued mem
      cases target.symm.trans target'
      have here : s'.table.task i = (s.table.task i).asleep 0 := by
        rw [tasks, Function.update_of_ne other.symm, Function.update_self]
      refine ⟨congrArg Task.state here, ?_, fun k dead => ?_, ?_, beside.next⟩
      · exact (congrArg Task.id here).trans rfl
      · have notNext : k ≠ j := by
          rintro rfl
          rw [dead] at liveNext
          cases liveNext
        have notHere : k ≠ i := by
          rintro rfl
          simp [Task.live, sleepy.state] at dead
        change (s'.table.task k).live = false
        rw [tasks, Function.update_of_ne notNext, Function.update_of_ne notHere]
        exact dead
      · refine (congrArg IpcState.initialized beside.ipc).trans ?_
        exact (congrArg (fun r => r.2.initialized) set).symm.trans
          (IpcState.setWaiting_initialized _ _ _)

end System

/-! ### The run -/

/-- A task comes and goes, `count` times. -/
def churn (count : Nat) : List Move :=
  (List.range count).flatMap fun n => [spawnMove, .exit (n + 1) 0 0 ⟨true, some (0, 0, true)⟩]

theorem churn_succ (count : Nat) : churn (count + 1) =
    churn count ++ [spawnMove, .exit (count + 1) 0 0 ⟨true, some (0, 0, true)⟩] := by
  unfold churn
  rw [List.range_succ, List.flatMap_append, List.flatMap_singleton]

/-- All of it is legal, and uses up one id each time. -/
theorem churn_idle {count : Nat} (few : count ≤ maxWord) :
    LegalPlay .boot (churn count) ∧ (play .boot (churn count)).Idle count ∧
      ∀ j, ((play .boot (churn count)).table.task j).live = false := by
  induction count with
  | zero => exact ⟨trivial, ⟨boot_wakeful, rfl, by decide, rfl, rfl, rfl⟩, fun _ => rfl⟩
  | succ count ih =>
      obtain ⟨legal, idle, dead⟩ := ih (by omega)
      obtain ⟨i, spawned, idle'⟩ := idle.spawn (by omega) (dead 0)
        (show someImage.rootFrame ≠ 0 by decide)
      change (perform (play .boot (churn count)) spawnMove).Idle (count + 1) at idle'
      have here : (perform (play .boot (churn count)) spawnMove).table.task i =
          System.freshTask (count + 1) 0 64 someImage := by
        rw [show spawnMove = .spawn (some someImage) (some 64) from rfl, spawned.tasks,
          Function.update_self]
      have live : ((perform (play .boot (churn count)) spawnMove).table.task i).live = true := by
        rw [here]
        rfl
      have rest : ∀ j, j = i ∨
          ((perform (play .boot (churn count)) spawnMove).table.task j).live = false := by
        intro j
        by_cases same : j = i
        · exact Or.inl same
        · refine Or.inr ?_
          rw [show spawnMove = .spawn (some someImage) (some 64) from rfl, spawned.tasks,
            Function.update_of_ne same]
          exact dead j
      obtain ⟨idle'', dead''⟩ := idle'.exit live ⟨true, some (0, 0, true)⟩
      rw [here] at idle'' dead''
      rw [churn_succ, play_append]
      exact ⟨legalPlay_append.mpr ⟨legal, spawnMove_legal _, trivial, trivial⟩, idle'',
        fun j => dead'' j (rest j)⟩

/-- The last two ids are used up; the task with the last one waits for a message
when a third task is started. -/
def finale (last : Nat) : List Move :=
  [spawnMove, spawnMove, .markRunning last 0, .syscall blankMemory .receive 0 blankFrame, spawnMove]

/-- The task in slot `i` shares an endpoint somebody else waits at. -/
structure OutOfStep (s : System) (i : Fin maxTasks) (e : Fin maxEndpoints) : Prop where
  live : (s.table.task i).live = true
  endpoint : s.ipc.find (s.table.task i).id = some e
  waiting : (s.ipc.endpoints e).waiting = true
  flag : (s.table.task i).ipcWaiting = false

/-- Spawning once more after the last id. -/
theorem outOfStep_of_last {s : System} (wakeful : s.Wakeful maxWord)
    (initialized : s.ipc.initialized = true) {b d : Fin maxTasks}
    (blocked : (s.table.task b).state = .blocked) (id : (s.table.task b).id = maxWord)
    (dead : (s.table.task d).live = false) : ∃ i e, OutOfStep (perform s spawnMove) i e := by
  obtain ⟨i, found⟩ := wakeful.exists_freeSlot dead
  obtain ⟨e, mailbox, pair⟩ := wakeful.mailbox (System.live_of_blocked blocked)
  have next : s.table.nextTaskId = maxWord := by
    rw [Agree.next wakeful.agrees]
    omega
  rw [id] at mailbox
  have registers : s.ipc.register s.table.nextTaskId = (.ok (), s.ipc) := by
    rw [next]
    unfold Ipc.IpcState.register
    rw [if_neg (by simp [initialized]), if_neg (by decide), if_pos (by simp [mailbox])]
  obtain ⟨tasks, messages, -⟩ := System.installTask_registered found registers 0 64 someImage
  change ∃ i e, OutOfStep (s.installTask 0 64 someImage).2 i e
  generalize (s.installTask 0 64 someImage).2 = s' at *
  have here : s'.table.task i = System.freshTask s.table.nextTaskId 0 64 someImage := by
    rw [tasks, Function.update_self]
  refine ⟨i, e, ?_, ?_, ?_, ?_⟩
  · rw [here]
    rfl
  · rw [here, messages]
    change s.ipc.find s.table.nextTaskId = some e
    rw [next, mailbox]
  · rw [messages]
    exact pair.waiting.mpr blocked
  · rw [here]
    rfl

/-- The second of two tasks is run. -/
theorem markRunning_sleepy {s : System} {issued : Nat} (idle : s.Idle issued) {b : Fin maxTasks}
    (id : Nat) (task : s.table.task b = System.freshTask issued 0 64 someImage)
    (positive : issued ≠ 0) (other : id ≠ issued) (queued : id ∈ s.scheduler.queued) :
    (Move.markRunning issued 0).Legal s ∧ (perform s (.markRunning issued 0)).Wakeful issued ∧
      System.Sleepy (perform s (.markRunning issued 0)) b ∧
      (perform s (.markRunning issued 0)).scheduler.currentTask = issued ∧
      (perform s (.markRunning issued 0)).ipc = s.ipc ∧
      ((perform s (.markRunning issued 0)).table.task b).id = issued ∧
      ∀ j, (s.table.task j).live = false →
        ((perform s (.markRunning issued 0)).table.task j).live = false := by
  have found : s.table.findTask issued = some b := by
    have := idle.wakeful.agrees.findTask (i := b) (by rw [task]; exact fun state => by cases state)
    rwa [task] at this
  have ready : (s.table.task b).state = .ready := by
    rw [task]
    rfl
  have wakeful := System.markRunning_wakeful idle.wakeful found ready 0
  obtain ⟨places, -⟩ := (Agree.sound idle.wakeful.agrees).beginTask issued
  have start : (s.markRunning issued 0).2.scheduler = s.scheduler.beginTask issued ∧
      (s.markRunning issued 0).2.ipc = s.ipc ∧ ∃ task' : Task,
        (s.markRunning issued 0).2.table.task = Function.update s.table.task b task' ∧
        task'.state = .running ∧ task'.id = (s.table.task b).id ∧
        task'.waitTarget = (s.table.task b).waitTarget ∧
        task'.ipcRestartPending = (s.table.task b).ipcRestartPending ∧
        task'.ipcWakeReason = (s.table.task b).ipcWakeReason := by
    unfold System.markRunning
    rw [found]
    exact ⟨rfl, rfl, _, ProcessTable.task_of_slots (t := s.table) rfl, rfl, rfl, rfl, rfl, rfl⟩
  change _ ∧ (s.markRunning issued 0).2.Wakeful issued ∧ System.Sleepy (s.markRunning issued 0).2 b ∧
    (s.markRunning issued 0).2.scheduler.currentTask = issued ∧ (s.markRunning issued 0).2.ipc =
      s.ipc ∧ ((s.markRunning issued 0).2.table.task b).id = issued ∧ ∀ j, _ →
        ((s.markRunning issued 0).2.table.task j).live = false
  generalize (s.markRunning issued 0).2 = s' at *
  obtain ⟨scheduled, messages, task', tasks, state, sameId, target, pending, reason⟩ := start
  have here : s'.table.task b = task' := by rw [tasks, Function.update_self]
  have id' : (s'.table.task b).id = issued := by
    rw [here, sameId, task]
    rfl
  have current : s'.scheduler.currentTask = issued := by
    rw [scheduled]
    rfl
  refine ⟨⟨idle.current, b, found, ready⟩, wakeful, ⟨?_, ?_, ?_, ?_, ?_, ?_, ?_, ?_, ?_⟩, current,
    messages, id', fun j dead => ?_⟩
  · have := wakeful.agrees.findTask (i := b) (by rw [here, state]; decide)
    rwa [id', ← current] at this
  · rwa [current]
  · rw [here, state]
  · rw [here, target, task]
    rfl
  · rw [here, pending, task]
    rfl
  · rw [here, reason, task]
    rfl
  · rw [scheduled, Scheduler.beginTask_initialized]
    exact idle.scheduling
  · rw [scheduled, Scheduler.blockedTasks_of_places places]
    change s.scheduler.blockedTasks.erase issued = []
    rw [idle.unblocked]
    rfl
  · refine List.ne_nil_of_mem (a := id) ?_
    rw [scheduled, show (s.scheduler.beginTask issued).queued = s.scheduler.queued.erase issued from
      congrArg Placement.queued places]
    exact (List.mem_erase_of_ne other).mpr queued
  · have elsewhere : j ≠ b := by
      rintro rfl
      simp [Task.live, ready] at dead
    rwa [tasks, Function.update_of_ne elsewhere]

/-- At the end of the ids a legal play leaves the table out of step. -/
theorem finale_outOfStep {s : System} {issued : Nat} (idle : s.Idle issued)
    (last : issued + 2 = maxWord) (dead : ∀ j, (s.table.task j).live = false) :
    LegalPlay s (finale (issued + 2)) ∧ ∃ i e, OutOfStep (play s (finale (issued + 2))) i e := by
  have image : someImage.rootFrame ≠ 0 := by decide
  have spare : ∀ a b : Fin maxTasks, ∃ c, c ≠ a ∧ c ≠ b := by decide
  obtain ⟨a, first, idle₁⟩ := idle.spawn (by omega) (dead 0) image
  change System.Spawned s (perform s spawnMove) _ _ _ at first
  change (perform s spawnMove).Idle _ at idle₁
  generalize one : perform s spawnMove = s₁ at first idle₁
  have dead₁ : ∀ j, j ≠ a → (s₁.table.task j).live = false := by
    intro j other
    rw [first.tasks, Function.update_of_ne other]
    exact dead j
  obtain ⟨c, notA, -⟩ := spare a a
  obtain ⟨b, second, idle₂⟩ := idle₁.spawn (by omega) (dead₁ c notA) image
  change System.Spawned s₁ (perform s₁ spawnMove) _ _ _ at second
  change (perform s₁ spawnMove).Idle _ at idle₂
  generalize two : perform s₁ spawnMove = s₂ at second idle₂
  have dead₂ : ∀ j, j ≠ a → j ≠ b → (s₂.table.task j).live = false := by
    intro j notA notB
    rw [second.tasks, Function.update_of_ne notB]
    exact dead₁ j notA
  obtain ⟨legal, wakeful₃, sleepy, current, messages, id₃, dead₃⟩ := markRunning_sleepy idle₂
    (issued + 1) (by rw [second.tasks, Function.update_self]) (by omega) (by omega)
    (second.queued.2 _ first.queued.1)
  rw [show issued + 1 + 1 = issued + 2 from rfl] at *
  generalize three : perform s₂ (.markRunning (issued + 2) 0) = s₃ at *
  have slept := wakeful₃.receive_blocks sleepy
    (by rw [current, messages]; exact second.canReceive)
    (by rw [current, messages]; exact second.empty) blankMemory (fun _ _ => rfl)
  have wakeful₄ := (System.wakeful_survivesCalls (issued + 2)).dispatch wakeful₃ blankMemory
    .receive 0 blankFrame
  change (perform s₃ (.syscall blankMemory .receive 0 blankFrame)).Wakeful (issued + 2) at wakeful₄
  generalize four : perform s₃ (.syscall blankMemory .receive 0 blankFrame) = s₄ at *
  obtain ⟨d, notA, notB⟩ := spare a b
  have broken := outOfStep_of_last (last ▸ wakeful₄)
    (slept.initialized.trans (messages ▸ idle₂.initialized)) slept.state
    (slept.id.trans (id₃.trans last)) (slept.dead d (dead₃ d (dead₂ d notA notB)))
  have final : play s (finale (issued + 2)) = perform s₄ spawnMove := by
    rw [← four, ← three, ← two, ← one]
    rfl
  rw [final]
  refine ⟨⟨spawnMove_legal _, ?_⟩, broken⟩
  rw [one]
  refine ⟨spawnMove_legal _, ?_⟩
  rw [two]
  exact ⟨legal, trivial, spawnMove_legal _, trivial⟩

/-- Once ids have run out, a task can share the endpoint of a waiting one. -/
theorem saturated_ids_break_step :
    ¬ ∀ moves : List Move, LegalPlay .boot moves → ∀ i,
      ((play .boot moves).table.task i).live = true → ∀ e,
      (play .boot moves).ipc.find ((play .boot moves).table.task i).id = some e →
      (((play .boot moves).ipc.endpoints e).waiting = true ↔
        ((play .boot moves).table.task i).ipcWaiting = true) := by
  intro claim
  obtain ⟨count, last⟩ : ∃ count, count + 2 = maxWord := ⟨maxWord - 2, by decide⟩
  obtain ⟨legal, idle, dead⟩ := churn_idle (by omega : count ≤ maxWord)
  obtain ⟨legal', i, e, broken⟩ := finale_outOfStep idle last dead
  rw [← play_append] at broken
  have same := claim (churn count ++ finale (count + 2)) (legalPlay_append.mpr ⟨legal, legal'⟩) i
    broken.live e broken.endpoint
  rw [broken.flag] at same
  exact Bool.false_ne_true (same.mp broken.waiting)

end CloudOS.Process
