import CloudOS.Process.Endings
import CloudOS.Process.Preservation
import CloudOS.Process.Switch

/-!
What a step of the kernel does to the tasks as parents and children.

Most steps only move tasks between the states of the living. What is left is five
ways to turn: a spawn fills a free slot, an exit ends a task and may wake its parent,
a cleanup takes back what the task holds, and a wait may empty a slot.
-/

namespace CloudOS.Process

open Lib.Word (satAdd)
open Lib.Scan (first_eq_some)

/-! ### Steps that end nothing -/

/-- The same task after a step: nothing about its descent or its end is different. -/
structure Task.Continues (task task' : Task) : Prop where
  id : task'.id = task.id
  parent : task'.parentId = task.parentId
  exitCode : task'.exitCode = task.exitCode
  resources : task'.resourcesActive = task.resourcesActive
  complete : task'.cleanupComplete = task.cleanupComplete
  live : task.live = true → task'.live = true
  empty : task'.state = .empty ↔ task.state = .empty

namespace Task.Continues

theorem refl (task : Task) : task.Continues task :=
  ⟨rfl, rfl, rfl, rfl, rfl, fun live => live, Iff.rfl⟩

theorem trans {task task' task'' : Task} (first : task.Continues task')
    (second : task'.Continues task'') : task.Continues task'' where
  id := second.id.trans first.id
  parent := second.parent.trans first.parent
  exitCode := second.exitCode.trans first.exitCode
  resources := second.resources.trans first.resources
  complete := second.complete.trans first.complete
  live := fun live => second.live (first.live live)
  empty := second.empty.trans first.empty

/-- A task that is awake, asleep or running afterwards. -/
theorem of_live {task task' : Task} (occupied : task.state ≠ .empty) (live : task'.live = true)
    (id : task'.id = task.id) (parent : task'.parentId = task.parentId)
    (exitCode : task'.exitCode = task.exitCode)
    (resources : task'.resourcesActive = task.resourcesActive)
    (complete : task'.cleanupComplete = task.cleanupComplete) : task.Continues task' where
  id := id
  parent := parent
  exitCode := exitCode
  resources := resources
  complete := complete
  live := fun _ => live
  empty := by
    have filled := (Task.live_iff.mp live).1
    exact ⟨fun empty => absurd empty filled, fun empty => absurd empty occupied⟩

/-- A task that stays in its state. -/
theorem of_state {task task' : Task} (state : task'.state = task.state) (id : task'.id = task.id)
    (parent : task'.parentId = task.parentId) (exitCode : task'.exitCode = task.exitCode)
    (resources : task'.resourcesActive = task.resourcesActive)
    (complete : task'.cleanupComplete = task.cleanupComplete) : task.Continues task' where
  id := id
  parent := parent
  exitCode := exitCode
  resources := resources
  complete := complete
  live := by simp [Task.live, state]
  empty := by rw [state]

end Task.Continues

/-- Every task continues. -/
def System.Continues (s s' : System) : Prop :=
  ∀ i, (s.table.task i).Continues (s'.table.task i)

namespace System

variable {s s' s'' : System}

namespace Continues

theorem of_tasks (same : s'.table.task = s.table.task) : s.Continues s' := fun i => by
  rw [same]
  exact .refl _

theorem refl (s : System) : s.Continues s := of_tasks rfl

theorem trans (first : s.Continues s') (second : s'.Continues s'') : s.Continues s'' :=
  fun i => (first i).trans (second i)

theorem of_update {k : Fin maxTasks} {task : Task}
    (tasks : s'.table.task = Function.update s.table.task k task)
    (continues : (s.table.task k).Continues task) : s.Continues s' := by
  intro i
  rw [tasks]
  by_cases here : i = k
  · rw [here, Function.update_self]
    exact continues
  · rw [Function.update_of_ne here]
    exact .refl _

theorem modify (continues : s.Continues s') {k : Fin maxTasks} {f : Task → Task}
    (fits : (s'.table.task k).Continues (f (s'.table.task k))) : s.Continues (s'.modify k f) :=
  continues.trans (of_update (s'.task_modify k f) fits)

/-- The message layer is another matter. -/
theorem of_ipc {ipc : Ipc.IpcState} (continues : Continues { s with ipc } s') : s.Continues s' :=
  continues

/-- So are the counters. -/
theorem beside (continues : s.Continues s') (same : s''.table.task = s'.table.task) :
    s.Continues s'' :=
  continues.trans (of_tasks same)

end Continues

/-! ### The parts of system calls and timer interrupts -/

theorem takeIpcWakeReason_continues (s : System) (taskId : Nat) :
    s.Continues (s.takeIpcWakeReason taskId).2 := by
  unfold takeIpcWakeReason
  cases s.table.findTask taskId with
  | none => exact .refl s
  | some k =>
      have taken : s.Continues (s.modify k fun task => { task with ipcWakeReason := .none }) :=
        (Continues.refl s).modify (.of_state rfl rfl rfl rfl rfl rfl)
      dsimp only
      split
      · exact (taken.modify (k := k) (f := fun task => { task with ipcRestartPending := false })
          (.of_state rfl rfl rfl rfl rfl rfl)).beside rfl
      · exact taken

theorem completeIpcRestart_continues (s : System) (taskId : Nat) :
    s.Continues (s.completeIpcRestart taskId).2 := by
  unfold completeIpcRestart
  cases s.table.findTask taskId with
  | none => exact .refl s
  | some k =>
      dsimp only
      split
      · exact .refl s
      · exact .of_update (k := k) (ProcessTable.task_of_slots rfl)
          (.of_state rfl rfl rfl rfl rfl rfl)

theorem blockForIpc_continues (s : System) (taskId : Nat) :
    s.Continues (s.blockForIpc taskId).2 := by
  have after := s.blockForIpc_after taskId
  generalize (s.blockForIpc taskId).2 = s' at after ⊢
  cases after with
  | refuse => exact .refl s
  | stuck => exact .of_tasks rfl
  | block found =>
      exact .of_update (ProcessTable.task_of_slots rfl)
        (.of_live (ProcessTable.findTask_eq_some found).1 rfl rfl rfl rfl rfl rfl)

theorem receive_continues (s : System) (receiver : Nat) (output : List UInt8)
    (blockWhenEmpty : Bool) : s.Continues (s.receive receiver output blockWhenEmpty).2.1 := by
  unfold receive
  split
  · exact .of_tasks rfl
  dsimp only
  split
  · split
    · exact .of_tasks rfl
    · rename_i ipc _
      have slept := Continues.of_ipc (blockForIpc_continues { s with ipc } receiver)
      generalize blockForIpc { s with ipc } receiver = result at slept
      obtain ⟨succeeded, s'⟩ := result
      cases succeeded with
      | false => exact slept
      | true => exact slept
  · exact .of_tasks rfl

theorem blockForIpcSyscall_continues (s : System) (taskId : Nat) (frame : SyscallFrame)
    (deadlineTick : Nat) : s.Continues (s.blockForIpcSyscall taskId frame deadlineTick).2.2 := by
  unfold blockForIpcSyscall
  cases found : s.table.findTask taskId with
  | none => exact .refl s
  | some i =>
      dsimp only
      split
      · exact .refl s
      have saved := s.task_saveContext i (saveSyscallContext frame true)
      have occupied : ((s.saveContext i (saveSyscallContext frame true)).table.task i).state ≠
          .empty := by
        rw [saved]
        exact (ProcessTable.findTask_eq_some found).1
      have continues : s.Continues (s.saveContext i (saveSyscallContext frame true)) :=
        .of_tasks saved
      generalize s.saveContext i (saveSyscallContext frame true) = s' at continues occupied
      generalize s'.scheduler.blockCurrentAndDispatch taskId = result
      obtain ⟨decision, scheduler⟩ := result
      split
      · exact continues
      cases target : s'.table.findTask decision.nextTask with
      | none => exact continues
      | some j =>
          dsimp only
          split
          · exact continues
          have occupiedNext := (ProcessTable.findTask_eq_some target).1
          have slept : s'.Continues ({ s' with scheduler }.modify i (Task.asleep · deadlineTick)) :=
            .of_update (task_modify _ i _) (.of_live occupied rfl rfl rfl rfl rfl rfl)
          refine (continues.trans slept).trans
            (.of_update (k := j) (ProcessTable.task_of_slots rfl) ?_)
          exact .of_live (fun empty =>
            occupiedNext ((slept j).empty.mp empty)) rfl rfl rfl rfl rfl rfl

theorem blockSyscall_continues (s : System) (receiver : Nat) (frame : SyscallFrame)
    (deadlineTick : Nat) : s.Continues (s.blockSyscall receiver frame deadlineTick).2.2 := by
  unfold blockSyscall
  split
  · exact .of_tasks rfl
  dsimp only
  split
  · exact .of_tasks rfl
  · exact .of_tasks rfl
  split
  · exact .of_tasks rfl
  · rename_i ipc _
    have slept := Continues.of_ipc
      (blockForIpcSyscall_continues { s with ipc } receiver frame deadlineTick)
    generalize blockForIpcSyscall { s with ipc } receiver frame deadlineTick = result at slept
    obtain ⟨root, frame', s'⟩ := result
    cases root with
    | none => exact slept
    | some root => exact slept

theorem endIpcWait_continues (s : System) (taskId : Nat) (reason : IpcWakeReason) :
    s.Continues (s.endIpcWait taskId reason).2 := by
  have after := s.endIpcWait_after taskId reason
  generalize (s.endIpcWait taskId reason).2 = s' at after ⊢
  cases after with
  | refuse => exact .refl s
  | stuck => exact .of_tasks rfl
  | wake found =>
      exact .of_update (ProcessTable.task_of_slots rfl)
        (.of_live (ProcessTable.findTask_eq_some found).1 rfl rfl rfl rfl rfl rfl)

theorem finishSendLocked_continues (s : System) (sequence : Nat) (wakeReceiver : Bool)
    (receiver : Nat) : s.Continues (s.finishSendLocked sequence wakeReceiver receiver).2 := by
  have woken := s.endIpcWait_continues receiver .message
  unfold finishSendLocked wakeFromIpc
  split
  · generalize s.endIpcWait receiver .message = result at woken
    obtain ⟨succeeded, s'⟩ := result
    cases succeeded with
    | false => exact woken
    | true => exact woken
  · exact .refl s

theorem send_continues (s : System) (sender receiver : Nat) (bytes : List UInt8) :
    s.Continues (s.send sender receiver bytes).2 := by
  unfold send
  split
  · exact .of_tasks rfl
  · exact .of_ipc (finishSendLocked_continues _ _ _ _)

theorem sendCapability_continues (s : System) (sender handle : Nat) (bytes : List UInt8) :
    s.Continues (s.sendCapability sender handle bytes).2 := by
  unfold sendCapability
  split
  · exact .of_tasks rfl
  · exact .of_ipc (finishSendLocked_continues _ _ _ _)

theorem sendWithCapability_continues (s : System) (sender destination transfer : Nat)
    (rights : Ipc.CapabilityRights) (bytes : List UInt8) :
    s.Continues (s.sendWithCapability sender destination transfer rights bytes).2 := by
  unfold sendWithCapability
  split
  · exact .of_tasks rfl
  · exact .of_ipc (finishSendLocked_continues _ _ _ _)

theorem cancelWait_continues (s : System) (requester handle : Nat) :
    s.Continues (s.cancelWait requester handle).2 := by
  unfold cancelWait
  dsimp only
  split
  · exact .of_tasks rfl
  · rename_i target ipc _
    have ended := Continues.of_ipc (endIpcWait_continues { s with ipc } target .cancelled)
    unfold cancelIpcWait
    generalize endIpcWait { s with ipc } target .cancelled = result at ended
    obtain ⟨succeeded, s'⟩ := result
    cases succeeded with
    | false => exact ended
    | true =>
        dsimp only
        split
        · exact ended
        · exact ended

theorem expireSlot_continues (now : Nat) (s : System) (k : Fin maxTasks) :
    s.Continues (expireSlot now s k) := by
  have after := s.expireSlot_after now k
  generalize expireSlot now s k = s' at after ⊢
  cases after with
  | keep => exact .refl s
  | stuck => exact .of_tasks rfl
  | wake blocked =>
      exact .of_update (ProcessTable.task_of_slots rfl)
        (.of_live (by rw [blocked]; nofun) rfl rfl rfl rfl rfl rfl)

theorem onTimerInterrupt_continues (s : System) (context : TimerContext) :
    s.Continues (s.onTimerInterrupt context).2.2 := by
  unfold onTimerInterrupt
  split
  · exact .refl s
  split
  · exact .refl s
  generalize s.scheduler.preemptCurrent = result
  obtain ⟨decision, scheduler⟩ := result
  dsimp only
  split
  · exact .of_tasks rfl
  cases found : s.table.findTask decision.previousTask with
  | none => exact .of_tasks rfl
  | some i =>
      cases target : s.table.findTask decision.nextTask with
      | none => exact .of_tasks rfl
      | some j =>
          have occupied := (ProcessTable.findTask_eq_some found).1
          have occupiedNext := (ProcessTable.findTask_eq_some target).1
          let rotated := { s with scheduler }
          let ready := (rotated.saveContext i context).modify i Task.preempted
          have saved : (rotated.saveContext i context).table.task = s.table.task :=
            task_saveContext rotated i context
          have put : s.Continues ready := by
            refine .of_update (k := i) ((task_modify _ i _).trans (by rw [saved])) ?_
            exact .of_live occupied rfl rfl rfl rfl rfl rfl
          dsimp only
          split
          · exact put.beside rfl
          · refine put.trans (.of_update (s := ready) (k := j) (ProcessTable.task_of_slots rfl) ?_)
            exact .of_live (fun empty =>
              occupiedNext ((put j).empty.mp empty)) rfl rfl rfl rfl rfl rfl

theorem continues_survivesCalls (s : System) : SurvivesCalls s.Continues where
  takeIpcWakeReason := fun continues taskId => continues.trans (takeIpcWakeReason_continues _ taskId)
  receive := fun continues receiver output => continues.trans (receive_continues _ receiver output _)
  completeIpcRestart := fun continues taskId =>
    continues.trans (completeIpcRestart_continues _ taskId)
  blockSyscall := fun continues _ frame deadline =>
    continues.trans (blockSyscall_continues _ _ frame deadline)
  sendCapability := fun continues sender handle bytes =>
    continues.trans (sendCapability_continues _ sender handle bytes)
  sendWithCapability := fun continues sender destination transfer rights bytes =>
    continues.trans (sendWithCapability_continues _ sender destination transfer rights bytes)
  cancelWait := fun continues requester handle =>
    continues.trans (cancelWait_continues _ requester handle)
  revoke := fun continues _ _ => continues

theorem continues_survivesTimer (s : System) : SurvivesTimer s.Continues where
  onTimerTick := fun continues _ => continues
  expireSlot := fun continues now k => continues.trans (expireSlot_continues now _ k)
  onTimerInterrupt := fun continues context => continues.trans (onTimerInterrupt_continues _ context)

theorem markRunning_continues (s : System) (id syscallsBefore : Nat) :
    s.Continues (s.markRunning id syscallsBefore).2 := by
  unfold markRunning
  cases found : s.table.findTask id with
  | none => exact .refl s
  | some k =>
      exact .of_update (k := k) (ProcessTable.task_of_slots rfl)
        (.of_live (ProcessTable.findTask_eq_some found).1 rfl rfl rfl rfl rfl rfl)

theorem wakeWaitingParent_continues (s : System) (parentId childId : Nat) :
    s.Continues (s.wakeWaitingParent parentId childId).2 := by
  have after := s.wakeWaitingParent_after parentId childId
  generalize (s.wakeWaitingParent parentId childId).2 = s' at after ⊢
  cases after with
  | refuse => exact .refl s
  | stuck => exact .of_tasks rfl
  | wake found =>
      exact .of_update (ProcessTable.task_of_slots rfl)
        (.of_live (ProcessTable.findTask_eq_some found).1 rfl rfl rfl rfl rfl rfl)

/-! ### Spawns -/

/-- A spawn fails, or it puts a new task into the free slot. -/
inductive SpawnResult (s : System) (parentId : Nat) : Option Task × System → Prop
  | failed {s' : System} (slots : s'.table.slots = s.table.slots) : SpawnResult s parentId (none, s')
  | filled {s' : System} {k : Fin maxTasks} {slot : ProcessSlot} (heapAllocation : Nat)
      (image : ProcessImage) (free : s.table.freeSlot = some k)
      (fresh : slot.task = freshTask s.table.nextTaskId parentId heapAllocation image)
      (slots : s'.table.slots = Function.update s.table.slots k slot) :
      SpawnResult s parentId (some slot.task, s')

theorem spawnImage_lineage (s : System) (parentId : Nat) (image : ProcessImage)
    (heapAllocation : Option Nat) :
    SpawnResult s parentId (s.spawnImage parentId image heapAllocation) := by
  cases heapAllocation with
  | none => exact .failed rfl
  | some address =>
      unfold spawnImage installTask
      dsimp only
      have same : (if s.table.initialized then s.table else s.table.init).slots = s.table.slots ∧
          (if s.table.initialized then s.table else s.table.init).nextTaskId =
            s.table.nextTaskId := by
        split
        · exact ⟨rfl, rfl⟩
        · exact ⟨rfl, rfl⟩
      generalize (if s.table.initialized then s.table else s.table.init) = table at same
      obtain ⟨slots, next⟩ := same
      have free : table.freeSlot = s.table.freeSlot := by
        unfold ProcessTable.freeSlot ProcessTable.task
        rw [slots]
      cases found : table.freeSlot with
      | none => exact .failed slots
      | some k =>
          dsimp only
          split
          · exact .failed slots
          · exact @SpawnResult.filled s parentId _ k
              ⟨freshTask table.nextTaskId parentId address image,
                initialTimerContext image.entryPoint image.stackTop, true⟩
              address image (free.symm.trans found)
              (congrArg (freshTask · parentId address image) next) (by rw [← slots])

/-- The task that `spawn_elf_child` takes for a parent is alive. -/
theorem spawnElfChild_lineage (s : System) (parentId : Nat) (image : Option ProcessImage)
    (heapAllocation : Option Nat) :
    SpawnResult s parentId (s.spawnElfChild parentId image heapAllocation) ∧
      ((s.spawnElfChild parentId image heapAllocation).1.isSome = true →
        parentId = 0 ∨ s.validParent parentId = true) := by
  unfold spawnElfChild
  split
  · exact ⟨.failed rfl, nofun⟩
  rename_i valid
  have parent : parentId = 0 ∨ s.validParent parentId = true := by
    simpa [or_iff_not_imp_left] using valid
  cases image with
  | none => exact ⟨.failed rfl, nofun⟩
  | some image => exact ⟨s.spawnImage_lineage parentId image heapAllocation, fun _ => parent⟩

theorem spawnPreemptTask_lineage (s : System) (image : Option ProcessImage) (executable : Bool)
    (heapAllocation : Option Nat) :
    SpawnResult s 0 (s.spawnPreemptTask image executable heapAllocation) := by
  unfold spawnPreemptTask
  cases image with
  | none => exact .failed rfl
  | some image =>
      dsimp only
      split
      · exact .failed rfl
      · exact s.spawnImage_lineage 0 image heapAllocation

/-! ### Exits, cleanups and waits -/

/-- Only a blocked task is woken by the exit of a child. -/
theorem wakeWaitingParent_awake (s : System) {k : Fin maxTasks}
    (awake : (s.table.task k).state ≠ .blocked) (parentId childId : Nat) :
    (s.wakeWaitingParent parentId childId).2.table.task k = s.table.task k :=
  (s.wakeWaitingParent_task parentId childId k).resolve_right fun woken => awake woken.1

/-- A task at the end of its life. -/
structure Exited (exitCode : Nat) (task task' : Task) : Prop where
  state : task'.state = .exited
  exitCode : task'.exitCode = exitCode
  id : task'.id = task.id
  parent : task'.parentId = task.parentId
  resources : task'.resourcesActive = task.resourcesActive
  complete : task'.cleanupComplete = task.cleanupComplete

/-- An exit ends one task and leaves the others alive. -/
theorem markExited_lineage (s : System) {id : Nat} {k : Fin maxTasks}
    (found : s.table.findTask id = some k) (exitCode syscallsAfter : Nat) :
    Exited exitCode (s.table.task k) ((s.markExited id exitCode syscallsAfter).2.table.task k) ∧
      ∀ j ≠ k, (s.table.task j).Continues
        ((s.markExited id exitCode syscallsAfter).2.table.task j) := by
  have retired : (s.retire k id exitCode syscallsAfter).table.task = _ :=
    ProcessTable.task_of_slots (t := s.table) rfl
  have ended : Exited exitCode (s.table.task k)
      ((s.retire k id exitCode syscallsAfter).table.task k) := by
    rw [retired, Function.update_self]
    exact ⟨rfl, rfl, rfl, rfl, rfl, rfl⟩
  have others : ∀ j ≠ k, (s.table.task j).Continues
      ((s.retire k id exitCode syscallsAfter).table.task j) := by
    intro j other
    rw [retired, Function.update_of_ne other]
    exact .refl _
  unfold markExited
  rw [found]
  dsimp only
  split
  · generalize s.retire k id exitCode syscallsAfter = s' at ended others
    rw [wakeWaitingParent_awake s' (by simp [ended.state])]
    exact ⟨ended, fun j other => (others j other).trans (wakeWaitingParent_continues s' _ _ j)⟩
  · exact ⟨ended, others⟩

/-- A task whose resources were taken back. -/
structure Released (complete : Bool) (task task' : Task) : Prop where
  state : task'.state = task.state
  id : task'.id = task.id
  parent : task'.parentId = task.parentId
  exitCode : task'.exitCode = task.exitCode
  resources : task'.resourcesActive = false
  complete : task'.cleanupComplete = complete

/-- A cleanup takes resources back once. -/
theorem cleanupTask_lineage (s : System) (id : Nat) (teardown : Teardown) :
    ((s.cleanupTask id teardown).2 = s ∧
      ∀ k, s.table.findTask id = some k → (s.table.task k).resourcesActive = false) ∨
    ∃ k task, s.table.findTask id = some k ∧
      Released (s.cleanupTask id teardown).1 (s.table.task k) task ∧
      (s.cleanupTask id teardown).2.table.task = Function.update s.table.task k task := by
  unfold cleanupTask
  cases found : s.table.findTask id with
  | none => exact Or.inl ⟨rfl, nofun⟩
  | some k =>
      dsimp only
      split
      · rename_i inactive
        refine Or.inl ⟨rfl, ?_⟩
        rintro _ ⟨⟩
        simpa using inactive
      · refine Or.inr ⟨k, _, rfl, ?_, ProcessTable.task_of_slots rfl⟩
        exact ⟨rfl, rfl, rfl, rfl, rfl, rfl⟩

/-- A wait empties the slot of the child it collects, or nothing ends. -/
theorem waitChild_lineage (s : System) (parentId childId : Nat) :
    ((s.waitChild parentId childId).1.reaped = false ∧
      s.Continues (s.waitChild parentId childId).2) ∨
    ∃ k, s.table.findChild parentId childId = some k ∧
      (s.table.task k).state = .exited ∧ (s.table.task k).resourcesActive = false ∧
      (s.table.task k).cleanupComplete = true ∧
      (s.waitChild parentId childId).1.reaped = true ∧
      (s.waitChild parentId childId).1.childId = (s.table.task k).id ∧
      (s.waitChild parentId childId).1.exitCode = (s.table.task k).exitCode ∧
      (s.waitChild parentId childId).2.table.slots =
        Function.update s.table.slots k ProcessSlot.empty := by
  unfold waitChild
  cases found : s.table.findTask parentId with
  | none => exact Or.inl ⟨rfl, .refl s⟩
  | some i =>
      dsimp only
      split
      · exact Or.inl ⟨rfl, .refl s⟩
      rename_i live
      cases child : s.table.findChild parentId childId with
      | none => exact Or.inl ⟨rfl, .refl s⟩
      | some k =>
          dsimp only
          split
          · rename_i collectable
            simp only [Bool.and_eq_true, beq_iff_eq, Bool.not_eq_true'] at collectable
            exact Or.inr ⟨k, rfl, collectable.1.1, collectable.1.2, collectable.2, rfl, rfl, rfl,
              rfl⟩
          split
          · exact Or.inl ⟨rfl, .refl s⟩
          cases s.scheduler.blockTask parentId with
          | mk succeeded scheduler =>
              cases succeeded with
              | false => exact Or.inl ⟨rfl, .of_tasks rfl⟩
              | true =>
                  refine Or.inl ⟨rfl, .of_update (k := i) (ProcessTable.task_of_slots rfl) ?_⟩
                  exact .of_live (ProcessTable.findTask_eq_some found).1 rfl rfl rfl rfl rfl rfl

end System

/-! ### What a step reports -/

/-- What the caller of a method learns about the life of a task. -/
inductive Event where
  | spawned (id parentId : Nat)
  | exited (id exitCode : Nat)
  | cleaned (id : Nat)
  | reaped (parentId childId id exitCode : Nat)
deriving DecidableEq, Repr

/-- The answer of a spawn. -/
def System.spawned (s : System) : Op → Option Task
  | .spawnElfChild parentId image heap => (s.spawnElfChild parentId image heap).1
  | .spawnPreemptTask image executable heap => (s.spawnPreemptTask image executable heap).1
  | .spawnLegacy entryPoint stackTop heap => (s.spawnLegacy entryPoint stackTop heap).1
  | _ => none

/-- A cleanup is reported when it was complete, a wait when it collected a child. -/
def System.event (s : System) : Op → Option Event
  | .markExited id exitCode syscallsAfter =>
      if (s.markExited id exitCode syscallsAfter).1 then some (.exited id exitCode) else none
  | .cleanupTask id teardown =>
      if (s.cleanupTask id teardown).1 then some (.cleaned id) else none
  | .waitChild parentId childId =>
      let result := (s.waitChild parentId childId).1
      if result.reaped then some (.reaped parentId childId result.childId result.exitCode) else none
  | op => (s.spawned op).map fun task => .spawned task.id task.parentId

/-- What a step can do to the task table, with the event it counts as. -/
inductive Account (s s' : System) : Option Event → Prop
  | continues (continues : s.Continues s') : Account s s' none
  | spawned {k : Fin maxTasks} {slot : ProcessSlot} (parentId heapAllocation : Nat)
      (image : ProcessImage) (free : s.table.freeSlot = some k)
      (parent : parentId = 0 ∨ s.validParent parentId = true)
      (fresh : slot.task = System.freshTask s.table.nextTaskId parentId heapAllocation image)
      (slots : s'.table.slots = Function.update s.table.slots k slot) :
      Account s s' (some (.spawned slot.task.id slot.task.parentId))
  | exited {id exitCode : Nat} {k : Fin maxTasks} (found : s.table.findTask id = some k)
      (ended : System.Exited exitCode (s.table.task k) (s'.table.task k))
      (others : ∀ j ≠ k, (s.table.task j).Continues (s'.table.task j)) :
      Account s s' (some (.exited id exitCode))
  | recleaned (id : Nat) (continues : s.Continues s') : Account s s' (some (.cleaned id))
  | cleaned {id : Nat} {complete : Bool} {k : Fin maxTasks} {task : Task}
      (found : s.table.findTask id = some k)
      (released : System.Released complete (s.table.task k) task)
      (tasks : s'.table.task = Function.update s.table.task k task) :
      Account s s' (if complete then some (.cleaned id) else none)
  | reaped {parentId childId : Nat} {k : Fin maxTasks}
      (found : s.table.findChild parentId childId = some k)
      (exited : (s.table.task k).state = .exited)
      (inactive : (s.table.task k).resourcesActive = false)
      (complete : (s.table.task k).cleanupComplete = true)
      (slots : s'.table.slots = Function.update s.table.slots k ProcessSlot.empty) :
      Account s s' (some (.reaped parentId childId (s.table.task k).id (s.table.task k).exitCode))

namespace System

variable {s : System}

/-- A spawn is recorded with the id and the parent of the new task. -/
theorem SpawnResult.account {parentId : Nat} {result : Option Task × System}
    (spawns : SpawnResult s parentId result)
    (parent : result.1.isSome = true → parentId = 0 ∨ s.validParent parentId = true) :
    Account s result.2 (result.1.map fun task => .spawned task.id task.parentId) := by
  cases spawns with
  | failed slots =>
      refine .continues (.of_tasks ?_)
      unfold ProcessTable.task
      rw [slots]
  | filled heapAllocation image free fresh slots =>
      exact .spawned parentId heapAllocation image free (parent rfl) fresh slots

/-- Every operation changes the table as its event says. -/
theorem step_account (s : System) (op : Op) : Account s (step s op) (s.event op) := by
  cases op with
  | spawnElfChild parentId image heap =>
      obtain ⟨spawns, parent⟩ := s.spawnElfChild_lineage parentId image heap
      exact spawns.account parent
  | spawnPreemptTask image executable heap =>
      exact (s.spawnPreemptTask_lineage image executable heap).account fun _ => Or.inl rfl
  | spawnLegacy entryPoint stackTop heap =>
      exact (s.spawnImage_lineage 0 _ heap).account fun _ => Or.inl rfl
  | grant owner target rights => exact .continues (.of_tasks rfl)
  | markRunning id syscallsBefore => exact .continues (s.markRunning_continues id syscallsBefore)
  | markExited id exitCode syscallsAfter =>
      cases found : s.table.findTask id with
      | none =>
          have absent : s.markExited id exitCode syscallsAfter = (false, s) := by
            unfold markExited
            rw [found]
          simp only [step, event, absent]
          exact .continues (.refl s)
      | some k =>
          have present : (s.markExited id exitCode syscallsAfter).1 = true := by
            unfold markExited
            rw [found]
          obtain ⟨ended, others⟩ := s.markExited_lineage found exitCode syscallsAfter
          simp only [event, present, if_true]
          exact .exited found ended others
  | cleanupTask id teardown =>
      rcases s.cleanupTask_lineage id teardown with ⟨same, -⟩ | ⟨k, task, found, released, tasks⟩
      · have continues : s.Continues (step s (.cleanupTask id teardown)) :=
          .of_tasks (congrArg (fun s => s.table.task) same)
        simp only [event]
        split
        · exact .recleaned id continues
        · exact .continues continues
      · exact .cleaned found released tasks
  | waitChild parentId childId =>
      rcases s.waitChild_lineage parentId childId with ⟨idle, continues⟩ |
        ⟨k, found, exited, inactive, complete, reaps, id, code, slots⟩
      · simp only [event, idle]
        exact .continues continues
      · simp only [event, reaps, if_true, id, code]
        exact .reaped found exited inactive complete slots
  | send sender receiver bytes => exact .continues (s.send_continues sender receiver bytes)
  | receive receiver output blockWhenEmpty =>
      exact .continues (s.receive_continues receiver output blockWhenEmpty)
  | syscall memory call arg0 frame =>
      exact .continues ((continues_survivesCalls s).dispatch (.refl s) memory call arg0 frame)
  | startPreemptionTest => exact .continues (.of_tasks rfl)
  | stopPreemptionTest passed => exact .continues (.of_tasks rfl)
  | timer context =>
      exact .continues ((continues_survivesTimer s).timerInterruptHandler (.refl s) context)

end System

end CloudOS.Process
