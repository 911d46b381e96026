import CloudOS.Process.Reachable

/-!
The tasks that are off the processor and have a place in the scheduler, and what
leaves their registers alone.

Registers are saved in the slot of the current task only, and no function but the
two switches moves that task to the queue or to the blocked ones. So whatever else
the kernel does, it is calm: whoever waits for the processor afterwards waited
before, with the same registers.
-/

namespace CloudOS

namespace Placement

/-- In one of the lists. -/
def Waits (p : Placement) (id : Nat) : Prop := id ∈ p.queued ∨ id ∈ p.blocked

variable {p : Placement} {x id next : Nat}

theorem waits_start (waits : (p.start id).Waits x) : p.Waits x :=
  waits.imp List.mem_of_mem_erase List.mem_of_mem_erase

theorem waits_finish (waits : (p.finish id).Waits x) : p.Waits x :=
  waits.imp List.mem_of_mem_erase List.mem_of_mem_erase

/-- When a known task that is not current blocks, nobody else comes to wait. -/
theorem waits_block (known : p.Has id) (other : id ≠ p.current) (waits : (p.block id).Waits x) :
    p.Waits x := by
  rcases waits with queued | blocked
  · exact Or.inl (List.mem_of_mem_erase queued)
  · rcases Placement.mem_concat.mp blocked with blocked | rfl
    · exact Or.inr blocked
    · rcases known with queued | blocked | ⟨isCurrent, -⟩
      · exact Or.inl queued
      · exact Or.inr blocked
      · exact absurd isCurrent other

theorem waits_wake (was : id ∈ p.blocked) (waits : (p.wake id).Waits x) : p.Waits x := by
  rcases waits with queued | blocked
  · rcases Placement.mem_concat.mp queued with queued | rfl
    · exact Or.inl queued
    · exact Or.inr was
  · exact Or.inr (List.mem_of_mem_erase blocked)

theorem waits_dispatch (waits : (p.dispatch next).Waits x) :
    p.Waits x ∨ x = p.current := by
  rcases waits with queued | blocked
  · exact Or.inl (Or.inl (List.mem_of_mem_erase queued))
  · exact (Placement.mem_concat.mp blocked).imp_left Or.inr

theorem waits_rotate (waits : (p.rotate next).Waits x) :
    p.Waits x ∨ x = p.current := by
  rcases waits with queued | blocked
  · exact (Placement.mem_concat.mp queued).imp_left fun mem => Or.inl (List.mem_of_mem_erase mem)
  · exact Or.inl (Or.inr blocked)

end Placement

namespace Process

open Lib.Word (maxWord)

/-- A slot still holds the task it held, which can run if it could. -/
structure SameTask (slot slot' : ProcessSlot) : Prop where
  occupied : slot.task.state ≠ .empty
  id : slot'.task.id = slot.task.id
  entryPoint : slot'.task.entryPoint = slot.task.entryPoint
  stackTop : slot'.task.stackTop = slot.task.stackTop
  root : slot'.task.addressSpaceRoot = slot.task.addressSpaceRoot
  valid : slot.contextValid = true → slot'.contextValid = true

theorem SameTask.trans {slot slot' slot'' : ProcessSlot} (first : SameTask slot slot')
    (second : SameTask slot' slot'') : SameTask slot slot'' where
  occupied := first.occupied
  id := second.id.trans first.id
  entryPoint := second.entryPoint.trans first.entryPoint
  stackTop := second.stackTop.trans first.stackTop
  root := second.root.trans first.root
  valid := fun valid => second.valid (first.valid valid)

/-- The same task in other words. -/
structure Task.Rewrites (task task' : Task) : Prop where
  id : task'.id = task.id
  entryPoint : task'.entryPoint = task.entryPoint
  stackTop : task'.stackTop = task.stackTop
  root : task'.addressSpaceRoot = task.addressSpaceRoot

namespace System

/-- The task is off the processor and has a place. -/
def Waits (s : System) (id : Nat) : Prop := s.scheduler.placement.Waits id

/-- The registers saved in slot `i`. -/
def saved (s : System) (i : Fin maxTasks) : TimerContext := (s.table.slots i).timerContext

end System

/-- Whoever waits for the processor waited before, with the same registers. -/
structure Calm (s s' : System) : Prop where
  same : ∀ i, (s'.table.task i).state ≠ .empty → SameTask (s.table.slots i) (s'.table.slots i)
  waits : ∀ i, (s'.table.task i).state ≠ .empty → s'.Waits (s'.table.task i).id →
    s.Waits (s'.table.task i).id ∧ s'.saved i = s.saved i

namespace Calm

variable {s s' s'' : System}

theorem trans (first : Calm s s') (second : Calm s' s'') : Calm s s'' := by
  refine ⟨fun i occupied => ?_, fun i occupied waits => ?_⟩
  · have same := second.same i occupied
    exact (first.same i same.occupied).trans same
  · have same := second.same i occupied
    obtain ⟨waits', saved⟩ := second.waits i occupied waits
    rw [show (s''.table.task i).id = (s'.table.task i).id from same.id] at waits' ⊢
    obtain ⟨waits'', saved'⟩ := first.waits i same.occupied waits'
    exact ⟨waits'', saved.trans saved'⟩

/-- The slots are as they were. -/
theorem of_slots (slots : s'.table.slots = s.table.slots)
    (waits : ∀ id, s'.Waits id → s.Waits id) : Calm s s' := by
  have tasks : s'.table.task = s.table.task := by
    funext i
    exact congrArg ProcessSlot.task (congrFun slots i)
  refine ⟨fun i occupied => ?_, fun i occupied waiting => ⟨waits _ waiting, ?_⟩⟩
  · rw [slots]
    rw [tasks] at occupied
    exact ⟨occupied, rfl, rfl, rfl, rfl, fun valid => valid⟩
  · exact congrArg ProcessSlot.timerContext (congrFun slots i)

theorem refl (s : System) : Calm s s := of_slots rfl fun _ waits => waits

/-- One slot is rewritten, but not its registers. -/
theorem of_update {i : Fin maxTasks} {task : Task}
    (slots : s'.table.slots = Function.update s.table.slots i { s.table.slots i with task })
    (rewrites : (s.table.task i).Rewrites task) (occupied : (s.table.task i).state ≠ .empty)
    (waits : ∀ id, s'.Waits id → s.Waits id) : Calm s s' := by
  have tasks := ProcessTable.task_of_slots slots
  refine ⟨fun j occupiedJ => ?_, fun j occupiedJ waiting => ⟨waits _ waiting, ?_⟩⟩
  · rw [slots]
    by_cases here : j = i
    · subst here
      rw [Function.update_self]
      exact ⟨occupied, rewrites.id, rewrites.entryPoint, rewrites.stackTop, rewrites.root,
        fun valid => valid⟩
    · rw [tasks, Function.update_of_ne here] at occupiedJ
      rw [Function.update_of_ne here]
      exact ⟨occupiedJ, rfl, rfl, rfl, rfl, fun valid => valid⟩
  · unfold System.saved
    rw [slots]
    by_cases here : j = i
    · subst here
      rw [Function.update_self]
    · rw [Function.update_of_ne here]

/-- A slot is emptied. -/
theorem of_empty {i : Fin maxTasks}
    (slots : s'.table.slots = Function.update s.table.slots i ProcessSlot.empty)
    (waits : ∀ id, s'.Waits id → s.Waits id) : Calm s s' := by
  have elsewhere : ∀ j, (s'.table.task j).state ≠ .empty → j ≠ i := by
    rintro j occupied rfl
    rw [ProcessTable.task_of_slots slots, Function.update_self] at occupied
    exact occupied rfl
  have kept : ∀ j, j ≠ i → s'.table.slots j = s.table.slots j := by
    intro j other
    rw [slots, Function.update_of_ne other]
  refine ⟨fun j occupied => ?_, fun j occupied waiting => ⟨waits _ waiting, ?_⟩⟩
  · have same := kept j (elsewhere j occupied)
    rw [same]
    exact ⟨same ▸ occupied, rfl, rfl, rfl, rfl, fun valid => valid⟩
  · exact congrArg ProcessSlot.timerContext (kept j (elsewhere j occupied))

/-- Only the message layer changes. -/
theorem of_ipc {ipc : Ipc.IpcState} (calm : Calm { s with ipc } s') : Calm s s' :=
  ⟨calm.same, calm.waits⟩

end Calm

namespace System

variable {s : System} {issued : Nat}

/-! ### The message layer -/

theorem takeIpcWakeReason_calm (s : System) (taskId : Nat) :
    Calm s (s.takeIpcWakeReason taskId).2 := by
  unfold takeIpcWakeReason
  cases found : s.table.findTask taskId with
  | none => exact .refl s
  | some i =>
      have occupied := (ProcessTable.findTask_eq_some found).1
      have taken : Calm s (s.modify i fun task => { task with ipcWakeReason := .none }) :=
        .of_update rfl ⟨rfl, rfl, rfl, rfl⟩ occupied fun _ waits => waits
      dsimp only
      split
      · refine taken.trans (.of_update (i := i) rfl ⟨rfl, rfl, rfl, rfl⟩ ?_ fun _ waits => waits)
        rw [task_modify, Function.update_self]
        exact occupied
      · exact taken

theorem completeIpcRestart_calm (s : System) (taskId : Nat) :
    Calm s (s.completeIpcRestart taskId).2 := by
  unfold completeIpcRestart
  cases found : s.table.findTask taskId with
  | none => exact .refl s
  | some i =>
      dsimp only
      split
      · exact .refl s
      · exact .of_update rfl ⟨rfl, rfl, rfl, rfl⟩ (ProcessTable.findTask_eq_some found).1
          fun _ waits => waits

theorem receive_calm (s : System) (receiver : Nat) (output : List UInt8) :
    Calm s (s.receive receiver output false).2.1 := by
  unfold receive
  split
  · exact .of_slots rfl fun _ waits => waits
  · dsimp only
    rw [if_neg (by simp)]
    exact .of_slots rfl fun _ waits => waits

/-- A blocked task is woken. -/
theorem woken_calm (agrees : s.Agrees issued) {i : Fin maxTasks}
    (blocked : (s.table.task i).state = .blocked) {scheduler : Scheduler}
    (wakes : s.scheduler.wakeTask (s.table.task i).id = (true, scheduler)) {s' : System}
    {task : Task}
    (slots : s'.table.slots = Function.update s.table.slots i { s.table.slots i with task })
    (scheduled : s'.scheduler = scheduler) (rewrites : (s.table.task i).Rewrites task) :
    Calm s s' := by
  obtain ⟨scheduler', eq, places, -⟩ := Agree.wakes agrees blocked
  rw [wakes] at eq
  cases eq
  refine .of_update slots rewrites (by rw [blocked]; decide) fun id waits => ?_
  refine Placement.waits_wake (Agree.blocked agrees i blocked) ?_
  rw [show s.scheduler.placement.wake _ = scheduler.placement from places.symm, ← scheduled]
  exact waits

theorem endIpcWait_calm (agrees : s.Agrees issued) (taskId : Nat) (reason : IpcWakeReason) :
    Calm s (s.endIpcWait taskId reason).2 := by
  have after := s.endIpcWait_after taskId reason
  generalize (s.endIpcWait taskId reason).2 = s' at after ⊢
  cases after with
  | refuse => exact .refl s
  | stuck found blocked _ wakes =>
      obtain ⟨-, rfl⟩ := ProcessTable.findTask_eq_some found
      exact absurd wakes (agrees.wakeTask_ne blocked)
  | wake found blocked _ wakes =>
      obtain ⟨-, rfl⟩ := ProcessTable.findTask_eq_some found
      exact woken_calm agrees blocked wakes rfl rfl ⟨rfl, rfl, rfl, rfl⟩

theorem finishSendLocked_calm (agrees : s.Agrees issued) (sequence : Nat) (wakeReceiver : Bool)
    (receiver : Nat) : Calm s (s.finishSendLocked sequence wakeReceiver receiver).2 := by
  have woken := endIpcWait_calm agrees receiver .message
  unfold finishSendLocked wakeFromIpc
  split
  · generalize s.endIpcWait receiver .message = result at woken
    obtain ⟨succeeded, s'⟩ := result
    cases succeeded with
    | false => exact ⟨woken.same, woken.waits⟩
    | true => exact ⟨woken.same, woken.waits⟩
  · exact .refl s

theorem send_calm (agrees : s.Agrees issued) (sender receiver : Nat) (bytes : List UInt8) :
    Calm s (s.send sender receiver bytes).2 := by
  unfold send
  split
  · exact .of_slots rfl fun _ waits => waits
  · rename_i ipc _
    exact (finishSendLocked_calm (s := { s with ipc }) agrees _ _ _).of_ipc

theorem sendCapability_calm (agrees : s.Agrees issued) (sender handle : Nat)
    (bytes : List UInt8) : Calm s (s.sendCapability sender handle bytes).2 := by
  unfold sendCapability
  split
  · exact .of_slots rfl fun _ waits => waits
  · rename_i ipc _
    exact (finishSendLocked_calm (s := { s with ipc }) agrees _ _ _).of_ipc

theorem sendWithCapability_calm (agrees : s.Agrees issued) (sender destination transfer : Nat)
    (rights : Ipc.CapabilityRights) (bytes : List UInt8) :
    Calm s (s.sendWithCapability sender destination transfer rights bytes).2 := by
  unfold sendWithCapability
  split
  · exact .of_slots rfl fun _ waits => waits
  · rename_i ipc _
    exact (finishSendLocked_calm (s := { s with ipc }) agrees _ _ _).of_ipc

theorem cancelWait_calm (agrees : s.Agrees issued) (requester handle : Nat) :
    Calm s (s.cancelWait requester handle).2 := by
  unfold cancelWait
  dsimp only
  split
  · exact .of_slots rfl fun _ waits => waits
  · rename_i target ipc _
    have woken := (endIpcWait_calm (s := { s with ipc }) agrees target .cancelled).of_ipc
    unfold cancelIpcWait
    generalize endIpcWait { s with ipc } target .cancelled = result at woken
    obtain ⟨succeeded, s'⟩ := result
    cases succeeded with
    | false => exact woken
    | true =>
        dsimp only
        split
        · exact ⟨woken.same, woken.waits⟩
        · exact ⟨woken.same, woken.waits⟩

/-! ### The timer -/

theorem onTimerTick_calm (s : System) (ticks : Nat) :
    Calm s { s with ticks, scheduler := s.scheduler.onTimerTick } := by
  refine .of_slots rfl fun id waits => ?_
  unfold Waits at waits
  rwa [s.scheduler.onTimerTick_placement] at waits

theorem expireSlot_calm (agrees : s.Agrees issued) (now : Nat) (i : Fin maxTasks) :
    Calm s (expireSlot now s i) := by
  have after := s.expireSlot_after now i
  generalize expireSlot now s i = s' at after ⊢
  cases after with
  | keep _ => exact .refl s
  | stuck blocked wakes => exact absurd wakes (agrees.wakeTask_ne blocked)
  | wake blocked _ _ _ wakes =>
      exact woken_calm agrees blocked wakes rfl rfl ⟨rfl, rfl, rfl, rfl⟩

theorem expireIpcDeadlines_calm (agrees : s.Agrees issued) (now : Nat) :
    Calm s (s.expireIpcDeadlines now) ∧ (s.expireIpcDeadlines now).Agrees issued := by
  unfold expireIpcDeadlines
  generalize List.finRange maxTasks = indices
  induction indices generalizing s with
  | nil => exact ⟨.refl s, agrees⟩
  | cons i indices ih =>
      obtain ⟨calm, agrees'⟩ := ih (expireSlot_agrees agrees now i)
      exact ⟨(expireSlot_calm agrees now i).trans calm, agrees'⟩

/-! ### The kernel's own calls -/

theorem markRunning_calm (agrees : s.Agrees issued) (id syscallsBefore : Nat) :
    Calm s (s.markRunning id syscallsBefore).2 := by
  unfold markRunning
  cases found : s.table.findTask id with
  | none => exact .refl s
  | some i =>
      refine .of_update (i := i) rfl ⟨rfl, rfl, rfl, rfl⟩ (ProcessTable.findTask_eq_some found).1
        fun x waits => ?_
      have started : (s.scheduler.beginTask id).placement.Waits x := waits
      rw [((Agree.sound agrees).beginTask id).1] at started
      exact Placement.waits_start started

theorem wakeWaitingParent_calm (agrees : s.Agrees issued) (parentId childId : Nat) :
    Calm s (s.wakeWaitingParent parentId childId).2 := by
  have after := s.wakeWaitingParent_after parentId childId
  generalize (s.wakeWaitingParent parentId childId).2 = s' at after ⊢
  cases after with
  | refuse => exact .refl s
  | stuck found blocked wakes =>
      obtain ⟨-, rfl⟩ := ProcessTable.findTask_eq_some found
      exact absurd wakes (agrees.wakeTask_ne blocked)
  | wake found blocked _ wakes =>
      obtain ⟨-, rfl⟩ := ProcessTable.findTask_eq_some found
      exact woken_calm agrees blocked wakes rfl rfl ⟨rfl, rfl, rfl, rfl⟩

theorem markExited_calm (agrees : s.Agrees issued) (id exitCode syscallsAfter : Nat) :
    Calm s (s.markExited id exitCode syscallsAfter).2 := by
  unfold markExited
  cases found : s.table.findTask id with
  | none => exact .refl s
  | some i =>
      obtain ⟨occupied, rfl⟩ := ProcessTable.findTask_eq_some found
      have retired := retire_agrees agrees occupied exitCode syscallsAfter
      have left : Calm s (s.retire i (s.table.task i).id exitCode syscallsAfter) := by
        refine .of_update (i := i) rfl ⟨rfl, rfl, rfl, rfl⟩ occupied fun x waits => ?_
        unfold Waits at waits
        rw [retire_scheduler, ((Agree.sound agrees).finishTask _).1] at waits
        exact Placement.waits_finish waits
      dsimp only
      split
      · exact left.trans (wakeWaitingParent_calm retired _ _)
      · exact left

theorem cleanupTask_calm (s : System) (id : Nat) (teardown : Teardown) :
    Calm s (s.cleanupTask id teardown).2 := by
  unfold cleanupTask
  cases found : s.table.findTask id with
  | none => exact .refl s
  | some i =>
      obtain ⟨occupied, -⟩ := ProcessTable.findTask_eq_some found
      dsimp only
      split
      · exact .refl s
      · exact .of_update (i := i) rfl ⟨rfl, rfl, rfl, rfl⟩ occupied fun _ waits => waits

/-- A task that is not the current one is blocked, or was already. -/
theorem blockTask_waits (agrees : s.Agrees issued) {id : Nat} (other : id ≠ s.currentTask)
    {succeeded : Bool} {scheduler : Scheduler}
    (blocks : s.scheduler.blockTask id = (succeeded, scheduler)) {x : Nat}
    (waits : scheduler.placement.Waits x) : s.Waits x := by
  rcases (Agree.sound agrees).blockTask_cases id with ⟨s', eq, places, -⟩ | ⟨eq, -⟩ |
    ⟨s', eq, places, -, known, -⟩
  · cases blocks.symm.trans eq
    rwa [places] at waits
  · cases blocks.symm.trans eq
    exact waits
  · cases blocks.symm.trans eq
    rw [places] at waits
    exact Placement.waits_block known other waits

/-- A wait of somebody else suspends nobody. -/
theorem waitChild_calm (agrees : s.Agrees issued) {parentId : Nat} (other : parentId ≠ s.currentTask)
    (childId : Nat) : Calm s (s.waitChild parentId childId).2 := by
  have after := s.waitChild_after parentId childId
  generalize (s.waitChild parentId childId).2 = s' at after ⊢
  cases after with
  | refuse => exact .refl s
  | @collect j _ _ => exact .of_empty (i := j) rfl fun _ waits => waits
  | stuck blocks => exact .of_slots rfl fun _ => blockTask_waits agrees other blocks
  | @block i _ _ found _ blocks =>
      exact .of_update (i := i) rfl ⟨rfl, rfl, rfl, rfl⟩ (ProcessTable.findTask_eq_some found).1
        fun _ => blockTask_waits agrees other blocks

theorem blockForIpc_calm (agrees : s.Agrees issued) {taskId : Nat} (other : taskId ≠ s.currentTask) :
    Calm s (s.blockForIpc taskId).2 := by
  have after := s.blockForIpc_after taskId
  generalize (s.blockForIpc taskId).2 = s' at after ⊢
  cases after with
  | refuse => exact .refl s
  | stuck blocks => exact .of_slots rfl fun _ => blockTask_waits agrees other blocks
  | @block i _ found _ blocks =>
      exact .of_update (i := i) rfl ⟨rfl, rfl, rfl, rfl⟩ (ProcessTable.findTask_eq_some found).1
        fun _ => blockTask_waits agrees other blocks

theorem receive_true_calm (agrees : s.Agrees issued) {receiver : Nat}
    (other : receiver ≠ s.currentTask) (output : List UInt8) :
    Calm s (s.receive receiver output true).2.1 := by
  unfold receive
  split
  · exact .of_slots rfl fun _ waits => waits
  dsimp only
  split
  · split
    · exact .of_slots rfl fun _ waits => waits
    · rename_i ipc _
      have slept := (blockForIpc_calm (s := { s with ipc }) agrees other).of_ipc
      generalize blockForIpc { s with ipc } receiver = result at slept
      obtain ⟨succeeded, s'⟩ := result
      cases succeeded with
      | false => exact ⟨slept.same, slept.waits⟩
      | true => exact ⟨slept.same, slept.waits⟩
  · exact .of_slots rfl fun _ waits => waits

end System

end Process

end CloudOS
