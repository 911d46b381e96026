import CloudOS.Process.Collect
import CloudOS.Process.Lineage
import CloudOS.Process.ParentWake

/-!
Waiting for any child.

`wait_child` turns a wait for any child into a wait for the one that `find_child`
names: the child in the first slot. That target stays until the wait ends, and
`wake_waiting_parent` compares it with whoever exits. So the wait ends with the exit
of that child and of no other.
-/

namespace CloudOS.Process

open Lib.Word (maxWord)

/-- The task in slot `i` is blocked until `target` exits, and not in a receive. -/
structure AwaitsChild (s : System) (i : Fin maxTasks) (taskId target : Nat) : Prop where
  id : (s.table.task i).id = taskId
  state : (s.table.task i).state = .blocked
  target : (s.table.task i).waitTarget = target
  receiving : (s.table.task i).ipcWaiting = false

namespace AwaitsChild

variable {s s' : System} {issued : Nat} {i : Fin maxTasks} {taskId target : Nat}

theorem of_task (awaits : AwaitsChild s i taskId target)
    (same : s'.table.task i = s.table.task i) : AwaitsChild s' i taskId target :=
  ⟨same ▸ awaits.id, same ▸ awaits.state, same ▸ awaits.target, same ▸ awaits.receiving⟩

/-- A step that rewrites one slot: another one, or without touching the wait. -/
theorem of_update (awaits : AwaitsChild s i taskId target) {k : Fin maxTasks} {task : Task}
    (tasks : s'.table.task = Function.update s.table.task k task)
    (kept : k = i → task.id = (s.table.task i).id ∧ task.state = (s.table.task i).state ∧
      task.waitTarget = (s.table.task i).waitTarget ∧
      task.ipcWaiting = (s.table.task i).ipcWaiting) : AwaitsChild s' i taskId target := by
  by_cases here : i = k
  · obtain ⟨id, state, wait, receiving⟩ := kept here.symm
    have now : s'.table.task i = task := by rw [tasks, here, Function.update_self]
    rw [← now] at id state wait receiving
    exact ⟨id.trans awaits.id, state.trans awaits.state, wait.trans awaits.target,
      receiving.trans awaits.receiving⟩
  · exact awaits.of_task (by rw [tasks, Function.update_of_ne here])

/-- The slot of a task in any other state is another slot. -/
theorem ne_of_state (awaits : AwaitsChild s i taskId target) {k : Fin maxTasks}
    (state : (s.table.task k).state ≠ .blocked) : k ≠ i := by
  rintro rfl
  exact state awaits.state

theorem ne_of_receiving (awaits : AwaitsChild s i taskId target) {k : Fin maxTasks}
    (receiving : (s.table.task k).ipcWaiting = true) : k ≠ i := by
  rintro rfl
  rw [awaits.receiving] at receiving
  cases receiving

/-- Whoever runs or is queued is another task. -/
theorem not_placed (awaits : AwaitsChild s i taskId target) (agrees : s.Agrees issued) {id : Nat}
    (has : id ∈ s.scheduler.queued ∨ s.scheduler.currentTask = id) {k : Fin maxTasks}
    (found : s.table.findTask id = some k) : k ≠ i := by
  rintro rfl
  have blocked := Agree.blocked agrees k awaits.state
  rw [(ProcessTable.findTask_eq_some found).2] at blocked
  have places := (Agree.sound agrees).places
  rcases has with queued | rfl
  · exact places.apart _ queued blocked
  · exact places.current.2 blocked

end AwaitsChild

namespace System

variable {s : System} {issued : Nat} {i : Fin maxTasks} {taskId target : Nat}

/-! ### The parts of system calls and timer interrupts -/

theorem takeIpcWakeReason_awaits (awaits : AwaitsChild s i taskId target) (id : Nat) :
    AwaitsChild (s.takeIpcWakeReason id).2 i taskId target := by
  unfold takeIpcWakeReason
  cases s.table.findTask id with
  | none => exact awaits
  | some k =>
      have taken : AwaitsChild (s.modify k fun task => { task with ipcWakeReason := .none })
          i taskId target :=
        awaits.of_update (s.task_modify k _) fun here => by
          rw [here]
          exact ⟨rfl, rfl, rfl, rfl⟩
      dsimp only
      split
      · refine taken.of_update (k := k) (ProcessTable.task_of_slots rfl) fun here => ?_
        rw [← here]
        exact ⟨rfl, rfl, rfl, rfl⟩
      · exact taken

theorem completeIpcRestart_awaits (awaits : AwaitsChild s i taskId target) (id : Nat) :
    AwaitsChild (s.completeIpcRestart id).2 i taskId target := by
  unfold completeIpcRestart
  cases s.table.findTask id with
  | none => exact awaits
  | some k =>
      dsimp only
      split
      · exact awaits
      · refine awaits.of_update (k := k) (ProcessTable.task_of_slots rfl) fun here => ?_
        rw [here]
        exact ⟨rfl, rfl, rfl, rfl⟩

theorem blockForIpc_awaits (awaits : AwaitsChild s i taskId target) (id : Nat) :
    AwaitsChild (s.blockForIpc id).2 i taskId target := by
  have after := s.blockForIpc_after id
  generalize (s.blockForIpc id).2 = s' at after ⊢
  cases after with
  | refuse => exact awaits
  | stuck => exact awaits.of_task rfl
  | @block k _ _ awake =>
      have other : k ≠ i := awaits.ne_of_state (by rcases awake with awake | awake <;> simp [awake])
      exact awaits.of_update (ProcessTable.task_of_slots rfl) (absurd · other)

theorem receive_awaits (awaits : AwaitsChild s i taskId target) (receiver : Nat)
    (output : List UInt8) (blockWhenEmpty : Bool) :
    AwaitsChild (s.receive receiver output blockWhenEmpty).2.1 i taskId target := by
  unfold receive
  split
  · exact awaits.of_task rfl
  dsimp only
  split
  · split
    · exact awaits.of_task rfl
    · rename_i ipc _
      have slept := blockForIpc_awaits (s := { s with ipc }) (awaits.of_task rfl) receiver
      generalize blockForIpc { s with ipc } receiver = result at slept
      obtain ⟨succeeded, s'⟩ := result
      cases succeeded with
      | false => exact slept.of_task rfl
      | true => exact slept.of_task rfl
  · exact awaits.of_task rfl

theorem blockForIpcSyscall_awaits (awaits : AwaitsChild s i taskId target)
    (agrees : s.Agrees issued) (id : Nat) (frame : SyscallFrame) (deadlineTick : Nat) :
    AwaitsChild (s.blockForIpcSyscall id frame deadlineTick).2.2 i taskId target := by
  have result := blockForIpcSyscall_result (Agree.sound agrees) id frame deadlineTick
  generalize (s.blockForIpcSyscall id frame deadlineTick).1 = root at result
  generalize (s.blockForIpcSyscall id frame deadlineTick).2.2 = s' at result
  cases result with
  | refused => exact awaits
  | saved found => exact awaits.of_task (congrFun (s.task_saveContext _ _) i)
  | stuck found isCurrent nonzero mem places sound unfit =>
      exact awaits.of_task (congrFun (s.task_saveContext _ _) i)
  | switched waited found next other isCurrent nonzero mem places sound beside tasks valid =>
      have apart := awaits.not_placed agrees (Or.inr isCurrent) found
      have apartNext := awaits.not_placed agrees (Or.inl mem) next
      refine awaits.of_task ?_
      rw [tasks, Function.update_of_ne apartNext.symm, Function.update_of_ne apart.symm]

theorem blockSyscall_awaits (awaits : AwaitsChild s i taskId target) (agrees : s.Agrees issued)
    (receiver : Nat) (frame : SyscallFrame) (deadlineTick : Nat) :
    AwaitsChild (s.blockSyscall receiver frame deadlineTick).2.2 i taskId target := by
  unfold blockSyscall
  split
  · exact awaits.of_task rfl
  dsimp only
  split
  · exact awaits.of_task rfl
  · exact awaits.of_task rfl
  split
  · exact awaits.of_task rfl
  · rename_i ipc _
    have slept := blockForIpcSyscall_awaits (s := { s with ipc }) (awaits.of_task rfl) agrees
      receiver frame deadlineTick
    generalize blockForIpcSyscall { s with ipc } receiver frame deadlineTick = result at slept
    obtain ⟨root, frame', s'⟩ := result
    cases root with
    | none => exact slept.of_task rfl
    | some root => exact slept.of_task rfl

theorem endIpcWait_awaits (awaits : AwaitsChild s i taskId target) (id : Nat)
    (reason : IpcWakeReason) : AwaitsChild (s.endIpcWait id reason).2 i taskId target := by
  have after := s.endIpcWait_after id reason
  generalize (s.endIpcWait id reason).2 = s' at after ⊢
  cases after with
  | refuse => exact awaits
  | stuck => exact awaits.of_task rfl
  | wake _ _ receiving =>
      exact awaits.of_update (ProcessTable.task_of_slots rfl)
        (absurd · (awaits.ne_of_receiving receiving))

theorem finishSendLocked_awaits (awaits : AwaitsChild s i taskId target) (sequence : Nat)
    (wakeReceiver : Bool) (receiver : Nat) :
    AwaitsChild (s.finishSendLocked sequence wakeReceiver receiver).2 i taskId target := by
  have woken := endIpcWait_awaits awaits receiver .message
  unfold finishSendLocked wakeFromIpc
  split
  · generalize s.endIpcWait receiver .message = result at woken
    obtain ⟨succeeded, s'⟩ := result
    cases succeeded with
    | false => exact woken.of_task rfl
    | true => exact woken.of_task rfl
  · exact awaits

theorem send_awaits (awaits : AwaitsChild s i taskId target) (sender receiver : Nat)
    (bytes : List UInt8) : AwaitsChild (s.send sender receiver bytes).2 i taskId target := by
  unfold send
  split
  · exact awaits.of_task rfl
  · rename_i ipc _
    exact finishSendLocked_awaits (s := { s with ipc }) (awaits.of_task rfl) _ _ _

theorem sendCapability_awaits (awaits : AwaitsChild s i taskId target) (sender handle : Nat)
    (bytes : List UInt8) : AwaitsChild (s.sendCapability sender handle bytes).2 i taskId target := by
  unfold sendCapability
  split
  · exact awaits.of_task rfl
  · rename_i ipc _
    exact finishSendLocked_awaits (s := { s with ipc }) (awaits.of_task rfl) _ _ _

theorem sendWithCapability_awaits (awaits : AwaitsChild s i taskId target)
    (sender destination transfer : Nat) (rights : Ipc.CapabilityRights) (bytes : List UInt8) :
    AwaitsChild (s.sendWithCapability sender destination transfer rights bytes).2 i taskId
      target := by
  unfold sendWithCapability
  split
  · exact awaits.of_task rfl
  · rename_i ipc _
    exact finishSendLocked_awaits (s := { s with ipc }) (awaits.of_task rfl) _ _ _

theorem cancelWait_awaits (awaits : AwaitsChild s i taskId target) (requester handle : Nat) :
    AwaitsChild (s.cancelWait requester handle).2 i taskId target := by
  unfold cancelWait
  dsimp only
  split
  · exact awaits.of_task rfl
  · rename_i goal ipc _
    have ended := endIpcWait_awaits (s := { s with ipc }) (awaits.of_task rfl) goal .cancelled
    unfold cancelIpcWait
    generalize endIpcWait { s with ipc } goal .cancelled = result at ended
    obtain ⟨succeeded, s'⟩ := result
    cases succeeded with
    | false => exact ended
    | true =>
        dsimp only
        split
        · exact ended.of_task rfl
        · exact ended.of_task rfl

theorem expireSlot_awaits (awaits : AwaitsChild s i taskId target) (now : Nat) (k : Fin maxTasks) :
    AwaitsChild (expireSlot now s k) i taskId target := by
  have after := s.expireSlot_after now k
  generalize expireSlot now s k = s' at after ⊢
  cases after with
  | keep => exact awaits
  | stuck => exact awaits.of_task rfl
  | wake _ receiving =>
      exact awaits.of_update (k := k) (ProcessTable.task_of_slots rfl)
        (absurd · (awaits.ne_of_receiving receiving))

theorem onTimerInterrupt_awaits (awaits : AwaitsChild s i taskId target)
    (agrees : s.Agrees issued) (context : TimerContext) :
    AwaitsChild (s.onTimerInterrupt context).2.2 i taskId target := by
  have result := onTimerInterrupt_result (Agree.sound agrees) context
  generalize (s.onTimerInterrupt context).2.2 = s' at result
  cases result with
  | idle beside scheduled tasks valid => exact awaits.of_task (congrFun tasks i)
  | stuck running mem places sound beside tasks unfit =>
      rcases tasks with tasks | ⟨k, found, tasks⟩
      · exact awaits.of_task (congrFun tasks i)
      · exact awaits.of_update tasks
          (absurd · (awaits.not_placed agrees (Or.inr rfl) found))
  | switched waited found next other running mem places sound beside tasks valid =>
      have apart := awaits.not_placed agrees (Or.inr rfl) found
      have apartNext := awaits.not_placed agrees (Or.inl mem) next
      refine awaits.of_task ?_
      rw [tasks, Function.update_of_ne apartNext.symm, Function.update_of_ne apart.symm]

theorem awaits_survivesCalls (i : Fin maxTasks) (taskId target issued : Nat) :
    SurvivesCalls fun s => s.Agrees issued ∧ AwaitsChild s i taskId target where
  takeIpcWakeReason := fun holds id =>
    ⟨takeIpcWakeReason_agrees holds.1 id, takeIpcWakeReason_awaits holds.2 id⟩
  receive := fun holds receiver output =>
    ⟨receive_agrees holds.1 receiver output _, receive_awaits holds.2 receiver output _⟩
  completeIpcRestart := fun holds id =>
    ⟨completeIpcRestart_agrees holds.1 id, completeIpcRestart_awaits holds.2 id⟩
  blockSyscall := fun holds _ frame deadline =>
    ⟨blockSyscall_agrees holds.1 _ frame deadline,
      blockSyscall_awaits holds.2 holds.1 _ frame deadline⟩
  sendCapability := fun holds sender handle bytes =>
    ⟨sendCapability_agrees holds.1 sender handle bytes,
      sendCapability_awaits holds.2 sender handle bytes⟩
  sendWithCapability := fun holds sender destination transfer rights bytes =>
    ⟨sendWithCapability_agrees holds.1 sender destination transfer rights bytes,
      sendWithCapability_awaits holds.2 sender destination transfer rights bytes⟩
  cancelWait := fun holds requester handle =>
    ⟨cancelWait_agrees holds.1 requester handle, cancelWait_awaits holds.2 requester handle⟩
  revoke := fun holds _ _ => ⟨holds.1, holds.2.of_task rfl⟩

theorem awaits_survivesTimer (i : Fin maxTasks) (taskId target issued : Nat) :
    SurvivesTimer fun s => s.Agrees issued ∧ AwaitsChild s i taskId target where
  onTimerTick := fun holds ticks => ⟨onTimerTick_agrees holds.1 ticks, holds.2.of_task rfl⟩
  expireSlot := fun holds now k => ⟨expireSlot_agrees holds.1 now k, expireSlot_awaits holds.2 now k⟩
  onTimerInterrupt := fun holds context =>
    ⟨onTimerInterrupt_agrees holds.1 context, onTimerInterrupt_awaits holds.2 holds.1 context⟩

/-! ### Spawns, exits, cleanups and other waits -/

/-- A spawn fills a free slot, so a waiting parent is not touched. -/
theorem SpawnResult.awaits (awaits : AwaitsChild s i taskId target) {parentId : Nat}
    {result : Option Task × System} (spawns : SpawnResult s parentId result) :
    AwaitsChild result.2 i taskId target := by
  cases spawns with
  | failed slots =>
      refine awaits.of_task ?_
      unfold ProcessTable.task
      rw [slots]
  | filled heapAllocation image free fresh slots =>
      refine awaits.of_update (ProcessTable.task_of_slots slots) ?_
      rintro rfl
      have vacant := ProcessTable.freeSlot_eq_some free
      simp [Task.live, awaits.state] at vacant

/-- The slot of another task is another slot. -/
theorem ne_slot (awaits : AwaitsChild s i taskId target) {id : Nat} {k : Fin maxTasks}
    (found : s.table.findTask id = some k) (other : id ≠ taskId) : k ≠ i := by
  rintro rfl
  exact other ((ProcessTable.findTask_eq_some found).2.symm.trans awaits.id)

theorem markRunning_awaits (awaits : AwaitsChild s i taskId target) {id : Nat}
    (other : id ≠ taskId) (syscallsBefore : Nat) :
    AwaitsChild (s.markRunning id syscallsBefore).2 i taskId target := by
  unfold markRunning
  cases found : s.table.findTask id with
  | none => exact awaits
  | some k =>
      exact awaits.of_update (k := k) (ProcessTable.task_of_slots rfl)
        (absurd · (ne_slot awaits found other))

theorem wakeWaitingParent_awaits (awaits : AwaitsChild s i taskId target) {parentId : Nat}
    (other : parentId ≠ taskId) (childId : Nat) :
    AwaitsChild (s.wakeWaitingParent parentId childId).2 i taskId target := by
  have after := s.wakeWaitingParent_after parentId childId
  generalize (s.wakeWaitingParent parentId childId).2 = s' at after ⊢
  cases after with
  | refuse => exact awaits
  | stuck => exact awaits.of_task rfl
  | wake found =>
      exact awaits.of_update (ProcessTable.task_of_slots rfl)
        (absurd · (ne_slot awaits found other))

/-- The end of a stranger's child wakes nobody else. -/
theorem markExited_awaits (awaits : AwaitsChild s i taskId target) {id : Nat} (other : id ≠ taskId)
    (stranger : ∀ k ∈ s.table.findTask id, (s.table.task k).parentId ≠ taskId)
    (exitCode syscallsAfter : Nat) :
    AwaitsChild (s.markExited id exitCode syscallsAfter).2 i taskId target := by
  unfold markExited
  cases found : s.table.findTask id with
  | none => exact awaits
  | some k =>
      have retired : AwaitsChild (s.retire k id exitCode syscallsAfter) i taskId target :=
        awaits.of_update (k := k) (ProcessTable.task_of_slots rfl)
          (absurd · (ne_slot awaits found other))
      dsimp only
      split
      · exact wakeWaitingParent_awaits retired (stranger k found) id
      · exact retired

theorem cleanupTask_awaits (awaits : AwaitsChild s i taskId target) (id : Nat)
    (teardown : Teardown) : AwaitsChild (s.cleanupTask id teardown).2 i taskId target := by
  unfold cleanupTask
  cases s.table.findTask id with
  | none => exact awaits
  | some k =>
      dsimp only
      split
      · exact awaits
      · refine awaits.of_update (k := k) (ProcessTable.task_of_slots rfl) fun here => ?_
        rw [← here]
        exact ⟨rfl, rfl, rfl, rfl⟩

theorem waitChild_awaits (awaits : AwaitsChild s i taskId target) {parentId : Nat}
    (other : parentId ≠ taskId) (childId : Nat) :
    AwaitsChild (s.waitChild parentId childId).2 i taskId target := by
  have after := s.waitChild_after parentId childId
  generalize (s.waitChild parentId childId).2 = s' at after ⊢
  cases after with
  | refuse => exact awaits
  | @collect j exited =>
      have apart : j ≠ i := awaits.ne_of_state (by simp [exited])
      exact awaits.of_update (ProcessTable.task_of_slots rfl) (absurd · apart)
  | stuck => exact awaits.of_task rfl
  | block found =>
      exact awaits.of_update (ProcessTable.task_of_slots rfl)
        (absurd · (ne_slot awaits found other))

end System

/-! ### While nobody of the family acts -/

/-- The operation neither starts, ends nor asks for the task, and ends no child of it. -/
def Op.Leaves (taskId : Nat) (s : System) : Op → Prop
  | markRunning id _ => id ≠ taskId
  | markExited id _ _ =>
      id ≠ taskId ∧ ∀ k ∈ s.table.findTask id, (s.table.task k).parentId ≠ taskId
  | waitChild parentId _ => parentId ≠ taskId
  | _ => True

instance Op.decidableLeaves (taskId : Nat) (s : System) : (op : Op) → Decidable (op.Leaves taskId s)
  | markRunning id _ => inferInstanceAs (Decidable (id ≠ taskId))
  | markExited id _ _ => inferInstanceAs (Decidable (id ≠ taskId ∧
      ∀ k ∈ s.table.findTask id, (s.table.task k).parentId ≠ taskId))
  | waitChild parentId _ => inferInstanceAs (Decidable (parentId ≠ taskId))
  | spawnElfChild .. | spawnPreemptTask .. | spawnLegacy .. | grant .. | cleanupTask .. | send ..
  | receive .. | syscall .. | startPreemptionTest | stopPreemptionTest .. | timer .. =>
      inferInstanceAs (Decidable True)

/-- No operation of the run does. -/
def LeavesAlone (taskId : Nat) (s : System) : List Op → Prop
  | [] => True
  | op :: ops => op.Leaves taskId s ∧ LeavesAlone taskId (step s op) ops

instance decidableLeavesAlone (taskId : Nat) :
    (s : System) → (ops : List Op) → Decidable (LeavesAlone taskId s ops)
  | _, [] => inferInstanceAs (Decidable True)
  | s, op :: ops =>
      have := decidableLeavesAlone taskId (step s op) ops
      inferInstanceAs (Decidable (op.Leaves taskId s ∧ LeavesAlone taskId (step s op) ops))

/-- What one operation of the others preserves. -/
theorem step_awaits {s : System} {issued : Nat} {i : Fin maxTasks} {taskId target : Nat}
    (agrees : s.Agrees issued) (awaits : AwaitsChild s i taskId target) {op : Op}
    (leaves : op.Leaves taskId s) : AwaitsChild (step s op) i taskId target := by
  cases op with
  | spawnElfChild parentId image heap =>
      exact (s.spawnElfChild_lineage parentId image heap).1.awaits awaits
  | spawnPreemptTask image executable heap =>
      exact (s.spawnPreemptTask_lineage image executable heap).awaits awaits
  | spawnLegacy entryPoint stackTop heap => exact (s.spawnImage_lineage 0 _ heap).awaits awaits
  | grant owner target rights => exact awaits.of_task rfl
  | markRunning id syscallsBefore => exact System.markRunning_awaits awaits leaves syscallsBefore
  | markExited id exitCode syscallsAfter =>
      exact System.markExited_awaits awaits leaves.1 leaves.2 exitCode syscallsAfter
  | cleanupTask id teardown => exact System.cleanupTask_awaits awaits id teardown
  | waitChild parentId childId => exact System.waitChild_awaits awaits leaves childId
  | send sender receiver bytes => exact System.send_awaits awaits sender receiver bytes
  | receive receiver output blockWhenEmpty =>
      exact System.receive_awaits awaits receiver output blockWhenEmpty
  | syscall memory call arg0 frame =>
      exact ((System.awaits_survivesCalls i taskId target issued).dispatch ⟨agrees, awaits⟩ memory
        call arg0 frame).2
  | startPreemptionTest => exact awaits.of_task rfl
  | stopPreemptionTest passed => exact awaits.of_task rfl
  | timer context =>
      exact ((System.awaits_survivesTimer i taskId target issued).timerInterruptHandler
        ⟨agrees, awaits⟩ context).2

/-- By induction over the run: the parent still waits. -/
theorem run_awaits {s : System} {issued : Nat} {i : Fin maxTasks} {taskId target : Nat}
    (agrees : s.Agrees issued) (awaits : AwaitsChild s i taskId target) {ops : List Op}
    (few : issued + spawnCount ops ≤ maxWord) (leaves : LeavesAlone taskId s ops) :
    AwaitsChild (run s ops) i taskId target := by
  induction ops generalizing s issued with
  | nil => exact awaits
  | cons op ops ih =>
      have count : spawnCount (op :: ops) = spawnCount ops + if op.spawns then 1 else 0 :=
        List.countP_cons
      rw [count] at few
      obtain ⟨issued₁, bound₁, -, agrees₁⟩ := step_agrees agrees op fun spawns => by
        rw [if_pos spawns] at few
        omega
      exact ih agrees₁ (step_awaits agrees awaits leaves.1) (by omega) leaves.2

/-! ### The wait for any child -/

/-- The child of the task in the first slot. -/
def ProcessTable.FirstChild (t : ProcessTable) (parentId : Nat) (i : Fin maxTasks) : Prop :=
  t.ChildOf parentId i ∧ ∀ j < i, ¬ t.ChildOf parentId j

/-- The task in slot `i` is ready, and queued for the processor. -/
structure Awake (s : System) (i : Fin maxTasks) (taskId : Nat) : Prop where
  state : (s.table.task i).state = .ready
  queued : taskId ∈ s.scheduler.queued
  unblocked : taskId ∉ s.scheduler.blockedTasks

namespace System

variable {s : System} {issued : Nat} {i : Fin maxTasks}

/-- A wait for any child that blocks is a wait for the first. -/
theorem waitChild_blocks {parentId : Nat} (found : s.table.findTask parentId = some i)
    (receiving : (s.table.task i).ipcWaiting = false)
    (blocks : (s.waitChild parentId 0).1.blocked = true) :
    ∃ j, s.table.FirstChild parentId j ∧
      AwaitsChild (s.waitChild parentId 0).2 i parentId (s.table.task j).id := by
  unfold waitChild at blocks ⊢
  rw [found] at blocks ⊢
  dsimp only at blocks ⊢
  split at blocks
  · cases blocks
  rename_i live
  rw [if_neg live]
  cases child : s.table.findChild parentId 0 with
  | none =>
      rw [child] at blocks
      cases blocks
  | some j =>
      rw [child] at blocks
      dsimp only at blocks ⊢
      split at blocks
      · cases blocks
      rename_i busy
      split at blocks
      · cases blocks
      rename_i alive
      rw [if_neg busy, if_neg alive]
      have first : s.table.FirstChild parentId j := by
        rcases ProcessTable.findChild_zero_eq_some_iff.mp child with ⟨released, -⟩ | ⟨-, first⟩
        · exact absurd (beq_iff_eq.mpr released.1) alive
        · exact first
      cases slept : s.scheduler.blockTask parentId with
      | mk succeeded scheduler =>
          rw [slept] at blocks
          cases succeeded with
          | false => cases blocks
          | true =>
              have now : ({ s with scheduler }.modify i fun task =>
                  { task with state := .blocked, waitTarget := (s.table.task j).id }).table.task i =
                  { s.table.task i with
                    state := .blocked, waitTarget := (s.table.task j).id } := by
                rw [task_modify, Function.update_self]
              have awaits : AwaitsChild ({ s with scheduler }.modify i fun task =>
                  { task with state := .blocked, waitTarget := (s.table.task j).id }) i parentId
                  (s.table.task j).id :=
                ⟨by rw [now]; exact (ProcessTable.findTask_eq_some found).2, by rw [now],
                  by rw [now], by rw [now]; exact receiving⟩
              exact ⟨j, first, awaits.of_task rfl⟩

/-- The exit of a child ends the wait of its parent exactly when it is the target. -/
theorem markExited_awake_iff (agrees : s.Agrees issued) {parentId target : Nat}
    (awaits : AwaitsChild s i parentId target) (nonzero : target ≠ 0) {k : Fin maxTasks}
    (child : s.table.ChildOf parentId k) (exitCode syscallsAfter : Nat) :
    Awake (s.markExited (s.table.task k).id exitCode syscallsAfter).2 i parentId ↔
      (s.table.task k).id = target := by
  have occupied : (s.table.task i).state ≠ .empty := by simp [awaits.state]
  have positive := (Agree.ids agrees i occupied).1
  have younger := Agree.parents agrees k child.1
  rw [child.2] at younger
  rw [awaits.id] at positive
  have other : i ≠ k := by
    rintro rfl
    rw [awaits.id] at younger
    omega
  rw [markExited_child (agrees.findTask child.1) (by rw [child.2]; omega), child.2]
  have retired := retire_agrees agrees child.1 exitCode syscallsAfter
  have still := awaits.of_task (s.retire_task k (s.table.task k).id exitCode syscallsAfter other)
  generalize s.retire k (s.table.task k).id exitCode syscallsAfter = s' at retired still
  have occupied' : (s'.table.task i).state ≠ .empty := by simp [still.state]
  have found := retired.findTask occupied'
  rw [still.id] at found
  constructor
  · intro awake
    by_contra wrong
    rw [wakeWaitingParent_of_other found
      (by rw [still.target]; exact ⟨nonzero, fun same => wrong same.symm⟩)] at awake
    have state : (s'.table.task i).state = .ready := awake.state
    rw [still.state] at state
    cases state
  · intro isTarget
    obtain ⟨scheduler, wakes, places, sound⟩ := Agree.wakes retired still.state
    rw [still.id] at wakes places
    unfold wakeWaitingParent
    rw [found]
    dsimp only
    rw [if_neg (by simp [still.state, still.target, isTarget]), wakes]
    have queued : parentId ∈ scheduler.queued := by
      rw [Scheduler.queued_of_places places]
      exact List.mem_append_right _ List.mem_cons_self
    refine ⟨?_, queued, sound.places.apart _ queued⟩
    refine (congrArg Task.state
      (congrFun (ProcessTable.task_of_slots (t := s'.table) rfl) i)).trans ?_
    rw [Function.update_self]

end System

/-- In every run that issues fewer than 2^64 task ids: after a task blocked in a
wait for any child, the first of its children to exit wakes it exactly when that
was its child in the first slot. -/
theorem waitAny_wakes_iff (ops meanwhile : List Op) {parentId : Nat} {i k : Fin maxTasks}
    (few : spawnCount ops + spawnCount meanwhile ≤ maxWord)
    (found : (run .boot ops).table.findTask parentId = some i)
    (receiving : ((run .boot ops).table.task i).ipcWaiting = false)
    (blocks : ((run .boot ops).waitChild parentId 0).1.blocked = true)
    (leaves : LeavesAlone parentId (run .boot (ops ++ [.waitChild parentId 0])) meanwhile)
    (child : (run .boot (ops ++ .waitChild parentId 0 :: meanwhile)).table.ChildOf parentId k)
    (exitCode syscallsAfter : Nat) :
    Awake ((run .boot (ops ++ .waitChild parentId 0 :: meanwhile)).markExited
        ((run .boot (ops ++ .waitChild parentId 0 :: meanwhile)).table.task k).id
        exitCode syscallsAfter).2 i parentId ↔
      ∃ j, (run .boot ops).table.FirstChild parentId j ∧ ((run .boot ops).table.task j).id =
        ((run .boot (ops ++ .waitChild parentId 0 :: meanwhile)).table.task k).id := by
  obtain ⟨issued, bound, agrees⟩ := run_agrees boot_agrees ops (by omega)
  have blocked := System.waitChild_agrees agrees parentId 0
  obtain ⟨j, first, awaits⟩ := System.waitChild_blocks found receiving blocks
  have nonzero := (Agree.ids agrees j first.1.1).1
  rw [run_append] at leaves
  rw [run_append, run_cons] at child ⊢
  change LeavesAlone parentId ((run .boot ops).waitChild parentId 0).2 meanwhile at leaves
  change (run ((run .boot ops).waitChild parentId 0).2 meanwhile).table.ChildOf parentId k at child
  have still := run_awaits blocked awaits (by omega) leaves
  obtain ⟨issued', -, agrees'⟩ := run_agrees blocked meanwhile (by omega)
  refine (System.markExited_awake_iff agrees' still (by omega) child exitCode syscallsAfter).trans ?_
  constructor
  · exact fun isFirst => ⟨j, first, isFirst.symm⟩
  · rintro ⟨j', first', isFirst⟩
    have same : j' = j := by
      rcases lt_trichotomy j' j with before | same | after
      · exact absurd first'.1 (first.2 j' before)
      · exact same
      · exact absurd first.1 (first'.2 j after)
    rw [same] at isFirst
    exact isFirst.symm

/-- Task 1 with its children 2 and 3. -/
def twoChildren : List Op :=
  [.spawnElfChild 0 (some someImage) (some 64), .spawnElfChild 1 (some someImage) (some 128),
    .spawnElfChild 1 (some someImage) (some 192)]

theorem waitAny_wakes_iff_twoChildren :
    ((run .boot twoChildren).waitChild 1 0).1.blocked = true ∧
      (Awake ((run .boot (twoChildren ++ [.waitChild 1 0, .markRunning 2 0])).markExited
          ((run .boot (twoChildren ++ [.waitChild 1 0, .markRunning 2 0])).table.task 1).id
          7 0).2 0 1 ↔
        ∃ j, (run .boot twoChildren).table.FirstChild 1 j ∧
          ((run .boot twoChildren).table.task j).id =
            ((run .boot (twoChildren ++ [.waitChild 1 0, .markRunning 2 0])).table.task 1).id) :=
  ⟨by decide +kernel, waitAny_wakes_iff twoChildren [.markRunning 2 0] (by decide +kernel)
    (by decide +kernel) (by decide +kernel) (by decide +kernel) (by decide +kernel)
    (by decide +kernel) 7 0⟩

/-- A task that waits for any child is not always woken by the first exit. -/
theorem waitAny_not_wakes :
    ¬ ∀ (ops meanwhile : List Op) (parentId exitCode syscallsAfter : Nat) (i k : Fin maxTasks),
      spawnCount ops + spawnCount meanwhile ≤ maxWord →
      (run .boot ops).table.findTask parentId = some i →
      ((run .boot ops).table.task i).ipcWaiting = false →
      ((run .boot ops).waitChild parentId 0).1.blocked = true →
      LeavesAlone parentId (run .boot (ops ++ [.waitChild parentId 0])) meanwhile →
      (run .boot (ops ++ .waitChild parentId 0 :: meanwhile)).table.ChildOf parentId k →
      Awake ((run .boot (ops ++ .waitChild parentId 0 :: meanwhile)).markExited
        ((run .boot (ops ++ .waitChild parentId 0 :: meanwhile)).table.task k).id
        exitCode syscallsAfter).2 i parentId := by
  intro claim
  have woken := (claim twoChildren [] 1 8 0 0 2 (by decide +kernel) (by decide +kernel)
    (by decide +kernel) (by decide +kernel) (by decide +kernel) (by decide +kernel)).state
  have asleep : (((run .boot (twoChildren ++ [.waitChild 1 0])).markExited
      ((run .boot (twoChildren ++ [.waitChild 1 0])).table.task 2).id 8 0).2.table.task 0).state =
      .blocked := by decide +kernel
  rw [asleep] at woken
  cases woken

end CloudOS.Process
