import CloudOS.Process.Agreement
import CloudOS.Process.Preservation
import CloudOS.Process.UserMode

/-!
Who is marked exited when user mode ends.

No interrupt takes a task out of its slot or ends its life, so the task a run was
started for is still alive when user mode ends. `run_spawned_task` then ends that
task, which is the one that exited only if the processor was never handed over.
-/

namespace CloudOS.Process

open Lib.Word (satAdd)

/-- Every task is still in its slot, and alive if it was. -/
structure Stays (s s' : System) : Prop where
  id : ∀ i, (s'.table.task i).id = (s.table.task i).id
  empty : ∀ i, (s'.table.task i).state = .empty ↔ (s.table.task i).state = .empty
  live : ∀ i, (s.table.task i).live = true → (s'.table.task i).live = true

namespace Stays

variable {s s' s'' : System}

theorem of_tasks (tasks : s'.table.task = s.table.task) : Stays s s' where
  id := fun _ => by rw [tasks]
  empty := fun _ => by rw [tasks]
  live := fun _ live => by rwa [tasks]

theorem refl (s : System) : Stays s s := of_tasks rfl

theorem trans (first : Stays s s') (second : Stays s' s'') : Stays s s'' where
  id := fun i => (second.id i).trans (first.id i)
  empty := fun i => (second.empty i).trans (first.empty i)
  live := fun i live => second.live i (first.live i live)

/-- The message layer has no tasks. -/
theorem of_ipc {ipc : Ipc.IpcState} (stays : Stays { s with ipc } s') : Stays s s' :=
  ⟨stays.id, stays.empty, stays.live⟩

/-- One task changes. -/
theorem of_update {i : Fin maxTasks} {task : Task}
    (tasks : s'.table.task = Function.update s.table.task i task)
    (occupied : (s.table.task i).state ≠ .empty) (id : task.id = (s.table.task i).id)
    (occupied' : task.state ≠ .empty) (live : (s.table.task i).live = true → task.live = true) :
    Stays s s' := by
  refine ⟨fun j => ?_, fun j => ?_, fun j alive => ?_⟩
  all_goals rw [tasks]
  all_goals by_cases here : j = i
  · rw [here, Function.update_self, id]
  · rw [Function.update_of_ne here]
  · rw [here, Function.update_self]
    exact iff_of_false occupied' occupied
  · rw [Function.update_of_ne here]
  · rw [here, Function.update_self]
    exact live (here ▸ alive)
  · rwa [Function.update_of_ne here]

/-- One task changes and stays alive. -/
theorem of_live {i : Fin maxTasks} {task : Task}
    (tasks : s'.table.task = Function.update s.table.task i task)
    (occupied : (s.table.task i).state ≠ .empty) (id : task.id = (s.table.task i).id)
    (live : task.live = true) : Stays s s' :=
  .of_update tasks occupied id (Task.live_iff.mp live).1 fun _ => live

/-- One task changes and keeps its state. -/
theorem of_state {i : Fin maxTasks} {task : Task}
    (tasks : s'.table.task = Function.update s.table.task i task)
    (occupied : (s.table.task i).state ≠ .empty) (id : task.id = (s.table.task i).id)
    (state : task.state = (s.table.task i).state) : Stays s s' := by
  refine .of_update tasks occupied id (state ▸ occupied) fun live => ?_
  rwa [Task.live_iff, state, ← Task.live_iff]

theorem findTask (stays : Stays s s') (id : Nat) : s'.table.findTask id = s.table.findTask id :=
  findTask_of_same stays.id stays.empty id

end Stays

namespace System

variable {s s' : System}

/-! ### System calls -/

theorem takeIpcWakeReason_stays (s : System) (taskId : Nat) :
    Stays s (s.takeIpcWakeReason taskId).2 := by
  unfold takeIpcWakeReason
  cases found : s.table.findTask taskId with
  | none => exact .refl s
  | some i =>
      have occupied := (ProcessTable.findTask_eq_some found).1
      have taken : Stays s (s.modify i fun task => { task with ipcWakeReason := .none }) :=
        .of_state (s.task_modify i _) occupied rfl rfl
      dsimp only
      split
      · refine taken.trans (.of_state (i := i) (ProcessTable.task_of_slots rfl) ?_ rfl rfl)
        exact mt (taken.empty i).mp occupied
      · exact taken

theorem completeIpcRestart_stays (s : System) (taskId : Nat) :
    Stays s (s.completeIpcRestart taskId).2 := by
  unfold completeIpcRestart
  cases found : s.table.findTask taskId with
  | none => exact .refl s
  | some i =>
      dsimp only
      split
      · exact .refl s
      · exact .of_state (ProcessTable.task_of_slots rfl) (ProcessTable.findTask_eq_some found).1
          rfl rfl

theorem receive_stays (s : System) (receiver : Nat) (output : List UInt8) :
    Stays s (s.receive receiver output false).2.1 := by
  unfold receive
  split
  · exact .of_tasks rfl
  · dsimp only
    rw [if_neg (by simp)]
    exact .of_tasks rfl

theorem blockForIpcSyscall_stays (s : System) (taskId : Nat) (frame : SyscallFrame)
    (deadlineTick : Nat) : Stays s (s.blockForIpcSyscall taskId frame deadlineTick).2.2 := by
  unfold blockForIpcSyscall
  cases found : s.table.findTask taskId with
  | none => exact .refl s
  | some i =>
      dsimp only
      split
      · exact .refl s
      generalize Scheduler.blockCurrentAndDispatch _ taskId = result
      obtain ⟨decision, scheduler⟩ := result
      let saved : System := { s.saveContext i (saveSyscallContext frame true) with scheduler }
      have same : Stays s saved := .of_tasks (s.task_saveContext i _)
      dsimp only
      split
      · exact same
      cases target : saved.table.findTask decision.nextTask with
      | none =>
          exact same
      | some j =>
          dsimp only
          split
          · exact same
          · let sleeping := saved.modify i fun task => task.asleep deadlineTick
            have slept : Stays s sleeping := same.trans <|
              .of_live (task_modify saved i _)
                (mt (same.empty i).mp (ProcessTable.findTask_eq_some found).1) rfl rfl
            refine slept.trans (.of_live (i := j) (ProcessTable.task_of_slots rfl) ?_ rfl rfl)
            rw [ne_eq, slept.empty j, ← same.empty j]
            exact (ProcessTable.findTask_eq_some target).1

theorem blockSyscall_stays (s : System) (receiver : Nat) (frame : SyscallFrame)
    (deadlineTick : Nat) : Stays s (s.blockSyscall receiver frame deadlineTick).2.2 := by
  unfold blockSyscall
  split
  · exact .of_tasks rfl
  dsimp only
  split
  · exact .of_tasks rfl
  · exact .of_tasks rfl
  split
  · exact .of_tasks rfl
  · rename_i ipc _
    have slept := blockForIpcSyscall_stays { s with ipc } receiver frame deadlineTick
    generalize blockForIpcSyscall { s with ipc } receiver frame deadlineTick = result at slept
    obtain ⟨root, frame', s'⟩ := result
    have slept' : Stays s s' := slept.of_ipc
    cases root with
    | none => exact slept'.trans (.of_tasks rfl)
    | some root => exact slept'.trans (.of_tasks rfl)

theorem endIpcWait_stays (s : System) (taskId : Nat) (reason : IpcWakeReason) :
    Stays s (s.endIpcWait taskId reason).2 := by
  have after := s.endIpcWait_after taskId reason
  generalize (s.endIpcWait taskId reason).2 = s' at after ⊢
  cases after with
  | refuse => exact .refl s
  | stuck => exact .of_tasks rfl
  | wake found =>
      exact .of_live (ProcessTable.task_of_slots rfl) (ProcessTable.findTask_eq_some found).1
        rfl rfl

theorem finishSendLocked_stays (s : System) (sequence : Nat) (wakeReceiver : Bool)
    (receiver : Nat) : Stays s (s.finishSendLocked sequence wakeReceiver receiver).2 := by
  have woken := endIpcWait_stays s receiver .message
  unfold finishSendLocked wakeFromIpc
  split
  · generalize s.endIpcWait receiver .message = result at woken
    obtain ⟨succeeded, s'⟩ := result
    cases succeeded with
    | false => exact woken.trans (.of_tasks rfl)
    | true => exact woken.trans (.of_tasks rfl)
  · exact .refl s

theorem cancelWait_stays (s : System) (requester handle : Nat) :
    Stays s (s.cancelWait requester handle).2 := by
  unfold cancelWait
  dsimp only
  split
  · exact .of_tasks rfl
  · rename_i target ipc _
    have woken := endIpcWait_stays { s with ipc } target .cancelled
    unfold cancelIpcWait
    generalize endIpcWait { s with ipc } target .cancelled = result at woken
    obtain ⟨succeeded, s'⟩ := result
    have woken' : Stays s s' := woken.of_ipc
    cases succeeded with
    | false => exact woken'
    | true =>
        dsimp only
        split
        · exact woken'.trans (.of_tasks rfl)
        · exact woken'.trans (.of_tasks rfl)

theorem stays_survivesCalls (s₀ : System) : SurvivesCalls (Stays s₀) where
  takeIpcWakeReason := fun stays taskId => stays.trans (takeIpcWakeReason_stays _ taskId)
  receive := fun stays receiver output => stays.trans (receive_stays _ receiver output)
  completeIpcRestart := fun stays taskId => stays.trans (completeIpcRestart_stays _ taskId)
  blockSyscall := fun stays _ frame deadlineTick =>
    stays.trans (blockSyscall_stays _ _ frame deadlineTick)
  sendCapability := fun {s} stays sender handle bytes => by
    unfold sendCapability
    split
    · exact stays.trans (.of_tasks rfl)
    · rename_i ipc _
      exact stays.trans (finishSendLocked_stays { s with ipc } _ _ _).of_ipc
  sendWithCapability := fun {s} stays sender destination transfer rights bytes => by
    unfold sendWithCapability
    split
    · exact stays.trans (.of_tasks rfl)
    · rename_i ipc _
      exact stays.trans (finishSendLocked_stays { s with ipc } _ _ _).of_ipc
  cancelWait := fun stays requester handle => stays.trans (cancelWait_stays _ requester handle)
  revoke := fun stays _ _ => stays.trans (.of_tasks rfl)

/-! ### The timer -/

theorem expireSlot_stays (s : System) (now : Nat) (i : Fin maxTasks) :
    Stays s (expireSlot now s i) := by
  have after := s.expireSlot_after now i
  generalize expireSlot now s i = s' at after ⊢
  cases after with
  | keep => exact .refl s
  | stuck => exact .of_tasks rfl
  | wake blocked =>
      exact .of_live (i := i) (ProcessTable.task_of_slots rfl) (by rw [blocked]; nofun) rfl rfl

theorem onTimerInterrupt_stays (s : System) (context : TimerContext) :
    Stays s (s.onTimerInterrupt context).2.2 := by
  unfold onTimerInterrupt
  split
  · exact .refl s
  split
  · exact .refl s
  generalize s.scheduler.preemptCurrent = result
  obtain ⟨decision, scheduler⟩ := result
  dsimp only
  split
  · exact .of_tasks rfl
  cases found : s.table.findTask decision.previousTask with
  | none => exact .of_tasks rfl
  | some i =>
      cases target : s.table.findTask decision.nextTask with
      | none => exact .of_tasks rfl
      | some j =>
          let saved := ({ s with scheduler } : System).saveContext i context
          have same : Stays s saved := .of_tasks (task_saveContext { s with scheduler } i context)
          let waiting := saved.modify i Task.preempted
          have left : Stays s waiting := same.trans <|
            .of_live (task_modify saved i _)
              (mt (same.empty i).mp (ProcessTable.findTask_eq_some found).1) rfl rfl
          dsimp only
          split
          · exact left.trans (.of_tasks rfl)
          · refine left.trans (.of_live (i := j) (ProcessTable.task_of_slots rfl) ?_ rfl rfl)
            exact mt (left.empty j).mp (ProcessTable.findTask_eq_some target).1

theorem stays_survivesTimer (s₀ : System) : SurvivesTimer (Stays s₀) where
  onTimerTick := fun stays _ => stays.trans (.of_tasks rfl)
  expireSlot := fun stays now i => stays.trans (expireSlot_stays _ now i)
  onTimerInterrupt := fun stays context => stays.trans (onTimerInterrupt_stays _ context)

/-! ### User mode -/

theorem syscallInterrupt_stays (s : System) (memory : UserMemory) (frame : SyscallFrame) :
    Stays s (s.syscallInterrupt memory frame).2 := by
  unfold syscallInterrupt
  split
  · exact .refl s
  · exact .refl s
  · exact .refl s
  · exact .refl s
  · exact .of_tasks rfl
  · exact .refl s
  · exact .refl s
  · exact (stays_survivesCalls s).dispatch (.refl s) memory _ frame.rdi frame

theorem serve_stays (s : System) (event : UserEvent) : Stays s (s.serve event).2 := by
  unfold serve
  cases event with
  | syscall memory frame =>
      have called := syscallInterrupt_stays s memory frame
      dsimp only
      generalize s.syscallInterrupt memory frame = result at called
      obtain ⟨ending, s'⟩ := result
      cases ending with
      | resume root frame => exact called
      | exit exitCode => exact called
  | timer context =>
      have ticked := (stays_survivesTimer s).timerInterruptHandler (.refl s) (some context)
      dsimp only
      generalize s.timerInterruptHandler (some context) = result at ticked
      obtain ⟨action, context', s'⟩ := result
      cases action with
      | «continue» => exact ticked
      | switch root => exact ticked
      | stop exitCode => exact ticked
  | fault vector => exact .refl s

/-- Until the program ends, every task keeps its slot and its end. -/
theorem userEnter_stays {s ended : System} {syscallCount after exitCode : Nat}
    {events : List UserEvent}
    (ends : s.userEnter syscallCount events = some (exitCode, after, ended)) : Stays s ended := by
  induction events generalizing s syscallCount with
  | nil => cases ends
  | cons event events ih =>
      have served := serve_stays s event
      unfold userEnter at ends
      dsimp only at ends
      generalize s.serve event = result at served ends
      obtain ⟨outcome, s'⟩ := result
      cases outcome with
      | none => exact served.trans (ih ends)
      | some code =>
          cases ends
          exact served

/-! ### The end of a task -/

/-- The task in slot `i` ended with `exitCode` and lost its resources. -/
structure Ended (s s' : System) (i : Fin maxTasks) (exitCode : Nat) : Prop where
  ids : ∀ j, (s'.table.task j).id = (s.table.task j).id
  empty : ∀ j, (s'.table.task j).state = .empty ↔ (s.table.task j).state = .empty
  exited : (s'.table.task i).state = .exited
  exitCode : (s'.table.task i).exitCode = exitCode
  released : (s'.table.task i).resourcesActive = false
  others : ∀ j, j ≠ i →
    ((s'.table.task j).state = .exited ↔ (s.table.task j).state = .exited) ∧
      (s'.table.task j).resourcesActive = (s.table.task j).resourcesActive

/-- `mark_exited`, which may wake the parent. -/
theorem markExited_task (s : System) {id : Nat} {i : Fin maxTasks}
    (found : s.table.findTask id = some i) (exitCode syscallsAfter : Nat) (j : Fin maxTasks) :
    (s.markExited id exitCode syscallsAfter).2.table.task j =
        (s.retire i id exitCode syscallsAfter).table.task j ∨
      ((s.retire i id exitCode syscallsAfter).table.task j).state = .blocked ∧
        (s.markExited id exitCode syscallsAfter).2.table.task j =
          { (s.retire i id exitCode syscallsAfter).table.task j with
            state := .ready, waitTarget := 0 } := by
  unfold markExited
  rw [found]
  dsimp only
  split
  · exact wakeWaitingParent_task _ _ _ j
  · exact Or.inl rfl

/-- `mark_exited` for the task in slot `i`, slot by slot. -/
theorem markExited_slots (s : System) {id : Nat} {i : Fin maxTasks}
    (found : s.table.findTask id = some i) (exitCode syscallsAfter : Nat) :
    ((s.markExited id exitCode syscallsAfter).2.table.task i).state = .exited ∧
      ((s.markExited id exitCode syscallsAfter).2.table.task i).exitCode = exitCode ∧
      ∀ j, ((s.markExited id exitCode syscallsAfter).2.table.task j).id = (s.table.task j).id ∧
        ((s.markExited id exitCode syscallsAfter).2.table.task j).resourcesActive =
          (s.table.task j).resourcesActive ∧
        (((s.markExited id exitCode syscallsAfter).2.table.task j).state = .empty ↔
          (s.table.task j).state = .empty) ∧
        (j ≠ i → (((s.markExited id exitCode syscallsAfter).2.table.task j).state = .exited ↔
          (s.table.task j).state = .exited)) := by
  have occupied := (ProcessTable.findTask_eq_some found).1
  have retired : (s.retire i id exitCode syscallsAfter).table.task i =
      { s.table.task i with
        state := .exited, exitCode, syscallsAfter, ipcWaiting := false
        ipcRestartPending := false, ipcDeadlineTick := 0, ipcWakeReason := .none } := by
    refine (congrFun (ProcessTable.task_of_slots (t := s.table) rfl) i).trans ?_
    rw [Function.update_self]
    rfl
  have marked := s.markExited_task found exitCode syscallsAfter
  generalize (s.markExited id exitCode syscallsAfter).2.table.task = tasks at marked ⊢
  have here : tasks i = (s.retire i id exitCode syscallsAfter).table.task i := by
    rcases marked i with same | ⟨blocked, -⟩
    · exact same
    · rw [retired] at blocked
      cases blocked
  refine ⟨by rw [here, retired], by rw [here, retired], fun j => ?_⟩
  by_cases same : j = i
  · subst same
    rw [here, retired]
    exact ⟨rfl, rfl, iff_of_false (fun vacant => by cases vacant) occupied,
      fun other => absurd rfl other⟩
  · have kept := s.retire_task i id exitCode syscallsAfter same
    rcases marked j with eq | ⟨blocked, eq⟩
    · rw [eq, kept]
      exact ⟨rfl, rfl, Iff.rfl, fun _ => Iff.rfl⟩
    · rw [kept] at blocked eq
      rw [eq]
      simp [blocked]

/-- Cleanup changes the resources of one task only. -/
theorem cleanupTask_update (s : System) {id : Nat} {i : Fin maxTasks}
    (found : s.table.findTask id = some i) (teardown : Teardown) :
    ∃ task, (s.cleanupTask id teardown).2.table.task = Function.update s.table.task i task ∧
      task.id = (s.table.task i).id ∧ task.state = (s.table.task i).state ∧
      task.exitCode = (s.table.task i).exitCode ∧ task.resourcesActive = false := by
  unfold cleanupTask
  rw [found]
  dsimp only
  split
  · rename_i idle
    exact ⟨_, (Function.update_eq_self i _).symm, rfl, rfl, rfl, by simpa using idle⟩
  · exact ⟨_, ProcessTable.task_of_slots rfl, rfl, rfl, rfl, rfl⟩

/-- What `run_spawned_task` does to the task in slot `i` when user mode is over. -/
theorem cleanupTask_ended (s : System) {id : Nat} {i : Fin maxTasks}
    (found : s.table.findTask id = some i) (exitCode syscallsAfter : Nat) (teardown : Teardown) :
    Ended s ((s.markExited id exitCode syscallsAfter).2.cleanupTask id teardown).2 i exitCode := by
  obtain ⟨exited, code, marked⟩ := s.markExited_slots found exitCode syscallsAfter
  generalize (s.markExited id exitCode syscallsAfter).2 = s₁ at *
  have found₁ : s₁.table.findTask id = some i :=
    (findTask_of_same (fun j => (marked j).1) (fun j => (marked j).2.2.1) id).trans found
  obtain ⟨task, tasks, sameId, state, sameCode, released⟩ := s₁.cleanupTask_update found₁ teardown
  refine ⟨fun j => ?_, fun j => ?_, ?_, ?_, ?_, fun j other => ?_⟩
  · rw [← (marked j).1, tasks]
    by_cases here : j = i
    · rw [here, Function.update_self, sameId]
    · rw [Function.update_of_ne here]
  · rw [← (marked j).2.2.1, tasks]
    by_cases here : j = i
    · rw [here, Function.update_self, state]
    · rw [Function.update_of_ne here]
  · rw [tasks, Function.update_self, state, exited]
  · rw [tasks, Function.update_self, sameCode, code]
  · rw [tasks, Function.update_self, released]
  · rw [tasks, Function.update_of_ne other]
    exact ⟨(marked j).2.2.2 other, (marked j).2.1⟩

end System

/-! ### Attribution -/

/-- The task `id`, and no other, became an exited task with `exitCode` and lost
its resources. -/
structure Attributed (s s' : System) (id exitCode : Nat) : Prop where
  ended : ∃ i, s'.table.findTask id = some i ∧ (s'.table.task i).state = .exited ∧
    (s'.table.task i).exitCode = exitCode ∧ (s'.table.task i).resourcesActive = false
  spared : ∀ i, (s.table.task i).id ≠ id →
    ((s'.table.task i).state = .exited ↔ (s.table.task i).state = .exited) ∧
      (s'.table.task i).resourcesActive = (s.table.task i).resourcesActive

/-- The exit is recorded for the task in the slot that ended. -/
theorem System.Ended.attributed_iff {s s' : System} {i : Fin maxTasks} {exitCode : Nat}
    (end' : s.Ended s' i exitCode) (found : s.table.findTask (s.table.task i).id = some i)
    (live : (s.table.task i).live = true) (id : Nat) :
    Attributed s s' id exitCode ↔ id = (s.table.task i).id := by
  constructor
  · intro attributed
    by_contra other
    have exited := (attributed.spared i (Ne.symm other)).1.mp end'.exited
    exact (Task.live_iff.mp live).2 exited
  · rintro rfl
    have found' := (findTask_of_same end'.ids end'.empty _).trans found
    refine ⟨⟨i, found', end'.exited, end'.exitCode, end'.released⟩, fun j other => ?_⟩
    refine end'.others j ?_
    rintro rfl
    exact other rfl

namespace System

/-- The task that starts keeps its slot and is alive. -/
theorem markRunning_stays (s : System) {id : Nat} {i : Fin maxTasks}
    (found : s.table.findTask id = some i) (syscallsBefore : Nat) :
    Stays s (s.markRunning id syscallsBefore).2 ∧
      ((s.markRunning id syscallsBefore).2.table.task i).live = true := by
  obtain ⟨task, tasks, sameId, state⟩ : ∃ task,
      (s.markRunning id syscallsBefore).2.table.task = Function.update s.table.task i task ∧
        task.id = (s.table.task i).id ∧ task.state = .running := by
    unfold markRunning
    rw [found]
    exact ⟨_, ProcessTable.task_of_slots rfl, rfl, rfl⟩
  have live : task.live = true := by simp [Task.live, state]
  refine ⟨.of_live tasks (ProcessTable.findTask_eq_some found).1 sameId live, ?_⟩
  rwa [tasks, Function.update_self]

/-- The task that a run was started for is alive when user mode ends. -/
theorem userEnter_live {s running ended : System} {id syscallCount after exitCode : Nat}
    {events : List UserEvent} (started : s.markRunning id syscallCount = (true, running))
    (ends : running.userEnter syscallCount events = some (exitCode, after, ended)) :
    ∃ i, ended.table.findTask id = some i ∧ (ended.table.task i).live = true := by
  cases found : s.table.findTask id with
  | none =>
      unfold markRunning at started
      rw [found] at started
      cases started
  | some i =>
      obtain ⟨stays, live⟩ := s.markRunning_stays found syscallCount
      rw [started] at stays live
      have entered := userEnter_stays ends
      exact ⟨i, (entered.findTask id).trans ((stays.findTask id).trans found), entered.live i live⟩

/-- `run_spawned_task` when user mode ends. -/
theorem runSpawnedTask_of_userEnter {s running ended : System} {user : UserSide} {task : Task}
    {exitCode after : Nat} (ready : user.ready = true)
    (started : s.markRunning task.id user.syscallCount = (true, running))
    (ends : running.userEnter user.syscallCount user.events = some (exitCode, after, ended))
    (fallbackEntry fallbackStack expectedExitCode minimumSyscalls : Nat) :
    ∃ result, s.runSpawnedTask user (some task) fallbackEntry fallbackStack expectedExitCode
        minimumSyscalls =
      some (result, ((ended.markExited task.id exitCode after).2.cleanupTask task.id
        user.teardown).2) ∧
      result.exitCode = exitCode := by
  unfold runSpawnedTask
  dsimp only
  rw [started]
  dsimp only
  unfold runProgramInAddressSpace
  dsimp only
  rw [if_neg (by simp [ready]), ends]
  exact ⟨_, rfl, rfl⟩

end System

/-- In every run of a task, from any state and with any programs: the task that was
on the processor when user mode ended is the one, and the only one, that the kernel
ends with the exit code exactly if it is the task the run was started for. -/
theorem runSpawnedTask_attributed_iff (s : System) (user : UserSide) (task : Task)
    {running ended : System} {exitCode after : Nat} (ready : user.ready = true)
    (started : s.markRunning task.id user.syscallCount = (true, running))
    (ends : running.userEnter user.syscallCount user.events = some (exitCode, after, ended))
    (fallbackEntry fallbackStack expectedExitCode minimumSyscalls : Nat) :
    ∃ result final,
      s.runSpawnedTask user (some task) fallbackEntry fallbackStack expectedExitCode
        minimumSyscalls = some (result, final) ∧
      result.exitCode = exitCode ∧
      (Attributed ended final ended.currentTask exitCode ↔ ended.currentTask = task.id) := by
  obtain ⟨result, returned, code⟩ := System.runSpawnedTask_of_userEnter ready started ends
    fallbackEntry fallbackStack expectedExitCode minimumSyscalls
  obtain ⟨i, found, live⟩ := System.userEnter_live started ends
  have same := (ProcessTable.findTask_eq_some found).2
  refine ⟨result, _, returned, code, ?_⟩
  have end' := ended.cleanupTask_ended found exitCode after user.teardown
  rw [end'.attributed_iff (same.symm ▸ found) live, same]

/-- Two tasks that were just spawned. -/
def twoTasks : System :=
  run .boot [.spawnElfChild 0 (some someImage) (some 64),
    .spawnElfChild 0 (some someImage) (some 128)]

/-- Programs that make these system calls. -/
def userCalls (frames : List SyscallFrame) : UserSide where
  ready := true
  syscallCount := 0
  events := frames.map (.syscall blankMemory)
  teardown := ⟨true, some (4, 4, true)⟩

/-- The program yields and exits with 7. -/
def yieldThenExit : UserSide :=
  userCalls [{ blankFrame with rax := 4 }, { blankFrame with rax := 3, rdi := 7 }]

theorem runSpawnedTask_attributed_iff_yieldThenExit :
    ∃ ended result final,
      twoTasks.runSpawnedTask yieldThenExit (some (twoTasks.table.task 0)) 0 0 7 0 =
        some (result, final) ∧
      ended.currentTask = 1 ∧
      (Attributed ended final ended.currentTask 7 ↔
        ended.currentTask = (twoTasks.table.task 0).id) := by
  have ends : ((twoTasks.markRunning 1 0).2.userEnter 0 yieldThenExit.events).map
      (fun r => (r.1, r.2.1, r.2.2.currentTask)) = some (7, 2, 1) := by decide +kernel
  obtain ⟨⟨exitCode, after, ended⟩, entered, eq⟩ := Option.map_eq_some_iff.mp ends
  simp only [Prod.mk.injEq] at eq
  obtain ⟨rfl, rfl, current⟩ := eq
  have started : twoTasks.markRunning (twoTasks.table.task 0).id 0 =
      (true, (twoTasks.markRunning 1 0).2) := by
    rw [show (twoTasks.table.task 0).id = 1 by decide +kernel]
    exact Prod.ext (by decide +kernel) rfl
  obtain ⟨result, final, returned, -, attributed⟩ := runSpawnedTask_attributed_iff twoTasks
    yieldThenExit (twoTasks.table.task 0) rfl started entered 0 0 7 0
  exact ⟨ended, result, final, returned, current, attributed⟩

/-- The first program waits for a message; the second, which runs then, exits with 7. -/
def receiveThenExit : UserSide :=
  userCalls [{ blankFrame with rax := 6 }, { blankFrame with rax := 3, rdi := 7 }]

/-- The second task exited, but the first is marked exited with its code. -/
theorem receiveThenExit_misattributed :
    ∃ ended result final,
      (twoTasks.markRunning 1 0).2.userEnter 0 receiveThenExit.events = some (7, 2, ended) ∧
      twoTasks.runSpawnedTask receiveThenExit (some (twoTasks.table.task 0)) 0 0 7 0 =
        some (result, final) ∧
      ended.currentTask = 2 ∧
      (final.table.task 0).state = .exited ∧ (final.table.task 0).exitCode = 7 ∧
      (final.table.task 1).state = .running ∧
      ¬ Attributed ended final ended.currentTask 7 := by
  have ends : ((twoTasks.markRunning 1 0).2.userEnter 0 receiveThenExit.events).map
      (fun r => (r.1, r.2.1, r.2.2.currentTask, (r.2.2.table.task 0).id,
        (r.2.2.table.task 0).state)) = some (7, 2, 2, 1, .blocked) := by decide +kernel
  have returns : (twoTasks.runSpawnedTask receiveThenExit (some (twoTasks.table.task 0)) 0 0 7
      0).map (fun r => ((r.2.table.task 0).state, (r.2.table.task 0).exitCode,
        (r.2.table.task 1).state)) = some (.exited, 7, .running) := by decide +kernel
  obtain ⟨⟨exitCode, after, ended⟩, entered, eq⟩ := Option.map_eq_some_iff.mp ends
  obtain ⟨⟨result, final⟩, returned, eq'⟩ := Option.map_eq_some_iff.mp returns
  simp only [Prod.mk.injEq] at eq eq'
  obtain ⟨rfl, rfl, current, id, blocked⟩ := eq
  obtain ⟨exited, code, running⟩ := eq'
  refine ⟨ended, result, final, entered, returned, current, exited, code, running, ?_⟩
  intro attributed
  have wasExited := (attributed.spared 0 (by rw [id, current]; decide)).1.mp exited
  rw [blocked] at wasExited
  cases wasExited

end CloudOS.Process
