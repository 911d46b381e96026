import CloudOS.Process.Agreement
import CloudOS.Process.Preservation

/-!
The agreement of process table and scheduler along a run: task switches, the
functions of the message layer, the system calls and the timer.
-/

namespace CloudOS.Process

open Lib.Word (maxWord)

namespace System

variable {s : System} {issued : Nat}

/-! ### Task switches -/

theorem blockForIpcSyscall_agrees (agrees : s.Agrees issued) (taskId : Nat) (frame : SyscallFrame)
    (deadlineTick : Nat) :
    (s.blockForIpcSyscall taskId frame deadlineTick).2.2.Agrees issued := by
  have result := blockForIpcSyscall_result (Agree.sound agrees) taskId frame deadlineTick
  generalize (s.blockForIpcSyscall taskId frame deadlineTick).1 = root at result
  generalize (s.blockForIpcSyscall taskId frame deadlineTick).2.2 = s' at result
  cases result with
  | refused => exact agrees
  | @saved i context found =>
      exact Agrees.of_agree agrees rfl rfl (task_saveContext s i context)
  | @stuck i context next scheduler found isCurrent nonzero mem places sound unfit =>
      refine Agrees.of_agree ?_ rfl rfl (task_saveContext s i context)
      exact Agree.dispatch agrees (isCurrent ▸ nonzero) mem places sound
  | switched waited found target other isCurrent nonzero mem places sound beside tasks valid =>
      obtain ⟨occupied, rfl⟩ := ProcessTable.findTask_eq_some found
      obtain ⟨occupiedNext, -⟩ := ProcessTable.findTask_eq_some target
      refine Agrees.of_agree ?_ rfl beside.next tasks
      have dispatched := Agree.dispatch agrees (isCurrent ▸ nonzero) mem places sound
      refine dispatched.takeOver (Task.asleep _ _) occupied rfl rfl rfl (fun _ => ?_) occupiedNext
        other _ _
      rw [show s'.scheduler.blockedTasks = s.scheduler.blockedTasks ++ [s.scheduler.currentTask]
        from Scheduler.blockedTasks_of_places places, isCurrent]
      exact List.mem_append_right _ List.mem_cons_self

theorem onTimerInterrupt_agrees (agrees : s.Agrees issued) (context : TimerContext) :
    (s.onTimerInterrupt context).2.2.Agrees issued := by
  have result := onTimerInterrupt_result (Agree.sound agrees) context
  generalize (s.onTimerInterrupt context).2.2 = s' at result
  cases result with
  | idle beside scheduled tasks valid => exact Agrees.of_agree agrees scheduled beside.next tasks
  | stuck running mem places sound beside tasks unfit =>
      have rotated := Agree.rotate agrees running mem places sound
      rcases tasks with tasks | ⟨i, found, tasks⟩
      · exact Agrees.of_agree rotated rfl beside.next tasks
      · refine Agrees.of_agree ?_ rfl beside.next tasks
        obtain ⟨occupied, -⟩ := ProcessTable.findTask_eq_some found
        exact rotated.retask occupied rfl rfl (fun _ => rfl) (fun blocked => by cases blocked)
  | switched waited found target other running mem places sound beside tasks valid =>
      obtain ⟨occupied, -⟩ := ProcessTable.findTask_eq_some found
      obtain ⟨occupiedNext, -⟩ := ProcessTable.findTask_eq_some target
      refine Agrees.of_agree ?_ rfl beside.next tasks
      have rotated := Agree.rotate agrees running mem places sound
      exact rotated.takeOver (Task.preempted _) occupied rfl rfl rfl (fun blocked => by cases blocked)
        occupiedNext other _ _

theorem onTimerTick_agrees (agrees : s.Agrees issued) (ticks : Nat) :
    ({ s with ticks, scheduler := s.scheduler.onTimerTick } : System).Agrees issued := by
  have places := s.scheduler.onTimerTick_placement
  refine Agree.reschedule agrees (Scheduler.Sound.onTimerTick (Agree.sound agrees))
    (fun x has => places ▸ has) (fun x mem => ?_)
  rwa [show s.scheduler.onTimerTick.blockedTasks = s.scheduler.blockedTasks from
    Scheduler.blockedTasks_of_places places]

/-! ### The message layer -/

theorem finishSendLocked_agrees (agrees : s.Agrees issued) (sequence : Nat) (wakeReceiver : Bool)
    (receiver : Nat) : (s.finishSendLocked sequence wakeReceiver receiver).2.Agrees issued := by
  have woken := endIpcWait_agrees agrees receiver .message
  unfold finishSendLocked wakeFromIpc
  split
  · generalize s.endIpcWait receiver .message = result at woken
    obtain ⟨succeeded, s'⟩ := result
    cases succeeded with
    | false => exact woken
    | true => exact woken
  · exact agrees

theorem send_agrees (agrees : s.Agrees issued) (sender receiver : Nat) (bytes : List UInt8) :
    (s.send sender receiver bytes).2.Agrees issued := by
  unfold send
  split
  · exact agrees
  · rename_i ipc _
    exact finishSendLocked_agrees (s := { s with ipc }) agrees _ _ _

theorem sendCapability_agrees (agrees : s.Agrees issued) (sender handle : Nat)
    (bytes : List UInt8) : (s.sendCapability sender handle bytes).2.Agrees issued := by
  unfold sendCapability
  split
  · exact agrees
  · rename_i ipc _
    exact finishSendLocked_agrees (s := { s with ipc }) agrees _ _ _

theorem sendWithCapability_agrees (agrees : s.Agrees issued) (sender destination transfer : Nat)
    (rights : Ipc.CapabilityRights) (bytes : List UInt8) :
    (s.sendWithCapability sender destination transfer rights bytes).2.Agrees issued := by
  unfold sendWithCapability
  split
  · exact agrees
  · rename_i ipc _
    exact finishSendLocked_agrees (s := { s with ipc }) agrees _ _ _

theorem receive_agrees (agrees : s.Agrees issued) (receiver : Nat) (output : List UInt8)
    (blockWhenEmpty : Bool) : (s.receive receiver output blockWhenEmpty).2.1.Agrees issued := by
  unfold receive
  split
  · exact agrees
  dsimp only
  split
  · split
    · exact agrees
    · rename_i ipc _
      have slept := blockForIpc_agrees (s := { s with ipc }) agrees receiver
      generalize blockForIpc { s with ipc } receiver = result at slept
      obtain ⟨succeeded, s'⟩ := result
      cases succeeded with
      | false => exact slept
      | true => exact slept
  · exact agrees

theorem blockSyscall_agrees (agrees : s.Agrees issued) (receiver : Nat) (frame : SyscallFrame)
    (deadlineTick : Nat) : (s.blockSyscall receiver frame deadlineTick).2.2.Agrees issued := by
  unfold blockSyscall
  split
  · exact agrees
  dsimp only
  split
  · exact agrees
  · exact agrees
  split
  · exact agrees
  · rename_i ipc _
    have slept := blockForIpcSyscall_agrees (s := { s with ipc }) agrees receiver frame deadlineTick
    generalize blockForIpcSyscall { s with ipc } receiver frame deadlineTick = result at slept
    obtain ⟨root, frame', s'⟩ := result
    cases root with
    | none => exact slept
    | some root => exact slept

theorem cancelWait_agrees (agrees : s.Agrees issued) (requester handle : Nat) :
    (s.cancelWait requester handle).2.Agrees issued := by
  unfold cancelWait
  dsimp only
  split
  · exact agrees
  · rename_i target ipc _
    have cancelled := cancelIpcWait_agrees (s := { s with ipc }) agrees target
    generalize cancelIpcWait { s with ipc } target = result at cancelled
    obtain ⟨succeeded, s'⟩ := result
    cases succeeded with
    | false => exact cancelled
    | true =>
        dsimp only
        split
        · exact cancelled
        · exact cancelled

/-! ### System calls and timer interrupts -/

theorem agrees_survivesCalls (issued : Nat) : SurvivesCalls fun s => s.Agrees issued where
  takeIpcWakeReason := takeIpcWakeReason_agrees
  receive := fun agrees receiver output => receive_agrees agrees receiver output false
  completeIpcRestart := completeIpcRestart_agrees
  blockSyscall := fun agrees _ => blockSyscall_agrees agrees _
  sendCapability := sendCapability_agrees
  sendWithCapability := sendWithCapability_agrees
  cancelWait := cancelWait_agrees
  revoke := fun agrees _ _ => agrees

theorem agrees_survivesTimer (issued : Nat) : SurvivesTimer fun s => s.Agrees issued where
  onTimerTick := onTimerTick_agrees
  expireSlot := expireSlot_agrees
  onTimerInterrupt := onTimerInterrupt_agrees

end System

/-! ### Runs -/

theorem boot_agrees : System.boot.Agrees 0 where
  sound := Scheduler.init_sound 0
  next := by decide
  ids := fun _ occupied => absurd rfl occupied
  parents := fun _ occupied => absurd rfl occupied
  distinct := fun _ _ occupied => absurd rfl occupied
  placed := by
    rintro id (queued | blocked | ⟨isCurrent, nonzero⟩)
    · cases queued
    · cases blocked
    · exact absurd isCurrent nonzero
  blocked := fun _ blocked => by cases blocked

/-- Number of task ids a run may issue. -/
def spawnCount (ops : List Op) : Nat := ops.countP Op.spawns

/-- What one operation preserves. -/
theorem step_agrees {s : System} {issued : Nat} (agrees : s.Agrees issued) (op : Op)
    (few : op.spawns = true → issued < maxWord) :
    ∃ issued' ≤ issued + if op.spawns then 1 else 0,
      issued ≤ issued' ∧ (step s op).Agrees issued' := by
  cases op with
  | spawnElfChild parentId image heap =>
      exact System.spawnElfChild_agrees agrees (few rfl) parentId image heap
  | spawnPreemptTask image executable heap =>
      exact System.spawnPreemptTask_agrees agrees (few rfl) image executable heap
  | spawnLegacy entryPoint stackTop heap =>
      exact System.spawnImage_agrees agrees (few rfl) (Nat.zero_le _) _ heap
  | grant owner target rights => exact ⟨issued, le_rfl, le_rfl, agrees⟩
  | markRunning id syscallsBefore =>
      exact ⟨issued, le_rfl, le_rfl, System.markRunning_agrees agrees id syscallsBefore⟩
  | markExited id exitCode syscallsAfter =>
      exact ⟨issued, le_rfl, le_rfl, System.markExited_agrees agrees id exitCode syscallsAfter⟩
  | cleanupTask id teardown =>
      exact ⟨issued, le_rfl, le_rfl, System.cleanupTask_agrees agrees id teardown⟩
  | waitChild parentId childId =>
      exact ⟨issued, le_rfl, le_rfl, System.waitChild_agrees agrees parentId childId⟩
  | send sender receiver bytes =>
      exact ⟨issued, le_rfl, le_rfl, System.send_agrees agrees sender receiver bytes⟩
  | receive receiver output blockWhenEmpty =>
      exact ⟨issued, le_rfl, le_rfl, System.receive_agrees agrees receiver output blockWhenEmpty⟩
  | syscall memory call arg0 frame =>
      exact ⟨issued, le_rfl, le_rfl, (System.agrees_survivesCalls issued).dispatch agrees memory
        call arg0 frame⟩
  | startPreemptionTest => exact ⟨issued, le_rfl, le_rfl, agrees⟩
  | stopPreemptionTest passed => exact ⟨issued, le_rfl, le_rfl, agrees⟩
  | timer context =>
      exact ⟨issued, le_rfl, le_rfl,
        (System.agrees_survivesTimer issued).timerInterruptHandler agrees context⟩

/-- What a whole run preserves. -/
theorem run_agrees {s : System} {issued : Nat} (agrees : s.Agrees issued) (ops : List Op)
    (few : issued + spawnCount ops ≤ maxWord) :
    ∃ issued' ≤ issued + spawnCount ops, (run s ops).Agrees issued' := by
  induction ops generalizing s issued with
  | nil => exact ⟨issued, le_rfl, agrees⟩
  | cons op ops ih =>
      have count : spawnCount (op :: ops) = spawnCount ops + if op.spawns then 1 else 0 :=
        List.countP_cons
      rw [count] at few ⊢
      obtain ⟨issued₁, bound₁, -, agrees₁⟩ := step_agrees agrees op fun spawns => by
        rw [if_pos spawns] at few
        omega
      obtain ⟨issued₂, bound₂, agrees₂⟩ := ih agrees₁ (by omega)
      exact ⟨issued₂, by omega, agrees₂⟩

end CloudOS.Process
