import CloudOS.Process.Run

/-!
What system calls and timer interrupts preserve, from what their parts preserve.

The parts are the functions of `process.rs` and `ipc.rs` that a handler calls one
after the other. An invariant needs one lemma for each part; the order of the
parts and the early returns between them are dealt with here.
-/

namespace CloudOS.Process

open Lib.Word (satAdd)
open CloudOS.Ipc (CapabilityRights)

namespace System

/-! ### The parts that leave the scheduler alone -/

theorem takeIpcWakeReason_scheduler (s : System) (taskId : Nat) :
    (s.takeIpcWakeReason taskId).2.scheduler = s.scheduler := by
  unfold takeIpcWakeReason
  split
  · rfl
  · dsimp only
    split
    · rfl
    · rfl

theorem receive_scheduler (s : System) (receiver : Nat) (output : List UInt8) :
    (s.receive receiver output false).2.1.scheduler = s.scheduler := by
  unfold receive
  split
  · rfl
  · dsimp only
    rw [if_neg (by simp)]

/-! ### The parts that leave the message layer alone -/

theorem takeIpcWakeReason_ipc (s : System) (taskId : Nat) :
    (s.takeIpcWakeReason taskId).2.ipc = s.ipc := by
  unfold takeIpcWakeReason
  split
  · rfl
  · dsimp only
    split
    · rfl
    · rfl

theorem completeIpcRestart_ipc (s : System) (taskId : Nat) :
    (s.completeIpcRestart taskId).2.ipc = s.ipc := by
  unfold completeIpcRestart
  split
  · rfl
  · dsimp only
    split
    · rfl
    · rfl

theorem blockForIpcSyscall_ipc (s : System) (taskId : Nat) (frame : SyscallFrame)
    (deadlineTick : Nat) : (s.blockForIpcSyscall taskId frame deadlineTick).2.2.ipc = s.ipc := by
  unfold blockForIpcSyscall
  split
  · rfl
  dsimp only
  split
  · rfl
  generalize Scheduler.blockCurrentAndDispatch _ taskId = result
  obtain ⟨decision, scheduler⟩ := result
  dsimp only
  split
  · rfl
  split
  · rfl
  split
  · rfl
  · rfl

theorem endIpcWait_ipc (s : System) (taskId : Nat) (reason : IpcWakeReason) :
    (s.endIpcWait taskId reason).2.ipc = s.ipc := by
  unfold endIpcWait
  split
  · rfl
  split
  · rfl
  split
  · rfl
  · rfl

theorem wakeFromIpc_ipc (s : System) (id : Nat) : (s.wakeFromIpc id).2.ipc = s.ipc :=
  s.endIpcWait_ipc id .message

theorem cancelIpcWait_ipc (s : System) (id : Nat) : (s.cancelIpcWait id).2.ipc = s.ipc := by
  have ended := s.endIpcWait_ipc id .cancelled
  unfold cancelIpcWait
  generalize s.endIpcWait id .cancelled = result at ended
  obtain ⟨succeeded, s'⟩ := result
  cases succeeded with
  | false => exact ended
  | true => exact ended

theorem blockForIpc_ipc (s : System) (id : Nat) : (s.blockForIpc id).2.ipc = s.ipc := by
  unfold blockForIpc
  split
  · rfl
  dsimp only
  split
  · rfl
  split
  · rfl
  · rfl

theorem waitChild_ipc (s : System) (parentId childId : Nat) :
    (s.waitChild parentId childId).2.ipc = s.ipc := by
  unfold waitChild
  split
  · rfl
  dsimp only
  split
  · rfl
  split
  · rfl
  split
  · rfl
  split
  · rfl
  split
  · rfl
  · rfl

theorem onTimerInterrupt_ipc (s : System) (context : TimerContext) :
    (s.onTimerInterrupt context).2.2.ipc = s.ipc := by
  unfold onTimerInterrupt
  split
  · rfl
  split
  · rfl
  generalize s.scheduler.preemptCurrent = result
  obtain ⟨decision, scheduler⟩ := result
  dsimp only
  split
  · rfl
  split
  · rfl
  split
  · rfl
  split
  · rfl
  · rfl

theorem markRunning_ipc (s : System) (id syscallsBefore : Nat) :
    (s.markRunning id syscallsBefore).2.ipc = s.ipc := by
  unfold markRunning
  split
  · rfl
  · rfl

theorem markExited_ipc (s : System) (id exitCode syscallsAfter : Nat) :
    (s.markExited id exitCode syscallsAfter).2.ipc = s.ipc := by
  unfold markExited wakeWaitingParent
  split
  · rfl
  dsimp only
  split
  · split
    · rfl
    split
    · rfl
    split
    · rfl
    · rfl
  · rfl

end System

/-! ### System calls -/

/-- `P` survives the parts of the system calls. -/
structure SurvivesCalls (P : System → Prop) : Prop where
  takeIpcWakeReason : ∀ {s : System}, P s → ∀ taskId, P (s.takeIpcWakeReason taskId).2
  receive : ∀ {s : System}, P s → ∀ receiver output, P (s.receive receiver output false).2.1
  completeIpcRestart : ∀ {s : System}, P s → ∀ taskId, P (s.completeIpcRestart taskId).2
  blockSyscall : ∀ {s : System}, P s → s.scheduler.currentTask ≠ 0 → ∀ frame deadlineTick,
    P (s.blockSyscall s.scheduler.currentTask frame deadlineTick).2.2
  sendCapability : ∀ {s : System}, P s → ∀ sender handle bytes,
    P (s.sendCapability sender handle bytes).2
  sendWithCapability : ∀ {s : System}, P s → ∀ sender destination transfer rights bytes,
    P (s.sendWithCapability sender destination transfer rights bytes).2
  cancelWait : ∀ {s : System}, P s → ∀ requester handle, P (s.cancelWait requester handle).2
  revoke : ∀ {s : System}, P s → ∀ owner handle, P { s with ipc := (s.ipc.revoke owner handle).2 }

namespace SurvivesCalls

variable {P : System → Prop} (survives : SurvivesCalls P) {s : System}
include survives

theorem receiveAttempt (holds : P s) (memory : UserMemory) (buffer : Nat) (frame : SyscallFrame)
    (timeoutTicks : Option Nat) : P (s.receiveAttempt memory buffer frame timeoutTicks).2.2 := by
  unfold System.receiveAttempt
  dsimp only
  split
  · exact holds
  rename_i running
  split
  · exact holds
  have scheduled₁ := s.takeIpcWakeReason_scheduler s.currentTask
  have taken := survives.takeIpcWakeReason holds s.currentTask
  generalize s.takeIpcWakeReason s.currentTask = result at taken scheduled₁
  obtain ⟨reason, s₁⟩ := result
  split
  · rename_i eq
    cases eq
    exact taken
  · rename_i eq
    cases eq
    exact taken
  rename_i eq
  cases eq
  have scheduled₂ := s₁.receive_scheduler s.currentTask
    (List.replicate (min frame.rsi Ipc.maxMessageBytes) 0)
  have received := survives.receive taken s.currentTask
    (List.replicate (min frame.rsi Ipc.maxMessageBytes) 0)
  generalize s₁.receive s.currentTask _ false = result at received scheduled₂
  obtain ⟨outcome, s₂, message⟩ := result
  split
  · rename_i eq
    cases eq
    split
    · exact received
    · exact survives.completeIpcRestart received s.currentTask
  · rename_i eq
    cases eq
    exact received
  · rename_i eq
    cases eq
    split
    · exact received
    -- the task that made the call is still the current one
    have same : s₂.scheduler.currentTask = s.currentTask :=
      congrArg Scheduler.currentTask (scheduled₂.trans scheduled₁)
    have slept := survives.blockSyscall received (same ▸ running) frame
    rw [same] at slept
    split
    · rename_i eq
      exact congrArg (fun r => r.2.2) eq ▸ slept _
    · rename_i eq
      exact congrArg (fun r => r.2.2) eq ▸ slept _
    · rename_i eq
      exact congrArg (fun r => r.2.2) eq ▸ slept _
  · rename_i eq
    cases eq
    exact received

theorem handle (holds : P s) (memory : UserMemory) (call : Syscall) (arg0 : Nat)
    (frame : SyscallFrame) : P (s.handle memory call arg0 frame).2.2 := by
  cases call with
  | send =>
      change P (s.syscallIpcSend memory arg0 frame).2.2
      unfold System.syscallIpcSend
      dsimp only
      split
      · exact holds
      split
      · exact holds
      rename_i message _
      have sent := survives.sendCapability holds s.currentTask arg0 message
      generalize s.sendCapability s.currentTask arg0 message = result at sent
      obtain ⟨outcome, s'⟩ := result
      cases outcome with
      | ok sequence => exact sent
      | error error => exact sent
  | receive => exact survives.receiveAttempt holds memory arg0 frame none
  | receiveTimeout => exact survives.receiveAttempt holds memory arg0 frame (some frame.rdx)
  | cancel =>
      change P (s.syscallIpcCancel arg0 frame).2.2
      unfold System.syscallIpcCancel
      dsimp only
      split
      · exact holds
      · exact survives.cancelWait holds s.currentTask arg0
  | sendCapability =>
      change P (s.syscallIpcSendCapability memory arg0 frame).2.2
      unfold System.syscallIpcSendCapability
      dsimp only
      split
      · exact holds
      split
      · exact holds
      split
      · exact holds
      split
      · exact holds
      · exact survives.sendWithCapability holds s.currentTask arg0 _ _ _
  | revoke =>
      change P (s.syscallIpcRevoke arg0 frame).2.2
      unfold System.syscallIpcRevoke
      dsimp only
      split
      · exact holds
      · exact survives.revoke holds s.currentTask arg0

theorem dispatch (holds : P s) (memory : UserMemory) (call : Syscall) (arg0 : Nat)
    (frame : SyscallFrame) : P (s.dispatch memory call arg0 frame).2.2 := by
  unfold System.dispatch
  dsimp only
  split
  · exact survives.handle holds memory call arg0 frame
  · exact survives.handle holds memory call arg0 frame

end SurvivesCalls

/-! ### The timer -/

/-- `P` survives the parts of the timer interrupt. -/
structure SurvivesTimer (P : System → Prop) : Prop where
  onTimerTick : ∀ {s : System}, P s → ∀ ticks,
    P { s with ticks, scheduler := s.scheduler.onTimerTick }
  expireSlot : ∀ {s : System}, P s → ∀ now i, P (System.expireSlot now s i)
  onTimerInterrupt : ∀ {s : System}, P s → ∀ context, P (s.onTimerInterrupt context).2.2

namespace SurvivesTimer

variable {P : System → Prop} (survives : SurvivesTimer P) {s : System}
include survives

theorem expireIpcDeadlines (holds : P s) (now : Nat) : P (s.expireIpcDeadlines now) := by
  unfold System.expireIpcDeadlines
  generalize List.finRange maxTasks = indices
  induction indices generalizing s with
  | nil => exact holds
  | cons i indices ih => exact ih (survives.expireSlot holds now i)

theorem timerInterruptHandler (holds : P s) (context : Option TimerContext) :
    P (s.timerInterruptHandler context).2.2 := by
  unfold System.timerInterruptHandler
  dsimp only
  have expired := survives.expireIpcDeadlines
    (survives.onTimerTick holds ((s.ticks + 1) % 2 ^ 64)) (satAdd s.ticks 1)
  generalize System.expireIpcDeadlines _ _ = s' at expired
  cases context with
  | none => exact expired
  | some context =>
      dsimp only
      split
      · exact expired
      · exact survives.onTimerInterrupt expired context

end SurvivesTimer

end CloudOS.Process
