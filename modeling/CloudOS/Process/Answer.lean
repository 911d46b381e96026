import CloudOS.Process.Handover
import CloudOS.Process.Receiving
import CloudOS.Process.Waiting

/-!
The two ends of a blocked receive: the system call that blocks, and the same call
made again once the wait is over.

The first leaves the wait on record in the task's slot. The second finds the wake
reason there, or the message in the queue, and returns accordingly.
-/

namespace CloudOS.Process

open Lib.Word (satAdd maxWord)
open CloudOS.Ipc (IpcState IpcError Message maxEndpoints maxMessageBytes)

/-- The timeout that a receive asks for. -/
def Syscall.timeoutTicks (frame : SyscallFrame) : Syscall → Option Nat
  | .receiveTimeout => some frame.rdx
  | _ => none

namespace System

variable {s : System} {issued : Nat}

/-! ### The call that blocks -/

/-- The wait in the slot of the current task once it has blocked. -/
def Asleep (s s' : System) (deadlineTick : Nat) : Prop :=
  ∃ i, (s'.table.task i).live = true ∧ (s'.table.task i).id = s.currentTask ∧
    (s'.table.task i).wait = ⟨true, true, deadlineTick, .none⟩

/-- A receive that switches away leaves its task asleep until the deadline. -/
theorem blockSyscall_blocks (agrees : s.Agrees issued) {frame frame' : SyscallFrame}
    {deadlineTick root : Nat} {s' : System}
    (blocks : s.blockSyscall s.currentTask frame deadlineTick = (.ok (.switched root), frame', s')) :
    s.Asleep s' deadlineTick := by
  unfold blockSyscall at blocks
  split at blocks
  · cases blocks
  dsimp only at blocks
  split at blocks
  · cases blocks
  · cases blocks
  split at blocks
  · cases blocks
  rename_i ipc _
  have result := blockForIpcSyscall_result (s := { s with ipc }) (Agree.sound agrees)
    s.currentTask frame deadlineTick
  generalize blockForIpcSyscall { s with ipc } s.currentTask frame deadlineTick = blocking
    at result blocks
  obtain ⟨outcome, frame'', t⟩ := blocking
  cases result with
  | refused => cases blocks
  | saved => cases blocks
  | stuck => cases blocks
  | @switched waited i j next _ _ found target other isCurrent nonzero mem places sound beside
      tasks valid =>
      cases blocks
      have task : t.table.task i = (s.table.task i).asleep deadlineTick := by
        rw [tasks, Function.update_of_ne other.symm, Function.update_self]
      have id : (s.table.task i).id = s.currentTask := (ProcessTable.findTask_eq_some found).2
      refine ⟨i, ?_, ?_, ?_⟩
      · exact (congrArg Task.live task).trans rfl
      · exact (congrArg Task.id task).trans id
      · exact (congrArg Task.wait task).trans rfl

theorem takeIpcWakeReason_ticks (s : System) (taskId : Nat) :
    (s.takeIpcWakeReason taskId).2.ticks = s.ticks := by
  unfold takeIpcWakeReason
  split
  · rfl
  · dsimp only
    split
    · rfl
    · rfl

/-- A receive that switches to another task has checked its buffer and blocked. -/
theorem receiveCommon_blocks (agrees : s.Agrees issued) {memory : UserMemory} {buffer : Nat}
    {frame : SyscallFrame} {timeoutTicks : Option Nat}
    (switches : (s.receiveCommon memory buffer frame timeoutTicks).1.switchRoot ≠ 0) :
    memory.validateUserBuffer buffer frame.capacity true = true ∧
      s.Asleep (s.receiveCommon memory buffer frame timeoutTicks).2.2
        (deadlineTick s.ticks timeoutTicks) := by
  have exit := s.receiveCommon_exit memory buffer frame timeoutTicks
  generalize s.receiveCommon memory buffer frame timeoutTicks = result at exit switches ⊢
  obtain ⟨outcome, frame', s'⟩ := result
  dsimp only at exit switches ⊢
  cases exit with
  | switched admitted _ _ _ blocks =>
      refine ⟨admitted.valid, ?_⟩
      rw [← s.taken_currentTask] at blocks
      obtain ⟨i, live, id, wait⟩ :=
        blockSyscall_blocks (takeIpcWakeReason_agrees agrees s.currentTask) blocks
      have ticks : s.taken.ticks = s.ticks := s.takeIpcWakeReason_ticks s.currentTask
      exact ⟨i, live, id.trans s.taken_currentTask, ticks ▸ wait⟩
  | _ => exact absurd rfl switches

/-- A system call that switches to another task is a receive that has checked its
buffer and blocked. -/
theorem dispatch_blocks (agrees : s.Agrees issued) {memory : UserMemory} {call : Syscall}
    {arg0 : Nat} {frame : SyscallFrame}
    (blocks : (s.dispatch memory call arg0 frame).1 ≠ 0) :
    call.receives = true ∧ memory.validateUserBuffer arg0 frame.capacity true = true ∧
      s.Asleep (s.dispatch memory call arg0 frame).2.2
        (deadlineTick s.ticks (call.timeoutTicks frame)) := by
  unfold dispatch at blocks ⊢
  dsimp only at blocks ⊢
  by_cases switches : (s.handle memory call arg0 frame).1.switchRoot = 0
  · rw [if_neg (not_not.mpr switches)] at blocks
    exact absurd rfl blocks
  rw [if_pos switches]
  have receive : ∀ timeoutTicks,
      (s.receiveCommon memory arg0 frame timeoutTicks).1.switchRoot ≠ 0 →
      memory.validateUserBuffer arg0 frame.capacity true = true ∧
        s.Asleep (s.receiveCommon memory arg0 frame timeoutTicks).2.2
          (deadlineTick s.ticks timeoutTicks) := by
    exact fun timeoutTicks switches => receiveCommon_blocks agrees switches
  cases call with
  | receive => exact ⟨rfl, receive none switches⟩
  | receiveTimeout => exact ⟨rfl, receive (some frame.rdx) switches⟩
  | send => exact absurd (syscallIpcSend_quiet agrees memory arg0 frame).1 switches
  | cancel => exact absurd (syscallIpcCancel_quiet agrees arg0 frame).1 switches
  | sendCapability =>
      exact absurd (syscallIpcSendCapability_quiet agrees memory arg0 frame).1 switches
  | revoke => exact absurd (s.syscallIpcRevoke_quiet arg0 frame).1 switches

end System

/-! ### The call made again -/

/-- No length of a message is taken for an error. -/
theorem lt_ipcErrorReturn (error : IpcError) : maxMessageBytes < ipcErrorReturn error := by
  cases error
  all_goals decide

/-- The registers after a receive of the message. -/
structure Delivered (message : Message) (frame : SyscallFrame) : Prop where
  rax : frame.rax = message.length
  rdx : frame.rdx = message.sender
  rcx : frame.rcx = message.sequence
  r8 : frame.r8 = message.capabilityHandle
  r9 : frame.r9 = message.capabilityRights.toNat

/-- What the receive of a task returns, with `s'` after it, when its wait ended for
the cause. -/
structure Answers (cause : WakeCause) (s s' : System) (taskId capacity : Nat)
    (frame : SyscallFrame) : Prop where
  timeout : frame.rax = ipcErrorReturn .timeout ↔ cause = .expiry
  cancelled : frame.rax = ipcErrorReturn .cancelled ↔ cause = .cancel
  oldest : cause = .send → ∃ message rest, s.ipc.mail taskId = message :: rest ∧
    (message.length ≤ capacity → Delivered message frame ∧ s'.ipc.mail taskId = rest) ∧
    (capacity < message.length → frame.rax = ipcErrorReturn .bufferTooSmall ∧
      s'.ipc.mail taskId = message :: rest)
  kept : cause ≠ .send → s'.ipc = s.ipc

/-- The buffer is valid, and the payload of the oldest message can be copied to it
if it fits. -/
structure UserMemory.Takes (memory : UserMemory) (address capacity : Nat) (mail : List Message) :
    Prop where
  valid : memory.validateUserBuffer address capacity true = true
  copies : ∀ message ∈ mail.head?, message.length ≤ capacity →
    memory.copyToUser address message.payload = true

namespace System

variable {s : System} {issued : Nat}

theorem takeIpcWakeReason_reason {taskId : Nat} {i : Fin maxTasks}
    (found : s.table.findTask taskId = some i) :
    (s.takeIpcWakeReason taskId).1 = (s.table.task i).ipcWakeReason := by
  unfold takeIpcWakeReason
  rw [found]
  dsimp only
  split
  · rfl
  · rfl

/-- `receiveAttempt` by what became of the wait. -/
theorem receiveAttempt_answers (intact : s.ipc.Intact) {i : Fin maxTasks} {cause : WakeCause}
    (found : s.table.findTask s.currentTask = some i) (running : s.currentTask ≠ 0)
    (reason : (s.table.task i).ipcWakeReason = cause.reason)
    (holds : s.ipc.Holds s.currentTask)
    (mail : cause = .send → s.ipc.mail s.currentTask ≠ [])
    {memory : UserMemory} {buffer : Nat} {frame : SyscallFrame}
    (takes : memory.Takes buffer frame.capacity (s.ipc.mail s.currentTask))
    (timeoutTicks : Option Nat) :
    ∃ value frame' s', s.receiveAttempt memory buffer frame timeoutTicks =
        (some (.complete value), frame', s') ∧
      Answers cause s s' s.currentTask frame.capacity { frame' with rax := value } := by
  have taken := takeIpcWakeReason_reason found
  rw [reason] at taken
  have ipc₁ := s.takeIpcWakeReason_ipc s.currentTask
  unfold receiveAttempt
  dsimp only
  rw [if_neg running]
  have valid : memory.validateUserBuffer buffer (min frame.rsi maxMessageBytes) true = true :=
    takes.valid
  rw [if_neg (by simp [valid])]
  generalize s.takeIpcWakeReason s.currentTask = result at taken ipc₁
  obtain ⟨reason, s₁⟩ := result
  dsimp only at taken ipc₁
  subst taken
  have same : s₁.ipc.mail s.currentTask = s.ipc.mail s.currentTask := by rw [ipc₁]
  cases cause with
  | expiry =>
      have distinct : ipcErrorReturn .timeout ≠ ipcErrorReturn .cancelled := by decide
      exact ⟨_, _, _, rfl, iff_of_true rfl rfl, iff_of_false distinct nofun, nofun, fun _ => ipc₁⟩
  | cancel =>
      have distinct : ipcErrorReturn .cancelled ≠ ipcErrorReturn .timeout := by decide
      exact ⟨_, _, _, rfl, iff_of_false distinct nofun, iff_of_true rfl rfl, nofun, fun _ => ipc₁⟩
  | send =>
      obtain ⟨message, rest, queued⟩ := List.exists_cons_of_ne_nil (mail rfl)
      have short : message.length ≤ maxMessageBytes := by
        obtain ⟨e, mailbox, serves⟩ := holds
        rw [IpcState.mail_of_find mailbox] at queued
        exact serves.short message (queued ▸ List.mem_cons_self)
      have copied := takes.copies message (by rw [queued]; rfl)
      have length : (List.replicate (min frame.rsi maxMessageBytes) (0 : UInt8)).length =
          frame.capacity := List.length_replicate
      have received := intact.receive running queued
        (List.replicate (min frame.rsi maxMessageBytes) 0)
      rw [length] at received
      dsimp only [WakeCause.reason]
      unfold receive
      rw [ipc₁]
      rcases received with ⟨small, eq⟩ | ⟨fits, ipc₂, left, eq⟩
      · rw [eq]
        dsimp only
        rw [if_neg (by simp)]
        have notTimeout : ipcErrorReturn .bufferTooSmall ≠ ipcErrorReturn .timeout := by decide
        have notCancelled : ipcErrorReturn .bufferTooSmall ≠ ipcErrorReturn .cancelled := by decide
        refine ⟨_, _, _, rfl, iff_of_false notTimeout nofun, iff_of_false notCancelled nofun,
          fun _ => ?_, fun other => absurd rfl other⟩
        exact ⟨message, rest, queued, fun fits => absurd fits (Nat.not_le.mpr small),
          fun _ => ⟨rfl, queued⟩⟩
      · rw [eq]
        dsimp only
        have payload := IpcState.take_copyPayload short
          (List.replicate (min frame.rsi maxMessageBytes) 0)
        rw [show message.delivery.length = message.length from rfl, payload,
          if_neg (by simp [copied fits])]
        have distinct : ∀ error, message.length ≠ ipcErrorReturn error :=
          fun error => Nat.ne_of_lt (lt_of_le_of_lt short (lt_ipcErrorReturn error))
        refine ⟨_, _, _, rfl, iff_of_false (distinct _) nofun, iff_of_false (distinct _) nofun,
          fun _ => ?_, fun other => absurd rfl other⟩
        refine ⟨message, rest, queued, fun _ => ⟨⟨rfl, rfl, rfl, rfl, rfl⟩, ?_⟩,
          fun small => absurd fits (Nat.not_le.mpr small)⟩
        rw [completeIpcRestart_ipc]
        exact left

theorem dispatch_answers (intact : s.ipc.Intact) {i : Fin maxTasks} {cause : WakeCause}
    (found : s.table.findTask s.currentTask = some i) (running : s.currentTask ≠ 0)
    (reason : (s.table.task i).ipcWakeReason = cause.reason)
    (holds : s.ipc.Holds s.currentTask)
    (mail : cause = .send → s.ipc.mail s.currentTask ≠ [])
    {memory : UserMemory} {call : Syscall} (receives : call.receives = true) {arg0 : Nat}
    {frame : SyscallFrame}
    (takes : memory.Takes arg0 frame.capacity (s.ipc.mail s.currentTask)) :
    (s.dispatch memory call arg0 frame).1 = 0 ∧
      Answers cause s (s.dispatch memory call arg0 frame).2.2 s.currentTask frame.capacity
        (s.dispatch memory call arg0 frame).2.1 := by
  have answer : ∀ timeoutTicks, ∃ value frame' s',
      s.receiveCommon memory arg0 frame timeoutTicks = (.complete value, frame', s') ∧
        Answers cause s s' s.currentTask frame.capacity { frame' with rax := value } := by
    intro timeoutTicks
    obtain ⟨value, frame', s', eq, answers⟩ := receiveAttempt_answers intact found running reason
      holds mail takes timeoutTicks
    refine ⟨value, frame', s', ?_, answers⟩
    unfold receiveCommon
    simp only [eq, Option.get_some]
  obtain ⟨value, frame', s', eq, answers⟩ : ∃ value frame' s',
      s.handle memory call arg0 frame = (.complete value, frame', s') ∧
        Answers cause s s' s.currentTask frame.capacity { frame' with rax := value } := by
    cases call with
    | receive => exact answer none
    | receiveTimeout => exact answer (some frame.rdx)
    | _ => cases receives
  unfold dispatch
  rw [eq]
  exact ⟨rfl, answers⟩

end System

end CloudOS.Process
