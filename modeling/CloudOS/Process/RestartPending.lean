import CloudOS.Ipc.Delivery
import CloudOS.Ipc.Receipt
import CloudOS.Process.Receiving
import CloudOS.Process.Switch

/-!
Which receives leave a restart pending.

A receive that blocks marks its task, and the same call made again should take the
mark off. It does so where the wait timed out or was cancelled and where a message is
handed over; every other exit leaves the mark, and a marked task cannot block again.
-/

namespace CloudOS.Process

open CloudOS.Ipc (IpcState IpcError Message)

namespace System

/-- The task is marked as having a system call to make again. -/
def RestartPending (s : System) (taskId : Nat) : Prop :=
  ∃ i, s.table.findTask taskId = some i ∧ (s.table.task i).ipcRestartPending = true

variable {s : System} {taskId : Nat}

theorem RestartPending.congr {s' : System} (tasks : s'.table.task = s.table.task) :
    s'.RestartPending taskId ↔ s.RestartPending taskId := by
  unfold RestartPending
  rw [ProcessTable.findTask_congr tasks, tasks]

/-- A slot is rewritten without changing who is in it or in which state. -/
theorem findTask_of_slots {s' : System} {i : Fin maxTasks} {slot : ProcessSlot}
    (slots : s'.table.slots = Function.update s.table.slots i slot)
    (id : slot.task.id = (s.table.task i).id) (state : slot.task.state = (s.table.task i).state) :
    s'.table.findTask taskId = s.table.findTask taskId := by
  have tasks := ProcessTable.task_of_slots slots
  refine findTask_of_same (fun j => ?_) (fun j => ?_) taskId
  · by_cases here : j = i
    · rw [tasks, here, Function.update_self, id]
    · rw [tasks, Function.update_of_ne here]
  · by_cases here : j = i
    · rw [tasks, here, Function.update_self, state]
    · rw [tasks, Function.update_of_ne here]

/-- The mark of the task is the one of the slot written. -/
theorem RestartPending.of_slots {s' : System} {i : Fin maxTasks} {slot : ProcessSlot}
    (found : s.table.findTask taskId = some i)
    (slots : s'.table.slots = Function.update s.table.slots i slot)
    (id : slot.task.id = (s.table.task i).id) (state : slot.task.state = (s.table.task i).state) :
    s'.RestartPending taskId ↔ slot.task.ipcRestartPending = true := by
  unfold RestartPending
  rw [findTask_of_slots slots id state, found, ProcessTable.task_of_slots slots]
  simp

theorem restartPending_of_find {i : Fin maxTasks} (found : s.table.findTask taskId = some i) :
    s.RestartPending taskId ↔ (s.table.task i).ipcRestartPending = true := by
  unfold RestartPending
  rw [found]
  simp

/-! ### The parts of the call -/

/-- Taking the reason of an ended wait takes the mark off. -/
theorem taken_restartPending (s : System) :
    s.taken.RestartPending s.currentTask ↔
      s.RestartPending s.currentTask ∧ s.wakeReason.error = none := by
  unfold taken takeIpcWakeReason wakeReason
  cases found : s.table.findTask s.currentTask with
  | none =>
      have missing : ¬ s.RestartPending s.currentTask := by
        rintro ⟨i, eq, -⟩
        rw [found] at eq
        cases eq
      exact iff_of_false missing fun both => missing both.1
  | some i =>
      have slots : (s.modify i fun task => { task with ipcWakeReason := .none }).table.slots =
          Function.update s.table.slots i { s.table.slots i with
            task := { s.table.task i with ipcWakeReason := .none } } := rfl
      have found₁ := (findTask_of_slots slots rfl rfl).trans found
      dsimp only
      rw [restartPending_of_find found]
      split
      · rename_i ends
        rw [Bool.and_eq_true, Bool.or_eq_true, beq_iff_eq, beq_iff_eq] at ends
        refine iff_of_false ((RestartPending.of_slots found₁ rfl ?_ ?_).not.mpr nofun) ?_
        · rfl
        · rfl
        · rintro ⟨-, goesOn⟩
          rcases ends.1 with timeout | cancelled
          · rw [timeout] at goesOn
            cases goesOn
          · rw [cancelled] at goesOn
            cases goesOn
      · rename_i goesOn
        refine (RestartPending.of_slots found slots rfl rfl).trans
          ⟨fun pending => ⟨pending, ?_⟩, And.left⟩
        have pending : (s.table.task i).ipcRestartPending = true := pending
        cases reason : (s.table.task i).ipcWakeReason with
        | timeout => simp [reason, pending] at goesOn
        | cancelled => simp [reason, pending] at goesOn
        | none => rfl
        | message => rfl

/-- Handing over a message takes the mark off. -/
theorem completeIpcRestart_restartPending (s : System) (taskId : Nat) :
    ¬ (s.completeIpcRestart taskId).2.RestartPending taskId := by
  unfold completeIpcRestart
  cases found : s.table.findTask taskId with
  | none =>
      rintro ⟨i, eq, -⟩
      rw [found] at eq
      cases eq
  | some i =>
      dsimp only
      split
      · rename_i unmarked
        rw [restartPending_of_find found]
        exact fun pending => by simp [pending] at unmarked
      · refine (RestartPending.of_slots found rfl ?_ ?_).not.mpr nofun
        · rfl
        · rfl

/-- A refusal to block changes neither the frame nor any task. -/
theorem blockForIpcSyscall_none {frame frame' : SyscallFrame} {deadlineTick : Nat} {s' : System}
    (refused : s.blockForIpcSyscall taskId frame deadlineTick = (none, frame', s')) :
    frame' = frame ∧ s'.table.task = s.table.task ∧ s'.ipc = s.ipc := by
  unfold blockForIpcSyscall at refused
  split at refused
  · cases refused
    exact ⟨rfl, rfl, rfl⟩
  dsimp only at refused
  split at refused
  · cases refused
    exact ⟨rfl, rfl, rfl⟩
  split at refused
  · cases refused
    exact ⟨rfl, task_saveContext s _ _, rfl⟩
  split at refused
  · cases refused
    exact ⟨rfl, task_saveContext s _ _, rfl⟩
  split at refused
  · cases refused
    exact ⟨rfl, task_saveContext s _ _, rfl⟩
  · cases refused

/-- Only an unmarked task blocks, and it hands over to an address space. -/
theorem blockForIpcSyscall_some {frame frame' : SyscallFrame} {deadlineTick root : Nat}
    {s' : System}
    (blocks : s.blockForIpcSyscall taskId frame deadlineTick = (some root, frame', s')) :
    root ≠ 0 ∧ ¬ s.RestartPending taskId := by
  unfold blockForIpcSyscall at blocks
  split at blocks
  · cases blocks
  rename_i i found
  dsimp only at blocks
  split at blocks
  · cases blocks
  rename_i able
  split at blocks
  · cases blocks
  split at blocks
  · cases blocks
  split at blocks
  · cases blocks
  rename_i fit
  cases blocks
  constructor
  · intro zero
    simp [zero] at fit
  · rw [restartPending_of_find found]
    exact fun pending => able (by simp [pending])

theorem blockSyscall_error {frame frame' : SyscallFrame} {deadlineTick : Nat} {error : IpcError}
    {s' : System}
    (refused : s.blockSyscall taskId frame deadlineTick = (.error error, frame', s')) :
    frame' = frame ∧ s'.table.task = s.table.task := by
  unfold blockSyscall at refused
  split at refused
  · cases refused
    exact ⟨rfl, rfl⟩
  dsimp only at refused
  split at refused
  · cases refused
    exact ⟨rfl, rfl⟩
  · cases refused
  split at refused
  · cases refused
    exact ⟨rfl, rfl⟩
  split at refused
  · rename_i blocks
    obtain ⟨frames, tasks, -⟩ := blockForIpcSyscall_none blocks
    cases refused
    exact ⟨frames, tasks⟩
  · cases refused

theorem blockSyscall_switched {frame frame' : SyscallFrame} {deadlineTick root : Nat}
    {s' : System}
    (switched : s.blockSyscall taskId frame deadlineTick = (.ok (.switched root), frame', s')) :
    root ≠ 0 ∧ ¬ s.RestartPending taskId := by
  unfold blockSyscall at switched
  split at switched
  · cases switched
  dsimp only at switched
  split at switched
  · cases switched
  · cases switched
  split at switched
  · cases switched
  split at switched
  · cases switched
  · rename_i blocks
    have result := blockForIpcSyscall_some blocks
    cases switched
    exact result

/-! ### The call -/

/-- The buffer is valid, and the wait of the current task has timed out or was
cancelled, or the task may receive and its oldest message can be copied out. -/
structure Resolves (s : System) (memory : UserMemory) (buffer : Nat) (frame : SyscallFrame) :
    Prop where
  admitted : Admitted s memory buffer frame
  resolved : s.wakeReason = .timeout ∨ s.wakeReason = .cancelled ∨
    ((s.ipc.canReceive s.currentTask).1 = .ok () ∧ ∃ message ∈ s.ipc.oldest s.currentTask,
      message.length ≤ frame.capacity ∧ memory.copyToUser buffer message.payload = true)

variable {memory : UserMemory} {buffer : Nat} {frame : SyscallFrame}

/-- A receive without a wake reason to report resolves only with a message. -/
theorem Resolves.delivers (resolves : s.Resolves memory buffer frame)
    (reason : s.wakeReason.error = none) :
    (s.ipc.canReceive s.currentTask).1 = .ok () ∧ ∃ message ∈ s.ipc.oldest s.currentTask,
      message.length ≤ frame.capacity ∧ memory.copyToUser buffer message.payload = true := by
  rcases resolves.resolved with timeout | cancelled | delivers
  · rw [timeout] at reason
    cases reason
  · rw [cancelled] at reason
    cases reason
  · exact delivers

/-- The message that a receive returns is the oldest one. -/
theorem oldest_of_received {delivery : Ipc.Delivery} {ipc : IpcState} {message : List UInt8}
    (received : s.taken.ipc.receive s.currentTask (messageBuffer frame) =
      (.ok delivery, ipc, message)) :
    (s.ipc.canReceive s.currentTask).1 = .ok () ∧ ∃ first ∈ s.ipc.oldest s.currentTask,
      first.length ≤ frame.capacity ∧ delivery = first.delivery ∧
        message.take delivery.length = first.payload := by
  have receipt := s.taken.ipc.receive_receipt s.currentTask (messageBuffer frame)
  rw [received] at receipt
  rw [taken_ipc] at receipt
  cases receipt with
  | @accepted i first popped allowed found oldest fits pops =>
      rw [length_messageBuffer] at fits
      refine ⟨by rw [allowed], first, ?_, fits, rfl, ?_⟩
      · rw [IpcState.oldest_of_find found, oldest]
        rfl
      · exact IpcState.take_copyPayload (fits.trans (Nat.min_le_right _ _)) _

/-- A receive that returns no message has none to return. -/
theorem not_delivers_of_error {error : IpcError} {ipc : IpcState} {message : List UInt8}
    (received : s.taken.ipc.receive s.currentTask (messageBuffer frame) =
      (.error error, ipc, message)) :
    ¬ ((s.ipc.canReceive s.currentTask).1 = .ok () ∧ ∃ first ∈ s.ipc.oldest s.currentTask,
      first.length ≤ frame.capacity ∧ memory.copyToUser buffer first.payload = true) := by
  rintro ⟨allowed, first, oldest, fits, -⟩
  rw [← length_messageBuffer] at fits
  rw [taken_ipc] at received
  obtain ⟨delivery, ok⟩ := IpcState.receive_isOk_iff.mpr ⟨allowed, first, oldest, fits⟩
  rw [received] at ok
  cases ok

end System

/-- In every state, for every buffer, frame and timeout: a receive that completes leaves
no restart pending exactly if none was pending before it or the call resolves the one
that was. -/
theorem receive_finishes_iff (s : System) (memory : UserMemory) (buffer : Nat)
    (frame : SyscallFrame) (timeoutTicks : Option Nat) :
    ((s.receiveCommon memory buffer frame timeoutTicks).1.switchRoot = 0 →
      ¬ (s.receiveCommon memory buffer frame timeoutTicks).2.2.RestartPending s.currentTask) ↔
    ¬ s.RestartPending s.currentTask ∨ s.Resolves memory buffer frame := by
  have exit := s.receiveCommon_exit memory buffer frame timeoutTicks
  generalize (s.receiveCommon memory buffer frame timeoutTicks).1 = outcome at exit
  generalize (s.receiveCommon memory buffer frame timeoutTicks).2.1 = frame' at exit
  generalize (s.receiveCommon memory buffer frame timeoutTicks).2.2 = s' at exit
  -- the exits that complete and leave the mark as it was, without resolving the wait
  have leaves : outcome.switchRoot = 0 →
      (s'.RestartPending s.currentTask ↔ s.RestartPending s.currentTask) →
      ¬ s.Resolves memory buffer frame →
      ((outcome.switchRoot = 0 → ¬ s'.RestartPending s.currentTask) ↔
        ¬ s.RestartPending s.currentTask ∨ s.Resolves memory buffer frame) := by
    intro completes same unresolved
    rw [same]
    exact ⟨fun clears => Or.inl (clears completes),
      fun either _ => either.resolve_right unresolved⟩
  have kept : s.wakeReason.error = none →
      (s.taken.RestartPending s.currentTask ↔ s.RestartPending s.currentTask) := by
    intro reason
    rw [System.taken_restartPending]
    exact and_iff_left reason
  cases exit with
  | noTask zero =>
      exact leaves rfl Iff.rfl fun resolves => resolves.admitted.running zero
  | invalid running invalid =>
      refine leaves rfl Iff.rfl fun resolves => ?_
      rw [resolves.admitted.valid] at invalid
      cases invalid
  | ended admitted reason =>
      refine iff_of_true (fun _ pending => ?_) (Or.inr ⟨admitted, ?_⟩)
      · rw [System.taken_restartPending, reason] at pending
        cases pending.2
      · cases is : s.wakeReason with
        | timeout => exact Or.inl rfl
        | cancelled => exact Or.inr (Or.inl rfl)
        | none => rw [is] at reason; cases reason
        | message => rw [is] at reason; cases reason
  | delivered admitted reason received copied =>
      obtain ⟨allowed, first, oldest, fits, rfl, payload⟩ := System.oldest_of_received received
      rw [payload] at copied
      refine iff_of_true (fun _ => System.completeIpcRestart_restartPending _ _)
        (Or.inr ⟨admitted, ?_⟩)
      exact Or.inr (Or.inr ⟨allowed, first, oldest, fits, copied⟩)
  | uncopied admitted reason received refused =>
      refine leaves rfl (kept reason) fun resolves => ?_
      obtain ⟨allowed, first, oldest, fits, rfl, payload⟩ := System.oldest_of_received received
      obtain ⟨-, first', oldest', -, copied⟩ := resolves.delivers reason
      have same : first' = first := Option.some.inj (oldest'.symm.trans oldest)
      rw [payload, ← same, copied] at refused
      cases refused
  | failed admitted reason received other =>
      exact leaves rfl (kept reason) fun resolves =>
        System.not_delivers_of_error received (resolves.delivers reason)
  | polled admitted reason received now =>
      exact leaves rfl (kept reason) fun resolves =>
        System.not_delivers_of_error received (resolves.delivers reason)
  | refused admitted reason received later blocks =>
      have tasks := (System.blockSyscall_error blocks).2
      exact leaves rfl ((System.RestartPending.congr tasks).trans (kept reason)) fun resolves =>
        System.not_delivers_of_error received (resolves.delivers reason)
  | switched admitted reason received later blocks =>
      obtain ⟨nonzero, unmarked⟩ := System.blockSyscall_switched blocks
      rw [kept reason] at unmarked
      exact iff_of_true (fun completes => absurd completes nonzero) (Or.inl unmarked)

/-- Task 1 waits for an empty message; one of a single byte wakes it. -/
def unfitRun : List Op :=
  [.spawnElfChild 0 (some someImage) (some 64), .spawnElfChild 0 (some someImage) (some 128),
    .markRunning 1 0, .syscall blankMemory .receive 0 blankFrame, .send 2 1 [7],
    .markRunning 1 0]

/-- The receive made again finds its buffer too small and leaves its restart pending. -/
theorem receive_not_finishes :
    ¬ ∀ (ops : List Op) (memory : UserMemory) (buffer : Nat) (frame : SyscallFrame)
      (timeoutTicks : Option Nat),
      ((run .boot ops).receiveCommon memory buffer frame timeoutTicks).1.switchRoot = 0 →
      ¬ ((run .boot ops).receiveCommon memory buffer frame timeoutTicks).2.2.RestartPending
        (run .boot ops).currentTask := by
  intro claim
  refine claim unfitRun blankMemory 0 blankFrame none (by decide +kernel) ⟨0, ?_⟩
  decide +kernel

end CloudOS.Process
