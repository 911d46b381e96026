import CloudOS.Process.Preservation

/-!
How the receive system call ends.

`ReceiveExit` lists the exits of `syscall_ipc_receive_common`, each with what is known
of the state there and the state it leaves. Whatever holds of a receive is read off
this list.
-/

namespace CloudOS.Process

open Lib.Word (satAdd)
open CloudOS.Ipc (IpcState IpcError Delivery maxMessageBytes)

/-- The deadline of a receive made at `now`, where 0 is none. -/
def deadlineTick (now : Nat) : Option Nat → Nat
  | none => 0
  | some ticks => satAdd now ticks

/-- The bytes that a receive asks for. -/
def SyscallFrame.capacity (frame : SyscallFrame) : Nat := min frame.rsi maxMessageBytes

/-- The registers that tell a task about a message. -/
def SyscallFrame.deliver (frame : SyscallFrame) (delivery : Delivery) : SyscallFrame :=
  { frame with
    rdx := delivery.sender
    rcx := delivery.sequence
    r8 := delivery.capabilityHandle
    r9 := delivery.capabilityRights.toNat
    rax := delivery.length }

/-- The error with which a wake reason ends a receive. -/
def IpcWakeReason.error : IpcWakeReason → Option IpcError
  | .timeout => some .timeout
  | .cancelled => some .cancelled
  | _ => Option.none

namespace System

/-- The wake reason of the current task. -/
def wakeReason (s : System) : IpcWakeReason :=
  match s.table.findTask s.currentTask with
  | none => .none
  | some i => (s.table.task i).ipcWakeReason

/-- The state once that reason is taken. -/
def taken (s : System) : System := (s.takeIpcWakeReason s.currentTask).2

theorem takeIpcWakeReason_eq (s : System) :
    s.takeIpcWakeReason s.currentTask = (s.wakeReason, s.taken) := by
  refine Prod.ext ?_ rfl
  unfold takeIpcWakeReason wakeReason
  cases s.table.findTask s.currentTask with
  | none => rfl
  | some i =>
      dsimp only
      split
      · rfl
      · rfl

/-- The buffer of the kernel that a message is copied through. -/
def messageBuffer (frame : SyscallFrame) : List UInt8 := List.replicate frame.capacity 0

theorem length_messageBuffer (frame : SyscallFrame) :
    (messageBuffer frame).length = frame.capacity := List.length_replicate

theorem taken_ipc (s : System) : s.taken.ipc = s.ipc := s.takeIpcWakeReason_ipc s.currentTask

theorem taken_currentTask (s : System) : s.taken.currentTask = s.currentTask :=
  congrArg Scheduler.currentTask (s.takeIpcWakeReason_scheduler s.currentTask)

end System

/-- The checks that a receive passes before it looks at the queue. -/
structure Admitted (s : System) (memory : UserMemory) (buffer : Nat) (frame : SyscallFrame) :
    Prop where
  running : s.currentTask ≠ 0
  valid : memory.validateUserBuffer buffer frame.capacity true = true

/-- The exits of `syscall_ipc_receive_common`. -/
inductive ReceiveExit (s : System) (memory : UserMemory) (buffer : Nat) (frame : SyscallFrame)
    (timeoutTicks : Option Nat) : SyscallOutcome → SyscallFrame → System → Prop
  | noTask (zero : s.currentTask = 0) :
      ReceiveExit s memory buffer frame timeoutTicks (.complete (ipcErrorReturn .invalidTask))
        frame s
  | invalid (running : s.currentTask ≠ 0)
      (invalid : memory.validateUserBuffer buffer frame.capacity true = false) :
      ReceiveExit s memory buffer frame timeoutTicks (.complete retInvalidUserBuffer) frame s
  | ended {error : IpcError} (admitted : Admitted s memory buffer frame)
      (reason : s.wakeReason.error = some error) :
      ReceiveExit s memory buffer frame timeoutTicks (.complete (ipcErrorReturn error)) frame
        s.taken
  | delivered {delivery : Delivery} {ipc : IpcState} {message : List UInt8}
      (admitted : Admitted s memory buffer frame) (reason : s.wakeReason.error = none)
      (received : s.taken.ipc.receive s.currentTask (System.messageBuffer frame) =
        (.ok delivery, ipc, message))
      (copied : memory.copyToUser buffer (message.take delivery.length) = true) :
      ReceiveExit s memory buffer frame timeoutTicks (.complete delivery.length)
        (frame.deliver delivery)
        (({ s.taken with ipc } : System).completeIpcRestart s.currentTask).2
  | uncopied {delivery : Delivery} {ipc : IpcState} {message : List UInt8}
      (admitted : Admitted s memory buffer frame) (reason : s.wakeReason.error = none)
      (received : s.taken.ipc.receive s.currentTask (System.messageBuffer frame) =
        (.ok delivery, ipc, message))
      (refused : memory.copyToUser buffer (message.take delivery.length) = false) :
      ReceiveExit s memory buffer frame timeoutTicks (.complete retInvalidUserBuffer) frame
        { s.taken with ipc }
  | failed {error : IpcError} {ipc : IpcState} {message : List UInt8}
      (admitted : Admitted s memory buffer frame) (reason : s.wakeReason.error = none)
      (received : s.taken.ipc.receive s.currentTask (System.messageBuffer frame) =
        (.error error, ipc, message)) (other : error ≠ .queueEmpty) :
      ReceiveExit s memory buffer frame timeoutTicks (.complete (ipcErrorReturn error)) frame
        { s.taken with ipc }
  | polled {message : List UInt8} (admitted : Admitted s memory buffer frame)
      (reason : s.wakeReason.error = none)
      (received : s.taken.ipc.receive s.currentTask (System.messageBuffer frame) =
        (.error .queueEmpty, s.taken.ipc, message)) (now : timeoutTicks = some 0) :
      ReceiveExit s memory buffer frame timeoutTicks (.complete (ipcErrorReturn .timeout)) frame
        s.taken
  | refused {message : List UInt8} {error : IpcError} {frame' : SyscallFrame} {s' : System}
      (admitted : Admitted s memory buffer frame) (reason : s.wakeReason.error = none)
      (received : s.taken.ipc.receive s.currentTask (System.messageBuffer frame) =
        (.error .queueEmpty, s.taken.ipc, message)) (later : timeoutTicks ≠ some 0)
      (blocks : s.taken.blockSyscall s.currentTask frame
        (deadlineTick s.taken.ticks timeoutTicks) = (.error error, frame', s')) :
      ReceiveExit s memory buffer frame timeoutTicks (.complete (ipcErrorReturn error)) frame' s'
  | switched {message : List UInt8} {root : Nat} {frame' : SyscallFrame} {s' : System}
      (admitted : Admitted s memory buffer frame) (reason : s.wakeReason.error = none)
      (received : s.taken.ipc.receive s.currentTask (System.messageBuffer frame) =
        (.error .queueEmpty, s.taken.ipc, message)) (later : timeoutTicks ≠ some 0)
      (blocks : s.taken.blockSyscall s.currentTask frame
        (deadlineTick s.taken.ticks timeoutTicks) = (.ok (.switched root), frame', s')) :
      ReceiveExit s memory buffer frame timeoutTicks (.switch root) frame' s'

namespace System

/-- A receive that does not block passes on what the message layer says. -/
theorem receive_false (s : System) (receiver : Nat) (output : List UInt8) :
    s.receive receiver output false =
      ((s.ipc.receive receiver output).1.map ReceiveOutcome.message,
        { s with ipc := (s.ipc.receive receiver output).2.1 },
        (s.ipc.receive receiver output).2.2) := by
  unfold receive
  generalize s.ipc.receive receiver output = result
  obtain ⟨outcome, ipc, output'⟩ := result
  cases outcome with
  | ok delivery => rfl
  | error error =>
      dsimp only
      rw [if_neg (by simp)]
      rfl

/-- The ways in which one attempt to receive can end. -/
theorem receiveAttempt_exit (s : System) (memory : UserMemory) (buffer : Nat)
    (frame : SyscallFrame) (timeoutTicks : Option Nat) :
    ∃ outcome, (s.receiveAttempt memory buffer frame timeoutTicks).1 = some outcome ∧
      ReceiveExit s memory buffer frame timeoutTicks outcome
        (s.receiveAttempt memory buffer frame timeoutTicks).2.1
        (s.receiveAttempt memory buffer frame timeoutTicks).2.2 := by
  unfold receiveAttempt
  dsimp only
  split
  · rename_i zero
    exact ⟨_, rfl, .noTask zero⟩
  rename_i running
  split
  · rename_i rejected
    exact ⟨_, rfl, .invalid running (Bool.not_eq_true' _ |>.mp rejected)⟩
  rename_i accepted
  have admitted : Admitted s memory buffer frame := ⟨running,
    Bool.not_eq_false _ |>.mp fun rejected => accepted (Bool.not_eq_true' _ |>.mpr rejected)⟩
  rw [takeIpcWakeReason_eq]
  generalize is : s.wakeReason = reason
  split
  · rename_i timeout
    obtain ⟨rfl, rfl⟩ := Prod.mk.inj timeout
    exact ⟨_, rfl, .ended admitted (is ▸ rfl)⟩
  · rename_i cancelled
    obtain ⟨rfl, rfl⟩ := Prod.mk.inj cancelled
    exact ⟨_, rfl, .ended admitted (is ▸ rfl)⟩
  rename_i notTimeout notCancelled same
  obtain ⟨rfl, rfl⟩ := Prod.mk.inj same
  have continues : s.wakeReason.error = none := by
    rw [is]
    cases reason with
    | timeout => exact (notTimeout rfl).elim
    | cancelled => exact (notCancelled rfl).elim
    | none => rfl
    | message => rfl
  rw [receive_false]
  cases received : s.taken.ipc.receive s.currentTask (messageBuffer frame) with
  | mk outcome rest =>
      obtain ⟨ipc, message⟩ := rest
      change s.taken.ipc.receive s.currentTask (List.replicate (min frame.rsi maxMessageBytes) 0) =
        (outcome, ipc, message) at received
      rw [received]
      cases outcome with
      | ok delivery =>
          dsimp only [Except.map]
          split
          · rename_i refused
            exact ⟨_, rfl, .uncopied admitted continues received (Bool.not_eq_true' _ |>.mp refused)⟩
          · rename_i copied
            exact ⟨_, rfl, .delivered admitted continues received (by
              simpa only [Bool.not_eq_true', Bool.not_eq_false] using copied)⟩
      | error error =>
          dsimp only [Except.map]
          split
          · rename_i other
            cases other
          · rename_i other
            cases other
          · rename_i empty
            cases empty
            obtain ⟨rfl, allowed, vacant⟩ := IpcState.receive_eq_queueEmpty received
            split
            · rename_i now
              exact ⟨_, rfl, .polled admitted continues received now⟩
            rename_i later
            have notReady := blockSyscall_ne_messageReady (s := s.taken) allowed vacant frame
              (deadlineTick s.taken.ticks timeoutTicks)
            generalize call : s.taken.blockSyscall s.currentTask frame _ = result
            have blocks : s.taken.blockSyscall s.currentTask frame
                (deadlineTick s.taken.ticks timeoutTicks) = result := call
            obtain ⟨outcome, frame', s'⟩ := result
            cases outcome with
            | error error => exact ⟨_, rfl, .refused admitted continues received later blocks⟩
            | ok outcome =>
                cases outcome with
                | messageReady =>
                    rw [blocks] at notReady
                    exact absurd rfl notReady
                | switched root =>
                    exact ⟨_, rfl, .switched admitted continues received later blocks⟩
          · rename_i notEmpty same
            obtain ⟨same, rfl, -⟩ := Prod.mk.injEq .. ▸ same
            cases same
            exact ⟨_, rfl, .failed admitted continues received notEmpty⟩

/-- The attempts come to an end, in one of the ways a single one can. -/
theorem receiveCommon_exit (s : System) (memory : UserMemory) (buffer : Nat)
    (frame : SyscallFrame) (timeoutTicks : Option Nat) :
    ReceiveExit s memory buffer frame timeoutTicks
      (s.receiveCommon memory buffer frame timeoutTicks).1
      (s.receiveCommon memory buffer frame timeoutTicks).2.1
      (s.receiveCommon memory buffer frame timeoutTicks).2.2 := by
  obtain ⟨outcome, eq, exit⟩ := s.receiveAttempt_exit memory buffer frame timeoutTicks
  have result : (s.receiveCommon memory buffer frame timeoutTicks).1 = outcome :=
    Option.some.inj ((Option.some_get _).trans eq)
  rw [result]
  exact exit

end System

end CloudOS.Process
