import CloudOS.Process.System

/-!
The public functions of `src/ipc.rs`, which tie messages to blocking and waking,
the system calls of `src/syscall.rs` built on them, and the timer interrupt.

`UserMemory` is what a system call finds at user addresses. The receive system
call calls itself when a message arrived between two of its steps; nothing runs
between them, and `receiveAttempt_isSome` shows that the call is never made.
-/

namespace CloudOS.Process

open Lib.Word (satAdd maxWord)
open CloudOS.Ipc (IpcState IpcError CapabilityRights Delivery RevocationReport maxMessageBytes)

inductive ReceiveOutcome where
  | message (delivery : Delivery)
  | blocked

inductive SyscallBlockOutcome where
  | messageReady
  | switched (addressSpaceRoot : Nat)

namespace System

/-! ### Sending -/

def countWakeup (s : System) : System :=
  { s with ipc := { s.ipc with counters := { s.ipc.counters with
    receiverWakeups := satAdd s.ipc.counters.receiverWakeups 1 } } }

def countBlocked (s : System) : System :=
  { s with ipc := { s.ipc with counters := { s.ipc.counters with
    blockedReceives := satAdd s.ipc.counters.blockedReceives 1 } } }

def finishSendLocked (s : System) (sequence : Nat) (wakeReceiver : Bool) (receiver : Nat) :
    Except IpcError Nat × System :=
  if wakeReceiver then
    match s.wakeFromIpc receiver with
    | (true, s) => (.ok sequence, s.countWakeup)
    | (false, s) => (.error .wakeFailed, { s with ipc := (s.ipc.setWaiting receiver true).2 })
  else (.ok sequence, s)

def send (s : System) (sender receiver : Nat) (bytes : List UInt8) :
    Except IpcError Nat × System :=
  match s.ipc.send sender receiver bytes with
  | (.error error, ipc) => (.error error, { s with ipc })
  | (.ok (sequence, wakeReceiver), ipc) =>
      { s with ipc }.finishSendLocked sequence wakeReceiver receiver

def sendCapability (s : System) (sender handle : Nat) (bytes : List UInt8) :
    Except IpcError Nat × System :=
  match s.ipc.sendCapability sender handle bytes with
  | (.error error, ipc) => (.error error, { s with ipc })
  | (.ok (sequence, wakeReceiver, receiver), ipc) =>
      { s with ipc }.finishSendLocked sequence wakeReceiver receiver

def sendWithCapability (s : System) (sender destinationHandle transferHandle : Nat)
    (requestedRights : CapabilityRights) (bytes : List UInt8) : Except IpcError Nat × System :=
  match s.ipc.sendWithCapability sender destinationHandle transferHandle requestedRights bytes with
  | (.error error, ipc) => (.error error, { s with ipc })
  | (.ok (sequence, wakeReceiver, receiver, _), ipc) =>
      { s with ipc }.finishSendLocked sequence wakeReceiver receiver

/-! ### Receiving and cancelling -/

/-- The last component is the caller's output buffer after the call. -/
def receive (s : System) (receiver : Nat) (output : List UInt8) (blockWhenEmpty : Bool) :
    Except IpcError ReceiveOutcome × System × List UInt8 :=
  match s.ipc.receive receiver output with
  | (.ok delivery, ipc, output) => (.ok (.message delivery), { s with ipc }, output)
  | (.error error, ipc, output) =>
      let s := { s with ipc }
      if error == .queueEmpty && blockWhenEmpty then
        match s.ipc.setWaiting receiver true with
        | (.error error, ipc) => (.error error, { s with ipc }, output)
        | (.ok (), ipc) =>
            match { s with ipc }.blockForIpc receiver with
            | (false, s) =>
                (.error .blockFailed, { s with ipc := (s.ipc.setWaiting receiver false).2 }, output)
            | (true, s) => (.ok .blocked, s.countBlocked, output)
      else (.error error, s, output)

def blockSyscall (s : System) (receiver : Nat) (frame : SyscallFrame) (deadlineTick : Nat) :
    Except IpcError SyscallBlockOutcome × SyscallFrame × System :=
  match s.ipc.canReceive receiver with
  | (.error error, ipc) => (.error error, frame, { s with ipc })
  | (.ok (), ipc) =>
      let s := { s with ipc }
      match s.ipc.hasMessage receiver with
      | .error error => (.error error, frame, s)
      | .ok true => (.ok .messageReady, frame, s)
      | .ok false =>
          match s.ipc.setWaiting receiver true with
          | (.error error, ipc) => (.error error, frame, { s with ipc })
          | (.ok (), ipc) =>
              match { s with ipc }.blockForIpcSyscall receiver frame deadlineTick with
              | (none, frame, s) =>
                  (.error .blockFailed, frame,
                    { s with ipc := (s.ipc.setWaiting receiver false).2 })
              | (some root, frame, s) => (.ok (.switched root), frame, s.countBlocked)

def cancelWait (s : System) (requester handle : Nat) : Except IpcError Nat × System :=
  let s := { s with ipc := { s.ipc with counters := { s.ipc.counters with
    cancellationRequests := satAdd s.ipc.counters.cancellationRequests 1 } } }
  match s.ipc.resolve requester handle CapabilityRights.cancel with
  | (.error error, ipc) => (.error error, { s with ipc })
  | (.ok target, ipc) =>
      match { s with ipc }.cancelIpcWait target with
      | (false, s) => (.error .notWaiting, s)
      | (true, s) =>
          match s.ipc.setWaiting target false with
          | (.error error, ipc) => (.error error, { s with ipc })
          | (.ok (), ipc) =>
              (.ok target, { s with ipc := { ipc with counters := { ipc.counters with
                cancellationSuccesses := satAdd ipc.counters.cancellationSuccesses 1 } } })

end System

/-! ### System calls -/

abbrev retOk : Nat := 0
abbrev retInvalidUserBuffer : Nat := maxWord - 1
abbrev retIpcErrorBase : Nat := maxWord - 32

def errorCode : IpcError → Nat
  | .notInitialized => 1
  | .invalidTask => 2
  | .endpointCapacity => 3
  | .endpointMissing => 4
  | .messageTooLarge => 5
  | .queueFull => 6
  | .queueEmpty => 7
  | .bufferTooSmall => 8
  | .blockFailed => 9
  | .wakeFailed => 10
  | .capabilityCapacity => 11
  | .invalidCapability => 12
  | .staleCapability => 13
  | .permissionDenied => 14
  | .invalidRights => 15
  | .timeout => 16
  | .cancelled => 17
  | .notWaiting => 18
  | .rightsEscalation => 19
  | .lineageDepthExceeded => 20

def ipcErrorReturn (error : IpcError) : Nat := satAdd retIpcErrorBase (errorCode error)

structure SyscallOutcome where
  returnValue : Nat
  switchRoot : Nat
deriving DecidableEq, Repr

def SyscallOutcome.complete (returnValue : Nat) : SyscallOutcome := ⟨returnValue, 0⟩

def SyscallOutcome.switch (switchRoot : Nat) : SyscallOutcome := ⟨retOk, switchRoot⟩

/-- The value of a call that succeeds with a number. -/
def SyscallOutcome.ofResult : Except IpcError Nat → SyscallOutcome
  | .ok value => .complete value
  | .error error => .complete (ipcErrorReturn error)

/-- The memory of the calling task as the kernel reaches it: which buffers are
valid for reading or writing, and what copying from and to them does. -/
structure UserMemory where
  validateUserBuffer : (address length : Nat) → (writable : Bool) → Bool
  copyFromUser : (address length : Nat) → Option (List UInt8)
  copyToUser : (address : Nat) → (bytes : List UInt8) → Bool
  length_copyFromUser : ∀ {address length : Nat} {bytes : List UInt8},
    copyFromUser address length = some bytes → bytes.length = length

namespace System

/-- `scheduler::snapshot().current_task`. -/
def currentTask (s : System) : Nat := s.scheduler.currentTask

def syscallIpcSend (s : System) (memory : UserMemory) (handle : Nat) (frame : SyscallFrame) :
    SyscallOutcome × SyscallFrame × System :=
  let sender := s.currentTask
  let length := frame.rdx
  if sender == 0 || decide (length > maxMessageBytes) then
    (.complete (ipcErrorReturn .invalidTask), frame, s)
  else
    match memory.copyFromUser frame.rsi length with
    | none => (.complete retInvalidUserBuffer, frame, s)
    | some message =>
        match s.sendCapability sender handle message with
        | (.ok sequence, s) => (.complete sequence, { frame with rax := sequence }, s)
        | (.error error, s) => (.complete (ipcErrorReturn error), frame, s)

/-- `syscall_ipc_receive_common`, where `none` stands for calling itself again. -/
def receiveAttempt (s : System) (memory : UserMemory) (buffer : Nat) (frame : SyscallFrame)
    (timeoutTicks : Option Nat) : Option SyscallOutcome × SyscallFrame × System :=
  let receiver := s.currentTask
  let capacity := min frame.rsi maxMessageBytes
  if receiver = 0 then (some (.complete (ipcErrorReturn .invalidTask)), frame, s)
  else if !memory.validateUserBuffer buffer capacity true then
    (some (.complete retInvalidUserBuffer), frame, s)
  else
    match s.takeIpcWakeReason receiver with
    | (.timeout, s) => (some (.complete (ipcErrorReturn .timeout)), frame, s)
    | (.cancelled, s) => (some (.complete (ipcErrorReturn .cancelled)), frame, s)
    | (_, s) =>
        match s.receive receiver (List.replicate capacity 0) false with
        | (.ok (.message delivery), s, message) =>
            if !memory.copyToUser buffer (message.take delivery.length) then
              (some (.complete retInvalidUserBuffer), frame, s)
            else
              (some (.complete delivery.length),
                { frame with
                  rdx := delivery.sender
                  rcx := delivery.sequence
                  r8 := delivery.capabilityHandle
                  r9 := delivery.capabilityRights.toNat
                  rax := delivery.length },
                (s.completeIpcRestart receiver).2)
        | (.ok .blocked, s, _) => (some (.complete (ipcErrorReturn .blockFailed)), frame, s)
        | (.error .queueEmpty, s, _) =>
            if timeoutTicks = some 0 then
              (some (.complete (ipcErrorReturn .timeout)), frame, s)
            else
              let deadlineTick :=
                match timeoutTicks with
                | none => 0
                | some ticks => satAdd s.ticks ticks
              match s.blockSyscall receiver frame deadlineTick with
              | (.ok (.switched root), frame, s) => (some (.switch root), frame, s)
              | (.ok .messageReady, frame, s) => (none, frame, s)
              | (.error error, frame, s) => (some (.complete (ipcErrorReturn error)), frame, s)
        | (.error error, s, _) => (some (.complete (ipcErrorReturn error)), frame, s)

/-! ### Receiving is one attempt -/

theorem receive_false_eq_queueEmpty {s s' : System} {receiver : Nat} {output output' : List UInt8}
    (failed : s.receive receiver output false = (.error .queueEmpty, s', output')) :
    s' = s ∧ s.ipc.canReceive receiver = (.ok (), s.ipc) ∧
      s.ipc.hasMessage receiver = .ok false := by
  unfold receive at failed
  cases received : s.ipc.receive receiver output with
  | mk result rest =>
      obtain ⟨ipc, buffer⟩ := rest
      rw [received] at failed
      cases result with
      | ok delivery => cases failed
      | error error =>
          simp only [Bool.and_false, Bool.false_eq_true, if_false, Prod.mk.injEq,
            Except.error.injEq] at failed
          obtain ⟨rfl, rfl, -⟩ := failed
          obtain ⟨rfl, allowed, empty⟩ := IpcState.receive_eq_queueEmpty received
          exact ⟨rfl, allowed, empty⟩

theorem blockSyscall_ne_messageReady {s : System} {receiver : Nat}
    (allowed : s.ipc.canReceive receiver = (.ok (), s.ipc))
    (empty : s.ipc.hasMessage receiver = .ok false) (frame : SyscallFrame) (deadlineTick : Nat) :
    (s.blockSyscall receiver frame deadlineTick).1 ≠ .ok .messageReady := by
  unfold blockSyscall
  rw [allowed]
  dsimp only
  rw [empty]
  dsimp only
  split
  · exact fun ready => by cases ready
  · split
    · exact fun ready => by cases ready
    · exact fun ready => by cases ready

/-- An attempt always comes to an end. -/
theorem receiveAttempt_isSome (s : System) (memory : UserMemory) (buffer : Nat)
    (frame : SyscallFrame) (timeoutTicks : Option Nat) :
    (s.receiveAttempt memory buffer frame timeoutTicks).1.isSome = true := by
  unfold receiveAttempt
  dsimp only
  split
  · rfl
  split
  · rfl
  split
  · rfl
  · rfl
  rename_i reason s _ _ _
  split
  · split
    · rfl
    · rfl
  · rfl
  · rename_i s' _ received
    split
    · rfl
    obtain ⟨rfl, allowed, empty⟩ := receive_false_eq_queueEmpty received
    have notReady := blockSyscall_ne_messageReady allowed empty frame
    split
    · rfl
    · rename_i ready
      exact absurd (congrArg Prod.fst ready) (notReady _)
    · rfl
  · rfl

/-- `syscall_ipc_receive_common`. -/
def receiveCommon (s : System) (memory : UserMemory) (buffer : Nat) (frame : SyscallFrame)
    (timeoutTicks : Option Nat) : SyscallOutcome × SyscallFrame × System :=
  ((s.receiveAttempt memory buffer frame timeoutTicks).1.get
      (s.receiveAttempt_isSome memory buffer frame timeoutTicks),
    (s.receiveAttempt memory buffer frame timeoutTicks).2)

def syscallIpcReceive (s : System) (memory : UserMemory) (buffer : Nat) (frame : SyscallFrame) :
    SyscallOutcome × SyscallFrame × System :=
  s.receiveCommon memory buffer frame none

def syscallIpcReceiveTimeout (s : System) (memory : UserMemory) (buffer : Nat)
    (frame : SyscallFrame) : SyscallOutcome × SyscallFrame × System :=
  s.receiveCommon memory buffer frame (some frame.rdx)

/-! ### The other calls -/

def syscallIpcCancel (s : System) (handle : Nat) (frame : SyscallFrame) :
    SyscallOutcome × SyscallFrame × System :=
  let requester := s.currentTask
  if requester = 0 then (.complete (ipcErrorReturn .invalidTask), frame, s)
  else
    let r := s.cancelWait requester handle
    (.ofResult r.1, frame, r.2)

def syscallIpcSendCapability (s : System) (memory : UserMemory) (destinationHandle : Nat)
    (frame : SyscallFrame) : SyscallOutcome × SyscallFrame × System :=
  let sender := s.currentTask
  let length := frame.rdx
  if sender == 0 || decide (length > maxMessageBytes) then
    (.complete (ipcErrorReturn .invalidTask), frame, s)
  else if frame.r8 > 255 then (.complete (ipcErrorReturn .invalidRights), frame, s)
  else
    match CapabilityRights.fromBits (UInt8.ofNat frame.r8) with
    | none => (.complete (ipcErrorReturn .invalidRights), frame, s)
    | some requestedRights =>
        match memory.copyFromUser frame.rsi length with
        | none => (.complete retInvalidUserBuffer, frame, s)
        | some message =>
            let r := s.sendWithCapability sender destinationHandle frame.rcx requestedRights message
            (.ofResult r.1, frame, r.2)

def syscallIpcRevoke (s : System) (handle : Nat) (frame : SyscallFrame) :
    SyscallOutcome × SyscallFrame × System :=
  let owner := s.currentTask
  if owner = 0 then (.complete (ipcErrorReturn .invalidTask), frame, s)
  else
    let r := s.ipc.revoke owner handle
    (.ofResult (r.1.map RevocationReport.revoked), frame, { s with ipc := r.2 })

end System

/-- The system calls that reach the message layer. -/
inductive Syscall where
  | send
  | receive
  | receiveTimeout
  | cancel
  | sendCapability
  | revoke
deriving DecidableEq, Repr

namespace System

/-- The handler of a call, applied to `arg0` and the frame. -/
def handle (s : System) (memory : UserMemory) (call : Syscall) (arg0 : Nat)
    (frame : SyscallFrame) : SyscallOutcome × SyscallFrame × System :=
  match call with
  | .send => s.syscallIpcSend memory arg0 frame
  | .receive => s.syscallIpcReceive memory arg0 frame
  | .receiveTimeout => s.syscallIpcReceiveTimeout memory arg0 frame
  | .cancel => s.syscallIpcCancel arg0 frame
  | .sendCapability => s.syscallIpcSendCapability memory arg0 frame
  | .revoke => s.syscallIpcRevoke arg0 frame

/-- `dispatch`: the root to switch to, or 0, with the frame to return to. -/
def dispatch (s : System) (memory : UserMemory) (call : Syscall) (arg0 : Nat)
    (frame : SyscallFrame) : Nat × SyscallFrame × System :=
  let (outcome, frame, s) := s.handle memory call arg0 frame
  if outcome.switchRoot ≠ 0 then (outcome.switchRoot, frame, s)
  else (0, { frame with rax := outcome.returnValue }, s)

/-- `timer_interrupt_handler` with the interrupted registers, if there are any. -/
def timerInterruptHandler (s : System) (context : Option TimerContext) :
    TimerAction × Option TimerContext × System :=
  let now := satAdd s.ticks 1
  let s := { s with ticks := (s.ticks + 1) % 2 ^ 64 }
  let s := { s with scheduler := s.scheduler.onTimerTick }
  let s := s.expireIpcDeadlines now
  match context with
  | none => (.continue, none, s)
  | some context =>
      if !context.fromUser then (.continue, some context, s)
      else
        let (action, context, s) := s.onTimerInterrupt context
        (action, some context, s)

end System

end CloudOS.Process
