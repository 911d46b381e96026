import CloudOS.Process.Syscall

/-!
User mode: the system call table of `src/syscall.rs`, the interrupts that reach the
kernel from a program, and the runs of a spawned task.

`user_enter` returns when some interrupt calls `exit_to_kernel`, whatever program is
on the processor by then. What the programs do is a list of such interrupts, with
the registers and the memory that the kernel finds. A keyboard interrupt touches no
task and does not appear.
-/

namespace CloudOS.Process

open Lib.Word (satAdd maxWord)

abbrev retUnknownSyscall : Nat := maxWord
abbrev userFaultExitBase : Nat := 0x1000

/-- The entries of `SYSCALLS`. -/
inductive SyscallEntry where
  | log
  | uptime
  | exit
  | yield
  | getpid
  | ipcSelf
  | ipc (call : Syscall)
deriving DecidableEq, Repr

def lookup : Nat → Option SyscallEntry
  | 1 => some .log
  | 2 => some .uptime
  | 3 => some .exit
  | 4 => some .yield
  | 5 => some (.ipc .send)
  | 6 => some (.ipc .receive)
  | 7 => some .getpid
  | 8 => some .ipcSelf
  | 9 => some (.ipc .receiveTimeout)
  | 10 => some (.ipc .cancel)
  | 11 => some (.ipc .sendCapability)
  | 12 => some (.ipc .revoke)
  | _ => none

/-! ### Interrupts -/

/-- The end of a system call: back to a program, in another address space if the
root is not 0, or `exit_to_kernel`. -/
inductive SyscallReturn where
  | resume (addressSpaceRoot : Nat) (frame : SyscallFrame)
  | exit (exitCode : Nat)

/-- The call is complete and its value is in `rax`. -/
def SyscallReturn.complete (frame : SyscallFrame) (returnValue : Nat) : SyscallReturn :=
  .resume 0 { frame with rax := returnValue }

namespace System

def syscallIpcSelf (s : System) : Nat :=
  if s.currentTask = 0 then ipcErrorReturn .invalidTask
  else
    match s.ipc.selfCapability s.currentTask with
    | .ok handle => handle
    | .error error => ipcErrorReturn error

/-- `syscall_interrupt_stub`: the number is in `rax` and the argument in `rdi`. -/
def syscallInterrupt (s : System) (memory : UserMemory) (frame : SyscallFrame) :
    SyscallReturn × System :=
  match lookup frame.rax with
  | none => (.complete frame retUnknownSyscall, s)
  | some .log => (.complete frame retOk, s)
  | some .uptime => (.complete frame s.ticks, s)
  | some .exit => (.exit frame.rdi, s)
  | some .yield => (.complete frame retOk, { s with scheduler := s.scheduler.yieldCurrent.2 })
  | some .getpid => (.complete frame s.currentTask, s)
  | some .ipcSelf => (.complete frame s.syscallIpcSelf, s)
  | some (.ipc call) =>
      let (root, frame, s) := s.dispatch memory call frame.rdi frame
      (.resume root frame, s)

end System

def faultExitCode (vector : Nat) : Nat := satAdd userFaultExitBase vector

inductive UserEvent where
  | syscall (memory : UserMemory) (frame : SyscallFrame)
  | timer (context : TimerContext)
  | fault (vector : Nat)

/-- What `record_syscall` counts. -/
def UserEvent.syscalls : UserEvent → Nat
  | syscall .. => 1
  | _ => 0

namespace System

/-- The exit code, if the event ends user mode. -/
def serve (s : System) : UserEvent → Option Nat × System
  | .syscall memory frame =>
      match s.syscallInterrupt memory frame with
      | (.exit exitCode, s) => (some exitCode, s)
      | (.resume _ _, s) => (none, s)
  | .timer context =>
      match s.timerInterruptHandler (some context) with
      | (.stop exitCode, _, s) => (some exitCode, s)
      | (_, _, s) => (none, s)
  | .fault vector => (some (faultExitCode vector), s)

/-- `user_enter`: the exit code, `USER_SYSCALLS` and the state when it returns.
A program that goes on after the last event gives `none`. -/
def userEnter (s : System) (syscallCount : Nat) :
    List UserEvent → Option (Nat × Nat × System)
  | [] => none
  | event :: events =>
      let syscallCount := (syscallCount + event.syscalls) % 2 ^ 64
      match s.serve event with
      | (some exitCode, s) => some (exitCode, syscallCount, s)
      | (none, s) => s.userEnter syscallCount events

end System

/-! ### Runs of a task -/

structure ProbeResult where
  ran : Bool
  passed : Bool
  exitCode : Nat
  syscallsBefore : Nat
  syscallsAfter : Nat

structure TaskRunResult where
  ran : Bool
  passed : Bool
  taskId : Nat
  state : TaskState
  entryPoint : Nat
  stackTop : Nat
  exitCode : Nat
  syscallsBefore : Nat
  syscallsAfter : Nat
  addressSpaceRoot : Nat
  firstUserFrame : Nat
  ownedUserPages : Nat
  ownedTableFrames : Nat
  cleanupUserFrames : Nat
  cleanupTableFrames : Nat
  heapReleased : Bool
  resourcesCleaned : Bool

def TaskRunResult.notRun (syscallCount entryPoint stackTop : Nat) : TaskRunResult where
  ran := false
  passed := false
  taskId := 0
  state := .empty
  entryPoint
  stackTop
  exitCode := 0
  syscallsBefore := syscallCount
  syscallsAfter := syscallCount
  addressSpaceRoot := 0
  firstUserFrame := 0
  ownedUserPages := 0
  ownedTableFrames := 0
  cleanupUserFrames := 0
  cleanupTableFrames := 0
  heapReleased := false
  resourcesCleaned := false

/-- What a run finds besides the kernel state: whether `USER_READY` and the system
call gate are set, `USER_SYSCALLS`, the programs, and the end of the resources. -/
structure UserSide where
  ready : Bool
  syscallCount : Nat
  events : List UserEvent
  teardown : Teardown

namespace System

def runProgramInAddressSpace (s : System) (user : UserSide)
    (expectedExitCode minimumSyscalls : Nat) : Option (ProbeResult × System) :=
  let before := user.syscallCount
  if !user.ready then
    some ({ ran := false, passed := false, exitCode := 0, syscallsBefore := before,
            syscallsAfter := before }, s)
  else
    match s.userEnter before user.events with
    | none => none
    | some (exitCode, after, s) =>
        some ({ ran := true
                passed := exitCode == expectedExitCode
                  && decide (after ≥ satAdd before minimumSyscalls)
                exitCode
                syscallsBefore := before
                syscallsAfter := after }, s)

/-- `run_spawned_task`, or `none` while user mode lasts. A task without an address
space runs in the one that is active. -/
def runSpawnedTask (s : System) (user : UserSide) (task : Option Task)
    (fallbackEntry fallbackStack expectedExitCode minimumSyscalls : Nat) :
    Option (TaskRunResult × System) :=
  match task with
  | none => some (.notRun user.syscallCount fallbackEntry fallbackStack, s)
  | some task =>
      match s.markRunning task.id user.syscallCount with
      | (false, s) => some (.notRun user.syscallCount task.entryPoint task.stackTop, s)
      | (true, s) =>
          match s.runProgramInAddressSpace user expectedExitCode minimumSyscalls with
          | none => none
          | some (userResult, s) =>
              let (exited, s) := s.markExited task.id userResult.exitCode userResult.syscallsAfter
              let (resourcesCleaned, s) := s.cleanupTask task.id user.teardown
              let finalTask := ((s.table.findTask task.id).map s.table.task).getD task
              some
                ({ ran := userResult.ran
                   passed := userResult.passed && exited && finalTask.state == .exited
                     && resourcesCleaned
                   taskId := task.id
                   state := finalTask.state
                   entryPoint := task.entryPoint
                   stackTop := task.stackTop
                   exitCode := userResult.exitCode
                   syscallsBefore := userResult.syscallsBefore
                   syscallsAfter := userResult.syscallsAfter
                   addressSpaceRoot := task.addressSpaceRoot
                   firstUserFrame := task.firstUserFrame
                   ownedUserPages := task.ownedUserPages
                   ownedTableFrames := task.ownedTableFrames
                   cleanupUserFrames := finalTask.cleanupUserFrames
                   cleanupTableFrames := finalTask.cleanupTableFrames
                   heapReleased := finalTask.heapReleased
                   resourcesCleaned }, s)

end System

end CloudOS.Process
