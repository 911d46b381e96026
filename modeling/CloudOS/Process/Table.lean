import CloudOS.Lib.Scan
import CloudOS.Lib.Word

/-!
The process table of `src/process.rs`: tasks, their saved registers and the
slots that hold them.

A task's address space is represented by its root frame; what the page tables
say about a user address is the business of `UserMemory` (in `Process.Syscall`).
-/

namespace CloudOS.Process

open Lib.Scan (first)
open Lib.Word (satAdd)

abbrev maxTasks : Nat := 8
abbrev preemptTestSwitches : Nat := 8
abbrev preemptTestExitCode : Nat := 0x5052
abbrev syscallInstructionBytes : Nat := 2
abbrev userDataSelector : Nat := 0x2b
abbrev userCodeSelector : Nat := 0x33

/-! ### Registers -/

structure TimerContext where
  gs : Nat
  fs : Nat
  es : Nat
  ds : Nat
  r15 : Nat
  r14 : Nat
  r13 : Nat
  r12 : Nat
  r11 : Nat
  r10 : Nat
  r9 : Nat
  r8 : Nat
  rbp : Nat
  rdi : Nat
  rsi : Nat
  rdx : Nat
  rcx : Nat
  rbx : Nat
  rax : Nat
  instructionPointer : Nat
  codeSegment : Nat
  cpuFlags : Nat
  stackPointer : Nat
  stackSegment : Nat
deriving DecidableEq, Repr

def TimerContext.empty : TimerContext :=
  ⟨0, 0, 0, 0, 0, 0, 0, 0, 0, 0, 0, 0, 0, 0, 0, 0, 0, 0, 0, 0, 0, 0, 0, 0⟩

def TimerContext.fromUser (context : TimerContext) : Bool := context.codeSegment &&& 0x3 == 0x3

structure SyscallFrame where
  r15 : Nat
  r14 : Nat
  r13 : Nat
  r12 : Nat
  r11 : Nat
  r10 : Nat
  r9 : Nat
  r8 : Nat
  rbp : Nat
  rdi : Nat
  rsi : Nat
  rdx : Nat
  rcx : Nat
  rbx : Nat
  rax : Nat
  rip : Nat
  cs : Nat
  rflags : Nat
  rsp : Nat
  ss : Nat
deriving DecidableEq, Repr

def saveSyscallContext (frame : SyscallFrame) (restartSyscall : Bool) : TimerContext where
  gs := userDataSelector
  fs := userDataSelector
  es := userDataSelector
  ds := userDataSelector
  r15 := frame.r15
  r14 := frame.r14
  r13 := frame.r13
  r12 := frame.r12
  r11 := frame.r11
  r10 := frame.r10
  r9 := frame.r9
  r8 := frame.r8
  rbp := frame.rbp
  rdi := frame.rdi
  rsi := frame.rsi
  rdx := frame.rdx
  rcx := frame.rcx
  rbx := frame.rbx
  rax := frame.rax
  instructionPointer := if restartSyscall then frame.rip - syscallInstructionBytes else frame.rip
  codeSegment := frame.cs
  cpuFlags := frame.rflags
  stackPointer := frame.rsp
  stackSegment := frame.ss

def loadSyscallContext (context : TimerContext) : SyscallFrame where
  r15 := context.r15
  r14 := context.r14
  r13 := context.r13
  r12 := context.r12
  r11 := context.r11
  r10 := context.r10
  r9 := context.r9
  r8 := context.r8
  rbp := context.rbp
  rdi := context.rdi
  rsi := context.rsi
  rdx := context.rdx
  rcx := context.rcx
  rbx := context.rbx
  rax := context.rax
  rip := context.instructionPointer
  cs := context.codeSegment
  rflags := context.cpuFlags
  rsp := context.stackPointer
  ss := context.stackSegment

def initialTimerContext (entryPoint stackTop : Nat) : TimerContext :=
  { TimerContext.empty with
    gs := userDataSelector
    fs := userDataSelector
    es := userDataSelector
    ds := userDataSelector
    instructionPointer := entryPoint
    codeSegment := userCodeSelector
    cpuFlags := 0x202
    stackPointer := stackTop
    stackSegment := userDataSelector }

/-! ### Tasks -/

inductive TaskState where
  | empty
  | ready
  | running
  | blocked
  | exited
deriving DecidableEq, Repr

inductive IpcWakeReason where
  | none
  | message
  | timeout
  | cancelled
deriving DecidableEq, Repr

structure Task where
  id : Nat
  parentId : Nat
  state : TaskState
  entryPoint : Nat
  stackTop : Nat
  exitCode : Nat
  syscallsBefore : Nat
  syscallsAfter : Nat
  runs : Nat
  addressSpaceRoot : Nat
  firstUserFrame : Nat
  ownedUserPages : Nat
  ownedTableFrames : Nat
  heapAllocation : Nat
  resourcesActive : Bool
  cleanupComplete : Bool
  cleanupUserFrames : Nat
  cleanupTableFrames : Nat
  heapReleased : Bool
  timerPreemptions : Nat
  scheduledSlices : Nat
  lastScheduledTick : Nat
  maxWaitTicks : Nat
  waitTarget : Nat
  ipcWaiting : Bool
  ipcRestartPending : Bool
  ipcDeadlineTick : Nat
  ipcWakeReason : IpcWakeReason
deriving DecidableEq, Repr

namespace Task

def empty : Task where
  id := 0
  parentId := 0
  state := .empty
  entryPoint := 0
  stackTop := 0
  exitCode := 0
  syscallsBefore := 0
  syscallsAfter := 0
  runs := 0
  addressSpaceRoot := 0
  firstUserFrame := 0
  ownedUserPages := 0
  ownedTableFrames := 0
  heapAllocation := 0
  resourcesActive := false
  cleanupComplete := false
  cleanupUserFrames := 0
  cleanupTableFrames := 0
  heapReleased := false
  timerPreemptions := 0
  scheduledSlices := 0
  lastScheduledTick := 0
  maxWaitTicks := 0
  waitTarget := 0
  ipcWaiting := false
  ipcRestartPending := false
  ipcDeadlineTick := 0
  ipcWakeReason := .none

/-- Neither `Empty` nor `Exited`. -/
def live (task : Task) : Bool := task.state != .empty && task.state != .exited

/-- The task as the next to run, in `block_for_ipc_syscall` and
`on_timer_interrupt`. -/
def scheduled (task : Task) (ticks waitedTicks : Nat) : Task :=
  { task with
    state := .running
    runs := satAdd task.runs 1
    scheduledSlices := satAdd task.scheduledSlices 1
    lastScheduledTick := ticks
    maxWaitTicks := max task.maxWaitTicks waitedTicks }

/-- The task as `on_timer_interrupt` puts it back. -/
def preempted (task : Task) : Task :=
  { task with
    state := .ready
    timerPreemptions := satAdd task.timerPreemptions 1 }

/-- The task as `block_for_ipc_syscall` leaves it. -/
def asleep (task : Task) (deadlineTick : Nat) : Task :=
  { task with
    state := .blocked
    ipcWaiting := true
    ipcRestartPending := true
    ipcDeadlineTick := deadlineTick
    ipcWakeReason := .none }

/-- The task after its wait for a message ended. -/
def woken (task : Task) (reason : IpcWakeReason) : Task :=
  { task with
    state := .ready
    ipcWaiting := false
    ipcDeadlineTick := 0
    ipcWakeReason := reason }

end Task

structure ProcessSlot where
  task : Task
  timerContext : TimerContext
  contextValid : Bool

def ProcessSlot.empty : ProcessSlot := ⟨Task.empty, TimerContext.empty, false⟩

/-! ### The table -/

structure ProcessCounters where
  spawnedTasks : Nat := 0
  exitedTotal : Nat := 0
  failedSpawns : Nat := 0
  cleanupSuccesses : Nat := 0
  cleanupFailures : Nat := 0
  reclaimedUserFrames : Nat := 0
  reclaimedTableFrames : Nat := 0
  heapReleases : Nat := 0
  preemptionRuns : Nat := 0
  preemptionPasses : Nat := 0
  reapedTotal : Nat := 0
  waitBlocks : Nat := 0
  parentWakeups : Nat := 0
  ipcBlockingSwitches : Nat := 0
  ipcRestartCompletions : Nat := 0
  ipcTimeouts : Nat := 0
  ipcCancellations : Nat := 0
deriving DecidableEq, Repr

structure ProcessTable where
  initialized : Bool
  nextTaskId : Nat
  activeResources : Nat
  lastTaskId : Nat
  lastExitCode : Nat
  preemptionActive : Bool
  preemptionTarget : Nat
  preemptionSwitches : Nat
  counters : ProcessCounters
  slots : Fin maxTasks → ProcessSlot

namespace ProcessTable

def new : ProcessTable where
  initialized := false
  nextTaskId := 1
  activeResources := 0
  lastTaskId := 0
  lastExitCode := 0
  preemptionActive := false
  preemptionTarget := 0
  preemptionSwitches := 0
  counters := {}
  slots := fun _ => ProcessSlot.empty

def init (t : ProcessTable) : ProcessTable := { t with initialized := true }

/-- The task in slot `i`. -/
def task (t : ProcessTable) (i : Fin maxTasks) : Task := (t.slots i).task

/-- Rewrite the task in slot `i`. -/
def modify (t : ProcessTable) (i : Fin maxTasks) (f : Task → Task) : ProcessTable :=
  { t with slots := Function.update t.slots i { t.slots i with task := f (t.slots i).task } }

def findTask (t : ProcessTable) (id : Nat) : Option (Fin maxTasks) :=
  first fun i => (t.task i).state != .empty && (t.task i).id == id

def freeSlot (t : ProcessTable) : Option (Fin maxTasks) :=
  first fun i => (t.task i).state == .empty ||
    ((t.task i).state == .exited && !(t.task i).resourcesActive && (t.task i).parentId == 0)

/-- Whether the loop of `find_child` looks at the slot. -/
def matchesChild (t : ProcessTable) (parentId childId : Nat) (i : Fin maxTasks) : Bool :=
  (t.task i).state != .empty && (t.task i).parentId == parentId
    && (childId == 0 || (t.task i).id == childId)

/-- The first collectable match, or else the first match. -/
def findChild (t : ProcessTable) (parentId childId : Nat) : Option (Fin maxTasks) :=
  match first fun i => t.matchesChild parentId childId i && (t.task i).state == .exited
      && !(t.task i).resourcesActive with
  | some i => some i
  | none => first (t.matchesChild parentId childId)

def failSpawn (t : ProcessTable) : ProcessTable :=
  { t with counters := { t.counters with failedSpawns := satAdd t.counters.failedSpawns 1 } }

def startPreemptionTest (t : ProcessTable) : ProcessTable :=
  { t with
    preemptionActive := true
    preemptionTarget := preemptTestSwitches
    preemptionSwitches := 0
    counters := { t.counters with preemptionRuns := satAdd t.counters.preemptionRuns 1 } }

def stopPreemptionTest (t : ProcessTable) (passed : Bool) : Nat × ProcessTable :=
  (t.preemptionSwitches, { t with
    preemptionActive := false
    preemptionTarget := 0
    counters :=
      if passed then
        { t.counters with preemptionPasses := satAdd t.counters.preemptionPasses 1 }
      else t.counters })

end ProcessTable

end CloudOS.Process
