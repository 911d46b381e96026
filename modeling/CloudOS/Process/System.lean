import CloudOS.Ipc.State
import CloudOS.Process.Table
import CloudOS.Scheduler.State

/-!
The kernel state that `process.rs`, `scheduler.rs` and `ipc.rs` share, and the
methods of the process table over it.

The statics of the three modules are the three components of `System`; `ticks`
is the counter behind `interrupts::ticks()`. What the loader, the kernel heap
and the page tables answer is an argument of the function that asks them.
-/

namespace CloudOS.Process

open Lib.Word (satAdd)
open CloudOS.Ipc (IpcState)

structure System where
  table : ProcessTable
  scheduler : Scheduler
  ipc : IpcState
  ticks : Nat

/-- What `elf::create_process_image` builds. -/
structure ProcessImage where
  entryPoint : Nat
  stackTop : Nat
  rootFrame : Nat
  firstUserFrame : Nat
  mappedPages : Nat
  tableFrames : Nat

/-- What `cleanup_task` learns from `heap::free` and `AddressSpace::destroy`. -/
structure Teardown where
  heapFreed : Bool
  destroyed : Option (Nat × Nat × Bool)

inductive TimerAction where
  | continue
  | switch (addressSpaceRoot : Nat)
  | stop (exitCode : Nat)
deriving DecidableEq, Repr

structure WaitResult where
  found : Bool
  blocked : Bool
  reaped : Bool
  childId : Nat
  exitCode : Nat
deriving DecidableEq, Repr

def WaitResult.missing : WaitResult := ⟨false, false, false, 0, 0⟩

namespace System

/-- The state after the three `init` functions. -/
def boot : System where
  table := ProcessTable.new.init
  scheduler := Scheduler.new.init 0
  ipc := IpcState.new.init
  ticks := 0

/-- Rewrite the task in slot `i`. -/
def modify (s : System) (i : Fin maxTasks) (f : Task → Task) : System :=
  { s with table := s.table.modify i f }

/-- Store the registers of the task in slot `i`. -/
def saveContext (s : System) (i : Fin maxTasks) (context : TimerContext) : System :=
  { s with table := { s.table with
    slots := Function.update s.table.slots i
      { s.table.slots i with timerContext := context, contextValid := true } } }

def failSpawn (s : System) : System := { s with table := s.table.failSpawn }

/-! ### Spawning -/

/-- The task that `install_task` puts into a slot. -/
def freshTask (id parentId heapAllocation : Nat) (image : ProcessImage) : Task :=
  { Task.empty with
    id
    parentId
    state := .ready
    entryPoint := image.entryPoint
    stackTop := image.stackTop
    addressSpaceRoot := image.rootFrame
    firstUserFrame := image.firstUserFrame
    ownedUserPages := image.mappedPages
    ownedTableFrames := image.tableFrames
    heapAllocation
    resourcesActive := true }

def installTask (s : System) (parentId heapAllocation : Nat) (image : ProcessImage) :
    Option Task × System :=
  let s := { s with table := if s.table.initialized then s.table else s.table.init }
  match s.table.freeSlot with
  | none => (none, s.failSpawn)
  | some index =>
      let id := s.table.nextTaskId
      let s := { s with table := { s.table with nextTaskId := satAdd s.table.nextTaskId 1 } }
      match s.ipc.register id with
      | (.error _, ipc) => (none, { s with ipc }.failSpawn)
      | (.ok (), ipc) =>
          let task := freshTask id parentId heapAllocation image
          (some task, { s with
            ipc
            table := { s.table with
              slots := Function.update s.table.slots index
                { task
                  timerContext := initialTimerContext image.entryPoint image.stackTop
                  contextValid := true }
              activeResources := satAdd s.table.activeResources 1
              lastTaskId := id
              counters := { s.table.counters with
                spawnedTasks := satAdd s.table.counters.spawnedTasks 1 } }
            scheduler := (s.scheduler.enqueue id).2 })

/-- The common end of the spawns: the heap allocation and the installation. -/
def spawnImage (s : System) (parentId : Nat) (image : ProcessImage)
    (heapAllocation : Option Nat) : Option Task × System :=
  match heapAllocation with
  | none => (none, s.failSpawn)
  | some address => s.installTask parentId address image

/-- Whether `parent_id` names a task that can have children. -/
def validParent (s : System) (parentId : Nat) : Bool :=
  match s.table.findTask parentId with
  | none => false
  | some index => (s.table.task index).live

def spawnElfChild (s : System) (parentId : Nat) (image : Option ProcessImage)
    (heapAllocation : Option Nat) : Option Task × System :=
  if parentId != 0 && !s.validParent parentId then (none, s.failSpawn)
  else
    match image with
    | none => (none, s.failSpawn)
    | some image => s.spawnImage parentId image heapAllocation

def spawnElfInit (s : System) (image : Option ProcessImage) (heapAllocation : Option Nat) :
    Option Task × System :=
  s.spawnElfChild 0 image heapAllocation

/-- `executable` says whether the entry point of the image is mapped for user
code. -/
def spawnPreemptTask (s : System) (image : Option ProcessImage) (executable : Bool)
    (heapAllocation : Option Nat) : Option Task × System :=
  match image with
  | none => (none, s.failSpawn)
  | some image =>
      if !executable then (none, s.failSpawn) else s.spawnImage 0 image heapAllocation

def spawnLegacy (s : System) (entryPoint stackTop : Nat) (heapAllocation : Option Nat) :
    Option Task × System :=
  s.spawnImage 0 ⟨entryPoint, stackTop, 0, 0, 0, 0⟩ heapAllocation

/-! ### Running and exiting -/

def markRunning (s : System) (id syscallsBefore : Nat) : Bool × System :=
  match s.table.findTask id with
  | none => (false, s)
  | some index =>
      let s := s.modify index fun task => { task with
        state := .running
        syscallsBefore
        runs := satAdd task.runs 1
        scheduledSlices := satAdd task.scheduledSlices 1
        lastScheduledTick := s.ticks }
      (true, { s with
        table := { s.table with lastTaskId := id }
        scheduler := s.scheduler.beginTask id })

def wakeWaitingParent (s : System) (parentId childId : Nat) : Bool × System :=
  match s.table.findTask parentId with
  | none => (false, s)
  | some parentIndex =>
      let parent := s.table.task parentIndex
      if parent.state != .blocked || (parent.waitTarget != 0 && parent.waitTarget != childId) then
        (false, s)
      else
        match s.scheduler.wakeTask parentId with
        | (false, scheduler) => (false, { s with scheduler })
        | (true, scheduler) =>
            let s := { s with scheduler }.modify parentIndex fun task =>
              { task with state := .ready, waitTarget := 0 }
            (true, { s with table := { s.table with counters := { s.table.counters with
              parentWakeups := satAdd s.table.counters.parentWakeups 1 } } })

/-- The first part of `mark_exited`: the task leaves its slot's life and the
scheduler. -/
def retire (s : System) (index : Fin maxTasks) (id exitCode syscallsAfter : Nat) : System :=
  let s := s.modify index fun task => { task with
    state := .exited
    exitCode
    syscallsAfter
    ipcWaiting := false
    ipcRestartPending := false
    ipcDeadlineTick := 0
    ipcWakeReason := .none }
  { s with
    table := { s.table with
      lastTaskId := id
      lastExitCode := exitCode
      counters := { s.table.counters with
        exitedTotal := satAdd s.table.counters.exitedTotal 1 } }
    scheduler := s.scheduler.finishTask id }

def markExited (s : System) (id exitCode syscallsAfter : Nat) : Bool × System :=
  match s.table.findTask id with
  | none => (false, s)
  | some index =>
      let parentId := (s.table.task index).parentId
      let s := s.retire index id exitCode syscallsAfter
      (true, if parentId ≠ 0 then (s.wakeWaitingParent parentId id).2 else s)

def cleanupTask (s : System) (id : Nat) (teardown : Teardown) : Bool × System :=
  match s.table.findTask id with
  | none => (false, s)
  | some index =>
      if !(s.table.task index).resourcesActive then ((s.table.task index).cleanupComplete, s)
      else
        let heapReleased := (s.table.task index).heapAllocation != 0 && teardown.heapFreed
        let (endpointReleased, ipc) :=
          match s.ipc.unregister id with
          | (.ok _, ipc) => (true, ipc)
          | (.error _, ipc) => (false, ipc)
        let (userFrames, tableFrames, pagesComplete) := teardown.destroyed.getD (0, 0, false)
        let complete := heapReleased && endpointReleased && pagesComplete
        let s := { s with ipc }.modify index fun task => { task with
          cleanupUserFrames := userFrames
          cleanupTableFrames := tableFrames
          heapReleased
          cleanupComplete := complete
          resourcesActive := false
          heapAllocation := if heapReleased then 0 else task.heapAllocation }
        let counters := s.table.counters
        (complete, { s with table := { s.table with
          activeResources := s.table.activeResources - 1
          counters := { counters with
            reclaimedUserFrames := satAdd counters.reclaimedUserFrames userFrames
            reclaimedTableFrames := satAdd counters.reclaimedTableFrames tableFrames
            heapReleases :=
              if heapReleased then satAdd counters.heapReleases 1 else counters.heapReleases
            cleanupSuccesses :=
              if complete then satAdd counters.cleanupSuccesses 1 else counters.cleanupSuccesses
            cleanupFailures :=
              if complete then counters.cleanupFailures
              else satAdd counters.cleanupFailures 1 } } })

def waitChild (s : System) (parentId childId : Nat) : WaitResult × System :=
  match s.table.findTask parentId with
  | none => (WaitResult.missing, s)
  | some parentIndex =>
      if !(s.table.task parentIndex).live then (WaitResult.missing, s)
      else
        match s.table.findChild parentId childId with
        | none => (WaitResult.missing, s)
        | some childIndex =>
            let child := s.table.task childIndex
            if child.state == .exited && !child.resourcesActive && child.cleanupComplete then
              ({ found := true, blocked := false, reaped := true, childId := child.id
                 exitCode := child.exitCode },
                { s with table := { s.table with
                  slots := Function.update s.table.slots childIndex ProcessSlot.empty
                  counters := { s.table.counters with
                    reapedTotal := satAdd s.table.counters.reapedTotal 1 } } })
            else
              let idle : WaitResult :=
                { found := true, blocked := false, reaped := false, childId := child.id
                  exitCode := child.exitCode }
              if child.state == .exited then (idle, s)
              else
                match s.scheduler.blockTask parentId with
                | (false, scheduler) => (idle, { s with scheduler })
                | (true, scheduler) =>
                    let s := { s with scheduler }.modify parentIndex fun task =>
                      { task with state := .blocked, waitTarget := child.id }
                    ({ found := true, blocked := true, reaped := false, childId := child.id
                       exitCode := 0 },
                      { s with table := { s.table with counters := { s.table.counters with
                        waitBlocks := satAdd s.table.counters.waitBlocks 1 } } })

/-! ### The timer -/

/-- `on_timer_interrupt`: the action, the registers to return to, and the state. -/
def onTimerInterrupt (s : System) (context : TimerContext) :
    TimerAction × TimerContext × System :=
  if !s.table.preemptionActive || !context.fromUser then (.continue, context, s)
  else if s.table.preemptionSwitches ≥ s.table.preemptionTarget then
    (.stop preemptTestExitCode, context, s)
  else
    let (decision, scheduler) := s.scheduler.preemptCurrent
    let s := { s with scheduler }
    let deactivated : System := { s with table := { s.table with preemptionActive := false } }
    if !decision.switched then (.continue, context, s)
    else
      match s.table.findTask decision.previousTask with
      | none => (.stop (preemptTestExitCode + 1), context, deactivated)
      | some previousIndex =>
          match s.table.findTask decision.nextTask with
          | none => (.stop (preemptTestExitCode + 2), context, deactivated)
          | some nextIndex =>
              let s := (s.saveContext previousIndex context).modify previousIndex Task.preempted
              let next := s.table.slots nextIndex
              if !next.contextValid || next.task.addressSpaceRoot == 0 then
                (.stop (preemptTestExitCode + 3), context,
                  { s with table := { s.table with preemptionActive := false } })
              else
                let s := s.modify nextIndex fun task => task.scheduled s.ticks decision.waitedTicks
                (.switch next.task.addressSpaceRoot, next.timerContext,
                  { s with table := { s.table with
                    preemptionSwitches := satAdd s.table.preemptionSwitches 1
                    lastTaskId := decision.nextTask } })

/-! ### Waiting for messages -/

def blockForIpc (s : System) (taskId : Nat) : Bool × System :=
  match s.table.findTask taskId with
  | none => (false, s)
  | some index =>
      let task := s.table.task index
      if !(task.state == .ready || task.state == .running) || task.waitTarget != 0
          || task.ipcWaiting then (false, s)
      else
        match s.scheduler.blockTask taskId with
        | (false, scheduler) => (false, { s with scheduler })
        | (true, scheduler) =>
            (true, { s with scheduler }.modify index fun task => { task with
              state := .blocked
              ipcWaiting := true
              ipcDeadlineTick := 0
              ipcWakeReason := .none })

/-- `block_for_ipc_syscall`: the root of the next address space, the registers to
return to, and the state. -/
def blockForIpcSyscall (s : System) (taskId : Nat) (frame : SyscallFrame) (deadlineTick : Nat) :
    Option Nat × SyscallFrame × System :=
  match s.table.findTask taskId with
  | none => (none, frame, s)
  | some previousIndex =>
      let previous := s.table.task previousIndex
      if previous.state != .running || previous.waitTarget != 0 || previous.ipcWaiting
          || previous.ipcRestartPending then (none, frame, s)
      else
        let s := s.saveContext previousIndex (saveSyscallContext frame true)
        let (decision, scheduler) := s.scheduler.blockCurrentAndDispatch taskId
        let s := { s with scheduler }
        if !decision.switched || decision.previousTask != taskId then (none, frame, s)
        else
          match s.table.findTask decision.nextTask with
          | none => (none, frame, s)
          | some nextIndex =>
              let next := s.table.slots nextIndex
              if !next.contextValid || next.task.addressSpaceRoot == 0 then (none, frame, s)
              else
                let s := s.modify previousIndex fun task => task.asleep deadlineTick
                let s := s.modify nextIndex fun task => task.scheduled s.ticks decision.waitedTicks
                (some next.task.addressSpaceRoot, loadSyscallContext next.timerContext,
                  { s with table := { s.table with
                    lastTaskId := decision.nextTask
                    counters := { s.table.counters with
                      ipcBlockingSwitches :=
                        satAdd s.table.counters.ipcBlockingSwitches 1 } } })

/-- The shared body of `wake_from_ipc` and `cancel_ipc_wait`. -/
def endIpcWait (s : System) (taskId : Nat) (reason : IpcWakeReason) : Bool × System :=
  match s.table.findTask taskId with
  | none => (false, s)
  | some index =>
      if (s.table.task index).state != .blocked || !(s.table.task index).ipcWaiting then (false, s)
      else
        match s.scheduler.wakeTask taskId with
        | (false, scheduler) => (false, { s with scheduler })
        | (true, scheduler) =>
            (true, { s with scheduler }.modify index fun task => task.woken reason)

def wakeFromIpc (s : System) (taskId : Nat) : Bool × System := s.endIpcWait taskId .message

def cancelIpcWait (s : System) (taskId : Nat) : Bool × System :=
  match s.endIpcWait taskId .cancelled with
  | (false, s) => (false, s)
  | (true, s) =>
      (true, { s with table := { s.table with counters := { s.table.counters with
        ipcCancellations := satAdd s.table.counters.ipcCancellations 1 } } })

/-- The body of the loop of `expire_ipc_deadlines` at one slot. -/
def expireSlot (now : Nat) (s : System) (index : Fin maxTasks) : System :=
  let task := s.table.task index
  if task.state != .blocked || !task.ipcWaiting || task.ipcDeadlineTick == 0
      || decide (now < task.ipcDeadlineTick) then s
  else
    match s.scheduler.wakeTask task.id with
    | (false, scheduler) => { s with scheduler }
    | (true, scheduler) =>
        let s := { s with scheduler, ipc := (s.ipc.setWaiting task.id false).2 }.modify index
          fun task => task.woken .timeout
        { s with table := { s.table with counters := { s.table.counters with
          ipcTimeouts := satAdd s.table.counters.ipcTimeouts 1 } } }

def expireIpcDeadlines (s : System) (now : Nat) : System :=
  (List.finRange maxTasks).foldl (expireSlot now) s

def takeIpcWakeReason (s : System) (taskId : Nat) : IpcWakeReason × System :=
  match s.table.findTask taskId with
  | none => (.none, s)
  | some index =>
      let task := s.table.task index
      let reason := task.ipcWakeReason
      let s := s.modify index fun task => { task with ipcWakeReason := .none }
      if (reason == .timeout || reason == .cancelled) && task.ipcRestartPending then
        let s := s.modify index fun task => { task with ipcRestartPending := false }
        (reason, { s with table := { s.table with counters := { s.table.counters with
          ipcRestartCompletions := satAdd s.table.counters.ipcRestartCompletions 1 } } })
      else (reason, s)

def completeIpcRestart (s : System) (taskId : Nat) : Bool × System :=
  match s.table.findTask taskId with
  | none => (false, s)
  | some index =>
      if !(s.table.task index).ipcRestartPending then (false, s)
      else
        let s := s.modify index fun task => { task with
          ipcRestartPending := false
          ipcDeadlineTick := 0
          ipcWakeReason := .none }
        (true, { s with table := { s.table with counters := { s.table.counters with
          ipcRestartCompletions := satAdd s.table.counters.ipcRestartCompletions 1 } } })

end System

end CloudOS.Process
