import CloudOS.Lib.RingBuffer
import CloudOS.Lib.Word

/-!
The scheduler of `src/scheduler.rs`: a ring of ready tasks, an array of blocked
ones and the current task.

Both arrays keep the source's layout. Scans over them go through `queued` and
`blockedTasks`, which list the used part in order, so that a `for` loop that
stops at the first match is `idxOf?`. An operation that returns `bool` in the
source returns the flag and the new scheduler.
-/

namespace CloudOS

open Lib.RingBuffer (cell contents shiftDown)
open Lib.Word (satAdd)

abbrev queueCapacity : Nat := 8
abbrev defaultQuantumTicks : Nat := 2
abbrev starvationLimitTicks : Nat := 18

/-- There is a first cell. -/
instance firstCell : NeZero queueCapacity := ⟨by decide⟩

structure PreemptionDecision where
  switched : Bool
  previousTask : Nat
  nextTask : Nat
  waitedTicks : Nat
  starvationGuard : Bool
deriving DecidableEq, Repr

def PreemptionDecision.none (currentTask : Nat) : PreemptionDecision where
  switched := false
  previousTask := currentTask
  nextTask := currentTask
  waitedTicks := 0
  starvationGuard := false

structure QueueEntry where
  taskId : Nat
  readySince : Nat
deriving DecidableEq, Repr

def QueueEntry.empty : QueueEntry := ⟨0, 0⟩

structure Scheduler where
  initialized : Bool
  queue : Fin queueCapacity → QueueEntry
  blocked : Fin queueCapacity → Nat
  head : Nat
  len : Nat
  blockedLen : Nat
  currentTask : Nat
  lastTask : Nat
  contextSwitches : Nat
  cooperativeYields : Nat
  timerTicks : Nat
  accountedTicks : Nat
  failedEnqueues : Nat
  lastSwitchTick : Nat
  quantumTicks : Nat
  sliceTicks : Nat
  timerPreemptions : Nat
  roundRobinRotations : Nat
  starvationPreventions : Nat
  maxWaitTicks : Nat
  blockEvents : Nat
  blockingSwitches : Nat
  wakeEvents : Nat
  failedWakeups : Nat

namespace Scheduler

def new : Scheduler where
  initialized := false
  queue := fun _ => QueueEntry.empty
  blocked := fun _ => 0
  head := 0
  len := 0
  blockedLen := 0
  currentTask := 0
  lastTask := 0
  contextSwitches := 0
  cooperativeYields := 0
  timerTicks := 0
  accountedTicks := 0
  failedEnqueues := 0
  lastSwitchTick := 0
  quantumTicks := defaultQuantumTicks
  sliceTicks := 0
  timerPreemptions := 0
  roundRobinRotations := 0
  starvationPreventions := 0
  maxWaitTicks := 0
  blockEvents := 0
  blockingSwitches := 0
  wakeEvents := 0
  failedWakeups := 0

/-- `init`, at the given value of `interrupts::ticks()`. -/
def init (s : Scheduler) (ticks : Nat) : Scheduler :=
  if s.initialized then s else { new with initialized := true, lastSwitchTick := ticks }

/-! ### The two arrays -/

/-- The ready tasks, in queue order. -/
def queued (s : Scheduler) : List Nat :=
  (contents s.queue s.head s.len).map QueueEntry.taskId

/-- `blocked[..blocked_len]`. -/
def blockedTasks (s : Scheduler) : List Nat := contents s.blocked 0 s.blockedLen

def contains (s : Scheduler) (taskId : Nat) : Bool := s.queued.contains taskId

def containsBlocked (s : Scheduler) (taskId : Nat) : Bool := s.blockedTasks.contains taskId

/-- The removed entry, and the queue without it. -/
def removeAt (s : Scheduler) (offset : Nat) : QueueEntry × Scheduler :=
  if offset ≥ s.len then (QueueEntry.empty, s)
  else
    let removed := s.queue (cell queueCapacity (s.head + offset))
    let queue := shiftDown s.queue s.head offset (s.len - 1 - offset)
    let len := s.len - 1
    (removed, { s with
      queue := Function.update queue (cell queueCapacity (s.head + len)) QueueEntry.empty
      head := if len = 0 then 0 else s.head
      len := len })

def remove (s : Scheduler) (taskId : Nat) : Bool × Scheduler :=
  match s.queued.idxOf? taskId with
  | none => (false, s)
  | some offset => (true, (s.removeAt offset).2)

def removeBlocked (s : Scheduler) (taskId : Nat) : Bool × Scheduler :=
  match s.blockedTasks.idxOf? taskId with
  | none => (false, s)
  | some index =>
      let blockedLen := s.blockedLen - 1
      let blocked := shiftDown s.blocked 0 index (blockedLen - index)
      (true, { s with
        blocked := Function.update blocked (cell queueCapacity (0 + blockedLen)) 0
        blockedLen := blockedLen })

/-- `self.blocked[self.blocked_len] = task_id; self.blocked_len += 1`. -/
def pushBlocked (s : Scheduler) (taskId : Nat) : Scheduler :=
  { s with
    blocked := Function.update s.blocked (cell queueCapacity (0 + s.blockedLen)) taskId
    blockedLen := s.blockedLen + 1 }

def enqueueAt (s : Scheduler) (taskId readySince : Nat) : Bool × Scheduler :=
  if taskId = 0 then (false, { s with failedEnqueues := satAdd s.failedEnqueues 1 })
  else if s.contains taskId || s.currentTask == taskId then (true, s)
  else if s.len ≥ queueCapacity then
    (false, { s with failedEnqueues := satAdd s.failedEnqueues 1 })
  else
    (true, { s with
      queue := Function.update s.queue (cell queueCapacity (s.head + s.len)) ⟨taskId, readySince⟩
      len := s.len + 1 })

def enqueue (s : Scheduler) (taskId : Nat) : Bool × Scheduler := s.enqueueAt taskId s.timerTicks

/-! ### Starting, finishing and blocking -/

def beginTask (s : Scheduler) (taskId : Nat) : Scheduler :=
  let s := (s.remove taskId).2
  let s := (s.removeBlocked taskId).2
  { s with
    currentTask := taskId
    lastTask := taskId
    contextSwitches := satAdd s.contextSwitches 1
    lastSwitchTick := s.timerTicks
    sliceTicks := 0 }

def finishTask (s : Scheduler) (taskId : Nat) : Scheduler :=
  let s :=
    if s.currentTask = taskId then
      { s with currentTask := 0, sliceTicks := 0, lastSwitchTick := s.timerTicks }
    else s
  let s := (s.remove taskId).2
  let s := (s.removeBlocked taskId).2
  { s with lastTask := taskId }

def yieldCurrent (s : Scheduler) : Nat × Scheduler :=
  let s := { s with cooperativeYields := satAdd s.cooperativeYields 1 }
  if s.currentTask = 0 then (0, s)
  else (s.currentTask, { s with lastSwitchTick := s.timerTicks })

def blockTask (s : Scheduler) (taskId : Nat) : Bool × Scheduler :=
  if taskId = 0 then (false, s)
  else if s.containsBlocked taskId then (true, s)
  else if s.blockedLen ≥ queueCapacity then (false, s)
  else
    let (known, s) :=
      if s.currentTask = taskId then (true, { s with currentTask := 0, sliceTicks := 0 })
      else s.remove taskId
    if !known then (false, s)
    else
      let s := s.pushBlocked taskId
      (true, { s with blockEvents := satAdd s.blockEvents 1 })

/-- The body of the loop of `select_next_offset`: the offset selected so far and
its wait. -/
def selectStep (s : Scheduler) (best : Nat × Nat) (offset : Nat) : Nat × Nat :=
  let waited := s.timerTicks - (s.queue (cell queueCapacity (s.head + offset))).readySince
  if waited > best.2 then (offset, waited) else best

def selectNextOffset (s : Scheduler) : Nat × Bool :=
  let (selected, longestWait) := (List.range s.len).foldl s.selectStep (0, 0)
  if longestWait ≥ starvationLimitTicks then (selected, selected != 0) else (0, false)

def blockCurrentAndDispatch (s : Scheduler) (taskId : Nat) : PreemptionDecision × Scheduler :=
  if !s.initialized || taskId == 0 || s.currentTask != taskId || s.len == 0
      || decide (s.blockedLen ≥ queueCapacity) then
    (PreemptionDecision.none s.currentTask, s)
  else
    let (offset, starvationGuard) := s.selectNextOffset
    let (next, s) := s.removeAt offset
    if next.taskId = 0 then (PreemptionDecision.none s.currentTask, s)
    else
      let waitedTicks := s.timerTicks - next.readySince
      let s := { s with maxWaitTicks := max s.maxWaitTicks waitedTicks }
      let s := s.pushBlocked taskId
      ({ switched := true
         previousTask := taskId
         nextTask := next.taskId
         waitedTicks
         starvationGuard },
        { s with
          currentTask := next.taskId
          lastTask := next.taskId
          contextSwitches := satAdd s.contextSwitches 1
          blockEvents := satAdd s.blockEvents 1
          blockingSwitches := satAdd s.blockingSwitches 1
          starvationPreventions :=
            if starvationGuard then satAdd s.starvationPreventions 1 else s.starvationPreventions
          lastSwitchTick := s.timerTicks
          sliceTicks := 0 })

def failWakeup (s : Scheduler) : Scheduler := { s with failedWakeups := satAdd s.failedWakeups 1 }

def wakeTask (s : Scheduler) (taskId : Nat) : Bool × Scheduler :=
  if taskId = 0 then (false, s.failWakeup)
  else if s.currentTask == taskId || s.contains taskId then (true, s)
  else
    match s.removeBlocked taskId with
    | (false, s) => (false, s.failWakeup)
    | (true, s) =>
        match s.enqueueAt taskId s.timerTicks with
        | (false, s) => (false, (s.pushBlocked taskId).failWakeup)
        | (true, s) => (true, { s with wakeEvents := satAdd s.wakeEvents 1 })

/-! ### The timer -/

/-- The public `on_timer_tick`. -/
def onTimerTick (s : Scheduler) : Scheduler :=
  if s.initialized then
    let s := { s with timerTicks := satAdd s.timerTicks 1 }
    if s.currentTask ≠ 0 then
      { s with
        accountedTicks := satAdd s.accountedTicks 1
        sliceTicks := satAdd s.sliceTicks 1 }
    else s
  else s

def preemptCurrent (s : Scheduler) : PreemptionDecision × Scheduler :=
  let previousTask := s.currentTask
  if !s.initialized || previousTask == 0 || s.len == 0
      || decide (s.sliceTicks < s.quantumTicks) then
    (PreemptionDecision.none previousTask, s)
  else
    let (offset, starvationGuard) := s.selectNextOffset
    let (next, s) := s.removeAt offset
    if next.taskId = 0 then (PreemptionDecision.none previousTask, s)
    else
      let waitedTicks := s.timerTicks - next.readySince
      let s := { s with maxWaitTicks := max s.maxWaitTicks waitedTicks, currentTask := 0 }
      match s.enqueueAt previousTask s.timerTicks with
      | (false, s) =>
          let s := { s with currentTask := previousTask }
          (PreemptionDecision.none previousTask, (s.enqueueAt next.taskId next.readySince).2)
      | (true, s) =>
          ({ switched := true
             previousTask
             nextTask := next.taskId
             waitedTicks
             starvationGuard },
            { s with
              currentTask := next.taskId
              lastTask := next.taskId
              contextSwitches := satAdd s.contextSwitches 1
              timerPreemptions := satAdd s.timerPreemptions 1
              roundRobinRotations := satAdd s.roundRobinRotations 1
              starvationPreventions :=
                if starvationGuard then satAdd s.starvationPreventions 1
                else s.starvationPreventions
              lastSwitchTick := s.timerTicks
              sliceTicks := 0 })

end Scheduler

end CloudOS
