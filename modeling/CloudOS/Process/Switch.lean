import CloudOS.Process.Run
import CloudOS.Scheduler.Placement

/-!
The two task switches, as changes of the tasks and their places.

`block_for_ipc_syscall` blocks the current task and `on_timer_interrupt` puts it
back into the queue; both then start the task the scheduler selected. Each has a
point of no return: when that task cannot run, its place has changed already.
-/

namespace CloudOS.Process

open Lib.Scan (first first_eq_some first_eq_none)

/-! ### The table -/

namespace ProcessTable

/-- Whether the registers of the task in slot `i` are known. -/
def valid (t : ProcessTable) (i : Fin maxTasks) : Bool := (t.slots i).contextValid

theorem findTask_eq_some {t : ProcessTable} {id : Nat} {i : Fin maxTasks}
    (found : t.findTask id = some i) : (t.task i).state ≠ .empty ∧ (t.task i).id = id := by
  have := first_eq_some found
  simpa using this

theorem findTask_eq_none {t : ProcessTable} {id : Nat} :
    t.findTask id = none ↔ ∀ i, (t.task i).state ≠ .empty → (t.task i).id ≠ id := by
  unfold findTask
  rw [first_eq_none]
  simp

theorem freeSlot_eq_some {t : ProcessTable} {i : Fin maxTasks} (found : t.freeSlot = some i) :
    (t.task i).live = false := by
  have := first_eq_some found
  simp only [Bool.or_eq_true, Bool.and_eq_true, beq_iff_eq] at this
  rcases this with state | ⟨⟨state, -⟩, -⟩
  · simp [Task.live, state]
  · simp [Task.live, state]

theorem task_of_slots {t t' : ProcessTable} {i : Fin maxTasks} {slot : ProcessSlot}
    (slots : t'.slots = Function.update t.slots i slot) :
    t'.task = Function.update t.task i slot.task := by
  funext j
  by_cases here : j = i
  · subst here
    simp [task, slots]
  · simp [task, slots, here]

theorem valid_of_slots {t t' : ProcessTable} {i : Fin maxTasks} {slot : ProcessSlot}
    (slots : t'.slots = Function.update t.slots i slot) :
    t'.valid = Function.update t.valid i slot.contextValid := by
  funext j
  by_cases here : j = i
  · subst here
    simp [valid, slots]
  · simp [valid, slots, here]

/-- Rewriting the task in a slot keeps its registers. -/
theorem valid_of_task {t t' : ProcessTable} {i : Fin maxTasks} {task : Task}
    (slots : t'.slots = Function.update t.slots i { t.slots i with task }) :
    t'.valid = t.valid := by
  rw [valid_of_slots slots]
  exact Function.update_eq_self i t.valid

theorem findTask_congr {t t' : ProcessTable} (tasks : t'.task = t.task) (id : Nat) :
    t'.findTask id = t.findTask id := by
  unfold findTask
  rw [tasks]

end ProcessTable

/-- The same task has the id. -/
theorem findTask_of_same {s s' : System} (ids : ∀ i, (s'.table.task i).id = (s.table.task i).id)
    (empty : ∀ i, (s'.table.task i).state = .empty ↔ (s.table.task i).state = .empty) (id : Nat) :
    s'.table.findTask id = s.table.findTask id := by
  unfold ProcessTable.findTask
  congr 1
  funext i
  rw [ids i]
  congr 1
  by_cases vacant : (s.table.task i).state = .empty
  · rw [vacant, (empty i).mpr vacant]
  · have vacant' := mt (empty i).mp vacant
    rw [bne_iff_ne.mpr vacant, bne_iff_ne.mpr vacant']

theorem Task.live_iff {task : Task} :
    task.live = true ↔ task.state ≠ .empty ∧ task.state ≠ .exited := by
  simp [Task.live]

namespace System

theorem live_of_state {task : Task} (state : task.state = .ready ∨ task.state = .running ∨
    task.state = .blocked) : task.live = true := by
  rcases state with state | state | state
  · simp [Task.live, state]
  · simp [Task.live, state]
  · simp [Task.live, state]

theorem live_of_blocked {task : Task} (blocked : task.state = .blocked) : task.live = true :=
  live_of_state (.inr (.inr blocked))

theorem task_modify (s : System) (i : Fin maxTasks) (f : Task → Task) :
    (s.modify i f).table.task = Function.update s.table.task i (f (s.table.task i)) := by
  rw [show (s.modify i f).table.task = _ from ProcessTable.task_of_slots rfl]
  rfl

theorem valid_modify (s : System) (i : Fin maxTasks) (f : Task → Task) :
    (s.modify i f).table.valid = s.table.valid :=
  ProcessTable.valid_of_task rfl

theorem task_saveContext (s : System) (i : Fin maxTasks) (context : TimerContext) :
    (s.saveContext i context).table.task = s.table.task := by
  rw [show (s.saveContext i context).table.task = _ from ProcessTable.task_of_slots rfl]
  exact Function.update_eq_self i s.table.task

theorem valid_saveContext (s : System) (i : Fin maxTasks) (context : TimerContext) :
    (s.saveContext i context).table.valid = Function.update s.table.valid i true := by
  rw [show (s.saveContext i context).table.valid = _ from ProcessTable.valid_of_slots rfl]

/-! ### Blocking in a system call -/

/-- Not the tasks' business. -/
structure Beside (s s' : System) : Prop where
  next : s'.table.nextTaskId = s.table.nextTaskId
  ipc : s'.ipc = s.ipc

/-- What `block_for_ipc_syscall` does. -/
inductive BlockResult (s : System) (taskId deadlineTick : Nat) :
    Option Nat → System → Prop
  | refused : BlockResult s taskId deadlineTick none s
  | saved {i : Fin maxTasks} {context : TimerContext} (found : s.table.findTask taskId = some i) :
      BlockResult s taskId deadlineTick none (s.saveContext i context)
  | stuck {i : Fin maxTasks} {context : TimerContext} {next : Nat} {scheduler : Scheduler}
      (found : s.table.findTask taskId = some i)
      (isCurrent : s.scheduler.currentTask = taskId) (nonzero : taskId ≠ 0)
      (mem : next ∈ s.scheduler.queued)
      (places : scheduler.placement = s.scheduler.placement.dispatch next)
      (sound : scheduler.Sound)
      (unfit : ∀ j, s.table.findTask next = some j →
        s.table.valid j = false ∨ (s.table.task j).addressSpaceRoot = 0) :
      BlockResult s taskId deadlineTick none { s.saveContext i context with scheduler }
  | switched (waited : Nat) {i j : Fin maxTasks} {next root : Nat} {s' : System}
      (found : s.table.findTask taskId = some i) (target : s.table.findTask next = some j)
      (other : j ≠ i)
      (isCurrent : s.scheduler.currentTask = taskId) (nonzero : taskId ≠ 0)
      (mem : next ∈ s.scheduler.queued)
      (places : s'.scheduler.placement = s.scheduler.placement.dispatch next)
      (sound : s'.scheduler.Sound) (beside : Beside s s')
      (tasks : s'.table.task = Function.update
        (Function.update s.table.task i ((s.table.task i).asleep deadlineTick)) j
        ((s.table.task j).scheduled s.ticks waited))
      (valid : s'.table.valid = Function.update s.table.valid i true) :
      BlockResult s taskId deadlineTick (some root) s'

/-- A blocked task hands over to the next one, or is not blocked. -/
theorem blockForIpcSyscall_result {s : System} (sound : s.scheduler.Sound) (taskId : Nat)
    (frame : SyscallFrame) (deadlineTick : Nat) :
    BlockResult s taskId deadlineTick (s.blockForIpcSyscall taskId frame deadlineTick).1
      (s.blockForIpcSyscall taskId frame deadlineTick).2.2 := by
  unfold blockForIpcSyscall
  cases found : s.table.findTask taskId with
  | none => exact .refused
  | some i =>
      dsimp only
      split
      · exact .refused
      have sameTasks := s.task_saveContext i (saveSyscallContext frame true)
      have sameFind := ProcessTable.findTask_congr sameTasks
      have validity := s.valid_saveContext i (saveSyscallContext frame true)
      rcases sound.blockCurrentAndDispatch_cases taskId with ⟨decision, eq, unswitched⟩ |
        ⟨decision, scheduler, eq, switched, previous, isCurrent, nonzero, mem, places, sound'⟩
      · rw [show (s.saveContext i (saveSyscallContext frame true)).scheduler = s.scheduler from rfl,
          eq, if_pos (by simp [unswitched])]
        exact .saved found
      · rw [show (s.saveContext i (saveSyscallContext frame true)).scheduler = s.scheduler from rfl,
          eq, if_neg (by simp [switched, previous]), sameFind]
        cases target : s.table.findTask decision.nextTask with
        | none =>
            refine .stuck found isCurrent nonzero mem places sound' fun j isSome => ?_
            rw [target] at isSome
            cases isSome
        | some j =>
            have other : j ≠ i := by
              rintro rfl
              have same := (ProcessTable.findTask_eq_some target).2.symm.trans
                (ProcessTable.findTask_eq_some found).2
              rw [same, ← isCurrent] at mem
              exact sound.places.current.1 mem
            dsimp only
            split
            · rename_i unfit
              refine .stuck found isCurrent nonzero mem places sound' fun j' isSome => ?_
              rw [target] at isSome
              cases isSome
              simp only [Bool.or_eq_true, Bool.not_eq_true', beq_iff_eq] at unfit
              rcases unfit with invalid | rootless
              · have := congrFun validity j
                rw [Function.update_of_ne other] at this
                exact Or.inl (this.symm.trans invalid)
              · have := congrFun sameTasks j
                exact Or.inr (this ▸ rootless)
            · let sleeping := ({ s.saveContext i (saveSyscallContext frame true) with
                scheduler } : System).modify i fun task => task.asleep deadlineTick
              let started := sleeping.modify j fun task => task.scheduled s.ticks decision.waitedTicks
              have tasks : started.table.task = _ := task_modify sleeping j _
              have valid : started.table.valid = _ := valid_modify sleeping j _
              rw [show sleeping.table.task = _ from task_modify _ i _,
                Function.update_of_ne other] at tasks
              rw [show sleeping.table.valid = _ from valid_modify _ i _] at valid
              dsimp only at tasks valid
              rw [sameTasks] at tasks
              rw [validity] at valid
              exact .switched decision.waitedTicks found target other isCurrent nonzero mem places
                sound' ⟨rfl, rfl⟩ tasks valid

/-! ### Preemption -/

/-- What `on_timer_interrupt` does. -/
inductive PreemptResult (s : System) : System → Prop
  | idle {s' : System} (beside : Beside s s') (scheduled : s'.scheduler = s.scheduler)
      (tasks : s'.table.task = s.table.task) (valid : s'.table.valid = s.table.valid) :
      PreemptResult s s'
  | stuck {next : Nat} {s' : System} (running : s.scheduler.currentTask ≠ 0)
      (mem : next ∈ s.scheduler.queued)
      (places : s'.scheduler.placement = s.scheduler.placement.rotate next)
      (sound : s'.scheduler.Sound) (beside : Beside s s')
      (tasks : s'.table.task = s.table.task ∨ ∃ i,
        s.table.findTask s.scheduler.currentTask = some i ∧
        s'.table.task = Function.update s.table.task i (s.table.task i).preempted)
      (unfit : ∀ i j, s.table.findTask s.scheduler.currentTask = some i →
        s.table.findTask next = some j →
        s.table.valid j = false ∨ (s.table.task j).addressSpaceRoot = 0) :
      PreemptResult s s'
  | switched (waited : Nat) {i j : Fin maxTasks} {next : Nat} {s' : System}
      (found : s.table.findTask s.scheduler.currentTask = some i)
      (target : s.table.findTask next = some j) (other : j ≠ i)
      (running : s.scheduler.currentTask ≠ 0)
      (mem : next ∈ s.scheduler.queued)
      (places : s'.scheduler.placement = s.scheduler.placement.rotate next)
      (sound : s'.scheduler.Sound) (beside : Beside s s')
      (tasks : s'.table.task = Function.update
        (Function.update s.table.task i (s.table.task i).preempted) j
        ((s.table.task j).scheduled s.ticks waited))
      (valid : s'.table.valid = Function.update s.table.valid i true) :
      PreemptResult s s'

/-- What a tick does to the current task. -/
theorem onTimerInterrupt_result {s : System} (sound : s.scheduler.Sound) (context : TimerContext) :
    PreemptResult s (s.onTimerInterrupt context).2.2 := by
  unfold onTimerInterrupt
  split
  · exact .idle ⟨rfl, rfl⟩ rfl rfl rfl
  split
  · exact .idle ⟨rfl, rfl⟩ rfl rfl rfl
  rcases sound.preemptCurrent_cases with ⟨decision, eq, unswitched⟩ |
    ⟨decision, scheduler, eq, switched, previous, running, mem, places, sound'⟩
  · rw [eq]
    dsimp only
    rw [if_pos (by simp [unswitched])]
    exact .idle ⟨rfl, rfl⟩ rfl rfl rfl
  · rw [eq]
    dsimp only
    rw [if_neg (by simp [switched]), previous]
    cases found : s.table.findTask s.scheduler.currentTask with
    | none =>
        refine .stuck running mem places sound' ⟨rfl, rfl⟩ (Or.inl rfl) fun i j isSome => ?_
        rw [found] at isSome
        cases isSome
    | some i =>
        cases target : s.table.findTask decision.nextTask with
        | none =>
            refine .stuck running mem places sound' ⟨rfl, rfl⟩ (Or.inl rfl) fun i j _ isSome => ?_
            rw [target] at isSome
            cases isSome
        | some j =>
            have other : j ≠ i := by
              rintro rfl
              have same := (ProcessTable.findTask_eq_some target).2.symm.trans
                (ProcessTable.findTask_eq_some found).2
              rw [same] at mem
              exact sound.places.current.1 mem
            let rotated := { s with scheduler }
            let ready := (rotated.saveContext i context).modify i Task.preempted
            have tasks : ready.table.task = _ := task_modify (rotated.saveContext i context) i _
            have valid : ready.table.valid = _ := valid_modify (rotated.saveContext i context) i _
            rw [show (rotated.saveContext i context).table.task = s.table.task from
              task_saveContext rotated i context] at tasks
            rw [show (rotated.saveContext i context).table.valid = _ from
              valid_saveContext rotated i context] at valid
            dsimp only
            split
            · rename_i unfit
              refine .stuck running mem places sound' ⟨rfl, rfl⟩ (Or.inr ⟨i, found, tasks⟩)
                fun i' j' _ isSome => ?_
              rw [target] at isSome
              cases isSome
              simp only [Bool.or_eq_true, Bool.not_eq_true', beq_iff_eq] at unfit
              rcases unfit with invalid | rootless
              · have same := congrFun valid j
                rw [Function.update_of_ne other] at same
                exact Or.inl (same.symm.trans invalid)
              · have same := congrFun tasks j
                rw [Function.update_of_ne other] at same
                exact Or.inr (same ▸ rootless)
            · let started := ready.modify j fun task => task.scheduled s.ticks decision.waitedTicks
              have tasks' : started.table.task = _ := task_modify ready j _
              have valid' : started.table.valid = _ := valid_modify ready j _
              rw [tasks, Function.update_of_ne other] at tasks'
              rw [valid] at valid'
              exact .switched decision.waitedTicks found target other running mem places sound'
                ⟨rfl, rfl⟩ tasks' valid'

end System

end CloudOS.Process
