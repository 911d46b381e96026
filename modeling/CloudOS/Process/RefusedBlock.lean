import CloudOS.Ipc.Mailbox
import CloudOS.Process.RestartPending
import CloudOS.Scheduler.Placement

/-!
What a refused block leaves behind.

`receive` and `block_syscall` set the waiting flag of the endpoint, try to block the
task and, where that is refused, set the flag to `false`. So a flag that was set before
is lost. `block_for_ipc_syscall` also switches the scheduler before it looks at the task
that is next in line; if that task cannot run, the switch stays. In every other case a
refusal changes nothing.
-/

namespace CloudOS

open Lib.Word (satAdd)

/-! ### Refusals of the scheduler -/

namespace Scheduler

/-- `block_task` accepts the task. -/
def Blocks (s : Scheduler) (taskId : Nat) : Prop :=
  taskId ≠ 0 ∧ (taskId ∈ s.blockedTasks ∨
    s.blockedLen < queueCapacity ∧ (s.currentTask = taskId ∨ taskId ∈ s.queued))

theorem remove_of_not_mem {s : Scheduler} {taskId : Nat} (absent : taskId ∉ s.queued) :
    s.remove taskId = (false, s) := by
  unfold remove
  rw [List.idxOf?_eq_none_iff.mpr absent]

theorem remove_of_mem {s : Scheduler} {taskId : Nat} (mem : taskId ∈ s.queued) :
    (s.remove taskId).1 = true := by
  unfold remove
  cases at_ : s.queued.idxOf? taskId with
  | none => exact absurd mem (List.idxOf?_eq_none_iff.mp at_)
  | some offset => rfl

/-- A refusal leaves the scheduler as it was. -/
theorem blockTask_spec (s : Scheduler) (taskId : Nat) :
    (s.Blocks taskId ∧ (s.blockTask taskId).1 = true) ∨
      (¬ s.Blocks taskId ∧ s.blockTask taskId = (false, s)) := by
  unfold blockTask Blocks
  by_cases zero : taskId = 0
  · rw [if_pos zero]
    exact Or.inr ⟨fun blocks => blocks.1 zero, rfl⟩
  rw [if_neg zero]
  by_cases blocked : taskId ∈ s.blockedTasks
  · rw [if_pos (by simpa [containsBlocked] using blocked)]
    exact Or.inl ⟨⟨zero, Or.inl blocked⟩, rfl⟩
  rw [if_neg (by simpa [containsBlocked] using blocked)]
  by_cases full : s.blockedLen ≥ queueCapacity
  · rw [if_pos full]
    refine Or.inr ⟨fun blocks => ?_, rfl⟩
    rcases blocks.2 with mem | room
    · exact blocked mem
    · exact absurd room.1 (Nat.not_lt.mpr full)
  rw [if_neg full]
  have room : s.blockedLen < queueCapacity := Nat.not_le.mp full
  by_cases isCurrent : s.currentTask = taskId
  · rw [if_pos isCurrent]
    exact Or.inl ⟨⟨zero, Or.inr ⟨room, Or.inl isCurrent⟩⟩, rfl⟩
  rw [if_neg isCurrent]
  by_cases mem : taskId ∈ s.queued
  · have removed := remove_of_mem mem
    generalize s.remove taskId = result at removed
    obtain ⟨known, s'⟩ := result
    subst removed
    exact Or.inl ⟨⟨zero, Or.inr ⟨room, Or.inr mem⟩⟩, rfl⟩
  · rw [remove_of_not_mem mem]
    refine Or.inr ⟨fun blocks => ?_, rfl⟩
    rcases blocks.2 with inList | ⟨-, current | queued⟩
    · exact blocked inList
    · exact isCurrent current
    · exact mem queued

/-- `block_current_and_dispatch` takes a task from the queue. -/
def Draws (s : Scheduler) (taskId : Nat) : Prop :=
  s.initialized = true ∧ taskId ≠ 0 ∧ s.currentTask = taskId ∧ 0 < s.len ∧
    s.blockedLen < queueCapacity

/-- The task that is next in line. -/
def nextInLine (s : Scheduler) : Nat := (s.removeAt s.selectNextOffset.1).1.taskId

/-- Without a task to dispatch, the scheduler stays as it is. -/
theorem blockCurrentAndDispatch_of_not_draws {s : Scheduler} {taskId : Nat}
    (idle : ¬ s.Draws taskId) :
    s.blockCurrentAndDispatch taskId = (PreemptionDecision.none s.currentTask, s) := by
  unfold blockCurrentAndDispatch
  rw [if_pos]
  unfold Draws at idle
  simp only [Bool.or_eq_true, Bool.not_eq_true', beq_iff_eq, bne_iff_ne, ne_eq, decide_eq_true_eq]
  by_contra ready
  simp only [not_or, Bool.not_eq_false, not_not, not_le] at ready
  obtain ⟨⟨⟨⟨up, nonzero⟩, isCurrent⟩, nonempty⟩, room⟩ := ready
  exact idle ⟨up, nonzero, isCurrent, Nat.pos_of_ne_zero nonempty, room⟩

/-- The queue loses a task, which is handed out if its id is one. -/
theorem blockCurrentAndDispatch_of_draws {s : Scheduler} {taskId : Nat} (draws : s.Draws taskId) :
    ∃ decision s', s.blockCurrentAndDispatch taskId = (decision, s') ∧
      s'.queued.length + 1 = s.queued.length ∧
      (decision.switched = true ↔ s.nextInLine ≠ 0) ∧
      (decision.switched = true → decision.previousTask = taskId ∧
        decision.nextTask = s.nextInLine) := by
  obtain ⟨up, nonzero, isCurrent, nonempty, room⟩ := draws
  have inside := selectNextOffset_lt nonempty
  have shorter : (s.removeAt s.selectNextOffset.1).2.len + 1 = s.len := by
    unfold removeAt
    rw [if_neg (Nat.not_le.mpr inside)]
    dsimp only
    omega
  unfold blockCurrentAndDispatch
  rw [if_neg (by simp [up, nonzero, isCurrent, nonempty.ne', room])]
  dsimp only
  unfold nextInLine
  generalize s.removeAt s.selectNextOffset.1 = result at shorter
  obtain ⟨next, s'⟩ := result
  dsimp only at shorter ⊢
  split
  · rename_i zero
    refine ⟨_, _, rfl, ?_, ?_, nofun⟩
    · rw [length_queued, length_queued]
      exact shorter
    · exact iff_of_false nofun fun other => other zero
  · rename_i taken
    refine ⟨_, _, rfl, ?_, iff_of_true rfl taken, fun _ => ⟨rfl, rfl⟩⟩
    rw [length_queued, length_queued]
    exact shorter

end Scheduler

namespace Process

open CloudOS.Ipc (IpcState IpcError maxEndpoints)

/-! ### Refusals of the process table -/

/-- Nothing that the two calls could have touched is different. -/
structure Unchanged (s s' : System) (taskId : Nat) : Prop where
  waiting : s'.ipc.waiting taskId = s.ipc.waiting taskId
  tasks : s'.table.task = s.table.task
  placement : s'.scheduler.placement = s.scheduler.placement

namespace System

variable {s : System} {taskId : Nat}

/-- `block_for_ipc` accepts the task. -/
def Blockable (s : System) (taskId : Nat) : Prop :=
  s.scheduler.Blocks taskId ∧ ∃ i, s.table.findTask taskId = some i ∧
    ((s.table.task i).state = .ready ∨ (s.table.task i).state = .running) ∧
    (s.table.task i).waitTarget = 0 ∧ (s.table.task i).ipcWaiting = false

/-- `block_for_ipc_syscall` gets as far as taking a task from the queue. -/
def Dispatches (s : System) (taskId : Nat) : Prop :=
  s.scheduler.Draws taskId ∧ ∃ i, s.table.findTask taskId = some i ∧
    (s.table.task i).state = .running ∧ (s.table.task i).waitTarget = 0 ∧
    (s.table.task i).ipcWaiting = false ∧ (s.table.task i).ipcRestartPending = false

/-- The task that is next in line has registers and an address space. The registers of
the caller are saved by then. -/
def NextRuns (s : System) (taskId : Nat) : Prop :=
  s.scheduler.nextInLine ≠ 0 ∧ ∃ j, s.table.findTask s.scheduler.nextInLine = some j ∧
    (s.table.valid j = true ∨ s.scheduler.nextInLine = taskId) ∧
    (s.table.task j).addressSpaceRoot ≠ 0

/-- A task is blocked exactly when it can be. -/
theorem blockForIpc_spec (s : System) (taskId : Nat) :
    (s.Blockable taskId ∧ (s.blockForIpc taskId).1 = true) ∨
      (¬ s.Blockable taskId ∧ s.blockForIpc taskId = (false, s)) := by
  unfold blockForIpc Blockable
  cases found : s.table.findTask taskId with
  | none =>
      refine Or.inr ⟨?_, rfl⟩
      rintro ⟨-, i, eq, -⟩
      cases eq
  | some i =>
      dsimp only
      split
      · rename_i unable
        refine Or.inr ⟨?_, rfl⟩
        rintro ⟨-, i', eq, state, target, waiting⟩
        cases eq
        rcases state with state | state
        · simp [state, target, waiting] at unable
        · simp [state, target, waiting] at unable
      · rename_i able
        simp only [Bool.or_eq_true, Bool.not_eq_true', bne_iff_ne, ne_eq, not_or,
          Bool.not_eq_false, Bool.not_eq_true, not_not, beq_iff_eq] at able
        obtain ⟨⟨state, target⟩, waiting⟩ := able
        rcases s.scheduler.blockTask_spec taskId with ⟨blocks, accepted⟩ | ⟨refuses, eq⟩
        · generalize s.scheduler.blockTask taskId = result at accepted
          obtain ⟨blocked, scheduler⟩ := result
          subst accepted
          exact Or.inl ⟨⟨blocks, i, rfl, state, target, waiting⟩, rfl⟩
        · rw [eq]
          exact Or.inr ⟨fun blockable => refuses blockable.1, rfl⟩

/-- A call that gets no task from the queue leaves the scheduler as it was. -/
theorem blockForIpcSyscall_of_not_dispatches (idle : ¬ s.Dispatches taskId) (frame : SyscallFrame)
    (deadlineTick : Nat) : ∃ s', s.blockForIpcSyscall taskId frame deadlineTick =
      (none, frame, s') ∧ s'.scheduler = s.scheduler := by
  unfold blockForIpcSyscall
  cases found : s.table.findTask taskId with
  | none => exact ⟨s, rfl, rfl⟩
  | some i =>
      dsimp only
      split
      · exact ⟨s, rfl, rfl⟩
      rename_i able
      simp only [Bool.or_eq_true, bne_iff_ne, ne_eq, not_or, Bool.not_eq_true, not_not] at able
      obtain ⟨⟨⟨state, target⟩, waiting⟩, unmarked⟩ := able
      have undrawn : ¬ s.scheduler.Draws taskId := fun draws =>
        idle ⟨draws, i, found, state, target, waiting, unmarked⟩
      have eq := Scheduler.blockCurrentAndDispatch_of_not_draws undrawn
      rw [show (s.saveContext i (saveSyscallContext frame true)).scheduler = s.scheduler from rfl,
        eq, if_pos (by simp [PreemptionDecision.none])]
      exact ⟨_, rfl, rfl⟩

/-- A call that takes a task from the queue hands over to it, or leaves it out of the
queue. -/
theorem blockForIpcSyscall_of_dispatches (dispatches : s.Dispatches taskId) (frame : SyscallFrame)
    (deadlineTick : Nat) :
    (s.NextRuns taskId ∧
      ∃ root, (s.blockForIpcSyscall taskId frame deadlineTick).1 = some root) ∨
    (¬ s.NextRuns taskId ∧ ∃ s', s.blockForIpcSyscall taskId frame deadlineTick =
      (none, frame, s') ∧ s'.scheduler.queued.length + 1 = s.scheduler.queued.length) := by
  obtain ⟨draws, i, found, state, target, waiting, unmarked⟩ := dispatches
  obtain ⟨decision, scheduler, eq, shorter, switched, chosen⟩ :=
    Scheduler.blockCurrentAndDispatch_of_draws draws
  have sameTasks := s.task_saveContext i (saveSyscallContext frame true)
  have validity := s.valid_saveContext i (saveSyscallContext frame true)
  unfold blockForIpcSyscall NextRuns
  rw [found]
  dsimp only
  rw [if_neg (by simp [state, target, waiting, unmarked]),
    show (s.saveContext i (saveSyscallContext frame true)).scheduler = s.scheduler from rfl, eq]
  dsimp only
  by_cases zero : s.scheduler.nextInLine = 0
  · have idle : decision.switched = false :=
      Bool.not_eq_true _ |>.mp fun switches => switched.mp switches zero
    rw [if_pos (by simp [idle])]
    exact Or.inr ⟨fun runs => runs.1 zero, _, rfl, shorter⟩
  have switches : decision.switched = true := switched.mpr zero
  obtain ⟨previous, next⟩ := chosen switches
  rw [if_neg (by simp [switches, previous]), next, ProcessTable.findTask_congr sameTasks]
  cases isNext : s.table.findTask s.scheduler.nextInLine with
  | none =>
      refine Or.inr ⟨?_, _, rfl, shorter⟩
      rintro ⟨-, j, eq, -⟩
      cases eq
  | some j =>
      -- the caller's own registers were saved just now
      have saved : (s.saveContext i (saveSyscallContext frame true)).table.valid j = true ↔
          s.table.valid j = true ∨ s.scheduler.nextInLine = taskId := by
        rw [validity]
        by_cases same : j = i
        · subst same
          rw [Function.update_self]
          exact iff_of_true rfl (Or.inr ((ProcessTable.findTask_eq_some isNext).2.symm.trans
            (ProcessTable.findTask_eq_some found).2))
        · rw [Function.update_of_ne same]
          refine (or_iff_left fun eq => same ?_).symm
          rw [eq, found] at isNext
          exact (Option.some.inj isNext).symm
      have root := congrArg Task.addressSpaceRoot (congrFun sameTasks j)
      dsimp only
      split
      · rename_i unfit
        refine Or.inr ⟨?_, _, rfl, shorter⟩
        rintro ⟨-, j', eq, valid, nonzero⟩
        cases eq
        have valid := saved.mpr valid
        rw [← root] at nonzero
        simp only [Bool.or_eq_true, Bool.not_eq_true', beq_iff_eq] at unfit
        rcases unfit with invalid | rootless
        · exact Bool.false_ne_true (invalid.symm.trans valid)
        · exact nonzero rootless
      · rename_i fit
        simp only [Bool.or_eq_true, Bool.not_eq_true', beq_iff_eq, not_or, Bool.not_eq_false] at fit
        exact Or.inl ⟨⟨zero, j, rfl, saved.mp fit.1, root ▸ fit.2⟩, _, rfl⟩

end System

/-! ### The waiting flag -/

theorem waiting_setWaiting {ipc : IpcState} {taskId : Nat} {i : Fin maxEndpoints}
    (found : ipc.find taskId = some i) (waiting : Bool) :
    ∃ ipc', ipc.setWaiting taskId waiting = (.ok (), ipc') ∧ ipc'.find taskId = some i ∧
      ipc'.waiting taskId = some waiting := by
  have owners := ipc.setWaiting_owners taskId waiting
  unfold IpcState.setWaiting at owners ⊢
  rw [found] at owners ⊢
  dsimp only at owners ⊢
  have same := (IpcState.find_congr (fun e => congrFun owners e) taskId).trans found
  refine ⟨_, rfl, same, ?_⟩
  unfold IpcState.waiting
  rw [same, Option.map_some]
  unfold IpcState.mailboxes
  rw [Ipc.Endpoints.mailboxes_update, Function.update_self]
  rfl

/-! ### The two calls -/

namespace System

variable {s : System} {taskId : Nat}

/-- The task may receive, and its queue is empty. -/
def Starved (s : System) (taskId : Nat) : Prop :=
  (s.ipc.canReceive taskId).1 = .ok () ∧ s.ipc.hasMessage taskId = .ok false

/-- A refused `receive` clears a flag that was set. -/
def LostByReceive (s : System) (taskId : Nat) : Prop :=
  s.Starved taskId ∧ s.ipc.waiting taskId = some true ∧ ¬ s.Blockable taskId

/-- A refused `block_syscall` clears a flag that was set, or has dispatched a task that
cannot run. -/
def LostByBlock (s : System) (taskId : Nat) : Prop :=
  s.Starved taskId ∧ (s.ipc.waiting taskId = some true ∧ ¬ s.Dispatches taskId ∨
    s.Dispatches taskId ∧ ¬ s.NextRuns taskId)

/-- A flag that was set and then cleared is unchanged only if it was clear. -/
theorem unchanged_iff {s' : System} {i : Fin maxEndpoints} (found : s.ipc.find taskId = some i)
    (cleared : s'.ipc.waiting taskId = some false) (tasks : s'.table.task = s.table.task)
    (placement : s'.scheduler.placement = s.scheduler.placement) :
    Unchanged s s' taskId ↔ ¬ s.ipc.waiting taskId = some true := by
  have flag : s.ipc.waiting taskId = some (s.ipc.mailboxes i).waiting := by
    unfold IpcState.waiting
    rw [found, Option.map_some]
  cases waiting : (s.ipc.mailboxes i).waiting with
  | true =>
      rw [waiting] at flag
      refine iff_of_false (fun unchanged => ?_) (not_not.mpr flag)
      have same := unchanged.waiting
      rw [cleared, flag] at same
      cases same
  | false =>
      rw [waiting] at flag
      refine iff_of_true ⟨cleared.trans flag.symm, tasks, placement⟩ fun set => ?_
      rw [flag] at set
      cases set

/-- When a receive that could not block leaves everything as it was. -/
theorem receive_unchanged_iff (s : System) (taskId : Nat) (output : List UInt8) :
    ((s.receive taskId output true).1 = .error .blockFailed →
      Unchanged s (s.receive taskId output true).2.1 taskId) ↔
    ¬ s.LostByReceive taskId := by
  have receipt := s.ipc.receive_receipt taskId output
  unfold receive LostByReceive Starved
  generalize s.ipc.receive taskId output = result at receipt
  cases receipt with
  | denied denied other able =>
      dsimp only
      rw [if_neg (by simp [other]), denied]
      exact iff_of_true (fun failed => absurd (Except.error.inj failed) able) nofun
  | missing allowed missing =>
      refine iff_of_true nofun ?_
      rintro ⟨⟨-, empty⟩, -⟩
      unfold IpcState.hasMessage at empty
      rw [missing] at empty
      cases empty
  | small allowed found first small =>
      refine iff_of_true nofun ?_
      rintro ⟨⟨-, empty⟩, -⟩
      rw [IpcState.hasMessage_of_find found, first] at empty
      cases empty
  | accepted allowed found first fits pops =>
      refine iff_of_true nofun ?_
      rintro ⟨⟨-, empty⟩, -⟩
      rw [IpcState.hasMessage_of_find found, first] at empty
      cases empty
  | @empty i allowed found empty =>
      obtain ⟨ipc, eq, found', -⟩ := waiting_setWaiting found true
      obtain ⟨ipc', eq', -, cleared⟩ := waiting_setWaiting found' false
      dsimp only
      rw [if_pos (by rfl), eq]
      dsimp only
      rcases blockForIpc_spec { s with ipc } taskId with ⟨blockable, blocks⟩ | ⟨refuses, eq₁⟩
      · generalize blockForIpc { s with ipc } taskId = result at blocks
        obtain ⟨blocked, t⟩ := result
        subst blocks
        exact iff_of_true nofun fun lost => lost.2.2 blockable
      · rw [eq₁]
        dsimp only
        rw [eq']
        have starved : (s.ipc.canReceive taskId).1 = .ok () ∧
            s.ipc.hasMessage taskId = .ok false := by
          rw [allowed, IpcState.hasMessage_of_find found, empty]
          exact ⟨rfl, rfl⟩
        refine Iff.trans ⟨fun kept => kept rfl, fun unchanged _ => unchanged⟩ ?_
        have kept : Unchanged s { s with ipc := ipc' } taskId ↔ _ :=
          unchanged_iff found cleared rfl rfl
        refine kept.trans (not_congr ?_)
        exact ⟨fun set => ⟨starved, set, refuses⟩, fun lost => lost.2.1⟩

/-- The same for the system call, with its frame. -/
theorem blockSyscall_unchanged_iff (s : System) (taskId : Nat) (frame : SyscallFrame)
    (deadlineTick : Nat) :
    ((s.blockSyscall taskId frame deadlineTick).1 = .error .blockFailed →
      (s.blockSyscall taskId frame deadlineTick).2.1 = frame ∧
        Unchanged s (s.blockSyscall taskId frame deadlineTick).2.2 taskId) ↔
    ¬ s.LostByBlock taskId := by
  unfold blockSyscall LostByBlock Starved
  rcases s.ipc.canReceive_refusal taskId with allowed | ⟨error, ipc, denied, -, -, able⟩
  · rw [allowed]
    dsimp only
    cases empty : s.ipc.hasMessage taskId with
    | error error =>
        have missing : error = .endpointMissing := by
          unfold IpcState.hasMessage at empty
          split at empty
          · cases empty
            rfl
          · cases empty
        subst missing
        exact iff_of_true nofun fun lost => nomatch lost.1.2
    | ok queued =>
        cases queued with
        | true => exact iff_of_true nofun fun lost => nomatch lost.1.2
        | false =>
            obtain ⟨i, found, -⟩ := IpcState.hasMessage_eq_false empty
            obtain ⟨ipc, eq, found', -⟩ := waiting_setWaiting found true
            obtain ⟨ipc', eq', -, cleared⟩ := waiting_setWaiting found' false
            dsimp only
            rw [eq]
            dsimp only
            have starved : (Except.ok () : Except IpcError Unit) = .ok () ∧
                (Except.ok false : Except IpcError Bool) = .ok false := ⟨rfl, rfl⟩
            have sameIpc := blockForIpcSyscall_ipc { s with ipc } taskId frame deadlineTick
            by_cases dispatches : s.Dispatches taskId
            · rcases blockForIpcSyscall_of_dispatches (s := { s with ipc }) dispatches frame
                  deadlineTick with ⟨runs, root, blocks⟩ | ⟨stuck, s', refused, shorter⟩
              · generalize blockForIpcSyscall { s with ipc } taskId frame deadlineTick = result
                  at blocks
                obtain ⟨switched, frame', t⟩ := result
                subst blocks
                refine iff_of_true nofun ?_
                rintro ⟨-, ⟨-, idle⟩ | ⟨-, stuck⟩⟩
                · exact idle dispatches
                · exact stuck runs
              · rw [refused]
                refine iff_of_false (fun kept => ?_)
                  (not_not.mpr ⟨starved, Or.inr ⟨dispatches, stuck⟩⟩)
                have same := congrArg Placement.queued (kept rfl).2.placement
                have length := congrArg List.length same
                change s'.scheduler.queued.length = s.scheduler.queued.length at length
                change s'.scheduler.queued.length + 1 = s.scheduler.queued.length at shorter
                omega
            · obtain ⟨s', refused, scheduled⟩ := blockForIpcSyscall_of_not_dispatches
                (s := { s with ipc }) dispatches frame deadlineTick
              obtain ⟨-, tasks, -⟩ := blockForIpcSyscall_none refused
              rw [refused] at sameIpc ⊢
              dsimp only at sameIpc ⊢
              rw [sameIpc, eq']
              refine Iff.trans ⟨fun kept => (kept rfl).2, fun unchanged _ => ⟨rfl, unchanged⟩⟩ ?_
              have kept : Unchanged s { s' with ipc := ipc' } taskId ↔ _ :=
                unchanged_iff found cleared tasks (congrArg Scheduler.placement scheduled)
              refine kept.trans (not_congr ?_)
              refine ⟨fun set => ⟨starved, Or.inl ⟨set, dispatches⟩⟩, ?_⟩
              rintro ⟨-, ⟨set, -⟩ | ⟨dispatched, -⟩⟩
              · exact set
              · exact absurd dispatched dispatches
  · rw [denied]
    exact iff_of_true (fun failed => absurd (Except.error.inj failed) able) nofun

end System

/-- In every state, for every task, buffer, frame and deadline: a refused block changes
nothing, exactly where no flag was set before and no task was dispatched that cannot
run. -/
theorem refused_block_unchanged_iff (s : System) (taskId : Nat) (output : List UInt8)
    (frame : SyscallFrame) (deadlineTick : Nat) :
    (((s.receive taskId output true).1 = .error .blockFailed →
        Unchanged s (s.receive taskId output true).2.1 taskId) ↔ ¬ s.LostByReceive taskId) ∧
    (((s.blockSyscall taskId frame deadlineTick).1 = .error .blockFailed →
        (s.blockSyscall taskId frame deadlineTick).2.1 = frame ∧
          Unchanged s (s.blockSyscall taskId frame deadlineTick).2.2 taskId) ↔
      ¬ s.LostByBlock taskId) :=
  ⟨s.receive_unchanged_iff taskId output, s.blockSyscall_unchanged_iff taskId frame deadlineTick⟩

/-- The error of a call, if it failed. -/
def refusal {α : Type} : Except IpcError α → Option IpcError
  | .error error => some error
  | .ok _ => none

theorem eq_error_of_refusal {α : Type} {result : Except IpcError α} {error : IpcError}
    (refused : refusal result = some error) : result = .error error := by
  cases result with
  | ok value => cases refused
  | error error => cases refused; rfl

/-- Task 1 waits for a message. -/
def waitingRun : List Op :=
  [.spawnElfChild 0 (some someImage) (some 64), .spawnElfChild 0 (some someImage) (some 128),
    .markRunning 1 0, .syscall blankMemory .receive 0 blankFrame]

/-- Task 1 runs, and a task without an address space is next in line. -/
def legacyRun : List Op :=
  [.spawnElfChild 0 (some someImage) (some 64), .spawnLegacy 0x400000 0x800000 (some 128),
    .markRunning 1 0]

/-- The flag of a waiting task is lost, and a task that cannot run becomes the current
one. -/
theorem refused_block_not_unchanged :
    (¬ ∀ (ops : List Op) (taskId : Nat) (output : List UInt8),
      ((run .boot ops).receive taskId output true).1 = .error .blockFailed →
      Unchanged (run .boot ops) ((run .boot ops).receive taskId output true).2.1 taskId) ∧
    ¬ ∀ (ops : List Op) (taskId : Nat) (frame : SyscallFrame) (deadlineTick : Nat),
      ((run .boot ops).blockSyscall taskId frame deadlineTick).1 = .error .blockFailed →
      ((run .boot ops).blockSyscall taskId frame deadlineTick).2.1 = frame ∧
        Unchanged (run .boot ops) ((run .boot ops).blockSyscall taskId frame deadlineTick).2.2
          taskId := by
  constructor
  · intro claim
    have same := (claim waitingRun 1 [] (eq_error_of_refusal (by decide +kernel))).waiting
    have before : (run .boot waitingRun).ipc.waiting 1 = some true := by decide +kernel
    have after : ((run .boot waitingRun).receive 1 [] true).2.1.ipc.waiting 1 = some false := by
      decide +kernel
    rw [before, after] at same
    cases same
  · intro claim
    have same := (claim legacyRun 1 blankFrame 0
      (eq_error_of_refusal (by decide +kernel))).2.placement
    have current := congrArg Placement.current same
    have before : (run .boot legacyRun).scheduler.placement.current = 1 := by decide +kernel
    have after : ((run .boot legacyRun).blockSyscall 1 blankFrame
        0).2.2.scheduler.placement.current = 2 := by decide +kernel
    rw [before, after] at current
    cases current

end Process

end CloudOS
