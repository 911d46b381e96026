import CloudOS.Ipc.Mailbox
import CloudOS.Process.Reachable

/-!
What the exit of a child does to a parent that waits for a message.

`wake_waiting_parent` tells the reasons for being blocked apart by `wait_target`
alone, and `wait_target` is 0 both for a parent that waits for any child and for
one that is not waiting for a child at all. So the exit of any child takes the
parent out of its receive, and leaves the endpoint believing that the parent is
still in it.
-/

namespace CloudOS.Process

open Lib.Word (maxWord)

/-- The task in slot `i` waits for a message after the step as it did before. -/
structure StillWaiting (s s' : System) (i : Fin maxTasks) : Prop where
  state : (s'.table.task i).state = .blocked
  listed : (s.table.task i).id ∈ s'.scheduler.blockedTasks
  flag : (s'.table.task i).ipcWaiting = (s.table.task i).ipcWaiting
  endpoint : s'.ipc.waiting (s.table.task i).id = s.ipc.waiting (s.table.task i).id
  /-- A later message to it wakes it. -/
  wakes : ∀ sender bytes sequence ipc,
    s'.ipc.send sender (s.table.task i).id bytes = (.ok (sequence, true), ipc) →
    (s'.send sender (s.table.task i).id bytes).1 = .ok sequence ∧
      ((s'.send sender (s.table.task i).id bytes).2.table.task i).state = .ready ∧
      ((s'.send sender (s.table.task i).id bytes).2.table.task i).ipcWakeReason = .message

namespace System

variable {s : System} {issued : Nat}

/-- A message for a task that waits for one wakes it. -/
theorem send_wakes (agrees : s.Agrees issued) {i : Fin maxTasks}
    (blocked : (s.table.task i).state = .blocked) (receiving : (s.table.task i).ipcWaiting = true)
    {sender sequence : Nat} {bytes : List UInt8} {ipc : Ipc.IpcState}
    (sent : s.ipc.send sender (s.table.task i).id bytes = (.ok (sequence, true), ipc)) :
    (s.send sender (s.table.task i).id bytes).1 = .ok sequence ∧
      (s.send sender (s.table.task i).id bytes).2.table.task i =
        (s.table.task i).woken .message := by
  obtain ⟨scheduler, woken⟩ := endIpcWait_wakes (s := { s with ipc }) agrees blocked receiving
    .message
  unfold send
  rw [sent]
  dsimp only
  unfold finishSendLocked wakeFromIpc
  rw [if_pos rfl, woken]
  refine ⟨rfl, ?_⟩
  refine (congrFun (ProcessTable.task_of_slots (t := s.table) rfl) i).trans ?_
  rw [Function.update_self]
  rfl

/-- `wake_waiting_parent` takes a blocked parent for one that waits for the child. -/
theorem wakeWaitingParent_of_target (agrees : s.Agrees issued) {i : Fin maxTasks} (childId : Nat)
    (blocked : (s.table.task i).state = .blocked)
    (target : (s.table.task i).waitTarget = 0 ∨ (s.table.task i).waitTarget = childId) :
    ((s.wakeWaitingParent (s.table.task i).id childId).2.table.task i).state = .ready := by
  have found := agrees.findTask (i := i) (by rw [blocked]; decide)
  obtain ⟨scheduler, wakes, -⟩ := Agree.wakes agrees blocked
  unfold wakeWaitingParent
  rw [found]
  dsimp only
  rw [if_neg (by simpa [blocked, or_iff_not_imp_left] using target), wakes]
  refine (congrArg Task.state (congrFun (ProcessTable.task_of_slots (t := s.table) rfl) i)).trans ?_
  rw [Function.update_self]

theorem wakeWaitingParent_of_other {i : Fin maxTasks} {parentId childId : Nat}
    (found : s.table.findTask parentId = some i)
    (target : (s.table.task i).waitTarget ≠ 0 ∧ (s.table.task i).waitTarget ≠ childId) :
    s.wakeWaitingParent parentId childId = (false, s) := by
  unfold wakeWaitingParent
  rw [found]
  exact if_pos (by simp [target])

/-- `mark_exited` for a task with a parent. -/
theorem markExited_child {id : Nat} {j : Fin maxTasks} (found : s.table.findTask id = some j)
    (parent : (s.table.task j).parentId ≠ 0) (exitCode syscallsAfter : Nat) :
    (s.markExited id exitCode syscallsAfter).2 = ((s.retire j id exitCode
      syscallsAfter).wakeWaitingParent (s.table.task j).parentId id).2 := by
  unfold markExited
  rw [found]
  exact if_pos parent

/-- The parent goes on waiting exactly when it waits for another child. -/
theorem markExited_stillWaiting_iff (agrees : s.Agrees issued) {i j : Fin maxTasks}
    (blocked : (s.table.task i).state = .blocked) (receiving : (s.table.task i).ipcWaiting = true)
    (child : (s.table.task j).state ≠ .empty)
    (parent : (s.table.task j).parentId = (s.table.task i).id) (exitCode syscallsAfter : Nat) :
    StillWaiting s (s.markExited (s.table.task j).id exitCode syscallsAfter).2 i ↔
      (s.table.task i).waitTarget ≠ 0 ∧ (s.table.task i).waitTarget ≠ (s.table.task j).id := by
  have occupied : (s.table.task i).state ≠ .empty := by
    rw [blocked]
    decide
  have positive := (Agree.ids agrees i occupied).1
  have younger := Agree.parents agrees j child
  have differ : (s.table.task i).id ≠ (s.table.task j).id := by omega
  have other : i ≠ j := by
    rintro rfl
    exact differ rfl
  rw [markExited_child (agrees.findTask child) (by omega), parent]
  have retired := retire_agrees agrees child exitCode syscallsAfter
  have same := s.retire_task j (s.table.task j).id exitCode syscallsAfter other
  have blockedTasks : (s.retire j (s.table.task j).id exitCode syscallsAfter).scheduler.blockedTasks =
      s.scheduler.blockedTasks.erase (s.table.task j).id := by
    rw [retire_scheduler]
    exact Scheduler.blockedTasks_of_places
      (Scheduler.Sound.finishTask (Agree.sound agrees) (s.table.task j).id).1
  have messages : (s.retire j (s.table.task j).id exitCode syscallsAfter).ipc = s.ipc := rfl
  generalize s.retire j (s.table.task j).id exitCode syscallsAfter = s' at *
  rw [← same] at blocked receiving occupied
  constructor
  · intro still
    by_contra wanted
    have awake := wakeWaitingParent_of_target retired (s.table.task j).id blocked
      (by rw [same]; tauto)
    rw [same, still.state] at awake
    cases awake
  · intro target
    rw [wakeWaitingParent_of_other (same ▸ retired.findTask occupied) (same ▸ target)]
    refine ⟨blocked, ?_, congrArg Task.ipcWaiting same, by rw [messages], ?_⟩
    · rw [blockedTasks]
      exact (List.mem_erase_of_ne differ).mpr (Agree.blocked agrees i (same ▸ blocked))
    · intro sender bytes sequence ipc sent
      rw [← same] at sent ⊢
      obtain ⟨delivered, woken⟩ := send_wakes retired blocked receiving sent
      exact ⟨delivered, congrArg Task.state woken, congrArg Task.ipcWakeReason woken⟩

end System

/-- In every run that issues fewer than 2^64 task ids: the exit of a child leaves
a parent in its receive exactly when the parent was also made to wait for
another child. -/
theorem childExit_stillWaiting_iff (ops : List Op) (few : spawnCount ops ≤ maxWord)
    {i j : Fin maxTasks} (blocked : ((run .boot ops).table.task i).state = .blocked)
    (receiving : ((run .boot ops).table.task i).ipcWaiting = true)
    (child : ((run .boot ops).table.task j).state ≠ .empty)
    (parent : ((run .boot ops).table.task j).parentId = ((run .boot ops).table.task i).id)
    (exitCode syscallsAfter : Nat) :
    StillWaiting (run .boot ops) ((run .boot ops).markExited ((run .boot ops).table.task j).id
        exitCode syscallsAfter).2 i ↔
      ((run .boot ops).table.task i).waitTarget ≠ 0 ∧
        ((run .boot ops).table.task i).waitTarget ≠ ((run .boot ops).table.task j).id := by
  obtain ⟨issued, -, agrees⟩ := run_agrees boot_agrees ops (by omega)
  exact System.markExited_stillWaiting_iff agrees blocked receiving child parent exitCode
    syscallsAfter

/-! ### A parent in a receive and its child -/

/-- Task 1 with its children 2 and 3 receives while its mailbox is empty. -/
def parentRun : List Op :=
  [.spawnElfChild 0 (some someImage) (some 64), .spawnElfChild 1 (some someImage) (some 128),
    .spawnElfChild 1 (some someImage) (some 192), .markRunning 1 0,
    .syscall blankMemory .receive 0x500000 blankFrame]

/-- The same, and task 1 is also made to wait for task 3. -/
def siblingRun : List Op := parentRun ++ [.waitChild 1 3]

theorem childExit_stillWaiting_iff_siblingRun :
    spawnCount siblingRun ≤ maxWord ∧
      (StillWaiting (run .boot siblingRun)
          ((run .boot siblingRun).markExited ((run .boot siblingRun).table.task 1).id 7 0).2 0 ↔
        ((run .boot siblingRun).table.task 0).waitTarget ≠ 0 ∧
          ((run .boot siblingRun).table.task 0).waitTarget ≠
            ((run .boot siblingRun).table.task 1).id) ∧
      ((run .boot siblingRun).table.task 0).waitTarget = 3 ∧
      ((run .boot siblingRun).table.task 1).id = 2 :=
  ⟨by decide +kernel, childExit_stillWaiting_iff siblingRun (by decide +kernel) (by decide +kernel)
    (by decide +kernel) (by decide +kernel) (by decide +kernel) 7 0, by decide +kernel,
    by decide +kernel⟩

/-- A parent that only waits for a message does not always stay there. -/
theorem childExit_ends_receive :
    ¬ ∀ (ops : List Op) (i j : Fin maxTasks) (exitCode syscallsAfter : Nat),
      ((run .boot ops).table.task i).state = .blocked →
      ((run .boot ops).table.task i).ipcWaiting = true →
      ((run .boot ops).table.task i).waitTarget = 0 →
      ((run .boot ops).table.task j).state ≠ .empty →
      ((run .boot ops).table.task j).parentId = ((run .boot ops).table.task i).id →
      StillWaiting (run .boot ops) ((run .boot ops).markExited ((run .boot ops).table.task j).id
        exitCode syscallsAfter).2 i := by
  intro claim
  have still := (claim parentRun 0 1 7 0 (by decide +kernel) (by decide +kernel)
    (by decide +kernel) (by decide +kernel) (by decide +kernel)).state
  have awake : (((run .boot parentRun).markExited ((run .boot parentRun).table.task 1).id
      7 0).2.table.task 0).state = .ready := by decide +kernel
  rw [awake] at still
  cases still

/-- The endpoint of the parent does not know, so the next message fails to wake it. -/
example : (((run .boot parentRun).markExited 2 7 0).2.send 3 1 [7]).1 = .error .wakeFailed := by
  decide +kernel

end CloudOS.Process
