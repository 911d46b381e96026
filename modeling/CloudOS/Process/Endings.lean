import CloudOS.Process.Switch

/-!
How the functions of `process.rs` that block and wake tasks leave the state.

Each of them is followed once here, through every branch of the source. An invariant is
then proved for the ways in which they end.
-/

namespace CloudOS.Process

open Lib.Word (satAdd)

namespace System

variable (s : System)

/-! ### Waking -/

/-- After `end_ipc_wait`. -/
inductive AfterEndIpcWait (taskId : Nat) (reason : IpcWakeReason) : System → Prop where
  | refuse : AfterEndIpcWait taskId reason s
  | stuck {i : Fin maxTasks} {scheduler : Scheduler} (found : s.table.findTask taskId = some i)
      (blocked : (s.table.task i).state = .blocked)
      (receiving : (s.table.task i).ipcWaiting = true)
      (wakes : s.scheduler.wakeTask taskId = (false, scheduler)) :
      AfterEndIpcWait taskId reason { s with scheduler }
  | wake {i : Fin maxTasks} {scheduler : Scheduler} (found : s.table.findTask taskId = some i)
      (blocked : (s.table.task i).state = .blocked)
      (receiving : (s.table.task i).ipcWaiting = true)
      (wakes : s.scheduler.wakeTask taskId = (true, scheduler)) :
      AfterEndIpcWait taskId reason ({ s with scheduler }.modify i fun task => task.woken reason)

theorem endIpcWait_after (taskId : Nat) (reason : IpcWakeReason) :
    AfterEndIpcWait s taskId reason (s.endIpcWait taskId reason).2 := by
  unfold endIpcWait
  cases found : s.table.findTask taskId with
  | none => exact .refuse
  | some i =>
      dsimp only
      split
      · exact .refuse
      rename_i waits
      simp only [Bool.or_eq_true, bne_iff_ne, Bool.not_eq_true', not_or, not_not,
        Bool.not_eq_false] at waits
      cases wakes : s.scheduler.wakeTask taskId with
      | mk succeeded scheduler =>
          cases succeeded with
          | false => exact .stuck found waits.1 waits.2 wakes
          | true => exact .wake found waits.1 waits.2 wakes

/-- After `wake_waiting_parent`. -/
inductive AfterWakeWaitingParent (parentId childId : Nat) : System → Prop where
  | refuse : AfterWakeWaitingParent parentId childId s
  | stuck {i : Fin maxTasks} {scheduler : Scheduler} (found : s.table.findTask parentId = some i)
      (blocked : (s.table.task i).state = .blocked)
      (wakes : s.scheduler.wakeTask parentId = (false, scheduler)) :
      AfterWakeWaitingParent parentId childId { s with scheduler }
  | wake {i : Fin maxTasks} {scheduler : Scheduler} (found : s.table.findTask parentId = some i)
      (blocked : (s.table.task i).state = .blocked)
      (target : (s.table.task i).waitTarget = 0 ∨ (s.table.task i).waitTarget = childId)
      (wakes : s.scheduler.wakeTask parentId = (true, scheduler)) :
      AfterWakeWaitingParent parentId childId
        (let s := { s with scheduler }.modify i fun task =>
          { task with state := .ready, waitTarget := 0 }
        { s with table := { s.table with counters := { s.table.counters with
          parentWakeups := satAdd s.table.counters.parentWakeups 1 } } })

theorem wakeWaitingParent_after (parentId childId : Nat) :
    AfterWakeWaitingParent s parentId childId (s.wakeWaitingParent parentId childId).2 := by
  unfold wakeWaitingParent
  cases found : s.table.findTask parentId with
  | none => exact .refuse
  | some i =>
      dsimp only
      split
      · exact .refuse
      rename_i waits
      simp only [Bool.or_eq_true, Bool.and_eq_true, bne_iff_ne, not_or, not_and_or, not_not] at waits
      cases wakes : s.scheduler.wakeTask parentId with
      | mk succeeded scheduler =>
          cases succeeded with
          | false => exact .stuck found waits.1 wakes
          | true => exact .wake found waits.1 waits.2 wakes

/-- At most the waiting parent changes, and it becomes ready. -/
theorem wakeWaitingParent_task (parentId childId : Nat) (j : Fin maxTasks) :
    (s.wakeWaitingParent parentId childId).2.table.task j = s.table.task j ∨
      (s.table.task j).state = .blocked ∧
        (s.wakeWaitingParent parentId childId).2.table.task j =
          { s.table.task j with state := .ready, waitTarget := 0 } := by
  have after := s.wakeWaitingParent_after parentId childId
  generalize (s.wakeWaitingParent parentId childId).2 = s' at after ⊢
  cases after with
  | refuse => exact .inl rfl
  | stuck => exact .inl rfl
  | @wake i scheduler _ blocked =>
      have woken := task_modify { s with scheduler } i fun task =>
        { task with state := .ready, waitTarget := 0 }
      by_cases here : j = i
      · subst here
        exact .inr ⟨blocked, (congrFun woken j).trans (Function.update_self ..)⟩
      · exact .inl ((congrFun woken j).trans (Function.update_of_ne here ..))

/-- After the loop of `expire_ipc_deadlines` was at one slot. -/
inductive AfterExpireSlot (now : Nat) (i : Fin maxTasks) : System → Prop where
  | keep (settled : ¬ ((s.table.task i).state = .blocked ∧ (s.table.task i).ipcWaiting = true ∧
      0 < (s.table.task i).ipcDeadlineTick ∧ (s.table.task i).ipcDeadlineTick ≤ now)) :
      AfterExpireSlot now i s
  | stuck {scheduler : Scheduler} (blocked : (s.table.task i).state = .blocked)
      (wakes : s.scheduler.wakeTask (s.table.task i).id = (false, scheduler)) :
      AfterExpireSlot now i { s with scheduler }
  | wake {scheduler : Scheduler} (blocked : (s.table.task i).state = .blocked)
      (receiving : (s.table.task i).ipcWaiting = true)
      (deadline : (s.table.task i).ipcDeadlineTick ≠ 0)
      (passed : (s.table.task i).ipcDeadlineTick ≤ now)
      (wakes : s.scheduler.wakeTask (s.table.task i).id = (true, scheduler)) :
      AfterExpireSlot now i
        (let s := { s with scheduler, ipc := (s.ipc.setWaiting (s.table.task i).id false).2 }.modify
          i fun task => task.woken .timeout
        { s with table := { s.table with counters := { s.table.counters with
          ipcTimeouts := satAdd s.table.counters.ipcTimeouts 1 } } })

theorem expireSlot_after (now : Nat) (i : Fin maxTasks) :
    AfterExpireSlot s now i (expireSlot now s i) := by
  unfold expireSlot
  dsimp only
  split
  · rename_i settled
    refine .keep ?_
    rintro ⟨blocked, waiting, deadline, passed⟩
    simp only [blocked, waiting, bne_self_eq_false, Bool.not_true, Bool.or_false, Bool.false_or,
      Bool.or_eq_true, beq_iff_eq, decide_eq_true_eq] at settled
    omega
  · rename_i due
    simp only [Bool.or_eq_true, bne_iff_ne, Bool.not_eq_true', beq_iff_eq, decide_eq_true_eq,
      not_or, not_not, Nat.not_lt, Bool.not_eq_false] at due
    obtain ⟨⟨⟨blocked, receiving⟩, deadline⟩, passed⟩ := due
    cases wakes : s.scheduler.wakeTask (s.table.task i).id with
    | mk succeeded scheduler =>
        cases succeeded with
        | false => exact .stuck blocked wakes
        | true => exact .wake blocked receiving deadline passed wakes

/-! ### Blocking -/

/-- After `block_for_ipc`. -/
inductive AfterBlockForIpc (taskId : Nat) : System → Prop where
  | refuse : AfterBlockForIpc taskId s
  | stuck {scheduler : Scheduler} (blocks : s.scheduler.blockTask taskId = (false, scheduler)) :
      AfterBlockForIpc taskId { s with scheduler }
  | block {i : Fin maxTasks} {scheduler : Scheduler} (found : s.table.findTask taskId = some i)
      (awake : (s.table.task i).state = .ready ∨ (s.table.task i).state = .running)
      (blocks : s.scheduler.blockTask taskId = (true, scheduler)) :
      AfterBlockForIpc taskId ({ s with scheduler }.modify i fun task => { task with
        state := .blocked
        ipcWaiting := true
        ipcDeadlineTick := 0
        ipcWakeReason := .none })

theorem blockForIpc_after (taskId : Nat) : AfterBlockForIpc s taskId (s.blockForIpc taskId).2 := by
  unfold blockForIpc
  cases found : s.table.findTask taskId with
  | none => exact .refuse
  | some i =>
      dsimp only
      split
      · exact .refuse
      rename_i able
      simp only [Bool.or_eq_true, Bool.not_eq_true', Bool.or_eq_false_iff, not_or, not_and,
        beq_eq_false_iff_ne, not_not] at able
      cases blocks : s.scheduler.blockTask taskId with
      | mk succeeded scheduler =>
          cases succeeded with
          | false => exact .stuck blocks
          | true => exact .block found ((em _).imp_right able.1.1) blocks

/-- After `wait_child`. -/
inductive AfterWaitChild (parentId childId : Nat) : System → Prop where
  | refuse : AfterWaitChild parentId childId s
  | collect {j : Fin maxTasks} (exited : (s.table.task j).state = .exited)
      (released : (s.table.task j).resourcesActive = false) :
      AfterWaitChild parentId childId
        { s with table := { s.table with
          slots := Function.update s.table.slots j ProcessSlot.empty
          counters := { s.table.counters with
            reapedTotal := satAdd s.table.counters.reapedTotal 1 } } }
  | stuck {scheduler : Scheduler} (blocks : s.scheduler.blockTask parentId = (false, scheduler)) :
      AfterWaitChild parentId childId { s with scheduler }
  | block {i j : Fin maxTasks} {scheduler : Scheduler} (found : s.table.findTask parentId = some i)
      (live : (s.table.task i).live = true)
      (blocks : s.scheduler.blockTask parentId = (true, scheduler)) :
      AfterWaitChild parentId childId
        (let s' := { s with scheduler }.modify i fun task =>
          { task with state := .blocked, waitTarget := (s.table.task j).id }
        { s' with table := { s'.table with counters := { s'.table.counters with
          waitBlocks := satAdd s'.table.counters.waitBlocks 1 } } })

theorem waitChild_after (parentId childId : Nat) :
    AfterWaitChild s parentId childId (s.waitChild parentId childId).2 := by
  unfold waitChild
  cases found : s.table.findTask parentId with
  | none => exact .refuse
  | some i =>
      dsimp only
      split
      · exact .refuse
      rename_i live
      cases s.table.findChild parentId childId with
      | none => exact .refuse
      | some j =>
          dsimp only
          split
          · rename_i collectable
            simp only [Bool.and_eq_true, beq_iff_eq, Bool.not_eq_true'] at collectable
            exact .collect collectable.1.1 collectable.1.2
          split
          · exact .refuse
          cases blocks : s.scheduler.blockTask parentId with
          | mk succeeded scheduler =>
              cases succeeded with
              | false => exact .stuck blocks
              | true => exact .block (j := j) found (by simpa using live) blocks

end System

end CloudOS.Process
