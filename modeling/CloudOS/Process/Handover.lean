import CloudOS.Process.Receiving
import CloudOS.Process.Suspended
import CloudOS.Process.UserMode
import CloudOS.Scheduler.Run

/-!
The two task switches as one: the current task leaves the processor with the
registers it had, and a task that waited gets the registers saved for it.

`block_for_ipc_syscall` and `on_timer_interrupt` save and load different layouts,
the second through the first. Both either hand over the processor in this sense or
leave every waiting task alone, as long as each task can run.
-/

namespace CloudOS.Process

open Lib.Word (satAdd)

/-- Every task has registers to start from and an address space. -/
def System.Able (s : System) : Prop :=
  ∀ i, (s.table.task i).state ≠ .empty →
    (s.table.slots i).contextValid = true ∧ (s.table.task i).addressSpaceRoot ≠ 0

/-- The current task leaves the processor with `context`, and the next one gets
`loaded`. -/
structure HandsOver (s s' : System) (context loaded : TimerContext) : Prop where
  same : ∀ i, (s'.table.task i).state ≠ .empty → SameTask (s.table.slots i) (s'.table.slots i)
  next : ∃ j, (s.table.task j).state ≠ .empty ∧ (s.table.task j).id = s'.currentTask ∧
    s.Waits s'.currentTask ∧ loaded = s.saved j
  outgoing : ∀ i, (s'.table.task i).state ≠ .empty → (s'.table.task i).id = s.currentTask →
    s'.saved i = context
  waits : ∀ i, (s'.table.task i).state ≠ .empty → (s'.table.task i).id ≠ s.currentTask →
    s'.Waits (s'.table.task i).id → s.Waits (s'.table.task i).id ∧ s'.saved i = s.saved i

theorem Calm.able {s s' : System} (calm : Calm s s') (able : s.Able) : s'.Able := by
  intro i occupied
  have same := calm.same i occupied
  obtain ⟨valid, root⟩ := able i same.occupied
  exact ⟨same.valid valid, fun zero => root (same.root.symm.trans zero)⟩

/-- The call waits for a message if there is none. -/
def Syscall.receives : Syscall → Bool
  | .receive | .receiveTimeout => true
  | _ => false

theorem SyscallOutcome.ofResult_switchRoot (result : Except Ipc.IpcError Nat) :
    (SyscallOutcome.ofResult result).switchRoot = 0 := by
  cases result with
  | ok value => rfl
  | error error => rfl

namespace HandsOver

variable {s s₁ s' : System} {context loaded : TimerContext}

theorem able (handover : HandsOver s s' context loaded) (able : s.Able) : s'.Able := by
  intro i occupied
  have same := handover.same i occupied
  obtain ⟨valid, root⟩ := able i same.occupied
  exact ⟨same.valid valid, fun zero => root (same.root.symm.trans zero)⟩

/-- Something calm came first. -/
theorem after (calm : Calm s s₁) (current : s₁.currentTask = s.currentTask)
    (handover : HandsOver s₁ s' context loaded) : HandsOver s s' context loaded := by
  refine ⟨fun i occupied => ?_, ?_, fun i occupied isCurrent => ?_,
    fun i occupied other waits => ?_⟩
  · have same := handover.same i occupied
    exact (calm.same i same.occupied).trans same
  · obtain ⟨j, occupied, id, waits, rfl⟩ := handover.next
    have same := calm.same j occupied
    obtain ⟨waits', saved⟩ := calm.waits j occupied (id ▸ waits)
    exact ⟨j, same.occupied, same.id.symm.trans id, id ▸ waits', saved⟩
  · exact handover.outgoing i occupied (isCurrent.trans current.symm)
  · obtain ⟨waits', saved⟩ := handover.waits i occupied (current ▸ other) waits
    have same := handover.same i occupied
    rw [show (s'.table.task i).id = (s₁.table.task i).id from same.id] at waits' ⊢
    obtain ⟨waits'', saved'⟩ := calm.waits i same.occupied waits'
    exact ⟨waits'', saved.trans saved'⟩

/-- The slots `i` and `j` of the outgoing and the next task are rewritten. -/
theorem of_slots {issued : Nat} (agrees : s.Agrees issued) {i j : Fin maxTasks}
    {task task' : Task} (occupied : (s.table.task i).state ≠ .empty)
    (isCurrent : (s.table.task i).id = s.currentTask)
    (occupied' : (s.table.task j).state ≠ .empty)
    (isNext : (s.table.task j).id = s'.currentTask) (mem : s.Waits (s.table.task j).id)
    (rewrites : (s.table.task i).Rewrites task) (rewrites' : (s.table.task j).Rewrites task')
    (here : s'.table.slots i = ⟨task, context, true⟩)
    (there : s'.table.slots j = { s.table.slots j with task := task' })
    (elsewhere : ∀ k, k ≠ i → k ≠ j → s'.table.slots k = s.table.slots k)
    (waits : ∀ id, s'.Waits id → s.Waits id ∨ id = s.currentTask) :
    HandsOver s s' context (s.saved j) := by
  have same : ∀ k, (s'.table.task k).state ≠ .empty →
      SameTask (s.table.slots k) (s'.table.slots k) := by
    intro k filled
    by_cases isI : k = i
    · rw [isI, here]
      exact ⟨occupied, rewrites.id, rewrites.entryPoint, rewrites.stackTop, rewrites.root,
        fun _ => rfl⟩
    by_cases isJ : k = j
    · rw [isJ, there]
      exact ⟨occupied', rewrites'.id, rewrites'.entryPoint, rewrites'.stackTop, rewrites'.root,
        fun valid => valid⟩
    · have kept := elsewhere k isI isJ
      rw [kept]
      exact ⟨kept ▸ filled, rfl, rfl, rfl, rfl, fun valid => valid⟩
  refine ⟨same, ⟨j, occupied', isNext, isNext ▸ mem, rfl⟩, fun k filled current => ?_,
    fun k filled notCurrent waiting => ⟨(waits _ waiting).resolve_right notCurrent, ?_⟩⟩
  · have k_eq : k = i := Agree.distinct agrees k i (same k filled).occupied occupied
      ((same k filled).id.symm.trans (current.trans isCurrent.symm))
    unfold System.saved
    rw [k_eq, here]
  · have isI : k ≠ i := by
      rintro rfl
      exact notCurrent ((same k filled).id.trans isCurrent)
    unfold System.saved
    by_cases isJ : k = j
    · rw [isJ, there]
    · rw [elsewhere k isI isJ]

end HandsOver

namespace System

variable {s : System} {issued : Nat}

/-- The current task does not wait for the processor. -/
theorem not_waits_current (agrees : s.Agrees issued) : ¬ s.Waits s.currentTask := by
  rintro (queued | blocked)
  · exact (Agree.sound agrees).places.current.1 queued
  · exact (Agree.sound agrees).places.current.2 blocked

/-- A queued task is found, and can run. -/
theorem Able.queued (able : s.Able) (agrees : s.Agrees issued) {id : Nat}
    (mem : id ∈ s.scheduler.queued) :
    ∃ j, s.table.findTask id = some j ∧ (s.table.slots j).contextValid = true ∧
      (s.table.task j).addressSpaceRoot ≠ 0 := by
  obtain ⟨j, live, rfl⟩ := Agree.placed agrees id (Or.inl mem)
  have occupied := (Task.live_iff.mp live).1
  exact ⟨j, agrees.findTask occupied, able j occupied⟩

/-- Saving the registers of the current task is calm. -/
theorem saveContext_calm (agrees : s.Agrees issued) {i : Fin maxTasks}
    (found : s.table.findTask s.currentTask = some i) (context : TimerContext) :
    Calm s (s.saveContext i context) := by
  obtain ⟨occupied, isCurrent⟩ := ProcessTable.findTask_eq_some found
  have tasks := s.task_saveContext i context
  have elsewhere : ∀ j, j ≠ i → (s.saveContext i context).table.slots j = s.table.slots j :=
    fun j other => Function.update_of_ne other _ _
  refine ⟨fun j filled => ?_, fun j filled waits => ?_⟩
  · by_cases here : j = i
    · subst here
      rw [show (s.saveContext j context).table.slots j = _ from Function.update_self ..]
      exact ⟨occupied, rfl, rfl, rfl, rfl, fun _ => rfl⟩
    · rw [elsewhere j here]
      exact ⟨by rwa [tasks] at filled, rfl, rfl, rfl, rfl, fun valid => valid⟩
  · have same : ((s.saveContext i context).table.task j).id = (s.table.task j).id := by rw [tasks]
    have other : j ≠ i := by
      rintro rfl
      rw [same, isCurrent] at waits
      exact not_waits_current agrees waits
    exact ⟨waits, congrArg ProcessSlot.timerContext (elsewhere j other)⟩

/-! ### Blocking in a system call -/

/-- Either nothing is handed over, or the registers of the next task are loaded. -/
theorem blockForIpcSyscall_effect (agrees : s.Agrees issued) (able : s.Able)
    (frame : SyscallFrame) (deadlineTick : Nat) :
    (∃ s', s.blockForIpcSyscall s.currentTask frame deadlineTick = (none, frame, s') ∧
      Calm s s') ∨
    ∃ root loaded s', root ≠ 0 ∧
      s.blockForIpcSyscall s.currentTask frame deadlineTick =
        (some root, loadSyscallContext loaded, s') ∧
      HandsOver s s' (saveSyscallContext frame true) loaded := by
  unfold blockForIpcSyscall
  cases found : s.table.findTask s.currentTask with
  | none => exact Or.inl ⟨s, rfl, .refl s⟩
  | some i =>
      obtain ⟨occupied, isCurrent⟩ := ProcessTable.findTask_eq_some found
      have calm := saveContext_calm agrees found (saveSyscallContext frame true)
      have sameFind := ProcessTable.findTask_congr
        (s.task_saveContext i (saveSyscallContext frame true))
      dsimp only
      split
      · exact Or.inl ⟨s, rfl, .refl s⟩
      rcases (Agree.sound agrees).blockCurrentAndDispatch_cases s.currentTask with
        ⟨decision, eq, unswitched⟩ |
        ⟨decision, scheduler, eq, switched, previous, -, -, mem, places, -⟩
      · rw [show (s.saveContext i (saveSyscallContext frame true)).scheduler = s.scheduler from rfl,
          eq, if_pos (by simp [unswitched])]
        exact Or.inl ⟨_, rfl, calm⟩
      · obtain ⟨j, target, valid, root⟩ := able.queued agrees mem
        obtain ⟨occupied', isNext⟩ := ProcessTable.findTask_eq_some target
        have other : j ≠ i := by
          rintro rfl
          rw [← isNext, isCurrent] at mem
          exact not_waits_current agrees (Or.inl mem)
        have slotJ : (s.saveContext i (saveSyscallContext frame true)).table.slots j =
          s.table.slots j := Function.update_of_ne other _ _
        rw [show (s.saveContext i (saveSyscallContext frame true)).scheduler = s.scheduler from rfl,
          eq, if_neg (by simp [switched, previous]), sameFind, target]
        dsimp only
        have mapped : (s.table.slots j).task.addressSpaceRoot ≠ 0 := root
        rw [slotJ, if_neg (by simp [valid, mapped])]
        have asleep : (s.table.task i).Rewrites ((s.table.task i).asleep deadlineTick) :=
          ⟨rfl, rfl, rfl, rfl⟩
        have scheduled : (s.table.task j).Rewrites
            ((s.table.task j).scheduled s.ticks decision.waitedTicks) := ⟨rfl, rfl, rfl, rfl⟩
        have next := congrArg Placement.current places
        refine Or.inr ⟨_, _, _, root, rfl, ?_⟩
        refine .of_slots agrees occupied isCurrent occupied' (isNext.trans next.symm) ?_ asleep
          scheduled ?_ ?_ ?_ fun id waits => ?_
        · exact isNext.symm ▸ Or.inl mem
        · simp [modify, ProcessTable.modify, saveContext, ProcessTable.task, other.symm]
        · simp [modify, ProcessTable.modify, saveContext, ProcessTable.task, other]
        · intro k notI notJ
          simp [modify, ProcessTable.modify, saveContext, notI, notJ]
        · have moved : scheduler.placement.Waits id := waits
          rw [places] at moved
          exact Placement.waits_dispatch moved

/-! ### Preemption -/

/-- A tick goes on with the current task or hands over to the next one. -/
theorem onTimerInterrupt_effect (agrees : s.Agrees issued) (able : s.Able)
    (context : TimerContext) :
    (∃ action s', s.onTimerInterrupt context = (action, context, s') ∧
      (∀ root, action ≠ .switch root) ∧ Calm s s') ∨
    ∃ root loaded s', root ≠ 0 ∧ s.onTimerInterrupt context = (.switch root, loaded, s') ∧
      HandsOver s s' context loaded := by
  unfold onTimerInterrupt
  split
  · exact Or.inl ⟨_, s, rfl, nofun, .refl s⟩
  split
  · exact Or.inl ⟨_, s, rfl, nofun, .refl s⟩
  rcases (Agree.sound agrees).preemptCurrent_cases with ⟨decision, eq, unswitched⟩ |
    ⟨decision, scheduler, eq, switched, previous, running, mem, places, -⟩
  · rw [eq]
    dsimp only
    rw [if_pos (by simp [unswitched])]
    exact Or.inl ⟨_, s, rfl, nofun, .refl s⟩
  · obtain ⟨i, live, isCurrent⟩ := Agree.placed agrees _ (Or.inr (Or.inr ⟨rfl, running⟩))
    have occupied := (Task.live_iff.mp live).1
    have found : s.table.findTask s.scheduler.currentTask = some i := by
      rw [show s.scheduler.currentTask = _ from isCurrent.symm]
      exact agrees.findTask occupied
    obtain ⟨j, target, valid, root⟩ := able.queued agrees mem
    obtain ⟨occupied', isNext⟩ := ProcessTable.findTask_eq_some target
    have other : j ≠ i := by
      rintro rfl
      rw [← isNext, isCurrent] at mem
      exact not_waits_current agrees (Or.inl mem)
    have slotJ : ((({ s with scheduler } : System).saveContext i context).modify i
        Task.preempted).table.slots j = s.table.slots j := by
      simp [modify, ProcessTable.modify, saveContext, other]
    rw [eq]
    dsimp only
    rw [if_neg (by simp [switched]), previous, found, target]
    dsimp only
    rw [slotJ, if_neg (by simp [valid, show (s.table.slots j).task.addressSpaceRoot ≠ 0 from root])]
    have preempted : (s.table.task i).Rewrites (s.table.task i).preempted := ⟨rfl, rfl, rfl, rfl⟩
    have scheduled : (s.table.task j).Rewrites
        ((s.table.task j).scheduled s.ticks decision.waitedTicks) := ⟨rfl, rfl, rfl, rfl⟩
    have next := congrArg Placement.current places
    refine Or.inr ⟨_, _, _, root, rfl, ?_⟩
    refine .of_slots agrees occupied isCurrent occupied' (isNext.trans next.symm) ?_ preempted
      scheduled ?_ ?_ ?_ fun id waits => ?_
    · exact isNext.symm ▸ Or.inl mem
    · simp [modify, ProcessTable.modify, saveContext, ProcessTable.task, other.symm]
    · simp [modify, ProcessTable.modify, saveContext, ProcessTable.task, other]
    · intro k notI notJ
      simp [modify, ProcessTable.modify, saveContext, notI, notJ]
    · have moved : scheduler.placement.Waits id := waits
      rw [places] at moved
      exact Placement.waits_rotate moved

/-- Waking whose deadline passed leaves the current task on the processor. -/
theorem expireIpcDeadlines_currentTask (agrees : s.Agrees issued) (now : Nat) :
    (s.expireIpcDeadlines now).currentTask = s.currentTask := by
  unfold expireIpcDeadlines
  generalize List.finRange maxTasks = indices
  induction indices generalizing s with
  | nil => rfl
  | cons i indices ih =>
      refine (ih (expireSlot_agrees agrees now i)).trans ?_
      have after := s.expireSlot_after now i
      generalize expireSlot now s i = s' at after ⊢
      cases after with
      | keep => rfl
      | stuck blocked wakes => exact absurd wakes (agrees.wakeTask_ne blocked)
      | wake blocked _ _ _ wakes =>
          obtain ⟨scheduler, wakes', places, -⟩ := Agree.wakes agrees blocked
          cases wakes.symm.trans wakes'
          exact congrArg Placement.current places

/-- The deadlines that expire before the tick switch nobody. -/
theorem timerInterruptHandler_effect (agrees : s.Agrees issued) (able : s.Able)
    (context : TimerContext) :
    (∃ action s', s.timerInterruptHandler (some context) = (action, some context, s') ∧
      (∀ root, action ≠ .switch root) ∧ Calm s s') ∨
    ∃ root loaded s', root ≠ 0 ∧
      s.timerInterruptHandler (some context) = (.switch root, some loaded, s') ∧
      HandsOver s s' context loaded := by
  have ticked := s.onTimerTick_calm ((s.ticks + 1) % 2 ^ 64)
  have agrees₁ := onTimerTick_agrees agrees ((s.ticks + 1) % 2 ^ 64)
  obtain ⟨expired, agrees₂⟩ := expireIpcDeadlines_calm agrees₁ (satAdd s.ticks 1)
  have current := (expireIpcDeadlines_currentTask agrees₁ (satAdd s.ticks 1)).trans
    (congrArg Placement.current s.scheduler.onTimerTick_placement)
  have calm := ticked.trans expired
  unfold timerInterruptHandler
  dsimp only
  generalize expireIpcDeadlines _ _ = s₁ at *
  split
  · exact Or.inl ⟨_, s₁, rfl, nofun, calm⟩
  rcases onTimerInterrupt_effect agrees₂ (calm.able able) context with
    ⟨action, s', eq, stays, calm'⟩ | ⟨root, loaded, s', nonzero, eq, handover⟩
  · rw [eq]
    exact Or.inl ⟨action, s', rfl, stays, calm.trans calm'⟩
  · rw [eq]
    exact Or.inr ⟨root, loaded, s', nonzero, rfl, handover.after calm current⟩

/-! ### System calls -/

/-- A receive that blocks hands over; one that does not leaves the frame alone. -/
theorem blockSyscall_effect (agrees : s.Agrees issued) (able : s.Able) (frame : SyscallFrame)
    (deadlineTick : Nat) :
    (∃ result s', s.blockSyscall s.currentTask frame deadlineTick = (result, frame, s') ∧
      (∀ root, result ≠ .ok (.switched root)) ∧ Calm s s') ∨
    ∃ root loaded s', root ≠ 0 ∧
      s.blockSyscall s.currentTask frame deadlineTick =
        (.ok (.switched root), loadSyscallContext loaded, s') ∧
      HandsOver s s' (saveSyscallContext frame true) loaded := by
  unfold blockSyscall
  split
  · exact Or.inl ⟨_, _, rfl, nofun, .of_slots rfl fun _ waits => waits⟩
  dsimp only
  split
  · exact Or.inl ⟨_, _, rfl, nofun, .of_slots rfl fun _ waits => waits⟩
  · exact Or.inl ⟨_, _, rfl, nofun, .of_slots rfl fun _ waits => waits⟩
  split
  · exact Or.inl ⟨_, _, rfl, nofun, .of_slots rfl fun _ waits => waits⟩
  · rename_i ipc _
    rcases blockForIpcSyscall_effect (s := { s with ipc }) agrees able frame deadlineTick with
      ⟨s', eq, calm⟩ | ⟨root, loaded, s', nonzero, eq, handover⟩
    · rw [show blockForIpcSyscall { s with ipc } s.currentTask frame deadlineTick = _ from eq]
      exact Or.inl ⟨_, _, rfl, nofun, calm.same, calm.waits⟩
    · rw [show blockForIpcSyscall { s with ipc } s.currentTask frame deadlineTick = _ from eq]
      refine Or.inr ⟨root, loaded, _, nonzero, rfl, ?_⟩
      exact ⟨handover.same, handover.next, handover.outgoing, handover.waits⟩

/-- What a system call comes to: nothing is loaded, or the registers of another task. -/
def CallEffect (s : System) (frame : SyscallFrame)
    (result : Option SyscallOutcome × SyscallFrame × System) : Prop :=
  ∀ outcome, result.1 = some outcome →
    (outcome.switchRoot = 0 ∧ Calm s result.2.2) ∨
      ∃ loaded, outcome.switchRoot ≠ 0 ∧ result.2.1 = loadSyscallContext loaded ∧
        HandsOver s result.2.2 (saveSyscallContext frame true) loaded

theorem CallEffect.quiet {frame frame' : SyscallFrame} {outcome : SyscallOutcome} {s' : System}
    (stays : outcome.switchRoot = 0) (calm : Calm s s') :
    s.CallEffect frame (some outcome, frame', s') := by
  rintro _ ⟨⟩
  exact Or.inl ⟨stays, calm⟩

theorem receiveCommon_effect (agrees : s.Agrees issued) (able : s.Able) (memory : UserMemory)
    (buffer : Nat) (frame : SyscallFrame) (timeoutTicks : Option Nat) :
    s.CallEffect frame (some (s.receiveCommon memory buffer frame timeoutTicks).1,
      (s.receiveCommon memory buffer frame timeoutTicks).2) := by
  have taken : Calm s s.taken := s.takeIpcWakeReason_calm s.currentTask
  have received : ∀ ipc, Calm s { s.taken with ipc } := fun ipc =>
    taken.trans (.of_slots rfl fun _ waits => waits)
  have agrees' : s.taken.Agrees issued := takeIpcWakeReason_agrees agrees s.currentTask
  have able' : s.taken.Able := taken.able able
  have blocked := blockSyscall_effect agrees' able' frame
  rw [taken_currentTask] at blocked
  have exit := s.receiveCommon_exit memory buffer frame timeoutTicks
  generalize s.receiveCommon memory buffer frame timeoutTicks = result at exit ⊢
  obtain ⟨outcome, frame', s'⟩ := result
  dsimp only at exit ⊢
  cases exit with
  | noTask | invalid => exact .quiet rfl (.refl s)
  | ended | polled => exact .quiet rfl taken
  | uncopied | failed => exact .quiet rfl (received _)
  | delivered => exact .quiet rfl ((received _).trans (completeIpcRestart_calm _ s.currentTask))
  | refused admitted reason empty later blocks =>
      rcases blocked (deadlineTick s.taken.ticks timeoutTicks) with
        ⟨result, t, eq, -, calm⟩ | ⟨root, loaded, t, nonzero, eq, handover⟩
      · cases eq.symm.trans blocks
        exact .quiet rfl (taken.trans calm)
      · cases eq.symm.trans blocks
  | switched admitted reason empty later blocks =>
      rcases blocked (deadlineTick s.taken.ticks timeoutTicks) with
        ⟨result, t, eq, unswitched, -⟩ | ⟨root, loaded, t, nonzero, eq, handover⟩
      · cases eq.symm.trans blocks
        exact absurd rfl (unswitched _)
      · cases eq.symm.trans blocks
        rintro _ ⟨⟩
        exact Or.inr ⟨loaded, nonzero, rfl, handover.after taken s.taken_currentTask⟩

/-- Sending never switches. -/
theorem syscallIpcSend_quiet (agrees : s.Agrees issued) (memory : UserMemory) (handle : Nat)
    (frame : SyscallFrame) :
    (s.syscallIpcSend memory handle frame).1.switchRoot = 0 ∧
      Calm s (s.syscallIpcSend memory handle frame).2.2 := by
  unfold syscallIpcSend
  dsimp only
  split
  · exact ⟨rfl, .refl s⟩
  split
  · exact ⟨rfl, .refl s⟩
  rename_i message _
  have sent := sendCapability_calm agrees s.currentTask handle message
  generalize s.sendCapability s.currentTask handle message = result at sent
  obtain ⟨outcome, s'⟩ := result
  cases outcome with
  | ok sequence => exact ⟨rfl, sent⟩
  | error error => exact ⟨rfl, sent⟩

theorem syscallIpcCancel_quiet (agrees : s.Agrees issued) (handle : Nat) (frame : SyscallFrame) :
    (s.syscallIpcCancel handle frame).1.switchRoot = 0 ∧
      Calm s (s.syscallIpcCancel handle frame).2.2 := by
  unfold syscallIpcCancel
  dsimp only
  split
  · exact ⟨rfl, .refl s⟩
  · exact ⟨SyscallOutcome.ofResult_switchRoot _, cancelWait_calm agrees s.currentTask handle⟩

/-- Sending a capability never switches. -/
theorem syscallIpcSendCapability_quiet (agrees : s.Agrees issued) (memory : UserMemory)
    (handle : Nat) (frame : SyscallFrame) :
    (s.syscallIpcSendCapability memory handle frame).1.switchRoot = 0 ∧
      Calm s (s.syscallIpcSendCapability memory handle frame).2.2 := by
  unfold syscallIpcSendCapability
  dsimp only
  split
  · exact ⟨rfl, .refl s⟩
  split
  · exact ⟨rfl, .refl s⟩
  split
  · exact ⟨rfl, .refl s⟩
  split
  · exact ⟨rfl, .refl s⟩
  · exact ⟨SyscallOutcome.ofResult_switchRoot _,
      sendWithCapability_calm agrees s.currentTask handle _ _ _⟩

theorem syscallIpcRevoke_quiet (s : System) (handle : Nat) (frame : SyscallFrame) :
    (s.syscallIpcRevoke handle frame).1.switchRoot = 0 ∧
      Calm s (s.syscallIpcRevoke handle frame).2.2 := by
  unfold syscallIpcRevoke
  dsimp only
  split
  · exact ⟨rfl, .refl s⟩
  · exact ⟨SyscallOutcome.ofResult_switchRoot _, .of_slots rfl fun _ waits => waits⟩

/-- Only receiving can load the registers of another task. -/
theorem handle_effect (agrees : s.Agrees issued) (able : s.Able) (memory : UserMemory)
    (call : Syscall) (arg0 : Nat) (frame : SyscallFrame) :
    s.CallEffect frame (some (s.handle memory call arg0 frame).1,
        (s.handle memory call arg0 frame).2) ∧
      (call.receives = false → (s.handle memory call arg0 frame).1.switchRoot = 0) := by
  cases call with
  | receive => exact ⟨receiveCommon_effect agrees able memory arg0 frame none, nofun⟩
  | receiveTimeout => exact ⟨receiveCommon_effect agrees able memory arg0 frame _, nofun⟩
  | send =>
      obtain ⟨stays, calm⟩ := syscallIpcSend_quiet agrees memory arg0 frame
      exact ⟨.quiet stays calm, fun _ => stays⟩
  | cancel =>
      obtain ⟨stays, calm⟩ := syscallIpcCancel_quiet agrees arg0 frame
      exact ⟨.quiet stays calm, fun _ => stays⟩
  | sendCapability =>
      obtain ⟨stays, calm⟩ := syscallIpcSendCapability_quiet agrees memory arg0 frame
      exact ⟨.quiet stays calm, fun _ => stays⟩
  | revoke =>
      obtain ⟨stays, calm⟩ := s.syscallIpcRevoke_quiet arg0 frame
      exact ⟨.quiet stays calm, fun _ => stays⟩

/-- A system call loads nothing, or the registers of the next task and not the
value it returns. -/
theorem syscallInterrupt_effect (agrees : s.Agrees issued) (able : s.Able) (memory : UserMemory)
    (frame : SyscallFrame) :
    (∃ ending s', s.syscallInterrupt memory frame = (ending, s') ∧
      (∀ root frame', ending = .resume root frame' → root = 0) ∧ Calm s s') ∨
    ∃ root loaded s' call, root ≠ 0 ∧
      s.syscallInterrupt memory frame = (.resume root (loadSyscallContext loaded), s') ∧
      lookup frame.rax = some (.ipc call) ∧ call.receives = true ∧
      HandsOver s s' (saveSyscallContext frame true) loaded := by
  have complete : ∀ value root frame',
      SyscallReturn.complete frame value = .resume root frame' → root = 0 := by
    rintro value root frame' ⟨⟩
    rfl
  unfold syscallInterrupt
  cases known : lookup frame.rax with
  | none => exact Or.inl ⟨_, s, rfl, complete _, .refl s⟩
  | some entry =>
      cases entry with
      | log => exact Or.inl ⟨_, s, rfl, complete _, .refl s⟩
      | uptime => exact Or.inl ⟨_, s, rfl, complete _, .refl s⟩
      | exit => exact Or.inl ⟨_, s, rfl, nofun, .refl s⟩
      | yield =>
          refine Or.inl ⟨_, _, rfl, complete _, .of_slots rfl fun id waits => ?_⟩
          unfold Waits at waits
          rwa [s.scheduler.yieldCurrent_placement] at waits
      | getpid => exact Or.inl ⟨_, s, rfl, complete _, .refl s⟩
      | ipcSelf => exact Or.inl ⟨_, s, rfl, complete _, .refl s⟩
      | ipc call =>
          obtain ⟨effect, quiet⟩ := handle_effect agrees able memory call frame.rdi frame
          dsimp only
          unfold dispatch
          dsimp only
          rcases effect _ rfl with ⟨stays, calm⟩ | ⟨loaded, switched, eq, handover⟩
          · rw [if_neg (by simp [stays])]
            refine Or.inl ⟨_, _, rfl, ?_, calm⟩
            rintro root frame' ⟨⟩
            rfl
          · rw [if_pos switched]
            refine Or.inr ⟨_, loaded, _, call, switched, ?_, rfl, ?_, handover⟩
            · rw [show (s.handle memory call frame.rdi frame).2.1 = _ from eq]
            · cases receives : call.receives with
              | true => rfl
              | false => exact absurd (quiet receives) switched

theorem syscallInterrupt_agrees (agrees : s.Agrees issued) (memory : UserMemory)
    (frame : SyscallFrame) : (s.syscallInterrupt memory frame).2.Agrees issued := by
  unfold syscallInterrupt
  split
  · exact agrees
  · exact agrees
  · exact agrees
  · exact agrees
  · have places := s.scheduler.yieldCurrent_placement
    refine Agree.reschedule agrees (Scheduler.Sound.yieldCurrent (Agree.sound agrees))
      (fun x has => places ▸ has) fun x mem => ?_
    rwa [show s.scheduler.yieldCurrent.2.blockedTasks = s.scheduler.blockedTasks from
      Scheduler.blockedTasks_of_places places]
  · exact agrees
  · exact agrees
  · exact (agrees_survivesCalls issued).dispatch agrees memory _ _ frame

end System

end CloudOS.Process
