import CloudOS.Process.Attuned

/-!
Every step of a run without parents keeps tasks and mailboxes in step.

The invariant joins the agreement of table and scheduler with that of tasks and
mailboxes. Because of the first, no wake-up fails and no switch gets stuck; the
second then survives the functions that record a wait in several places.
-/

namespace CloudOS.Process

open Lib.Word (maxWord satAdd)
open CloudOS.Ipc (IpcState IpcError Delivers Undisturbed Mailbox maxEndpoints)

namespace System

/-- The invariant of the runs without parents. -/
structure Wakeful (s : System) (issued : Nat) : Prop where
  agrees : s.Agrees issued
  attuned : Attuned s.table.task s.table.valid s.ipc.mailboxes
  unique : s.ipc.endpoints.GenerationsUnique

variable {s : System} {issued : Nat}

theorem Wakeful.named (wakeful : s.Wakeful issued) : Named s.table.task :=
  Agree.named wakeful.agrees

/-- One task changes, and the mailboxes. -/
theorem Wakeful.of_task (agrees : s.Agrees issued) {t : ProcessTable} {i : Fin maxTasks}
    {task : Task} (slots : s.table.slots = Function.update t.slots i { t.slots i with task })
    {mailboxes : Fin maxEndpoints → Mailbox} (mail : s.ipc.mailboxes = mailboxes)
    (unique : s.ipc.endpoints.GenerationsUnique)
    (attuned : Attuned (Function.update t.task i task) t.valid mailboxes) : s.Wakeful issued where
  agrees := agrees
  attuned := by
    rw [ProcessTable.task_of_slots slots, ProcessTable.valid_of_task slots, mail]
    exact attuned
  unique := unique

theorem Wakeful.undisturbed (wakeful : s.Wakeful issued) {ipc : IpcState}
    (undisturbed : Undisturbed s.ipc ipc) : ({ s with ipc } : System).Wakeful issued where
  agrees := wakeful.agrees
  attuned := by
    rw [undisturbed.mailboxes]
    exact wakeful.attuned
  unique := undisturbed.unique

/-- A task with a place is found, and blocked tasks are only among the blocked. -/
theorem Wakeful.placed (wakeful : s.Wakeful issued) {id : Nat} (has : s.scheduler.placement.Has id)
    (elsewhere : id ∉ s.scheduler.blockedTasks) :
    ∃ i, s.table.findTask id = some i ∧ (s.table.task i).live = true ∧
      (s.table.task i).state ≠ .blocked := by
  obtain ⟨i, live, rfl⟩ := Agree.placed wakeful.agrees id has
  refine ⟨i, wakeful.agrees.findTask (Task.live_iff.mp live).1, live, fun blocked => ?_⟩
  exact elsewhere (Agree.blocked wakeful.agrees i blocked)

theorem Wakeful.current (wakeful : s.Wakeful issued) (running : s.scheduler.currentTask ≠ 0) :
    ∃ i, s.table.findTask s.scheduler.currentTask = some i ∧ (s.table.task i).live = true ∧
      (s.table.task i).state ≠ .blocked :=
  wakeful.placed (Or.inr (Or.inr ⟨rfl, running⟩)) (Agree.sound wakeful.agrees).places.current.2

theorem Wakeful.queued (wakeful : s.Wakeful issued) {id : Nat} (mem : id ∈ s.scheduler.queued) :
    ∃ i, s.table.findTask id = some i ∧ (s.table.task i).live = true ∧
      (s.table.task i).state ≠ .blocked :=
  wakeful.placed (Or.inl mem) ((Agree.sound wakeful.agrees).places.apart id mem)

/-- The scheduler never selects a task that cannot run. -/
theorem Wakeful.not_unfit (wakeful : s.Wakeful issued) {id : Nat} (mem : id ∈ s.scheduler.queued)
    (unfit : ∀ j, s.table.findTask id = some j →
      s.table.valid j = false ∨ (s.table.task j).addressSpaceRoot = 0) : False := by
  obtain ⟨j, found, live, -⟩ := wakeful.queued mem
  obtain ⟨valid, root, -⟩ := (wakeful.attuned.fit j).able live
  rcases unfit j found with invalid | rootless
  · rw [valid] at invalid
    cases invalid
  · exact root rootless

/-- A live task has a mailbox. -/
theorem Wakeful.mailbox (wakeful : s.Wakeful issued) {i : Fin maxTasks}
    (live : (s.table.task i).live = true) :
    ∃ e, s.ipc.find (s.table.task i).id = some e ∧
      Paired (s.table.task i) (s.ipc.mailboxes e) := by
  cases found : s.ipc.find (s.table.task i).id with
  | none =>
      obtain ⟨e, pair⟩ := wakeful.attuned.paired i live
      exact absurd pair.owner (IpcState.find_eq_none.mp found e)
  | some e =>
      exact ⟨e, rfl, wakeful.attuned.paired_of_owner wakeful.named live
        (IpcState.find_eq_some found)⟩

/-! ### Sending -/

/-- Whoever waits at the mailbox of a message is woken. -/
theorem finishSendLocked_wakeful (wakeful : s.Wakeful issued) {ipc : IpcState} {receiver : Nat}
    {waiting : Bool} {e : Fin maxEndpoints} (delivers : Delivers s.ipc ipc receiver waiting e)
    (sequence : Nat) :
    (({ s with ipc } : System).finishSendLocked sequence waiting receiver).1 ≠
        .error .wakeFailed ∧
      (({ s with ipc } : System).finishSendLocked sequence waiting receiver).2.Wakeful issued := by
  have agrees := finishSendLocked_agrees (s := { s with ipc }) wakeful.agrees sequence waiting
    receiver
  have owner := IpcState.find_eq_some delivers.found
  have flag := delivers.flag
  unfold finishSendLocked at agrees ⊢
  cases waiting with
  | false =>
      rw [if_neg (by decide)]
      refine ⟨fun failed => (by cases failed), wakeful.agrees, ?_, delivers.unique⟩
      dsimp only
      rw [delivers.mailboxes]
      exact wakeful.attuned.remail rfl flag (fun waiting => by cases waiting)
  | true =>
      obtain ⟨i, blocked, live, pair⟩ := wakeful.attuned.waiter wakeful.named flag.symm
      have receiving := (wakeful.attuned.fit i).flag.mpr blocked
      have isReceiver : receiver = (s.table.task i).id := owner.symm.trans pair.owner
      obtain ⟨scheduler, woken⟩ := endIpcWait_wakes (s := { s with ipc }) wakeful.agrees blocked
        receiving .message
      unfold wakeFromIpc at agrees ⊢
      rw [if_pos rfl, isReceiver, woken] at agrees ⊢
      refine ⟨fun failed => (by cases failed), ?_⟩
      refine Wakeful.of_task (t := s.table) agrees rfl delivers.mailboxes delivers.unique ?_
      refine wakeful.attuned.change wakeful.named live pair.owner _ _ rfl rfl ?_ ?_
      · exact (wakeful.attuned.fit i).woken live .message
      · exact ⟨pair.owner, by simp [Mailbox.deliver, Task.woken], fun waiting => by cases waiting⟩

theorem refused_wakeful (wakeful : s.Wakeful issued) {ipc : IpcState} {α : Type} {error : IpcError}
    (refusal : (.error error : Except IpcError α) ≠ .error .wakeFailed)
    (undisturbed : Undisturbed s.ipc ipc) :
    (.error error : Except IpcError Nat) ≠ .error .wakeFailed ∧
      ({ s with ipc } : System).Wakeful issued :=
  ⟨fun failed => refusal (congrArg Except.error (Except.error.inj failed)),
    wakeful.undisturbed undisturbed⟩

theorem sendCapability_wakeful (wakeful : s.Wakeful issued) (sender handle : Nat)
    (bytes : List UInt8) :
    (s.sendCapability sender handle bytes).1 ≠ .error .wakeFailed ∧
      (s.sendCapability sender handle bytes).2.Wakeful issued := by
  have refusal := s.ipc.sendCapability_ne_wakeFailed sender handle bytes
  unfold sendCapability
  rcases IpcState.sendCapability_delivers wakeful.unique sender handle bytes with
    ⟨sequence, waiting, receiver, e, ipc, eq, delivers⟩ | ⟨error, ipc, eq, undisturbed⟩
  · rw [eq]
    exact finishSendLocked_wakeful wakeful delivers sequence
  · rw [eq] at refusal ⊢
    exact refused_wakeful wakeful refusal undisturbed

theorem sendWithCapability_wakeful (wakeful : s.Wakeful issued)
    (sender destination transfer : Nat) (rights : Ipc.CapabilityRights) (bytes : List UInt8) :
    (s.sendWithCapability sender destination transfer rights bytes).1 ≠ .error .wakeFailed ∧
      (s.sendWithCapability sender destination transfer rights bytes).2.Wakeful issued := by
  have refusal := s.ipc.sendWithCapability_ne_wakeFailed sender destination transfer rights bytes
  unfold sendWithCapability
  rcases IpcState.sendWithCapability_delivers wakeful.unique sender destination transfer rights
    bytes with ⟨sequence, waiting, receiver, copy, e, ipc, eq, delivers⟩ |
      ⟨error, ipc, eq, undisturbed⟩
  · rw [eq]
    exact finishSendLocked_wakeful wakeful delivers sequence
  · rw [eq] at refusal ⊢
    exact refused_wakeful wakeful refusal undisturbed

/-! ### Receiving -/

theorem receive_wakeful (wakeful : s.Wakeful issued) (receiver : Nat) (output : List UInt8) :
    (s.receive receiver output false).2.1.Wakeful issued := by
  have result := IpcState.receive_mailboxes wakeful.unique receiver output
  unfold receive
  generalize s.ipc.receive receiver output = received at result
  obtain ⟨outcome, ipc, buffer⟩ := received
  obtain ⟨unique, mailboxes⟩ := result
  have wakeful' : ({ s with ipc } : System).Wakeful issued := by
    refine ⟨wakeful.agrees, ?_, unique⟩
    rcases mailboxes with same | ⟨e, nonempty, popped⟩
    · exact (wakeful.undisturbed ⟨same, unique⟩).attuned
    · change Attuned s.table.task s.table.valid ipc.mailboxes
      rw [show ipc.mailboxes = _ from popped]
      refine wakeful.attuned.remail rfl rfl fun waiting => ?_
      obtain ⟨i, -, -, pair⟩ := wakeful.attuned.waiter wakeful.named waiting
      exact absurd (pair.empty waiting) nonempty
  cases outcome with
  | ok delivery => exact wakeful'
  | error error =>
      dsimp only
      rw [if_neg (by simp)]
      exact wakeful'

/-- A task changes in a way that does not matter here. -/
theorem Wakeful.touch (wakeful : s.Wakeful issued) {s' : System} (agrees : s'.Agrees issued)
    {i : Fin maxTasks} {task : Task}
    (slots : s'.table.slots = Function.update s.table.slots i { s.table.slots i with task })
    (messages : s'.ipc = s.ipc) (id : task.id = (s.table.task i).id)
    (state : task.state = (s.table.task i).state)
    (waiting : task.ipcWaiting = (s.table.task i).ipcWaiting)
    (parent : task.parentId = (s.table.task i).parentId)
    (root : task.addressSpaceRoot = (s.table.task i).addressSpaceRoot)
    (resources : task.resourcesActive = (s.table.task i).resourcesActive) : s'.Wakeful issued := by
  refine Wakeful.of_task agrees slots (congrArg IpcState.mailboxes messages)
    (messages ▸ wakeful.unique) ?_
  refine wakeful.attuned.retask task id (by rw [Task.live, state, Task.live]) (by rw [state]) ?_
  exact (wakeful.attuned.fit i).congr state waiting parent root resources

theorem takeIpcWakeReason_wakeful (wakeful : s.Wakeful issued) (taskId : Nat) :
    (s.takeIpcWakeReason taskId).2.Wakeful issued := by
  have agrees := takeIpcWakeReason_agrees wakeful.agrees taskId
  unfold takeIpcWakeReason at agrees ⊢
  cases found : s.table.findTask taskId with
  | none => exact wakeful
  | some i =>
      rw [found] at agrees
      dsimp only at agrees ⊢
      have occupied := (ProcessTable.findTask_eq_some found).1
      have taken : (s.modify i fun task => { task with ipcWakeReason := .none }).Wakeful issued :=
        wakeful.touch (wakeful.agrees.rewrite rfl rfl rfl occupied rfl rfl rfl) rfl rfl rfl rfl rfl
          rfl rfl rfl
      split
      · rename_i expired
        rw [if_pos expired] at agrees
        exact taken.touch agrees rfl rfl rfl rfl rfl rfl rfl rfl
      · exact taken

theorem completeIpcRestart_wakeful (wakeful : s.Wakeful issued) (taskId : Nat) :
    (s.completeIpcRestart taskId).2.Wakeful issued := by
  have agrees := completeIpcRestart_agrees wakeful.agrees taskId
  unfold completeIpcRestart at agrees ⊢
  cases found : s.table.findTask taskId with
  | none => exact wakeful
  | some i =>
      rw [found] at agrees
      dsimp only at agrees ⊢
      split
      · exact wakeful
      · rename_i pending
        rw [if_neg pending] at agrees
        exact wakeful.touch agrees rfl rfl rfl rfl rfl rfl rfl rfl

/-- Setting the flag of the mailbox and then blocking the task, or neither. -/
theorem blockSyscall_wakeful (wakeful : s.Wakeful issued) (running : s.scheduler.currentTask ≠ 0)
    (frame : SyscallFrame) (deadlineTick : Nat) :
    (s.blockSyscall s.scheduler.currentTask frame deadlineTick).2.2.Wakeful issued := by
  have agrees := blockSyscall_agrees wakeful.agrees s.scheduler.currentTask frame deadlineTick
  have allowed := IpcState.canReceive_undisturbed wakeful.unique s.scheduler.currentTask
  unfold blockSyscall at agrees ⊢
  generalize s.ipc.canReceive s.scheduler.currentTask = permission at agrees allowed
  obtain ⟨outcome, ipc⟩ := permission
  have wakeful₁ : ({ s with ipc } : System).Wakeful issued := wakeful.undisturbed allowed
  cases outcome with
  | error error => exact wakeful₁
  | ok _ =>
      dsimp only at agrees ⊢
      cases queue : ipc.hasMessage s.scheduler.currentTask with
      | error error => exact wakeful₁
      | ok ready =>
          cases ready with
          | true => exact wakeful₁
          | false =>
              obtain ⟨i, found, live, unblocked⟩ := wakeful.current running
              have id := (ProcessTable.findTask_eq_some found).2
              obtain ⟨e, mailbox, empty⟩ := IpcState.hasMessage_eq_false queue
              have owner := IpcState.find_eq_some mailbox
              have pair := wakeful₁.attuned.paired_of_owner wakeful.named live
                (owner.trans id.symm)
              have idle : (ipc.mailboxes e).waiting = false :=
                Bool.eq_false_iff.mpr fun waiting => unblocked (pair.waiting.mp waiting)
              obtain ⟨ipc', set, mailboxes, unique⟩ :=
                IpcState.setWaiting_mailboxes wakeful₁.unique mailbox true
              have undone := IpcState.setWaiting_undone wakeful₁.unique mailbox idle set
              rw [queue] at agrees
              dsimp only at agrees ⊢
              rw [set] at agrees ⊢
              dsimp only at agrees ⊢
              have result := blockForIpcSyscall_result (s := { s with ipc := ipc' })
                (Agree.sound wakeful.agrees) s.scheduler.currentTask frame deadlineTick
              generalize blockForIpcSyscall { s with ipc := ipc' } s.scheduler.currentTask frame
                deadlineTick = blocking at agrees result
              obtain ⟨root, frame', s'⟩ := blocking
              cases result with
              | refused => exact wakeful₁.undisturbed undone
              | @saved j context found' =>
                  refine ⟨agrees, ?_, undone.unique⟩
                  change Attuned (saveContext { s with ipc := ipc' } j context).table.task
                    (saveContext { s with ipc := ipc' } j context).table.valid
                    (ipc'.setWaiting s.scheduler.currentTask false).2.mailboxes
                  rw [task_saveContext, valid_saveContext, undone.mailboxes]
                  exact wakeful₁.attuned.save j
              | stuck found' isCurrent nonzero mem places sound unfit =>
                  exact (wakeful.not_unfit mem unfit).elim
              | @switched waited i' j next root _ found' target other isCurrent nonzero mem places
                  sound beside tasks valid =>
                  cases found.symm.trans found'
                  obtain ⟨j', target', liveJ, unblockedJ⟩ := wakeful.queued mem
                  cases target.symm.trans target'
                  have messages : s'.countBlocked.ipc.mailboxes = _ :=
                    (congrArg IpcState.mailboxes beside.ipc).trans mailboxes
                  refine ⟨agrees, ?_, congrArg IpcState.endpoints beside.ipc ▸ unique⟩
                  rw [messages]
                  change Attuned s'.table.task s'.table.valid _
                  rw [tasks, valid]
                  exact wakeful₁.attuned.sleep wakeful.named live pair.owner empty other liveJ
                    unblockedJ deadlineTick s.ticks waited

/-! ### Giving up -/

theorem cancelWait_wakeful (wakeful : s.Wakeful issued) (requester handle : Nat) :
    (s.cancelWait requester handle).2.Wakeful issued := by
  have agrees := cancelWait_agrees wakeful.agrees requester handle
  unfold cancelWait at agrees ⊢
  dsimp only at agrees ⊢
  have resolved := IpcState.resolve_undisturbed (s := { s.ipc with counters := { s.ipc.counters with
    cancellationRequests := satAdd s.ipc.counters.cancellationRequests 1 } }) wakeful.unique
    requester handle Ipc.CapabilityRights.cancel
  generalize IpcState.resolve _ requester handle _ = permission at agrees resolved
  obtain ⟨outcome, ipc⟩ := permission
  have wakeful₁ : ({ s with ipc } : System).Wakeful issued :=
    wakeful.undisturbed ⟨resolved.mailboxes, resolved.unique⟩
  cases outcome with
  | error error => exact wakeful₁
  | ok target =>
      dsimp only at agrees ⊢
      unfold cancelIpcWait at agrees ⊢
      rcases endIpcWait_cases (s := { s with ipc }) wakeful.agrees target .cancelled with
        missed | ⟨i, scheduler, rfl, blocked, woken⟩
      · rw [missed]
        exact wakeful₁
      · have live := live_of_blocked blocked
        obtain ⟨e, mailbox, pair⟩ := wakeful₁.mailbox live
        obtain ⟨ipc', set, mailboxes, unique⟩ :=
          IpcState.setWaiting_mailboxes wakeful₁.unique mailbox false
        rw [woken] at agrees ⊢
        dsimp only [modify] at agrees set ⊢
        rw [set] at agrees ⊢
        exact Wakeful.of_task (t := s.table) agrees rfl mailboxes unique
          (wakeful₁.attuned.wake wakeful.named live pair.owner .cancelled)

theorem expireSlot_wakeful (wakeful : s.Wakeful issued) (now : Nat) (i : Fin maxTasks) :
    (expireSlot now s i).Wakeful issued := by
  have agrees := expireSlot_agrees wakeful.agrees now i
  have after := s.expireSlot_after now i
  generalize expireSlot now s i = s' at agrees after ⊢
  cases after with
  | keep => exact wakeful
  | stuck blocked wakes => exact absurd wakes (wakeful.agrees.wakeTask_ne blocked)
  | wake blocked =>
      have live := live_of_blocked blocked
      obtain ⟨e, mailbox, pair⟩ := wakeful.mailbox live
      obtain ⟨ipc, set, mailboxes, unique⟩ :=
        IpcState.setWaiting_mailboxes wakeful.unique mailbox false
      dsimp only [modify] at agrees ⊢
      rw [set] at agrees ⊢
      exact Wakeful.of_task (t := s.table) agrees rfl mailboxes unique
        (wakeful.attuned.wake wakeful.named live pair.owner .timeout)

/-! ### The timer -/

theorem onTimerInterrupt_wakeful (wakeful : s.Wakeful issued) (context : TimerContext) :
    (s.onTimerInterrupt context).2.2.Wakeful issued := by
  have agrees := onTimerInterrupt_agrees wakeful.agrees context
  have result := onTimerInterrupt_result (Agree.sound wakeful.agrees) context
  generalize (s.onTimerInterrupt context).2.2 = s' at agrees result
  cases result with
  | idle beside scheduled tasks valid =>
      refine ⟨agrees, ?_, congrArg IpcState.endpoints beside.ipc ▸ wakeful.unique⟩
      rw [tasks, valid, beside.ipc]
      exact wakeful.attuned
  | stuck running mem places sound beside tasks unfit =>
      obtain ⟨i, found, -⟩ := wakeful.current running
      exact (wakeful.not_unfit mem fun j target => unfit i j found target).elim
  | switched waited found target other running mem places sound beside tasks valid =>
      obtain ⟨i, found', live, unblocked⟩ := wakeful.current running
      cases found.symm.trans found'
      obtain ⟨j, target', liveNext, unblockedNext⟩ := wakeful.queued mem
      cases target.symm.trans target'
      refine ⟨agrees, ?_, congrArg IpcState.endpoints beside.ipc ▸ wakeful.unique⟩
      rw [tasks, valid, beside.ipc]
      exact wakeful.attuned.preempt live unblocked other liveNext unblockedNext s.ticks waited

theorem wakeful_survivesCalls (issued : Nat) : SurvivesCalls fun s => s.Wakeful issued where
  takeIpcWakeReason := takeIpcWakeReason_wakeful
  receive := receive_wakeful
  completeIpcRestart := completeIpcRestart_wakeful
  blockSyscall := blockSyscall_wakeful
  sendCapability := fun wakeful sender handle bytes =>
    (sendCapability_wakeful wakeful sender handle bytes).2
  sendWithCapability := fun wakeful sender destination transfer rights bytes =>
    (sendWithCapability_wakeful wakeful sender destination transfer rights bytes).2
  cancelWait := cancelWait_wakeful
  revoke := fun wakeful _ _ =>
    wakeful.undisturbed (IpcState.revoke_undisturbed wakeful.unique _ _)

theorem wakeful_survivesTimer (issued : Nat) : SurvivesTimer fun s => s.Wakeful issued where
  onTimerTick := fun wakeful _ =>
    ⟨onTimerTick_agrees wakeful.agrees _, wakeful.attuned, wakeful.unique⟩
  expireSlot := expireSlot_wakeful
  onTimerInterrupt := onTimerInterrupt_wakeful

/-! ### Tasks come, run and go -/

theorem spawnImage_wakeful (wakeful : s.Wakeful issued) (few : issued < maxWord)
    (image : ProcessImage) (root : image.rootFrame ≠ 0) (heapAllocation : Option Nat) :
    ∃ issued' ≤ issued + 1, (s.spawnImage 0 image heapAllocation).2.Wakeful issued' := by
  obtain ⟨issued', bound, -, agrees⟩ := spawnImage_agrees wakeful.agrees few (Nat.zero_le _) image
    heapAllocation
  refine ⟨issued', bound, ?_⟩
  cases heapAllocation with
  | none => exact ⟨agrees, wakeful.attuned, wakeful.unique⟩
  | some address =>
      unfold spawnImage installTask at agrees ⊢
      dsimp only at agrees ⊢
      have same : (if s.table.initialized then s.table else s.table.init).task = s.table.task ∧
          (if s.table.initialized then s.table else s.table.init).valid = s.table.valid ∧
          (if s.table.initialized then s.table else s.table.init).nextTaskId =
            s.table.nextTaskId := by
        split
        · exact ⟨rfl, rfl, rfl⟩
        · exact ⟨rfl, rfl, rfl⟩
      generalize (if s.table.initialized then s.table else s.table.init) = table at *
      obtain ⟨sameTask, sameValid, sameNext⟩ := same
      have attuned : Attuned table.task table.valid s.ipc.mailboxes := by
        rw [sameTask, sameValid]
        exact wakeful.attuned
      cases found : table.freeSlot with
      | none =>
          rw [found] at agrees
          exact ⟨agrees, attuned, wakeful.unique⟩
      | some i =>
          rw [found] at agrees
          dsimp only at agrees ⊢
          have nextEq : table.nextTaskId = issued + 1 := by
            rw [sameNext, Agree.next wakeful.agrees]
            omega
          have fresh : ∀ j, (table.task j).live = true → (table.task j).id ≠ table.nextTaskId := by
            intro j live
            rw [sameTask] at live ⊢
            have := (Agree.ids wakeful.agrees j (Task.live_iff.mp live).1).2
            omega
          rcases IpcState.register_mailboxes wakeful.unique table.nextTaskId with
            ⟨error, eq⟩ | ⟨eq, e, known⟩ | ⟨e, ipc, eq, unknown, nonzero, vacant, mailboxes, unique⟩
          · rw [eq] at agrees ⊢
            exact ⟨agrees, attuned, wakeful.unique⟩
          · -- the endpoint would belong to a live task with the new id
            have owner := IpcState.find_eq_some known
            obtain ⟨j, live, id⟩ := attuned.owned e (by omega)
            exact absurd (id.trans owner) (fresh j live)
          · rw [eq] at agrees ⊢
            refine ⟨agrees, ?_, unique⟩
            dsimp only
            rw [ProcessTable.task_of_slots (t := table) rfl,
              ProcessTable.valid_of_slots (t := table) rfl, mailboxes]
            refine attuned.install (sameTask ▸ wakeful.named) (ProcessTable.freeSlot_eq_some found)
              vacant (freshTask table.nextTaskId 0 address image) fresh nonzero rfl ?_
            exact
              { able := fun _ => ⟨rfl, root, rfl⟩
                orphan := rfl
                flag := ⟨fun waiting => (by cases waiting), fun blocked => (by cases blocked)⟩
                retired := fun exited => by cases exited }

theorem markRunning_wakeful (wakeful : s.Wakeful issued) {id : Nat} {i : Fin maxTasks}
    (found : s.table.findTask id = some i) (ready : (s.table.task i).state = .ready)
    (syscallsBefore : Nat) : (s.markRunning id syscallsBefore).2.Wakeful issued := by
  have agrees := markRunning_agrees wakeful.agrees id syscallsBefore
  unfold markRunning at agrees ⊢
  rw [found] at agrees ⊢
  have live : (s.table.task i).live = true := by simp [Task.live, ready]
  have unblocked : (s.table.task i).state ≠ .blocked := by simp [ready]
  have fit := wakeful.attuned.fit i
  refine Wakeful.of_task (t := s.table) agrees rfl rfl wakeful.unique ?_
  refine wakeful.attuned.retask _ rfl live.symm
    ⟨fun blocked => (by cases blocked), fun blocked => absurd blocked unblocked⟩ ?_
  exact fit.awake live rfl (fun blocked => by cases blocked) (fit.not_waiting unblocked) rfl rfl rfl

/-- Without a parent, `mark_exited` is its first part. -/
theorem markExited_orphan {id : Nat} {i : Fin maxTasks} (found : s.table.findTask id = some i)
    (orphan : (s.table.task i).parentId = 0) (exitCode syscallsAfter : Nat) :
    (s.markExited id exitCode syscallsAfter).2 = s.retire i id exitCode syscallsAfter := by
  unfold markExited
  rw [found]
  exact if_neg (not_not.mpr orphan)

/-- `mark_exited` and `cleanup_task` together. -/
theorem exit_wakeful (wakeful : s.Wakeful issued) (id exitCode syscallsAfter : Nat)
    (teardown : Teardown) :
    ((s.markExited id exitCode syscallsAfter).2.cleanupTask id teardown).2.Wakeful issued := by
  have exited := markExited_agrees wakeful.agrees id exitCode syscallsAfter
  have agrees := cleanupTask_agrees exited id teardown
  cases found : s.table.findTask id with
  | none =>
      unfold markExited cleanupTask
      rw [found]
      dsimp only
      rw [found]
      exact wakeful
  | some i =>
      obtain ⟨occupied, rfl⟩ := ProcessTable.findTask_eq_some found
      have fit := wakeful.attuned.fit i
      rw [markExited_orphan found fit.orphan] at exited agrees ⊢
      -- the task as `mark_exited` leaves it
      obtain ⟨task, slots, id, state, waiting, parent, resources⟩ : ∃ task : Task,
          (s.retire i (s.table.task i).id exitCode syscallsAfter).table.slots =
            Function.update s.table.slots i { s.table.slots i with task } ∧
          task.id = (s.table.task i).id ∧ task.state = .exited ∧ task.ipcWaiting = false ∧
          task.parentId = 0 ∧ task.resourcesActive = (s.table.task i).resourcesActive :=
        ⟨_, rfl, rfl, rfl, rfl, fit.orphan, rfl⟩
      have messages : (s.retire i (s.table.task i).id exitCode syscallsAfter).ipc = s.ipc := rfl
      generalize s.retire i (s.table.task i).id exitCode syscallsAfter = s₁ at *
      have tasks := ProcessTable.task_of_slots slots
      have valid := ProcessTable.valid_of_task slots
      have here : s₁.table.task i = task := by rw [tasks, Function.update_self]
      have dead : ∀ task' : Task, task'.state = .exited → task'.live = false := by
        intro task' state
        simp [Task.live, state]
      have refit : ∀ task' : Task, task'.state = .exited → task'.ipcWaiting = false →
          task'.parentId = 0 → task'.resourcesActive = false → task'.Fit (s.table.valid i) := by
        intro task' state waiting parent resources
        exact
          { able := fun live => by
              rw [dead task' state] at live
              cases live
            orphan := parent
            flag := by simp [waiting, state]
            retired := fun _ => resources }
      have found₁ : s₁.table.findTask (s.table.task i).id = some i := by
        have := exited.findTask (i := i) (by rw [here, state]; decide)
        rwa [here, id] at this
      unfold cleanupTask at agrees ⊢
      rw [found₁] at agrees ⊢
      dsimp only at agrees ⊢
      cases active : (s.table.task i).resourcesActive with
      | false =>
          have gone : (s.table.task i).live = false := by
            refine Bool.eq_false_iff.mpr fun live => ?_
            rw [(fit.able live).2.2] at active
            cases active
          have inert : (s.table.task i).state ≠ .blocked := fun blocked => by
            rw [live_of_blocked blocked] at gone
            cases gone
          rw [here, resources, active] at agrees ⊢
          refine Wakeful.of_task (t := s.table) agrees slots (congrArg IpcState.mailboxes messages)
            (messages ▸ wakeful.unique) ?_
          exact wakeful.attuned.retask task id ((dead task state).trans gone.symm)
            (by simp [state, inert]) (refit task state waiting parent (resources.trans active))
      | true =>
          have live : (s.table.task i).live = true := by
            rw [Task.live_iff]
            refine ⟨occupied, fun exited => ?_⟩
            rw [fit.retired exited] at active
            cases active
          obtain ⟨e, mailbox, pair⟩ := wakeful.mailbox live
          obtain ⟨dropped, ipc, unregistered, mailboxes, unique⟩ :=
            IpcState.unregister_mailboxes wakeful.unique mailbox
          rw [here, resources, active, messages, unregistered] at agrees ⊢
          refine Wakeful.of_task (t := s₁.table) agrees rfl mailboxes unique ?_
          rw [tasks, valid, Function.update_idem]
          refine wakeful.attuned.remove wakeful.named live pair.owner _ (dead _ ?_)
            (refit _ ?_ ?_ ?_ rfl)
          · exact (congrArg Task.state here).trans state
          · exact (congrArg Task.state here).trans state
          · exact (congrArg Task.ipcWaiting here).trans waiting
          · exact (congrArg Task.parentId here).trans parent

end System

end CloudOS.Process
