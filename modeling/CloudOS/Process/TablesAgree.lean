import CloudOS.Process.Concord

/-!
The three tables stay in concord in every run of the process table's methods:
spawns with or without a parent, starts, waits, task switches, exits and cleanups.
-/

namespace CloudOS.Process

open Lib.Word (maxWord)
open CloudOS.Ipc (IpcState maxEndpoints)

/-! ### The methods of the process table -/

/-- The invariant of a run. -/
structure System.InConcord (s : System) (issued : Nat) : Prop where
  agrees : s.Agrees issued
  seated : Seated s.scheduler s.table.task
  housed : Housed s.table.task s.table.valid s.ipc.owners
  unique : s.ipc.endpoints.GenerationsUnique
  initialized : s.ipc.initialized = true

namespace System

variable {s : System} {issued : Nat}

theorem InConcord.of_tasks {tasks : Fin maxTasks → Task} {valid : Fin maxTasks → Bool}
    {owners : Fin maxEndpoints → Nat} (agrees : s.Agrees issued) (table : s.table.task = tasks)
    (validity : s.table.valid = valid) (owned : s.ipc.owners = owners)
    (seated : Seated s.scheduler tasks) (housed : Housed tasks valid owners)
    (unique : s.ipc.endpoints.GenerationsUnique) (initialized : s.ipc.initialized = true) :
    s.InConcord issued :=
  ⟨agrees, table ▸ seated, table ▸ validity ▸ owned ▸ housed, unique, initialized⟩

/-- A task and its place change; what it holds does not. -/
theorem InConcord.change (concord : s.InConcord issued) {s' : System} (agrees : s'.Agrees issued)
    {i : Fin maxTasks} {task : Task}
    (slots : s'.table.slots = Function.update s.table.slots i { s.table.slots i with task })
    (messages : s'.ipc = s.ipc)
    (seated : Seated s'.scheduler (Function.update s.table.task i task))
    (id : task.id = (s.table.task i).id)
    (resources : task.resourcesActive = (s.table.task i).resourcesActive)
    (root : task.addressSpaceRoot = (s.table.task i).addressSpaceRoot)
    (live : task.live = true → (s.table.task i).live = true) (filled : task.state ≠ .empty) :
    s'.InConcord issued := by
  have tasks : s'.table.task = Function.update s.table.task i task :=
    ProcessTable.task_of_slots slots
  refine ⟨agrees, ?_, ?_, ?_, ?_⟩
  · rw [tasks]
    exact seated
  · rw [tasks, ProcessTable.valid_of_task slots, messages]
    exact concord.housed.retask id resources root live filled
  · rw [messages]
    exact concord.unique
  · rw [messages]
    exact concord.initialized

theorem markRunning_concord (concord : s.InConcord issued) {i : Fin maxTasks} {id : Nat}
    (found : s.table.findTask id = some i) (ready : (s.table.task i).state = .ready)
    (idle : s.scheduler.currentTask = 0) (syscallsBefore : Nat) :
    (s.markRunning id syscallsBefore).2.InConcord issued := by
  have agrees := markRunning_agrees concord.agrees id syscallsBefore
  obtain ⟨occupied, rfl⟩ := ProcessTable.findTask_eq_some found
  unfold markRunning at agrees ⊢
  rw [found] at agrees ⊢
  refine concord.change agrees rfl rfl ?_ rfl rfl rfl (fun _ => live_of_state (Or.inl ready)) ?_
  · exact concord.seated.start concord.agrees occupied rfl rfl idle
  · exact fun empty => by cases empty

theorem retire_concord (concord : s.InConcord issued) {i : Fin maxTasks}
    (occupied : (s.table.task i).state ≠ .empty) (exitCode syscallsAfter : Nat) :
    (s.retire i (s.table.task i).id exitCode syscallsAfter).InConcord issued := by
  refine concord.change (retire_agrees concord.agrees occupied exitCode syscallsAfter) rfl rfl ?_
    rfl rfl rfl (fun live => by cases live) (fun empty => by cases empty)
  rw [retire_scheduler]
  exact concord.seated.finish concord.agrees occupied rfl rfl

theorem wakeWaitingParent_concord (concord : s.InConcord issued) (parentId childId : Nat) :
    (s.wakeWaitingParent parentId childId).2.InConcord issued := by
  have agrees := wakeWaitingParent_agrees concord.agrees parentId childId
  have after := s.wakeWaitingParent_after parentId childId
  generalize (s.wakeWaitingParent parentId childId).2 = s' at agrees after ⊢
  cases after with
  | refuse => exact concord
  | stuck found blocked wakes =>
      obtain ⟨-, rfl⟩ := ProcessTable.findTask_eq_some found
      exact absurd wakes (concord.agrees.wakeTask_ne blocked)
  | wake found blocked _ wakes =>
      obtain ⟨-, rfl⟩ := ProcessTable.findTask_eq_some found
      refine concord.change agrees rfl rfl ?_ rfl rfl rfl (fun _ => live_of_blocked blocked)
        (fun empty => by cases empty)
      exact concord.seated.wake concord.agrees blocked rfl rfl wakes

theorem markExited_concord (concord : s.InConcord issued) (id exitCode syscallsAfter : Nat) :
    (s.markExited id exitCode syscallsAfter).2.InConcord issued := by
  unfold markExited
  cases found : s.table.findTask id with
  | none => exact concord
  | some i =>
      obtain ⟨occupied, rfl⟩ := ProcessTable.findTask_eq_some found
      have retired := retire_concord concord occupied exitCode syscallsAfter
      dsimp only
      split
      · exact wakeWaitingParent_concord retired _ _
      · exact retired

theorem endIpcWait_concord (concord : s.InConcord issued) (taskId : Nat) (reason : IpcWakeReason) :
    (s.endIpcWait taskId reason).2.InConcord issued := by
  have agrees := endIpcWait_agrees concord.agrees taskId reason
  have after := s.endIpcWait_after taskId reason
  generalize (s.endIpcWait taskId reason).2 = s' at agrees after ⊢
  cases after with
  | refuse => exact concord
  | stuck found blocked _ wakes =>
      obtain ⟨-, rfl⟩ := ProcessTable.findTask_eq_some found
      exact absurd wakes (concord.agrees.wakeTask_ne blocked)
  | wake found blocked _ wakes =>
      obtain ⟨-, rfl⟩ := ProcessTable.findTask_eq_some found
      refine concord.change agrees rfl rfl ?_ rfl rfl rfl (fun _ => live_of_blocked blocked)
        (fun empty => by cases empty)
      exact concord.seated.wake concord.agrees blocked rfl rfl wakes

theorem cancelIpcWait_concord (concord : s.InConcord issued) (taskId : Nat) :
    (s.cancelIpcWait taskId).2.InConcord issued := by
  have ended := endIpcWait_concord concord taskId .cancelled
  unfold cancelIpcWait
  generalize s.endIpcWait taskId .cancelled = result at ended
  obtain ⟨succeeded, s'⟩ := result
  cases succeeded with
  | false => exact ended
  | true => exact ⟨ended.agrees, ended.seated, ended.housed, ended.unique, ended.initialized⟩

theorem expireSlot_concord (concord : s.InConcord issued) (now : Nat) (i : Fin maxTasks) :
    (expireSlot now s i).InConcord issued := by
  have agrees := expireSlot_agrees concord.agrees now i
  have after := s.expireSlot_after now i
  generalize expireSlot now s i = s' at agrees after ⊢
  cases after with
  | keep _ => exact concord
  | stuck blocked wakes => exact absurd wakes (concord.agrees.wakeTask_ne blocked)
  | wake blocked _ _ _ wakes =>
      have quiet : ({ s with ipc := (s.ipc.setWaiting (s.table.task i).id false).2 } :
          System).InConcord issued := by
        refine ⟨concord.agrees, concord.seated, ?_, ?_, ?_⟩
        · rw [IpcState.setWaiting_owners]
          exact concord.housed
        · exact (Ipc.setWaiting_change s.ipc _ _).unique concord.unique
        · rw [IpcState.setWaiting_initialized]
          exact concord.initialized
      refine quiet.change agrees rfl rfl ?_ rfl rfl rfl (fun _ => live_of_blocked blocked)
        (fun empty => by cases empty)
      exact concord.seated.wake concord.agrees blocked rfl rfl wakes

theorem expireIpcDeadlines_concord (concord : s.InConcord issued) (now : Nat) :
    (s.expireIpcDeadlines now).InConcord issued := by
  unfold expireIpcDeadlines
  generalize List.finRange maxTasks = slots
  induction slots generalizing s with
  | nil => exact concord
  | cons i slots ih => exact ih (expireSlot_concord concord now i)

theorem waitChild_concord (concord : s.InConcord issued) (parentId childId : Nat) :
    (s.waitChild parentId childId).2.InConcord issued := by
  have agrees := waitChild_agrees concord.agrees parentId childId
  have after := s.waitChild_after parentId childId
  generalize (s.waitChild parentId childId).2 = s' at agrees after ⊢
  cases after with
  | refuse => exact concord
  | @collect j _ released =>
      exact InConcord.of_tasks agrees (ProcessTable.task_of_slots rfl)
        (ProcessTable.valid_of_slots rfl) rfl (concord.seated.reap j)
        (concord.housed.reap released) concord.unique concord.initialized
  | stuck blocks =>
      exact ⟨agrees, concord.seated.block_failed concord.agrees blocks, concord.housed,
        concord.unique, concord.initialized⟩
  | block found live blocks =>
      obtain ⟨occupied, rfl⟩ := ProcessTable.findTask_eq_some found
      refine concord.change agrees rfl rfl ?_ rfl rfl rfl (fun _ => live)
        (fun empty => by cases empty)
      exact concord.seated.block concord.agrees occupied rfl rfl blocks

theorem blockForIpc_concord (concord : s.InConcord issued) (taskId : Nat) :
    (s.blockForIpc taskId).2.InConcord issued := by
  have agrees := blockForIpc_agrees concord.agrees taskId
  have after := s.blockForIpc_after taskId
  generalize (s.blockForIpc taskId).2 = s' at agrees after ⊢
  cases after with
  | refuse => exact concord
  | stuck blocks =>
      exact ⟨agrees, concord.seated.block_failed concord.agrees blocks, concord.housed,
        concord.unique, concord.initialized⟩
  | block found awake blocks =>
      obtain ⟨occupied, rfl⟩ := ProcessTable.findTask_eq_some found
      refine concord.change agrees rfl rfl ?_ rfl rfl rfl
        (fun _ => live_of_state (awake.imp_right Or.inl)) (fun empty => by cases empty)
      exact concord.seated.block concord.agrees occupied rfl rfl blocks

/-! ### Task switches -/

/-- Whoever has a place is found, and can be switched to. -/
theorem InConcord.placed (concord : s.InConcord issued) {id : Nat}
    (has : s.scheduler.placement.Has id) :
    ∃ i, s.table.findTask id = some i ∧ (s.table.task i).live = true ∧ s.table.valid i = true ∧
      (s.table.task i).addressSpaceRoot ≠ 0 := by
  obtain ⟨i, live, rfl⟩ := Agree.placed concord.agrees id has
  obtain ⟨valid, root, -⟩ := concord.housed.able i live
  exact ⟨i, concord.agrees.findTask (Task.live_iff.mp live).1, live, valid, root⟩

/-- The current task leaves the processor as `task`, with its registers stored,
and the one in slot `j` takes over. -/
theorem InConcord.switch (concord : s.InConcord issued) {s' : System} (agrees : s'.Agrees issued)
    {i j : Fin maxTasks} {task : Task} {waited : Nat} (beside : Beside s s')
    (tasks : s'.table.task = Function.update (Function.update s.table.task i task) j
      ((s.table.task j).scheduled s.ticks waited))
    (valid : s'.table.valid = Function.update s.table.valid i true) (other : j ≠ i)
    (seated : Seated s'.scheduler s'.table.task) (live : (s.table.task i).live = true)
    (liveNext : (s.table.task j).live = true) (id : task.id = (s.table.task i).id)
    (resources : task.resourcesActive = (s.table.task i).resourcesActive)
    (root : task.addressSpaceRoot = (s.table.task i).addressSpaceRoot)
    (filled : task.state ≠ .empty) : s'.InConcord issued := by
  refine ⟨agrees, seated, ?_, ?_, ?_⟩
  · rw [tasks, valid, beside.ipc]
    have left := (concord.housed.save i).retask id resources root (fun _ => live) filled
    refine left.retask ?_ ?_ ?_ (fun _ => ?_) (fun empty => by cases empty)
    · rw [Function.update_of_ne other]
      rfl
    · rw [Function.update_of_ne other]
      rfl
    · rw [Function.update_of_ne other]
      rfl
    · rwa [Function.update_of_ne other]
  · rw [beside.ipc]
    exact concord.unique
  · rw [beside.ipc]
    exact concord.initialized

theorem blockForIpcSyscall_concord (concord : s.InConcord issued) (taskId : Nat)
    (frame : SyscallFrame) (deadlineTick : Nat) :
    (s.blockForIpcSyscall taskId frame deadlineTick).2.2.InConcord issued := by
  have agrees := blockForIpcSyscall_agrees concord.agrees taskId frame deadlineTick
  have result := blockForIpcSyscall_result (Agree.sound concord.agrees) taskId frame deadlineTick
  generalize (s.blockForIpcSyscall taskId frame deadlineTick).1 = root at result
  generalize (s.blockForIpcSyscall taskId frame deadlineTick).2.2 = s' at agrees result
  cases result with
  | refused => exact concord
  | @saved i context found =>
      refine ⟨agrees, ?_, ?_, concord.unique, concord.initialized⟩
      · rw [task_saveContext]
        exact concord.seated
      · rw [task_saveContext, valid_saveContext]
        exact concord.housed.save i
  | @stuck i context next scheduler found isCurrent nonzero mem places sound unfit =>
      obtain ⟨j, target, -, valid, root⟩ := concord.placed (Or.inl mem)
      rcases unfit j target with invalid | rootless
      · rw [valid] at invalid
        cases invalid
      · exact absurd rootless root
  | @switched waited i j next root s' found target other isCurrent nonzero mem places sound beside
      tasks valid =>
      obtain ⟨occupied, id⟩ := ProcessTable.findTask_eq_some found
      obtain ⟨occupiedNext, idNext⟩ := ProcessTable.findTask_eq_some target
      have has : s.scheduler.placement.Has taskId := Or.inr (Or.inr ⟨isCurrent.symm, nonzero⟩)
      obtain ⟨i', found', live, -⟩ := concord.placed has
      cases found.symm.trans found'
      obtain ⟨j', target', liveNext, -⟩ := concord.placed (Or.inl mem)
      cases target.symm.trans target'
      refine concord.switch agrees beside tasks valid other ?_ live liveNext rfl rfl rfl
        (fun empty => by cases empty)
      rw [tasks]
      refine concord.seated.takeOver concord.agrees (Task.asleep _ _) occupied rfl
        (isCurrent.trans id.symm)
        occupiedNext (fun x queued notNext => ?_) ?_ (fun ready => by cases ready)
        (fun running => by cases running) (fun empty => by cases empty) _ _
      · rw [Scheduler.queued_of_places places]
        exact (List.mem_erase_of_ne (idNext ▸ notNext)).mpr queued
      · rw [Scheduler.currentTask_of_places places]
        exact idNext.symm

theorem onTimerInterrupt_concord (concord : s.InConcord issued) (context : TimerContext) :
    (s.onTimerInterrupt context).2.2.InConcord issued := by
  have agrees := onTimerInterrupt_agrees concord.agrees context
  have result := onTimerInterrupt_result (Agree.sound concord.agrees) context
  generalize (s.onTimerInterrupt context).2.2 = s' at agrees result
  cases result with
  | idle beside scheduled tasks valid =>
      refine ⟨agrees, ?_, ?_, ?_, ?_⟩
      · rw [scheduled, tasks]
        exact concord.seated
      · rw [tasks, valid, beside.ipc]
        exact concord.housed
      · rw [beside.ipc]
        exact concord.unique
      · rw [beside.ipc]
        exact concord.initialized
  | stuck running mem places sound beside tasks unfit =>
      obtain ⟨i, found, -⟩ := concord.placed (Or.inr (Or.inr ⟨rfl, running⟩))
      obtain ⟨j, target, -, valid, root⟩ := concord.placed (Or.inl mem)
      rcases unfit i j found target with invalid | rootless
      · rw [valid] at invalid
        cases invalid
      · exact absurd rootless root
  | @switched waited i j next s' found target other running mem places sound beside tasks valid =>
      obtain ⟨occupied, id⟩ := ProcessTable.findTask_eq_some found
      obtain ⟨occupiedNext, idNext⟩ := ProcessTable.findTask_eq_some target
      obtain ⟨i', found', live, -⟩ := concord.placed (Or.inr (Or.inr ⟨rfl, running⟩))
      cases found.symm.trans found'
      obtain ⟨j', target', liveNext, -⟩ := concord.placed (Or.inl mem)
      cases target.symm.trans target'
      refine concord.switch agrees beside tasks valid other ?_ live liveNext rfl rfl rfl
        (fun empty => by cases empty)
      have queued := Scheduler.queued_of_places places
      rw [tasks]
      refine concord.seated.takeOver concord.agrees (Task.preempted _) occupied rfl id.symm
        occupiedNext
        (fun x mem notNext => ?_) ?_ (fun _ => ?_) (fun running => by cases running)
        (fun empty => by cases empty) _ _
      · rw [queued]
        exact List.mem_append_left _ ((List.mem_erase_of_ne (idNext ▸ notNext)).mpr mem)
      · rw [Scheduler.currentTask_of_places places]
        exact idNext.symm
      · rw [queued, id]
        exact List.mem_append_right _ List.mem_cons_self

theorem onTimerTick_concord (concord : s.InConcord issued) (ticks : Nat) :
    ({ s with ticks, scheduler := s.scheduler.onTimerTick } : System).InConcord issued :=
  ⟨onTimerTick_agrees concord.agrees ticks,
    concord.seated.reschedule s.scheduler.onTimerTick_placement, concord.housed, concord.unique,
    concord.initialized⟩

/-! ### Resources -/

/-- The endpoint of a task that holds resources. -/
theorem InConcord.find (concord : s.InConcord issued) {i : Fin maxTasks}
    (active : (s.table.task i).resourcesActive = true) :
    ∃ e, s.ipc.find (s.table.task i).id = some e ∧ s.ipc.owners e = (s.table.task i).id := by
  obtain ⟨e, owner⟩ := concord.housed.registered i active
  cases found : s.ipc.find (s.table.task i).id with
  | none => exact absurd owner (Ipc.Endpoints.find_eq_none.mp found e)
  | some e' => exact ⟨e', rfl, Ipc.Endpoints.find_eq_some found⟩

theorem cleanupTask_concord (concord : s.InConcord issued) {id : Nat}
    (exited : ∀ i ∈ s.table.findTask id, (s.table.task i).state = .exited) (teardown : Teardown) :
    (s.cleanupTask id teardown).2.InConcord issued := by
  have agrees := cleanupTask_agrees concord.agrees id teardown
  unfold cleanupTask at agrees ⊢
  cases found : s.table.findTask id with
  | none => exact concord
  | some i =>
      have dead := exited i found
      obtain ⟨occupied, rfl⟩ := ProcessTable.findTask_eq_some found
      rw [found] at agrees
      dsimp only at agrees ⊢
      split
      · exact concord
      rename_i active
      rw [if_neg active] at agrees
      have active' : (s.table.task i).resourcesActive = true := by simpa using active
      obtain ⟨e, endpoint, owner⟩ := concord.find active'
      obtain ⟨dropped, ipc, eq, mailboxes, unique⟩ :=
        IpcState.unregister_mailboxes concord.unique endpoint
      have initialized : ipc.initialized = true := by
        have frame := (s.ipc.unregister_frame (s.table.task i).id).1
        rw [eq] at frame
        exact frame.trans concord.initialized
      have nonzero : (s.table.task i).id ≠ 0 := by
        have := (Agree.ids concord.agrees i occupied).1
        omega
      have gone : ∀ task : Task, task.state = (s.table.task i).state → task.live = false := by
        intro task state
        simp [Task.live, state, dead]
      rw [eq] at agrees ⊢
      refine InConcord.of_tasks agrees (ProcessTable.task_of_slots rfl)
        (ProcessTable.valid_of_task rfl) (IpcState.owners_of_mailboxes mailboxes) ?_ ?_ unique
        initialized
      · exact concord.seated.retask concord.agrees occupied rfl rfl
      · exact concord.housed.release (Agree.distinct concord.agrees) nonzero active' owner rfl
          (gone _ rfl)

theorem InConcord.inactive (concord : s.InConcord issued) {i : Fin maxTasks}
    (found : s.table.freeSlot = some i) : (s.table.task i).resourcesActive = false := by
  have free := Lib.Scan.first_eq_some found
  simp only [Bool.or_eq_true, beq_iff_eq, Bool.and_eq_true, Bool.not_eq_true'] at free
  rcases free with empty | ⟨⟨-, inactive⟩, -⟩
  · exact Bool.eq_false_iff.mpr fun active => concord.housed.occupied i active empty
  · exact inactive

/-- With a free slot there is an endpoint for the next task. -/
theorem InConcord.registers (concord : s.InConcord issued) (few : issued < maxWord)
    {i : Fin maxTasks} (found : s.table.freeSlot = some i) :
    ∃ e ipc, s.ipc.register s.table.nextTaskId = (.ok (), ipc) ∧ s.ipc.owners e = 0 ∧
      (∀ e', s.ipc.owners e' ≠ s.table.nextTaskId) ∧
      ipc.owners = Function.update s.ipc.owners e s.table.nextTaskId ∧
      ipc.endpoints.GenerationsUnique ∧ ipc.initialized = true := by
  have next : s.table.nextTaskId = issued + 1 := by
    rw [Agree.next concord.agrees]
    omega
  have fresh : ∀ e', s.ipc.owners e' ≠ s.table.nextTaskId := by
    intro e' owner
    obtain ⟨j, active, id⟩ := concord.housed.owned e' (by omega)
    have := (Agree.ids concord.agrees j (concord.housed.occupied j active)).2
    omega
  obtain ⟨e, unowned⟩ := concord.housed.exists_free (concord.inactive found)
  have succeeds := IpcState.register_ok concord.initialized (by omega : s.table.nextTaskId ≠ 0)
    unowned
  have initialized := (s.ipc.register_initialized s.table.nextTaskId).trans concord.initialized
  rcases IpcState.register_mailboxes concord.unique s.table.nextTaskId with
    ⟨error, eq⟩ | ⟨-, e', owner⟩ | ⟨e', ipc, eq, -, -, unowned', mailboxes, unique⟩
  · rw [eq] at succeeds
    cases succeeds
  · exact absurd (Ipc.Endpoints.find_eq_some owner) (fresh e')
  · rw [eq] at initialized
    exact ⟨e', ipc, eq, unowned', fresh, IpcState.owners_of_mailboxes mailboxes, unique,
      initialized⟩

theorem spawnImage_concord (concord : s.InConcord issued) (few : issued < maxWord) {parentId : Nat}
    (parent : parentId ≤ issued) {image : ProcessImage} (root : image.rootFrame ≠ 0)
    (heapAllocation : Option Nat) :
    ∃ issued' ≤ issued + 1, (s.spawnImage parentId image heapAllocation).2.InConcord issued' := by
  cases heapAllocation with
  | none =>
      exact ⟨issued, Nat.le_succ _, concord.agrees, concord.seated, concord.housed, concord.unique,
        concord.initialized⟩
  | some address =>
      unfold spawnImage installTask
      dsimp only
      have ready : ({ s with table := if s.table.initialized then s.table else s.table.init } :
          System).InConcord issued := by
        split
        · exact concord
        · exact ⟨concord.agrees, concord.seated, concord.housed, concord.unique,
            concord.initialized⟩
      generalize (if s.table.initialized then s.table else s.table.init) = table at *
      cases found : table.freeSlot with
      | none =>
          exact ⟨issued, Nat.le_succ _, ready.agrees, ready.seated, ready.housed, ready.unique,
            ready.initialized⟩
      | some i =>
          obtain ⟨e, ipc, eq, unowned, fresh, owners, unique, initialized⟩ :=
            ready.registers few found
          have next : table.nextTaskId = issued + 1 := by
            rw [show table.nextTaskId = _ from Agree.next ready.agrees]
            omega
          have vacant := ProcessTable.freeSlot_eq_some found
          obtain ⟨scheduler, queues, places, -⟩ := Agree.enqueues ready.agrees few vacant
          dsimp only
          dsimp only at eq queues places
          rw [eq]
          refine ⟨issued + 1, le_rfl, InConcord.of_tasks ?_ (ProcessTable.task_of_slots rfl)
            (ProcessTable.valid_of_slots rfl) owners ?_ ?_ unique initialized⟩
          · refine Agrees.of_agree ?_ rfl rfl (ProcessTable.task_of_slots rfl)
            refine Agree.install ready.agrees few vacant rfl ?_ rfl
            change parentId < table.nextTaskId
            omega
          · dsimp only
            rw [queues]
            exact ready.seated.install places rfl
          · refine ready.housed.install (ready.inactive found) unowned (fun j occupied => ?_) fresh
              root rfl (fun empty => by cases empty)
            have := (Agree.ids ready.agrees j occupied).1
            omega

theorem spawnElfChild_concord (concord : s.InConcord issued) (few : issued < maxWord)
    (parentId : Nat) {image : Option ProcessImage} (root : ∀ loaded ∈ image, loaded.rootFrame ≠ 0)
    (heapAllocation : Option Nat) :
    ∃ issued' ≤ issued + 1,
      (s.spawnElfChild parentId image heapAllocation).2.InConcord issued' := by
  have failed : ∃ issued' ≤ issued + 1, s.failSpawn.InConcord issued' :=
    ⟨issued, Nat.le_succ _, concord.agrees, concord.seated, concord.housed, concord.unique,
      concord.initialized⟩
  unfold spawnElfChild
  split
  · exact failed
  rename_i valid
  cases image with
  | none => exact failed
  | some image =>
      exact spawnImage_concord concord few (concord.agrees.parent_le valid) (root image rfl)
        heapAllocation

theorem spawnPreemptTask_concord (concord : s.InConcord issued) (few : issued < maxWord)
    {image : Option ProcessImage} (root : ∀ loaded ∈ image, loaded.rootFrame ≠ 0)
    (executable : Bool) (heapAllocation : Option Nat) :
    ∃ issued' ≤ issued + 1,
      (s.spawnPreemptTask image executable heapAllocation).2.InConcord issued' := by
  have failed : ∃ issued' ≤ issued + 1, s.failSpawn.InConcord issued' :=
    ⟨issued, Nat.le_succ _, concord.agrees, concord.seated, concord.housed, concord.unique,
      concord.initialized⟩
  unfold spawnPreemptTask
  cases image with
  | none => exact failed
  | some image =>
      dsimp only
      split
      · exact failed
      · exact spawnImage_concord concord few (Nat.zero_le _) (root image rfl) heapAllocation

end System

/-! ### Runs -/

inductive TableOp where
  | spawnElfChild (parentId : Nat) (image : Option ProcessImage) (heapAllocation : Option Nat)
  | spawnPreemptTask (image : Option ProcessImage) (executable : Bool)
      (heapAllocation : Option Nat)
  | markRunning (id syscallsBefore : Nat)
  | waitChild (parentId childId : Nat)
  | blockForIpc (taskId : Nat)
  | blockForIpcSyscall (taskId : Nat) (frame : SyscallFrame) (deadlineTick : Nat)
  | wakeFromIpc (taskId : Nat)
  | cancelIpcWait (taskId : Nat)
  | expireIpcDeadlines (now : Nat)
  | onTimerTick (ticks : Nat)
  | onTimerInterrupt (context : TimerContext)
  | startPreemptionTest
  | stopPreemptionTest (passed : Bool)
  | markExited (id exitCode syscallsAfter : Nat)
  | cleanupTask (id : Nat) (teardown : Teardown)

namespace TableOp

def apply (s : System) : TableOp → System
  | spawnElfChild parentId image heap => (s.spawnElfChild parentId image heap).2
  | spawnPreemptTask image executable heap => (s.spawnPreemptTask image executable heap).2
  | markRunning id syscallsBefore => (s.markRunning id syscallsBefore).2
  | waitChild parentId childId => (s.waitChild parentId childId).2
  | blockForIpc taskId => (s.blockForIpc taskId).2
  | blockForIpcSyscall taskId frame deadline => (s.blockForIpcSyscall taskId frame deadline).2.2
  | wakeFromIpc taskId => (s.wakeFromIpc taskId).2
  | cancelIpcWait taskId => (s.cancelIpcWait taskId).2
  | expireIpcDeadlines now => s.expireIpcDeadlines now
  | onTimerTick ticks => { s with ticks, scheduler := s.scheduler.onTimerTick }
  | onTimerInterrupt context => (s.onTimerInterrupt context).2.2
  | startPreemptionTest => { s with table := s.table.startPreemptionTest }
  | stopPreemptionTest passed => { s with table := (s.table.stopPreemptionTest passed).2 }
  | markExited id exitCode syscallsAfter => (s.markExited id exitCode syscallsAfter).2
  | cleanupTask id teardown => (s.cleanupTask id teardown).2

def spawns : TableOp → Bool
  | spawnElfChild .. | spawnPreemptTask .. => true
  | _ => false

/-- Images have an address space; a ready task is run when none is current; only
the current task blocks itself in a system call; only exited tasks are cleaned up. -/
def Legal (s : System) : TableOp → Prop
  | spawnElfChild _ image _ | spawnPreemptTask image _ _ => ∀ loaded ∈ image, loaded.rootFrame ≠ 0
  | markRunning id _ => s.scheduler.currentTask = 0 ∧
      ∃ i ∈ s.table.findTask id, (s.table.task i).state = .ready
  | blockForIpcSyscall taskId _ _ => taskId = s.scheduler.currentTask
  | cleanupTask id _ => ∀ i ∈ s.table.findTask id, (s.table.task i).state = .exited
  | _ => True

instance decidableLegal (s : System) : (op : TableOp) → Decidable (op.Legal s)
  | spawnElfChild _ image _ | spawnPreemptTask image _ _ =>
      inferInstanceAs (Decidable (∀ loaded ∈ image, loaded.rootFrame ≠ 0))
  | markRunning id _ => inferInstanceAs (Decidable (s.scheduler.currentTask = 0 ∧
      ∃ i ∈ s.table.findTask id, (s.table.task i).state = .ready))
  | blockForIpcSyscall taskId _ _ => inferInstanceAs (Decidable (taskId = s.scheduler.currentTask))
  | cleanupTask id _ =>
      inferInstanceAs (Decidable (∀ i ∈ s.table.findTask id, (s.table.task i).state = .exited))
  | waitChild .. | blockForIpc .. | wakeFromIpc .. | cancelIpcWait .. | expireIpcDeadlines ..
  | onTimerTick .. | onTimerInterrupt .. | startPreemptionTest | stopPreemptionTest ..
  | markExited .. => inferInstanceAs (Decidable True)

end TableOp

def runTable (s : System) (ops : List TableOp) : System := ops.foldl TableOp.apply s

/-- Every operation is legal when it is made. -/
def LegalRun (s : System) : List TableOp → Prop
  | [] => True
  | op :: ops => op.Legal s ∧ LegalRun (op.apply s) ops

instance decidableLegalRun : (s : System) → (ops : List TableOp) → Decidable (LegalRun s ops)
  | _, [] => inferInstanceAs (Decidable True)
  | s, op :: ops =>
      have := decidableLegalRun (op.apply s) ops
      inferInstanceAs (Decidable (op.Legal s ∧ LegalRun (op.apply s) ops))

theorem boot_concord : System.boot.InConcord 0 where
  agrees := boot_agrees
  seated := ⟨fun _ ready => (by cases ready), fun _ running => (by cases running), fun _ _ => rfl⟩
  housed :=
    { able := fun _ live => by cases live
      occupied := fun _ active => by cases active
      registered := fun _ active => by cases active
      owned := fun _ owner => absurd rfl owner
      single := fun _ _ owner => absurd rfl owner }
  unique := fun _ _ active => by cases active
  initialized := rfl

/-- What one legal operation preserves. -/
theorem apply_concord {s : System} {issued : Nat} (concord : s.InConcord issued) {op : TableOp}
    (legal : op.Legal s) (few : op.spawns = true → issued < maxWord) :
    ∃ issued' ≤ issued + if op.spawns then 1 else 0, (op.apply s).InConcord issued' := by
  cases op with
  | spawnElfChild parentId image heap =>
      exact System.spawnElfChild_concord concord (few rfl) parentId legal heap
  | spawnPreemptTask image executable heap =>
      exact System.spawnPreemptTask_concord concord (few rfl) legal executable heap
  | markRunning id syscallsBefore =>
      obtain ⟨idle, i, found, ready⟩ := legal
      exact ⟨issued, le_rfl, System.markRunning_concord concord found ready idle syscallsBefore⟩
  | waitChild parentId childId =>
      exact ⟨issued, le_rfl, System.waitChild_concord concord parentId childId⟩
  | blockForIpc taskId => exact ⟨issued, le_rfl, System.blockForIpc_concord concord taskId⟩
  | blockForIpcSyscall taskId frame deadline =>
      exact ⟨issued, le_rfl, System.blockForIpcSyscall_concord concord taskId frame deadline⟩
  | wakeFromIpc taskId => exact ⟨issued, le_rfl, System.endIpcWait_concord concord taskId _⟩
  | cancelIpcWait taskId => exact ⟨issued, le_rfl, System.cancelIpcWait_concord concord taskId⟩
  | expireIpcDeadlines now =>
      exact ⟨issued, le_rfl, System.expireIpcDeadlines_concord concord now⟩
  | onTimerTick ticks => exact ⟨issued, le_rfl, System.onTimerTick_concord concord ticks⟩
  | onTimerInterrupt context =>
      exact ⟨issued, le_rfl, System.onTimerInterrupt_concord concord context⟩
  | startPreemptionTest =>
      exact ⟨issued, le_rfl, concord.agrees, concord.seated, concord.housed, concord.unique,
        concord.initialized⟩
  | stopPreemptionTest passed =>
      exact ⟨issued, le_rfl, concord.agrees, concord.seated, concord.housed, concord.unique,
        concord.initialized⟩
  | markExited id exitCode syscallsAfter =>
      exact ⟨issued, le_rfl, System.markExited_concord concord id exitCode syscallsAfter⟩
  | cleanupTask id teardown =>
      exact ⟨issued, le_rfl, System.cleanupTask_concord concord legal teardown⟩

/-- What a whole legal run preserves. -/
theorem runTable_concord {s : System} {issued : Nat} (concord : s.InConcord issued)
    {ops : List TableOp} (legal : LegalRun s ops)
    (few : issued + ops.countP TableOp.spawns ≤ maxWord) :
    ∃ issued' ≤ issued + ops.countP TableOp.spawns, (runTable s ops).InConcord issued' := by
  induction ops generalizing s issued with
  | nil => exact ⟨issued, le_rfl, concord⟩
  | cons op ops ih =>
      rw [List.countP_cons] at few ⊢
      obtain ⟨issued₁, bound₁, concord₁⟩ := apply_concord concord legal.1 fun spawns => by
        rw [if_pos spawns] at few
        omega
      obtain ⟨issued₂, bound₂, concord₂⟩ := ih concord₁ legal.2 (by omega)
      exact ⟨issued₂, by omega, concord₂⟩

/-! ### What the tables say -/

/-- The tables of the three modules agree on every task. -/
structure TablesAgree (s : System) : Prop where
  ready : ∀ i, (s.table.task i).state = .ready ↔ (s.table.task i).id ∈ s.scheduler.queued
  running : ∀ i, (s.table.task i).state = .running ↔
    (s.table.task i).id = s.scheduler.currentTask ∧ (s.table.task i).id ≠ 0
  blocked : ∀ i, (s.table.task i).state = .blocked ↔ (s.table.task i).id ∈ s.scheduler.blockedTasks
  gone : ∀ i, ((s.table.task i).state = .exited ∨ (s.table.task i).state = .empty) ↔
    ¬ s.scheduler.placement.Has (s.table.task i).id
  placed : ∀ id, s.scheduler.placement.Has id →
    ∃ i, (s.table.task i).state ≠ .empty ∧ (s.table.task i).id = id
  distinct : ∀ i j, (s.table.task i).state ≠ .empty → (s.table.task j).state ≠ .empty →
    (s.table.task i).id = (s.table.task j).id → i = j
  owners : {id | id ≠ 0 ∧ ∃ e, (s.ipc.endpoints e).owner = id} =
    {id | ∃ i, (s.table.task i).resourcesActive = true ∧ (s.table.task i).id = id}
  spawn : ∀ i, s.table.freeSlot = some i →
    (s.ipc.register s.table.nextTaskId).1 = .ok () ∧
    (s.scheduler.enqueue s.table.nextTaskId).1 = true

namespace System.InConcord

variable {s : System} {issued : Nat}

/-- Whoever has a place is live. -/
theorem live_of_has (concord : s.InConcord issued) {i : Fin maxTasks}
    (has : s.scheduler.placement.Has (s.table.task i).id) : (s.table.task i).live = true := by
  obtain ⟨j, live, same⟩ := Agree.placed concord.agrees _ has
  by_cases empty : (s.table.task i).state = .empty
  · have zero := concord.seated.vacant i empty
    have nonzero := (Agree.ids concord.agrees j (Task.live_iff.mp live).1).1
    omega
  · exact Agree.eq_of_id concord.agrees empty live same ▸ live

/-- Concord is agreement of the tables. -/
theorem tablesAgree (concord : s.InConcord issued) (few : issued < maxWord) : TablesAgree s := by
  have places := (Agree.sound concord.agrees).places
  have alone : s.scheduler.currentTask ∉ s.scheduler.queued ∧
      s.scheduler.currentTask ∉ s.scheduler.blockedTasks := places.current
  have current : ∀ i, (s.table.task i).state = .running →
      (s.table.task i).id = s.scheduler.currentTask ∧ (s.table.task i).id ≠ 0 := by
    intro i running
    have nonzero := (Agree.ids concord.agrees i (by rw [running]; decide)).1
    exact ⟨concord.seated.running i running, by omega⟩
  -- a live task is in the place its state names, so the other two places exclude it
  have seat : ∀ i, (s.table.task i).live = true →
      ((s.table.task i).state = .ready ∧ (s.table.task i).id ∈ s.scheduler.queued) ∨
      ((s.table.task i).state = .running ∧ (s.table.task i).id = s.scheduler.currentTask ∧
        (s.table.task i).id ≠ 0) ∨
      ((s.table.task i).state = .blocked ∧ (s.table.task i).id ∈ s.scheduler.blockedTasks) := by
    intro i live
    cases state : (s.table.task i).state with
    | empty => simp [Task.live, state] at live
    | exited => simp [Task.live, state] at live
    | ready => exact Or.inl ⟨rfl, concord.seated.ready i state⟩
    | running => exact Or.inr (Or.inl ⟨rfl, current i state⟩)
    | blocked => exact Or.inr (Or.inr ⟨rfl, Agree.blocked concord.agrees i state⟩)
  refine ⟨fun i => ⟨concord.seated.ready i, fun queued => ?_⟩, fun i => ⟨current i, fun runs => ?_⟩,
    fun i => ⟨Agree.blocked concord.agrees i, fun blocked => ?_⟩, fun i => ⟨fun dead has => ?_,
    fun absent => ?_⟩, fun id has => ?_, Agree.distinct concord.agrees, ?_, fun i found => ?_⟩
  · rcases seat i (concord.live_of_has (Or.inl queued)) with ⟨state, -⟩ | ⟨-, runs, -⟩ | ⟨-, blocked⟩
    · exact state
    · exact absurd (runs ▸ queued) alone.1
    · exact absurd blocked (places.apart _ queued)
  · rcases seat i (concord.live_of_has (Or.inr (Or.inr runs))) with
      ⟨-, queued⟩ | ⟨state, -⟩ | ⟨-, blocked⟩
    · exact absurd (runs.1 ▸ queued) alone.1
    · exact state
    · exact absurd (runs.1 ▸ blocked) alone.2
  · rcases seat i (concord.live_of_has (Or.inr (Or.inl blocked))) with
      ⟨-, queued⟩ | ⟨-, runs, -⟩ | ⟨state, -⟩
    · exact absurd blocked (places.apart _ queued)
    · exact absurd (runs ▸ blocked) alone.2
    · exact state
  · have live := Task.live_iff.mp (concord.live_of_has has)
    rcases dead with exited | empty
    · exact live.2 exited
    · exact live.1 empty
  · by_contra alive
    simp only [not_or] at alive
    rcases seat i (Task.live_iff.mpr ⟨alive.2, alive.1⟩) with ⟨-, queued⟩ | ⟨-, runs⟩ | ⟨-, blocked⟩
    · exact absent (Or.inl queued)
    · exact absent (Or.inr (Or.inr runs))
    · exact absent (Or.inr (Or.inl blocked))
  · obtain ⟨i, live, same⟩ := Agree.placed concord.agrees id has
    exact ⟨i, (Task.live_iff.mp live).1, same⟩
  · ext id
    constructor
    · rintro ⟨nonzero, e, rfl⟩
      exact concord.housed.owned e nonzero
    · rintro ⟨i, active, rfl⟩
      have nonzero := (Agree.ids concord.agrees i (concord.housed.occupied i active)).1
      exact ⟨by omega, concord.housed.registered i active⟩
  · obtain ⟨e, ipc, registers, -⟩ := concord.registers few found
    obtain ⟨scheduler, enqueues, -⟩ := Agree.enqueues concord.agrees few
      (ProcessTable.freeSlot_eq_some found)
    exact ⟨by rw [registers], by rw [enqueues]⟩

end System.InConcord

/-- In every run with fewer than 2^64 - 1 spawns, process table, scheduler and
endpoint table agree, and a free slot can be filled. -/
theorem tables_agree (ops : List TableOp) (legal : LegalRun .boot ops)
    (few : ops.countP TableOp.spawns < 2 ^ 64 - 1) : TablesAgree (runTable .boot ops) := by
  obtain ⟨issued, bound, concord⟩ := runTable_concord boot_concord legal (by
    simp only [maxWord]
    omega)
  refine concord.tablesAgree ?_
  simp only [maxWord]
  omega

/-- Task 1 waits for its child, task 2, which exits and is cleaned up; then task 3
runs. -/
def familyRun : List TableOp :=
  [.spawnElfChild 0 (some someImage) (some 64), .spawnElfChild 1 (some someImage) (some 64),
    .markRunning 1 0, .waitChild 1 2, .markRunning 2 0, .blockForIpcSyscall 2 blankFrame 9,
    .markExited 2 7 0, .cleanupTask 2 ⟨true, some (4, 4, true)⟩,
    .spawnElfChild 0 (some someImage) (some 64), .markRunning 3 0]

theorem tables_agree_familyRun :
    ((runTable .boot familyRun).table.task 0).state = .ready ∧
    ((runTable .boot familyRun).table.task 1).state = .exited ∧
    ((runTable .boot familyRun).table.task 2).state = .running ∧
    TablesAgree (runTable .boot familyRun) := by
  refine ⟨?_, ?_, ?_, tables_agree familyRun (by decide +kernel) (by decide)⟩
  all_goals decide +kernel

end CloudOS.Process
