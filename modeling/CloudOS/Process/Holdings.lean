import CloudOS.Process.Lodging

/-!
What a task holds: an entry point in an address space, and an allocation of the heap.

A spawn writes it and a cleanup gives it back. Every other step of the kernel leaves what
the tasks hold as it is, and takes a slot away only from a task that holds nothing.
-/

namespace CloudOS.Process

open Lib.Word (maxWord)
open CloudOS.Ipc (IpcState SameTenants maxEndpoints)

/-! ### The ground a task stands on -/

/-- The fields that only a spawn and a cleanup write. -/
structure Ground where
  entryPoint : Nat
  addressSpaceRoot : Nat
  heapAllocation : Nat
deriving DecidableEq, Repr

def Task.ground (task : Task) : Ground :=
  ⟨task.entryPoint, task.addressSpaceRoot, task.heapAllocation⟩

namespace ProcessTable

def ground (t : ProcessTable) (i : Fin maxTasks) : Ground := (t.task i).ground

theorem ground_of_task {t t' : ProcessTable} (same : t'.task = t.task) : t'.ground = t.ground := by
  funext i
  rw [ground, ground, same]

/-- The task in a slot changes, but stands where it stood. -/
theorem ground_of_slots {t t' : ProcessTable} {k : Fin maxTasks} {slot : ProcessSlot}
    (slots : t'.slots = Function.update t.slots k slot)
    (same : slot.task.ground = (t.task k).ground) : t'.ground = t.ground := by
  funext i
  rw [ground, task_of_slots slots]
  by_cases here : i = k
  · rw [here, Function.update_self]
    exact same
  · rw [Function.update_of_ne here]
    rfl

end ProcessTable

namespace System

variable {s : System}

theorem takeIpcWakeReason_ground (s : System) (taskId : Nat) :
    (s.takeIpcWakeReason taskId).2.table.ground = s.table.ground := by
  unfold takeIpcWakeReason
  cases s.table.findTask taskId with
  | none => rfl
  | some k =>
      have taken : (s.modify k fun task => { task with ipcWakeReason := .none }).table.ground =
          s.table.ground := ProcessTable.ground_of_slots rfl rfl
      dsimp only
      split
      · exact Eq.trans (ProcessTable.ground_of_slots (k := k) rfl rfl) taken
      · exact taken

theorem completeIpcRestart_ground (s : System) (taskId : Nat) :
    (s.completeIpcRestart taskId).2.table.ground = s.table.ground := by
  unfold completeIpcRestart
  cases s.table.findTask taskId with
  | none => rfl
  | some k =>
      dsimp only
      split
      · rfl
      · exact ProcessTable.ground_of_slots (k := k) rfl rfl

theorem blockForIpc_ground (s : System) (taskId : Nat) :
    (s.blockForIpc taskId).2.table.ground = s.table.ground := by
  have after := s.blockForIpc_after taskId
  generalize (s.blockForIpc taskId).2 = s' at after ⊢
  cases after with
  | refuse => rfl
  | stuck => rfl
  | block => exact ProcessTable.ground_of_slots rfl rfl

theorem receive_ground (s : System) (receiver : Nat) (output : List UInt8)
    (blockWhenEmpty : Bool) :
    (s.receive receiver output blockWhenEmpty).2.1.table.ground = s.table.ground := by
  unfold receive
  split
  · rfl
  dsimp only
  split
  · split
    · rfl
    · rename_i ipc _
      have slept : _ = s.table.ground := blockForIpc_ground { s with ipc } receiver
      generalize blockForIpc { s with ipc } receiver = result at slept
      obtain ⟨succeeded, s'⟩ := result
      cases succeeded with
      | false => exact slept
      | true => exact slept
  · rfl

theorem blockForIpcSyscall_ground (s : System) (taskId : Nat) (frame : SyscallFrame)
    (deadlineTick : Nat) :
    (s.blockForIpcSyscall taskId frame deadlineTick).2.2.table.ground = s.table.ground := by
  unfold blockForIpcSyscall
  cases s.table.findTask taskId with
  | none => rfl
  | some i =>
      dsimp only
      split
      · rfl
      have saved : (s.saveContext i (saveSyscallContext frame true)).table.ground =
          s.table.ground := ProcessTable.ground_of_task (s.task_saveContext i _)
      generalize s.saveContext i (saveSyscallContext frame true) = s' at saved
      generalize s'.scheduler.blockCurrentAndDispatch taskId = result
      obtain ⟨decision, scheduler⟩ := result
      split
      · exact saved
      cases s'.table.findTask decision.nextTask with
      | none => exact saved
      | some j =>
          dsimp only
          split
          · exact saved
          have slept : ({ s' with scheduler }.modify i (Task.asleep · deadlineTick)).table.ground =
              s'.table.ground := ProcessTable.ground_of_slots rfl rfl
          refine Eq.trans (ProcessTable.ground_of_slots (k := j) rfl ?_) (slept.trans saved)
          rfl

theorem blockSyscall_ground (s : System) (receiver : Nat) (frame : SyscallFrame)
    (deadlineTick : Nat) :
    (s.blockSyscall receiver frame deadlineTick).2.2.table.ground = s.table.ground := by
  unfold blockSyscall
  split
  · rfl
  dsimp only
  split
  · rfl
  · rfl
  split
  · rfl
  · rename_i ipc _
    have slept : _ = s.table.ground :=
      blockForIpcSyscall_ground { s with ipc } receiver frame deadlineTick
    generalize blockForIpcSyscall { s with ipc } receiver frame deadlineTick = result at slept
    obtain ⟨root, frame', s'⟩ := result
    cases root with
    | none => exact slept
    | some root => exact slept

theorem endIpcWait_ground (s : System) (taskId : Nat) (reason : IpcWakeReason) :
    (s.endIpcWait taskId reason).2.table.ground = s.table.ground := by
  have after := s.endIpcWait_after taskId reason
  generalize (s.endIpcWait taskId reason).2 = s' at after ⊢
  cases after with
  | refuse => rfl
  | stuck => rfl
  | wake => exact ProcessTable.ground_of_slots rfl rfl

theorem finishSendLocked_ground (s : System) (sequence : Nat) (wakeReceiver : Bool)
    (receiver : Nat) :
    (s.finishSendLocked sequence wakeReceiver receiver).2.table.ground = s.table.ground := by
  have woken := s.endIpcWait_ground receiver .message
  unfold finishSendLocked wakeFromIpc
  split
  · generalize s.endIpcWait receiver .message = result at woken
    obtain ⟨succeeded, s'⟩ := result
    cases succeeded with
    | false => exact woken
    | true => exact woken
  · rfl

theorem send_ground (s : System) (sender receiver : Nat) (bytes : List UInt8) :
    (s.send sender receiver bytes).2.table.ground = s.table.ground := by
  unfold send
  split
  · rfl
  · exact finishSendLocked_ground _ _ _ _

theorem sendCapability_ground (s : System) (sender handle : Nat) (bytes : List UInt8) :
    (s.sendCapability sender handle bytes).2.table.ground = s.table.ground := by
  unfold sendCapability
  split
  · rfl
  · exact finishSendLocked_ground _ _ _ _

theorem sendWithCapability_ground (s : System) (sender destination transfer : Nat)
    (rights : Ipc.CapabilityRights) (bytes : List UInt8) :
    (s.sendWithCapability sender destination transfer rights bytes).2.table.ground =
      s.table.ground := by
  unfold sendWithCapability
  split
  · rfl
  · exact finishSendLocked_ground _ _ _ _

theorem cancelWait_ground (s : System) (requester handle : Nat) :
    (s.cancelWait requester handle).2.table.ground = s.table.ground := by
  unfold cancelWait
  dsimp only
  split
  · rfl
  · rename_i target ipc _
    have ended : _ = s.table.ground := endIpcWait_ground { s with ipc } target .cancelled
    unfold cancelIpcWait
    generalize endIpcWait { s with ipc } target .cancelled = result at ended
    obtain ⟨succeeded, s'⟩ := result
    cases succeeded with
    | false => exact ended
    | true =>
        dsimp only
        split
        · exact ended
        · exact ended

theorem expireSlot_ground (now : Nat) (s : System) (k : Fin maxTasks) :
    (expireSlot now s k).table.ground = s.table.ground := by
  have after := s.expireSlot_after now k
  generalize expireSlot now s k = s' at after ⊢
  cases after with
  | keep => rfl
  | stuck => rfl
  | wake => exact ProcessTable.ground_of_slots rfl rfl

theorem onTimerInterrupt_ground (s : System) (context : TimerContext) :
    (s.onTimerInterrupt context).2.2.table.ground = s.table.ground := by
  unfold onTimerInterrupt
  split
  · rfl
  split
  · rfl
  generalize s.scheduler.preemptCurrent = result
  obtain ⟨decision, scheduler⟩ := result
  dsimp only
  split
  · rfl
  cases s.table.findTask decision.previousTask with
  | none => rfl
  | some i =>
      cases s.table.findTask decision.nextTask with
      | none => rfl
      | some j =>
          let rotated := { s with scheduler }
          let ready := (rotated.saveContext i context).modify i Task.preempted
          have put : ready.table.ground = s.table.ground := by
            refine Eq.trans (ProcessTable.ground_of_slots (k := i) rfl rfl) ?_
            exact ProcessTable.ground_of_task (task_saveContext rotated i context)
          dsimp only
          split
          · exact put
          · exact Eq.trans (ProcessTable.ground_of_slots (t := ready.table) (k := j) rfl rfl) put

theorem ground_survivesCalls (ground : Fin maxTasks → Ground) :
    SurvivesCalls fun s => s.table.ground = ground where
  takeIpcWakeReason := fun same taskId => (takeIpcWakeReason_ground _ taskId).trans same
  receive := fun same receiver output => (receive_ground _ receiver output _).trans same
  completeIpcRestart := fun same taskId => (completeIpcRestart_ground _ taskId).trans same
  blockSyscall := fun same _ frame deadline => (blockSyscall_ground _ _ frame deadline).trans same
  sendCapability := fun same sender handle bytes =>
    (sendCapability_ground _ sender handle bytes).trans same
  sendWithCapability := fun same sender destination transfer rights bytes =>
    (sendWithCapability_ground _ sender destination transfer rights bytes).trans same
  cancelWait := fun same requester handle => (cancelWait_ground _ requester handle).trans same
  revoke := fun same _ _ => same

theorem ground_survivesTimer (ground : Fin maxTasks → Ground) :
    SurvivesTimer fun s => s.table.ground = ground where
  onTimerTick := fun same _ => same
  expireSlot := fun same now k => (expireSlot_ground now _ k).trans same
  onTimerInterrupt := fun same context => (onTimerInterrupt_ground _ context).trans same

theorem markRunning_ground (s : System) (id syscallsBefore : Nat) :
    (s.markRunning id syscallsBefore).2.table.ground = s.table.ground := by
  unfold markRunning
  cases s.table.findTask id with
  | none => rfl
  | some k => exact ProcessTable.ground_of_slots (k := k) rfl rfl

theorem wakeWaitingParent_ground (s : System) (parentId childId : Nat) :
    (s.wakeWaitingParent parentId childId).2.table.ground = s.table.ground := by
  have after := s.wakeWaitingParent_after parentId childId
  generalize (s.wakeWaitingParent parentId childId).2 = s' at after ⊢
  cases after with
  | refuse => rfl
  | stuck => rfl
  | wake => exact ProcessTable.ground_of_slots rfl rfl

/-- The end of a task takes nothing from it; that is left to cleanup. -/
theorem markExited_ground (s : System) (id exitCode syscallsAfter : Nat) :
    (s.markExited id exitCode syscallsAfter).2.table.ground = s.table.ground := by
  unfold markExited
  cases s.table.findTask id with
  | none => rfl
  | some k =>
      have retired : (s.retire k id exitCode syscallsAfter).table.ground = s.table.ground :=
        ProcessTable.ground_of_slots (t := s.table) (k := k) rfl rfl
      dsimp only
      split
      · exact (wakeWaitingParent_ground _ _ _).trans retired
      · exact retired

end System

/-! ### Holdings -/

/-- The task holds what it held, and stands where it stood while it holds anything. -/
structure Task.SameHolding (task task' : Task) : Prop where
  resources : task'.resourcesActive = task.resourcesActive
  id : task.resourcesActive = true → task'.id = task.id
  ground : task.resourcesActive = true → task'.ground = task.ground

theorem Task.SameHolding.refl (task : Task) : task.SameHolding task :=
  ⟨rfl, fun _ => rfl, fun _ => rfl⟩

theorem Task.SameHolding.trans {task task' task'' : Task} (first : task.SameHolding task')
    (second : task'.SameHolding task'') : task.SameHolding task'' := by
  have resources := first.resources
  refine ⟨second.resources.trans resources, fun held => ?_, fun held => ?_⟩
  · exact (second.id (resources.trans held)).trans (first.id held)
  · exact (second.ground (resources.trans held)).trans (first.ground held)

theorem Task.SameHolding.of_continues {task task' : Task} (continues : task.Continues task')
    (ground : task'.ground = task.ground) : task.SameHolding task' :=
  ⟨continues.resources, fun _ => continues.id, fun _ => ground⟩

/-- The task in one slot changes. -/
theorem ProcessTable.sameHolding_of_slots {t t' : ProcessTable} {k : Fin maxTasks}
    {slot : ProcessSlot} (slots : t'.slots = Function.update t.slots k slot)
    (same : (t.task k).SameHolding slot.task) (i : Fin maxTasks) :
    (t.task i).SameHolding (t'.task i) := by
  rw [task_of_slots slots]
  by_cases here : i = k
  · rw [here, Function.update_self]
    exact same
  · rw [Function.update_of_ne here]
    exact ⟨rfl, fun _ => rfl, fun _ => rfl⟩

/-- Spawns and cleanups, which change what tasks hold. -/
def Op.transfers : Op → Bool
  | spawnElfChild .. | spawnPreemptTask .. | spawnLegacy .. | cleanupTask .. => true
  | _ => false

/-- Only spawns and cleanups change what tasks hold. -/
theorem System.holdings_step (s : System) (op : Op) (plain : op.transfers = false)
    (i : Fin maxTasks) : (s.table.task i).SameHolding ((step s op).table.task i) := by
  have of_ground : ∀ {s' : System}, s.Continues s' → s'.table.ground = s.table.ground →
      (s.table.task i).SameHolding (s'.table.task i) := fun continues ground =>
    .of_continues (continues i) (congrFun ground i)
  cases op with
  | spawnElfChild | spawnPreemptTask | spawnLegacy | cleanupTask => cases plain
  | grant owner target rights => exact of_ground (.of_tasks rfl) rfl
  | markRunning id syscallsBefore =>
      exact of_ground (s.markRunning_continues id syscallsBefore)
        (s.markRunning_ground id syscallsBefore)
  | markExited id exitCode syscallsAfter =>
      have ground := congrFun (s.markExited_ground id exitCode syscallsAfter) i
      change (s.table.task i).SameHolding
        ((s.markExited id exitCode syscallsAfter).2.table.task i)
      cases found : s.table.findTask id with
      | none =>
          rw [show s.markExited id exitCode syscallsAfter = (false, s) by rw [markExited, found]]
          exact ⟨rfl, fun _ => rfl, fun _ => rfl⟩
      | some k =>
          obtain ⟨ended, others⟩ := s.markExited_lineage found exitCode syscallsAfter
          by_cases here : i = k
          · rw [here] at ground ⊢
            exact ⟨ended.resources, fun _ => ended.id, fun _ => ground⟩
          · exact .of_continues (others i here) ground
  | waitChild parentId childId =>
      have after := s.waitChild_after parentId childId
      change (s.table.task i).SameHolding ((s.waitChild parentId childId).2.table.task i)
      generalize (s.waitChild parentId childId).2 = s' at after ⊢
      cases after with
      | refuse => exact ⟨rfl, fun _ => rfl, fun _ => rfl⟩
      | stuck => exact ⟨rfl, fun _ => rfl, fun _ => rfl⟩
      | collect _ released =>
          refine ProcessTable.sameHolding_of_slots (t := s.table) rfl ⟨released.symm, ?_, ?_⟩ i
          · exact fun held => by rw [released] at held; cases held
          · exact fun held => by rw [released] at held; cases held
      | @block k _ _ _ _ _ =>
          refine ProcessTable.sameHolding_of_slots (t := s.table) (k := k) rfl ?_ i
          exact ⟨rfl, fun _ => rfl, fun _ => rfl⟩
  | send sender receiver bytes =>
      exact of_ground (s.send_continues sender receiver bytes) (s.send_ground sender receiver bytes)
  | receive receiver output blockWhenEmpty =>
      exact of_ground (s.receive_continues receiver output blockWhenEmpty)
        (s.receive_ground receiver output blockWhenEmpty)
  | syscall memory call arg0 frame =>
      exact of_ground
        ((System.continues_survivesCalls s).dispatch (.refl s) memory call arg0 frame)
        ((System.ground_survivesCalls s.table.ground).dispatch rfl memory call arg0 frame)
  | startPreemptionTest => exact of_ground (.of_tasks rfl) rfl
  | stopPreemptionTest passed => exact of_ground (.of_tasks rfl) rfl
  | timer context =>
      exact of_ground ((System.continues_survivesTimer s).timerInterruptHandler (.refl s) context)
        ((System.ground_survivesTimer s.table.ground).timerInterruptHandler rfl context)

/-! ### Endpoints -/

/-- Every task that holds resources owns an endpoint. -/
def System.Registered (s : System) : Prop :=
  ∀ i, (s.table.task i).resourcesActive = true → ∃ e, s.ipc.owners e = (s.table.task i).id

namespace System

variable {s : System} {issued : Nat}

/-- The message layer keeps its tenants where tasks keep what they hold. -/
theorem Lodging.tenants_step (lodging : s.Lodging) {op : Op} (plain : op.transfers = false) :
    SameTenants s.ipc (step s op).ipc := by
  have of_ipc : ∀ {s' : System}, s'.ipc = s.ipc → SameTenants s.ipc s'.ipc := fun same =>
    same ▸ lodging.tenants
  cases op with
  | spawnElfChild | spawnPreemptTask | spawnLegacy | cleanupTask => cases plain
  | grant owner target rights => exact .step lodging.unique (.grant owner target rights) trivial
  | markRunning id syscallsBefore => exact of_ipc (s.markRunning_ipc id syscallsBefore)
  | markExited id exitCode syscallsAfter => exact of_ipc (s.markExited_ipc id exitCode syscallsAfter)
  | waitChild parentId childId => exact of_ipc (s.waitChild_ipc parentId childId)
  | send sender receiver bytes => exact send_tenants lodging.tenants sender receiver bytes
  | receive receiver output blockWhenEmpty =>
      exact receive_tenants lodging.tenants receiver output blockWhenEmpty
  | syscall memory call arg0 frame =>
      exact (tenants_survivesCalls s).dispatch lodging.tenants memory call arg0 frame
  | startPreemptionTest => exact lodging.tenants
  | stopPreemptionTest passed => exact lodging.tenants
  | timer context => exact (tenants_survivesTimer s).timerInterruptHandler lodging.tenants context

theorem Registered.of_same (registered : s.Registered) {s' : System}
    (same : ∀ i, (s.table.task i).SameHolding (s'.table.task i))
    (owners : s'.ipc.owners = s.ipc.owners) : s'.Registered := by
  intro i held
  rw [(same i).resources] at held
  obtain ⟨e, owner⟩ := registered i held
  exact ⟨e, by rw [owners, owner, (same i).id held]⟩

/-- A new task comes with its endpoint. -/
theorem spawnImage_registered (registered : s.Registered) (lodging : s.Lodging)
    (agrees : s.Agrees issued) (few : issued < maxWord) (parentId : Nat) (image : ProcessImage)
    (heapAllocation : Option Nat) :
    (s.spawnImage parentId image heapAllocation).2.Registered := by
  cases heapAllocation with
  | none => exact registered
  | some address =>
      unfold spawnImage installTask
      dsimp only
      have same : (if s.table.initialized then s.table else s.table.init).task = s.table.task ∧
          (if s.table.initialized then s.table else s.table.init).nextTaskId =
            s.table.nextTaskId ∧
          (if s.table.initialized then s.table else s.table.init).freeSlot = s.table.freeSlot := by
        split
        · exact ⟨rfl, rfl, rfl⟩
        · exact ⟨rfl, rfl, rfl⟩
      generalize (if s.table.initialized then s.table else s.table.init) = table at same
      obtain ⟨sameTask, sameNext, sameFree⟩ := same
      have before : ∀ i, (table.task i).resourcesActive = true →
          ∃ e, s.ipc.owners e = (table.task i).id := sameTask ▸ registered
      cases found : table.freeSlot with
      | none => exact before
      | some k =>
          obtain ⟨e, ipc, eq, unowned, fresh, owners, -, -⟩ :=
            lodging.registers agrees few (sameFree.symm.trans found)
          rw [← sameNext] at eq fresh owners
          dsimp only
          rw [eq]
          intro i held
          change (Function.update table.slots k _ i).task.resourcesActive = true at held
          change ∃ e, ipc.owners e = (Function.update table.slots k _ i).task.id
          rw [owners]
          by_cases here : i = k
          · rw [here, Function.update_self]
            exact ⟨e, Function.update_self ..⟩
          · rw [Function.update_of_ne here] at held ⊢
            obtain ⟨e', owner⟩ := before i held
            have occupied := lodging.lodged.occupied i (sameTask ▸ held)
            have nonzero := (Agree.ids agrees i occupied).1
            have other : e' ≠ e := by
              rintro rfl
              rw [unowned, sameTask] at owner
              omega
            exact ⟨e', (Function.update_of_ne other ..).trans owner⟩

/-- The endpoint of a task that holds resources can be given back. -/
theorem Registered.unregisters (registered : s.Registered) (lodging : s.Lodging) {i : Fin maxTasks}
    (held : (s.table.task i).resourcesActive = true) :
    ∃ dropped ipc, s.ipc.unregister (s.table.task i).id = (.ok dropped, ipc) ∧
      ∀ e, ipc.owners e = if s.ipc.owners e = (s.table.task i).id then 0 else s.ipc.owners e := by
  obtain ⟨e, owner⟩ := registered i held
  cases found : s.ipc.find (s.table.task i).id with
  | none => exact absurd owner (IpcState.find_eq_none.mp found e)
  | some e' =>
      obtain ⟨dropped, ipc, eq, mailboxes, -⟩ :=
        IpcState.unregister_mailboxes lodging.unique found
      have isOwner : s.ipc.owners e' = (s.table.task i).id := IpcState.find_eq_some found
      have owners : ipc.owners = Function.update s.ipc.owners e' 0 :=
        IpcState.owners_of_mailboxes mailboxes
      refine ⟨dropped, ipc, eq, fun x => ?_⟩
      rw [owners]
      by_cases here : x = e'
      · rw [here, Function.update_self, if_pos isOwner]
      · rw [Function.update_of_ne here]
        split
        · rename_i same
          by_cases zero : (s.table.task i).id = 0
          · rw [same, zero]
          · exact absurd (lodging.lodged.single e' x (isOwner ▸ zero) (same.trans isOwner.symm))
              here
        · rfl

/-- Cleanup gives up the endpoint together with the resources. -/
theorem cleanupTask_registered (registered : s.Registered) (lodging : s.Lodging)
    (agrees : s.Agrees issued) (id : Nat) (teardown : Teardown) :
    (s.cleanupTask id teardown).2.Registered := by
  unfold cleanupTask
  cases found : s.table.findTask id with
  | none => exact registered
  | some k =>
      obtain ⟨occupied, rfl⟩ := ProcessTable.findTask_eq_some found
      dsimp only
      split
      · exact registered
      rename_i active
      rw [Bool.not_eq_true', Bool.not_eq_false] at active
      obtain ⟨dropped, ipc, eq, owners⟩ := registered.unregisters lodging active
      rw [eq]
      intro i held
      change (Function.update s.table.slots k _ i).task.resourcesActive = true at held
      change ∃ e, ipc.owners e = (Function.update s.table.slots k _ i).task.id
      by_cases here : i = k
      · rw [here, Function.update_self] at held
        cases held
      · rw [Function.update_of_ne here] at held ⊢
        obtain ⟨e, owner⟩ := registered i held
        have other : s.ipc.owners e ≠ (s.table.task k).id := fun same =>
          here (Agree.distinct agrees i k (lodging.lodged.occupied i held) occupied
            (owner.symm.trans same))
        exact ⟨e, by rw [owners, if_neg other]; exact owner⟩

/-- What one operation preserves. -/
theorem step_registered (registered : s.Registered) (lodging : s.Lodging)
    (agrees : s.Agrees issued) (op : Op) (few : op.spawns = true → issued < maxWord) :
    (step s op).Registered := by
  by_cases plain : op.transfers = false
  · exact registered.of_same (s.holdings_step op plain) (lodging.tenants_step plain).owners
  · cases op with
    | spawnElfChild parentId image heap =>
        change (s.spawnElfChild parentId image heap).2.Registered
        unfold spawnElfChild
        split
        · exact registered
        · cases image with
          | none => exact registered
          | some image =>
              exact spawnImage_registered registered lodging agrees (few rfl) parentId image heap
    | spawnPreemptTask image executable heap =>
        change (s.spawnPreemptTask image executable heap).2.Registered
        unfold spawnPreemptTask
        cases image with
        | none => exact registered
        | some image =>
            dsimp only
            split
            · exact registered
            · exact spawnImage_registered registered lodging agrees (few rfl) 0 image heap
    | spawnLegacy entryPoint stackTop heap =>
        exact spawnImage_registered registered lodging agrees (few rfl) 0 _ heap
    | cleanupTask id teardown => exact cleanupTask_registered registered lodging agrees id teardown
    | _ => exact absurd rfl plain

end System

theorem boot_registered : System.boot.Registered := fun _ held => by cases held

end CloudOS.Process
