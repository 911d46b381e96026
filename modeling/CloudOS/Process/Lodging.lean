import CloudOS.Ipc.Tenancy
import CloudOS.Process.Lineage
import CloudOS.Process.Reachable

/-!
Endpoints are held by tasks, in every run of the kernel.

An endpoint belongs to a task that still holds its resources: a spawn registers the
one together with the other, and a cleanup gives both back, even for a task that
still lives. So a slot without resources leaves an endpoint without owner.
-/

namespace CloudOS.Process

open Lib.Word (satAdd maxWord)
open CloudOS.Ipc (IpcState SameTenants maxEndpoints)

/-! ### The message layer keeps its tenants -/

namespace System

variable {s s₀ : System}

theorem receive_tenants (same : SameTenants s₀.ipc s.ipc) (receiver : Nat) (output : List UInt8)
    (blockWhenEmpty : Bool) :
    SameTenants s₀.ipc (s.receive receiver output blockWhenEmpty).2.1.ipc := by
  have received : SameTenants s₀.ipc (s.ipc.receive receiver output).2.1 :=
    same.trans (.step same.unique (.receive receiver output) trivial)
  unfold receive
  generalize s.ipc.receive receiver output = result at received
  obtain ⟨outcome, ipc, output'⟩ := result
  cases outcome with
  | ok delivery => exact received
  | error error =>
      dsimp only
      split
      · have waits : SameTenants s₀.ipc (ipc.setWaiting receiver true).2 :=
          received.trans (.step received.unique (.setWaiting receiver true) trivial)
        generalize ipc.setWaiting receiver true = result at waits
        obtain ⟨outcome, ipc'⟩ := result
        cases outcome with
        | error error => exact waits
        | ok _ =>
            dsimp only
            have ipcSame := blockForIpc_ipc { s with ipc := ipc' } receiver
            generalize blockForIpc { s with ipc := ipc' } receiver = result at ipcSame
            obtain ⟨blocked, s'⟩ := result
            have slept : SameTenants s₀.ipc s'.ipc := ipcSame ▸ waits
            cases blocked with
            | false =>
                exact slept.trans (.step slept.unique (.setWaiting receiver false) trivial)
            | true => exact slept.of_core rfl
      · exact received

theorem blockSyscall_tenants (same : SameTenants s₀.ipc s.ipc) (receiver : Nat)
    (frame : SyscallFrame) (deadlineTick : Nat) :
    SameTenants s₀.ipc (s.blockSyscall receiver frame deadlineTick).2.2.ipc := by
  have permitted : SameTenants s₀.ipc (s.ipc.canReceive receiver).2 :=
    same.trans (.canReceive same.unique receiver)
  unfold blockSyscall
  generalize s.ipc.canReceive receiver = result at permitted
  obtain ⟨outcome, ipc⟩ := result
  cases outcome with
  | error error => exact permitted
  | ok _ =>
      dsimp only
      split
      · exact permitted
      · exact permitted
      have waits : SameTenants s₀.ipc (ipc.setWaiting receiver true).2 :=
        permitted.trans (.step permitted.unique (.setWaiting receiver true) trivial)
      generalize ipc.setWaiting receiver true = result at waits
      obtain ⟨outcome, ipc'⟩ := result
      cases outcome with
      | error error => exact waits
      | ok _ =>
          dsimp only
          have ipcSame := blockForIpcSyscall_ipc { s with ipc := ipc' } receiver frame deadlineTick
          generalize blockForIpcSyscall { s with ipc := ipc' } receiver frame deadlineTick = result
            at ipcSame
          obtain ⟨root, frame', s'⟩ := result
          have slept : SameTenants s₀.ipc s'.ipc := ipcSame ▸ waits
          cases root with
          | none => exact slept.trans (.step slept.unique (.setWaiting receiver false) trivial)
          | some root => exact slept.of_core rfl

theorem finishSendLocked_tenants (same : SameTenants s₀.ipc s.ipc) (sequence : Nat)
    (wakeReceiver : Bool) (receiver : Nat) :
    SameTenants s₀.ipc (s.finishSendLocked sequence wakeReceiver receiver).2.ipc := by
  have ipcSame := s.wakeFromIpc_ipc receiver
  unfold finishSendLocked
  split
  · generalize s.wakeFromIpc receiver = result at ipcSame
    obtain ⟨woken, s'⟩ := result
    have woke : SameTenants s₀.ipc s'.ipc := ipcSame ▸ same
    cases woken with
    | false => exact woke.trans (.step woke.unique (.setWaiting receiver true) trivial)
    | true => exact woke.of_core rfl
  · exact same

theorem send_tenants (same : SameTenants s₀.ipc s.ipc) (sender receiver : Nat)
    (bytes : List UInt8) : SameTenants s₀.ipc (s.send sender receiver bytes).2.ipc := by
  have sent : SameTenants s₀.ipc (s.ipc.send sender receiver bytes).2 :=
    same.trans (.step same.unique (.send sender receiver bytes) trivial)
  unfold send
  generalize s.ipc.send sender receiver bytes = result at sent
  obtain ⟨outcome, ipc⟩ := result
  cases outcome with
  | error error => exact sent
  | ok _ => exact finishSendLocked_tenants (s := { s with ipc }) sent _ _ _

theorem sendCapability_tenants (same : SameTenants s₀.ipc s.ipc) (sender handle : Nat)
    (bytes : List UInt8) : SameTenants s₀.ipc (s.sendCapability sender handle bytes).2.ipc := by
  have sent : SameTenants s₀.ipc (s.ipc.sendCapability sender handle bytes).2 :=
    same.trans (.step same.unique (.sendCapability sender handle bytes) trivial)
  unfold sendCapability
  generalize s.ipc.sendCapability sender handle bytes = result at sent
  obtain ⟨outcome, ipc⟩ := result
  cases outcome with
  | error error => exact sent
  | ok _ => exact finishSendLocked_tenants (s := { s with ipc }) sent _ _ _

theorem sendWithCapability_tenants (same : SameTenants s₀.ipc s.ipc)
    (sender destination transfer : Nat) (rights : Ipc.CapabilityRights) (bytes : List UInt8) :
    SameTenants s₀.ipc (s.sendWithCapability sender destination transfer rights bytes).2.ipc := by
  have sent : SameTenants s₀.ipc
      (s.ipc.sendWithCapability sender destination transfer rights bytes).2 :=
    same.trans (.step same.unique
      (.sendWithCapability sender destination transfer rights bytes) trivial)
  unfold sendWithCapability
  generalize s.ipc.sendWithCapability sender destination transfer rights bytes = result at sent
  obtain ⟨outcome, ipc⟩ := result
  cases outcome with
  | error error => exact sent
  | ok _ => exact finishSendLocked_tenants (s := { s with ipc }) sent _ _ _

theorem cancelWait_tenants (same : SameTenants s₀.ipc s.ipc) (requester handle : Nat) :
    SameTenants s₀.ipc (s.cancelWait requester handle).2.ipc := by
  unfold cancelWait
  dsimp only
  generalize counted : ({ s.ipc with counters := _ } : IpcState) = counting
  have counts : SameTenants s₀.ipc counting := same.of_core (by rw [← counted]; rfl)
  have resolved : SameTenants s₀.ipc
      (counting.resolve requester handle Ipc.CapabilityRights.cancel).2 :=
    counts.trans (.step counts.unique (.resolve requester handle _) trivial)
  generalize counting.resolve requester handle _ = permission at resolved
  obtain ⟨outcome, ipc⟩ := permission
  cases outcome with
  | error error => exact resolved
  | ok target =>
      dsimp only
      have ipcSame := cancelIpcWait_ipc { s with ipc } target
      generalize cancelIpcWait { s with ipc } target = result at ipcSame
      obtain ⟨succeeded, s'⟩ := result
      have ended : SameTenants s₀.ipc s'.ipc := ipcSame ▸ resolved
      cases succeeded with
      | false => exact ended
      | true =>
          dsimp only
          have idle : SameTenants s₀.ipc (s'.ipc.setWaiting target false).2 :=
            ended.trans (.step ended.unique (.setWaiting target false) trivial)
          generalize s'.ipc.setWaiting target false = result at idle
          obtain ⟨outcome, ipc'⟩ := result
          cases outcome with
          | error error => exact idle
          | ok _ => exact idle.of_core rfl

theorem expireSlot_tenants (same : SameTenants s₀.ipc s.ipc) (now : Nat) (i : Fin maxTasks) :
    SameTenants s₀.ipc (expireSlot now s i).ipc := by
  unfold expireSlot
  dsimp only
  split
  · exact same
  split
  · exact same
  · exact same.trans (.step same.unique (.setWaiting (s.table.task i).id false) trivial)

theorem tenants_survivesCalls (s₀ : System) : SurvivesCalls fun s => SameTenants s₀.ipc s.ipc where
  takeIpcWakeReason := fun same taskId => by rwa [takeIpcWakeReason_ipc]
  receive := fun same receiver output => receive_tenants same receiver output false
  completeIpcRestart := fun same taskId => by rwa [completeIpcRestart_ipc]
  blockSyscall := fun same _ => blockSyscall_tenants same _
  sendCapability := sendCapability_tenants
  sendWithCapability := sendWithCapability_tenants
  cancelWait := cancelWait_tenants
  revoke := fun same owner handle =>
    same.trans (.step same.unique (.revoke owner handle) trivial)

theorem tenants_survivesTimer (s₀ : System) : SurvivesTimer fun s => SameTenants s₀.ipc s.ipc where
  onTimerTick := fun same _ => same
  expireSlot := expireSlot_tenants
  onTimerInterrupt := fun same context => by rwa [onTimerInterrupt_ipc]

end System

/-! ### Tasks and their endpoints -/

/-- Endpoints belong to tasks that hold resources, one each. -/
structure Lodged (tasks : Fin maxTasks → Task) (owners : Fin maxEndpoints → Nat) : Prop where
  occupied : ∀ i, (tasks i).resourcesActive = true → (tasks i).state ≠ .empty
  owned : ∀ e, owners e ≠ 0 → ∃ i, (tasks i).resourcesActive = true ∧ (tasks i).id = owners e
  single : ∀ e e', owners e ≠ 0 → owners e' = owners e → e' = e

namespace Lodged

variable {tasks tasks' : Fin maxTasks → Task} {owners : Fin maxEndpoints → Nat}

/-- The tasks change, but not what they hold. -/
theorem congr (lodged : Lodged tasks owners)
    (same : ∀ i, (tasks' i).id = (tasks i).id ∧
      (tasks' i).resourcesActive = (tasks i).resourcesActive ∧
      ((tasks i).state ≠ .empty → (tasks' i).state ≠ .empty)) : Lodged tasks' owners where
  occupied := fun i active => (same i).2.2 (lodged.occupied i ((same i).2.1 ▸ active))
  owned := fun e nonzero => by
    obtain ⟨i, active, owner⟩ := lodged.owned e nonzero
    exact ⟨i, (same i).2.1.trans active, (same i).1.trans owner⟩
  single := lodged.single

/-- A task that holds nothing is replaced by one that owns no endpoint. -/
theorem replace (lodged : Lodged tasks owners) {k : Fin maxTasks} (task : Task)
    (unowned : (tasks k).resourcesActive = false ∨ ∀ e, owners e ≠ (tasks k).id)
    (occupied : task.resourcesActive = true → task.state ≠ .empty) :
    Lodged (Function.update tasks k task) owners where
  occupied := fun i active => by
    by_cases here : i = k
    · rw [here, Function.update_self] at active ⊢
      exact occupied active
    · rw [Function.update_of_ne here] at active ⊢
      exact lodged.occupied i active
  owned := fun e nonzero => by
    obtain ⟨i, active, owner⟩ := lodged.owned e nonzero
    have elsewhere : i ≠ k := by
      rintro rfl
      rcases unowned with inactive | foreign
      · rw [inactive] at active
        cases active
      · exact foreign e owner.symm
    exact ⟨i, by rwa [Function.update_of_ne elsewhere], by rwa [Function.update_of_ne elsewhere]⟩
  single := lodged.single

/-- An endpoint loses its owner. -/
theorem vacate (lodged : Lodged tasks owners) (e : Fin maxEndpoints) :
    Lodged tasks (Function.update owners e 0) where
  occupied := lodged.occupied
  owned := fun e' nonzero => by
    by_cases here : e' = e
    · rw [here, Function.update_self] at nonzero
      exact absurd rfl nonzero
    · rw [Function.update_of_ne here] at nonzero ⊢
      exact lodged.owned e' nonzero
  single := fun e' e'' nonzero same => by
    by_cases here : e' = e
    · rw [here, Function.update_self] at nonzero
      exact absurd rfl nonzero
    by_cases here' : e'' = e
    · rw [here', Function.update_self] at same
      exact absurd same.symm nonzero
    rw [Function.update_of_ne here] at nonzero same
    rw [Function.update_of_ne here'] at same
    exact lodged.single e' e'' nonzero same

/-- A task that holds resources gets an endpoint. -/
theorem house (lodged : Lodged tasks owners) {k : Fin maxTasks} {e : Fin maxEndpoints}
    (active : (tasks k).resourcesActive = true) (fresh : ∀ e', owners e' ≠ (tasks k).id) :
    Lodged tasks (Function.update owners e (tasks k).id) where
  occupied := lodged.occupied
  owned := fun e' nonzero => by
    by_cases here : e' = e
    · exact ⟨k, active, by rw [here, Function.update_self]⟩
    · rw [Function.update_of_ne here] at nonzero ⊢
      exact lodged.owned e' nonzero
  single := fun e' e'' nonzero same => by
    by_cases here : e' = e
    · by_cases here' : e'' = e
      · rw [here, here']
      · rw [here, Function.update_self, Function.update_of_ne here'] at same
        exact absurd same (fresh e'')
    · rw [Function.update_of_ne here] at nonzero same
      by_cases here' : e'' = e
      · rw [here', Function.update_self] at same
        exact absurd same.symm (fresh e')
      · rw [Function.update_of_ne here'] at same
        exact lodged.single e' e'' nonzero same

/-- With a slot to spare there is an endpoint to spare. -/
theorem exists_free (lodged : Lodged tasks owners) {i : Fin maxTasks}
    (inactive : (tasks i).resourcesActive = false) : ∃ e, owners e = 0 := by
  refine exists_unowned lodged.owned lodged.single (i := i) ?_
  simp [inactive]

end Lodged

/-- The endpoints in every run of the kernel. -/
structure System.Lodging (s : System) : Prop where
  lodged : Lodged s.table.task s.ipc.owners
  unique : s.ipc.endpoints.GenerationsUnique
  initialized : s.ipc.initialized = true

namespace System

variable {s : System} {issued : Nat}

theorem Lodging.tenants (lodging : s.Lodging) : SameTenants s.ipc s.ipc := .refl lodging.unique

theorem Lodging.inactive (lodging : s.Lodging) {i : Fin maxTasks}
    (found : s.table.freeSlot = some i) : (s.table.task i).resourcesActive = false := by
  have free := Lib.Scan.first_eq_some found
  simp only [Bool.or_eq_true, beq_iff_eq, Bool.and_eq_true, Bool.not_eq_true'] at free
  rcases free with empty | ⟨⟨-, inactive⟩, -⟩
  · exact Bool.eq_false_iff.mpr fun active => lodging.lodged.occupied i active empty
  · exact inactive

/-- With a free slot there is an endpoint for the next task. -/
theorem Lodging.registers (lodging : s.Lodging) (agrees : s.Agrees issued) (few : issued < maxWord)
    {i : Fin maxTasks} (found : s.table.freeSlot = some i) :
    ∃ e ipc, s.ipc.register s.table.nextTaskId = (.ok (), ipc) ∧ s.ipc.owners e = 0 ∧
      (∀ e', s.ipc.owners e' ≠ s.table.nextTaskId) ∧
      ipc.owners = Function.update s.ipc.owners e s.table.nextTaskId ∧
      ipc.endpoints.GenerationsUnique ∧ ipc.initialized = true := by
  have next : s.table.nextTaskId = issued + 1 := by
    rw [Agree.next agrees]
    omega
  have fresh : ∀ e', s.ipc.owners e' ≠ s.table.nextTaskId := by
    intro e' owner
    obtain ⟨j, active, id⟩ := lodging.lodged.owned e' (by omega)
    have := (Agree.ids agrees j (lodging.lodged.occupied j active)).2
    omega
  obtain ⟨e, unowned⟩ := lodging.lodged.exists_free (lodging.inactive found)
  have succeeds := IpcState.register_ok lodging.initialized (by omega : s.table.nextTaskId ≠ 0)
    unowned
  have initialized := (s.ipc.register_initialized s.table.nextTaskId).trans lodging.initialized
  rcases IpcState.register_mailboxes lodging.unique s.table.nextTaskId with
    ⟨error, eq⟩ | ⟨-, e', owner⟩ | ⟨e', ipc, eq, -, -, unowned', mailboxes, unique⟩
  · rw [eq] at succeeds
    cases succeeds
  · exact absurd (Ipc.Endpoints.find_eq_some owner) (fresh e')
  · rw [eq] at initialized
    exact ⟨e', ipc, eq, unowned', fresh, IpcState.owners_of_mailboxes mailboxes, unique,
      initialized⟩

/-- One task changes, and the owners. -/
theorem Lodging.of_slots {t : ProcessTable} {k : Fin maxTasks} {slot : ProcessSlot}
    (slots : s.table.slots = Function.update t.slots k slot) {owners : Fin maxEndpoints → Nat}
    (owned : s.ipc.owners = owners) (lodged : Lodged (Function.update t.task k slot.task) owners)
    (unique : s.ipc.endpoints.GenerationsUnique) (initialized : s.ipc.initialized = true) :
    s.Lodging where
  lodged := by
    rw [ProcessTable.task_of_slots slots, owned]
    exact lodged
  unique := unique
  initialized := initialized

/-- A step that keeps the tenants, and what the tasks hold. -/
theorem Lodging.congr (lodging : s.Lodging) {s' : System}
    (same : ∀ i, (s'.table.task i).id = (s.table.task i).id ∧
      (s'.table.task i).resourcesActive = (s.table.task i).resourcesActive ∧
      ((s.table.task i).state ≠ .empty → (s'.table.task i).state ≠ .empty))
    (tenants : SameTenants s.ipc s'.ipc) : s'.Lodging where
  lodged := by
    rw [tenants.owners]
    exact lodging.lodged.congr same
  unique := tenants.unique
  initialized := tenants.initialized.trans lodging.initialized

theorem Lodging.continues (lodging : s.Lodging) {s' : System} (continues : s.Continues s')
    (tenants : SameTenants s.ipc s'.ipc) : s'.Lodging :=
  lodging.congr (fun i => ⟨(continues i).id, (continues i).resources,
    fun occupied empty => occupied ((continues i).empty.mp empty)⟩) tenants

/-! ### The steps -/

/-- A spawn keeps the invariant, and succeeds while there is a free slot. -/
theorem spawnImage_lodging (lodging : s.Lodging) (agrees : s.Agrees issued)
    (few : issued < maxWord) (parentId : Nat) (image : ProcessImage) (heapAllocation : Option Nat) :
    (s.spawnImage parentId image heapAllocation).2.Lodging ∧
      (heapAllocation.isSome = true → s.table.freeSlot.isSome = true →
        (s.spawnImage parentId image heapAllocation).1.isSome = true) := by
  cases heapAllocation with
  | none => exact ⟨⟨lodging.lodged, lodging.unique, lodging.initialized⟩, nofun⟩
  | some address =>
      unfold spawnImage installTask
      dsimp only
      have same : (if s.table.initialized then s.table else s.table.init).task = s.table.task ∧
          (if s.table.initialized then s.table else s.table.init).nextTaskId =
            s.table.nextTaskId ∧
          (if s.table.initialized then s.table else s.table.init).freeSlot = s.table.freeSlot := by
        split
        · exact ⟨rfl, rfl, rfl⟩
        · exact ⟨rfl, rfl, rfl⟩
      generalize (if s.table.initialized then s.table else s.table.init) = table at same
      obtain ⟨sameTask, sameNext, sameFree⟩ := same
      rw [← sameFree]
      have lodged := lodging.lodged
      rw [← sameTask] at lodged
      cases found : table.freeSlot with
      | none => exact ⟨⟨lodged, lodging.unique, lodging.initialized⟩, nofun⟩
      | some k =>
          obtain ⟨e, ipc, eq, -, fresh, owners, unique, initialized⟩ :=
            lodging.registers agrees few (sameFree.symm.trans found)
          rw [← sameNext] at eq fresh owners
          have inactive := lodging.inactive (sameFree.symm.trans found)
          rw [← sameTask] at inactive
          dsimp only
          rw [eq]
          refine ⟨.of_slots (t := table) rfl owners ?_ unique initialized, fun _ _ => rfl⟩
          have replaced := lodged.replace (freshTask table.nextTaskId parentId address image)
            (Or.inl inactive) (fun _ => nofun)
          have housed := replaced.house (k := k) (e := e) (by rw [Function.update_self]; rfl)
            (by rw [Function.update_self]; exact fresh)
          rw [Function.update_self] at housed
          exact housed

/-- Cleanup empties the endpoint of the task. -/
theorem cleanupTask_lodging (lodging : s.Lodging) (agrees : s.Agrees issued) (id : Nat)
    (teardown : Teardown) : (s.cleanupTask id teardown).2.Lodging := by
  unfold cleanupTask
  cases found : s.table.findTask id with
  | none => exact lodging
  | some k =>
      obtain ⟨occupied, rfl⟩ := ProcessTable.findTask_eq_some found
      have positive := (Agree.ids agrees k occupied).1
      dsimp only
      split
      · exact lodging
      cases held : s.ipc.find (s.table.task k).id with
      | none =>
          have absent : s.ipc.unregister (s.table.task k).id = (.error .endpointMissing, s.ipc) := by
            unfold IpcState.unregister
            rw [held]
          rw [absent]
          refine .of_slots (t := s.table) (k := k) rfl rfl ?_ lodging.unique lodging.initialized
          exact lodging.lodged.replace _ (Or.inr (IpcState.find_eq_none.mp held)) nofun
      | some e =>
          have owner : s.ipc.owners e = (s.table.task k).id := IpcState.find_eq_some held
          obtain ⟨dropped, ipc, eq, mailboxes, unique⟩ :=
            IpcState.unregister_mailboxes lodging.unique held
          have initialized : ipc.initialized = true := by
            have frame := (s.ipc.unregister_frame (s.table.task k).id).1
            rw [eq] at frame
            exact frame.trans lodging.initialized
          have owners : ipc.owners = Function.update s.ipc.owners e 0 :=
            IpcState.owners_of_mailboxes mailboxes
          rw [eq]
          refine .of_slots (t := s.table) (k := k) rfl owners ?_ unique initialized
          refine (lodging.lodged.vacate e).replace _ (Or.inr fun e' owner' => ?_) nofun
          by_cases here : e' = e
          · rw [here, Function.update_self] at owner'
            omega
          · rw [Function.update_of_ne here] at owner'
            exact here (lodging.lodged.single e e' (by omega) (owner'.trans owner.symm))

theorem waitChild_lodging (lodging : s.Lodging) (parentId childId : Nat) :
    (s.waitChild parentId childId).2.Lodging := by
  have tenants : SameTenants s.ipc (s.waitChild parentId childId).2.ipc := by
    rw [waitChild_ipc]
    exact lodging.tenants
  rcases s.waitChild_lineage parentId childId with ⟨-, continues⟩ |
    ⟨k, -, -, inactive, -, -, -, -, slots⟩
  · exact lodging.continues continues tenants
  · refine .of_slots slots tenants.owners ?_ tenants.unique
      (tenants.initialized.trans lodging.initialized)
    exact lodging.lodged.replace _ (Or.inl inactive) nofun

/-- A task that ends keeps its endpoint until cleanup. -/
theorem markExited_lodging (lodging : s.Lodging) (id exitCode syscallsAfter : Nat) :
    (s.markExited id exitCode syscallsAfter).2.Lodging := by
  have tenants : SameTenants s.ipc (s.markExited id exitCode syscallsAfter).2.ipc := by
    rw [markExited_ipc]
    exact lodging.tenants
  cases found : s.table.findTask id with
  | none =>
      have absent : s.markExited id exitCode syscallsAfter = (false, s) := by
        unfold markExited
        rw [found]
      rw [absent]
      exact lodging
  | some k =>
      obtain ⟨ended, others⟩ := s.markExited_lineage found exitCode syscallsAfter
      refine lodging.congr (fun i => ?_) tenants
      by_cases here : i = k
      · rw [here]
        exact ⟨ended.id, ended.resources, fun _ empty => by rw [ended.state] at empty; cases empty⟩
      · have continues := others i here
        exact ⟨continues.id, continues.resources, fun occupied empty =>
          occupied (continues.empty.mp empty)⟩

end System

theorem boot_lodging : System.boot.Lodging where
  lodged :=
    { occupied := fun _ active => by cases active
      owned := fun _ owner => absurd rfl owner
      single := fun _ _ owner => absurd rfl owner }
  unique := fun _ _ active => by cases active
  initialized := rfl

/-- What one operation preserves. -/
theorem step_lodging {s : System} {issued : Nat} (lodging : s.Lodging) (agrees : s.Agrees issued)
    (op : Op) (few : op.spawns = true → issued < maxWord) : (step s op).Lodging := by
  have failed : s.failSpawn.Lodging :=
    ⟨lodging.lodged, lodging.unique, lodging.initialized⟩
  cases op with
  | spawnElfChild parentId image heap =>
      change (s.spawnElfChild parentId image heap).2.Lodging
      unfold System.spawnElfChild
      split
      · exact failed
      · cases image with
        | none => exact failed
        | some image =>
            exact (System.spawnImage_lodging lodging agrees (few rfl) parentId image heap).1
  | spawnPreemptTask image executable heap =>
      change (s.spawnPreemptTask image executable heap).2.Lodging
      unfold System.spawnPreemptTask
      cases image with
      | none => exact failed
      | some image =>
          dsimp only
          split
          · exact failed
          · exact (System.spawnImage_lodging lodging agrees (few rfl) 0 image heap).1
  | spawnLegacy entryPoint stackTop heap =>
      exact (System.spawnImage_lodging lodging agrees (few rfl) 0 _ heap).1
  | grant owner target rights =>
      exact lodging.continues (.of_tasks rfl) (.step lodging.unique (.grant owner target rights)
        trivial)
  | markRunning id syscallsBefore =>
      refine lodging.continues (s.markRunning_continues id syscallsBefore) ?_
      change SameTenants s.ipc (s.markRunning id syscallsBefore).2.ipc
      rw [System.markRunning_ipc]
      exact lodging.tenants
  | markExited id exitCode syscallsAfter =>
      exact System.markExited_lodging lodging id exitCode syscallsAfter
  | cleanupTask id teardown => exact System.cleanupTask_lodging lodging agrees id teardown
  | waitChild parentId childId => exact System.waitChild_lodging lodging parentId childId
  | send sender receiver bytes =>
      exact lodging.continues (s.send_continues sender receiver bytes)
        (System.send_tenants lodging.tenants sender receiver bytes)
  | receive receiver output blockWhenEmpty =>
      exact lodging.continues (s.receive_continues receiver output blockWhenEmpty)
        (System.receive_tenants lodging.tenants receiver output blockWhenEmpty)
  | syscall memory call arg0 frame =>
      exact lodging.continues
        ((System.continues_survivesCalls s).dispatch (.refl s) memory call arg0 frame)
        ((System.tenants_survivesCalls s).dispatch lodging.tenants memory call arg0 frame)
  | startPreemptionTest => exact lodging.continues (.of_tasks rfl) lodging.tenants
  | stopPreemptionTest passed => exact lodging.continues (.of_tasks rfl) lodging.tenants
  | timer context =>
      exact lodging.continues
        ((System.continues_survivesTimer s).timerInterruptHandler (.refl s) context)
        ((System.tenants_survivesTimer s).timerInterruptHandler lodging.tenants context)

/-- What a whole run preserves. -/
theorem run_lodging {s : System} {issued : Nat} (lodging : s.Lodging) (agrees : s.Agrees issued)
    (ops : List Op) (few : issued + spawnCount ops ≤ maxWord) : (run s ops).Lodging := by
  induction ops generalizing s issued with
  | nil => exact lodging
  | cons op ops ih =>
      have count : spawnCount (op :: ops) = spawnCount ops + if op.spawns then 1 else 0 :=
        List.countP_cons
      rw [count] at few
      have room : op.spawns = true → issued < maxWord := fun spawns => by
        rw [if_pos spawns] at few
        omega
      obtain ⟨issued₁, bound₁, -, agrees₁⟩ := step_agrees agrees op room
      exact ih (step_lodging lodging agrees op room) agrees₁ (by omega)

end CloudOS.Process
