import CloudOS.Ipc.Mailbox

/-!
Who owns the endpoints. Only `register` and `unregister` change that, whatever the
other operations are called with.
-/

namespace CloudOS.Ipc

/-- The endpoints have the owners they had. -/
structure SameTenants (s s' : IpcState) : Prop where
  owners : s'.owners = s.owners
  initialized : s'.initialized = s.initialized
  unique : s'.endpoints.GenerationsUnique

/-- The operation gives no endpoint to anyone and takes none away. -/
def Op.Settled : Op → Prop
  | register _ | unregister _ => False
  | _ => True

namespace Endpoints

theorem owner_update (e : Endpoints) {index : Fin maxEndpoints} {endpoint : Endpoint}
    (owner : endpoint.owner = (e index).owner) (i : Fin maxEndpoints) :
    (Function.update e index endpoint i).owner = (e i).owner := by
  by_cases here : i = index
  · rw [here, Function.update_self, owner]
  · rw [Function.update_of_ne here]

theorem owner_setCapability (e : Endpoints) (p : Position) (c : Capability)
    (i : Fin maxEndpoints) : (e.setCapability p c i).owner = (e i).owner :=
  congrArg (fun mailboxes => (mailboxes i).owner) (mailboxes_setCapability e p c)

end Endpoints

/-- Endpoints change their owners at registration and cleanup only. -/
theorem Change.owner {s : IpcState} {op : Op} {event : Option Event} {core : Core}
    (change : Change s op event core) (settled : op.Settled) (i : Fin maxEndpoints) :
    (core.endpoints i).owner = (s.endpoints i).owner := by
  cases change with
  | quiet => rfl
  | register isOp => exact absurd settled (by simp [isOp, Op.Settled])
  | grant => exact Endpoints.owner_setCapability ..
  | cull => rfl
  | retire isOp => exact absurd settled (by simp [isOp, Op.Settled])
  | deliver => exact Endpoints.owner_update _ (by simp [Endpoint.deliver]) i
  | transfer isOp short checks allocated installs =>
      rw [Endpoints.owner_update _ (by simp [Endpoint.deliver]), installs]
      exact Endpoints.owner_setCapability ..
  | pop isOp found first =>
      exact Endpoints.owner_update _ (congrArg Mailbox.owner (pop_mailbox first).2.1) i
  | waiting => exact Endpoints.owner_update _ (by rfl) i

theorem Change.initialized {s : IpcState} {op : Op} {event : Option Event} {core : Core}
    (change : Change s op event core) : core.initialized = s.initialized := by
  cases change with
  | _ => rfl

namespace SameTenants

variable {s s' s'' : IpcState}

theorem refl (unique : s.endpoints.GenerationsUnique) : SameTenants s s := ⟨rfl, rfl, unique⟩

theorem trans (first : SameTenants s s') (second : SameTenants s' s'') : SameTenants s s'' :=
  ⟨second.owners.trans first.owners, second.initialized.trans first.initialized, second.unique⟩

/-- The statistics do not matter. -/
theorem of_core (same : SameTenants s s') (core : s''.core = s'.core) : SameTenants s s'' where
  owners := by
    rw [← same.owners]
    exact congrArg (fun (core : Core) (i : Fin maxEndpoints) => (core.endpoints i).owner) core
  initialized := (congrArg Core.initialized core).trans same.initialized
  unique := by
    rw [show s''.endpoints = s'.endpoints from congrArg Core.endpoints core]
    exact same.unique

theorem of_change (unique : s.endpoints.GenerationsUnique) {op : Op} {event : Option Event}
    (change : Change s op event s'.core) (settled : op.Settled) : SameTenants s s' where
  owners := funext (change.owner settled)
  initialized := change.initialized
  unique := change.unique unique

/-- One operation. -/
theorem step (unique : s.endpoints.GenerationsUnique) (op : Op) (settled : op.Settled) :
    SameTenants s (step s op) :=
  of_change unique (exec_change s unique op) settled

theorem canReceive (unique : s.endpoints.GenerationsUnique) (receiver : Nat) :
    SameTenants s (s.canReceive receiver).2 := by
  rcases s.canReceive_cases unique receiver with eq | ⟨error, s', eq, refused⟩
  · rw [eq]
    exact refl unique
  · rw [eq]
    exact of_change unique (refused.change (.selfCapability 0)) trivial

end SameTenants

end CloudOS.Ipc
