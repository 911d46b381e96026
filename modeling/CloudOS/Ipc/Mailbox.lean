import CloudOS.Ipc.Change

/-!
What the rest of the kernel sees of an endpoint: its owner, the number of queued
messages and whether the owner waits for one.

Granting, revoking and resolving capabilities leave all mailboxes alone; the
other operations touch one of them, in the way their lemma says. No task id is
excluded here, not even 0: the lemmas need only that generations are unique,
which every operation preserves.
-/

namespace CloudOS.Ipc

open Lib.Word (satAdd)

structure Mailbox where
  owner : Nat
  waiting : Bool
  len : Nat
deriving DecidableEq, Repr

def Mailbox.empty : Mailbox := ⟨0, false, 0⟩

/-- One more message, nobody waiting. -/
def Mailbox.deliver (mailbox : Mailbox) : Mailbox :=
  { mailbox with len := mailbox.len + 1, waiting := false }

def Endpoint.mailbox (endpoint : Endpoint) : Mailbox :=
  ⟨endpoint.owner, endpoint.waiting, endpoint.len⟩

def Endpoints.mailboxes (e : Endpoints) (i : Fin maxEndpoints) : Mailbox := (e i).mailbox

def IpcState.mailboxes (s : IpcState) : Fin maxEndpoints → Mailbox := s.endpoints.mailboxes

/-- The waiting flag of the endpoint of a task that has one. -/
def IpcState.waiting (s : IpcState) (taskId : Nat) : Option Bool :=
  (s.find taskId).map fun index => (s.mailboxes index).waiting

/-- Who owns which endpoint. -/
def IpcState.owners (s : IpcState) (i : Fin maxEndpoints) : Nat := (s.endpoints i).owner

namespace Endpoints

theorem mailboxes_cull (e : Endpoints) (G : Finset Nat) : (e.cull G).mailboxes = e.mailboxes := rfl

theorem mailboxes_setCapability (e : Endpoints) (p : Position) (c : Capability) :
    (e.setCapability p c).mailboxes = e.mailboxes := by
  funext i
  unfold mailboxes
  rw [setCapability_apply]
  rfl

theorem mailboxes_update (e : Endpoints) (i : Fin maxEndpoints) (endpoint : Endpoint) :
    mailboxes (Function.update e i endpoint) =
      Function.update e.mailboxes i endpoint.mailbox := by
  funext j
  by_cases here : j = i
  · subst here
    simp [mailboxes]
  · simp [mailboxes, here]

/-- Rewriting an endpoint without touching its capabilities. -/
theorem GenerationsUnique.requeue {e : Endpoints} (unique : e.GenerationsUnique)
    {i : Fin maxEndpoints} {endpoint : Endpoint}
    (capabilities : endpoint.capabilities = (e i).capabilities) :
    GenerationsUnique (Function.update e i endpoint) := by
  refine unique.congr fun p _ => ?_
  unfold capability
  by_cases here : p.1 = i
  · rw [here, Function.update_self, capabilities]
  · rw [Function.update_of_ne here]

/-- Emptying the capability table of an endpoint. -/
theorem GenerationsUnique.vacate {e : Endpoints} (unique : e.GenerationsUnique)
    {i : Fin maxEndpoints} {endpoint : Endpoint}
    (vacant : ∀ slot, (endpoint.capabilities slot).active = false) :
    GenerationsUnique (Function.update e i endpoint) := by
  refine unique.congr fun p active => ?_
  unfold capability at active ⊢
  by_cases here : p.1 = i
  · rw [here, Function.update_self, vacant] at active
    cases active
  · rw [Function.update_of_ne here]

end Endpoints

/-- A mailbox with one message less. -/
theorem pop_mailbox {endpoint popped : Endpoint} {message : Message}
    (first : endpoint.pop = some (message, popped)) :
    endpoint.len ≠ 0 ∧ popped.mailbox = { endpoint.mailbox with len := endpoint.len - 1 } ∧
      popped.capabilities = endpoint.capabilities := by
  unfold Endpoint.pop at first
  cases oldest : endpoint.front with
  | none =>
      rw [oldest] at first
      cases first
  | some message' =>
      rw [oldest] at first
      cases first
      refine ⟨fun empty => ?_, rfl, rfl⟩
      rw [Endpoint.front, if_pos empty] at oldest
      cases oldest

/-- Generations stay unique, whatever the operation and its arguments. -/
theorem Change.unique {s : IpcState} {op : Op} {event : Option Event} {core : Core}
    (change : Change s op event core) (unique : s.endpoints.GenerationsUnique) :
    core.endpoints.GenerationsUnique := by
  cases change with
  | quiet => exact unique
  | @register taskId index cleared generation next isOp nonzero fresh free clears allocated =>
      have unused := (allocate_spec cleared s.nextCapabilityGeneration).1
      rw [allocated] at unused
      have vacated : cleared.GenerationsUnique := clears ▸ unique.vacate fun _ => rfl
      exact vacated.install unused
  | grant isOp valid receive targetLive found free allocated =>
      have unused := (allocate_spec s.endpoints s.nextCapabilityGeneration).1
      rw [allocated] at unused
      exact unique.install unused
  | cull removes spares => exact unique.cull _
  | retire isOp found removes => exact (unique.cull _).vacate fun _ => rfl
  | deliver isOp short found space => exact unique.requeue rfl
  | transfer isOp short checks allocated installs =>
      have unused := (allocate_spec s.endpoints s.nextCapabilityGeneration).1
      rw [allocated] at unused
      have installed := installs ▸ unique.install unused
      exact installed.requeue rfl
  | pop isOp found first room => exact unique.requeue (pop_mailbox first).2.2
  | waiting isOp found => exact unique.requeue rfl

/-- The mailboxes are as they were, and generations still unique. -/
structure Undisturbed (s s' : IpcState) : Prop where
  mailboxes : s'.mailboxes = s.mailboxes
  unique : s'.endpoints.GenerationsUnique

/-- A message went to the mailbox of `receiver`, which had the flag `waiting`. -/
structure Delivers (s s' : IpcState) (receiver : Nat) (waiting : Bool) (index : Fin maxEndpoints) :
    Prop where
  found : s.find receiver = some index
  flag : waiting = (s.mailboxes index).waiting
  mailboxes : s'.mailboxes = Function.update s.mailboxes index (s.mailboxes index).deliver
  unique : s'.endpoints.GenerationsUnique

theorem Refused.undisturbed {s s' : IpcState} (refused : Refused s s'.core)
    (unique : s.endpoints.GenerationsUnique) : Undisturbed s s' := by
  refine ⟨?_, (refused.change (.selfCapability 0)).unique unique⟩
  change s'.core.endpoints.mailboxes = s.mailboxes
  generalize s'.core = core at refused
  cases refused with
  | same => rfl
  | pruned removes spares => rfl

namespace IpcState

theorem find_eq_some {s : IpcState} {taskId : Nat} {index : Fin maxEndpoints}
    (found : s.find taskId = some index) : (s.mailboxes index).owner = taskId :=
  Endpoints.find_eq_some found

theorem find_eq_none {s : IpcState} {taskId : Nat} :
    s.find taskId = none ↔ ∀ index, (s.mailboxes index).owner ≠ taskId :=
  Endpoints.find_eq_none

/-- Only the owners matter to `find`. -/
theorem find_congr {s s' : IpcState}
    (owners : ∀ index, (s'.mailboxes index).owner = (s.mailboxes index).owner) (taskId : Nat) :
    s'.find taskId = s.find taskId := by
  have same : (fun index => (s'.endpoints index).owner == taskId) =
      fun index => (s.endpoints index).owner == taskId :=
    funext fun index => congrArg (· == taskId) (owners index)
  rw [find, find, Endpoints.find, Endpoints.find, same]

theorem hasMessage_eq_false {s : IpcState} {taskId : Nat} (empty : s.hasMessage taskId = .ok false) :
    ∃ index, s.find taskId = some index ∧ (s.mailboxes index).len = 0 := by
  unfold hasMessage at empty
  cases found : s.find taskId with
  | none =>
      rw [found] at empty
      cases empty
  | some index =>
      rw [found] at empty
      have zero : (s.endpoints index).len = 0 := by simpa using empty
      exact ⟨index, rfl, zero⟩

section Calls

variable {s : IpcState} (unique : s.endpoints.GenerationsUnique)
include unique

/-! ### Calls that leave the mailboxes alone -/

/-- Grants deliver nothing. -/
theorem grant_undisturbed (owner target : Nat) (rights : CapabilityRights) :
    Undisturbed s (s.grant owner target rights).2 := by
  have change := grant_change s owner target rights
  refine ⟨?_, change.unique unique⟩
  change (s.grant owner target rights).2.core.endpoints.mailboxes = s.mailboxes
  generalize (s.grant owner target rights).2.core = core at change
  cases change with
  | quiet => rfl
  | register isOp => cases isOp
  | grant isOp valid receive targetLive found free allocated =>
      exact Endpoints.mailboxes_setCapability ..
  | cull removes spares => rfl
  | retire isOp => cases isOp
  | waiting isOp => cases isOp

theorem revoke_undisturbed (owner handle : Nat) : Undisturbed s (s.revoke owner handle).2 := by
  have change := revoke_change s unique owner handle
  refine ⟨?_, change.unique unique⟩
  change (s.revoke owner handle).2.core.endpoints.mailboxes = s.mailboxes
  generalize (s.revoke owner handle).2.core = core at change
  cases change with
  | quiet => rfl
  | register isOp => cases isOp
  | grant isOp => cases isOp
  | cull removes spares => rfl
  | retire isOp => cases isOp
  | waiting isOp => cases isOp

theorem resolve_undisturbed (owner handle : Nat) (required : CapabilityRights) :
    Undisturbed s (s.resolve owner handle required).2 := by
  rcases s.resolve_cases unique owner handle required with ⟨_, eq, -⟩ | ⟨_, _, eq, refused⟩
  · rw [eq]
    exact ⟨rfl, unique⟩
  · rw [eq]
    exact refused.undisturbed unique

theorem canReceive_undisturbed (receiver : Nat) : Undisturbed s (s.canReceive receiver).2 := by
  rcases s.canReceive_cases unique receiver with eq | ⟨_, _, eq, refused⟩
  · rw [eq]
    exact ⟨rfl, unique⟩
  · rw [eq]
    exact refused.undisturbed unique

/-! ### Registration -/

/-- `register` opens a mailbox for a task that has none. -/
theorem register_mailboxes (taskId : Nat) :
    (∃ error, s.register taskId = (.error error, s)) ∨
    (s.register taskId = (.ok (), s) ∧ ∃ index, s.find taskId = some index) ∨
    (∃ index s', s.register taskId = (.ok (), s') ∧ s.find taskId = none ∧ taskId ≠ 0 ∧
      (s.mailboxes index).owner = 0 ∧
      s'.mailboxes = Function.update s.mailboxes index ⟨taskId, false, 0⟩ ∧
      s'.endpoints.GenerationsUnique) := by
  have change := register_change s taskId
  unfold register at change ⊢
  split
  · exact Or.inl ⟨_, rfl⟩
  split
  · exact Or.inl ⟨_, rfl⟩
  rename_i initialized nonzero
  split
  · rename_i known
    exact Or.inr (Or.inl ⟨rfl, Option.isSome_iff_exists.mp known⟩)
  rename_i fresh
  cases free : s.endpoints.find 0 with
  | none => exact Or.inl ⟨_, rfl⟩
  | some index =>
      rw [if_neg initialized, if_neg nonzero, if_neg fresh, free] at change
      refine Or.inr (Or.inr ⟨index, _, rfl, by simpa using fresh, nonzero,
        Endpoints.find_eq_some free, ?_, change.unique unique⟩)
      refine (Endpoints.mailboxes_setCapability ..).trans ?_
      exact Endpoints.mailboxes_update ..

/-- Only the mailbox of the task itself is emptied. -/
theorem unregister_mailboxes {taskId : Nat} {index : Fin maxEndpoints}
    (found : s.find taskId = some index) :
    ∃ dropped s', s.unregister taskId = (.ok dropped, s') ∧
      s'.mailboxes = Function.update s.mailboxes index Mailbox.empty ∧
      s'.endpoints.GenerationsUnique := by
  have change := unregister_change s unique taskId
  obtain ⟨G, removes, table⟩ := Endpoints.retire_spec unique taskId index
  have eq : ∃ dropped s', s.unregister taskId = (.ok dropped, s') := by
    unfold unregister
    rw [found]
    exact ⟨_, _, rfl⟩
  obtain ⟨dropped, s', eq⟩ := eq
  rw [eq] at change
  refine ⟨dropped, s', eq, ?_, change.unique unique⟩
  have core : s'.core.endpoints = Function.update (s.endpoints.cull G) index Endpoint.empty := by
    have after := congrArg (fun r : Outcome Nat => r.2.core.endpoints) eq
    unfold unregister at after
    simp only [found, recordRevocation_core, table] at after
    exact after.symm
  change s'.core.endpoints.mailboxes = _
  rw [core, Endpoints.mailboxes_update, Endpoints.mailboxes_cull]
  rfl

/-! ### Messages -/

/-- A message that is sent is in the mailbox of its receiver, or nowhere. -/
theorem send_delivers (sender receiver : Nat) (bytes : List UInt8) :
    (∃ sequence waiting index s', s.send sender receiver bytes = (.ok (sequence, waiting), s') ∧
      Delivers s s' receiver waiting index) ∨
    (∃ error s', s.send sender receiver bytes = (.error error, s') ∧ Undisturbed s s') := by
  rcases s.send_cases sender receiver bytes with
    ⟨index, s', eq, short, found, space, core⟩ | ⟨error, s', eq, core⟩
  · have change := send_change s sender receiver bytes
    rw [eq] at change
    refine Or.inl ⟨_, _, index, s', eq, found, rfl, ?_, change.unique unique⟩
    change s'.core.endpoints.mailboxes = _
    rw [core]
    exact Endpoints.mailboxes_update ..
  · refine Or.inr ⟨error, s', eq, ?_, ?_⟩
    · exact congrArg (fun c : Core => c.endpoints.mailboxes) core
    · have same : s'.endpoints = s.endpoints := congrArg Core.endpoints core
      rw [same]
      exact unique

theorem sendCapability_delivers (sender handle : Nat) (bytes : List UInt8) :
    (∃ sequence waiting receiver index s',
      s.sendCapability sender handle bytes = (.ok (sequence, waiting, receiver), s') ∧
      Delivers s s' receiver waiting index) ∨
    (∃ error s', s.sendCapability sender handle bytes = (.error error, s') ∧ Undisturbed s s') := by
  unfold sendCapability
  rcases s.resolve_cases unique sender handle CapabilityRights.send with
    ⟨capability, eq, -⟩ | ⟨error, s', eq, refused⟩
  · rw [eq]
    dsimp only [Outcome.andThen]
    rcases send_delivers unique sender capability.target bytes with
      ⟨sequence, waiting, index, s', sent, delivers⟩ | ⟨error, s', sent, undisturbed⟩
    · rw [sent]
      exact Or.inl ⟨sequence, waiting, _, index, s', rfl, delivers⟩
    · rw [sent]
      exact Or.inr ⟨error, s', rfl, undisturbed⟩
  · rw [eq]
    exact Or.inr ⟨error, s', rfl, refused.undisturbed unique⟩

/-- A message with a capability is delivered like any other. -/
theorem sendWithCapability_delivers (sender destination transfer : Nat)
    (rights : CapabilityRights) (bytes : List UInt8) :
    (∃ sequence waiting receiver recipientHandle index s',
      s.sendWithCapability sender destination transfer rights bytes =
        (.ok (sequence, waiting, receiver, recipientHandle), s') ∧
      Delivers s s' receiver waiting index) ∨
    (∃ error s', s.sendWithCapability sender destination transfer rights bytes =
      (.error error, s') ∧ Undisturbed s s') := by
  have result := s.sendWithCapability_result unique sender destination transfer rights bytes
  have change := sendWithCapability_change s unique sender destination transfer rights bytes
  generalize s.sendWithCapability sender destination transfer rights bytes = outcome at *
  cases result with
  | @committed receiver source index slot generation next s' short checks allocated core =>
      refine Or.inl ⟨_, _, _, _, index, s', rfl, checks.found, rfl, ?_, change.unique unique⟩
      change s'.core.endpoints.mailboxes = _
      rw [core, transferred, Endpoints.mailboxes_update, Endpoints.mailboxes_setCapability,
        Endpoints.setCapability_apply]
      rfl
  | refused refused => exact Or.inr ⟨_, _, rfl, refused.undisturbed unique⟩

/-- A receive takes a message from the mailbox of the receiver, or leaves all
mailboxes alone. -/
theorem receive_mailboxes (receiver : Nat) (output : List UInt8) :
    (s.receive receiver output).2.1.endpoints.GenerationsUnique ∧
    ((s.receive receiver output).2.1.mailboxes = s.mailboxes ∨
      ∃ index, (s.mailboxes index).len ≠ 0 ∧ (s.receive receiver output).2.1.mailboxes =
        Function.update s.mailboxes index
          { s.mailboxes index with len := (s.mailboxes index).len - 1 }) := by
  have change := receive_change s unique receiver output
  refine ⟨change.unique unique, ?_⟩
  change (s.receive receiver output).2.1.core.endpoints.mailboxes = s.mailboxes ∨ ∃ index, _ ∧
    (s.receive receiver output).2.1.core.endpoints.mailboxes = _
  generalize (s.receive receiver output).2.1.core = core at change
  generalize event (.receive receiver output) _ = seen at change
  cases change with
  | quiet => exact Or.inl rfl
  | register isOp => cases isOp
  | grant isOp => cases isOp
  | cull removes spares => exact Or.inl rfl
  | retire isOp => cases isOp
  | deliver isOp =>
      rcases isOp with isOp | ⟨_, _, isOp, -⟩
      · cases isOp
      · cases isOp
  | transfer isOp => cases isOp
  | @pop receiver output index message popped isOp found first room =>
      obtain ⟨nonempty, mailbox, -⟩ := pop_mailbox first
      refine Or.inr ⟨index, nonempty, ?_⟩
      rw [Endpoints.mailboxes_update, mailbox]
      rfl
  | waiting isOp => cases isOp

/-- Only the waiting mark changes. -/
theorem setWaiting_mailboxes {taskId : Nat} {index : Fin maxEndpoints}
    (found : s.find taskId = some index) (waiting : Bool) :
    ∃ s', s.setWaiting taskId waiting = (.ok (), s') ∧
      s'.mailboxes = Function.update s.mailboxes index { s.mailboxes index with waiting } ∧
      s'.endpoints.GenerationsUnique := by
  have change := setWaiting_change s taskId waiting
  unfold setWaiting at change ⊢
  rw [found] at change ⊢
  exact ⟨_, rfl, Endpoints.mailboxes_update .., change.unique unique⟩

/-- A wait that is taken back at once leaves no trace. -/
theorem setWaiting_undone {s' : IpcState} {taskId : Nat} {index : Fin maxEndpoints}
    (found : s.find taskId = some index) (idle : (s.mailboxes index).waiting = false)
    (set : s.setWaiting taskId true = (.ok (), s')) :
    Undisturbed s (s'.setWaiting taskId false).2 := by
  obtain ⟨s₁, eq₁, mailboxes₁, unique₁⟩ := setWaiting_mailboxes unique found true
  rw [set] at eq₁
  cases eq₁
  have found' : s'.find taskId = some index := by
    rw [find_congr (fun e => ?_) taskId, found]
    rw [mailboxes₁]
    by_cases here : e = index
    · rw [here, Function.update_self]
    · rw [Function.update_of_ne here]
  obtain ⟨s₂, eq₂, mailboxes₂, unique₂⟩ := setWaiting_mailboxes unique₁ found' false
  rw [eq₂]
  refine ⟨?_, unique₂⟩
  rw [mailboxes₂, mailboxes₁, Function.update_self, Function.update_idem, ← idle]
  exact Function.update_eq_self index s.mailboxes

end Calls

/-! ### Refusals do not speak of waking -/

theorem send_ne_wakeFailed (s : IpcState) (sender receiver : Nat) (bytes : List UInt8) :
    (s.send sender receiver bytes).1 ≠ .error .wakeFailed := by
  unfold send
  split
  · exact fun failed => by cases failed
  split
  · exact fun failed => by cases failed
  split
  · exact fun failed => by cases failed
  split
  · exact fun failed => by cases failed
  split
  · exact fun failed => by cases failed
  dsimp only
  split
  · exact fun failed => by cases failed
  · exact fun failed => by cases failed

theorem sendCapability_ne_wakeFailed (s : IpcState) (sender handle : Nat) (bytes : List UInt8) :
    (s.sendCapability sender handle bytes).1 ≠ .error .wakeFailed := by
  unfold sendCapability
  rcases s.resolve_refusal sender handle CapabilityRights.send with
    ⟨target, eq⟩ | ⟨error, s', eq, -, other, -⟩
  · rw [eq]
    dsimp only [Outcome.andThen]
    have sent := s.send_ne_wakeFailed sender target bytes
    split
    · exact fun failed => by cases failed
    · rename_i error _ refused
      rw [refused] at sent
      exact fun failed => sent (congrArg Except.error (Except.error.inj failed))
  · rw [eq]
    exact fun failed => other (Except.error.inj failed)

theorem sendWithCapability_ne_wakeFailed (s : IpcState) (sender destination transfer : Nat)
    (rights : CapabilityRights) (bytes : List UInt8) :
    (s.sendWithCapability sender destination transfer rights bytes).1 ≠ .error .wakeFailed := by
  have tried : (s.trySendWithCapability sender destination transfer rights bytes).1 ≠
      .error .wakeFailed := by
    unfold trySendWithCapability
    split
    · exact fun failed => by cases failed
    split
    · exact fun failed => by cases failed
    rcases s.resolve_refusal sender destination CapabilityRights.send with
      ⟨receiver, eq⟩ | ⟨error, s', eq, -, other, -⟩
    · rw [eq]
      dsimp only [Outcome.andThen]
      rcases s.resolveCapability_refusal sender transfer CapabilityRights.delegate with
        ⟨source, eq⟩ | ⟨error, s', eq, -, other, -⟩
      · rw [eq]
        dsimp only
        split
        · exact fun failed => by cases failed
        split
        · exact fun failed => by cases failed
        split
        · exact fun failed => by cases failed
        split
        · exact fun failed => by cases failed
        split
        · exact fun failed => by cases failed
        split
        · exact fun failed => by cases failed
        split
        · exact fun failed => by cases failed
        unfold commitTransfer
        dsimp only
        split
        · exact fun failed => by cases failed
        · exact fun failed => by cases failed
      · rw [eq]
        exact fun failed => other (Except.error.inj failed)
    · rw [eq]
      exact fun failed => other (Except.error.inj failed)
  unfold sendWithCapability
  split
  · rename_i error s' failed
    rw [failed] at tried
    exact tried
  · exact tried

/-! ### Beside the mailboxes -/

theorem setWaiting_initialized (s : IpcState) (taskId : Nat) (waiting : Bool) :
    (s.setWaiting taskId waiting).2.initialized = s.initialized := by
  unfold setWaiting
  split
  · rfl
  · rfl

theorem setWaiting_owners (s : IpcState) (taskId : Nat) (waiting : Bool) :
    (s.setWaiting taskId waiting).2.owners = s.owners := by
  unfold setWaiting
  split
  · rfl
  · rename_i index _
    funext e
    unfold owners
    dsimp only
    by_cases here : e = index
    · rw [here, Function.update_self]
    · rw [Function.update_of_ne here]

/-- The owners as the mailboxes show them. -/
theorem owners_of_mailboxes {s s' : IpcState} {index : Fin maxEndpoints} {mailbox : Mailbox}
    (mailboxes : s'.mailboxes = Function.update s.mailboxes index mailbox) :
    s'.owners = Function.update s.owners index mailbox.owner := by
  funext e
  change (s'.mailboxes e).owner = _
  rw [mailboxes]
  by_cases here : e = index
  · rw [here, Function.update_self, Function.update_self]
  · rw [Function.update_of_ne here, Function.update_of_ne here]
    rfl

theorem unregister_frame (s : IpcState) (taskId : Nat) :
    (s.unregister taskId).2.initialized = s.initialized ∧
      (s.unregister taskId).2.nextCapabilityGeneration = s.nextCapabilityGeneration := by
  unfold unregister
  split
  · exact ⟨rfl, rfl⟩
  · dsimp only
    unfold recordRevocation
    split
    · exact ⟨rfl, rfl⟩
    · exact ⟨rfl, rfl⟩

theorem register_initialized (s : IpcState) (taskId : Nat) :
    (s.register taskId).2.initialized = s.initialized := by
  unfold register
  split_ifs
  · rfl
  · rfl
  · rfl
  · split
    · rfl
    · rfl

/-- Registration succeeds while an endpoint is free. -/
theorem register_ok {s : IpcState} (initialized : s.initialized = true) {taskId : Nat}
    (nonzero : taskId ≠ 0) {free : Fin maxEndpoints} (unowned : (s.endpoints free).owner = 0) :
    (s.register taskId).1 = .ok () := by
  unfold register
  rw [if_neg (by simp [initialized]), if_neg nonzero]
  split
  · rfl
  · cases vacant : s.endpoints.find 0 with
    | none => exact absurd unowned (Endpoints.find_eq_none.mp vacant free)
    | some index => rfl

end IpcState

end CloudOS.Ipc
