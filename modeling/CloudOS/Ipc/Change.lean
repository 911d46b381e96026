import CloudOS.Ipc.Cascade
import CloudOS.Ipc.Run

/-!
What one operation can do.

`exec_change` is the inversion of the whole operation set: whatever the
operation, its arguments and its result, the state changes in one of the nine
ways listed in `Change`, with the checks the code made on the way. Invariants
and history properties are proved by cases on `Change`, so no operation is
unfolded a second time.
-/

namespace CloudOS.Ipc

open Lib.Word (satAdd checkedAdd)

/-! ### The part of the state that matters -/

/-- The part of the state that the properties below speak about. -/
structure Core where
  initialized : Bool
  endpoints : Endpoints
  nextSequence : Nat
  nextGeneration : Nat
  lastGeneration : Nat
  messagesSent : Nat
  messagesReceived : Nat
  droppedOnCleanup : Nat

def IpcState.core (s : IpcState) : Core where
  initialized := s.initialized
  endpoints := s.endpoints
  nextSequence := s.nextSequence
  nextGeneration := s.nextCapabilityGeneration
  lastGeneration := s.lastCapabilityGeneration
  messagesSent := s.counters.messagesSent
  messagesReceived := s.counters.messagesReceived
  droppedOnCleanup := s.counters.droppedOnCleanup

/-- The capability that `register` installs in slot 0. -/
def rootCapability (taskId generation : Nat) : Capability where
  target := taskId
  generation := generation
  parentGeneration := 0
  lineageDepth := 0
  rights := CapabilityRights.all
  active := true

/-- The endpoint before `register` installs the root capability. -/
def freshEndpoint (taskId : Nat) : Endpoint := { Endpoint.empty with owner := taskId }

/-- The message that carries `bytes`, with an attachment. -/
def composeMessage (sender sequence handle : Nat) (rights : UInt8) (bytes : List UInt8) :
    Message where
  sender := sender
  length := bytes.length
  sequence := sequence
  capabilityHandle := handle
  capabilityRights := rights
  bytes := copyFromSlice bytes

/-- The endpoint after a delivery: the message at the tail, nobody waiting. -/
def Endpoint.deliver (endpoint : Endpoint) (message : Message) : Endpoint :=
  { endpoint with
    queue := Function.update endpoint.queue
      (Lib.RingBuffer.cell queueDepth (endpoint.head + endpoint.len)) message
    len := endpoint.len + 1
    waiting := false }

/-- A successful resolution reads the state and nothing else. -/
structure Resolves (s : IpcState) (owner handle : Nat) (required : CapabilityRights)
    (capability : Capability) : Prop where
  held : ∃ i slot, s.find owner = some i ∧
    decodeHandle handle = some (slot, (s.endpoints.capability (i, slot)).generation) ∧
    s.endpoints.capability (i, slot) = capability
  active : capability.active = true
  rights : capability.rights.contains required = true
  target : (s.find capability.target).isSome = true

/-- The checks of a successful transfer, from `try_send_with_capability`. -/
structure TransferChecks (s : IpcState) (sender destinationHandle transferHandle receiver : Nat)
    (rights : CapabilityRights) (source : Capability) (receiverIndex : Fin maxEndpoints)
    (slot : Fin maxCapabilitiesPerEndpoint) : Prop where
  valid : rights.valid = true
  destination : ∃ capability, capability.target = receiver ∧
    Resolves s sender destinationHandle CapabilityRights.send capability
  held : Resolves s sender transferHandle CapabilityRights.delegate source
  attenuated : source.rights.contains rights = true
  receive : rights.contains CapabilityRights.receive = true → receiver = source.target
  depth : source.lineageDepth + 1 ≤ maxCapabilityLineageDepth
  found : s.find receiver = some receiverIndex
  space : (s.endpoints receiverIndex).len < queueDepth
  free : s.endpoints.freeSlot receiverIndex = some slot

/-- The capability that a transfer installs. -/
def derivedCapability (source : Capability) (generation : Nat) (rights : CapabilityRights) :
    Capability where
  target := source.target
  generation := generation
  parentGeneration := source.generation
  lineageDepth := source.lineageDepth + 1
  rights := rights
  active := true

/-- A cascade starts from active capabilities, never from the root capability
of a live endpoint. -/
structure Endpoints.Spares (e : Endpoints) (roots : Set Nat) : Prop where
  active : ∀ g ∈ roots, g ∈ e.activeGenerations
  spared : ∀ i, (e.capability (i, 0)).active = true → (e.capability (i, 0)).generation ∈ roots →
    (e.capability (i, 0)).parentGeneration ≠ 0 ∨ e.find (e.capability (i, 0)).target = none

/-- The nine ways in which an operation can change the state. -/
inductive Change (s : IpcState) (op : Op) : Option Event → Core → Prop
  | quiet : Change s op none s.core
  | register {taskId : Nat} {index : Fin maxEndpoints} {cleared : Endpoints}
      {generation next : Nat}
      (isOp : op = .register taskId) (nonzero : taskId ≠ 0)
      (fresh : s.find taskId = none) (free : s.endpoints.find 0 = some index)
      (clears : cleared = Function.update s.endpoints index (freshEndpoint taskId))
      (allocated : allocate cleared s.nextCapabilityGeneration = (generation, next)) :
      Change s op none { s.core with
        endpoints := cleared.setCapability (index, 0) (rootCapability taskId generation)
        nextGeneration := next
        lastGeneration := generation }
  | grant {owner target : Nat} {rights : CapabilityRights} {index : Fin maxEndpoints}
      {slot : Fin maxCapabilitiesPerEndpoint} {generation next : Nat}
      (isOp : op = .grant owner target rights) (valid : rights.valid = true)
      (receive : rights.contains CapabilityRights.receive = true → owner = target)
      (targetLive : (s.find target).isSome = true) (found : s.find owner = some index)
      (free : s.endpoints.freeSlot index = some slot)
      (allocated : allocate s.endpoints s.nextCapabilityGeneration = (generation, next)) :
      Change s op none { s.core with
        endpoints := s.endpoints.setCapability (index, slot)
          { rootCapability target generation with rights := rights }
        nextGeneration := next
        lastGeneration := generation }
  | cull {roots : Set Nat} {G : Finset Nat} (removes : s.endpoints.Removes roots G)
      (spares : s.endpoints.Spares roots) :
      Change s op none { s.core with endpoints := s.endpoints.cull G }
  | retire {taskId : Nat} {index : Fin maxEndpoints} {G : Finset Nat}
      (isOp : op = .unregister taskId) (found : s.find taskId = some index)
      (removes : s.endpoints.Removes (s.endpoints.retiring taskId index) G) :
      Change s op none { s.core with
        endpoints := Function.update (s.endpoints.cull G) index Endpoint.empty
        droppedOnCleanup := satAdd s.counters.droppedOnCleanup (s.endpoints index).len }
  | deliver {sender receiver : Nat} {bytes : List UInt8} {index : Fin maxEndpoints}
      (isOp : op = .send sender receiver bytes ∨ ∃ handle capability,
        op = .sendCapability sender handle bytes ∧ capability.target = receiver ∧
          Resolves s sender handle CapabilityRights.send capability)
      (short : bytes.length ≤ maxMessageBytes) (found : s.find receiver = some index)
      (space : (s.endpoints index).len < queueDepth) :
      Change s op (some (.accepted receiver ⟨sender, bytes.length, bytes, s.nextSequence, 0, 0⟩))
        { s.core with
          endpoints := Function.update s.endpoints index
            ((s.endpoints index).deliver (composeMessage sender s.nextSequence 0 0 bytes))
          nextSequence := satAdd s.nextSequence 1
          messagesSent := satAdd s.counters.messagesSent 1 }
  | transfer {sender destinationHandle transferHandle receiver : Nat} {rights : CapabilityRights}
      {bytes : List UInt8} {source : Capability} {index : Fin maxEndpoints}
      {slot : Fin maxCapabilitiesPerEndpoint} {installed : Endpoints} {generation next : Nat}
      (isOp : op = .sendWithCapability sender destinationHandle transferHandle rights bytes)
      (short : bytes.length ≤ maxMessageBytes)
      (checks : TransferChecks s sender destinationHandle transferHandle receiver rights source
        index slot)
      (allocated : allocate s.endpoints s.nextCapabilityGeneration = (generation, next))
      (installs : installed =
        s.endpoints.setCapability (index, slot) (derivedCapability source generation rights)) :
      Change s op (some (.accepted receiver ⟨sender, bytes.length, bytes, s.nextSequence,
          encodeHandle slot generation, rights.bits⟩))
        { s.core with
          endpoints := Function.update installed index
            ((installed index).deliver (composeMessage sender s.nextSequence
              (encodeHandle slot generation) rights.bits bytes))
          nextSequence := satAdd s.nextSequence 1
          nextGeneration := next
          lastGeneration := generation
          messagesSent := satAdd s.counters.messagesSent 1 }
  | pop {receiver : Nat} {output : List UInt8} {index : Fin maxEndpoints} {message : Message}
      {popped : Endpoint}
      (isOp : op = .receive receiver output) (found : s.find receiver = some index)
      (first : (s.endpoints index).pop = some (message, popped))
      (room : message.length ≤ output.length) :
      Change s op (some (.delivered receiver
          ⟨message.sender, message.length,
            (IpcState.copyPayload message output).take message.length, message.sequence,
            message.capabilityHandle, message.capabilityRights⟩))
        { s.core with
          endpoints := Function.update s.endpoints index popped
          messagesReceived := satAdd s.counters.messagesReceived 1 }
  | waiting {taskId : Nat} {index : Fin maxEndpoints} {waiting : Bool}
      (isOp : op = .setWaiting taskId waiting) (found : s.find taskId = some index) :
      Change s op none { s.core with
        endpoints := Function.update s.endpoints index { s.endpoints index with waiting } }

/-! ### Refusals -/

theorem IpcState.recordDenial_core (s : IpcState) (stale : Bool) :
    (s.recordDenial stale).core = s.core := rfl

@[simp] theorem IpcState.recordRevocation_core (s : IpcState) (report : RevocationReport)
    (cleanup : Bool) : (s.recordRevocation report cleanup).core = s.core := by
  unfold IpcState.recordRevocation
  split <;> rfl

/-- What a refused operation leaves behind: the state as it was, up to the
statistics, or a table from which a capability to a missing target was pruned. -/
inductive Refused (s : IpcState) : Core → Prop
  | same : Refused s s.core
  | pruned {roots : Set Nat} {G : Finset Nat} (removes : s.endpoints.Removes roots G)
      (spares : s.endpoints.Spares roots) :
      Refused s { s.core with endpoints := s.endpoints.cull G }

theorem Refused.change {s : IpcState} {core : Core} (refused : Refused s core) (op : Op) :
    Change s op none core := by
  cases refused with
  | same => exact .quiet
  | pruned removes spares => exact .cull removes spares

/-- A handle is resolved to the capability it names, or refused; what dangles is revoked on the
way. -/
theorem IpcState.resolveCapability_cases (s : IpcState) (unique : s.endpoints.GenerationsUnique)
    (owner handle : Nat) (required : CapabilityRights) :
    (∃ capability, s.resolveCapability owner handle required = (.ok capability, s) ∧
      Resolves s owner handle required capability) ∨
    (∃ error s', s.resolveCapability owner handle required = (.error error, s') ∧
      Refused s s'.core) := by
  unfold IpcState.resolveCapability
  cases found : s.find owner with
  | none => exact Or.inr ⟨_, _, rfl, .same⟩
  | some i =>
      cases decoded : decodeHandle handle with
      | none => exact Or.inr ⟨_, _, rfl, .same⟩
      | some pair =>
          obtain ⟨slot, generation⟩ := pair
          dsimp only
          split
          · exact Or.inr ⟨_, _, rfl, .same⟩
          · rename_i current
            simp only [Bool.or_eq_true, Bool.not_eq_true', bne_iff_ne, ne_eq, not_or,
              Bool.not_eq_false, not_not] at current
            obtain ⟨active, rfl⟩ := current
            split
            · exact Or.inr ⟨_, _, rfl, .same⟩
            · rename_i permitted
              split
              · rename_i missing
                obtain ⟨G, removes, revoked⟩ := Endpoints.revokeGeneration_spec unique
                  ((s.endpoints i).capabilities slot).generation
                refine Or.inr ⟨_, _, rfl, ?_⟩
                simp only [revoked]
                rw [IpcState.recordDenial_core, IpcState.recordRevocation_core]
                refine .pruned removes ⟨?_, fun j activeRoot isRoot => Or.inr ?_⟩
                · rintro g rfl
                  exact Endpoints.mem_activeGenerations.mpr ⟨(i, slot), active, rfl⟩
                -- the only capability of that generation is the one whose target is missing
                have same : (j, 0) = (i, slot) := unique _ _ activeRoot active isRoot
                rw [same]
                exact Option.isNone_iff_eq_none.mp missing
              · rename_i present
                refine Or.inl ⟨_, rfl, ⟨i, slot, found, ?_, rfl⟩, active, ?_, ?_⟩
                · exact decoded
                · simpa using permitted
                · simpa [Option.isSome_iff_ne_none, Option.isNone_iff_eq_none] using present

theorem IpcState.resolve_cases (s : IpcState) (unique : s.endpoints.GenerationsUnique)
    (owner handle : Nat) (required : CapabilityRights) :
    (∃ capability, s.resolve owner handle required = (.ok capability.target, s) ∧
      Resolves s owner handle required capability) ∨
    (∃ error s', s.resolve owner handle required = (.error error, s') ∧ Refused s s'.core) := by
  unfold IpcState.resolve
  rcases s.resolveCapability_cases unique owner handle required with
    ⟨capability, eq, resolves⟩ | ⟨error, s', eq, refused⟩
  · exact Or.inl ⟨capability, by rw [eq]; rfl, resolves⟩
  · exact Or.inr ⟨error, s', by rw [eq]; rfl, refused⟩

/-- The right to receive is checked like any other. -/
theorem IpcState.canReceive_cases (s : IpcState) (unique : s.endpoints.GenerationsUnique)
    (receiver : Nat) :
    s.canReceive receiver = (.ok (), s) ∨
    (∃ error s', s.canReceive receiver = (.error error, s') ∧ Refused s s'.core) := by
  unfold IpcState.canReceive
  cases s.selfCapability receiver with
  | error error => exact Or.inr ⟨error, s, rfl, .same⟩
  | ok handle =>
      rcases s.resolve_cases unique receiver handle CapabilityRights.receive with
        ⟨capability, eq, -⟩ | ⟨error, s', eq, refused⟩
      · dsimp only
        rw [eq]
        dsimp only [Outcome.andThen]
        split
        · exact Or.inr ⟨_, _, rfl, .same⟩
        · exact Or.inl rfl
      · exact Or.inr ⟨error, s', by dsimp only; rw [eq]; rfl, refused⟩

/-! ### One operation -/

/-- A task gets a cleared endpoint with its own capability in the first slot. -/
theorem register_change (s : IpcState) (taskId : Nat) :
    Change s (.register taskId) none (s.register taskId).2.core := by
  unfold IpcState.register
  split
  · exact .quiet
  split
  · exact .quiet
  rename_i nonzero
  split
  · exact .quiet
  rename_i fresh
  cases free : s.endpoints.find 0 with
  | none => exact .quiet
  | some index =>
      exact .register rfl nonzero (by simpa using fresh) free rfl rfl

/-- A grant derives from nothing and goes to a free slot. -/
theorem grant_change (s : IpcState) (owner target : Nat) (rights : CapabilityRights) :
    Change s (.grant owner target rights) none (s.grant owner target rights).2.core := by
  unfold IpcState.grant
  split
  · exact .quiet
  rename_i permitted
  simp only [Bool.or_eq_true, Bool.not_eq_true', Bool.and_eq_true, bne_iff_ne, not_or,
    Bool.not_eq_false, not_and, ne_eq, not_not] at permitted
  split
  · exact .quiet
  rename_i live
  cases found : s.find owner with
  | none => exact .quiet
  | some index =>
      dsimp only
      cases free : s.endpoints.freeSlot index with
      | none => exact .quiet
      | some slot =>
          refine .grant rfl permitted.1 permitted.2 ?_ found free rfl
          simpa [Option.isSome_iff_ne_none, Option.isNone_iff_eq_none] using live

/-- The endpoint is emptied after what it held and what named it was revoked. -/
theorem unregister_change (s : IpcState) (unique : s.endpoints.GenerationsUnique) (taskId : Nat) :
    Change s (.unregister taskId) none (s.unregister taskId).2.core := by
  unfold IpcState.unregister
  cases found : s.find taskId with
  | none => exact .quiet
  | some index =>
      obtain ⟨G, removes, table⟩ := Endpoints.retire_spec unique taskId index
      simp only [IpcState.recordRevocation_core, table]
      exact .retire rfl found removes

/-- Only what is derived goes, and what was revoked itself. -/
theorem revoke_change (s : IpcState) (unique : s.endpoints.GenerationsUnique)
    (owner handle : Nat) :
    Change s (.revoke owner handle) none (s.revoke owner handle).2.core := by
  unfold IpcState.revoke
  cases found : s.find owner with
  | none => exact .quiet
  | some index =>
      cases decoded : decodeHandle handle with
      | none => exact .quiet
      | some pair =>
          obtain ⟨slot, generation⟩ := pair
          have nonzero := (decodeHandle_eq_some.mp decoded).2
          dsimp only
          split
          · exact .quiet
          rename_i current
          simp only [Bool.or_eq_true, Bool.not_eq_true', bne_iff_ne, ne_eq, not_or,
            Bool.not_eq_false, not_not] at current
          obtain ⟨active, rfl⟩ := current
          simp only [IpcState.recordRevocation_core]
          split
          · -- slot 0 keeps its capability; its children are not parentless
            obtain ⟨G, removes, revoked⟩ := Endpoints.revokeChildren_spec unique
              ((s.endpoints index).capabilities slot).generation
            rw [revoked]
            refine .cull removes ⟨fun g child => child.mem_activeGenerations, ?_⟩
            rintro i activeRoot ⟨q, activeChild, parent, same⟩
            rw [← unique q (i, 0) activeChild activeRoot same, parent]
            exact Or.inl nonzero
          · rename_i notSelf
            obtain ⟨G, removes, revoked⟩ := Endpoints.revokeGeneration_spec unique
              ((s.endpoints index).capabilities slot).generation
            rw [revoked]
            refine .cull removes ⟨?_, ?_⟩
            · rintro g rfl
              exact Endpoints.mem_activeGenerations.mpr ⟨(index, slot), active, rfl⟩
            intro i activeRoot same
            have here : (i, 0) = (index, slot) := unique _ _ activeRoot active same
            exact absurd (Prod.mk.inj here).2.symm notSelf

theorem resolve_change (s : IpcState) (unique : s.endpoints.GenerationsUnique)
    (owner handle : Nat) (required : CapabilityRights) :
    Change s (.resolve owner handle required) none (s.resolve owner handle required).2.core := by
  rcases s.resolve_cases unique owner handle required with ⟨_, eq, -⟩ | ⟨_, _, eq, refused⟩
  · rw [eq]
    exact .quiet
  · rw [eq]
    exact refused.change _

theorem setWaiting_change (s : IpcState) (taskId : Nat) (waiting : Bool) :
    Change s (.setWaiting taskId waiting) none (s.setWaiting taskId waiting).2.core := by
  unfold IpcState.setWaiting
  cases found : s.find taskId with
  | none => exact .quiet
  | some index => exact .waiting rfl found

/-! ### The send and receive paths -/

/-- The state core after a plain delivery. -/
def IpcState.delivered (s : IpcState) (index : Fin maxEndpoints) (message : Message) : Core :=
  { s.core with
    endpoints := Function.update s.endpoints index ((s.endpoints index).deliver message)
    nextSequence := satAdd s.nextSequence 1
    messagesSent := satAdd s.counters.messagesSent 1 }

theorem Endpoint.push_of_space {endpoint : Endpoint} (space : endpoint.len < queueDepth)
    (message : Message) :
    endpoint.push message = some { endpoint.deliver message with waiting := endpoint.waiting } := by
  unfold Endpoint.push
  rw [if_neg (not_le.mpr space)]
  rfl

/-- A message is delivered, or refused and the refusal counted. -/
theorem IpcState.send_cases (s : IpcState) (sender receiver : Nat) (bytes : List UInt8) :
    (∃ index s', s.send sender receiver bytes =
        (.ok (s.nextSequence, (s.endpoints index).waiting), s') ∧
      bytes.length ≤ maxMessageBytes ∧ s.find receiver = some index ∧
      (s.endpoints index).len < queueDepth ∧
      s'.core = s.delivered index (composeMessage sender s.nextSequence 0 0 bytes)) ∨
    (∃ error s', s.send sender receiver bytes = (.error error, s') ∧ s'.core = s.core) := by
  unfold IpcState.send
  split
  · exact Or.inr ⟨_, _, rfl, rfl⟩
  split
  · exact Or.inr ⟨_, _, rfl, rfl⟩
  rename_i short
  split
  · exact Or.inr ⟨_, _, rfl, rfl⟩
  cases found : s.find receiver with
  | none => exact Or.inr ⟨_, _, rfl, rfl⟩
  | some index =>
      dsimp only
      split
      · exact Or.inr ⟨_, _, rfl, rfl⟩
      · rename_i space
        have room : (s.endpoints index).len < queueDepth := not_le.mp space
        rw [Endpoint.push_of_space (by simpa using room)]
        refine Or.inl ⟨index, _, rfl, not_lt.mp short, rfl, room, ?_⟩
        simp only [IpcState.core, IpcState.delivered, Function.update_idem, Function.update_self]
        rfl

theorem send_change (s : IpcState) (sender receiver : Nat) (bytes : List UInt8) :
    Change s (.send sender receiver bytes)
      (event (.send sender receiver bytes) (.sent (s.send sender receiver bytes).1))
      (s.send sender receiver bytes).2.core := by
  rcases s.send_cases sender receiver bytes with
    ⟨index, s', eq, short, found, space, core⟩ | ⟨error, s', eq, core⟩
  · rw [eq, core]
    exact .deliver (Or.inl rfl) short found space
  · rw [eq, core]
    exact .quiet

theorem sendCapability_change (s : IpcState) (unique : s.endpoints.GenerationsUnique)
    (sender handle : Nat) (bytes : List UInt8) :
    Change s (.sendCapability sender handle bytes)
      (event (.sendCapability sender handle bytes)
        (.sentCapability (s.sendCapability sender handle bytes).1))
      (s.sendCapability sender handle bytes).2.core := by
  unfold IpcState.sendCapability
  rcases s.resolve_cases unique sender handle CapabilityRights.send with
    ⟨capability, eq, resolves⟩ | ⟨error, s', eq, refused⟩
  · rw [eq]
    dsimp only [Outcome.andThen]
    rcases s.send_cases sender capability.target bytes with
      ⟨index, s', sent, short, found, space, core⟩ | ⟨error, s', sent, core⟩
    · rw [sent]
      dsimp only
      rw [core]
      exact .deliver (Or.inr ⟨handle, capability, rfl, rfl, resolves⟩) short found space
    · rw [sent]
      dsimp only
      rw [core]
      exact .quiet
  · rw [eq]
    exact refused.change _

/-- Once the checks have passed, the queue has room and the transfer commits. -/
theorem IpcState.commitTransfer_eq (s : IpcState) (sender receiver : Nat) (source : Capability)
    (slot : Fin maxCapabilitiesPerEndpoint) (rights : CapabilityRights) (bytes : List UInt8)
    {index : Fin maxEndpoints} (space : (s.endpoints index).len < queueDepth)
    {generation next : Nat}
    (allocated : allocate s.endpoints s.nextCapabilityGeneration = (generation, next))
    {installed : Endpoints} (installs : installed =
      s.endpoints.setCapability (index, slot) (derivedCapability source generation rights)) :
    ∃ s', s.commitTransfer sender receiver source (source.lineageDepth + 1) index slot rights
        bytes = (.ok (s.nextSequence, (s.endpoints index).waiting, receiver,
          encodeHandle slot generation), s') ∧
      s'.core = { s.core with
          endpoints := Function.update installed index
            ((installed index).deliver (composeMessage sender s.nextSequence
              (encodeHandle slot generation) rights.bits bytes))
          nextSequence := satAdd s.nextSequence 1
          nextGeneration := next
          lastGeneration := generation
          messagesSent := satAdd s.counters.messagesSent 1 } := by
  subst installs
  unfold IpcState.commitTransfer
  simp only [IpcState.allocateGeneration, allocated]
  rw [Endpoint.push_of_space (by rw [Endpoints.setCapability_apply]; exact space)]
  exact ⟨_, rfl, rfl⟩

/-- The state core after a transfer. -/
def IpcState.transferred (s : IpcState) (installed : Endpoints) (index : Fin maxEndpoints)
    (generation next : Nat) (message : Message) : Core :=
  { s.core with
    endpoints := Function.update installed index ((installed index).deliver message)
    nextSequence := satAdd s.nextSequence 1
    nextGeneration := next
    lastGeneration := generation
    messagesSent := satAdd s.counters.messagesSent 1 }

/-- How a transfer ends: committed after all checks, or refused. -/
inductive TransferResult (s : IpcState) (sender destination transfer : Nat)
    (rights : CapabilityRights) (bytes : List UInt8) : Outcome (Nat × Bool × Nat × Nat) → Prop
  | committed {receiver : Nat} {source : Capability} {index : Fin maxEndpoints}
      {slot : Fin maxCapabilitiesPerEndpoint} {generation next : Nat} {s' : IpcState}
      (short : bytes.length ≤ maxMessageBytes)
      (checks : TransferChecks s sender destination transfer receiver rights source index slot)
      (allocated : allocate s.endpoints s.nextCapabilityGeneration = (generation, next))
      (core : s'.core = s.transferred
        (s.endpoints.setCapability (index, slot) (derivedCapability source generation rights))
        index generation next
        (composeMessage sender s.nextSequence (encodeHandle slot generation) rights.bits bytes)) :
      TransferResult s sender destination transfer rights bytes
        (.ok (s.nextSequence, (s.endpoints index).waiting, receiver,
          encodeHandle slot generation), s')
  | refused {error : IpcError} {s' : IpcState} (refused : Refused s s'.core) :
      TransferResult s sender destination transfer rights bytes (.error error, s')

/-- The checks come first; the capability is derived and the message delivered in one step. -/
theorem IpcState.trySendWithCapability_result (s : IpcState)
    (unique : s.endpoints.GenerationsUnique) (sender destination transfer : Nat)
    (rights : CapabilityRights) (bytes : List UInt8) :
    TransferResult s sender destination transfer rights bytes
      (s.trySendWithCapability sender destination transfer rights bytes) := by
  unfold IpcState.trySendWithCapability
  split
  · exact .refused .same
  rename_i valid
  split
  · exact .refused .same
  rename_i short
  rcases s.resolve_cases unique sender destination CapabilityRights.send with
    ⟨target, eq, toTarget⟩ | ⟨_, _, eq, refused⟩
  · rw [eq]
    dsimp only [Outcome.andThen]
    rcases s.resolveCapability_cases unique sender transfer CapabilityRights.delegate with
      ⟨source, eq, held⟩ | ⟨_, _, eq, refused⟩
    · rw [eq]
      dsimp only
      split
      · exact .refused .same
      rename_i attenuated
      split
      · exact .refused .same
      rename_i receive
      cases deeper : checkedAdd 255 source.lineageDepth 1 with
      | none => exact .refused .same
      | some depth =>
          obtain ⟨rfl, -⟩ := Lib.Word.checkedAdd_eq_some.mp deeper
          dsimp only
          split
          · exact .refused .same
          rename_i shallow
          cases found : s.find target.target with
          | none => exact .refused .same
          | some index =>
              dsimp only
              split
              · exact .refused .same
              rename_i space
              cases free : s.endpoints.freeSlot index with
              | none => exact .refused .same
              | some slot =>
                  obtain ⟨s', committed, core⟩ := s.commitTransfer_eq sender target.target source
                    slot rights bytes (not_le.mp space) rfl rfl
                  have checks : TransferChecks s sender destination transfer target.target rights
                      source index slot :=
                    { valid := by simpa using valid
                      destination := ⟨target, rfl, toTarget⟩
                      held := held
                      attenuated := by simpa using attenuated
                      receive := by simpa using receive
                      depth := not_lt.mp shallow
                      found := found
                      space := not_le.mp space
                      free := free }
                  dsimp only
                  rw [committed]
                  exact .committed (not_lt.mp short) checks rfl core
    · rw [eq]
      exact .refused refused
  · rw [eq]
    exact .refused refused

/-- The failure counter aside, `send_with_capability` is its checked part. -/
theorem IpcState.sendWithCapability_result (s : IpcState)
    (unique : s.endpoints.GenerationsUnique) (sender destination transfer : Nat)
    (rights : CapabilityRights) (bytes : List UInt8) :
    TransferResult s sender destination transfer rights bytes
      (s.sendWithCapability sender destination transfer rights bytes) := by
  have result := s.trySendWithCapability_result unique sender destination transfer rights bytes
  unfold IpcState.sendWithCapability
  cases tried : s.trySendWithCapability sender destination transfer rights bytes with
  | mk outcome s' =>
      rw [tried] at result
      cases result with
      | committed short checks allocated core => exact .committed short checks allocated core
      | refused refused => exact .refused refused

/-- A transfer that cannot be committed leaves nothing behind. -/
theorem sendWithCapability_change (s : IpcState) (unique : s.endpoints.GenerationsUnique)
    (sender destination transfer : Nat) (rights : CapabilityRights) (bytes : List UInt8) :
    Change s (.sendWithCapability sender destination transfer rights bytes)
      (event (.sendWithCapability sender destination transfer rights bytes)
        (.transferred (s.sendWithCapability sender destination transfer rights bytes).1))
      (s.sendWithCapability sender destination transfer rights bytes).2.core := by
  have result := s.sendWithCapability_result unique sender destination transfer rights bytes
  generalize s.sendWithCapability sender destination transfer rights bytes = outcome at result
  cases result with
  | committed short checks allocated core =>
      rw [core]
      exact .transfer rfl short checks allocated rfl
  | refused refused => exact refused.change _

/-- The oldest message is copied out if it fits. -/
theorem receive_change (s : IpcState) (unique : s.endpoints.GenerationsUnique)
    (receiver : Nat) (output : List UInt8) :
    Change s (.receive receiver output)
      (event (.receive receiver output)
        (.received (s.receive receiver output).1 (s.receive receiver output).2.2))
      (s.receive receiver output).2.1.core := by
  unfold IpcState.receive
  rcases s.canReceive_cases unique receiver with eq | ⟨error, s', eq, refused⟩
  · rw [eq]
    dsimp only
    cases found : s.find receiver with
    | none => exact .quiet
    | some index =>
        dsimp only
        cases first : (s.endpoints index).front with
        | none => exact .quiet
        | some message =>
            dsimp only
            split
            · exact .quiet
            rename_i room
            cases popped : (s.endpoints index).pop with
            | none => exact .quiet
            | some pair =>
                obtain ⟨message', endpoint⟩ := pair
                have same : message' = message := by
                  simp only [Endpoint.pop, first, Option.some.injEq, Prod.mk.injEq] at popped
                  exact popped.1.symm
                subst same
                exact .pop rfl found popped (not_lt.mp room)
  · rw [eq]
    exact refused.change _

/-- Whatever the operation, it changes the state in one of the listed ways. -/
theorem exec_change (s : IpcState) (unique : s.endpoints.GenerationsUnique) (op : Op) :
    Change s op (event op (exec s op).2) (exec s op).1.core := by
  cases op with
  | register taskId => exact register_change s taskId
  | unregister taskId => exact unregister_change s unique taskId
  | grant owner target rights => exact grant_change s owner target rights
  | revoke owner handle => exact revoke_change s unique owner handle
  | send sender receiver bytes => exact send_change s sender receiver bytes
  | sendCapability sender handle bytes => exact sendCapability_change s unique sender handle bytes
  | sendWithCapability sender destination transfer rights bytes =>
      exact sendWithCapability_change s unique sender destination transfer rights bytes
  | receive receiver output => exact receive_change s unique receiver output
  | setWaiting taskId waiting => exact setWaiting_change s taskId waiting
  | selfCapability taskId => exact .quiet
  | resolve owner handle required => exact resolve_change s unique owner handle required

end CloudOS.Ipc
