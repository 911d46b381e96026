import CloudOS.Ipc.Revocation

/-!
`IpcState` and its operations.

An operation takes the state and returns its `Result` together with the state
it leaves behind, since the source mutates `self` on some error paths as well.
The statistics are grouped in `IpcCounters`; the fields that steer behaviour
(the table, the message sequence, the generation counter) stay in `IpcState`.
-/

namespace CloudOS.Ipc

open Lib.Word (satAdd checkedAdd)

structure IpcCounters where
  endpointsCreated : Nat := 0
  endpointsDestroyed : Nat := 0
  messagesSent : Nat := 0
  messagesReceived : Nat := 0
  blockedReceives : Nat := 0
  receiverWakeups : Nat := 0
  queueFullEvents : Nat := 0
  droppedOnCleanup : Nat := 0
  capabilitiesGranted : Nat := 0
  capabilitiesRevoked : Nat := 0
  capabilitiesRevokedOnCleanup : Nat := 0
  capabilityDenials : Nat := 0
  staleCapabilityDenials : Nat := 0
  cancellationRequests : Nat := 0
  cancellationSuccesses : Nat := 0
  capabilityTransfers : Nat := 0
  capabilityTransferFailures : Nat := 0
  rightsAttenuations : Nat := 0
  lastTransferredRights : Nat := 0
  revocationTrees : Nat := 0
  cascadeRevocations : Nat := 0
  descendantRevocations : Nat := 0
  queuedCapabilitiesStripped : Nat := 0
  lastRevocationSize : Nat := 0
deriving DecidableEq, Repr

structure IpcState where
  initialized : Bool
  endpoints : Endpoints
  nextSequence : Nat
  lastSequence : Nat
  nextCapabilityGeneration : Nat
  lastCapabilityGeneration : Nat
  counters : IpcCounters

structure Delivery where
  sender : Nat
  length : Nat
  sequence : Nat
  capabilityHandle : Nat
  capabilityRights : UInt8
deriving DecidableEq, Repr

/-- The value of a fallible operation and the state it leaves. -/
abbrev Outcome (α : Type) := Except IpcError α × IpcState

/-- The `?` operator: an error returns at once, with the state as it is. -/
def Outcome.andThen {α β : Type} (outcome : Outcome α) (rest : α → IpcState → Outcome β) :
    Outcome β :=
  match outcome with
  | (.ok value, s) => rest value s
  | (.error error, s) => (.error error, s)

namespace IpcState

def new : IpcState where
  initialized := false
  endpoints := fun _ => Endpoint.empty
  nextSequence := 1
  lastSequence := 0
  nextCapabilityGeneration := 1
  lastCapabilityGeneration := 0
  counters := {}

def init (s : IpcState) : IpcState :=
  if s.initialized then s else { new with initialized := true }

def find (s : IpcState) (taskId : Nat) : Option (Fin maxEndpoints) := s.endpoints.find taskId

/-! ### Bookkeeping -/

def allocateGeneration (s : IpcState) : Nat × IpcState :=
  let allocated := allocate s.endpoints s.nextCapabilityGeneration
  (allocated.1, { s with
    nextCapabilityGeneration := allocated.2
    lastCapabilityGeneration := allocated.1 })

def recordDenial (s : IpcState) (stale : Bool) : IpcState :=
  { s with counters := { s.counters with
      capabilityDenials := satAdd s.counters.capabilityDenials 1
      staleCapabilityDenials :=
        if stale then satAdd s.counters.staleCapabilityDenials 1
        else s.counters.staleCapabilityDenials } }

def recordRevocation (s : IpcState) (report : RevocationReport) (cleanup : Bool) : IpcState :=
  if report.revoked = 0 then s
  else { s with counters := { s.counters with
      revocationTrees := satAdd s.counters.revocationTrees 1
      cascadeRevocations :=
        if report.descendants ≠ 0 then satAdd s.counters.cascadeRevocations 1
        else s.counters.cascadeRevocations
      capabilitiesRevoked := satAdd s.counters.capabilitiesRevoked report.revoked
      capabilitiesRevokedOnCleanup :=
        if cleanup then satAdd s.counters.capabilitiesRevokedOnCleanup report.revoked
        else s.counters.capabilitiesRevokedOnCleanup
      descendantRevocations := satAdd s.counters.descendantRevocations report.descendants
      queuedCapabilitiesStripped :=
        satAdd s.counters.queuedCapabilitiesStripped report.queuedStripped
      lastRevocationSize := report.revoked } }

def recordQueueFull (s : IpcState) : IpcState :=
  { s with counters := { s.counters with
      queueFullEvents := satAdd s.counters.queueFullEvents 1 } }

/-! ### Endpoints -/

def register (s : IpcState) (taskId : Nat) : Outcome Unit :=
  if !s.initialized then (.error .notInitialized, s)
  else if taskId = 0 then (.error .invalidTask, s)
  else if (s.find taskId).isSome then (.ok (), s)
  else
    match s.endpoints.find 0 with
    | none => (.error .endpointCapacity, s)
    | some index =>
        let cleared := { s with
          endpoints := Function.update s.endpoints index { Endpoint.empty with owner := taskId } }
        let (generation, s) := cleared.allocateGeneration
        (.ok (), { s with
          endpoints := s.endpoints.setCapability (index, 0)
            { target := taskId
              generation
              parentGeneration := 0
              lineageDepth := 0
              rights := CapabilityRights.all
              active := true }
          counters := { s.counters with
            endpointsCreated := satAdd s.counters.endpointsCreated 1
            capabilitiesGranted := satAdd s.counters.capabilitiesGranted 1 } })

def unregister (s : IpcState) (taskId : Nat) : Outcome Nat :=
  match s.find taskId with
  | none => (.error .endpointMissing, s)
  | some index =>
      let dropped := (s.endpoints index).len
      let (held, report) := s.endpoints.revokeHeld index .empty
      let (targeting, report) := held.revokeTargeting taskId report
      let s := { s with
        endpoints := Function.update targeting index Endpoint.empty
        counters := { s.counters with
          endpointsDestroyed := satAdd s.counters.endpointsDestroyed 1
          droppedOnCleanup := satAdd s.counters.droppedOnCleanup dropped } }
      (.ok dropped, s.recordRevocation report true)

/-! ### Capabilities -/

def selfCapability (s : IpcState) (taskId : Nat) : Except IpcError Nat :=
  match s.find taskId with
  | none => .error .endpointMissing
  | some index =>
      let capability := (s.endpoints index).capabilities 0
      if !capability.active || capability.target != taskId
          || !capability.rights.contains CapabilityRights.sendReceive then
        .error .permissionDenied
      else .ok (encodeHandle 0 capability.generation)

def grant (s : IpcState) (owner target : Nat) (rights : CapabilityRights) : Outcome Nat :=
  if !rights.valid || (rights.contains CapabilityRights.receive && owner != target) then
    (.error .invalidRights, s)
  else if (s.find target).isNone then (.error .endpointMissing, s)
  else
    match s.find owner with
    | none => (.error .endpointMissing, s)
    | some ownerIndex =>
        match s.endpoints.freeSlot ownerIndex with
        | none => (.error .capabilityCapacity, s)
        | some slot =>
            let (generation, s) := s.allocateGeneration
            (.ok (encodeHandle slot generation), { s with
              endpoints := s.endpoints.setCapability (ownerIndex, slot)
                { target
                  generation
                  parentGeneration := 0
                  lineageDepth := 0
                  rights
                  active := true }
              counters := { s.counters with
                capabilitiesGranted := satAdd s.counters.capabilitiesGranted 1 } })

def revoke (s : IpcState) (owner handle : Nat) : Outcome RevocationReport :=
  match s.find owner with
  | none => (.error .endpointMissing, s)
  | some ownerIndex =>
      match decodeHandle handle with
      | none => (.error .invalidCapability, s)
      | some (slot, generation) =>
          let capability := (s.endpoints ownerIndex).capabilities slot
          if !capability.active || capability.generation != generation then
            (.error .staleCapability, s.recordDenial true)
          else
            let (endpoints, report) :=
              if slot = 0 then s.endpoints.revokeChildren generation
              else s.endpoints.revokeGeneration generation
            (.ok report, { s with endpoints }.recordRevocation report false)

def resolveCapability (s : IpcState) (owner handle : Nat) (required : CapabilityRights) :
    Outcome Capability :=
  match s.find owner with
  | none => (.error .endpointMissing, s)
  | some ownerIndex =>
      match decodeHandle handle with
      | none => (.error .invalidCapability, s.recordDenial false)
      | some (slot, generation) =>
          let capability := (s.endpoints ownerIndex).capabilities slot
          if !capability.active || capability.generation != generation then
            (.error .staleCapability, s.recordDenial true)
          else if !capability.rights.contains required then
            (.error .permissionDenied, s.recordDenial false)
          else if (s.find capability.target).isNone then
            let (endpoints, report) := s.endpoints.revokeGeneration capability.generation
            (.error .staleCapability,
              ({ s with endpoints }.recordRevocation report true).recordDenial true)
          else (.ok capability, s)

def resolve (s : IpcState) (owner handle : Nat) (required : CapabilityRights) : Outcome Nat :=
  (s.resolveCapability owner handle required).andThen fun capability s =>
    (.ok capability.target, s)

def canReceive (s : IpcState) (receiver : Nat) : Outcome Unit :=
  match s.selfCapability receiver with
  | .error error => (.error error, s)
  | .ok handle =>
      (s.resolve receiver handle CapabilityRights.receive).andThen fun target s =>
        if target ≠ receiver then (.error .permissionDenied, s.recordDenial false)
        else (.ok (), s)

/-! ### Messages -/

/-- The sequence number and whether the receiver was waiting. -/
def send (s : IpcState) (sender receiver : Nat) (bytes : List UInt8) : Outcome (Nat × Bool) :=
  if !s.initialized then (.error .notInitialized, s)
  else if bytes.length > maxMessageBytes then (.error .messageTooLarge, s)
  else if (s.find sender).isNone then (.error .endpointMissing, s)
  else
    match s.find receiver with
    | none => (.error .endpointMissing, s)
    | some receiverIndex =>
        if (s.endpoints receiverIndex).len ≥ queueDepth then (.error .queueFull, s.recordQueueFull)
        else
          let sequence := s.nextSequence
          let message := { Message.empty with
            sender
            length := bytes.length
            sequence
            bytes := copyFromSlice bytes }
          let waiting := (s.endpoints receiverIndex).waiting
          let s := { s with
            nextSequence := satAdd s.nextSequence 1
            endpoints := Function.update s.endpoints receiverIndex
              { s.endpoints receiverIndex with waiting := false } }
          match (s.endpoints receiverIndex).push message with
          | none => (.error .queueFull, s)
          | some pushed =>
              (.ok (sequence, waiting), { s with
                endpoints := Function.update s.endpoints receiverIndex pushed
                lastSequence := sequence
                counters := { s.counters with
                  messagesSent := satAdd s.counters.messagesSent 1 } })

/-- The sequence number, whether the receiver was waiting, and the receiver. -/
def sendCapability (s : IpcState) (sender handle : Nat) (bytes : List UInt8) :
    Outcome (Nat × Bool × Nat) :=
  (s.resolve sender handle CapabilityRights.send).andThen fun receiver s =>
    (s.send sender receiver bytes).andThen fun (sequence, waiting) s =>
      (.ok (sequence, waiting, receiver), s)

/-- The commit part of `try_send_with_capability`, once every check has passed. -/
def commitTransfer (s : IpcState) (sender receiver : Nat) (source : Capability)
    (lineageDepth : Nat) (receiverIndex : Fin maxEndpoints)
    (recipientSlot : Fin maxCapabilitiesPerEndpoint) (requestedRights : CapabilityRights)
    (bytes : List UInt8) : Outcome (Nat × Bool × Nat × Nat) :=
  let sequence := s.nextSequence
  let (generation, s) := s.allocateGeneration
  let recipientHandle := encodeHandle recipientSlot generation
  let message : Message :=
    { sender
      length := bytes.length
      sequence
      capabilityHandle := recipientHandle
      capabilityRights := requestedRights.bits
      bytes := copyFromSlice bytes }
  let waiting := (s.endpoints receiverIndex).waiting
  let s := { s with
    endpoints := s.endpoints.setCapability (receiverIndex, recipientSlot)
      { target := source.target
        generation
        parentGeneration := source.generation
        lineageDepth
        rights := requestedRights
        active := true } }
  match (s.endpoints receiverIndex).push message with
  | none =>
      (.error .queueFull, { s with
        endpoints := s.endpoints.setCapability (receiverIndex, recipientSlot) Capability.empty })
  | some pushed =>
      (.ok (sequence, waiting, receiver, recipientHandle), { s with
        endpoints := Function.update s.endpoints receiverIndex { pushed with waiting := false }
        nextSequence := satAdd s.nextSequence 1
        lastSequence := sequence
        counters := { s.counters with
          messagesSent := satAdd s.counters.messagesSent 1
          capabilitiesGranted := satAdd s.counters.capabilitiesGranted 1
          capabilityTransfers := satAdd s.counters.capabilityTransfers 1
          rightsAttenuations :=
            if requestedRights.bits ≠ source.rights.bits then
              satAdd s.counters.rightsAttenuations 1
            else s.counters.rightsAttenuations
          lastTransferredRights := requestedRights.bits.toNat } })

def trySendWithCapability (s : IpcState) (sender destinationHandle transferHandle : Nat)
    (requestedRights : CapabilityRights) (bytes : List UInt8) :
    Outcome (Nat × Bool × Nat × Nat) :=
  if !requestedRights.valid then (.error .invalidRights, s.recordDenial false)
  else if bytes.length > maxMessageBytes then (.error .messageTooLarge, s)
  else
    (s.resolve sender destinationHandle CapabilityRights.send).andThen fun receiver s =>
    (s.resolveCapability sender transferHandle CapabilityRights.delegate).andThen fun source s =>
      if !source.rights.contains requestedRights then
        (.error .rightsEscalation, s.recordDenial false)
      else if requestedRights.contains CapabilityRights.receive && receiver != source.target then
        (.error .invalidRights, s.recordDenial false)
      else
        match checkedAdd 255 source.lineageDepth 1 with
        | none => (.error .lineageDepthExceeded, s.recordDenial false)
        | some lineageDepth =>
            if lineageDepth > maxCapabilityLineageDepth then
              (.error .lineageDepthExceeded, s.recordDenial false)
            else
              match s.find receiver with
              | none => (.error .endpointMissing, s)
              | some receiverIndex =>
                  if (s.endpoints receiverIndex).len ≥ queueDepth then
                    (.error .queueFull, s.recordQueueFull)
                  else
                    match s.endpoints.freeSlot receiverIndex with
                    | none => (.error .capabilityCapacity, s)
                    | some recipientSlot =>
                        s.commitTransfer sender receiver source lineageDepth receiverIndex
                          recipientSlot requestedRights bytes

/-- The sequence number, whether the receiver was waiting, the receiver, and
the handle of the capability it received. -/
def sendWithCapability (s : IpcState) (sender destinationHandle transferHandle : Nat)
    (requestedRights : CapabilityRights) (bytes : List UInt8) :
    Outcome (Nat × Bool × Nat × Nat) :=
  match s.trySendWithCapability sender destinationHandle transferHandle requestedRights bytes with
  | (.error error, s) =>
      (.error error, { s with counters := { s.counters with
        capabilityTransferFailures := satAdd s.counters.capabilityTransferFailures 1 } })
  | result => result

/-- `output[..length].copy_from_slice(&message.bytes[..length])`. -/
def copyPayload (message : Message) (output : List UInt8) : List UInt8 :=
  message.payload ++ output.drop message.length

/-- The third component is the caller's output buffer after the call. -/
def receive (s : IpcState) (receiver : Nat) (output : List UInt8) :
    Except IpcError Delivery × IpcState × List UInt8 :=
  match s.canReceive receiver with
  | (.error error, s) => (.error error, s, output)
  | (.ok (), s) =>
      match s.find receiver with
      | none => (.error .endpointMissing, s, output)
      | some index =>
          match (s.endpoints index).front with
          | none => (.error .queueEmpty, s, output)
          | some message =>
              if output.length < message.length then (.error .bufferTooSmall, s, output)
              else
                match (s.endpoints index).pop with
                | none => (.error .queueEmpty, s, output)
                | some (message, popped) =>
                    (.ok { sender := message.sender
                           length := message.length
                           sequence := message.sequence
                           capabilityHandle := message.capabilityHandle
                           capabilityRights := message.capabilityRights },
                      { s with
                        endpoints := Function.update s.endpoints index popped
                        counters := { s.counters with
                          messagesReceived := satAdd s.counters.messagesReceived 1 } },
                      copyPayload message output)

def setWaiting (s : IpcState) (taskId : Nat) (waiting : Bool) : Outcome Unit :=
  match s.find taskId with
  | none => (.error .endpointMissing, s)
  | some index =>
      (.ok (), { s with
        endpoints := Function.update s.endpoints index { s.endpoints index with waiting } })

def hasMessage (s : IpcState) (taskId : Nat) : Except IpcError Bool :=
  match s.find taskId with
  | none => .error .endpointMissing
  | some index => .ok ((s.endpoints index).len != 0)

/-! ### What a refusal can be -/

/-- Resolving never reports on queues, on blocking or on waking. -/
theorem resolveCapability_refusal (s : IpcState) (owner handle : Nat)
    (required : CapabilityRights) :
    (∃ capability, s.resolveCapability owner handle required = (.ok capability, s)) ∨
    ∃ error s', s.resolveCapability owner handle required = (.error error, s') ∧
      error ≠ .queueEmpty ∧ error ≠ .wakeFailed ∧ error ≠ .blockFailed := by
  unfold resolveCapability
  cases s.find owner with
  | none => exact Or.inr ⟨_, _, rfl, by decide, by decide, by decide⟩
  | some index =>
      cases decodeHandle handle with
      | none => exact Or.inr ⟨_, _, rfl, by decide, by decide, by decide⟩
      | some pair =>
          dsimp only
          split
          · exact Or.inr ⟨_, _, rfl, by decide, by decide, by decide⟩
          split
          · exact Or.inr ⟨_, _, rfl, by decide, by decide, by decide⟩
          split
          · exact Or.inr ⟨_, _, rfl, by decide, by decide, by decide⟩
          · exact Or.inl ⟨_, rfl⟩

/-- A handle is never refused for lack of a message or a task. -/
theorem resolve_refusal (s : IpcState) (owner handle : Nat) (required : CapabilityRights) :
    (∃ target, s.resolve owner handle required = (.ok target, s)) ∨
    ∃ error s', s.resolve owner handle required = (.error error, s') ∧
      error ≠ .queueEmpty ∧ error ≠ .wakeFailed ∧ error ≠ .blockFailed := by
  unfold resolve
  rcases s.resolveCapability_refusal owner handle required with
    ⟨capability, eq⟩ | ⟨error, s', eq, refusal⟩
  · rw [eq]
    exact Or.inl ⟨_, rfl⟩
  · rw [eq]
    exact Or.inr ⟨error, s', rfl, refusal⟩

theorem canReceive_refusal (s : IpcState) (receiver : Nat) :
    s.canReceive receiver = (.ok (), s) ∨
    ∃ error s', s.canReceive receiver = (.error error, s') ∧
      error ≠ .queueEmpty ∧ error ≠ .wakeFailed ∧ error ≠ .blockFailed := by
  unfold canReceive
  cases self : s.selfCapability receiver with
  | error error =>
      have denied : error = .endpointMissing ∨ error = .permissionDenied := by
        unfold selfCapability at self
        split at self
        · cases self
          exact Or.inl rfl
        · dsimp only at self
          split at self
          · cases self
            exact Or.inr rfl
          · cases self
      rcases denied with rfl | rfl
      · exact Or.inr ⟨_, _, rfl, by decide, by decide, by decide⟩
      · exact Or.inr ⟨_, _, rfl, by decide, by decide, by decide⟩
  | ok handle =>
      dsimp only
      rcases s.resolve_refusal receiver handle CapabilityRights.receive with
        ⟨target, eq⟩ | ⟨error, s', eq, refusal⟩
      · rw [eq]
        dsimp only [Outcome.andThen]
        split
        · exact Or.inr ⟨_, _, rfl, by decide, by decide, by decide⟩
        · exact Or.inl rfl
      · rw [eq]
        exact Or.inr ⟨error, s', rfl, refusal⟩

/-- A receive that found the queue empty has changed nothing, and would find it
empty again. -/
theorem receive_eq_queueEmpty {s s' : IpcState} {receiver : Nat} {output output' : List UInt8}
    (failed : s.receive receiver output = (.error .queueEmpty, s', output')) :
    s' = s ∧ s.canReceive receiver = (.ok (), s) ∧ s.hasMessage receiver = .ok false := by
  unfold receive at failed
  rcases s.canReceive_refusal receiver with eq | ⟨error, t, eq, other, -⟩
  · rw [eq] at failed
    dsimp only at failed
    unfold hasMessage
    cases found : s.find receiver with
    | none =>
        rw [found] at failed
        cases failed
    | some index =>
        rw [found] at failed
        dsimp only at failed
        cases oldest : (s.endpoints index).front with
        | none =>
            rw [oldest] at failed
            cases failed
            refine ⟨rfl, eq, ?_⟩
            have empty : (s.endpoints index).len = 0 := by
              by_contra nonempty
              rw [Endpoint.front, if_neg nonempty] at oldest
              cases oldest
            simp [empty]
        | some message =>
            rw [oldest] at failed
            dsimp only at failed
            split at failed
            · cases failed
            · simp only [Endpoint.pop, oldest] at failed
              cases failed
  · rw [eq] at failed
    cases failed
    exact absurd rfl other

end IpcState

end CloudOS.Ipc
