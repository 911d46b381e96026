import CloudOS.Ipc.State

/-!
Runs of `IpcState` operations.

An `Op` is one call with its arguments, `exec` performs it and `run` performs a
list of them. Clients see replies only, so the message traffic is read off
them: `event` says which message a reply reports as accepted or delivered.
-/

namespace CloudOS.Ipc

/-! ### Operations -/

inductive Op where
  | register (taskId : Nat)
  | unregister (taskId : Nat)
  | grant (owner target : Nat) (rights : CapabilityRights)
  | revoke (owner handle : Nat)
  | send (sender receiver : Nat) (bytes : List UInt8)
  | sendCapability (sender handle : Nat) (bytes : List UInt8)
  | sendWithCapability (sender destinationHandle transferHandle : Nat)
      (requestedRights : CapabilityRights) (bytes : List UInt8)
  | receive (receiver : Nat) (output : List UInt8)
  | setWaiting (taskId : Nat) (waiting : Bool)
  | selfCapability (taskId : Nat)
  | resolve (owner handle : Nat) (required : CapabilityRights)

/-- Every task id among the arguments is non-zero. -/
def Op.NonZero : Op → Prop
  | register taskId => taskId ≠ 0
  | unregister taskId => taskId ≠ 0
  | grant owner target _ => owner ≠ 0 ∧ target ≠ 0
  | revoke owner _ => owner ≠ 0
  | send sender receiver _ => sender ≠ 0 ∧ receiver ≠ 0
  | sendCapability sender _ _ => sender ≠ 0
  | sendWithCapability sender _ _ _ _ => sender ≠ 0
  | receive receiver _ => receiver ≠ 0
  | setWaiting taskId _ => taskId ≠ 0
  | selfCapability taskId => taskId ≠ 0
  | resolve owner _ _ => owner ≠ 0

instance : DecidablePred Op.NonZero
  | .register taskId => inferInstanceAs (Decidable (taskId ≠ 0))
  | .unregister taskId => inferInstanceAs (Decidable (taskId ≠ 0))
  | .grant owner target _ => inferInstanceAs (Decidable (owner ≠ 0 ∧ target ≠ 0))
  | .revoke owner _ => inferInstanceAs (Decidable (owner ≠ 0))
  | .send sender receiver _ => inferInstanceAs (Decidable (sender ≠ 0 ∧ receiver ≠ 0))
  | .sendCapability sender _ _ => inferInstanceAs (Decidable (sender ≠ 0))
  | .sendWithCapability sender _ _ _ _ => inferInstanceAs (Decidable (sender ≠ 0))
  | .receive receiver _ => inferInstanceAs (Decidable (receiver ≠ 0))
  | .setWaiting taskId _ => inferInstanceAs (Decidable (taskId ≠ 0))
  | .selfCapability taskId => inferInstanceAs (Decidable (taskId ≠ 0))
  | .resolve owner _ _ => inferInstanceAs (Decidable (owner ≠ 0))

inductive Reply where
  | unit (result : Except IpcError Unit)
  | word (result : Except IpcError Nat)
  | report (result : Except IpcError RevocationReport)
  | sent (result : Except IpcError (Nat × Bool))
  | sentCapability (result : Except IpcError (Nat × Bool × Nat))
  | transferred (result : Except IpcError (Nat × Bool × Nat × Nat))
  | received (result : Except IpcError Delivery) (output : List UInt8)

def exec (s : IpcState) : Op → IpcState × Reply
  | .register taskId => let r := s.register taskId; (r.2, .unit r.1)
  | .unregister taskId => let r := s.unregister taskId; (r.2, .word r.1)
  | .grant owner target rights => let r := s.grant owner target rights; (r.2, .word r.1)
  | .revoke owner handle => let r := s.revoke owner handle; (r.2, .report r.1)
  | .send sender receiver bytes => let r := s.send sender receiver bytes; (r.2, .sent r.1)
  | .sendCapability sender handle bytes =>
      let r := s.sendCapability sender handle bytes; (r.2, .sentCapability r.1)
  | .sendWithCapability sender destination transfer rights bytes =>
      let r := s.sendWithCapability sender destination transfer rights bytes
      (r.2, .transferred r.1)
  | .receive receiver output =>
      let r := s.receive receiver output; (r.2.1, .received r.1 r.2.2)
  | .setWaiting taskId waiting => let r := s.setWaiting taskId waiting; (r.2, .unit r.1)
  | .selfCapability taskId => (s, .word (s.selfCapability taskId))
  | .resolve owner handle required => let r := s.resolve owner handle required; (r.2, .word r.1)

def step (s : IpcState) (op : Op) : IpcState := (exec s op).1

/-- The state in which runs start. -/
def initial : IpcState := IpcState.new.init

/-- The state after a list of operations. -/
def run (s : IpcState) (ops : List Op) : IpcState := ops.foldl step s

/-! ### Message traffic, read off the replies -/

/-- What a client sees of a message. -/
structure Packet where
  sender : Nat
  length : Nat
  payload : List UInt8
  sequence : Nat
  capabilityHandle : Nat
  capabilityRights : UInt8
deriving DecidableEq

def Message.packet (message : Message) : Packet where
  sender := message.sender
  length := message.length
  payload := message.payload
  sequence := message.sequence
  capabilityHandle := message.capabilityHandle
  capabilityRights := message.capabilityRights

/-- The packet without its attachment. -/
def Packet.strip (packet : Packet) : Packet :=
  { packet with capabilityHandle := 0, capabilityRights := 0 }

inductive Event where
  | accepted (receiver : Nat) (packet : Packet)
  | delivered (receiver : Nat) (packet : Packet)

/-- A successful send accepts the message it was given, with the attachment that a
transfer reports; a successful receive delivers what its result and the filled
part of its buffer say. -/
def event : Op → Reply → Option Event
  | .send sender receiver bytes, .sent (.ok (sequence, _)) =>
      some (.accepted receiver ⟨sender, bytes.length, bytes, sequence, 0, 0⟩)
  | .sendCapability sender _ bytes, .sentCapability (.ok (sequence, _, receiver)) =>
      some (.accepted receiver ⟨sender, bytes.length, bytes, sequence, 0, 0⟩)
  | .sendWithCapability sender _ _ requestedRights bytes,
      .transferred (.ok (sequence, _, receiver, recipientHandle)) =>
      some (.accepted receiver
        ⟨sender, bytes.length, bytes, sequence, recipientHandle, requestedRights.bits⟩)
  | .receive receiver _, .received (.ok delivery) output =>
      some (.delivered receiver ⟨delivery.sender, delivery.length, output.take delivery.length,
        delivery.sequence, delivery.capabilityHandle, delivery.capabilityRights⟩)
  | _, _ => none

end CloudOS.Ipc
