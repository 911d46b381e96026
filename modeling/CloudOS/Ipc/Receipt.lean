import CloudOS.Ipc.State

/-!
What `IpcState::receive` does, by its exits.

Only one of them removes a message: the oldest, if the caller may receive and its
buffer is large enough.
-/

namespace CloudOS.Ipc

open Lib.Word (satAdd)

/-- What a receive reports of the message. -/
def Message.delivery (message : Message) : Delivery where
  sender := message.sender
  length := message.length
  sequence := message.sequence
  capabilityHandle := message.capabilityHandle
  capabilityRights := message.capabilityRights

namespace IpcState

/-- The oldest message queued for the task. -/
def oldest (s : IpcState) (taskId : Nat) : Option Message :=
  match s.find taskId with
  | none => none
  | some i => (s.endpoints i).front

/-- The state after a message was taken from endpoint `i`, which is `popped` now. -/
def accept (s : IpcState) (i : Fin maxEndpoints) (popped : Endpoint) : IpcState :=
  { s with
    endpoints := Function.update s.endpoints i popped
    counters := { s.counters with messagesReceived := satAdd s.counters.messagesReceived 1 } }

/-- The exits of `receive`: the result, the state and the caller's buffer. -/
inductive Receipt (s : IpcState) (receiver : Nat) (output : List UInt8) :
    Except IpcError Delivery × IpcState × List UInt8 → Prop
  | denied {error : IpcError} {s' : IpcState} (denied : s.canReceive receiver = (.error error, s'))
      (other : error ≠ .queueEmpty) (able : error ≠ .blockFailed) :
      Receipt s receiver output (.error error, s', output)
  | missing (allowed : s.canReceive receiver = (.ok (), s)) (missing : s.find receiver = none) :
      Receipt s receiver output (.error .endpointMissing, s, output)
  | empty {i : Fin maxEndpoints} (allowed : s.canReceive receiver = (.ok (), s))
      (found : s.find receiver = some i) (empty : (s.endpoints i).front = none) :
      Receipt s receiver output (.error .queueEmpty, s, output)
  | small {i : Fin maxEndpoints} {message : Message} (allowed : s.canReceive receiver = (.ok (), s))
      (found : s.find receiver = some i) (first : (s.endpoints i).front = some message)
      (small : output.length < message.length) :
      Receipt s receiver output (.error .bufferTooSmall, s, output)
  | accepted {i : Fin maxEndpoints} {message : Message} {popped : Endpoint}
      (allowed : s.canReceive receiver = (.ok (), s)) (found : s.find receiver = some i)
      (first : (s.endpoints i).front = some message) (fits : message.length ≤ output.length)
      (pops : (s.endpoints i).pop = some (message, popped)) :
      Receipt s receiver output (.ok message.delivery, s.accept i popped, copyPayload message output)

/-- A receive hands over the oldest message or says why not. -/
theorem receive_receipt (s : IpcState) (receiver : Nat) (output : List UInt8) :
    Receipt s receiver output (s.receive receiver output) := by
  unfold receive
  rcases s.canReceive_refusal receiver with allowed | ⟨error, s', denied, other, -, able⟩
  · rw [allowed]
    dsimp only
    cases found : s.find receiver with
    | none => exact .missing allowed found
    | some i =>
        dsimp only
        cases first : (s.endpoints i).front with
        | none => exact .empty allowed found first
        | some message =>
            dsimp only
            split
            · rename_i small
              exact .small allowed found first small
            · rename_i fits
              cases pops : (s.endpoints i).pop with
              | none =>
                  simp only [Endpoint.pop, first] at pops
                  cases pops
              | some pair =>
                  obtain ⟨message', popped⟩ := pair
                  have same : message' = message := by
                    simp only [Endpoint.pop, first, Option.some.injEq, Prod.mk.injEq] at pops
                    exact pops.1.symm
                  subst same
                  exact .accepted allowed found first (Nat.not_lt.mp fits) pops
  · rw [denied]
    exact .denied denied other able

theorem oldest_of_find {s : IpcState} {taskId : Nat} {i : Fin maxEndpoints}
    (found : s.find taskId = some i) : s.oldest taskId = (s.endpoints i).front := by
  unfold oldest
  rw [found]

theorem hasMessage_of_find {s : IpcState} {taskId : Nat} {i : Fin maxEndpoints}
    (found : s.find taskId = some i) :
    s.hasMessage taskId = .ok (s.endpoints i).front.isSome := by
  unfold hasMessage Endpoint.front
  rw [found]
  dsimp only
  split
  · rename_i empty
    rw [empty]
    rfl
  · rename_i nonempty
    rw [bne_iff_ne.mpr nonempty]
    rfl

/-- A receive succeeds if the caller may receive and its oldest message fits. -/
theorem receive_isOk_iff {s : IpcState} {receiver : Nat} {output : List UInt8} :
    (∃ delivery, (s.receive receiver output).1 = .ok delivery) ↔
      (s.canReceive receiver).1 = .ok () ∧
        ∃ message ∈ s.oldest receiver, message.length ≤ output.length := by
  have receipt := s.receive_receipt receiver output
  generalize s.receive receiver output = result at receipt
  cases receipt with
  | denied denied =>
      rw [denied]
      exact iff_of_false nofun nofun
  | missing allowed missing =>
      refine iff_of_false nofun ?_
      rintro ⟨-, message, isOldest, -⟩
      rw [oldest, missing] at isOldest
      cases isOldest
  | empty allowed found empty =>
      refine iff_of_false nofun ?_
      rintro ⟨-, message, isOldest, -⟩
      rw [oldest_of_find found, empty] at isOldest
      cases isOldest
  | small allowed found first small =>
      refine iff_of_false nofun ?_
      rintro ⟨-, message, isOldest, fits⟩
      rw [oldest_of_find found, first] at isOldest
      cases isOldest
      omega
  | @accepted i message popped allowed found first fits pops =>
      rw [allowed, oldest_of_find found, first]
      exact iff_of_true ⟨_, rfl⟩ ⟨rfl, message, rfl, fits⟩

end IpcState

end CloudOS.Ipc
