import CloudOS.Ipc.Change
import CloudOS.Ipc.Invariants

/-!
Refused operations.

An operation that returns an error leaves the tables, the sequence number and
the generation counter as they were; it may count the refusal. The exception in
the code is `resolve_capability`, which revokes a capability whose target has no
endpoint, and the invariants say that there is no such capability.
-/

namespace CloudOS.Ipc

open Lib.Word (checkedAdd_eq_some)

/-- The reply is an error. -/
def Reply.Failed : Reply → Prop
  | unit result => ∃ error, result = .error error
  | word result => ∃ error, result = .error error
  | report result => ∃ error, result = .error error
  | sent result => ∃ error, result = .error error
  | sentCapability result => ∃ error, result = .error error
  | transferred result => ∃ error, result = .error error
  | received result _ => ∃ error, result = .error error

/-- Nothing differs but the counters of denials, failures and full queues. -/
def CountsRefusal (s s' : IpcState) : Prop :=
  ∃ denials stale failures full, s' = { s with counters := { s.counters with
    capabilityDenials := denials
    staleCapabilityDenials := stale
    capabilityTransferFailures := failures
    queueFullEvents := full } }

namespace CountsRefusal

variable {s s' s'' : IpcState}

theorem refl (s : IpcState) : CountsRefusal s s := ⟨_, _, _, _, rfl⟩

theorem trans (first : CountsRefusal s s') (second : CountsRefusal s' s'') :
    CountsRefusal s s'' := by
  obtain ⟨_, _, _, _, rfl⟩ := first
  obtain ⟨_, _, _, _, rfl⟩ := second
  exact ⟨_, _, _, _, rfl⟩

theorem denial (s : IpcState) (stale : Bool) : CountsRefusal s (s.recordDenial stale) :=
  ⟨_, _, _, _, rfl⟩

theorem queueFull (s : IpcState) : CountsRefusal s s.recordQueueFull := ⟨_, _, _, _, rfl⟩

theorem endpoints (counts : CountsRefusal s s') : s'.endpoints = s.endpoints := by
  obtain ⟨_, _, _, _, rfl⟩ := counts
  rfl

theorem nextSequence (counts : CountsRefusal s s') : s'.nextSequence = s.nextSequence := by
  obtain ⟨_, _, _, _, rfl⟩ := counts
  rfl

theorem core (counts : CountsRefusal s s') : s'.core = s.core := by
  obtain ⟨_, _, _, _, rfl⟩ := counts
  rfl

end CountsRefusal

/-- The handle names a capability that would pass, were it not that its target
has no endpoint. -/
def Dangles (s : IpcState) (owner handle : Nat) (required : CapabilityRights) : Prop :=
  ∃ i slot, s.find owner = some i ∧
    decodeHandle handle = some (slot, (s.endpoints.capability (i, slot)).generation) ∧
    (s.endpoints.capability (i, slot)).active = true ∧
    (s.endpoints.capability (i, slot)).rights.contains required = true ∧
    s.find (s.endpoints.capability (i, slot)).target = none

namespace IpcState

variable {s : IpcState}

/-- The invariants leave no capability without a target. -/
theorem not_dangles (coherent : s.endpoints.Coherent) (owner handle : Nat)
    (required : CapabilityRights) : ¬ Dangles s owner handle required := by
  rintro ⟨i, slot, -, -, active, -, missing⟩
  obtain ⟨j, owned⟩ := coherent.target (i, slot) active
  exact Endpoints.find_eq_none.mp missing j owned

/-- A resolution that does not meet a missing target changes nothing. -/
theorem resolveCapability_refused {owner handle : Nat} {required : CapabilityRights}
    (sound : ¬ Dangles s owner handle required) :
    (∃ capability, s.resolveCapability owner handle required = (.ok capability, s)) ∨
    ∃ error s', s.resolveCapability owner handle required = (.error error, s') ∧
      CountsRefusal s s' := by
  unfold resolveCapability
  cases found : s.find owner with
  | none => exact Or.inr ⟨_, _, rfl, .refl s⟩
  | some i =>
      cases decoded : decodeHandle handle with
      | none => exact Or.inr ⟨_, _, rfl, .denial s false⟩
      | some pair =>
          obtain ⟨slot, generation⟩ := pair
          dsimp only
          split
          · exact Or.inr ⟨_, _, rfl, .denial s true⟩
          rename_i current
          simp only [Bool.or_eq_true, Bool.not_eq_true', bne_iff_ne, ne_eq, not_or,
            Bool.not_eq_false, not_not] at current
          obtain ⟨active, rfl⟩ := current
          split
          · exact Or.inr ⟨_, _, rfl, .denial s false⟩
          rename_i permitted
          split
          · rename_i missing
            exact absurd ⟨i, slot, found, decoded, active, by
              simpa [Endpoints.capability] using permitted,
              Option.isNone_iff_eq_none.mp missing⟩ sound
          · exact Or.inl ⟨_, rfl⟩

/-- A resolution that does meet one takes the capability out of its table. -/
theorem resolveCapability_of_dangles {owner handle : Nat} {required : CapabilityRights}
    (dangles : Dangles s owner handle required) :
    ∃ s', s.resolveCapability owner handle required = (.error .staleCapability, s') ∧
      s'.endpoints.activeCount < s.endpoints.activeCount := by
  obtain ⟨i, slot, found, decoded, active, permitted, missing⟩ := dangles
  unfold resolveCapability
  simp only [Endpoints.capability] at decoded active permitted missing
  rw [found]
  dsimp only
  rw [decoded]
  dsimp only
  rw [if_neg (by simp [active]), if_neg (by simp [permitted]), if_pos (by simp [missing])]
  refine ⟨_, rfl, ?_⟩
  have fewer := Endpoints.revokeGeneration_activeCount (e := s.endpoints) (q := (i, slot)) active
  unfold recordRevocation
  split
  · exact fewer
  · exact fewer

theorem resolveCapability_of_resolves {owner handle : Nat} {required : CapabilityRights}
    {capability : Capability} (resolves : Resolves s owner handle required capability) :
    s.resolveCapability owner handle required = (.ok capability, s) := by
  obtain ⟨⟨i, slot, found, decoded, rfl⟩, active, permitted, target⟩ := resolves
  unfold resolveCapability
  simp only [Endpoints.capability] at decoded active permitted target ⊢
  rw [found]
  dsimp only
  rw [decoded]
  dsimp only
  rw [if_neg (by simp [active]), if_neg (by simp [permitted]),
    if_neg (by simpa [Option.isSome_iff_ne_none, Option.isNone_iff_eq_none] using target)]

/-- A handle that is resolved names an active capability with the rights. -/
theorem resolves_of_resolveCapability {owner handle : Nat} {required : CapabilityRights}
    {capability : Capability} {s' : IpcState}
    (resolved : s.resolveCapability owner handle required = (.ok capability, s')) :
    s' = s ∧ Resolves s owner handle required capability := by
  unfold resolveCapability at resolved
  cases found : s.find owner with
  | none =>
      rw [found] at resolved
      cases resolved
  | some i =>
      cases decoded : decodeHandle handle with
      | none =>
          rw [found, decoded] at resolved
          cases resolved
      | some pair =>
          obtain ⟨slot, generation⟩ := pair
          rw [found, decoded] at resolved
          dsimp only at resolved
          split at resolved
          · cases resolved
          rename_i current
          simp only [Bool.or_eq_true, Bool.not_eq_true', bne_iff_ne, ne_eq, not_or,
            Bool.not_eq_false, not_not] at current
          obtain ⟨active, rfl⟩ := current
          split at resolved
          · cases resolved
          rename_i permitted
          split at resolved
          · cases resolved
          rename_i present
          cases resolved
          refine ⟨rfl, ⟨i, slot, found, decoded, rfl⟩, active, by simpa using permitted, ?_⟩
          simpa [Option.isSome_iff_ne_none, Option.isNone_iff_eq_none] using present

/-- Without a dangling capability a refusal changes counters only. -/
theorem resolve_refused {owner handle : Nat} {required : CapabilityRights}
    (sound : ¬ Dangles s owner handle required) :
    (∃ target, s.resolve owner handle required = (.ok target, s)) ∨
    ∃ error s', s.resolve owner handle required = (.error error, s') ∧ CountsRefusal s s' := by
  unfold resolve
  rcases resolveCapability_refused sound with ⟨capability, eq⟩ | ⟨error, s', eq, counts⟩
  · rw [eq]
    exact Or.inl ⟨_, rfl⟩
  · rw [eq]
    exact Or.inr ⟨error, s', rfl, counts⟩

/-- The target of the capability that a task has for itself is the task. -/
theorem selfCapability_not_dangles {taskId handle : Nat}
    (self : s.selfCapability taskId = .ok handle) (required : CapabilityRights) :
    ¬ Dangles s taskId handle required := by
  rintro ⟨i, slot, found, decoded, -, -, missing⟩
  unfold selfCapability at self
  rw [found] at self
  dsimp only at self
  split at self
  · cases self
  rename_i checks
  simp only [Bool.or_eq_true, Bool.not_eq_true', bne_iff_ne, ne_eq, not_or, Bool.not_eq_false,
    not_not] at checks
  obtain ⟨⟨-, target⟩, -⟩ := checks
  obtain rfl := Except.ok.inj self
  obtain rfl := decodeHandle_first decoded
  rw [Endpoints.capability, target, found] at missing
  cases missing

theorem canReceive_refused (receiver : Nat) :
    s.canReceive receiver = (.ok (), s) ∨
    ∃ error s', s.canReceive receiver = (.error error, s') ∧ CountsRefusal s s' := by
  unfold canReceive
  cases self : s.selfCapability receiver with
  | error error => exact Or.inr ⟨_, _, rfl, .refl s⟩
  | ok handle =>
      dsimp only
      rcases resolve_refused (selfCapability_not_dangles self CapabilityRights.receive) with
        ⟨target, eq⟩ | ⟨error, s', eq, counts⟩
      · rw [eq]
        dsimp only [Outcome.andThen]
        split
        · exact Or.inr ⟨_, _, rfl, .denial s false⟩
        · exact Or.inl rfl
      · rw [eq]
        exact Or.inr ⟨error, s', rfl, counts⟩

/-! ### The operations -/

variable {s' : IpcState} {error : IpcError}

theorem register_refused {taskId : Nat} (failed : s.register taskId = (.error error, s')) :
    CountsRefusal s s' := by
  unfold register at failed
  split at failed
  · cases failed
    exact .refl s
  split at failed
  · cases failed
    exact .refl s
  split at failed
  · cases failed
  split at failed
  · cases failed
    exact .refl s
  · cases failed

theorem unregister_refused {taskId : Nat} (failed : s.unregister taskId = (.error error, s')) :
    CountsRefusal s s' := by
  unfold unregister at failed
  split at failed
  · cases failed
    exact .refl s
  · cases failed

theorem grant_refused {owner target : Nat} {rights : CapabilityRights}
    (failed : s.grant owner target rights = (.error error, s')) : CountsRefusal s s' := by
  unfold grant at failed
  split at failed
  · cases failed
    exact .refl s
  split at failed
  · cases failed
    exact .refl s
  split at failed
  · cases failed
    exact .refl s
  split at failed
  · cases failed
    exact .refl s
  · cases failed

theorem revoke_refused {owner handle : Nat} (failed : s.revoke owner handle = (.error error, s')) :
    CountsRefusal s s' := by
  unfold revoke at failed
  split at failed
  · cases failed
    exact .refl s
  split at failed
  · cases failed
    exact .refl s
  dsimp only at failed
  split at failed
  · cases failed
    exact .denial s true
  · cases failed

/-- The push behind the check of the queue length always finds room. -/
theorem send_refused {sender receiver : Nat} {bytes : List UInt8}
    (failed : s.send sender receiver bytes = (.error error, s')) : CountsRefusal s s' := by
  unfold send at failed
  split at failed
  · cases failed
    exact .refl s
  split at failed
  · cases failed
    exact .refl s
  split at failed
  · cases failed
    exact .refl s
  split at failed
  · cases failed
    exact .refl s
  split at failed
  · cases failed
    exact .queueFull s
  · rename_i space
    dsimp only at failed
    rw [Endpoint.push_of_space (by simpa using space)] at failed
    cases failed

theorem sendCapability_refused {sender handle : Nat} {bytes : List UInt8}
    (sound : ¬ Dangles s sender handle CapabilityRights.send)
    (failed : s.sendCapability sender handle bytes = (.error error, s')) : CountsRefusal s s' := by
  unfold sendCapability at failed
  rcases resolve_refused sound with ⟨target, eq⟩ | ⟨error', t, eq, counts⟩
  · rw [eq] at failed
    dsimp only [Outcome.andThen] at failed
    split at failed
    · cases failed
    · rename_i sent
      cases failed
      exact send_refused sent
  · rw [eq] at failed
    cases failed
    exact counts

/-- So does the one behind the checks of a transfer. -/
theorem trySendWithCapability_refused {sender destination transfer : Nat}
    {rights : CapabilityRights} {bytes : List UInt8}
    (sound : ¬ Dangles s sender destination CapabilityRights.send)
    (sound' : ¬ Dangles s sender transfer CapabilityRights.delegate)
    (failed : s.trySendWithCapability sender destination transfer rights bytes =
      (.error error, s')) : CountsRefusal s s' := by
  unfold trySendWithCapability at failed
  split at failed
  · cases failed
    exact .denial s false
  split at failed
  · cases failed
    exact .refl s
  rcases resolve_refused sound with ⟨receiver, eq⟩ | ⟨error', t, eq, counts⟩
  swap
  · rw [eq] at failed
    cases failed
    exact counts
  rw [eq] at failed
  dsimp only [Outcome.andThen] at failed
  rcases resolveCapability_refused sound' with ⟨source, eq⟩ | ⟨error', t, eq, counts⟩
  swap
  · rw [eq] at failed
    cases failed
    exact counts
  rw [eq] at failed
  dsimp only at failed
  split at failed
  · cases failed
    exact .denial s false
  split at failed
  · cases failed
    exact .denial s false
  split at failed
  · cases failed
    exact .denial s false
  rename_i checked
  obtain ⟨rfl, -⟩ := checkedAdd_eq_some.mp checked
  split at failed
  · cases failed
    exact .denial s false
  split at failed
  · cases failed
    exact .refl s
  split at failed
  · cases failed
    exact .queueFull s
  rename_i space
  split at failed
  · cases failed
    exact .refl s
  · rename_i slot _
    obtain ⟨t, committed, -⟩ := s.commitTransfer_eq sender receiver source slot rights bytes
      (not_le.mp space) rfl rfl
    rw [committed] at failed
    cases failed

/-- Neither capability dangles, so a refused transfer changes counters only. -/
theorem sendWithCapability_refused {sender destination transfer : Nat}
    {rights : CapabilityRights} {bytes : List UInt8}
    (sound : ¬ Dangles s sender destination CapabilityRights.send)
    (sound' : ¬ Dangles s sender transfer CapabilityRights.delegate)
    (failed : s.sendWithCapability sender destination transfer rights bytes =
      (.error error, s')) : CountsRefusal s s' := by
  unfold sendWithCapability at failed
  split at failed
  · rename_i tried
    cases failed
    exact (trySendWithCapability_refused sound sound' tried).trans ⟨_, _, _, _, rfl⟩
  · rename_i accepted
    exact absurd failed (accepted _ _)

theorem setWaiting_refused {taskId : Nat} {waiting : Bool}
    (failed : s.setWaiting taskId waiting = (.error error, s')) : CountsRefusal s s' := by
  unfold setWaiting at failed
  split at failed
  · cases failed
    exact .refl s
  · cases failed

theorem receive_refused {receiver : Nat} {output output' : List UInt8}
    (failed : s.receive receiver output = (.error error, s', output')) :
    CountsRefusal s s' ∧ output' = output := by
  unfold receive at failed
  rcases canReceive_refused (s := s) receiver with eq | ⟨error', t, eq, counts⟩
  swap
  · rw [eq] at failed
    cases failed
    exact ⟨counts, rfl⟩
  rw [eq] at failed
  dsimp only at failed
  split at failed
  · cases failed
    exact ⟨.refl s, rfl⟩
  split at failed
  · cases failed
    exact ⟨.refl s, rfl⟩
  split at failed
  · cases failed
    exact ⟨.refl s, rfl⟩
  split at failed
  · cases failed
    exact ⟨.refl s, rfl⟩
  · cases failed

end IpcState

/-- In a coherent state no failed operation changes more than counters. -/
theorem exec_refused {s : IpcState} (coherent : s.endpoints.Coherent) {op : Op}
    (failed : (exec s op).2.Failed) : CountsRefusal s (exec s op).1 := by
  have sound := IpcState.not_dangles coherent
  cases op with
  | register taskId =>
      obtain ⟨error, failed⟩ := failed
      exact IpcState.register_refused (Prod.ext failed rfl)
  | unregister taskId =>
      obtain ⟨error, failed⟩ := failed
      exact IpcState.unregister_refused (Prod.ext failed rfl)
  | grant owner target rights =>
      obtain ⟨error, failed⟩ := failed
      exact IpcState.grant_refused (Prod.ext failed rfl)
  | revoke owner handle =>
      obtain ⟨error, failed⟩ := failed
      exact IpcState.revoke_refused (Prod.ext failed rfl)
  | send sender receiver bytes =>
      obtain ⟨error, failed⟩ := failed
      exact IpcState.send_refused (Prod.ext failed rfl)
  | sendCapability sender handle bytes =>
      obtain ⟨error, failed⟩ := failed
      exact IpcState.sendCapability_refused (sound _ _ _) (Prod.ext failed rfl)
  | sendWithCapability sender destination transfer rights bytes =>
      obtain ⟨error, failed⟩ := failed
      exact IpcState.sendWithCapability_refused (sound _ _ _) (sound _ _ _) (Prod.ext failed rfl)
  | receive receiver output =>
      obtain ⟨error, failed⟩ := failed
      exact (IpcState.receive_refused (Prod.ext failed rfl)).1
  | setWaiting taskId waiting =>
      obtain ⟨error, failed⟩ := failed
      exact IpcState.setWaiting_refused (Prod.ext failed rfl)
  | selfCapability taskId => exact .refl s
  | resolve owner handle required =>
      obtain ⟨error, failed⟩ := failed
      rcases IpcState.resolve_refused (sound owner handle required) with
        ⟨target, eq⟩ | ⟨error', s', eq, counts⟩
      · rw [eq] at failed
        cases failed
      · change CountsRefusal s (s.resolve owner handle required).2
        rw [eq]
        exact counts

/-- In a state that satisfies the invariants, an operation that returns an error
has only counted it, and no resolution meets a capability without a target. -/
theorem atomic_on_error {s : IpcState} (invariants : s.invariants = true) :
    (∀ op : Op, (exec s op).2.Failed → CountsRefusal s (exec s op).1) ∧
      ∀ owner handle required, ¬ Dangles s owner handle required := by
  have coherent := (invariants_iff.mp invariants).2
  exact ⟨fun op => exec_refused coherent, IpcState.not_dangles coherent⟩

/-- A task sends with a handle it does not hold, which is counted as a denial. -/
theorem atomic_on_error_deniedSend :
    CountsRefusal (run initial [.register 1])
      (exec (run initial [.register 1]) (.sendCapability 1 7 [1, 2])).1 :=
  (atomic_on_error (s := run initial [.register 1]) (by decide +kernel)).1
    (.sendCapability 1 7 [1, 2]) ⟨.invalidCapability, by decide +kernel⟩

end CloudOS.Ipc
