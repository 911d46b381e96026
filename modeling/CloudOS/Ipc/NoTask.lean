import CloudOS.Ipc.Coherence
import CloudOS.Ipc.Refusal

/-!
Task id 0.

Callers pass 0 for a task that does not exist, and 0 is also what the owner field
of a free endpoint holds, so `find` takes a free endpoint for the endpoint of
task 0. Operations that need a capability of it fail all the same, since a free
endpoint holds none. Those that only need it to exist do not: `grant`, `send`,
`set_waiting`, `unregister` and `capability_info` succeed when an endpoint is
free.
-/

namespace CloudOS.Ipc

structure CapabilityInfo where
  slot : Nat
  handle : Nat
  target : Nat
  rights : UInt8
  generation : Nat
  parentGeneration : Nat
  lineageDepth : Nat
  active : Bool
deriving DecidableEq

namespace IpcState

def capabilityInfo (s : IpcState) (owner slot : Nat) : Option CapabilityInfo :=
  if inside : slot < maxCapabilitiesPerEndpoint then
    match s.find owner with
    | none => none
    | some index =>
        let capability := (s.endpoints index).capabilities ⟨slot, inside⟩
        some
          { slot
            handle := if capability.active then encodeHandle slot capability.generation
              else 0
            target := capability.target
            rights := capability.rights.bits
            generation := capability.generation
            parentGeneration := capability.parentGeneration
            lineageDepth := capability.lineageDepth
            active := capability.active }
  else none

/-- The checks of `grant`. -/
def Grants (s : IpcState) (owner target : Nat) (rights : CapabilityRights) : Prop :=
  rights.valid = true ∧ (rights.contains CapabilityRights.receive = true → owner = target) ∧
    (s.find target).isSome = true ∧
    ∃ i, s.find owner = some i ∧ (s.endpoints.freeSlot i).isSome = true

/-- The checks of `send`. -/
def Sends (s : IpcState) (sender receiver : Nat) (bytes : List UInt8) : Prop :=
  s.initialized = true ∧ bytes.length ≤ maxMessageBytes ∧ (s.find sender).isSome = true ∧
    ∃ i, s.find receiver = some i ∧ (s.endpoints i).len < queueDepth

end IpcState

/-- Where the operation names task 0, something else than the id refuses it: no
endpoint is free, or another check of the operation fails. -/
def Op.Guarded (s : IpcState) : Op → Prop
  | grant owner target rights => owner = 0 ∨ target = 0 → ¬ s.Grants owner target rights
  | send sender receiver bytes => sender = 0 ∨ receiver = 0 → ¬ s.Sends sender receiver bytes
  | setWaiting taskId _ | unregister taskId => taskId = 0 → s.find 0 = none
  | register _ | revoke _ _ | sendCapability _ _ _ | sendWithCapability _ _ _ _ _ | receive _ _
  | selfCapability _ | resolve _ _ _ => True

/-- Every operation of the run is guarded in the state it meets. -/
def AllGuarded (s : IpcState) : List Op → Prop
  | [] => True
  | op :: ops => op.Guarded s ∧ AllGuarded (step s op) ops

namespace IpcState

variable {s : IpcState}

/-- A grant fails exactly when one of its checks does. -/
theorem grant_ok_iff (s : IpcState) (owner target : Nat) (rights : CapabilityRights) :
    (∃ error, (s.grant owner target rights).1 = .error error) ↔ ¬ s.Grants owner target rights := by
  unfold grant Grants
  split
  · rename_i refused
    simp only [Bool.or_eq_true, Bool.not_eq_true', Bool.and_eq_true, bne_iff_ne] at refused
    refine iff_of_true ⟨_, rfl⟩ fun grants => ?_
    rcases refused with invalid | ⟨receive, other⟩
    · rw [grants.1] at invalid
      cases invalid
    · exact other (grants.2.1 receive)
  rename_i permitted
  simp only [Bool.or_eq_true, Bool.not_eq_true', Bool.and_eq_true, bne_iff_ne, not_or,
    Bool.not_eq_false, not_and, ne_eq, not_not] at permitted
  split
  · rename_i missing
    refine iff_of_true ⟨_, rfl⟩ fun grants => ?_
    rw [Option.isNone_iff_eq_none.mp missing] at grants
    cases grants.2.2.1
  rename_i present
  cases found : s.find owner with
  | none =>
      refine iff_of_true ⟨_, rfl⟩ fun grants => ?_
      obtain ⟨i, here, -⟩ := grants.2.2.2
      cases here
  | some index =>
      dsimp only
      cases free : s.endpoints.freeSlot index with
      | none =>
          refine iff_of_true ⟨_, rfl⟩ fun grants => ?_
          obtain ⟨i, here, space⟩ := grants.2.2.2
          cases here
          rw [free] at space
          cases space
      | some slot =>
          refine iff_of_false (fun failed => ?_) (not_not.mpr ⟨permitted.1, permitted.2, ?_,
            index, rfl, by rw [free]; rfl⟩)
          · obtain ⟨error, failed⟩ := failed
            cases failed
          · simpa [Option.isSome_iff_ne_none, Option.isNone_iff_eq_none] using present

/-- A send fails exactly when one of its checks does. -/
theorem send_failed_iff (s : IpcState) (sender receiver : Nat) (bytes : List UInt8) :
    (∃ error, (s.send sender receiver bytes).1 = .error error) ↔
      ¬ s.Sends sender receiver bytes := by
  unfold send Sends
  split
  · rename_i down
    refine iff_of_true ⟨_, rfl⟩ fun sends => ?_
    rw [sends.1] at down
    cases down
  rename_i up
  split
  · rename_i long
    exact iff_of_true ⟨_, rfl⟩ fun sends => absurd sends.2.1 (not_le.mpr long)
  rename_i short
  split
  · rename_i missing
    refine iff_of_true ⟨_, rfl⟩ fun sends => ?_
    rw [Option.isNone_iff_eq_none.mp missing] at sends
    cases sends.2.2.1
  rename_i present
  cases found : s.find receiver with
  | none =>
      refine iff_of_true ⟨_, rfl⟩ fun sends => ?_
      obtain ⟨i, here, -⟩ := sends.2.2.2
      cases here
  | some index =>
      dsimp only
      split
      · rename_i full
        refine iff_of_true ⟨_, rfl⟩ fun sends => ?_
        obtain ⟨i, here, space⟩ := sends.2.2.2
        cases here
        exact absurd space (not_lt.mpr full)
      · rename_i space
        rw [Endpoint.push_of_space (by simpa using space)]
        refine iff_of_false (fun failed => ?_) (not_not.mpr ⟨by simpa using up, not_lt.mp short, ?_,
          index, rfl, not_le.mp space⟩)
        · obtain ⟨error, failed⟩ := failed
          cases failed
        · simpa [Option.isSome_iff_ne_none, Option.isNone_iff_eq_none] using present

/-! ### A free endpoint holds no capability -/

theorem free_inactive (coherent : s.endpoints.Coherent) {i : Fin maxEndpoints}
    (found : s.find 0 = some i) (slot : Fin maxCapabilitiesPerEndpoint) :
    ((s.endpoints i).capabilities slot).active = false :=
  coherent.vacant (i, slot) (Endpoints.find_eq_some found)

theorem selfCapability_zero (coherent : s.endpoints.Coherent) :
    ∃ error, s.selfCapability 0 = .error error := by
  unfold selfCapability
  cases found : s.find 0 with
  | none => exact ⟨_, rfl⟩
  | some i =>
      dsimp only
      rw [free_inactive coherent found]
      exact ⟨_, rfl⟩

/-- A free endpoint holds nothing, so a handle of task 0 resolves to nothing. -/
theorem resolveCapability_zero (coherent : s.endpoints.Coherent) (handle : Nat)
    (required : CapabilityRights) :
    ∃ error s', s.resolveCapability 0 handle required = (.error error, s') := by
  unfold resolveCapability
  cases found : s.find 0 with
  | none => exact ⟨_, _, rfl⟩
  | some i =>
      dsimp only
      cases decodeHandle handle with
      | none => exact ⟨_, _, rfl⟩
      | some pair =>
          dsimp only
          rw [free_inactive coherent found]
          exact ⟨_, _, rfl⟩

theorem resolve_zero (coherent : s.endpoints.Coherent) (handle : Nat)
    (required : CapabilityRights) :
    ∃ error s', s.resolve 0 handle required = (.error error, s') := by
  obtain ⟨error, s', eq⟩ := resolveCapability_zero coherent handle required
  exact ⟨error, s', by rw [resolve, eq]; rfl⟩

theorem revoke_zero (coherent : s.endpoints.Coherent) (handle : Nat) :
    ∃ error, (s.revoke 0 handle).1 = .error error := by
  unfold revoke
  cases found : s.find 0 with
  | none => exact ⟨_, rfl⟩
  | some i =>
      dsimp only
      cases decodeHandle handle with
      | none => exact ⟨_, rfl⟩
      | some pair =>
          dsimp only
          rw [free_inactive coherent found]
          exact ⟨_, rfl⟩

theorem sendCapability_zero (coherent : s.endpoints.Coherent) (handle : Nat)
    (bytes : List UInt8) : ∃ error, (s.sendCapability 0 handle bytes).1 = .error error := by
  obtain ⟨error, s', eq⟩ := resolve_zero coherent handle CapabilityRights.send
  exact ⟨error, by rw [sendCapability, eq]; rfl⟩

theorem sendWithCapability_zero (coherent : s.endpoints.Coherent) (destination transfer : Nat)
    (rights : CapabilityRights) (bytes : List UInt8) :
    ∃ error, (s.sendWithCapability 0 destination transfer rights bytes).1 = .error error := by
  have tried : ∃ error s',
      s.trySendWithCapability 0 destination transfer rights bytes = (.error error, s') := by
    unfold trySendWithCapability
    split
    · exact ⟨_, _, rfl⟩
    split
    · exact ⟨_, _, rfl⟩
    obtain ⟨error, s', eq⟩ := resolve_zero coherent destination CapabilityRights.send
    rw [eq]
    exact ⟨_, _, rfl⟩
  obtain ⟨error, s', eq⟩ := tried
  exact ⟨error, by rw [sendWithCapability, eq]⟩

theorem receive_zero (coherent : s.endpoints.Coherent) (output : List UInt8) :
    ∃ error, (s.receive 0 output).1 = .error error := by
  obtain ⟨error, eq⟩ := selfCapability_zero coherent
  exact ⟨error, by rw [receive, canReceive, eq]⟩

theorem capabilityInfo_eq_none_iff (s : IpcState) (owner slot : Nat) :
    s.capabilityInfo owner slot = none ↔
      maxCapabilitiesPerEndpoint ≤ slot ∨ s.find owner = none := by
  unfold capabilityInfo
  split
  · rename_i inside
    rw [or_iff_right (not_le.mpr inside)]
    cases s.find owner with
    | none => exact iff_of_true rfl rfl
    | some i => exact iff_of_false (fun none => by cases none) (fun none => by cases none)
  · rename_i outside
    exact iff_of_true rfl (Or.inl (not_lt.mp outside))

end IpcState

/-! ### One operation -/

/-- An operation that names task 0 fails exactly when it is guarded. -/
theorem failed_iff_guarded {s : IpcState} (coherent : s.endpoints.Coherent) {op : Op}
    (zero : ¬ op.NonZero) : (exec s op).2.Failed ↔ op.Guarded s := by
  cases op with
  | register taskId =>
      obtain rfl : taskId = 0 := not_not.mp zero
      refine iff_of_true ?_ trivial
      change ∃ error, (s.register 0).1 = .error error
      unfold IpcState.register
      split
      · exact ⟨_, rfl⟩
      · exact ⟨_, rfl⟩
  | unregister taskId =>
      obtain rfl : taskId = 0 := not_not.mp zero
      change (∃ error, (s.unregister 0).1 = .error error) ↔ (0 = 0 → s.find 0 = none)
      rw [forall_prop_of_true rfl]
      unfold IpcState.unregister
      cases s.find 0 with
      | none => exact iff_of_true ⟨_, rfl⟩ rfl
      | some i =>
          refine iff_of_false (fun failed => ?_) (fun none => by cases none)
          obtain ⟨error, failed⟩ := failed
          cases failed
  | grant owner target rights =>
      have names : owner = 0 ∨ target = 0 := by
        by_contra neither
        exact zero (not_or.mp neither)
      change _ ↔ (owner = 0 ∨ target = 0 → _)
      rw [forall_prop_of_true names]
      exact s.grant_ok_iff owner target rights
  | revoke owner handle =>
      obtain rfl : owner = 0 := not_not.mp zero
      exact iff_of_true (IpcState.revoke_zero coherent handle) trivial
  | send sender receiver bytes =>
      have names : sender = 0 ∨ receiver = 0 := by
        by_contra neither
        exact zero (not_or.mp neither)
      change _ ↔ (sender = 0 ∨ receiver = 0 → _)
      rw [forall_prop_of_true names]
      exact s.send_failed_iff sender receiver bytes
  | sendCapability sender handle bytes =>
      obtain rfl : sender = 0 := not_not.mp zero
      exact iff_of_true (IpcState.sendCapability_zero coherent handle bytes) trivial
  | sendWithCapability sender destination transfer rights bytes =>
      obtain rfl : sender = 0 := not_not.mp zero
      exact iff_of_true (IpcState.sendWithCapability_zero coherent destination transfer rights bytes)
        trivial
  | receive receiver output =>
      obtain rfl : receiver = 0 := not_not.mp zero
      exact iff_of_true (IpcState.receive_zero coherent output) trivial
  | setWaiting taskId waiting =>
      obtain rfl : taskId = 0 := not_not.mp zero
      change (∃ error, (s.setWaiting 0 waiting).1 = .error error) ↔ (0 = 0 → s.find 0 = none)
      rw [forall_prop_of_true rfl]
      unfold IpcState.setWaiting
      cases s.find 0 with
      | none => exact iff_of_true ⟨_, rfl⟩ rfl
      | some i =>
          refine iff_of_false (fun failed => ?_) (fun none => by cases none)
          obtain ⟨error, failed⟩ := failed
          cases failed
  | selfCapability taskId =>
      obtain rfl : taskId = 0 := not_not.mp zero
      exact iff_of_true (IpcState.selfCapability_zero coherent) trivial
  | resolve owner handle required =>
      obtain rfl : owner = 0 := not_not.mp zero
      obtain ⟨error, s', eq⟩ := IpcState.resolve_zero coherent handle required
      exact iff_of_true ⟨error, congrArg Prod.fst eq⟩ trivial

theorem step_sound_of_guarded {s : IpcState} (sound : s.core.Sound) {op : Op}
    (guarded : op.Guarded s) : (step s op).core.Sound := by
  by_cases nonzero : op.NonZero
  · exact step_sound sound nonzero
  · have failed := (failed_iff_guarded sound.table.coherent nonzero).mpr guarded
    rw [step, (exec_refused sound.table.coherent failed).core]
    exact sound

theorem run_sound_of_guarded {s : IpcState} (sound : s.core.Sound) {ops : List Op}
    (guarded : AllGuarded s ops) : (run s ops).core.Sound := by
  induction ops generalizing s with
  | nil => exact sound
  | cons op ops ih => exact ih (step_sound_of_guarded sound guarded.1) guarded.2

/-- In every state that guarded operations lead to, an operation that names task
0 fails and leaves the endpoints alone exactly when it is guarded too. -/
theorem zero_names_nothing_iff {ops : List Op} (guarded : AllGuarded initial ops) :
    (∀ op : Op, ¬ op.NonZero →
      ((exec (run initial ops) op).2.Failed ∧
          (exec (run initial ops) op).1.endpoints = (run initial ops).endpoints ↔
        op.Guarded (run initial ops))) ∧
    ∀ slot, (run initial ops).capabilityInfo 0 slot = none ↔
      maxCapabilitiesPerEndpoint ≤ slot ∨ (run initial ops).find 0 = none := by
  have sound := run_sound_of_guarded initial_sound guarded
  refine ⟨fun op zero => ?_, IpcState.capabilityInfo_eq_none_iff _ 0⟩
  rw [← failed_iff_guarded sound.table.coherent zero]
  exact and_iff_left_of_imp fun failed => (exec_refused sound.table.coherent failed).endpoints

/-- A message to nobody is refused because it is too long. -/
theorem zero_names_nothing_iff_longMessage :
    (exec (run initial [.register 1]) (.send 1 0 (List.replicate 65 0))).2.Failed :=
  have guarded : AllGuarded initial [.register 1] := ⟨trivial, trivial⟩
  (((zero_names_nothing_iff guarded).1
    (.send 1 0 (List.replicate 65 0)) (by decide)).mpr fun _ sends =>
      absurd sends.2.1 (by decide)).1

/-- With a free endpoint, task 0 is granted a capability over itself, and the
invariants are gone. -/
theorem zero_is_granted :
    ¬ ((exec initial (.grant 0 0 CapabilityRights.send)).2.Failed ∧
        (exec initial (.grant 0 0 CapabilityRights.send)).1.endpoints = initial.endpoints) ∧
      initial.invariants = true ∧
      (exec initial (.grant 0 0 CapabilityRights.send)).1.invariants = false := by
  refine ⟨fun both => ?_, by decide +kernel, by decide +kernel⟩
  obtain ⟨⟨error, failed⟩, -⟩ := both
  have granted : (initial.grant 0 0 CapabilityRights.send).1.isOk = true := by decide +kernel
  rw [failed] at granted
  cases granted

end CloudOS.Ipc
