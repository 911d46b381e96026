import CloudOS.Ipc.Coherence
import CloudOS.Ipc.Exactness

/-!
Delegation does not amplify authority.

A run of user operations adds capabilities only by transfer, and every
transferred capability points to its source. `Survives` says that a capability
was active at the start and stayed in its slot ever since, so a capability
that is revoked and later made again is not counted as the old one. Following
the parent links of a capability upward therefore ends at a survivor.
-/

namespace CloudOS.Ipc

open Relation (TransGen)

/-- The operations that a task can request for itself. -/
def Op.User : Op → Prop
  | sendCapability .. | sendWithCapability .. | receive .. | revoke .. | selfCapability ..
  | resolve .. => True
  | register .. | unregister .. | grant .. | send .. | setWaiting .. => False

instance : DecidablePred Op.User
  | .sendCapability .. | .sendWithCapability .. | .receive .. | .revoke .. | .selfCapability ..
  | .resolve .. => isTrue trivial
  | .register .. | .unregister .. | .grant .. | .send .. | .setWaiting .. => isFalse id

/-- The capability in slot `q` was active at the start and has stayed as it was. -/
def Survives (s : IpcState) (ops : List Op) (q : Position) : Prop :=
  (s.endpoints.capability q).active = true ∧
    ∀ before, before <+: ops → (run s before).endpoints.capability q = s.endpoints.capability q

/-- How a slot came to hold `c`: by a transfer whose sender held a source with
the delegate right and a send capability to the task that owns the slot. -/
def Gained (s : IpcState) (op : Op) (p : Position) (c : Capability) : Prop :=
  ∃ sender destinationHandle transferHandle rights bytes source destination,
    op = .sendWithCapability sender destinationHandle transferHandle rights bytes ∧
    (s.endpoints (Prod.fst source)).owner = sender ∧
    (s.endpoints.capability source).active = true ∧
    (s.endpoints.capability source).rights.contains CapabilityRights.delegate = true ∧
    c.DerivedFrom (s.endpoints.capability source) ∧
    (s.endpoints (Prod.fst destination)).owner = sender ∧
    (s.endpoints.capability destination).active = true ∧
    (s.endpoints.capability destination).rights.contains CapabilityRights.send = true ∧
    (s.endpoints.capability destination).target = (s.endpoints p.1).owner

/-! ### One step -/

/-- A transfer gives the receiver a derived capability with rights that the sender's had. -/
theorem TransferChecks.gained {s : IpcState} {sender destinationHandle transferHandle receiver : Nat}
    {rights : CapabilityRights} {source : Capability} {index : Fin maxEndpoints}
    {slot : Fin maxCapabilitiesPerEndpoint}
    (checks : TransferChecks s sender destinationHandle transferHandle receiver rights source
      index slot) (bytes : List UInt8) (generation : Nat) :
    Gained s (.sendWithCapability sender destinationHandle transferHandle rights bytes)
      (index, slot) (derivedCapability source generation rights) := by
  obtain ⟨p, ownsSource, rfl⟩ := checks.held.position
  obtain ⟨capability, aimed, toReceiver⟩ := checks.destination
  obtain ⟨q, ownsDestination, rfl⟩ := toReceiver.position
  have owner : (s.endpoints index).owner = receiver := Endpoints.find_eq_some checks.found
  exact ⟨sender, destinationHandle, transferHandle, rights, bytes, p, q, rfl, ownsSource,
    checks.held.active, checks.held.rights,
    ⟨checks.held.active, rfl, rfl, checks.held.rights, checks.attenuated, rfl⟩,
    ownsDestination, toReceiver.active, toReceiver.rights, aimed.trans owner.symm⟩

/-- A user operation keeps the capability forest, and whatever it leaves active
was there before or is a capability gained by transfer. -/
theorem Change.user {s : IpcState} {op : Op} {event : Option Event} {core : Core}
    (change : Change s op event core) (user : op.User) (lineages : s.endpoints.Lineages) :
    core.endpoints.Lineages ∧
      ∀ p, (core.endpoints.capability p).active = true →
        core.endpoints.capability p = s.endpoints.capability p ∨
          Gained s op p (core.endpoints.capability p) := by
  cases change with
  | quiet => exact ⟨lineages, fun p _ => Or.inl rfl⟩
  | register isOp => subst isOp; cases user
  | grant isOp => subst isOp; cases user
  | cull removes _ =>
      exact ⟨lineages.cull removes.closed,
        fun p active => Or.inl (Endpoints.capability_cull_of_active active)⟩
  | retire isOp => subst isOp; cases user
  | @deliver sender receiver bytes index isOp short found space =>
      exact ⟨lineages.requeue rfl, fun p _ => Or.inl (Endpoints.capability_deliver ..)⟩
  | @transfer sender destination transfer receiver rights bytes source index slot installed
      generation next isOp short checks allocated installs =>
      obtain ⟨unused, positive, -, -, -⟩ := allocate_spec s.endpoints s.nextCapabilityGeneration
      rw [allocated] at unused positive
      obtain ⟨p, -, sourceEq⟩ := checks.held.position
      have sourceActive := checks.held.active
      have formed := lineages.wellFormed p (by rwa [sourceEq])
      rw [sourceEq] at formed
      have grown : installed.Lineages := by
        rw [installs]
        refine lineages.install (Endpoints.freeSlot_eq_some checks.free) unused ?_ ?_
        · exact ⟨Nat.ne_of_gt positive, checks.valid, checks.depth,
            fun orphan => absurd orphan formed.generation⟩
        · refine fun _ => ⟨p, ?_⟩
          rw [sourceEq]
          exact ⟨sourceActive, rfl, rfl, checks.held.rights, checks.attenuated, rfl⟩
      refine ⟨grown.requeue rfl, fun q active => ?_⟩
      dsimp only
      rw [Endpoints.capability_deliver, installs, Endpoints.capability_setCapability]
      split
      · rename_i here
        rw [here, isOp]
        exact Or.inr (checks.gained bytes generation)
      · exact Or.inl rfl
  | @pop receiver output index message popped isOp found first room =>
      have capabilities := Endpoint.pop_capabilities first
      exact ⟨lineages.requeue capabilities,
        fun p _ => Or.inl (Endpoints.capability_requeue capabilities p)⟩
  | waiting isOp => subst isOp; cases user

/-! ### Runs -/

theorem run_append (s : IpcState) (before after : List Op) :
    run s (before ++ after) = run (run s before) after := List.foldl_append ..

theorem run_user_lineages {s : IpcState} (lineages : s.endpoints.Lineages) {ops : List Op}
    (user : ∀ op ∈ ops, op.User) : (run s ops).endpoints.Lineages := by
  induction ops generalizing s with
  | nil => exact lineages
  | cons op ops ih =>
      rw [List.forall_mem_cons] at user
      exact ih ((exec_change s lineages.unique op).user user.1 lineages).1 user.2

theorem Survives.snoc {s : IpcState} {ops : List Op} {op : Op} {q : Position}
    (survives : Survives s ops q)
    (same : (run s (ops ++ [op])).endpoints.capability q = (run s ops).endpoints.capability q) :
    Survives s (ops ++ [op]) q := by
  refine ⟨survives.1, fun before earlier => ?_⟩
  rcases List.prefix_concat_iff.mp earlier with rfl | earlier
  · exact same.trans (survives.2 ops List.prefix_rfl)
  · exact survives.2 before earlier

/-- Only a survivor can be parentless: a transfer always records its source. -/
theorem survives_of_parentless {s : IpcState} (lineages : s.endpoints.Lineages) {ops : List Op}
    (user : ∀ op ∈ ops, op.User) {p : Position}
    (active : ((run s ops).endpoints.capability p).active = true)
    (parentless : ((run s ops).endpoints.capability p).parentGeneration = 0) :
    Survives s ops p := by
  induction ops using List.reverseRecOn with
  | nil =>
      refine ⟨active, fun before earlier => ?_⟩
      rw [List.prefix_nil.mp earlier]
      rfl
  | append_singleton ops op ih =>
      have userBefore : ∀ op ∈ ops, op.User := fun op mem => user op (List.mem_append_left _ mem)
      have lineagesBefore := run_user_lineages lineages userBefore
      have last : run s (ops ++ [op]) = step (run s ops) op := run_append s ops [op]
      have change := (exec_change (run s ops) lineagesBefore.unique op).user
        (user op (by simp)) lineagesBefore
      rcases change.2 p (by rw [last] at active; exact active) with same | gained
      · have unchanged : (run s (ops ++ [op])).endpoints.capability p =
            (run s ops).endpoints.capability p := by rw [last]; exact same
        rw [unchanged] at active parentless
        exact (ih userBefore active parentless).snoc unchanged
      · obtain ⟨_, _, _, _, _, source, _, -, -, sourceActive, -, derived, -⟩ := gained
        rw [last] at parentless
        exact absurd (derived.generation.trans parentless)
          (lineagesBefore.wellFormed source sourceActive).generation

/-- Where a capability's authority comes from: a survivor with the same target
and at least its rights, which may delegate if the capability is new. -/
def Inherited (s : IpcState) (ops : List Op) (p : Position) : Prop :=
  ∃ q, Survives s ops q ∧
    (p = q ∨ p ∈ (run s ops).endpoints.descendants q) ∧
    (s.endpoints.capability q).target = ((run s ops).endpoints.capability p).target ∧
    (s.endpoints.capability q).rights.contains
      ((run s ops).endpoints.capability p).rights = true ∧
    (¬ Survives s ops p →
      (s.endpoints.capability q).rights.contains CapabilityRights.delegate = true)

theorem Survives.same {s : IpcState} {ops : List Op} {q : Position}
    (survives : Survives s ops q) :
    (run s ops).endpoints.capability q = s.endpoints.capability q :=
  survives.2 ops List.prefix_rfl

theorem Survives.inherited {s : IpcState} {ops : List Op} {p : Position}
    (survives : Survives s ops p) : Inherited s ops p := by
  refine ⟨p, survives, Or.inl rfl, ?_, ?_, fun new => absurd survives new⟩
  · rw [survives.same]
  · rw [survives.same]
    exact CapabilityRights.contains_self _

/-- Every capability active after a run of user operations inherits its
authority from a survivor, by induction on its lineage depth. -/
theorem inherited_of_active {s : IpcState} (lineages : s.endpoints.Lineages) {ops : List Op}
    (user : ∀ op ∈ ops, op.User) (depth : Nat) {p : Position}
    (active : ((run s ops).endpoints.capability p).active = true)
    (atDepth : ((run s ops).endpoints.capability p).lineageDepth = depth) :
    Inherited s ops p := by
  have final := run_user_lineages lineages user
  induction depth generalizing p with
  | zero =>
      refine (survives_of_parentless lineages user active ?_).inherited
      by_contra hasParent
      obtain ⟨q, derived⟩ := final.derived p active hasParent
      have := derived.depth
      omega
  | succ depth ih =>
      by_cases old : Survives s ops p
      · exact old.inherited
      · have hasParent : ((run s ops).endpoints.capability p).parentGeneration ≠ 0 :=
          fun parentless => old (survives_of_parentless lineages user active parentless)
        obtain ⟨parent, derived⟩ := final.derived p active hasParent
        have link : (run s ops).endpoints.Link parent p := ⟨active, derived.generation.symm⟩
        by_cases oldParent : Survives s ops parent
        · -- the parent is the survivor, and deriving from it took the delegate right
          have target := derived.target
          have delegate := derived.delegate
          have rights := derived.rights
          rw [oldParent.same] at target delegate rights
          exact ⟨parent, oldParent, Or.inr (.single link), target, rights, fun _ => delegate⟩
        · have shallower : ((run s ops).endpoints.capability parent).lineageDepth = depth := by
            have := derived.depth
            omega
          obtain ⟨q, survivor, descends, target, rights, delegate⟩ := ih derived.active shallower
          refine ⟨q, survivor, Or.inr ?_, target.trans derived.target,
            CapabilityRights.contains_trans rights derived.rights, fun _ => delegate oldParent⟩
          rcases descends with rfl | path
          · exact .single link
          · exact TransGen.tail path link

/-- No authority amplification. From any state that passes `invariants`, a run of
user operations leaves only capabilities inherited from survivors, and a slot
gains a capability only in a transfer by a sender that held a delegable source
and a send capability to the gaining task. In every state reachable from
`init`, a capability with the receive right is held by its target. -/
theorem no_amplification :
    (∀ (s : IpcState) (ops : List Op), s.invariants = true → (∀ op ∈ ops, op.User) →
      (∀ p, ((run s ops).endpoints.capability p).active = true → Inherited s ops p) ∧
      (∀ before op after, ops = before ++ op :: after →
        ∀ p, ((run s (before ++ [op])).endpoints.capability p).active = true →
          (run s (before ++ [op])).endpoints.capability p ≠
            (run s before).endpoints.capability p →
          Gained (run s before) op p ((run s (before ++ [op])).endpoints.capability p))) ∧
    (∀ ops : List Op, (∀ op ∈ ops, op.NonZero) →
      ∀ p, ((run initial ops).endpoints.capability p).active = true →
        ((run initial ops).endpoints.capability p).rights.contains
          CapabilityRights.receive = true →
        ((run initial ops).endpoints.capability p).target =
          ((run initial ops).endpoints p.1).owner) := by
  refine ⟨fun s ops invariants user => ?_, fun ops nonzero p active receives => ?_⟩
  · have lineages := (invariants_iff.mp invariants).2.toLineages
    refine ⟨fun p active => inherited_of_active lineages user _ active rfl, ?_⟩
    rintro before op after rfl p active new
    have userBefore : ∀ op ∈ before, op.User := fun op mem => user op (by simp [mem])
    have lineagesBefore := run_user_lineages lineages userBefore
    have change := (exec_change (run s before) lineagesBefore.unique op).user
      (user op (by simp)) lineagesBefore
    rw [run_append] at active new ⊢
    exact (change.2 p active).resolve_left new
  · have sound := (run_sound initial_sound nonzero).table
    exact (sound.endpoint p.1).receive p.2 active receives

/-- Task 2 takes the capability on task 1 out of its queue and copies it. -/
def copyRun : List Op := [.receive 2 [0], .sendWithCapability 2 513 1026 ⟨9⟩ []]

theorem no_amplification_copyRun : Inherited delegated copyRun (1, 2) ∧
    Gained (run delegated [.receive 2 [0]]) (.sendWithCapability 2 513 1026 ⟨9⟩ []) (1, 2)
      ((run delegated copyRun).endpoints.capability (1, 2)) := by
  have result := no_amplification.1 delegated copyRun (by decide +kernel) (by decide)
  refine ⟨result.1 (1, 2) (by decide +kernel), ?_⟩
  exact result.2 [.receive 2 [0]] _ [] rfl (1, 2) (by decide +kernel) (by decide +kernel)

end CloudOS.Ipc
