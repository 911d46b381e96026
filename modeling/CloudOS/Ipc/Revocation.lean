import CloudOS.Ipc.Generation

/-!
Revocation of capability trees: `revoke_branch`, its callers, and
`strip_queued_generation`.

`revoke_branch` recurses inside a `while` loop that re-scans the table it
mutates. `revokeBranch` and `revokeWhileChild` are that recursion with an
explicit bound, `none` meaning that the bound ran out. Every recursive call is
made on a capability that the scan has just found active, so it clears a slot:
`revokeBranch_terminates` turns that into a bound in the number of active
capabilities, and the functions below it are total.
-/

namespace CloudOS.Ipc

open Lib.Word (satAdd)
open Lib.RingBuffer (cell)

structure RevocationReport where
  revoked : Nat
  descendants : Nat
  queuedStripped : Nat
deriving DecidableEq, Repr

def RevocationReport.empty : RevocationReport := ⟨0, 0, 0⟩

def RevocationReport.merge (self other : RevocationReport) : RevocationReport where
  revoked := satAdd self.revoked other.revoked
  descendants := satAdd self.descendants other.descendants
  queuedStripped := satAdd self.queuedStripped other.queuedStripped

/-- A message with its capability attachment zeroed. -/
def Message.strip (message : Message) : Message :=
  { message with capabilityHandle := 0, capabilityRights := 0 }

/-- The body of the inner loop of `strip_queued_generation` at one offset. -/
def stripOffset (generation : Nat) (acc : Endpoint × Nat) (offset : Nat) : Endpoint × Nat :=
  let index := cell queueDepth (acc.1.head + offset)
  let message := acc.1.queue index
  match decodeHandle message.capabilityHandle with
  | none => acc
  | some (_, queuedGeneration) =>
      if queuedGeneration = generation then
        ({ acc.1 with queue := Function.update acc.1.queue index message.strip }, satAdd acc.2 1)
      else acc

/-- The inner loop of `strip_queued_generation` over one endpoint. -/
def stripEndpoint (generation : Nat) (endpoint : Endpoint) (stripped : Nat) : Endpoint × Nat :=
  (List.range endpoint.len).foldl (stripOffset generation) (endpoint, stripped)

namespace Endpoints

/-- The edited table and the number of stripped attachments. -/
@[irreducible] def stripQueuedGeneration (e : Endpoints) (generation : Nat) : Endpoints × Nat :=
  (List.finRange maxEndpoints).foldl (fun acc i =>
    let result := stripEndpoint generation (acc.1 i) acc.2
    (Function.update acc.1 i result.1, result.2)) (e, 0)

/-- The `'remove` loop of `revoke_branch`; `none` when nothing was removed. -/
def removeGeneration (e : Endpoints) (generation : Nat) : Option Endpoints :=
  (e.findPosition fun c => c.active && c.generation == generation).map
    fun p => e.setCapability p Capability.empty

mutual

/-- `revoke_branch`, within a bound. -/
def revokeBranch (bound : Nat) (e : Endpoints) (generation : Nat) (descendant : Bool)
    (report : RevocationReport) : Option (Endpoints × RevocationReport) :=
  match bound with
  | 0 => none
  | bound + 1 =>
      match e.removeGeneration generation with
      | none => some (e, report)
      | some removed =>
          let stripped := removed.stripQueuedGeneration generation
          revokeWhileChild bound stripped.1 generation
            { revoked := satAdd report.revoked 1
              descendants :=
                if descendant then satAdd report.descendants 1 else report.descendants
              queuedStripped := satAdd report.queuedStripped stripped.2 }

/-- `while let Some(child) = find_child_generation(generation)`, the loop of
`revoke_branch` and of `revoke_children`, within a bound. -/
def revokeWhileChild (bound : Nat) (e : Endpoints) (generation : Nat)
    (report : RevocationReport) : Option (Endpoints × RevocationReport) :=
  match bound with
  | 0 => none
  | bound + 1 =>
      match e.findChildGeneration generation with
      | none => some (e, report)
      | some child =>
          match revokeBranch bound e child true report with
          | none => none
          | some (e', report') => revokeWhileChild bound e' generation report'
end

/-! ### Slots after a write -/

/-- A capability write leaves every other field of every endpoint alone. -/
theorem setCapability_apply (e : Endpoints) (p : Position) (c : Capability)
    (i : Fin maxEndpoints) :
    e.setCapability p c i = { e i with
      capabilities := if i = p.1 then Function.update (e i).capabilities p.2 c
        else (e i).capabilities } := by
  by_cases same : i = p.1
  · subst same; simp [setCapability]
  · simp [setCapability, same]

theorem capability_setCapability (e : Endpoints) (p q : Position) (c : Capability) :
    (e.setCapability p c).capability q = if q = p then c else e.capability q := by
  obtain ⟨i, slot⟩ := p
  obtain ⟨j, slot'⟩ := q
  by_cases sameEndpoint : j = i
  · subst sameEndpoint
    simp [setCapability_apply, capability, Function.update_apply]
  · simp [setCapability_apply, capability, sameEndpoint]

/-! ### Stripping touches queues only -/

theorem stripOffset_capabilities (generation : Nat) (acc : Endpoint × Nat) (offset : Nat) :
    (stripOffset generation acc offset).1.capabilities = acc.1.capabilities := by
  unfold stripOffset
  dsimp only
  split
  · rfl
  · split <;> rfl

theorem stripEndpoint_capabilities (generation : Nat) (endpoint : Endpoint) (stripped : Nat) :
    (stripEndpoint generation endpoint stripped).1.capabilities = endpoint.capabilities := by
  unfold stripEndpoint
  generalize List.range endpoint.len = offsets
  induction offsets generalizing endpoint stripped with
  | nil => rfl
  | cons offset offsets ih =>
      rw [List.foldl_cons]
      exact (ih _ _).trans (stripOffset_capabilities generation (endpoint, stripped) offset)

theorem stripQueuedGeneration_capability (e : Endpoints) (generation : Nat) (q : Position) :
    (e.stripQueuedGeneration generation).1.capability q = e.capability q := by
  unfold stripQueuedGeneration
  generalize 0 = stripped
  generalize List.finRange maxEndpoints = indices
  induction indices generalizing e stripped with
  | nil => rfl
  | cons i indices ih =>
      rw [List.foldl_cons, ih]
      by_cases same : q.1 = i
      · subst same
        simp [capability, stripEndpoint_capabilities]
      · simp [capability, same]

/-! ### Termination -/

/-- The positions of the active capabilities. -/
def activePositions (e : Endpoints) : Finset Position :=
  Finset.univ.filter fun p => (e.capability p).active = true

/-- The number of active capabilities, which bounds every revocation. -/
@[irreducible] def activeCount (e : Endpoints) : Nat := e.activePositions.card

@[simp] theorem mem_activePositions {e : Endpoints} {p : Position} :
    p ∈ e.activePositions ↔ (e.capability p).active = true := by
  simp [activePositions]

theorem activeCount_pos {e : Endpoints} {p : Position} (active : (e.capability p).active = true) :
    0 < e.activeCount := by
  rw [activeCount]
  exact Finset.card_pos.mpr ⟨p, mem_activePositions.mpr active⟩

theorem stripQueuedGeneration_activeCount (e : Endpoints) (generation : Nat) :
    (e.stripQueuedGeneration generation).1.activeCount = e.activeCount := by
  unfold activeCount activePositions
  simp only [stripQueuedGeneration_capability]

/-- A generation that is removed was active. -/
theorem removeGeneration_activeCount {e e' : Endpoints} {generation : Nat}
    (removed : e.removeGeneration generation = some e') : e'.activeCount < e.activeCount := by
  obtain ⟨p, hp, rfl⟩ := Option.map_eq_some_iff.mp removed
  have active : (e.capability p).active = true := by
    have := findPosition_eq_some hp
    simp only [Bool.and_eq_true] at this
    exact this.1
  rw [activeCount, activeCount]
  apply Finset.card_lt_card
  refine ⟨fun q hq => ?_, fun sub => ?_⟩
  · simp only [mem_activePositions, capability_setCapability] at hq ⊢
    split at hq
    · cases hq
    · exact hq
  · have := sub (mem_activePositions.mpr active)
    simp [capability_setCapability, Capability.empty] at this

theorem removeGeneration_isSome {e : Endpoints} {q : Position}
    (active : (e.capability q).active = true) :
    (e.removeGeneration (e.capability q).generation).isSome = true := by
  cases found : e.removeGeneration (e.capability q).generation with
  | some e' => rfl
  | none =>
      have := findPosition_eq_none.mp (Option.map_eq_none_iff.mp found) q
      simp [active] at this

/-- With a bound of twice the active capabilities the recursion returns, and
no call gives the table more active capabilities than it had. The second part
covers the loop; the two are one induction on the bound because the functions
call each other. -/
theorem revokeBranch_terminates (bound : Nat) :
    (∀ e generation descendant report, 1 ≤ bound → 2 * e.activeCount ≤ bound →
      ∃ e' report', revokeBranch bound e generation descendant report = some (e', report') ∧
        e'.activeCount ≤ e.activeCount ∧
        ((e.removeGeneration generation).isSome → e'.activeCount < e.activeCount)) ∧
    (∀ e generation report, 2 * e.activeCount + 1 ≤ bound →
      ∃ e' report', revokeWhileChild bound e generation report = some (e', report') ∧
        e'.activeCount ≤ e.activeCount) := by
  induction bound with
  | zero => exact ⟨fun e _ _ _ h => by omega, fun e _ _ h => by omega⟩
  | succ bound ih =>
      obtain ⟨ihBranch, ihLoop⟩ := ih
      constructor
      · intro e generation descendant report _ enough
        rw [revokeBranch]
        cases found : e.removeGeneration generation with
        | none => exact ⟨e, report, rfl, le_rfl, by simp⟩
        | some removed =>
            have fewer := removeGeneration_activeCount found
            have kept := stripQueuedGeneration_activeCount removed generation
            obtain ⟨e', report', run, shrink⟩ :=
              ihLoop (removed.stripQueuedGeneration generation).1 generation _ (by omega)
            exact ⟨e', report', run, by omega, fun _ => by omega⟩
      · intro e generation report enough
        rw [revokeWhileChild]
        cases found : e.findChildGeneration generation with
        | none => exact ⟨e, report, rfl, le_rfl⟩
        | some child =>
            obtain ⟨q, active, -, rfl⟩ := findChildGeneration_eq_some found
            -- the scan saw the child active, so there is one slot fewer to go
            have occupied := activeCount_pos active
            obtain ⟨e₁, report₁, run₁, -, shrink₁⟩ :=
              ihBranch e (e.capability q).generation true report (by omega) (by omega)
            have fewer := shrink₁ (removeGeneration_isSome active)
            obtain ⟨e', report', run, shrink⟩ := ihLoop e₁ generation report₁ (by omega)
            refine ⟨e', report', ?_, by omega⟩
            simp only [run₁]
            exact run

theorem revokeBranch_isSome {e : Endpoints} {bound : Nat} (enough : 2 * e.activeCount + 1 ≤ bound)
    (generation : Nat) (descendant : Bool) (report : RevocationReport) :
    (revokeBranch bound e generation descendant report).isSome = true := by
  obtain ⟨e', report', run, -⟩ :=
    (revokeBranch_terminates bound).1 e generation descendant report (by omega) (by omega)
  simp [run]

theorem revokeWhileChild_isSome {e : Endpoints} {bound : Nat}
    (enough : 2 * e.activeCount + 1 ≤ bound) (generation : Nat) (report : RevocationReport) :
    (revokeWhileChild bound e generation report).isSome = true := by
  obtain ⟨e', report', run, -⟩ := (revokeBranch_terminates bound).2 e generation report enough
  simp [run]

/-- A larger bound changes nothing once the recursion has returned. -/
theorem revokeBranch_succ (bound : Nat) :
    (∀ {e : Endpoints} {generation : Nat} {descendant : Bool} {report : RevocationReport}
        {result : Endpoints × RevocationReport},
      revokeBranch bound e generation descendant report = some result →
      revokeBranch (bound + 1) e generation descendant report = some result) ∧
    (∀ {e : Endpoints} {generation : Nat} {report : RevocationReport}
        {result : Endpoints × RevocationReport},
      revokeWhileChild bound e generation report = some result →
      revokeWhileChild (bound + 1) e generation report = some result) := by
  induction bound with
  | zero =>
      constructor
      · intro e generation descendant report result run
        simp [revokeBranch] at run
      · intro e generation report result run
        simp [revokeWhileChild] at run
  | succ bound ih =>
      obtain ⟨ihBranch, ihLoop⟩ := ih
      constructor
      · intro e generation descendant report result run
        rw [revokeBranch] at run ⊢
        cases found : e.removeGeneration generation with
        | none =>
            rw [found] at run
            exact run
        | some removed =>
            rw [found] at run
            exact ihLoop run
      · intro e generation report result run
        rw [revokeWhileChild] at run ⊢
        cases found : e.findChildGeneration generation with
        | none =>
            rw [found] at run
            exact run
        | some child =>
            rw [found] at run
            cases branch : revokeBranch bound e child true report with
            | none => simp [branch] at run
            | some pair =>
                simp only [branch] at run
                simp only [ihBranch branch]
                exact ihLoop run

theorem revokeBranch_of_le {bound bound' : Nat} (le : bound ≤ bound') {e : Endpoints}
    {generation : Nat} {descendant : Bool} {report : RevocationReport}
    {result : Endpoints × RevocationReport}
    (run : revokeBranch bound e generation descendant report = some result) :
    revokeBranch bound' e generation descendant report = some result := by
  induction bound', le using Nat.le_induction with
  | base => exact run
  | succ bound' _ ih => exact (revokeBranch_succ bound').1 ih

theorem revokeWhileChild_of_le {bound bound' : Nat} (le : bound ≤ bound') {e : Endpoints}
    {generation : Nat} {report : RevocationReport} {result : Endpoints × RevocationReport}
    (run : revokeWhileChild bound e generation report = some result) :
    revokeWhileChild bound' e generation report = some result := by
  induction bound', le using Nat.le_induction with
  | base => exact run
  | succ bound' _ ih => exact (revokeBranch_succ bound').2 ih

/-! ### The callers -/

def revokeChildren (e : Endpoints) (generation : Nat) : Endpoints × RevocationReport :=
  (revokeWhileChild (2 * e.activeCount + 1) e generation .empty).get
    (revokeWhileChild_isSome le_rfl generation _)

def revokeGeneration (e : Endpoints) (generation : Nat) : Endpoints × RevocationReport :=
  (revokeBranch (2 * e.activeCount + 1) e generation false .empty).get
    (revokeBranch_isSome le_rfl generation false _)

/-- Revoking an active generation leaves fewer active ones. -/
theorem revokeGeneration_activeCount {e : Endpoints} {q : Position}
    (active : (e.capability q).active = true) :
    (e.revokeGeneration (e.capability q).generation).1.activeCount < e.activeCount := by
  obtain ⟨e', report', run, -, shrink⟩ :=
    (revokeBranch_terminates (2 * e.activeCount + 1)).1 e (e.capability q).generation false .empty
      (by omega) (by omega)
  have fewer := shrink (removeGeneration_isSome active)
  simp only [revokeGeneration, run, Option.get_some]
  exact fewer

/-- The two `while let` loops of `unregister`: revoke the generation that
`pick` finds until it finds none, merging the reports. -/
def revokeWhile (pick : Endpoints → Option Nat) (bound : Nat) (e : Endpoints)
    (report : RevocationReport) : Option (Endpoints × RevocationReport) :=
  match bound with
  | 0 => none
  | bound + 1 =>
      match pick e with
      | none => some (e, report)
      | some generation =>
          let revoked := e.revokeGeneration generation
          revokeWhile pick bound revoked.1 (report.merge revoked.2)

/-- A scan that only returns generations of active capabilities empties out. -/
theorem revokeWhile_isSome {pick : Endpoints → Option Nat}
    (sound : ∀ e generation, pick e = some generation →
      ∃ q, (e.capability q).active = true ∧ (e.capability q).generation = generation)
    {bound : Nat} {e : Endpoints} (enough : e.activeCount + 1 ≤ bound) (report : RevocationReport) :
    (revokeWhile pick bound e report).isSome = true := by
  induction bound generalizing e report with
  | zero => omega
  | succ bound ih =>
      rw [revokeWhile]
      cases found : pick e with
      | none => rfl
      | some generation =>
          obtain ⟨q, active, rfl⟩ := sound e generation found
          have fewer := revokeGeneration_activeCount active
          exact ih (by omega) _

/-- More fuel does not change what a loop that ends has done. -/
theorem revokeWhile_of_le {pick : Endpoints → Option Nat} {bound bound' : Nat}
    (le : bound ≤ bound') {e : Endpoints} {report : RevocationReport}
    {result : Endpoints × RevocationReport} (run : revokeWhile pick bound e report = some result) :
    revokeWhile pick bound' e report = some result := by
  induction bound generalizing bound' e report with
  | zero => simp [revokeWhile] at run
  | succ bound ih =>
      obtain ⟨bound', rfl⟩ : ∃ n, bound' = n + 1 := ⟨bound' - 1, by omega⟩
      rw [revokeWhile] at run ⊢
      cases found : pick e with
      | none =>
          rw [found] at run
          exact run
      | some generation =>
          rw [found] at run
          exact ih (Nat.le_of_succ_le_succ le) run

/-- `endpoints[index].capabilities.iter().find(active).map(generation)`. -/
def findHeldGeneration (index : Fin maxEndpoints) (e : Endpoints) : Option Nat :=
  (Fin.find? fun slot => ((e index).capabilities slot).active).map
    fun slot => ((e index).capabilities slot).generation

theorem findHeldGeneration_eq_some {index : Fin maxEndpoints} {e : Endpoints} {generation : Nat}
    (found : e.findHeldGeneration index = some generation) :
    ∃ slot, (e.capability (index, slot)).active = true ∧
      (e.capability (index, slot)).generation = generation := by
  obtain ⟨slot, hslot, rfl⟩ := Option.map_eq_some_iff.mp found
  exact ⟨slot, (Fin.find?_eq_some_iff.mp hslot).1, rfl⟩

theorem findHeldGeneration_eq_none {index : Fin maxEndpoints} {e : Endpoints} :
    e.findHeldGeneration index = none ↔ ∀ slot, (e.capability (index, slot)).active = false := by
  rw [findHeldGeneration, Option.map_eq_none_iff, Fin.find?_eq_none_iff]
  rfl

def revokeHeld (e : Endpoints) (index : Fin maxEndpoints) (report : RevocationReport) :
    Endpoints × RevocationReport :=
  (revokeWhile (findHeldGeneration index) (e.activeCount + 1) e report).get
    (revokeWhile_isSome (fun _ _ found =>
      let ⟨slot, active, generation⟩ := findHeldGeneration_eq_some found
      ⟨(index, slot), active, generation⟩) le_rfl report)

def revokeTargeting (e : Endpoints) (target : Nat) (report : RevocationReport) :
    Endpoints × RevocationReport :=
  (revokeWhile (·.findTargetGeneration target) (e.activeCount + 1) e report).get
    (revokeWhile_isSome (fun _ _ found =>
      let ⟨q, active, _, generation⟩ := findTargetGeneration_eq_some found
      ⟨q, active, generation⟩) le_rfl report)

end Endpoints

end CloudOS.Ipc
