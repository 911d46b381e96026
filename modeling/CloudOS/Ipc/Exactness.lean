import CloudOS.Ipc.Change
import CloudOS.Ipc.Invariants

/-!
`revoke` and `unregister` remove exactly what they should.

`Link` follows `parent_generation` downward from one capability slot to
another, so the descendants of a slot are its transitive closure. `PrunedAt`
says that an endpoint is as it was in a given table, except that a given set of
slots is emptied and the attachments to them are zeroed. The two main results
say that the code prunes the descendants and nothing more.
-/

namespace CloudOS.Ipc

open Relation (TransGen ReflTransGen)
open Lib.Closure
open Lib.RingBuffer (cell)

namespace Endpoints

/-- Slot `q` holds an active capability derived from the one in slot `p`. -/
def Link (e : Endpoints) (p q : Position) : Prop :=
  (e.capability q).active = true ∧ (e.capability q).parentGeneration = (e.capability p).generation

/-- The active capabilities derived from the one in slot `p`, over any number of
transfers and in any endpoint. -/
def descendants (e : Endpoints) (p : Position) : Set Position := {q | TransGen e.Link p q}

/-- The message's attachment names a capability in one of the slots. -/
def Attached (e : Endpoints) (slots : Set Position) (message : Message) : Prop :=
  ∃ p ∈ slots, message.attachment = some (e.capability p).generation

open scoped Classical in
/-- The number of queued messages attached to one of the slots. -/
noncomputable def attachedCount (e : Endpoints) (slots : Set Position) : Nat :=
  ∑ i, (e i).messages.countP fun message => decide (e.Attached slots message)

open scoped Classical in
/-- `endpoint` is endpoint `i` of `e` with exactly the given slots emptied. Every
queued message keeps its place; its attachment is zeroed if it named one of
the slots. -/
structure PrunedAt (e : Endpoints) (removed : Set Position) (i : Fin maxEndpoints)
    (endpoint : Endpoint) : Prop where
  emptied : ∀ slot, (i, slot) ∈ removed → endpoint.capabilities slot = Capability.empty
  kept : ∀ slot, (i, slot) ∉ removed → endpoint.capabilities slot = e.capability (i, slot)
  owner : endpoint.owner = (e i).owner
  waiting : endpoint.waiting = (e i).waiting
  ring : endpoint.head = (e i).head ∧ endpoint.len = (e i).len
  messages : endpoint.messages = (e i).messages.map fun message =>
    if e.Attached removed message then
      { message with capabilityHandle := 0, capabilityRights := 0 }
    else message

/-- What `revoke` removes for a handle to slot `p`: the self capability in slot
0 survives its own revocation. -/
def revokedSlots (e : Endpoints) (p : Position) : Set Position :=
  if p.2 = 0 then e.descendants p else insert p (e.descendants p)

/-- What `unregister` removes: the capabilities held by the endpoint, those that
target the task, and the descendants of either. -/
def retiredSlots (e : Endpoints) (taskId : Nat) (index : Fin maxEndpoints) : Set Position :=
  {q | ∃ p, (e.capability p).active = true ∧
    (p.1 = index ∨ (e.capability p).target = taskId) ∧ (q = p ∨ q ∈ e.descendants p)}

/-! ### Generations and slots -/

/-- The slots whose capability a cull of `G` removes. -/
def culledSlots (e : Endpoints) (G : Finset Nat) : Finset Position :=
  e.activePositions.filter fun p => (e.capability p).generation ∈ G

theorem mem_culledSlots {e : Endpoints} {G : Finset Nat} {p : Position} :
    p ∈ e.culledSlots G ↔ (e.capability p).active = true ∧ (e.capability p).generation ∈ G := by
  simp [culledSlots]

/-- No two slots hold one generation, so slots are counted by generations. -/
theorem card_culledSlots {e : Endpoints} (unique : e.GenerationsUnique) {G : Finset Nat}
    (active : G ⊆ e.activeGenerations) : (e.culledSlots G).card = G.card := by
  have image : (e.culledSlots G).image (fun p => (e.capability p).generation) = G := by
    ext g
    simp only [Finset.mem_image, mem_culledSlots]
    constructor
    · rintro ⟨p, ⟨-, mem⟩, rfl⟩
      exact mem
    · intro mem
      obtain ⟨p, activeP, rfl⟩ := mem_activeGenerations.mp (active mem)
      exact ⟨p, ⟨activeP, mem⟩, rfl⟩
  conv_rhs => rw [← image]
  refine (Finset.card_image_of_injOn ?_).symm
  intro p hp q hq same
  exact unique p q (mem_culledSlots.mp hp).1 (mem_culledSlots.mp hq).1 same

theorem attached_culledSlots {e : Endpoints} {G : Finset Nat} (active : G ⊆ e.activeGenerations)
    {message : Message} : e.Attached (e.culledSlots G) message ↔ message.Names G := by
  constructor
  · rintro ⟨p, mem, named⟩
    exact ⟨_, (mem_culledSlots.mp mem).2, named⟩
  · rintro ⟨g, mem, named⟩
    obtain ⟨p, activeP, rfl⟩ := mem_activeGenerations.mp (active mem)
    exact ⟨p, mem_culledSlots.mpr ⟨activeP, mem⟩, named⟩

/-- What a cull leaves of an endpoint. -/
theorem prunedAt_cull {e : Endpoints} {G : Finset Nat} (active : G ⊆ e.activeGenerations)
    (i : Fin maxEndpoints) : e.PrunedAt (e.culledSlots G) i (e.cull G i) where
  emptied := by
    intro slot mem
    exact if_pos (mem_culledSlots.mp mem)
  kept := by
    intro slot outside
    exact if_neg (fun removed => outside (mem_culledSlots.mpr removed))
  owner := rfl
  waiting := rfl
  ring := ⟨rfl, rfl⟩
  messages := by
    rw [cull, Endpoint.messages_cull]
    refine List.map_congr_left fun message _ => ?_
    simp only [attached_culledSlots active]
    rfl

/-- As long as the ring is not overfull, its stripped cells are its stripped
messages. -/
theorem card_strippedCells {endpoint : Endpoint} (bound : endpoint.len ≤ queueDepth)
    (G : Finset Nat) :
    (endpoint.strippedCells G).card =
      endpoint.messages.countP fun message => decide (message.Names G) := by
  have image : endpoint.strippedCells G =
      ((Finset.range endpoint.len).filter fun offset =>
        (endpoint.queue (cell queueDepth (endpoint.head + offset))).Names G).image
        fun offset => cell queueDepth (endpoint.head + offset) := by
    ext k
    rw [Endpoint.strippedCells, Finset.mem_filter, Finset.mem_image]
    simp only [Finset.mem_univ, true_and, Finset.mem_filter, Finset.mem_range, Endpoint.Queued]
    constructor
    · rintro ⟨⟨offset, below, rfl⟩, named⟩
      exact ⟨offset, ⟨below, named⟩, rfl⟩
    · rintro ⟨offset, ⟨below, named⟩, rfl⟩
      exact ⟨⟨offset, below, rfl⟩, named⟩
  rw [image, Finset.card_image_of_injOn]
  · rw [Endpoint.messages, Lib.RingBuffer.contents, List.countP_map, List.countP_eq_length_filter]
    rfl
  · intro j hj k hk same
    simp only [Finset.coe_filter, Finset.mem_range, Set.mem_ofPred_eq] at hj hk
    exact (Lib.RingBuffer.cell_add_inj (hj.1.trans_le bound) (hk.1.trans_le bound)).mp same

theorem attachedCount_culledSlots {e : Endpoints} {G : Finset Nat}
    (active : G ⊆ e.activeGenerations) (bounds : ∀ i, (e i).len ≤ queueDepth) :
    e.attachedCount (e.culledSlots G) = e.strippedCount G := by
  unfold attachedCount strippedCount
  refine Finset.sum_congr rfl fun i _ => ?_
  rw [card_strippedCells (bounds i)]
  refine List.countP_congr fun message _ => ?_
  simp only [decide_eq_true_eq]
  exact attached_culledSlots active

/-! ### Descendants -/

/-- Links between slots are those between generations. -/
theorem transGen_link {e : Endpoints} (unique : e.GenerationsUnique) {p q : Position} :
    q ∈ e.descendants p ↔ (e.capability q).active = true ∧
      TransGen e.Child (e.capability p).generation (e.capability q).generation := by
  constructor
  · intro path
    induction path with
    | single link => exact ⟨link.1, .single ⟨_, link.1, link.2, rfl⟩⟩
    | tail _ link ih => exact ⟨link.1, ih.2.tail ⟨_, link.1, link.2, rfl⟩⟩
  · rintro ⟨active, path⟩
    generalize goal : (e.capability q).generation = g at path
    induction path generalizing q with
    | single child =>
        obtain ⟨r, activeR, parent, same⟩ := child
        rw [unique r q activeR active (same.trans goal.symm)] at parent
        exact .single ⟨active, parent⟩
    | tail path child ih =>
        obtain ⟨r, activeR, parent, same⟩ := child
        rw [unique r q activeR active (same.trans goal.symm)] at parent
        -- the last but one generation belongs to an active capability of its own
        obtain ⟨m, activeM, sameM⟩ : ∃ m, (e.capability m).active = true ∧
            (e.capability m).generation = _ := by
          rcases TransGen.tail'_iff.mp path with ⟨_, -, m, activeM, -, sameM⟩
          exact ⟨m, activeM, sameM⟩
        exact (ih activeM sameM).tail ⟨active, parent.trans sameM.symm⟩

/-- Below a capability are itself and its descendants. -/
theorem mem_below_singleton {e : Endpoints} (unique : e.GenerationsUnique) {p q : Position}
    (activeP : (e.capability p).active = true) :
    (e.capability q).active = true ∧
        ReflTransGen e.Child (e.capability p).generation (e.capability q).generation ↔
      q = p ∨ q ∈ e.descendants p := by
  rw [transGen_link unique, Relation.reflTransGen_iff_eq_or_transGen]
  constructor
  · rintro ⟨active, same | path⟩
    · exact Or.inl (unique q p active activeP same)
    · exact Or.inr ⟨active, path⟩
  · rintro (rfl | ⟨active, path⟩)
    · exact ⟨activeP, Or.inl rfl⟩
    · exact ⟨active, Or.inr path⟩

/-- A cascade from one capability empties its slot and its descendants' slots. -/
theorem Removes.culledSlots_branch {e : Endpoints} (unique : e.GenerationsUnique) {p : Position}
    (active : (e.capability p).active = true) {G : Finset Nat}
    (removes : e.Removes {(e.capability p).generation} G) :
    (e.culledSlots G : Set Position) = insert p (e.descendants p) := by
  have all := removes.eq_below (by
    rintro g rfl
    exact mem_activeGenerations.mpr ⟨p, active, rfl⟩)
  ext q
  rw [Finset.mem_coe, mem_culledSlots, ← Finset.mem_coe, all, Set.mem_insert_iff,
    ← mem_below_singleton unique active, mem_below]
  simp only [Set.mem_singleton_iff, exists_eq_left]

/-- A cascade from the children of a capability empties its descendants' slots. -/
theorem Removes.culledSlots_children {e : Endpoints} (unique : e.GenerationsUnique) {p : Position}
    {G : Finset Nat} (removes : e.Removes {b | e.Child (e.capability p).generation b} G) :
    (e.culledSlots G : Set Position) = e.descendants p := by
  have all := removes.eq_below fun g child => child.mem_activeGenerations
  ext q
  rw [Finset.mem_coe, mem_culledSlots, ← Finset.mem_coe, all, transGen_link unique,
    mem_below, TransGen.head'_iff]
  rfl

/-- What is left of a cull, once the slots it empties are known. -/
theorem Coherent.cull_exact {e : Endpoints} (coherent : e.Coherent) {roots : Set Nat}
    {G : Finset Nat} (removes : e.Removes roots G) {removed : Set Position}
    (slots : (e.culledSlots G : Set Position) = removed) :
    (∀ q ∈ removed, (e.capability q).active = true) ∧
      (∀ i, e.PrunedAt removed i (e.cull G i)) ∧
      removed.ncard = G.card ∧ e.attachedCount removed = e.strippedCount G := by
  rw [← slots]
  refine ⟨fun q mem => (mem_culledSlots.mp mem).1, prunedAt_cull removes.active, ?_, ?_⟩
  · rw [Set.ncard_coe_finset, card_culledSlots coherent.unique removes.active]
  · exact attachedCount_culledSlots removes.active fun i => (coherent.bounds i).1

/-- The descendants of a parentless capability do not include it. -/
theorem Lineages.not_mem_descendants {e : Endpoints} (lineages : e.Lineages) {p : Position}
    (parentless : (e.capability p).parentGeneration = 0)
    (active : (e.capability p).active = true) : p ∉ e.descendants p := by
  intro cycle
  have zero : ∀ q, (e.capability q).active = true → (e.capability q).generation ≠ 0 :=
    fun q activeQ => (lineages.wellFormed q activeQ).generation
  rcases TransGen.tail'_iff.mp cycle with ⟨q, path, link⟩
  rw [Link, parentless] at link
  rcases Relation.ReflTransGen.cases_tail path with same | ⟨r, -, link'⟩
  · rw [same] at link
    exact zero p active link.2.symm
  · exact zero q link'.1 link.2.symm

end Endpoints

/-! ### Revocation -/

@[simp] theorem IpcState.recordRevocation_endpoints (s : IpcState) (report : RevocationReport)
    (cleanup : Bool) : (s.recordRevocation report cleanup).endpoints = s.endpoints := by
  unfold IpcState.recordRevocation
  split <;> rfl

/-- A successful revocation, with the slot it was about. -/
theorem revoke_eq_ok {s s' : IpcState} {owner handle : Nat} {report : RevocationReport}
    (revoked : s.revoke owner handle = (.ok report, s')) :
    ∃ p : Position, s.find owner = some p.1 ∧
      decodeHandle handle = some (p.2, (s.endpoints.capability p).generation) ∧
      (s.endpoints.capability p).active = true ∧
      (s'.endpoints, report) =
        if p.2 = 0 then s.endpoints.revokeChildren (s.endpoints.capability p).generation
        else s.endpoints.revokeGeneration (s.endpoints.capability p).generation := by
  unfold IpcState.revoke at revoked
  cases found : s.find owner with
  | none => simp [found] at revoked
  | some index =>
      cases decoded : decodeHandle handle with
      | none => simp [found, decoded] at revoked
      | some pair =>
          obtain ⟨slot, generation⟩ := pair
          simp only [found, decoded] at revoked
          split at revoked
          · simp at revoked
          · rename_i current
            simp only [Bool.or_eq_true, Bool.not_eq_true', bne_iff_ne, ne_eq, not_or,
              Bool.not_eq_false, not_not] at current
            obtain ⟨active, rfl⟩ := current
            simp only [Prod.mk.injEq, Except.ok.injEq] at revoked
            obtain ⟨rfl, rfl⟩ := revoked
            refine ⟨(index, slot), rfl, rfl, active, ?_⟩
            rw [IpcState.recordRevocation_endpoints]
            rfl

/-- `revoke` is exact: it empties the slots below the handle's capability, its
own included unless it is the self capability, and nothing else; the report
counts what was removed; and every bound from `2 * activeCount + 1` on gives
the recursion enough room to return. -/
theorem revoke_exact {s s' : IpcState} {owner handle : Nat} {report : RevocationReport}
    (invariants : s.invariants = true)
    (revoked : s.revoke owner handle = (.ok report, s')) :
    ∃ p : Position, s.find owner = some p.1 ∧
      decodeHandle handle = some (p.2, (s.endpoints.capability p).generation) ∧
      (∀ q ∈ insert p (s.endpoints.revokedSlots p), (s.endpoints.capability q).active = true) ∧
      (p.2 = 0 → p ∉ s.endpoints.revokedSlots p) ∧
      (∀ i, s.endpoints.PrunedAt (s.endpoints.revokedSlots p) i (s'.endpoints i)) ∧
      report.revoked = (s.endpoints.revokedSlots p).ncard ∧
      report.descendants = (s.endpoints.revokedSlots p \ {p}).ncard ∧
      report.queuedStripped = s.endpoints.attachedCount (s.endpoints.revokedSlots p) ∧
      ∀ bound ≥ 2 * s.endpoints.activeCount + 1,
        (if p.2 = 0 then
          Endpoints.revokeWhileChild bound s.endpoints (s.endpoints.capability p).generation .empty
        else
          Endpoints.revokeBranch bound s.endpoints (s.endpoints.capability p).generation false
            .empty) = some (s'.endpoints, report) := by
  obtain ⟨-, coherent⟩ := invariants_iff.mp invariants
  have unique := coherent.unique
  obtain ⟨p, found, decoded, active, result⟩ := revoke_eq_ok revoked
  by_cases self : p.2 = 0
  · -- the self capability: its descendants go, it stays
    rw [if_pos self] at result
    obtain ⟨G, removes, eq⟩ := Endpoints.revokeChildren_spec unique
      (s.endpoints.capability p).generation
    obtain ⟨wasActive, pruned, revokedCount, strippedCount⟩ :=
      coherent.cull_exact removes (removes.culledSlots_children unique)
    have run : Endpoints.revokeWhileChild (2 * s.endpoints.activeCount + 1) s.endpoints
        (s.endpoints.capability p).generation .empty = some (s'.endpoints, report) := by
      rw [result]
      exact (Option.some_get _).symm
    rw [eq, Prod.mk.injEq] at result
    obtain ⟨table, rfl⟩ := result
    have here : p = (p.1, 0) := Prod.ext rfl self
    have survives : p ∉ s.endpoints.descendants p := by
      refine coherent.toLineages.not_mem_descendants ?_ active
      rw [here]
      exact (coherent.rooted p.1 (coherent.owned active)).parentless
    refine ⟨p, found, decoded, ?_⟩
    rw [Endpoints.revokedSlots, if_pos self, table]
    refine ⟨?_, fun _ => survives, pruned, revokedCount.symm, ?_, strippedCount.symm,
      fun bound enough => ?_⟩
    · rintro q (rfl | mem)
      · exact active
      · exact wasActive q mem
    · rw [Set.sdiff_singleton_eq_self survives, revokedCount]
    · rw [if_pos self, ← table]
      exact Endpoints.revokeWhileChild_of_le enough run
  · rw [if_neg self] at result
    obtain ⟨G, removes, eq⟩ := Endpoints.revokeGeneration_spec unique
      (s.endpoints.capability p).generation
    obtain ⟨wasActive, pruned, revokedCount, strippedCount⟩ :=
      coherent.cull_exact removes (removes.culledSlots_branch unique active)
    have run : Endpoints.revokeBranch (2 * s.endpoints.activeCount + 1) s.endpoints
        (s.endpoints.capability p).generation false .empty = some (s'.endpoints, report) := by
      rw [result]
      exact (Option.some_get _).symm
    rw [eq, Prod.mk.injEq] at result
    obtain ⟨table, rfl⟩ := result
    refine ⟨p, found, decoded, ?_⟩
    rw [Endpoints.revokedSlots, if_neg self, table, Set.insert_idem]
    refine ⟨wasActive, fun zero => absurd zero self, pruned, revokedCount.symm, ?_,
      strippedCount.symm, fun bound enough => ?_⟩
    · have root : (s.endpoints.capability p).generation ∈ G :=
        removes.roots_mem _ rfl (Endpoints.mem_activeGenerations.mpr ⟨p, active, rfl⟩)
      rw [Set.ncard_sdiff_singleton_of_mem (Set.mem_insert _ _), revokedCount]
      exact Finset.card_erase_of_mem root
    · rw [if_neg self, ← table]
      exact Endpoints.revokeBranch_of_le enough run

/-- Task 1 has passed a capability on itself to task 2, still queued there. -/
def delegated : IpcState :=
  run initial [.register 1, .register 2, .grant 1 2 ⟨9⟩, .sendWithCapability 1 770 257 ⟨9⟩ [7]]

theorem revoke_exact_delegated : delegated.invariants = true ∧
    ∃ p : Position, delegated.find 1 = some p.1 ∧
      (delegated.endpoints.revokedSlots p).ncard = 1 ∧
      delegated.endpoints.attachedCount (delegated.endpoints.revokedSlots p) = 1 := by
  have invariants : delegated.invariants = true := by decide +kernel
  have result : (delegated.revoke 1 257).1 = .ok ⟨1, 1, 1⟩ := by decide +kernel
  obtain ⟨p, found, -, -, -, -, revoked, -, stripped, -⟩ :=
    revoke_exact invariants (Prod.ext result rfl)
  exact ⟨invariants, p, found, revoked.symm, stripped.symm⟩

/-! ### Cleanup -/

theorem Endpoints.Removes.culledSlots_retired {e : Endpoints} (unique : e.GenerationsUnique)
    {taskId : Nat} {index : Fin maxEndpoints} {G : Finset Nat}
    (removes : e.Removes (e.retiring taskId index) G) :
    (e.culledSlots G : Set Position) = e.retiredSlots taskId index := by
  have all := removes.eq_below (by
    rintro g ⟨p, active, -, rfl⟩
    exact mem_activeGenerations.mpr ⟨p, active, rfl⟩)
  ext q
  rw [Finset.mem_coe, mem_culledSlots, ← Finset.mem_coe, all, mem_below]
  constructor
  · rintro ⟨activeQ, _, ⟨p, activeP, which, rfl⟩, path⟩
    exact ⟨p, activeP, which, (mem_below_singleton unique activeP).mp ⟨activeQ, path⟩⟩
  · rintro ⟨p, activeP, which, mem⟩
    obtain ⟨activeQ, path⟩ := (mem_below_singleton unique activeP).mpr mem
    exact ⟨activeQ, _, ⟨p, activeP, which, rfl⟩, path⟩

theorem Endpoints.Coherent.find {e : Endpoints} (coherent : e.Coherent) {taskId : Nat}
    {index : Fin maxEndpoints} (live : taskId ≠ 0) (owner : (e index).owner = taskId) :
    e.find taskId = some index := by
  cases found : e.find taskId with
  | none => exact absurd owner (Endpoints.find_eq_none.mp found index)
  | some i =>
      have owned := Endpoints.find_eq_some found
      rw [coherent.owners i index (owned ▸ live) (owned.trans owner.symm)]

/-- `unregister` of a live task is exact: it returns the length of the task's
queue, empties the slots that the task holds, those that target it and those
below either, and clears the endpoint. Both loops return within one more
iteration than there are active capabilities. -/
theorem unregister_exact {s : IpcState} (invariants : s.invariants = true) {taskId : Nat}
    {index : Fin maxEndpoints} (live : taskId ≠ 0)
    (owner : (s.endpoints index).owner = taskId) :
    ∃ s', s.unregister taskId = (.ok (s.endpoints index).len, s') ∧
      s'.endpoints index = Endpoint.empty ∧
      (∀ q ∈ s.endpoints.retiredSlots taskId index, (s.endpoints.capability q).active = true) ∧
      (∀ i, i ≠ index →
        s.endpoints.PrunedAt (s.endpoints.retiredSlots taskId index) i (s'.endpoints i)) ∧
      ∃ held heldReport targeting targetingReport,
        (∀ bound ≥ s.endpoints.activeCount + 1,
          Endpoints.revokeWhile (Endpoints.findHeldGeneration index) bound s.endpoints .empty =
            some (held, heldReport)) ∧
        (∀ bound ≥ held.activeCount + 1,
          Endpoints.revokeWhile (·.findTargetGeneration taskId) bound held heldReport =
            some (targeting, targetingReport)) ∧
        s'.endpoints = Function.update targeting index Endpoint.empty := by
  obtain ⟨-, coherent⟩ := invariants_iff.mp invariants
  have found : s.find taskId = some index := coherent.find live owner
  obtain ⟨G, removes, table⟩ := Endpoints.retire_spec coherent.unique taskId index
  obtain ⟨wasActive, pruned, -, -⟩ :=
    coherent.cull_exact removes (removes.culledSlots_retired coherent.unique)
  have heldRun : Endpoints.revokeWhile (Endpoints.findHeldGeneration index)
      (s.endpoints.activeCount + 1) s.endpoints .empty =
        some (s.endpoints.revokeHeld index .empty) := (Option.some_get _).symm
  unfold IpcState.unregister
  rw [found]
  cases heldEq : s.endpoints.revokeHeld index .empty with
  | mk held heldReport =>
      have targetingRun : Endpoints.revokeWhile (·.findTargetGeneration taskId)
          (held.activeCount + 1) held heldReport =
            some (held.revokeTargeting taskId heldReport) := (Option.some_get _).symm
      rw [heldEq] at heldRun table
      cases targetingEq : held.revokeTargeting taskId heldReport with
      | mk targeting targetingReport =>
          rw [targetingEq] at targetingRun table
          simp only [heldEq, targetingEq]
          refine ⟨_, rfl, ?_, wasActive, fun i other => ?_, held, heldReport, targeting,
            targetingReport, fun bound enough => Endpoints.revokeWhile_of_le enough heldRun,
            fun bound enough => Endpoints.revokeWhile_of_le enough targetingRun, ?_⟩
          · rw [IpcState.recordRevocation_endpoints]
            exact Function.update_self ..
          · have unchanged := pruned i
            rw [← table] at unchanged
            rw [IpcState.recordRevocation_endpoints]
            dsimp only
            rwa [Function.update_of_ne other]
          · rw [IpcState.recordRevocation_endpoints]

theorem unregister_exact_delegated : delegated.invariants = true ∧
    (delegated.endpoints 1).owner = 2 ∧
    ∃ s', delegated.unregister 2 = (.ok (delegated.endpoints 1).len, s') ∧
      s'.endpoints 1 = Endpoint.empty := by
  have invariants : delegated.invariants = true := by decide +kernel
  have owner : (delegated.endpoints 1).owner = 2 := by decide +kernel
  obtain ⟨s', unregistered, emptied, -⟩ := unregister_exact invariants (by decide) owner
  exact ⟨invariants, owner, s', unregistered, emptied⟩

end CloudOS.Ipc
