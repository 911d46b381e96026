import CloudOS.Ipc.Cull
import CloudOS.Ipc.State

/-!
`IpcState::invariants` and what it says.

The Boolean checks are translated loop by loop. `Coherent` is the same
condition as a proposition, split along what the proofs need: `Lineages` is
about the capability forest alone, the remaining fields tie the forest to the
endpoint owners and the queued attachments. `invariants_iff` is the bridge.
-/

namespace CloudOS.Ipc

open Lib.Word (checkedAdd)
open Lib.RingBuffer (cell contents)

/-! ### The checks of the source -/

def endpointOwnersUnique (e : Endpoints) : Bool :=
  (List.finRange maxEndpoints).all fun left =>
    (e left).owner == 0 ||
      (List.finRange maxEndpoints).all fun right =>
        !decide (left < right) || (e right).owner != (e left).owner

/-- The body of the inner loop of `capability_tables_valid`. -/
def capabilityValid (e : Endpoints) (capability : Capability) : Bool :=
  if !capability.active then true
  else if capability.generation == 0 || !capability.rights.valid
      || decide (capability.lineageDepth > maxCapabilityLineageDepth)
      || !(List.finRange maxEndpoints).any (fun i => (e i).owner == capability.target) then
    false
  else if capability.parentGeneration = 0 then capability.lineageDepth == 0
  else
    match e.findCapabilityGeneration capability.parentGeneration with
    | none => false
    | some parent =>
        !(parent.generation == capability.generation || parent.target != capability.target
          || !parent.rights.contains CapabilityRights.delegate
          || !parent.rights.contains capability.rights
          || checkedAdd 255 parent.lineageDepth 1 != some capability.lineageDepth)

def selfCapabilityValid (endpoint : Endpoint) : Bool :=
  let selfCapability := endpoint.capabilities 0
  !(!selfCapability.active || selfCapability.target != endpoint.owner
    || selfCapability.generation == 0 || selfCapability.parentGeneration != 0
    || selfCapability.lineageDepth != 0
    || !selfCapability.rights.contains CapabilityRights.sendReceive)

def capabilityTablesValid (e : Endpoints) : Bool :=
  (List.finRange maxEndpoints).all fun i =>
    let slots := (List.finRange maxCapabilitiesPerEndpoint).map (e i).capabilities
    if (e i).owner = 0 then !slots.any (·.active)
    else selfCapabilityValid (e i) && slots.all (capabilityValid e)

/-- The two scans start the right index after the left one, slot by slot. -/
def capabilityGenerationsUnique (e : Endpoints) : Bool :=
  (List.finRange maxEndpoints).all fun leftEndpoint =>
    (List.finRange maxCapabilitiesPerEndpoint).all fun leftSlot =>
      let left := (e leftEndpoint).capabilities leftSlot
      !left.active ||
        (List.finRange maxEndpoints).all fun rightEndpoint =>
          (List.finRange maxCapabilitiesPerEndpoint).all fun rightSlot =>
            let right := (e rightEndpoint).capabilities rightSlot
            !(decide (leftEndpoint < rightEndpoint) ||
                (decide (rightEndpoint = leftEndpoint) && decide (leftSlot < rightSlot)))
              || !(right.active && right.generation == left.generation)

/-- The body of the inner loop of `queued_capabilities_valid`. -/
def attachmentValid (endpoint : Endpoint) (message : Message) : Bool :=
  if message.capabilityHandle = 0 then message.capabilityRights == 0
  else
    match decodeHandle message.capabilityHandle with
    | none => false
    | some (slot, generation) =>
        let capability := endpoint.capabilities slot
        !(!capability.active || capability.generation != generation
          || capability.rights.bits != message.capabilityRights)

def queuedCapabilitiesValid (e : Endpoints) : Bool :=
  (List.finRange maxEndpoints).all fun i =>
    (e i).owner == 0 ||
      (List.range (e i).len).all fun offset =>
        attachmentValid (e i) ((e i).queue (cell queueDepth ((e i).head + offset)))

def IpcState.invariants (s : IpcState) : Bool :=
  s.initialized
    && (List.finRange maxEndpoints).all (fun i =>
      decide ((s.endpoints i).len ≤ queueDepth) && decide ((s.endpoints i).head < queueDepth))
    && endpointOwnersUnique s.endpoints
    && capabilityGenerationsUnique s.endpoints
    && capabilityTablesValid s.endpoints
    && queuedCapabilitiesValid s.endpoints

/-! ### The condition as a proposition -/

/-- What an active capability satisfies on its own. -/
structure Capability.WellFormed (c : Capability) : Prop where
  generation : c.generation ≠ 0
  rights : c.rights.valid = true
  depth : c.lineageDepth ≤ maxCapabilityLineageDepth
  parentless : c.parentGeneration = 0 → c.lineageDepth = 0

/-- What links a derived capability to its parent. -/
structure Capability.DerivedFrom (c parent : Capability) : Prop where
  active : parent.active = true
  generation : parent.generation = c.parentGeneration
  target : parent.target = c.target
  delegate : parent.rights.contains CapabilityRights.delegate = true
  rights : parent.rights.contains c.rights = true
  depth : parent.lineageDepth + 1 = c.lineageDepth

/-- The root capability in slot 0 of an endpoint. -/
structure Endpoint.Rooted (endpoint : Endpoint) : Prop where
  active : (endpoint.capabilities 0).active = true
  target : (endpoint.capabilities 0).target = endpoint.owner
  parentless : (endpoint.capabilities 0).parentGeneration = 0
  rights : (endpoint.capabilities 0).rights.contains CapabilityRights.sendReceive = true

/-- A queued message has no attachment, or one that names an active capability
of the same endpoint with the same rights. -/
def Endpoint.Honours (endpoint : Endpoint) (message : Message) : Prop :=
  (message.capabilityHandle = 0 ∧ message.capabilityRights = 0) ∨
    ∃ slot, decodeHandle message.capabilityHandle =
        some (slot, (endpoint.capabilities slot).generation) ∧
      (endpoint.capabilities slot).active = true ∧
      (endpoint.capabilities slot).rights.bits = message.capabilityRights

namespace Endpoints

/-- The capability forest: generations identify capabilities, and every derived
one has its parent in the table. -/
structure Lineages (e : Endpoints) : Prop where
  unique : e.GenerationsUnique
  wellFormed : ∀ p, (e.capability p).active = true → (e.capability p).WellFormed
  derived : ∀ p, (e.capability p).active = true → (e.capability p).parentGeneration ≠ 0 →
    ∃ q, (e.capability p).DerivedFrom (e.capability q)

structure Coherent (e : Endpoints) : Prop extends Lineages e where
  bounds : ∀ i, (e i).len ≤ queueDepth ∧ (e i).head < queueDepth
  owners : ∀ i j, (e i).owner ≠ 0 → (e i).owner = (e j).owner → i = j
  vacant : ∀ p, (e p.1).owner = 0 → (e.capability p).active = false
  rooted : ∀ i, (e i).owner ≠ 0 → (e i).Rooted
  target : ∀ p, (e.capability p).active = true → ∃ i, (e i).owner = (e.capability p).target
  attachments : ∀ i, (e i).owner ≠ 0 → ∀ message ∈ (e i).messages, (e i).Honours message

theorem Coherent.owned {e : Endpoints} (coherent : e.Coherent) {p : Position}
    (active : (e.capability p).active = true) : (e p.1).owner ≠ 0 := by
  intro dead
  rw [coherent.vacant p dead] at active
  cases active

end Endpoints

/-! ### The bridge, check by check -/

/-- The nested loops compare every pair of endpoints. -/
theorem endpointOwnersUnique_iff {e : Endpoints} :
    endpointOwnersUnique e = true ↔
      ∀ i j, (e i).owner ≠ 0 → (e i).owner = (e j).owner → i = j := by
  simp only [endpointOwnersUnique, List.all_eq_true, List.mem_finRange, true_implies,
    Bool.or_eq_true, beq_iff_eq, Bool.not_eq_true', decide_eq_false_iff_not, bne_iff_ne]
  constructor
  · intro check i j live same
    rcases lt_trichotomy i j with less | rfl | greater
    · exact absurd same.symm (((check i).resolve_left live j).resolve_left (not_not.mpr less))
    · rfl
    · have live' : (e j).owner ≠ 0 := same ▸ live
      exact absurd same (((check j).resolve_left live' i).resolve_left (not_not.mpr greater))
  · intro unique i
    by_cases dead : (e i).owner = 0
    · exact Or.inl dead
    · refine Or.inr fun j => ?_
      by_cases less : i < j
      · exact Or.inr fun same => less.ne (unique i j dead same.symm)
      · exact Or.inl less

/-- The nested loops compare every pair of active capabilities. -/
theorem capabilityGenerationsUnique_iff {e : Endpoints} :
    capabilityGenerationsUnique e = true ↔ e.GenerationsUnique := by
  simp only [capabilityGenerationsUnique, List.all_eq_true, List.mem_finRange, true_implies,
    Bool.or_eq_true, Bool.not_eq_true', Bool.and_eq_false_iff, Bool.or_eq_false_iff,
    decide_eq_false_iff_not, beq_eq_false_iff_ne]
  constructor
  · intro check p q activeP activeQ same
    -- whichever position comes first in the scan, the other one is compared with it
    have ordered : ∀ p q : Position, (e.capability p).active = true →
        (e.capability q).active = true → (e.capability p).generation = (e.capability q).generation →
        ¬ (p.1 < q.1 ∨ (q.1 = p.1 ∧ p.2 < q.2)) := by
      intro p q activeP activeQ same before
      have inner := ((check p.1 p.2).resolve_left (by simpa [Endpoints.capability] using activeP))
        q.1 q.2
      rcases inner with notAfter | notSame
      · rcases before with less | ⟨sameEndpoint, less⟩
        · exact notAfter.1 less
        · rcases notAfter.2 with h | h
          · exact h sameEndpoint
          · exact h less
      · rcases notSame with inactive | different
        · rw [Endpoints.capability, inactive] at activeQ
          cases activeQ
        · exact different same.symm
    have pq := ordered p q activeP activeQ same
    have qp := ordered q p activeQ activeP same.symm
    push Not at pq qp
    have endpointEq : p.1 = q.1 := le_antisymm qp.1 pq.1
    exact Prod.ext endpointEq (le_antisymm (qp.2 endpointEq) (pq.2 endpointEq.symm))
  · intro unique i slot
    by_cases active : (e.capability (i, slot)).active = true
    · refine Or.inr fun j slot' => ?_
      by_cases match' : (e.capability (j, slot')).active = true ∧
          (e.capability (j, slot')).generation = (e.capability (i, slot)).generation
      · have same := unique (j, slot') (i, slot) match'.1 active match'.2
        obtain ⟨rfl, rfl⟩ := Prod.mk.inj same
        exact Or.inl ⟨lt_irrefl _, Or.inr (lt_irrefl _)⟩
      · rw [not_and_or] at match'
        exact Or.inr (match'.imp (by simp [Endpoints.capability]) id)
    · exact Or.inl (by simpa [Endpoints.capability] using active)

/-- An attachment is valid if the endpoint still honours it. -/
theorem attachmentValid_iff {endpoint : Endpoint} {message : Message} :
    attachmentValid endpoint message = true ↔ endpoint.Honours message := by
  unfold attachmentValid Endpoint.Honours
  by_cases bare : message.capabilityHandle = 0
  · simp [bare]
  · rw [if_neg bare]
    cases decoded : decodeHandle message.capabilityHandle with
    | none => simp [bare]
    | some pair =>
        obtain ⟨slot, generation⟩ := pair
        simp only [bare, false_and, false_or, Bool.not_eq_true', Bool.or_eq_false_iff,
          Bool.not_eq_false', bne_eq_false_iff_eq, Option.some.injEq, Prod.mk.injEq]
        constructor
        · rintro ⟨⟨active, same⟩, rights⟩
          exact ⟨slot, ⟨rfl, same.symm⟩, active, rights⟩
        · rintro ⟨slot', ⟨rfl, rfl⟩, active, rights⟩
          exact ⟨⟨active, rfl⟩, rights⟩

/-- The check looks at every queued message of a live endpoint. -/
theorem queuedCapabilitiesValid_iff {e : Endpoints} :
    queuedCapabilitiesValid e = true ↔
      ∀ i, (e i).owner ≠ 0 → ∀ message ∈ (e i).messages, (e i).Honours message := by
  simp only [queuedCapabilitiesValid, List.all_eq_true, List.mem_finRange, true_implies,
    Bool.or_eq_true, beq_iff_eq, List.mem_range, attachmentValid_iff, Endpoint.messages,
    Lib.RingBuffer.mem_contents]
  refine forall_congr' fun i => ?_
  rw [or_iff_not_imp_left]
  refine imp_congr_right fun _ => ?_
  constructor
  · rintro check message ⟨offset, below, rfl⟩
    exact check offset below
  · intro honoured offset below
    exact honoured _ ⟨offset, below, rfl⟩

theorem selfCapabilityValid_iff {endpoint : Endpoint}
    (wellFormed : (endpoint.capabilities 0).active = true → (endpoint.capabilities 0).WellFormed) :
    selfCapabilityValid endpoint = true ↔ endpoint.Rooted := by
  simp only [selfCapabilityValid, Bool.not_eq_true', Bool.or_eq_false_iff, Bool.not_eq_false',
    bne_eq_false_iff_eq, beq_eq_false_iff_ne]
  constructor
  · rintro ⟨⟨⟨⟨⟨active, target⟩, -⟩, parentless⟩, -⟩, rights⟩
    exact ⟨active, target, parentless, rights⟩
  · rintro ⟨active, target, parentless, rights⟩
    have formed := wellFormed active
    exact ⟨⟨⟨⟨⟨active, target⟩, formed.generation⟩, parentless⟩, formed.parentless parentless⟩,
      rights⟩

/-- The generation finds the parent that `DerivedFrom` speaks of. -/
theorem Capability.DerivedFrom.find {e : Endpoints} (unique : e.GenerationsUnique) {p q : Position}
    (derived : (e.capability p).DerivedFrom (e.capability q)) :
    e.findCapabilityGeneration (e.capability p).parentGeneration = some (e.capability q) := by
  cases found : e.findCapabilityGeneration (e.capability p).parentGeneration with
  | none =>
      exact absurd derived.generation
        (Endpoints.findCapabilityGeneration_eq_none.mp found q derived.active)
  | some c =>
      obtain ⟨r, rfl, active, generation⟩ := Endpoints.findCapabilityGeneration_eq_some found
      rw [unique r q active derived.active (generation.trans derived.generation.symm)]

/-- What the check asks of one capability. -/
theorem capabilityValid_iff {e : Endpoints} (unique : e.GenerationsUnique) {p : Position}
    (active : (e.capability p).active = true) :
    capabilityValid e (e.capability p) = true ↔
      (e.capability p).WellFormed ∧ (∃ i, (e i).owner = (e.capability p).target) ∧
        ((e.capability p).parentGeneration ≠ 0 →
          ∃ q, (e.capability p).DerivedFrom (e.capability q)) := by
  unfold capabilityValid
  rw [active, if_neg (by simp)]
  split
  · rename_i rejected
    simp only [Bool.or_eq_true, beq_iff_eq, Bool.not_eq_true', decide_eq_true_eq,
      List.any_eq_false, List.mem_finRange, true_implies] at rejected
    simp only [Bool.false_eq_true, false_iff]
    rintro ⟨formed, ⟨i, owner⟩, -⟩
    rcases rejected with ((zero | invalid) | deep) | missing
    · exact formed.generation zero
    · rw [formed.rights] at invalid
      cases invalid
    · exact absurd formed.depth (not_le.mpr deep)
    · exact missing i owner
  · rename_i accepted
    simp only [Bool.or_eq_true, beq_iff_eq, Bool.not_eq_true', decide_eq_true_eq, not_or,
      Bool.not_eq_false, not_lt, List.any_eq_true, List.mem_finRange, true_and] at accepted
    obtain ⟨⟨⟨generation, rights⟩, depth⟩, target⟩ := accepted
    split
    · rename_i parentless
      simp only [beq_iff_eq]
      constructor
      · intro zero
        exact ⟨⟨generation, rights, depth, fun _ => zero⟩, target, fun h => absurd parentless h⟩
      · rintro ⟨formed, -, -⟩
        exact formed.parentless parentless
    · rename_i hasParent
      constructor
      · intro check
        cases found : e.findCapabilityGeneration (e.capability p).parentGeneration with
        | none => simp [found] at check
        | some parent =>
            simp only [found, Bool.not_eq_true', Bool.or_eq_false_iff, beq_eq_false_iff_ne,
              bne_eq_false_iff_eq, Bool.not_eq_false', Lib.Word.checkedAdd_eq_some] at check
            obtain ⟨⟨⟨⟨-, sameTarget⟩, delegate⟩, contains⟩, deeper⟩ := check
            obtain ⟨q, rfl, activeParent, same⟩ :=
              Endpoints.findCapabilityGeneration_eq_some found
            exact ⟨⟨generation, rights, depth, fun h => absurd h hasParent⟩, target,
              fun _ => ⟨q, activeParent, same, sameTarget, delegate, contains, deeper.1⟩⟩
      · rintro ⟨-, -, derivation⟩
        obtain ⟨q, derived⟩ := derivation hasParent
        have apart : (e.capability q).generation ≠ (e.capability p).generation := by
          intro same
          have := derived.depth
          rw [unique q p derived.active active same] at this
          omega
        have deeper : checkedAdd 255 (e.capability q).lineageDepth 1 =
            some (e.capability p).lineageDepth :=
          Lib.Word.checkedAdd_eq_some.mpr ⟨derived.depth, depth.trans (by decide)⟩
        simp [derived.find unique, apart, derived.target, derived.delegate, derived.rights, deeper]

/-- What the check asks of all endpoints. -/
theorem capabilityTablesValid_iff {e : Endpoints} (unique : e.GenerationsUnique) :
    capabilityTablesValid e = true ↔
      (∀ p, (e p.1).owner = 0 → (e.capability p).active = false) ∧
      (∀ i, (e i).owner ≠ 0 → (e i).Rooted) ∧
      (∀ p, (e.capability p).active = true →
        (e.capability p).WellFormed ∧ (∃ i, (e i).owner = (e.capability p).target) ∧
        ((e.capability p).parentGeneration ≠ 0 →
          ∃ q, (e.capability p).DerivedFrom (e.capability q))) := by
  simp only [capabilityTablesValid, List.all_eq_true, List.mem_finRange, true_implies]
  constructor
  · intro check
    have vacant : ∀ p : Position, (e p.1).owner = 0 → (e.capability p).active = false := by
      intro p dead
      have row := check p.1
      rw [if_pos dead] at row
      simp only [Bool.not_eq_true', List.any_eq_false, List.mem_map, List.mem_finRange, true_and,
        forall_exists_index, forall_apply_eq_imp_iff, Bool.not_eq_true] at row
      exact row p.2
    have live : ∀ p : Position, (e p.1).owner ≠ 0 →
        selfCapabilityValid (e p.1) = true ∧ capabilityValid e (e.capability p) = true := by
      intro p live
      have row := check p.1
      rw [if_neg live] at row
      simp only [Bool.and_eq_true, List.all_eq_true, List.mem_map, List.mem_finRange, true_and,
        forall_exists_index, forall_apply_eq_imp_iff] at row
      exact ⟨row.1, row.2 p.2⟩
    have valid : ∀ p, (e.capability p).active = true →
        (e.capability p).WellFormed ∧ (∃ i, (e i).owner = (e.capability p).target) ∧
        ((e.capability p).parentGeneration ≠ 0 →
          ∃ q, (e.capability p).DerivedFrom (e.capability q)) := by
      intro p active
      have owned : (e p.1).owner ≠ 0 := by
        intro dead
        rw [vacant p dead] at active
        cases active
      exact (capabilityValid_iff unique active).mp (live p owned).2
    refine ⟨vacant, fun i owned => ?_, valid⟩
    exact (selfCapabilityValid_iff fun active => (valid (i, 0) active).1).mp (live (i, 0) owned).1
  · rintro ⟨vacant, rooted, valid⟩ i
    split
    · rename_i dead
      simp only [Bool.not_eq_true', List.any_eq_false, List.mem_map, List.mem_finRange, true_and,
        forall_exists_index, forall_apply_eq_imp_iff, Bool.not_eq_true]
      exact fun slot => vacant (i, slot) dead
    · rename_i owned
      simp only [Bool.and_eq_true, List.all_eq_true, List.mem_map, List.mem_finRange, true_and,
        forall_exists_index, forall_apply_eq_imp_iff]
      refine ⟨?_, fun slot => ?_⟩
      · exact (selfCapabilityValid_iff fun active => (valid (i, 0) active).1).mpr (rooted i owned)
      · change capabilityValid e (e.capability (i, slot)) = true
        by_cases active : (e.capability (i, slot)).active = true
        · exact (capabilityValid_iff unique active).mpr (valid _ active)
        · simp [capabilityValid, active]

/-- `invariants` holds exactly in the initialized states with a coherent table. -/
theorem invariants_iff {s : IpcState} :
    s.invariants = true ↔ s.initialized = true ∧ s.endpoints.Coherent := by
  simp only [IpcState.invariants, Bool.and_eq_true, List.all_eq_true, List.mem_finRange,
    true_implies, decide_eq_true_eq, endpointOwnersUnique_iff, capabilityGenerationsUnique_iff,
    queuedCapabilitiesValid_iff]
  constructor
  · rintro ⟨⟨⟨⟨⟨ready, bounds⟩, owners⟩, unique⟩, tables⟩, attachments⟩
    obtain ⟨vacant, rooted, valid⟩ := (capabilityTablesValid_iff unique).mp tables
    exact ⟨ready,
      { unique := unique
        wellFormed := fun p active => (valid p active).1
        derived := fun p active => (valid p active).2.2
        bounds := bounds
        owners := owners
        vacant := vacant
        rooted := rooted
        target := fun p active => (valid p active).2.1
        attachments := attachments }⟩
  · rintro ⟨ready, coherent⟩
    refine ⟨⟨⟨⟨⟨ready, coherent.bounds⟩, coherent.owners⟩, coherent.unique⟩, ?_⟩,
      coherent.attachments⟩
    refine (capabilityTablesValid_iff coherent.unique).mpr
      ⟨coherent.vacant, coherent.rooted, fun p active => ?_⟩
    exact ⟨coherent.wellFormed p active, coherent.target p active, coherent.derived p active⟩

end CloudOS.Ipc
