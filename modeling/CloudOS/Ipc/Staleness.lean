import CloudOS.Ipc.Authority

/-!
A handle that has gone stale stays stale.

As long as the generation counter has not wrapped, every active generation lies
below it, so the allocator hands out `1, 2, 3, …` (`run_allocations`). A
generation below the counter can then only leave the table, never enter it
again, whatever happens to the slots and endpoints it once lived in.
-/

namespace CloudOS.Ipc

/-- The slot holds an active capability of the generation. -/
def Endpoints.Holds (e : Endpoints) (p : Position) (g : Nat) : Prop :=
  (e.capability p).active = true ∧ (e.capability p).generation = g

/-- The generation that `allocate_generation` returns while `op` is performed.
Nothing else writes the counter, and it moves at every allocation. -/
def allocated (s : IpcState) (op : Op) : Option Nat :=
  if (step s op).nextCapabilityGeneration = s.nextCapabilityGeneration then none
  else some (step s op).lastCapabilityGeneration

/-- The generations allocated along a run, in order. -/
def allocations (s : IpcState) : List Op → List Nat
  | [] => []
  | op :: ops => (allocated s op).toList ++ allocations (step s op) ops

theorem allocations_append (s : IpcState) (before after : List Op) :
    allocations s (before ++ after) =
      allocations s before ++ allocations (run s before) after := by
  induction before generalizing s with
  | nil => rfl
  | cons op before ih =>
      rw [List.cons_append, allocations, allocations, ih, List.append_assoc]
      rfl

/-! ### One step -/

/-- Every active generation lies below the counter. -/
def IpcState.Below (s : IpcState) : Prop :=
  1 ≤ s.nextCapabilityGeneration ∧
    ∀ p, (s.endpoints.capability p).active = true →
      (s.endpoints.capability p).generation < s.nextCapabilityGeneration

/-- What an operation does to the counter and to the generations in the table:
nothing is allocated and none appears, or the counter value itself is
allocated and appears. -/
theorem Change.generations {s : IpcState} {op : Op} {event : Option Event} {core : Core}
    (change : Change s op event core) (below : s.Below) :
    (core.nextGeneration = s.nextCapabilityGeneration ∧
      ∀ q g, core.endpoints.Holds q g → s.endpoints.Holds q g) ∨
    (core.nextGeneration = advance s.nextCapabilityGeneration ∧
      core.lastGeneration = s.nextCapabilityGeneration ∧
      ∀ q g, core.endpoints.Holds q g →
        s.endpoints.Holds q g ∨ g = s.nextCapabilityGeneration) := by
  obtain ⟨positive, below⟩ := below
  -- an installed capability is the only one that the table did not hold before
  have install : ∀ {e : Endpoints} {p : Position} {c : Capability},
      (∀ q g, e.Holds q g → s.endpoints.Holds q g) → c.generation = s.nextCapabilityGeneration →
      ∀ q g, (e.setCapability p c).Holds q g →
        s.endpoints.Holds q g ∨ g = s.nextCapabilityGeneration := by
    intro e p c old generation q g holds
    rw [Endpoints.Holds, Endpoints.capability_setCapability] at holds
    split at holds
    · exact Or.inr (holds.2.symm.trans generation)
    · exact Or.inl (old q g holds)
  cases change with
  | quiet => exact Or.inl ⟨rfl, fun _ _ => id⟩
  | @register taskId index cleared generation next isOp nonzeroTask fresh free clears eq =>
      have old : ∀ q g, cleared.Holds q g → s.endpoints.Holds q g := by
        rintro q g ⟨active, same⟩
        rw [clears, Endpoints.capability_update] at active same
        split at active
        · cases active
        · rename_i elsewhere
          rw [if_neg elsewhere] at same
          exact ⟨active, same⟩
      rw [allocate_of_below positive fun q active =>
        lt_of_eq_of_lt (old q _ ⟨active, rfl⟩).2.symm (below q (old q _ ⟨active, rfl⟩).1),
        Prod.mk.injEq] at eq
      obtain ⟨rfl, rfl⟩ := eq
      exact Or.inr ⟨rfl, rfl, install old rfl⟩
  | @grant owner target rights index slot generation next isOp valid receive targetLive found free
      eq =>
      rw [allocate_of_below positive below, Prod.mk.injEq] at eq
      obtain ⟨rfl, rfl⟩ := eq
      exact Or.inr ⟨rfl, rfl, install (fun _ _ => id) rfl⟩
  | cull removes spares =>
      refine Or.inl ⟨rfl, fun q g holds => ?_⟩
      have same := Endpoints.capability_cull_of_active holds.1
      exact ⟨(Endpoints.active_cull.mp holds.1).1, by rw [← same]; exact holds.2⟩
  | @retire taskId index G isOp found removes =>
      refine Or.inl ⟨rfl, fun q g holds => ?_⟩
      obtain ⟨active, same⟩ := holds
      dsimp only at active same
      rw [Endpoints.capability_update] at active same
      split at active
      · cases active
      · rename_i elsewhere
        rw [if_neg elsewhere, Endpoints.capability_cull_of_active active] at same
        exact ⟨(Endpoints.active_cull.mp active).1, same⟩
  | @deliver sender receiver bytes index isOp short found space =>
      refine Or.inl ⟨rfl, fun q g holds => ?_⟩
      rw [Endpoints.Holds] at holds
      dsimp only at holds
      rwa [Endpoints.capability_deliver] at holds
  | @transfer sender destination transfer receiver rights bytes source index slot installed
      generation next isOp short checks eq installs =>
      rw [allocate_of_below positive below, Prod.mk.injEq] at eq
      obtain ⟨rfl, rfl⟩ := eq
      refine Or.inr ⟨rfl, rfl, fun q g holds => ?_⟩
      rw [Endpoints.Holds] at holds
      dsimp only at holds
      rw [Endpoints.capability_deliver, installs] at holds
      exact install (fun _ _ => id) rfl q g holds
  | @pop receiver output index message popped isOp found first room =>
      refine Or.inl ⟨rfl, fun q g holds => ?_⟩
      rw [Endpoints.Holds] at holds
      dsimp only at holds
      rwa [Endpoints.capability_requeue (Endpoint.pop_capabilities first)] at holds
  | @waiting taskId index waiting isOp found =>
      refine Or.inl ⟨rfl, fun q g holds => ?_⟩
      rw [Endpoints.Holds] at holds
      dsimp only at holds
      rwa [Endpoints.capability_requeue (by rfl)] at holds

/-! ### Runs -/

/-- The allocator counts: after a run with fewer than `2 ^ 56 - 1` allocations it
has returned `1, 2, 3, …` and the counter is one past the last. -/
theorem run_allocations {ops : List Op} (nonzero : ∀ op ∈ ops, op.NonZero)
    (few : (allocations initial ops).length < maxGeneration) :
    allocations initial ops = List.range' 1 (allocations initial ops).length ∧
      (run initial ops).nextCapabilityGeneration = (allocations initial ops).length + 1 ∧
      (run initial ops).Below := by
  induction ops using List.reverseRecOn with
  | nil => exact ⟨rfl, rfl, le_rfl, fun p active => by cases active⟩
  | append_singleton ops op ih =>
      have nonzeroBefore : ∀ op ∈ ops, op.NonZero :=
        fun op mem => nonzero op (List.mem_append_left _ mem)
      have last : run initial (ops ++ [op]) = step (run initial ops) op := run_append ..
      have log : allocations initial (ops ++ [op]) =
          allocations initial ops ++ (allocated (run initial ops) op).toList := by
        rw [allocations_append, allocations, allocations, List.append_nil]
      rw [log, List.length_append] at few
      obtain ⟨counted, counter, below⟩ := ih nonzeroBefore (by omega)
      have unique := (run_sound initial_sound nonzeroBefore).table.lineages.unique
      rw [log, last]
      rcases (exec_change (run initial ops) unique op).generations below with
        ⟨same, holds⟩ | ⟨moved, returned, holds⟩
      · have none : allocated (run initial ops) op = none := if_pos same
        rw [none, Option.toList_none, List.append_nil]
        refine ⟨counted, same.trans counter, below.1.trans_eq same.symm, fun p active => ?_⟩
        obtain ⟨wasActive, generation⟩ := holds p _ ⟨active, rfl⟩
        exact (generation ▸ below.2 p wasActive).trans_eq same.symm
      · have some : allocated (run initial ops) op =
            some (run initial ops).nextCapabilityGeneration := by
          have ne : (step (run initial ops) op).nextCapabilityGeneration ≠
              (run initial ops).nextCapabilityGeneration := by
            intro same
            exact advance_ne _ (moved.symm.trans same)
          rw [allocated, if_neg ne]
          exact congrArg _ returned
        rw [some, Option.toList_some, List.length_singleton] at few
        have forward : (step (run initial ops) op).nextCapabilityGeneration =
            (run initial ops).nextCapabilityGeneration + 1 :=
          moved.trans (advance_of_lt below.1 (by omega))
        rw [some, Option.toList_some, List.length_append, List.length_singleton]
        refine ⟨?_, by omega, by omega, fun p active => ?_⟩
        · rw [List.range'_concat, ← counted, counter, Nat.one_mul, Nat.add_comm 1]
        · rw [forward]
          rcases holds p _ ⟨active, rfl⟩ with ⟨wasActive, generation⟩ | fresh
          · exact Nat.lt_succ_of_lt (generation ▸ below.2 p wasActive)
          · exact Nat.lt_succ_of_le (le_of_eq fresh)

/-- A generation that a slot does not hold, below the counter, never comes back
to it. -/
theorem not_holds_run {before after : List Op} (nonzero : ∀ op ∈ before ++ after, op.NonZero)
    (few : (allocations initial (before ++ after)).length < maxGeneration) {q : Position} {g : Nat}
    (past : g < (run initial before).nextCapabilityGeneration)
    (absent : ¬ (run initial before).endpoints.Holds q g) :
    ¬ (run initial (before ++ after)).endpoints.Holds q g := by
  induction after using List.reverseRecOn with
  | nil => rwa [List.append_nil]
  | append_singleton after op ih =>
      rw [← List.append_assoc] at nonzero few ⊢
      have nonzeroBefore : ∀ op ∈ before ++ after, op.NonZero :=
        fun op mem => nonzero op (List.mem_append_left _ mem)
      rw [allocations_append, List.length_append] at few
      have fewBefore : (allocations initial (before ++ after)).length < maxGeneration := by omega
      obtain ⟨-, counter, below⟩ := run_allocations nonzeroBefore fewBefore
      rw [allocations_append, List.length_append] at fewBefore counter
      obtain ⟨-, earlier, -⟩ := run_allocations
        (fun op mem => nonzeroBefore op (List.mem_append_left _ mem))
        (show (allocations initial before).length < maxGeneration by omega)
      have unique := (run_sound initial_sound nonzeroBefore).table.lineages.unique
      have still := ih nonzeroBefore (by rw [allocations_append, List.length_append]; omega)
      rw [run_append]
      intro holds
      rcases (exec_change (run initial (before ++ after)) unique op).generations below with
        ⟨-, old⟩ | ⟨-, -, old⟩
      · exact still (old q g holds)
      · rcases old q g holds with held | fresh
        · exact still held
        · omega

/-- Stale handles stay stale, and no generation is allocated twice, in every run
with fewer than `2 ^ 56 - 1` allocations: once the capability of a slot has
left it, the handle resolves for nobody. -/
theorem stale_handles (ops : List Op) (nonzero : ∀ op ∈ ops, op.NonZero)
    (few : (allocations initial ops).length < 2 ^ 56 - 1) :
    (allocations initial ops).Nodup ∧
      ∀ (first middle last : List Op) (p : Position) (generation : Nat),
        ops = first ++ middle ++ last →
        (run initial first).endpoints.Holds p generation →
        ¬ (run initial (first ++ middle)).endpoints.Holds p generation →
        ∀ owner required,
          (∃ error, ((run initial ops).resolveCapability owner (encodeHandle p.2 generation)
            required).1 = .error error) ∧
          (∃ error, ((run initial ops).resolve owner (encodeHandle p.2 generation)
            required).1 = .error error) := by
  rw [← maxGeneration_eq] at few
  refine ⟨?_, ?_⟩
  · rw [(run_allocations nonzero few).1]
    exact List.nodup_range'
  rintro first middle last p generation rfl active deactivated owner required
  have lengths := allocations_append initial first (middle ++ last)
  rw [← List.append_assoc] at lengths
  have fewFirst : (allocations initial first).length < maxGeneration := by
    rw [lengths, List.length_append] at few
    omega
  have nonzeroFirst : ∀ op ∈ first, op.NonZero := fun op mem => nonzero op (by simp [mem])
  obtain ⟨-, counter, below⟩ := run_allocations nonzeroFirst fewFirst
  have sound := run_sound initial_sound nonzeroFirst
  have past : generation < (run initial first).nextCapabilityGeneration := by
    rw [← active.2]
    exact below.2 p active.1
  -- no slot holds the generation any more: the others never did, this one lost it
  have gone : ∀ q, ¬ (run initial (first ++ middle ++ last)).endpoints.Holds q generation := by
    intro q
    by_cases here : q = p
    · have fewMiddle : (allocations initial (first ++ middle)).length < maxGeneration := by
        rw [allocations_append, List.length_append] at few
        omega
      have nonzeroMiddle : ∀ op ∈ first ++ middle, op.NonZero :=
        fun op mem => nonzero op (List.mem_append_left _ mem)
      obtain ⟨-, later, -⟩ := run_allocations nonzeroMiddle fewMiddle
      rw [allocations_append, List.length_append] at later
      rw [here]
      exact not_holds_run nonzero few (by omega) deactivated
    · rw [List.append_assoc] at nonzero few ⊢
      refine not_holds_run nonzero few past fun holds => here ?_
      exact sound.table.lineages.unique q p holds.1 active.1 (holds.2.trans active.2.symm)
  have positive : generation ≠ 0 := by
    rw [← active.2]
    exact (sound.table.lineages.wellFormed p active.1).generation
  have decoded := decodeHandle_encodeHandle p.2 positive (show generation ≤ maxGeneration by omega)
  have unique := (run_sound initial_sound nonzero).table.lineages.unique
  have unresolved : ∀ capability, ¬ Resolves (run initial (first ++ middle ++ last)) owner
      (encodeHandle p.2 generation) required capability := by
    rintro capability ⟨⟨i, slot, -, decodes, rfl⟩, stillActive, -, -⟩
    rw [decoded, Option.some.injEq, Prod.mk.injEq] at decodes
    exact gone (i, slot) ⟨stillActive, decodes.2.symm⟩
  constructor
  · rcases (run initial (first ++ middle ++ last)).resolveCapability_cases unique owner
      (encodeHandle p.2 generation) required with ⟨capability, -, resolves⟩ | ⟨error, _, eq, -⟩
    · exact absurd resolves (unresolved capability)
    · exact ⟨error, by rw [eq]⟩
  · rcases (run initial (first ++ middle ++ last)).resolve_cases unique owner
      (encodeHandle p.2 generation) required with ⟨capability, -, resolves⟩ | ⟨error, _, eq, -⟩
    · exact absurd resolves (unresolved capability)
    · exact ⟨error, by rw [eq]⟩

/-- The slot of a revoked capability is filled again. -/
def reuseRun : List Op :=
  [.register 1, .register 2, .grant 1 2 ⟨9⟩, .revoke 1 770, .grant 1 2 ⟨9⟩]

theorem stale_handles_reuseRun : (allocations initial reuseRun).Nodup ∧
    ∃ error, ((run initial reuseRun).resolve 1 (encodeHandle 1 3) CapabilityRights.send).1 =
      .error error := by
  obtain ⟨nodup, stale⟩ := stale_handles reuseRun (by decide) (by decide +kernel)
  have active : (run initial [.register 1, .register 2, .grant 1 2 ⟨9⟩]).endpoints.Holds (0, 1) 3 :=
    ⟨by decide +kernel, by decide +kernel⟩
  refine ⟨nodup, (stale _ [.revoke 1 770] [.grant 1 2 ⟨9⟩] (0, 1) 3 rfl active ?_ 1 _).2⟩
  exact fun holds => absurd holds.1 (by decide +kernel)

end CloudOS.Ipc
