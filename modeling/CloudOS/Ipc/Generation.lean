import CloudOS.Ipc.Types

/-!
Capability generations: the handle encoding and `IpcState::allocate_generation`.

The allocator advances a wrapping counter until it meets a generation that no
active capability carries. `allocateLoop` is that loop with an explicit bound
on its iterations; `allocateLoop_isSome` shows that one more iteration than
there are capability slots always suffices, whatever the table and the counter
hold, so `allocate` needs no bound.
-/

namespace CloudOS.Ipc

/-- The largest generation that fits above the slot bits of a handle. -/
abbrev maxGeneration : Nat := (2 ^ 64 - 1) >>> capabilitySlotBits

theorem maxGeneration_eq : maxGeneration = 2 ^ 56 - 1 := by decide

/-! ### Handles -/

/-- The two parts of a handle do not overlap. -/
theorem encodeHandle_eq {slot generation : Nat} (hslot : slot < maxCapabilitiesPerEndpoint)
    (fits : generation ≤ maxGeneration) :
    encodeHandle slot generation = generation * 256 + (slot + 1) := by
  have shifted : generation <<< 8 = generation * 256 := Nat.shiftLeft_eq generation 8
  have small : generation <<< 8 < 2 ^ 64 := by
    rw [maxGeneration_eq] at fits
    omega
  have low : slot + 1 < 2 ^ 8 := by
    change slot < 8 at hslot
    omega
  change generation <<< 8 % 2 ^ 64 ||| (slot + 1) = _
  rw [Nat.mod_eq_of_lt small, ← Nat.shiftLeft_add_eq_or_of_lt low, shifted]

/-- Every handle with a slot in range and a generation is decoded. -/
theorem decodeHandle_eq_some {handle generation : Nat} {slot : Fin maxCapabilitiesPerEndpoint} :
    decodeHandle handle = some (slot, generation) ↔
      handle = generation * 256 + (slot + 1) ∧ generation ≠ 0 := by
  have low : handle &&& capabilitySlotMask = handle % 256 :=
    Nat.and_two_pow_sub_one_eq_mod handle 8
  have high : handle >>> capabilitySlotBits = handle / 256 := Nat.shiftRight_eq_div_pow handle 8
  have hslot : (slot : Nat) < 8 := slot.isLt
  rw [decodeHandle, low, high]
  simp only []
  split
  · rename_i missing
    simp only [reduceCtorEq, false_iff, not_and, not_not]
    intro eq
    omega
  · rename_i present
    split
    · rename_i inRange
      change handle % 256 - 1 < 8 at inRange
      simp only [Option.some.injEq, Prod.mk.injEq, Fin.ext_iff]
      omega
    · rename_i outOfRange
      change ¬ handle % 256 - 1 < 8 at outOfRange
      simp only [reduceCtorEq, false_iff, not_and, not_not]
      intro eq
      omega

/-- A handle decodes to the slot and generation it was made from. -/
theorem decodeHandle_encodeHandle (slot : Fin maxCapabilitiesPerEndpoint) {generation : Nat}
    (positive : generation ≠ 0) (fits : generation ≤ maxGeneration) :
    decodeHandle (encodeHandle slot generation) = some (slot, generation) :=
  decodeHandle_eq_some.mpr ⟨encodeHandle_eq slot.isLt fits, positive⟩

/-- However large its generation, the handle of a first capability names the first slot. -/
theorem decodeHandle_first {generation generation' : Nat}
    {slot : Fin maxCapabilitiesPerEndpoint}
    (decoded : decodeHandle (encodeHandle 0 generation) = some (slot, generation')) :
    slot = 0 := by
  obtain ⟨handle, -⟩ := decodeHandle_eq_some.mp decoded
  have shifted : generation <<< 8 % 2 ^ 64 = (generation % 2 ^ 56) <<< 8 := by
    simp only [Nat.shiftLeft_eq]
    omega
  have first : encodeHandle 0 generation = (generation % 2 ^ 56) * 256 + 1 := by
    change generation <<< 8 % 2 ^ 64 ||| (0 + 1) = _
    rw [shifted, ← Nat.shiftLeft_add_eq_or_of_lt (by decide), Nat.shiftLeft_eq]
  have small : (slot : Nat) < 8 := slot.isLt
  apply Fin.ext
  change (slot : Nat) = 0
  omega

theorem encodeHandle_lt {slot generation : Nat} (hslot : slot < maxCapabilitiesPerEndpoint)
    (fits : generation ≤ maxGeneration) : encodeHandle slot generation < 2 ^ 64 := by
  rw [encodeHandle_eq hslot fits]
  change slot < 8 at hslot
  rw [maxGeneration_eq] at fits
  omega

/-- The generation of a word fits above the slot bits. -/
theorem generation_of_decodeHandle {handle generation : Nat}
    {slot : Fin maxCapabilitiesPerEndpoint} (word : handle < 2 ^ 64)
    (decoded : decodeHandle handle = some (slot, generation)) :
    1 ≤ generation ∧ generation ≤ maxGeneration := by
  obtain ⟨rfl, positive⟩ := decodeHandle_eq_some.mp decoded
  rw [maxGeneration_eq]
  omega

/-- A handle that decodes is the one made from its slot and generation. -/
theorem encodeHandle_decodeHandle {handle generation : Nat}
    {slot : Fin maxCapabilitiesPerEndpoint} (word : handle < 2 ^ 64)
    (decoded : decodeHandle handle = some (slot, generation)) :
    encodeHandle slot generation = handle := by
  have fits := (generation_of_decodeHandle word decoded).2
  rw [encodeHandle_eq slot.isLt fits]
  exact (decodeHandle_eq_some.mp decoded).1.symm

/-- The low byte of a handle is a slot, counted from one. -/
theorem decodeHandle_low {handle generation : Nat} {slot : Fin maxCapabilitiesPerEndpoint}
    (decoded : decodeHandle handle = some (slot, generation)) :
    1 ≤ handle % 256 ∧ handle % 256 ≤ maxCapabilitiesPerEndpoint := by
  obtain ⟨rfl, -⟩ := decodeHandle_eq_some.mp decoded
  have small : (slot : Nat) < 8 := slot.isLt
  change _ ∧ _ ≤ 8
  omega

@[simp] theorem decodeHandle_zero : decodeHandle 0 = none := by decide

/-! ### Allocation -/

/-- The counter value after the loop has tried the counter value `next`. -/
def advance (next : Nat) : Nat :=
  let generation := max next 1
  if generation ≥ maxGeneration then 1 else generation + 1

/-- The `loop` of `allocate_generation`: the generation returned and the next
counter value, or `none` when the iterations run out. -/
def allocateLoop (e : Endpoints) : Nat → Nat → Option (Nat × Nat)
  | 0, _ => none
  | iterations + 1, next =>
      let generation := max next 1
      if (e.findCapabilityGeneration generation).isNone then some (generation, advance next)
      else allocateLoop e iterations (advance next)

/-- The generation tried by iteration `k` of the loop started at counter `next`. -/
def candidate (next k : Nat) : Nat := max (advance^[k] next) 1

/-- A loop that runs out has seen an active capability at every candidate. -/
theorem allocateLoop_eq_none {e : Endpoints} {iterations next : Nat}
    (out : allocateLoop e iterations next = none) :
    ∀ k < iterations, ∃ q, (e.capability q).active = true ∧
      (e.capability q).generation = candidate next k := by
  induction iterations generalizing next with
  | zero => intro k hk; omega
  | succ iterations ih =>
      simp only [allocateLoop] at out
      split at out
      · cases out
      · rename_i taken
        intro k hk
        cases k with
        | zero =>
            cases found : e.findCapabilityGeneration (max next 1) with
            | none => simp [found] at taken
            | some c =>
                obtain ⟨q, rfl, active, generation⟩ :=
                  Endpoints.findCapabilityGeneration_eq_some found
                exact ⟨q, active, generation⟩
        | succ k =>
            obtain ⟨q, active, generation⟩ := ih out k (by omega)
            exact ⟨q, active, by rw [generation, candidate, candidate, Function.iterate_succ_apply]⟩

theorem max_advance (next : Nat) :
    max (advance next) 1 = if max next 1 ≥ 2 ^ 56 - 1 then 1 else max next 1 + 1 := by
  simp only [advance, maxGeneration_eq]
  split_ifs <;> omega

/-- The counter walks `1, 2, …` after a wrap, so candidates are a plain sum. -/
theorem advance_iterate (next k : Nat) (short : k ≤ 65) :
    max (advance^[k] next) 1 =
      if max next 1 ≥ maxGeneration then (if k = 0 then max next 1 else k)
      else if max next 1 + k ≤ maxGeneration then max next 1 + k
      else max next 1 + k - maxGeneration := by
  rw [maxGeneration_eq]
  induction k with
  | zero =>
      simp only [Function.iterate_zero, id_eq]
      split_ifs <;> omega
  | succ k ih =>
      rw [Function.iterate_succ_apply', max_advance, ih (by omega)]
      split_ifs <;> first | omega | contradiction

theorem candidate_injOn (next : Nat) {j k : Nat} (hj : j < 65) (hk : k < 65)
    (same : candidate next j = candidate next k) : j = k := by
  unfold candidate at same
  rw [advance_iterate next j (by omega), advance_iterate next k (by omega), maxGeneration_eq] at same
  split_ifs at same <;> omega

/-- Sixty-four capability slots cannot hold sixty-five distinct generations. -/
theorem allocateLoop_isSome (e : Endpoints) (next : Nat) :
    (allocateLoop e 65 next).isSome = true := by
  by_contra failed
  have out : allocateLoop e 65 next = none := by
    simpa using failed
  choose q active generation using fun k : Fin 65 => allocateLoop_eq_none out k k.isLt
  have injective : Function.Injective q := by
    intro j k same
    apply Fin.ext
    apply candidate_injOn next j.isLt k.isLt
    rw [← generation j, ← generation k, same]
  have := Fintype.card_le_of_injective q injective
  simp [Fintype.card_prod, maxEndpoints, maxCapabilitiesPerEndpoint] at this

/-- Iterations that are not needed change nothing. -/
theorem allocateLoop_mono {e : Endpoints} {iterations more next : Nat} {result : Nat × Nat}
    (found : allocateLoop e iterations next = some result) (le : iterations ≤ more) :
    allocateLoop e more next = some result := by
  induction iterations generalizing next more with
  | zero => simp [allocateLoop] at found
  | succ iterations ih =>
      obtain ⟨more, rfl⟩ := Nat.exists_eq_add_of_le' (Nat.one_le_of_lt le)
      simp only [allocateLoop] at found ⊢
      split at found
      · rename_i free
        rw [if_pos free]
        exact found
      · rename_i taken
        rw [if_neg taken]
        exact ih found (Nat.le_of_succ_le_succ le)

/-- `allocate_generation` on the table `e` with the counter at `next`: the
generation returned and the new counter value. -/
def allocate (e : Endpoints) (next : Nat) : Nat × Nat :=
  (allocateLoop e 65 next).get (allocateLoop_isSome e next)

/-- By induction over the rounds: the generation found is not in use. -/
theorem allocateLoop_spec {e : Endpoints} {iterations next generation next' : Nat}
    (found : allocateLoop e iterations next = some (generation, next')) :
    (∀ q, (e.capability q).active = true → (e.capability q).generation ≠ generation) ∧
      1 ≤ generation ∧ (next ≤ maxGeneration → generation ≤ maxGeneration) ∧
      1 ≤ next' ∧ next' ≤ maxGeneration := by
  induction iterations generalizing next with
  | zero => simp [allocateLoop] at found
  | succ iterations ih =>
      have wrapped : 1 ≤ advance next ∧ advance next ≤ maxGeneration := by
        simp only [advance, maxGeneration_eq]
        split_ifs <;> omega
      simp only [allocateLoop] at found
      split at found
      · rename_i free
        simp only [Option.some.injEq, Prod.mk.injEq] at found
        obtain ⟨rfl, rfl⟩ := found
        have fresh := Endpoints.findCapabilityGeneration_eq_none.mp
          (Option.isNone_iff_eq_none.mp free)
        rw [maxGeneration_eq] at *
        exact ⟨fresh, by omega, by omega, wrapped⟩
      · obtain ⟨fresh, positive, fits, wrapped'⟩ := ih found
        exact ⟨fresh, positive, fun _ => fits wrapped.2, wrapped'⟩

/-- The allocated generation is fresh and non-zero, and the counter stays in
the range of generations. -/
theorem allocate_spec (e : Endpoints) (next : Nat) :
    (∀ q, (e.capability q).active = true → (e.capability q).generation ≠ (allocate e next).1) ∧
      1 ≤ (allocate e next).1 ∧ (next ≤ maxGeneration → (allocate e next).1 ≤ maxGeneration) ∧
      1 ≤ (allocate e next).2 ∧ (allocate e next).2 ≤ maxGeneration :=
  allocateLoop_spec (Option.some_get (allocateLoop_isSome e next)).symm

/-- When every active generation lies below the counter, the first candidate
is free. -/
theorem allocate_of_below {e : Endpoints} {next : Nat} (positive : 1 ≤ next)
    (below : ∀ q, (e.capability q).active = true → (e.capability q).generation < next) :
    allocate e next = (next, advance next) := by
  have fresh : e.findCapabilityGeneration (max next 1) = none := by
    rw [Nat.max_eq_left positive]
    exact Endpoints.findCapabilityGeneration_eq_none.mpr fun q active => (below q active).ne
  have first : allocateLoop e 65 next = some (next, advance next) := by
    rw [allocateLoop, fresh, Nat.max_eq_left positive]
    rfl
  simp only [allocate, first, Option.get_some]

theorem advance_of_lt {next : Nat} (positive : 1 ≤ next) (room : next < maxGeneration) :
    advance next = next + 1 := by
  rw [advance, Nat.max_eq_left positive]
  exact if_neg (not_le.mpr room)

theorem advance_ne (next : Nat) : advance next ≠ next := by
  unfold advance
  rw [maxGeneration_eq]
  dsimp only
  split_ifs <;> omega

end CloudOS.Ipc
