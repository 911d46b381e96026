import Mathlib

/-!
Loops that terminate.

A loop is a function on its variables that either leaves the loop with a result
or goes round again with new variables. Running one with fuel is structurally
recursive, so it computes; a measure that falls at every round bounds the fuel,
so the loop has a value. `value_eq` unrolls one round and is all that proofs
about a loop need.
-/

namespace Lib.Loop

variable {σ ρ : Type*}

/-- At most `fuel` rounds of a loop. -/
def run (step : σ → ρ ⊕ σ) : Nat → σ → Option ρ
  | 0, _ => none
  | fuel + 1, s =>
    match step s with
    | .inl result => some result
    | .inr next => run step fuel next

/-- Every round brings the measure down. -/
def Decreases (step : σ → ρ ⊕ σ) (measure : σ → Nat) : Prop :=
  ∀ s next, step s = .inr next → measure next < measure s

variable {step : σ → ρ ⊕ σ} {measure : σ → Nat}

/-- With more fuel than the measure, a loop comes to its end. -/
theorem Decreases.run_isSome (decreases : Decreases step measure) :
    ∀ {fuel : Nat} {s : σ}, measure s < fuel → (run step fuel s).isSome := by
  intro fuel
  induction fuel with
  | zero =>
    intro s enough
    omega
  | succ fuel ih =>
    intro s enough
    rw [run]
    cases round : step s with
    | inl result => rfl
    | inr next =>
      have falls := decreases s next round
      exact ih (by omega)

/-- What is enough fuel does not matter. -/
theorem Decreases.run_eq (decreases : Decreases step measure) :
    ∀ {fuel fuel' : Nat} {s : σ}, measure s < fuel → measure s < fuel' →
      run step fuel s = run step fuel' s := by
  intro fuel
  induction fuel with
  | zero =>
    intro fuel' s enough
    omega
  | succ fuel ih =>
    intro fuel' s enough enough'
    cases fuel' with
    | zero => omega
    | succ fuel' =>
      rw [run, run]
      cases round : step s with
      | inl result => rfl
      | inr next =>
        have falls := decreases s next round
        exact ih (by omega) (by omega)

/-- The result of a loop. -/
def value (decreases : Decreases step measure) (s : σ) : ρ :=
  (run step (measure s + 1) s).get (decreases.run_isSome (Nat.lt_succ_self _))

/-- One round of a loop. -/
theorem value_eq (decreases : Decreases step measure) (s : σ) :
    value decreases s =
      match step s with
      | .inl result => result
      | .inr next => value decreases next := by
  apply Option.some.inj
  rw [value, Option.some_get, run]
  cases round : step s with
  | inl result => rfl
  | inr next =>
    have falls := decreases s next round
    simp only [value, Option.some_get]
    exact decreases.run_eq falls (Nat.lt_succ_self _)

theorem value_of_leave (decreases : Decreases step measure) {s : σ} {result : ρ}
    (leaves : step s = .inl result) : value decreases s = result := by
  rw [value_eq, leaves]

theorem value_of_again (decreases : Decreases step measure) {s next : σ}
    (again : step s = .inr next) : value decreases s = value decreases next := by
  rw [value_eq, again]

theorem run_eq_value (decreases : Decreases step measure) {fuel : Nat} {s : σ}
    (enough : measure s < fuel) : run step fuel s = some (value decreases s) := by
  rw [value, Option.some_get]
  exact decreases.run_eq enough (Nat.lt_succ_self _)

/-- What holds of the results of the last round, and is kept by the rounds before it,
holds of the value. -/
theorem value_rule (decreases : Decreases step measure) {P : σ → ρ → Prop}
    (leave : ∀ s result, step s = .inl result → P s result)
    (again : ∀ s next result, step s = .inr next → P next result → P s result) :
    ∀ s, P s (value decreases s) := by
  suffices bounded : ∀ n s, measure s < n → P s (value decreases s) from
    fun s => bounded _ s (Nat.lt_succ_self _)
  intro n
  induction n with
  | zero =>
    intro s below
    omega
  | succ n ih =>
    intro s below
    cases round : step s with
    | inl result =>
      rw [value_of_leave decreases round]
      exact leave s result round
    | inr next =>
      have falls := decreases s next round
      rw [value_of_again decreases round]
      exact again s next _ round (ih next (by omega))

/-- Two loops that differ in what they make of the last round. -/
theorem value_map {ρ' : Type*} {step' : σ → ρ' ⊕ σ} (decreases : Decreases step measure)
    (decreases' : Decreases step' measure) {f : ρ → ρ'}
    (same : ∀ s, step' s = (step s).map f id) :
    ∀ s, value decreases' s = f (value decreases s) := by
  apply value_rule decreases (P := fun s result => value decreases' s = f result)
  · intro s result leaves
    apply value_of_leave
    rw [same, leaves]
    rfl
  · intro s next result again ih
    rw [← ih]
    apply value_of_again
    rw [same, again]
    rfl

/-- The rounds of a loop that may fault: a fault leaves the loop without a result. -/
def faulting (round : σ → Option (ρ ⊕ σ)) (s : σ) : Option ρ ⊕ σ :=
  match round s with
  | none => .inl none
  | some (.inl result) => .inl (some result)
  | some (.inr next) => .inr next

/-- A round goes on only if it did not fault. -/
theorem faulting_again {round : σ → Option (ρ ⊕ σ)} {s next : σ} :
    faulting round s = .inr next ↔ round s = some (.inr next) := by
  cases outcome : round s with
  | none => simp [faulting, outcome]
  | some outcome' =>
    cases outcome' with
    | inl result => simp [faulting, outcome]
    | inr other => simp [faulting, outcome]

theorem faulting_leave {round : σ → Option (ρ ⊕ σ)} {s : σ} {result : ρ}
    (leaves : round s = some (.inl result)) : faulting round s = .inl (some result) := by
  rw [faulting, leaves]

/-- The variables a loop that starts at `s` goes through. -/
def Visits (step : σ → ρ ⊕ σ) : σ → σ → Prop :=
  Relation.ReflTransGen fun s next => step s = .inr next

end Lib.Loop
