import Mathlib

/-!
Computations that check something: they return a value exactly when a condition
holds, and otherwise fail in one of the allowed ways. The conditions of steps that
follow one another add up.
-/

namespace Lib.Verdict

universe u

variable {ε : Type*} {α β : Type u} {allowed : ε → Prop} {P Q : Prop} {a a' : α} {b : β}
  {x : Except ε α} {f : α → Except ε β}

/-- The computation returns `a` if `P` holds, and fails otherwise. -/
def Decides (allowed : ε → Prop) (P : Prop) (a : α) (x : Except ε α) : Prop :=
  P ∧ x = .ok a ∨ ¬ P ∧ ∃ e, allowed e ∧ x = .error e

namespace Decides

theorem done (holds : P) : Decides allowed P a (.ok a) := .inl ⟨holds, rfl⟩

/-- A first step that checks something necessary. -/
theorem andThen {C : Prop} {c : α} {P : Prop} (decides : Decides allowed C c x)
    (needed : P → C) (next : C → Decides allowed P b (f c)) : Decides allowed P b (x >>= f) := by
  rcases decides with ⟨holds, rfl⟩ | ⟨fails, e, allows, rfl⟩
  · exact next holds
  · exact .inr ⟨fun holds => fails (needed holds), e, allows, rfl⟩

/-- A first step that always succeeds. -/
theorem step (decides : Decides allowed True a x) (next : Decides allowed P b (f a)) :
    Decides allowed P b (x >>= f) := decides.andThen (fun _ => trivial) fun _ => next

theorem congr (decides : Decides allowed P a x) (iff : P ↔ Q) (same : Q → a = a') :
    Decides allowed Q a' x := by
  rcases decides with ⟨holds, rfl⟩ | ⟨fails, rest⟩
  · have holds' := iff.mp holds
    exact .inl ⟨holds', by rw [same holds']⟩
  · exact .inr ⟨fun holds => fails (iff.mpr holds), rest⟩

theorem ok_iff (decides : Decides allowed P a x) : (∃ c, x = .ok c) ↔ P := by
  rcases decides with ⟨holds, rfl⟩ | ⟨fails, e, -, rfl⟩
  · exact iff_of_true ⟨a, rfl⟩ holds
  · exact iff_of_false (fun ⟨c, eq⟩ => by cases eq) fails

theorem of_ok (decides : Decides allowed P a x) (eq : x = .ok a') : P ∧ a' = a := by
  rcases decides with ⟨holds, eq'⟩ | ⟨-, e, -, eq'⟩
  · rw [eq] at eq'
    exact ⟨holds, Except.ok.inj eq'⟩
  · rw [eq] at eq'
    cases eq'

/-- An error is always one of the allowed ones. -/
theorem allowed_of_error (decides : Decides allowed P a x) {e : ε} (eq : x = .error e) :
    allowed e := by
  rcases decides with ⟨-, eq'⟩ | ⟨-, e', allows, eq'⟩
  · rw [eq] at eq'
    cases eq'
  · rw [eq] at eq'
    rwa [Except.error.inj eq']

end Decides

end Lib.Verdict
