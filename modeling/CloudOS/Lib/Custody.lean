import Mathlib

/-!
Custody: who holds what after a history of grants and returns.

A history lists, oldest first, what was given out and what was given back. The
results say what one more event does to the set of things held and to the
sequence of things returned, for events about any type.
-/

namespace Lib.Custody

variable {α : Type*} {events : List α} {x y : α}

inductive Event (α : Type*) where
  | given (x : α)
  | returned (x : α)
deriving DecidableEq, Repr

/-- It was given out and has not been returned since. -/
def Held (events : List (Event α)) (x : α) : Prop :=
  ∃ before after, events = before ++ .given x :: after ∧ .returned x ∉ after

/-- Everything that was given out has been returned since. -/
def Settled (events : List (Event α)) : Prop :=
  ∀ before after x, events = before ++ .given x :: after → .returned x ∈ after

/-- A list of events is settled when nothing is held at its end. -/
theorem settled_iff {events : List (Event α)} : Settled events ↔ ∀ x, ¬ Held events x := by
  constructor
  · rintro settled x ⟨before, after, eq, missing⟩
    exact missing (settled before after x eq)
  · intro none before after x eq
    by_contra missing
    exact none x ⟨before, after, eq, missing⟩

/-- What is given first has to come back later. -/
theorem settled_cons {event : Event α} {events : List (Event α)} :
    Settled (event :: events) ↔
      (∀ x, event = .given x → .returned x ∈ events) ∧ Settled events := by
  constructor
  · intro settled
    refine ⟨?_, fun before after x eq => settled (event :: before) after x (by rw [eq]; rfl)⟩
    rintro x rfl
    exact settled [] events x rfl
  · rintro ⟨first, rest⟩ before after x eq
    cases before with
    | nil =>
        obtain ⟨rfl, rfl⟩ := List.cons.inj eq
        exact first x rfl
    | cons _ before =>
        obtain ⟨-, rfl⟩ := List.cons.inj eq
        exact rest before after x rfl

instance decidableSettled [DecidableEq α] : (events : List (Event α)) → Decidable (Settled events)
  | [] => isTrue fun before after x eq => by simp at eq
  | .returned _ :: events =>
      have := decidableSettled events
      decidable_of_iff (Settled events) (by simp [settled_cons])
  | .given x :: events =>
      have := decidableSettled events
      decidable_of_iff (.returned x ∈ events ∧ Settled events) (by simp [settled_cons])

@[simp] theorem not_held_nil : ¬ Held [] x := by
  rintro ⟨before, after, eq, -⟩
  simp at eq

/-- An event at the end of a history is the grant looked for or comes after it. -/
theorem held_append_singleton {events : List (Event α)} {event : Event α} :
    Held (events ++ [event]) x ↔ event = .given x ∨ (Held events x ∧ event ≠ .returned x) := by
  constructor
  · rintro ⟨before, after, eq, missing⟩
    rcases List.eq_nil_or_concat after with rfl | ⟨after, last, rfl⟩
    · obtain ⟨-, same⟩ := List.append_inj' eq rfl
      exact .inl (by simpa using same)
    · rw [List.concat_eq_append, ← List.cons_append, ← List.append_assoc] at eq
      obtain ⟨front, same⟩ := List.append_inj' eq rfl
      obtain rfl : event = last := by simpa using same
      rw [List.concat_eq_append, List.mem_append, List.mem_singleton, not_or] at missing
      exact .inr ⟨⟨before, after, front, missing.1⟩, Ne.symm missing.2⟩
  · rintro (rfl | ⟨⟨before, after, rfl, missing⟩, other⟩)
    · exact ⟨events, [], rfl, List.not_mem_nil⟩
    · refine ⟨before, after ++ [event], by simp, ?_⟩
      rw [List.mem_append, List.mem_singleton, not_or]
      exact ⟨missing, Ne.symm other⟩

@[simp] theorem held_given {events : List (Event α)} :
    Held (events ++ [.given y]) x ↔ x = y ∨ Held events x := by
  rw [held_append_singleton]
  simp [eq_comm]

@[simp] theorem held_returned {events : List (Event α)} :
    Held (events ++ [.returned y]) x ↔ x ≠ y ∧ Held events x := by
  rw [held_append_singleton]
  simp [eq_comm, and_comm]

/-- What was returned, oldest first. -/
def returns (events : List (Event α)) : List α :=
  events.filterMap fun
    | .given _ => none
    | .returned x => some x

@[simp] theorem returns_given {events : List (Event α)} :
    returns (events ++ [.given y]) = returns events := by
  simp [returns]

@[simp] theorem returns_returned {events : List (Event α)} :
    returns (events ++ [.returned y]) = returns events ++ [y] := by
  simp [returns]

/-- The last `n` returns. -/
def recent (n : Nat) (events : List (Event α)) : List α :=
  (returns events).drop ((returns events).length - n)

end Lib.Custody
