import Mathlib

/-!
Ranges of lists, and computations that stop at the first failed check.
-/

namespace Lib.Slice

variable {α : Type*}

/-- The elements from `start` to `stop`. -/
def slice (xs : List α) (start stop : Nat) : List α := (xs.drop start).take (stop - start)

/-- The elements from `start` to `stop`, if the list reaches that far. -/
def get (xs : List α) (start stop : Nat) : Option (List α) :=
  if start ≤ stop ∧ stop ≤ xs.length then some (slice xs start stop) else none

variable {xs ys mid : List α} {start stop : Nat}

/-- A slice is read exactly when its ends are in order and in range. -/
theorem get_eq_some :
    get xs start stop = some ys ↔ start ≤ stop ∧ stop ≤ xs.length ∧ slice xs start stop = ys := by
  unfold get
  split
  · rename_i inside
    simp [inside.1, inside.2]
  · rename_i outside
    simp only [reduceCtorEq, false_iff]
    exact fun h => outside ⟨h.1, h.2.1⟩

theorem slice_of_eq (pre post : List α) (split : xs = pre ++ mid ++ post)
    (before : pre.length = start) (size : start + mid.length = stop) : slice xs start stop = mid := by
  subst split before size
  simp [slice]

/-- The middle of three parts is a slice. -/
theorem get_of_eq (pre post : List α) (split : xs = pre ++ mid ++ post)
    (before : pre.length = start) (size : start + mid.length = stop) :
    get xs start stop = some mid := by
  have inside : stop ≤ xs.length := by
    rw [split]
    simp only [List.length_append]
    omega
  exact get_eq_some.mpr ⟨by omega, inside, slice_of_eq pre post split before size⟩

theorem length_slice (ordered : start ≤ stop) (inside : stop ≤ xs.length) :
    (slice xs start stop).length = stop - start := by
  simp only [slice, List.length_take, List.length_drop]
  omega

end Lib.Slice

namespace Lib.Check

universe u

variable {ε : Type*} {α β : Type u}

/-- Stops unless the condition holds. -/
def require (condition : Bool) (error : ε) : Except ε PUnit :=
  if condition then .ok ⟨⟩ else .error error

/-- Stops unless there is a value. -/
def orFail (value : Option α) (error : ε) : Except ε α :=
  match value with
  | some value => .ok value
  | none => .error error

/-- A computation succeeds if both of its steps do. -/
theorem bind_eq_ok {x : Except ε α} {f : α → Except ε β} {b : β} :
    (x >>= f) = .ok b ↔ ∃ a, x = .ok a ∧ f a = .ok b := by
  cases x with
  | error e =>
    constructor
    · intro eq
      cases eq
    · rintro ⟨a, eq, -⟩
      cases eq
  | ok a =>
    constructor
    · exact fun eq => ⟨a, rfl, eq⟩
    · rintro ⟨a', eq, eq'⟩
      cases eq
      exact eq'

theorem require_eq_ok {condition : Bool} {error : ε} {done : PUnit.{u + 1}} :
    require condition error = .ok done ↔ condition = true := by
  unfold require
  split
  · rename_i holds
    exact iff_of_true rfl holds
  · rename_i fails
    exact iff_of_false (fun eq => by cases eq) fails

theorem orFail_eq_ok {value : Option α} {error : ε} {a : α} :
    orFail value error = .ok a ↔ value = some a := by
  cases value with
  | none => exact iff_of_false (fun eq => by cases eq) (fun eq => by cases eq)
  | some b => exact ⟨fun eq => by cases eq; rfl, fun eq => by cases eq; rfl⟩

theorem forM_eq_ok {xs : List α} {f : α → Except ε PUnit} :
    xs.forM f = .ok ⟨⟩ ↔ ∀ x ∈ xs, f x = .ok ⟨⟩ := by
  induction xs with
  | nil => exact iff_of_true rfl fun _ mem => absurd mem List.not_mem_nil
  | cons x rest ih =>
    rw [List.forall_mem_cons, ← ih]
    constructor
    · intro all
      obtain ⟨⟨⟩, first, more⟩ := bind_eq_ok.mp all
      exact ⟨first, more⟩
    · rintro ⟨first, more⟩
      exact bind_eq_ok.mpr ⟨⟨⟩, first, more⟩

end Lib.Check
