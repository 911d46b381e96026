import Mathlib

/-!
Scans over fixed-size tables.

`first p` is the first index that satisfies `p`, the result of a search loop
over an array. It is irreducible: on an open table of a hundred entries,
unification would otherwise unroll the loop. Everything proofs need is in the
characterizations below.
-/

namespace Lib.Scan

variable {n : Nat}

@[irreducible] def first (p : Fin n → Bool) : Option (Fin n) := Fin.find? p

theorem first_eq_some {p : Fin n → Bool} {i : Fin n} (found : first p = some i) : p i = true := by
  rw [first] at found
  exact (Fin.find?_eq_some_iff.mp found).1

/-- Nothing before the first index satisfies `p`. -/
theorem first_eq_some_iff {p : Fin n → Bool} {i : Fin n} :
    first p = some i ↔ p i = true ∧ ∀ j < i, p j = false := by
  rw [first, Fin.find?_eq_some_iff]

theorem first_eq_none {p : Fin n → Bool} : first p = none ↔ ∀ i, p i = false := by
  rw [first]
  exact Fin.find?_eq_none_iff

/-- The first pair in lexicographic order: the result of two nested loops. -/
def firstPair {m : Nat} (p : Fin n → Fin m → Bool) : Option (Fin n × Fin m) :=
  match first fun i => (first (p i)).isSome with
  | none => none
  | some i => (first (p i)).map fun j => (i, j)

/-- The pair that is found satisfies the predicate. -/
theorem firstPair_eq_some {m : Nat} {p : Fin n → Fin m → Bool} {i : Fin n} {j : Fin m}
    (found : firstPair p = some (i, j)) : p i j = true := by
  unfold firstPair at found
  split at found
  · cases found
  · obtain ⟨j', found', eq⟩ := Option.map_eq_some_iff.mp found
    obtain ⟨rfl, rfl⟩ := Prod.mk.inj eq
    exact first_eq_some found'

/-- If none is found, none satisfies it. -/
theorem firstPair_eq_none {m : Nat} {p : Fin n → Fin m → Bool} (missing : firstPair p = none)
    (i : Fin n) (j : Fin m) : p i j = false := by
  unfold firstPair at missing
  split at missing
  · rename_i outer
    have row := first_eq_none.mp outer i
    rw [Option.isSome_eq_false_iff, Option.isNone_iff_eq_none] at row
    exact first_eq_none.mp row j
  · rename_i i' outer
    rw [Option.map_eq_none_iff] at missing
    have row := first_eq_some outer
    rw [missing] at row
    cases row

end Lib.Scan
