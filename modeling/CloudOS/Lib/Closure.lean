import Mathlib

/-!
Sets closed under a relation.

A search that collects some roots, follows every edge out of what it has
collected and never collects anything that is not below a root has collected
exactly the elements below its roots. The results here are about an arbitrary
relation and arbitrary sets; the search that produces the set does not appear.
-/

namespace Lib.Closure

open Relation

variable {α : Type*} {r : α → α → Prop} {roots S : Set α}

/-- The elements reachable from a root, the roots included. -/
def below (r : α → α → Prop) (roots : Set α) : Set α :=
  {b | ∃ a ∈ roots, ReflTransGen r a b}

theorem mem_below {b : α} : b ∈ below r roots ↔ ∃ a ∈ roots, ReflTransGen r a b := Iff.rfl

/-- Every edge out of `S` stays in `S`. -/
def ClosedUnder (r : α → α → Prop) (S : Set α) : Prop := ∀ a ∈ S, ∀ b, r a b → b ∈ S

theorem ClosedUnder.mem_of_reflTransGen (closed : ClosedUnder r S) {a b : α} (mem : a ∈ S)
    (path : ReflTransGen r a b) : b ∈ S := by
  induction path with
  | refl => exact mem
  | tail _ edge ih => exact closed _ ih _ edge

/-- A closed set that contains the roots and only elements below them is the
set of elements below them. -/
theorem eq_below (roots_sub : roots ⊆ S) (closed : ClosedUnder r S) (sound : S ⊆ below r roots) :
    S = below r roots := by
  apply Set.Subset.antisymm sound
  rintro b ⟨a, root, path⟩
  exact closed.mem_of_reflTransGen (roots_sub root) path

theorem below_mono {r' : α → α → Prop} {roots' : Set α} (edges : ∀ a b, r' a b → r a b)
    (sub : roots' ⊆ roots) : below r' roots' ⊆ below r roots := by
  rintro b ⟨a, root, path⟩
  exact ⟨a, sub root, ReflTransGen.mono edges a b path⟩

end Lib.Closure
