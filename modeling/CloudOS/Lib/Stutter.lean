import Mathlib

/-!
Runs with steps inserted that leave no trace.

Two states may differ in what an inserted step leaves behind. If each inserted step
keeps the states related, and each other step taken in both of them does, then a run
and the run without the inserted steps end related.
-/

namespace Lib.Stutter

variable {State Op : Type*}

/-- The inserted operations are invisible up to `related`: they may be taken on the
right alone, and every other operation is taken on both sides. -/
structure Invisible (step : State → Op → State) (inserted : Op → Bool)
    (related : State → State → Prop) : Prop where
  alone : ∀ s t op, inserted op = true → related s t → related s (step t op)
  together : ∀ s t op, inserted op = false → related s t → related (step s op) (step t op)

/-- The operations of a run that were not inserted. -/
def kept (inserted : Op → Bool) (ops : List Op) : List Op := ops.filter fun op => !inserted op

variable {step : State → Op → State} {inserted : Op → Bool} {related : State → State → Prop}

/-- The steps that are inserted do not show in the end. -/
theorem Invisible.run (invisible : Invisible step inserted related) (ops : List Op) :
    ∀ {s t : State}, related s t →
      related ((kept inserted ops).foldl step s) (ops.foldl step t) := by
  induction ops with
  | nil =>
      intro s t start
      exact start
  | cons op ops ih =>
      intro s t start
      cases isInserted : inserted op with
      | true =>
          have skipped : kept inserted (op :: ops) = kept inserted ops := by
            simp [kept, isInserted]
          rw [skipped, List.foldl_cons]
          exact ih (invisible.alone s t op isInserted start)
      | false =>
          have taken : kept inserted (op :: ops) = op :: kept inserted ops := by
            simp [kept, isInserted]
          rw [taken, List.foldl_cons, List.foldl_cons]
          exact ih (invisible.together s t op isInserted start)

end Lib.Stutter
