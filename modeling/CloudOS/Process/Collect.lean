import CloudOS.Process.Reachable

/-!
Which child `wait_child` collects.

`find_child` settles on the first child that is exited with its resources given
back, and looks no further. `wait_child` then also asks for a complete cleanup. So a
child whose cleanup failed hides every collectable child in a later slot.
-/

namespace CloudOS.Process

open Lib.Scan (first_eq_some first_eq_some_iff first_eq_none)

/-! ### The children of a task -/

namespace ProcessTable

/-- The slot holds a child of the task. -/
def ChildOf (t : ProcessTable) (parentId : Nat) (i : Fin maxTasks) : Prop :=
  (t.task i).state ≠ .empty ∧ (t.task i).parentId = parentId

/-- The slot holds an exited child of the task, with its resources given back. -/
def Released (t : ProcessTable) (parentId : Nat) (i : Fin maxTasks) : Prop :=
  (t.task i).state = .exited ∧ (t.task i).parentId = parentId ∧
    (t.task i).resourcesActive = false

/-- A released child whose cleanup was complete. -/
def Reapable (t : ProcessTable) (parentId : Nat) (i : Fin maxTasks) : Prop :=
  t.Released parentId i ∧ (t.task i).cleanupComplete = true

variable {t : ProcessTable} {parentId : Nat}

instance (i : Fin maxTasks) : Decidable (t.ChildOf parentId i) := inferInstanceAs (Decidable (_ ∧ _))

instance (i : Fin maxTasks) : Decidable (t.Released parentId i) :=
  inferInstanceAs (Decidable (_ ∧ _ ∧ _))

instance (i : Fin maxTasks) : Decidable (t.Reapable parentId i) :=
  inferInstanceAs (Decidable (_ ∧ _))

theorem matchesChild_zero {i : Fin maxTasks} :
    t.matchesChild parentId 0 i = true ↔ t.ChildOf parentId i := by
  simp [matchesChild, ChildOf]

theorem released_iff {i : Fin maxTasks} :
    (t.matchesChild parentId 0 i && (t.task i).state == .exited
      && !(t.task i).resourcesActive) = true ↔ t.Released parentId i := by
  simp only [Bool.and_eq_true, matchesChild_zero, beq_iff_eq, Bool.not_eq_true']
  constructor
  · rintro ⟨⟨⟨-, parent⟩, exited⟩, inactive⟩
    exact ⟨exited, parent, inactive⟩
  · rintro ⟨exited, parent, inactive⟩
    exact ⟨⟨⟨by simp [exited], parent⟩, exited⟩, inactive⟩

/-- A released child comes first, or else the first child of all. -/
theorem findChild_zero_eq_some_iff {i : Fin maxTasks} :
    t.findChild parentId 0 = some i ↔
      (t.Released parentId i ∧ ∀ j < i, ¬ t.Released parentId j) ∨
      ((∀ j, ¬ t.Released parentId j) ∧ t.ChildOf parentId i ∧ ∀ j < i, ¬ t.ChildOf parentId j) := by
  unfold findChild
  split
  · rename_i k found
    obtain ⟨released, least⟩ := first_eq_some_iff.mp found
    simp only [← Bool.not_eq_true, released_iff] at released least
    constructor
    · rintro ⟨⟩
      exact Or.inl ⟨released, least⟩
    · rintro (⟨releasedI, leastI⟩ | ⟨none, -⟩)
      · rcases lt_trichotomy k i with before | rfl | after
        · exact absurd released (leastI k before)
        · rfl
        · exact absurd releasedI (least i after)
      · exact absurd released (none k)
  · rename_i missing
    have none : ∀ j, ¬ t.Released parentId j := fun j released => by
      have off := first_eq_none.mp missing j
      rw [released_iff.mpr released] at off
      cases off
    rw [first_eq_some_iff]
    simp only [← Bool.not_eq_true, matchesChild_zero]
    constructor
    · exact fun least => Or.inr ⟨none, least⟩
    · rintro (⟨released, -⟩ | ⟨-, least⟩)
      · exact absurd released (none i)
      · exact least

/-- Exactly the collectable children pass the test of `wait_child`. -/
theorem reapable_iff {i : Fin maxTasks} (child : t.ChildOf parentId i) :
    ((t.task i).state == .exited && !(t.task i).resourcesActive && (t.task i).cleanupComplete) =
      true ↔ t.Reapable parentId i := by
  simp only [Bool.and_eq_true, beq_iff_eq, Bool.not_eq_true', Reapable, Released]
  constructor
  · rintro ⟨⟨exited, inactive⟩, complete⟩
    exact ⟨⟨exited, child.2, inactive⟩, complete⟩
  · rintro ⟨⟨exited, -, inactive⟩, complete⟩
    exact ⟨⟨exited, inactive⟩, complete⟩

theorem Released.childOf {i : Fin maxTasks} (released : t.Released parentId i) :
    t.ChildOf parentId i :=
  ⟨by simp [released.1], released.2.1⟩

/-- The child that `find_child` settles on is collectable exactly when no released
child before some collectable one spoils the search. -/
theorem findChild_zero_reapable_iff :
    (∃ i ∈ t.findChild parentId 0, t.Reapable parentId i) ↔
      ∃ i, t.Reapable parentId i ∧ ∀ j < i, ¬ t.Released parentId j := by
  constructor
  · rintro ⟨i, found, reapable⟩
    rcases findChild_zero_eq_some_iff.mp found with ⟨-, least⟩ | ⟨none, -⟩
    · exact ⟨i, reapable, least⟩
    · exact absurd reapable.1 (none i)
  · rintro ⟨i, reapable, least⟩
    exact ⟨i, findChild_zero_eq_some_iff.mpr (Or.inl ⟨reapable.1, least⟩), reapable⟩

end ProcessTable

/-! ### Collecting -/

namespace System

variable {s : System} {parentId : Nat} {i : Fin maxTasks}

/-- A live task collects the child that `find_child` settles on, if it is collectable. -/
theorem waitChild_reaped_iff (found : s.table.findTask parentId = some i)
    (live : (s.table.task i).live = true) :
    (s.waitChild parentId 0).1.reaped = true ↔
      ∃ j ∈ s.table.findChild parentId 0, s.table.Reapable parentId j := by
  unfold waitChild
  rw [found]
  dsimp only
  rw [if_neg (by simp [live])]
  cases child : s.table.findChild parentId 0 with
  | none => simp [WaitResult.missing]
  | some j =>
      have childOf : s.table.ChildOf parentId j := by
        rcases ProcessTable.findChild_zero_eq_some_iff.mp child with ⟨released, -⟩ | ⟨-, child, -⟩
        · exact released.childOf
        · exact child
      simp only [Option.mem_some_iff, exists_eq_left']
      rw [← ProcessTable.reapable_iff childOf]
      split
      · rename_i collectable
        simp [collectable]
      · rename_i busy
        simp only [busy]
        split
        · simp
        · split
          · simp
          · simp

end System

/-- In every reachable state: a live task that waits for any child collects one
exactly when some collectable child has no released child in a slot before it. -/
theorem waitAny_reaps_iff (ops : List Op) {parentId : Nat} {i : Fin maxTasks}
    (found : (run .boot ops).table.findTask parentId = some i)
    (live : ((run .boot ops).table.task i).live = true) :
    ((run .boot ops).waitChild parentId 0).1.reaped = true ↔
      ∃ j, (run .boot ops).table.Reapable parentId j ∧
        ∀ k < j, ¬ (run .boot ops).table.Released parentId k :=
  (System.waitChild_reaped_iff found live).trans ProcessTable.findChild_zero_reapable_iff

/-- Both children of task 1 have exited. The heap did not take back the memory of the
first; the cleanup of the second was complete. -/
def spoiledRun : List Op :=
  [.spawnElfChild 0 (some someImage) (some 64), .spawnElfChild 1 (some someImage) (some 128),
    .spawnElfChild 1 (some someImage) (some 192), .markExited 2 7 0, .markExited 3 8 0,
    .cleanupTask 2 ⟨false, some (4, 4, true)⟩, .cleanupTask 3 ⟨true, some (4, 4, true)⟩]

/-- The same exits, each with a complete cleanup. -/
def cleanRun : List Op :=
  [.spawnElfChild 0 (some someImage) (some 64), .spawnElfChild 1 (some someImage) (some 128),
    .spawnElfChild 1 (some someImage) (some 192), .markExited 2 7 0, .markExited 3 8 0,
    .cleanupTask 2 ⟨true, some (4, 4, true)⟩, .cleanupTask 3 ⟨true, some (4, 4, true)⟩]

theorem waitAny_reaps_iff_cleanRun :
    ((run .boot cleanRun).waitChild 1 0).1.reaped = true ∧
      (((run .boot cleanRun).waitChild 1 0).1.reaped = true ↔
        ∃ j, (run .boot cleanRun).table.Reapable 1 j ∧
          ∀ k < j, ¬ (run .boot cleanRun).table.Released 1 k) :=
  ⟨by decide +kernel,
    waitAny_reaps_iff cleanRun (i := 0) (by decide +kernel) (by decide +kernel)⟩

/-- A collectable child is not always collected. -/
theorem waitAny_not_reaps :
    ¬ ∀ (ops : List Op) (parentId : Nat) (i : Fin maxTasks),
      (run .boot ops).table.findTask parentId = some i →
      ((run .boot ops).table.task i).live = true →
      (∃ j, (run .boot ops).table.Reapable parentId j) →
      ((run .boot ops).waitChild parentId 0).1.reaped = true := by
  intro claim
  have reaped := claim spoiledRun 1 0 (by decide +kernel) (by decide +kernel) ⟨2, by decide +kernel⟩
  have missed : ((run .boot spoiledRun).waitChild 1 0).1.reaped = false := by decide +kernel
  rw [missed] at reaped
  cases reaped

end CloudOS.Process
