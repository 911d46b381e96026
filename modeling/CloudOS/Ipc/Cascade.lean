import CloudOS.Ipc.Cull

/-!
The revocation loops are culls of exactly the generations below their roots.

`Removes e roots G` says what a finished revocation has achieved: `G` holds
active generations only, contains every active root, is closed under `Child`
and contains nothing that is not below a root. Consecutive revocations compose
(`Removes.union`), which is all the loops need: each iteration contributes one
branch and the next one runs on the culled table.
-/

namespace CloudOS.Ipc

open Lib.Word (satAdd maxWord)
open Lib.Closure

/-! ### Reports -/

namespace RevocationReport

/-- A report after further removals, saturating. -/
def grow (self : RevocationReport) (revoked descendants stripped : Nat) : RevocationReport where
  revoked := satAdd self.revoked revoked
  descendants := satAdd self.descendants descendants
  queuedStripped := satAdd self.queuedStripped stripped

/-- Every field is a 64-bit word. -/
structure Fits (report : RevocationReport) : Prop where
  revoked : report.revoked ≤ maxWord
  descendants : report.descendants ≤ maxWord
  queuedStripped : report.queuedStripped ≤ maxWord

theorem fits_empty : RevocationReport.empty.Fits := ⟨Nat.zero_le _, Nat.zero_le _, Nat.zero_le _⟩

theorem fits_grow (self : RevocationReport) (a b c : Nat) : (self.grow a b c).Fits :=
  ⟨Lib.Word.satAdd_le _ _, Lib.Word.satAdd_le _ _, Lib.Word.satAdd_le _ _⟩

theorem grow_zero {self : RevocationReport} (fits : self.Fits) : self.grow 0 0 0 = self := by
  simp only [grow, Lib.Word.satAdd_zero fits.revoked, Lib.Word.satAdd_zero fits.descendants,
    Lib.Word.satAdd_zero fits.queuedStripped]

theorem grow_grow (self : RevocationReport) (a b c a' b' c' : Nat) :
    (self.grow a b c).grow a' b' c' = self.grow (a + a') (b + b') (c + c') := by
  simp only [grow, Lib.Word.satAdd_satAdd]

end RevocationReport

namespace Endpoints

/-! ### Finished revocations -/

structure Removes (e : Endpoints) (roots : Set Nat) (G : Finset Nat) : Prop where
  active : G ⊆ e.activeGenerations
  roots_mem : ∀ g ∈ roots, g ∈ e.activeGenerations → g ∈ G
  closed : ClosedUnder e.Child (G : Set Nat)
  sound : (G : Set Nat) ⊆ below e.Child roots

theorem Removes.empty (e : Endpoints) {roots : Set Nat}
    (absent : ∀ g ∈ roots, g ∉ e.activeGenerations) : e.Removes roots ∅ where
  active := Finset.empty_subset _
  roots_mem := fun g root active => absurd active (absent g root)
  closed := fun a mem => absurd mem (Finset.notMem_empty a)
  sound := fun a mem => absurd mem (Finset.notMem_empty a)

theorem Removes.disjoint {e : Endpoints} {roots : Set Nat} {G H : Finset Nat}
    (second : (e.cull G).Removes roots H) : Disjoint G H := by
  rw [Finset.disjoint_left]
  intro g inFirst inSecond
  exact (mem_activeGenerations_cull.mp (second.active inSecond)).2 inFirst

/-- Two revocations in a row remove what is below either set of roots. -/
theorem Removes.union {e : Endpoints} {roots roots' : Set Nat} {G H : Finset Nat}
    (first : e.Removes roots G) (second : (e.cull G).Removes roots' H) :
    e.Removes (roots ∪ roots') (G ∪ H) where
  active := by
    intro g mem
    rcases Finset.mem_union.mp mem with mem | mem
    · exact first.active mem
    · exact (mem_activeGenerations_cull.mp (second.active mem)).1
  roots_mem := by
    intro g root active
    rw [Finset.mem_union]
    by_cases gone : g ∈ G
    · exact Or.inl gone
    · rcases root with root | root
      · exact Or.inl (first.roots_mem g root active)
      · exact Or.inr (second.roots_mem g root (mem_activeGenerations_cull.mpr ⟨active, gone⟩))
  closed := by
    intro a mem b child
    rw [Finset.mem_coe, Finset.mem_union] at mem ⊢
    by_cases gone : b ∈ G
    · exact Or.inl gone
    · rcases mem with mem | mem
      · exact Or.inl (first.closed a mem b child)
      · exact Or.inr (second.closed a mem b (child_cull.mpr ⟨child, gone⟩))
  sound := by
    intro g mem
    rw [Finset.mem_coe, Finset.mem_union] at mem
    rcases mem with mem | mem
    · exact below_mono (fun _ _ child => child) Set.subset_union_left (first.sound mem)
    · exact below_mono (fun _ _ child => (child_cull.mp child).1) Set.subset_union_right
        (second.sound mem)

/-- The roots may grow by anything that the removed set already covers. -/
theorem Removes.of_roots {e : Endpoints} {roots roots' : Set Nat} {G : Finset Nat}
    (removes : e.Removes roots G) (sub : roots ⊆ roots')
    (cover : ∀ g ∈ roots', g ∈ e.activeGenerations → g ∈ G) : e.Removes roots' G where
  active := removes.active
  roots_mem := cover
  closed := removes.closed
  sound := fun _ mem => below_mono (fun _ _ child => child) sub (removes.sound mem)

/-- A branch: its root first, then everything below the root's children. -/
theorem Removes.branch {e : Endpoints} {generation : Nat} {G : Finset Nat}
    (root : generation ∈ e.activeGenerations)
    (rest : (e.cull {generation}).Removes {b | (e.cull {generation}).Child generation b} G) :
    e.Removes {generation} ({generation} ∪ G) where
  active := by
    intro g mem
    rcases Finset.mem_union.mp mem with mem | mem
    · rwa [Finset.mem_singleton.mp mem]
    · exact (mem_activeGenerations_cull.mp (rest.active mem)).1
  roots_mem := fun g mem _ => Finset.mem_union_left _ (Finset.mem_singleton.mpr mem)
  closed := by
    intro a mem b child
    rw [Finset.mem_coe, Finset.mem_union] at mem ⊢
    by_cases isRoot : b ∈ ({generation} : Finset Nat)
    · exact Or.inl isRoot
    · have child' := child_cull.mpr ⟨child, isRoot⟩
      rcases mem with mem | mem
      · rw [Finset.mem_singleton.mp mem] at child'
        exact Or.inr (rest.roots_mem b child' child'.mem_activeGenerations)
      · exact Or.inr (rest.closed a mem b child')
  sound := by
    intro g mem
    rw [Finset.mem_coe, Finset.mem_union] at mem
    rcases mem with mem | mem
    · exact ⟨generation, rfl, Finset.mem_singleton.mp mem ▸ .refl⟩
    · obtain ⟨b, child, path⟩ := rest.sound mem
      refine ⟨generation, rfl, .head (child_cull.mp child).1 ?_⟩
      exact Relation.ReflTransGen.mono (fun _ _ edge => (child_cull.mp edge).1) b g path

/-- From active roots, the generations removed are those below them. -/
theorem Removes.eq_below {e : Endpoints} {roots : Set Nat} {G : Finset Nat}
    (removes : e.Removes roots G) (active : ∀ g ∈ roots, g ∈ e.activeGenerations) :
    (G : Set Nat) = below e.Child roots :=
  Lib.Closure.eq_below (fun g root => removes.roots_mem g root (active g root)) removes.closed
    removes.sound

/-! ### The recursion -/

theorem removeGeneration_eq_none {e : Endpoints} {generation : Nat} :
    e.removeGeneration generation = none ↔ generation ∉ e.activeGenerations := by
  simp [removeGeneration, findPosition_eq_none, mem_activeGenerations]

/-- What a call of `revoke_branch` and of its loop does, by one induction on
the bound. The root of a branch counts as a descendant only when the caller
says so; everything below it always does. -/
theorem revokeBranch_spec (bound : Nat) :
    (∀ {e e' : Endpoints} {generation : Nat} {descendant : Bool} {report report' : RevocationReport},
      e.GenerationsUnique → report.Fits →
      revokeBranch bound e generation descendant report = some (e', report') →
      ∃ G, e' = e.cull G ∧ e.Removes {generation} G ∧
        report' = report.grow G.card (if descendant then G.card else (G.erase generation).card)
          (e.strippedCount G)) ∧
    (∀ {e e' : Endpoints} {generation : Nat} {report report' : RevocationReport},
      e.GenerationsUnique → report.Fits →
      revokeWhileChild bound e generation report = some (e', report') →
      ∃ G, e' = e.cull G ∧ e.Removes {b | e.Child generation b} G ∧
        report' = report.grow G.card G.card (e.strippedCount G)) := by
  induction bound with
  | zero =>
      constructor
      · intro e e' generation descendant report report' _ _ run
        simp [revokeBranch] at run
      · intro e e' generation report report' _ _ run
        simp [revokeWhileChild] at run
  | succ bound ih =>
      obtain ⟨ihBranch, ihLoop⟩ := ih
      constructor
      · intro e e' generation descendant report report' unique fits run
        rw [revokeBranch] at run
        cases found : e.removeGeneration generation with
        | none =>
            simp only [found, Option.some.injEq, Prod.mk.injEq] at run
            obtain ⟨rfl, rfl⟩ := run
            refine ⟨∅, e.cull_empty.symm, .empty e ?_, ?_⟩
            · rintro g rfl
              exact removeGeneration_eq_none.mp found
            · simp [strippedCount_empty, RevocationReport.grow_zero fits]
        | some removed =>
            obtain ⟨stripped, active⟩ := removeGeneration_strip unique found
            simp only [found, stripped] at run
            have start : ({ revoked := satAdd report.revoked 1
                            descendants := if descendant = true then satAdd report.descendants 1
                              else report.descendants
                            queuedStripped := satAdd report.queuedStripped
                              (satAdd 0 (e.strippedCount {generation})) } : RevocationReport) =
                report.grow 1 (if descendant then 1 else 0) (e.strippedCount {generation}) := by
              rw [Lib.Word.satAdd_satAdd_right, Nat.zero_add]
              cases descendant with
              | true => rfl
              | false => simp [RevocationReport.grow, Lib.Word.satAdd_zero fits.descendants]
            rw [start] at run
            obtain ⟨G, rfl, removes, rfl⟩ :=
              ihLoop (unique.cull _) (RevocationReport.fits_grow _ _ _ _) run
            have apart : Disjoint {generation} G := removes.disjoint
            refine ⟨{generation} ∪ G, cull_union _ _ _, removes.branch active, ?_⟩
            rw [RevocationReport.grow_grow, Finset.card_union_of_disjoint apart,
              strippedCount_union, Finset.card_singleton]
            congr 1
            cases descendant with
            | true => rfl
            | false =>
                have absent : generation ∉ G := Finset.disjoint_singleton_left.mp apart
                simp [Finset.erase_eq_of_notMem absent]
      · intro e e' generation report report' unique fits run
        rw [revokeWhileChild] at run
        cases found : e.findChildGeneration generation with
        | none =>
            simp only [found, Option.some.injEq, Prod.mk.injEq] at run
            obtain ⟨rfl, rfl⟩ := run
            refine ⟨∅, e.cull_empty.symm, .empty e ?_, ?_⟩
            · rintro b ⟨q, active, parent, -⟩
              exact absurd parent (findChildGeneration_eq_none.mp found q active)
            · simp [strippedCount_empty, RevocationReport.grow_zero fits]
        | some child =>
            simp only [found] at run
            cases branch : revokeBranch bound e child true report with
            | none => simp [branch] at run
            | some result =>
                obtain ⟨e₁, report₁⟩ := result
                simp only [branch] at run
                obtain ⟨G, rfl, first, rfl⟩ := ihBranch unique fits branch
                obtain ⟨H, rfl, rest, rfl⟩ :=
                  ihLoop (unique.cull _) (RevocationReport.fits_grow _ _ _ _) run
                refine ⟨G ∪ H, cull_union _ _ _, (first.union rest).of_roots ?_ ?_, ?_⟩
                · rintro b (rfl | childOfRest)
                  · obtain ⟨q, active, parent, generation⟩ := findChildGeneration_eq_some found
                    exact ⟨q, active, parent, generation⟩
                  · exact (child_cull.mp childOfRest).1
                · intro b isChild active
                  rw [Finset.mem_union]
                  by_cases gone : b ∈ G
                  · exact Or.inl gone
                  · exact Or.inr (rest.roots_mem b (child_cull.mpr ⟨isChild, gone⟩)
                      (mem_activeGenerations_cull.mpr ⟨active, gone⟩))
                · rw [if_pos rfl, RevocationReport.grow_grow,
                    Finset.card_union_of_disjoint rest.disjoint, strippedCount_union]

/-! ### The callers -/

theorem card_le_of_subset_activeGenerations {e : Endpoints} {G : Finset Nat}
    (active : G ⊆ e.activeGenerations) : G.card ≤ 64 := by
  calc G.card ≤ e.activeGenerations.card := Finset.card_le_card active
    _ ≤ e.activePositions.card := Finset.card_image_le
    _ ≤ Fintype.card Position := Finset.card_le_univ _
    _ = 64 := by simp [Fintype.card_prod, maxEndpoints, maxCapabilitiesPerEndpoint]

theorem strippedCount_le (G : Finset Nat) (e : Endpoints) : e.strippedCount G ≤ 64 := by
  calc e.strippedCount G ≤ ∑ _i : Fin maxEndpoints, queueDepth := by
        refine Finset.sum_le_sum fun i _ => ?_
        exact (Finset.card_le_univ _).trans_eq (Fintype.card_fin _)
    _ = 64 := by simp [maxEndpoints, queueDepth]

/-- A report that started empty counts exactly: the table is far too small to
saturate a counter. -/
theorem Removes.grow_empty {e : Endpoints} {roots : Set Nat} {G : Finset Nat}
    (removes : e.Removes roots G) {descendants : Nat} (few : descendants ≤ G.card) :
    RevocationReport.empty.grow G.card descendants (e.strippedCount G) =
      ⟨G.card, descendants, e.strippedCount G⟩ := by
  have cardinality := card_le_of_subset_activeGenerations removes.active
  have stripped := strippedCount_le G e
  simp only [RevocationReport.grow, RevocationReport.empty]
  rw [Lib.Word.satAdd_of_le, Lib.Word.satAdd_of_le, Lib.Word.satAdd_of_le] <;>
    simp only [Nat.zero_add, maxWord] <;> omega

/-- A revoked generation goes with everything derived from it, and the report counts both. -/
theorem revokeGeneration_spec {e : Endpoints} (unique : e.GenerationsUnique) (generation : Nat) :
    ∃ G, e.Removes {generation} G ∧
      e.revokeGeneration generation =
        (e.cull G, ⟨G.card, (G.erase generation).card, e.strippedCount G⟩) := by
  have run : revokeBranch (2 * e.activeCount + 1) e generation false .empty =
      some (e.revokeGeneration generation) := (Option.some_get _).symm
  obtain ⟨G, table, removes, report⟩ :=
    (revokeBranch_spec _).1 unique RevocationReport.fits_empty run
  refine ⟨G, removes, Prod.ext table (report.trans ?_)⟩
  exact removes.grow_empty Finset.card_erase_le

theorem revokeChildren_spec {e : Endpoints} (unique : e.GenerationsUnique) (generation : Nat) :
    ∃ G, e.Removes {b | e.Child generation b} G ∧
      e.revokeChildren generation = (e.cull G, ⟨G.card, G.card, e.strippedCount G⟩) := by
  have run : revokeWhileChild (2 * e.activeCount + 1) e generation .empty =
      some (e.revokeChildren generation) := (Option.some_get _).symm
  obtain ⟨G, table, removes, report⟩ :=
    (revokeBranch_spec _).2 unique RevocationReport.fits_empty run
  exact ⟨G, removes, Prod.ext table (report.trans (removes.grow_empty le_rfl))⟩

/-- A `while let` loop over a scan that finds an active capability satisfying
`P` until there is none: it removes everything below those capabilities. -/
theorem revokeWhile_spec {P : Position → Capability → Prop} {pick : Endpoints → Option Nat}
    (found : ∀ e generation, pick e = some generation →
      ∃ q, (e.capability q).active = true ∧ P q (e.capability q) ∧
        (e.capability q).generation = generation)
    (exhausted : ∀ e, pick e = none →
      ∀ q, (e.capability q).active = true → ¬ P q (e.capability q))
    (bound : Nat) {e e' : Endpoints} {report report' : RevocationReport}
    (unique : e.GenerationsUnique) (run : revokeWhile pick bound e report = some (e', report')) :
    ∃ G, e' = e.cull G ∧ e.Removes
      {g | ∃ q, (e.capability q).active = true ∧ P q (e.capability q) ∧
        (e.capability q).generation = g} G := by
  induction bound generalizing e report with
  | zero => simp [revokeWhile] at run
  | succ bound ih =>
      rw [revokeWhile] at run
      cases picked : pick e with
      | none =>
          simp only [picked, Option.some.injEq, Prod.mk.injEq] at run
          obtain ⟨rfl, -⟩ := run
          refine ⟨∅, e.cull_empty.symm, .empty e ?_⟩
          rintro g ⟨q, active, holds, -⟩
          exact absurd holds (exhausted e picked q active)
      | some generation =>
          obtain ⟨G, first, revoked⟩ := revokeGeneration_spec unique generation
          simp only [picked, revoked] at run
          obtain ⟨H, rfl, rest⟩ := ih (unique.cull G) run
          refine ⟨G ∪ H, cull_union _ _ _, (first.union rest).of_roots ?_ ?_⟩
          · rintro g (rfl | ⟨q, active, holds, rfl⟩)
            · exact found e _ picked
            · rw [capability_cull_of_active active] at holds ⊢
              exact ⟨q, (active_cull.mp active).1, holds, rfl⟩
          · rintro g ⟨q, active, holds, rfl⟩ isActive
            rw [Finset.mem_union]
            by_cases gone : (e.capability q).generation ∈ G
            · exact Or.inl gone
            · have active' := active_cull.mpr ⟨active, gone⟩
              refine Or.inr (rest.roots_mem _ ⟨q, active', ?_, ?_⟩
                (mem_activeGenerations_cull.mpr ⟨isActive, gone⟩))
              · rwa [capability_cull_of_active active']
              · rw [capability_cull_of_active active']

/-- All capabilities that an endpoint holds go, with everything derived from them. -/
theorem revokeHeld_spec {e : Endpoints} (unique : e.GenerationsUnique)
    (index : Fin maxEndpoints) (report : RevocationReport) :
    ∃ G, (e.revokeHeld index report).1 = e.cull G ∧ e.Removes
      {g | ∃ q, (e.capability q).active = true ∧ q.1 = index ∧
        (e.capability q).generation = g} G := by
  have run : revokeWhile (findHeldGeneration index) (e.activeCount + 1) e report =
      some (e.revokeHeld index report) := (Option.some_get _).symm
  refine revokeWhile_spec (P := fun q _ => q.1 = index) ?_ ?_ _ unique run
  · intro e generation found
    obtain ⟨slot, active, same⟩ := findHeldGeneration_eq_some found
    exact ⟨(index, slot), active, rfl, same⟩
  · rintro e none ⟨i, slot⟩ active rfl
    rw [findHeldGeneration_eq_none.mp none slot] at active
    cases active

/-- All capabilities that name a task go, with everything derived from them. -/
theorem revokeTargeting_spec {e : Endpoints} (unique : e.GenerationsUnique) (target : Nat)
    (report : RevocationReport) :
    ∃ G, (e.revokeTargeting target report).1 = e.cull G ∧ e.Removes
      {g | ∃ q, (e.capability q).active = true ∧ (e.capability q).target = target ∧
        (e.capability q).generation = g} G := by
  have run : revokeWhile (·.findTargetGeneration target) (e.activeCount + 1) e report =
      some (e.revokeTargeting target report) := (Option.some_get _).symm
  refine revokeWhile_spec (P := fun _ c => c.target = target) ?_ ?_ _ unique run
  · intro e generation found
    exact findTargetGeneration_eq_some found
  · intro e none q active
    exact findTargetGeneration_eq_none.mp none q active

/-- The generations that `unregister` starts from. -/
def retiring (e : Endpoints) (taskId : Nat) (index : Fin maxEndpoints) : Set Nat :=
  {g | ∃ q, (e.capability q).active = true ∧ (q.1 = index ∨ (e.capability q).target = taskId) ∧
    (e.capability q).generation = g}

/-- The two loops of `unregister`, one after the other. -/
theorem retire_spec {e : Endpoints} (unique : e.GenerationsUnique) (taskId : Nat)
    (index : Fin maxEndpoints) :
    ∃ G, e.Removes (e.retiring taskId index) G ∧
      ((e.revokeHeld index .empty).1.revokeTargeting taskId (e.revokeHeld index .empty).2).1 =
        e.cull G := by
  obtain ⟨G, heldTable, held⟩ := revokeHeld_spec unique index .empty
  obtain ⟨H, targetTable, targeting⟩ :=
    revokeTargeting_spec (unique.cull G) taskId (e.revokeHeld index .empty).2
  refine ⟨G ∪ H, (held.union targeting).of_roots ?_ ?_, ?_⟩
  · rintro g (⟨q, active, here, rfl⟩ | ⟨q, active, aimed, rfl⟩)
    · exact ⟨q, active, Or.inl here, rfl⟩
    · rw [capability_cull_of_active active] at aimed ⊢
      exact ⟨q, (active_cull.mp active).1, Or.inr aimed, rfl⟩
  · rintro g ⟨q, active, which, rfl⟩ isActive
    rw [Finset.mem_union]
    by_cases gone : (e.capability q).generation ∈ G
    · exact Or.inl gone
    · rcases which with here | aimed
      · exact Or.inl (held.roots_mem _ ⟨q, active, here, rfl⟩ isActive)
      · have active' := active_cull.mpr ⟨active, gone⟩
        have same := capability_cull_of_active active'
        refine Or.inr (targeting.roots_mem _ ⟨q, active', ?_, ?_⟩
          (mem_activeGenerations_cull.mpr ⟨isActive, gone⟩))
        · rwa [same]
        · rw [same]
  · rw [heldTable, targetTable, cull_union]

end Endpoints

end CloudOS.Ipc
