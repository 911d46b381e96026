import CloudOS.Kernel.Custody

/-!
What others do does not reach a task.

Between a spawn and the cleanup of a task anything may happen: other tasks are spawned
and cleaned up, store into their pages, send and receive. As long as no step is one of
the task itself or stores on its behalf, its space grants what it granted and every byte
in it is what it was.
-/

namespace CloudOS.Kernel

open Lib.Word (maxWord)
open CloudOS.Paging (AddressSpace Laid Machine apart_of_ne pageSize4k)
open CloudOS.PhysMem (FrameSource)
open CloudOS.Process (Task maxTasks)

variable {source : FrameSource} {p : Platform} {k k' k'' : KernelState source} {i j : Fin maxTasks}

/-- The task in slot `i` has what it had, and its frames hold the same bytes. -/
structure Undisturbed (k : KernelState source) (i : Fin maxTasks) (k' : KernelState source) :
    Prop where
  holding : (k.system.table.task i).SameHolding (k'.system.table.task i)
  space : k'.addressSpace i = k.addressSpace i
  memory : ∀ frame ∈ (k.addressSpace i).frames, ∀ a, frame ≤ a → a < frame + pageSize4k →
    k'.machine.memory a = k.machine.memory a

namespace Undisturbed

theorem refl (k : KernelState source) (i : Fin maxTasks) : Undisturbed k i k :=
  ⟨.refl _, rfl, fun _ _ _ _ _ => rfl⟩

theorem trans (first : Undisturbed k i k') (second : Undisturbed k' i k'') :
    Undisturbed k i k'' where
  holding := first.holding.trans second.holding
  space := second.space.trans first.space
  memory := fun frame mem a from_ below => by
    have mem' : frame ∈ (k'.addressSpace i).frames := by rwa [first.space]
    exact (second.memory frame mem' a from_ below).trans (first.memory frame mem a from_ below)

end Undisturbed

/-- A slot with resources is not the one that a spawn fills. -/
theorem Grounded.ne_of_free (grounded : Grounded p k) (lodging : k.system.Lodging)
    (active : (k.addressSpace i).active = true) (free : k.system.table.freeSlot = some j) :
    i ≠ j := by
  rintro rfl
  have inactive := lodging.inactive free
  rw [((grounded.active i).mp active).1] at inactive
  cases inactive

/-- What happens in frames that are not those of the space leaves its bytes alone. -/
theorem Grounded.untouched (grounded : Grounded p k) {own : Nat → Prop} {machine : Machine source}
    (confined : Paging.Confined own k.machine machine)
    (active : (k.addressSpace i).active = true)
    (apart : ∀ frame ∈ (k.addressSpace i).frames, ¬ own frame) :
    ∀ frame ∈ (k.addressSpace i).frames, ∀ a, frame ≤ a → a < frame + pageSize4k →
      machine.memory a = k.machine.memory a := by
  intro frame mem a from_ below
  obtain ⟨lowP3, userP2, p1s, housed⟩ := grounded.housed active
  exact confined.untouched frame a (housed.owns.laid.isFrame frame mem).aligned
    (housed.owns.held frame mem) (apart frame mem) from_ below

/-- A store for another task is in other frames. -/
theorem Pokes.elsewhere {memory : Lib.Store.Memory} (pokes : Pokes k j memory)
    (grounded : Grounded p k) (active : (k.addressSpace i).active = true) (ne : i ≠ j) :
    ∀ frame ∈ (k.addressSpace i).frames, ∀ a, frame ≤ a → a < frame + pageSize4k →
      memory a = k.machine.memory a := by
  intro frame mem a from_ below
  by_contra changed
  obtain ⟨page, memP, from', below'⟩ := pokes.only a changed
  obtain ⟨lowI, userI, p1sI, housedI⟩ := grounded.housed active
  obtain ⟨lowJ, userJ, p1sJ, housedJ⟩ := grounded.housed pokes.active
  have memJ := Laid.mem_frames_of_page memP
  have different : page.frame ≠ frame := fun same =>
    grounded.disjoint ne active pokes.active frame mem (same ▸ memJ)
  have apart := apart_of_ne (housedJ.owns.laid.isFrame _ memJ).aligned
    (housedI.owns.laid.isFrame _ mem).aligned different from' below'
  omega

/-- No step disturbs a task that it does not serve. -/
theorem Stepped.undisturbed {op : Op} (stepped : Stepped p k op k') (grounded : Grounded p k)
    (lodging : k.system.Lodging) (active : (k.addressSpace i).active = true)
    (other : op.client k ≠ some i) : Undisturbed k i k' := by
  cases stepped with
  | spawn _ spawns =>
      have spawns := spawns p.fits
      revert spawns
      generalize spawned p k op = result
      intro spawns
      cases spawns with
      | failed unspawned _ _ undone =>
          refine ⟨?_, rfl, grounded.untouched undone.apart active fun _ _ => not_false⟩
          have same : ∀ {system : Process.System}, system.table.slots = k.system.table.slots →
              (k.system.table.task i).SameHolding (system.table.task i) := by
            intro system slots
            rw [Process.ProcessTable.task, Process.ProcessTable.task, slots]
            exact .refl _
          exact same unspawned.slots
      | @filled image space system heap machine index slot address provided _ _ free _ slots =>
          have ne := grounded.ne_of_free lodging active free
          have tasks : system.table.task = Function.update k.system.table.task index slot.task :=
            Process.ProcessTable.task_of_slots slots
          refine ⟨?_, Function.update_of_ne ne .., grounded.untouched provided.takes.1 active
            fun _ _ => not_false⟩
          dsimp only
          rw [tasks, Function.update_of_ne ne]
          exact .refl _
  | @retire _ _ j _ client _ retires =>
      have ne : i ≠ j := by
        rintro rfl
        exact other client
      refine ⟨?_, retires.spaces i ne, grounded.untouched retires.confined active
        fun frame mem mine => ?_⟩
      · rw [retires.others i ne]
        exact .refl _
      · obtain ⟨activeJ, memJ⟩ := mem_holdings.mp mine
        exact grounded.disjoint ne active activeJ frame mem memJ
  | @collect system j holding inactive =>
      have ne : i ≠ j := by
        rintro rfl
        rw [active] at inactive
        cases inactive
      exact ⟨holding i, Function.update_of_ne ne .., fun _ _ _ _ _ => rfl⟩
  | store holding writes =>
      rcases writes with rfl | ⟨j, client, pokes⟩
      · exact ⟨holding i, rfl, fun _ _ _ _ _ => rfl⟩
      · have ne : i ≠ j := by
          rintro rfl
          exact other client
        exact ⟨holding i, rfl, pokes.elsewhere grounded active ne⟩

/-! ### Runs -/

/-- No step of the run is one for the task in slot `i`. -/
def Bystander (p : Platform) (i : Fin maxTasks) : KernelState source → List Op → Prop
  | _, [] => True
  | k, op :: ops => op.client k ≠ some i ∧ Bystander p i (step p k op) ops

instance decidableBystander (p : Platform) (i : Fin maxTasks) :
    (k : KernelState source) → (ops : List Op) → Decidable (Bystander p i k ops)
  | _, [] => isTrue trivial
  | k, op :: ops =>
      have := decidableBystander p i (step p k op) ops
      inferInstanceAs (Decidable (op.client k ≠ some i ∧ Bystander p i (step p k op) ops))

/-- By induction over the steps of the others. -/
theorem Bystander.undisturbed {ops : List Op} (bystander : Bystander p i k ops) {issued : Nat}
    (sound : Sound p k issued) (aligned : p.EntryAligned) (few : issued + spawnCount ops ≤ maxWord)
    (active : (k.addressSpace i).active = true) : Undisturbed k i (run p k ops) := by
  induction ops generalizing k issued with
  | nil => exact .refl k i
  | cons op ops ih =>
      obtain ⟨other, rest⟩ := bystander
      have count : spawnCount (op :: ops) = spawnCount ops + if op.spawns then 1 else 0 :=
        List.countP_cons
      rw [count] at few
      have stepped := step_stepped sound.grounded sound.lodging sound.registered aligned op
      have first := stepped.undisturbed sound.grounded sound.lodging active other
      obtain ⟨issued', le, sound'⟩ := step_sound sound aligned op fun spawns => by
        rw [spawns, if_pos rfl] at few
        omega
      refine first.trans (ih rest sound' (by omega) ?_)
      rw [first.space]
      exact active

/-- A space that has the same frames with the same bytes grants the same. -/
theorem Undisturbed.grants (undisturbed : Undisturbed k i k') (grounded : Grounded p k)
    (grounded' : Grounded p k') (active : (k.addressSpace i).active = true) :
    (∀ writable virt, (k'.addressSpace i).Grants k'.machine.memory writable virt ↔
      (k.addressSpace i).Grants k.machine.memory writable virt) ∧
    ∀ virt, (k.addressSpace i).Grants k.machine.memory false virt →
      (k'.addressSpace i).physOf k'.machine.memory virt =
        (k.addressSpace i).physOf k.machine.memory virt ∧
      k'.machine.memory ((k'.addressSpace i).physOf k'.machine.memory virt) =
        k.machine.memory ((k.addressSpace i).physOf k.machine.memory virt) := by
  have active' : (k'.addressSpace i).active = true := by rwa [undisturbed.space]
  obtain ⟨lowP3, userP2, p1s, housed⟩ := grounded.housed active
  obtain ⟨lowP3', userP2', p1s', housed'⟩ := grounded'.housed active'
  rw [undisturbed.space] at housed' ⊢
  refine ⟨fun writable virt => ?_, fun virt grants => ?_⟩
  · rw [housed'.grants_iff, housed.grants_iff]
  · have inSlot := housed.secluded.inUserSlot housed.owns.laid grants
    have phys : (k.addressSpace i).physOf k'.machine.memory virt =
        (k.addressSpace i).physOf k.machine.memory virt := by
      rw [AddressSpace.physOf_mod, AddressSpace.physOf, AddressSpace.physOf_mod,
        AddressSpace.physOf, housed'.owns.translate active housed'.positive inSlot,
        housed.owns.translate active housed.positive inSlot]
    refine ⟨phys, ?_⟩
    obtain ⟨page, recorded, place⟩ := housed.page_of_grants grants
    have offset := Nat.mod_lt (virt % 2 ^ 48) (show 0 < pageSize4k by decide)
    rw [phys]
    exact undisturbed.memory page.frame (Laid.mem_frames_of_page recorded.mem) _ (by omega)
      (by omega)

/-- Whatever others do, a task that has a space keeps it, with the same grants and the same
bytes behind them. -/
theorem bystander_undisturbed (starts : Starts p k) (aligned : p.EntryAligned)
    (before ops : List Op) (few : spawnCount (before ++ ops) ≤ maxWord)
    (active : ((run p k before).addressSpace i).active = true)
    (bystander : Bystander p i (run p k before) ops) :
    let k₁ := run p k before
    let k₂ := run p k₁ ops
    Undisturbed k₁ i k₂ ∧
    (∀ writable virt, (k₂.addressSpace i).Grants k₂.machine.memory writable virt ↔
      (k₁.addressSpace i).Grants k₁.machine.memory writable virt) ∧
    ∀ virt, (k₁.addressSpace i).Grants k₁.machine.memory false virt →
      (k₂.addressSpace i).physOf k₂.machine.memory virt =
        (k₁.addressSpace i).physOf k₁.machine.memory virt ∧
      k₂.machine.memory ((k₂.addressSpace i).physOf k₂.machine.memory virt) =
        k₁.machine.memory ((k₁.addressSpace i).physOf k₁.machine.memory virt) := by
  rw [spawnCount, List.countP_append, ← spawnCount, ← spawnCount] at few
  obtain ⟨issued, le, sound⟩ := starts.run_sound aligned before (by omega)
  obtain ⟨issued', -, sound'⟩ := run_sound sound aligned ops (by omega)
  have undisturbed := bystander.undisturbed sound aligned (by omega) active
  exact ⟨undisturbed, undisturbed.grants sound.grounded sound'.grounded active⟩

/-- A second task is spawned, runs, stores into its stack and is cleaned up. -/
def neighbourRun : List Op :=
  [.spawnElfChild 0, .table (.markRunning 2 0) rfl, .userStore 0x40201010 7,
    .table (.markExited 2 0 0) rfl, .cleanupTask 2]

theorem bystander_undisturbed_neighbourRun :
    Undisturbed (run smallPlatform smallKernel [.spawnElfChild 0]) 0
      (run smallPlatform (run smallPlatform smallKernel [.spawnElfChild 0]) neighbourRun) := by
  have bystander : Bystander smallPlatform 0 (run smallPlatform smallKernel [.spawnElfChild 0])
      neighbourRun := by
    decide +kernel
  exact (bystander_undisturbed smallKernel_starts smallPlatform_aligned [.spawnElfChild 0]
    neighbourRun (by decide) (by decide +kernel) bystander).1

end CloudOS.Kernel
