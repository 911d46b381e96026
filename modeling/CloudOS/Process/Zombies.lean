import CloudOS.Process.Collect
import CloudOS.Process.Lodging

/-!
Slots that are never free again.

`free_slot` takes an exited task out of its slot only when it never had a parent;
every other one waits for its parent to collect it. So a task that exits before its
children leaves them where nobody can remove them. While no task does, every slot
comes back, and with it an endpoint.
-/

namespace CloudOS.Process

open Lib.Word (maxWord)
open Lib.Scan (first_eq_none)

/-! ### Free slots and zombies -/

namespace ProcessTable

/-- `free_slot` can hand the slot out. -/
def Reusable (t : ProcessTable) (i : Fin maxTasks) : Prop :=
  (t.task i).state = .empty ∨
    ((t.task i).state = .exited ∧ (t.task i).resourcesActive = false ∧ (t.task i).parentId = 0)

/-- The parent id belongs to no task, or to an exited one. -/
def Orphan (t : ProcessTable) (i : Fin maxTasks) : Prop :=
  ∀ j, (t.task j).live = true → (t.task j).id ≠ (t.task i).parentId

/-- Exited and cleaned up. -/
def Finished (t : ProcessTable) (i : Fin maxTasks) : Prop :=
  (t.task i).state = .exited ∧ (t.task i).resourcesActive = false

/-- The slots of finished orphans can be handed out again. -/
def NoZombies (t : ProcessTable) : Prop :=
  ∀ i, t.Finished i → t.Orphan i → t.Reusable i

variable {t : ProcessTable}

instance (i : Fin maxTasks) : Decidable (t.Reusable i) := inferInstanceAs (Decidable (_ ∨ _ ∧ _ ∧ _))

instance (i : Fin maxTasks) : Decidable (t.Orphan i) := inferInstanceAs (Decidable (∀ _, _))

instance (i : Fin maxTasks) : Decidable (t.Finished i) := inferInstanceAs (Decidable (_ ∧ _))

instance : Decidable t.NoZombies := inferInstanceAs (Decidable (∀ _, _))

theorem reusable_iff {i : Fin maxTasks} :
    ((t.task i).state == .empty || ((t.task i).state == .exited && !(t.task i).resourcesActive
      && (t.task i).parentId == 0)) = true ↔ t.Reusable i := by
  simp only [Bool.or_eq_true, Bool.and_eq_true, beq_iff_eq, Bool.not_eq_true', Reusable, and_assoc]

theorem freeSlot_isSome {i : Fin maxTasks} (reusable : t.Reusable i) : t.freeSlot.isSome = true := by
  by_contra missing
  have none := first_eq_none.mp (Option.not_isSome_iff_eq_none.mp missing) i
  rw [reusable_iff.mpr reusable] at none
  cases none

/-- Every task with a parent has a living one. -/
def Fostered (t : ProcessTable) : Prop :=
  ∀ i, (t.task i).state ≠ .empty → (t.task i).parentId ≠ 0 →
    ∃ j, (t.task j).live = true ∧ (t.task j).id = (t.task i).parentId

theorem Fostered.noZombies (fostered : t.Fostered) : t.NoZombies := by
  intro i finished orphan
  refine Or.inr ⟨finished.1, finished.2, ?_⟩
  by_contra parent
  obtain ⟨j, live, isParent⟩ := fostered i (by simp [finished.1]) parent
  exact orphan j live isParent

end ProcessTable

/-! ### Orderly runs -/

/-- If the operation ends a task, all its children have been collected. -/
def Op.Orderly (s : System) : Op → Prop
  | markExited id _ _ => ∀ k ∈ s.table.findTask id, ∀ i, ¬ s.table.ChildOf (s.table.task k).id i
  | _ => True

instance Op.decidableOrderly (s : System) : (op : Op) → Decidable (op.Orderly s)
  | markExited id _ _ => inferInstanceAs (Decidable (∀ k ∈ s.table.findTask id, ∀ i,
      ¬ s.table.ChildOf (s.table.task k).id i))
  | spawnElfChild .. | spawnPreemptTask .. | spawnLegacy .. | grant .. | markRunning ..
  | cleanupTask .. | waitChild .. | send .. | receive .. | syscall .. | startPreemptionTest
  | stopPreemptionTest .. | timer .. => inferInstanceAs (Decidable True)

/-- Every operation is orderly when it is made. -/
def OrderlyRun (s : System) : List Op → Prop
  | [] => True
  | op :: ops => op.Orderly s ∧ OrderlyRun (step s op) ops

instance decidableOrderlyRun : (s : System) → (ops : List Op) → Decidable (OrderlyRun s ops)
  | _, [] => inferInstanceAs (Decidable True)
  | s, op :: ops =>
      have := decidableOrderlyRun (step s op) ops
      inferInstanceAs (Decidable (op.Orderly s ∧ OrderlyRun (step s op) ops))

/-- Only an exit reports one. -/
theorem System.event_exited {s : System} {op : Op} {id exitCode : Nat}
    (exits : s.event op = some (.exited id exitCode)) :
    ∃ syscallsAfter, op = .markExited id exitCode syscallsAfter := by
  unfold System.event at exits
  split at exits
  · rename_i id' exitCode' syscallsAfter
    split at exits
    · cases exits
      exact ⟨syscallsAfter, rfl⟩
    · cases exits
  · split at exits
    · cases exits
    · cases exits
  · dsimp only at exits
    split at exits
    · cases exits
    · cases exits
  · obtain ⟨task, -, isSpawn⟩ := Option.map_eq_some_iff.mp exits
    cases isSpawn

/-- The parents of the tasks are still alive after a step that ends no parent. -/
theorem ProcessTable.Fostered.congr {t t' : ProcessTable} (fostered : t.Fostered)
    (kept : ∀ i, (t'.task i).state ≠ .empty → (t'.task i).parentId ≠ 0 →
      (t.task i).state ≠ .empty ∧ (t'.task i).parentId = (t.task i).parentId)
    (alive : ∀ j, (t.task j).live = true → (∃ i, t.ChildOf (t.task j).id i) →
      (t'.task j).live = true ∧ (t'.task j).id = (t.task j).id) : t'.Fostered := by
  intro i occupied parent
  obtain ⟨occupied', same⟩ := kept i occupied parent
  obtain ⟨j, live, isParent⟩ := fostered i occupied' (same ▸ parent)
  obtain ⟨live', id⟩ := alive j live ⟨i, occupied', isParent.symm⟩
  exact ⟨j, live', id.trans (isParent.trans same.symm)⟩

theorem System.Continues.fostered {s s' : System} (continues : s.Continues s')
    (fostered : s.table.Fostered) : s'.table.Fostered :=
  fostered.congr
    (fun i occupied _ =>
      ⟨fun empty => occupied ((continues i).empty.mpr empty), (continues i).parent⟩)
    (fun j live _ => ⟨(continues j).live live, (continues j).id⟩)

/-- What one orderly operation preserves. -/
theorem step_fostered {s : System} (fostered : s.table.Fostered) {op : Op}
    (orderly : op.Orderly s) : (step s op).table.Fostered := by
  have account := s.step_account op
  generalize step s op = s' at account
  generalize seen : s.event op = event at account
  cases account with
  | continues continues => exact continues.fostered fostered
  | recleaned id continues => exact continues.fostered fostered
  | @spawned k slot parentId heapAllocation image free parent fresh slots =>
      have tasks := ProcessTable.task_of_slots slots
      have vacant := ProcessTable.freeSlot_eq_some free
      -- the slot was nobody's parent
      have alive : ∀ j, (s.table.task j).live = true → s'.table.task j = s.table.task j := by
        intro j live
        have other : j ≠ k := by
          rintro rfl
          rw [vacant] at live
          cases live
        rw [tasks, Function.update_of_ne other]
      intro i occupied child
      by_cases here : i = k
      · have now : s'.table.task k = slot.task := by rw [tasks, Function.update_self]
        rw [here, now, fresh] at child ⊢
        rcases parent with zero | valid
        · exact absurd zero child
        · unfold System.validParent at valid
          cases found : s.table.findTask parentId with
          | none =>
              rw [found] at valid
              cases valid
          | some j =>
              rw [found] at valid
              have same := alive j valid
              exact ⟨j, by rwa [same], by rw [same]; exact (ProcessTable.findTask_eq_some found).2⟩
      · have sameI : s'.table.task i = s.table.task i := by
          rw [tasks, Function.update_of_ne here]
        rw [sameI] at occupied child ⊢
        obtain ⟨j, live, isParent⟩ := fostered i occupied child
        exact ⟨j, by rwa [alive j live], by rwa [alive j live]⟩
  | @exited id exitCode k found ended others =>
      obtain ⟨syscallsAfter, rfl⟩ := System.event_exited seen
      refine fostered.congr (fun i occupied _ => ?_) (fun j live children => ?_)
      · by_cases here : i = k
        · rw [here]
          exact ⟨(ProcessTable.findTask_eq_some found).1, ended.parent⟩
        · have continues := others i here
          exact ⟨fun empty => occupied (continues.empty.mpr empty), continues.parent⟩
      · have other : j ≠ k := by
          rintro rfl
          obtain ⟨i, child⟩ := children
          exact orderly j found i child
        exact ⟨(others j other).live live, (others j other).id⟩
  | @cleaned id complete k task found released tasks =>
      have same : ∀ j, (s'.table.task j).state = (s.table.task j).state ∧
          (s'.table.task j).id = (s.table.task j).id ∧
          (s'.table.task j).parentId = (s.table.task j).parentId := by
        rw [tasks]
        exact (Function.forall_update_iff s.table.task fun j task =>
          task.state = (s.table.task j).state ∧ task.id = (s.table.task j).id ∧
            task.parentId = (s.table.task j).parentId).mpr
          ⟨⟨released.state, released.id, released.parent⟩, fun _ _ => ⟨rfl, rfl, rfl⟩⟩
      refine fostered.congr (fun i occupied _ => ?_) (fun j live _ => ?_)
      · exact ⟨(same i).1 ▸ occupied, (same i).2.2⟩
      · exact ⟨by rw [← live]; unfold Task.live; rw [(same j).1], (same j).2.1⟩
  | @reaped parentId childId k found exited inactive complete slots =>
      have tasks := ProcessTable.task_of_slots slots
      refine fostered.congr (fun i occupied _ => ?_) (fun j live _ => ?_)
      · have other : i ≠ k := by
          rintro rfl
          rw [tasks, Function.update_self] at occupied
          exact occupied rfl
        rw [tasks, Function.update_of_ne other] at occupied ⊢
        exact ⟨occupied, rfl⟩
      · have other : j ≠ k := by
          rintro rfl
          simp [Task.live, exited] at live
        rw [tasks, Function.update_of_ne other]
        exact ⟨live, rfl⟩

theorem run_fostered {s : System} (fostered : s.table.Fostered) {ops : List Op}
    (orderly : OrderlyRun s ops) : (run s ops).table.Fostered := by
  induction ops generalizing s with
  | nil => exact fostered
  | cons op ops ih => exact ih (step_fostered fostered orderly.1) orderly.2

/-! ### Filling the table -/

/-- Spawn tasks without a parent, one after the other. -/
def System.spawnAll (s : System) : List (ProcessImage × Nat) → List (Option Task)
  | [] => []
  | (image, heapAllocation) :: rest =>
      (s.spawnElfInit (some image) (some heapAllocation)).1 ::
        (s.spawnElfInit (some image) (some heapAllocation)).2.spawnAll rest

/-- The number of slots that can be handed out. -/
def ProcessTable.room (t : ProcessTable) : Nat := (Finset.univ.filter t.Reusable).card

theorem System.spawnElfInit_eq (s : System) (image : ProcessImage) (heapAllocation : Nat) :
    s.spawnElfInit (some image) (some heapAllocation) =
      s.spawnImage 0 image (some heapAllocation) := by
  unfold spawnElfInit spawnElfChild
  rw [if_neg (by simp)]

/-- A step that takes at most one slot. -/
theorem ProcessTable.room_le {t t' : ProcessTable} (k : Fin maxTasks)
    (others : ∀ i ≠ k, t.Reusable i → t'.Reusable i) : t.room ≤ t'.room + 1 := by
  have kept : (Finset.univ.filter t.Reusable).erase k ⊆ Finset.univ.filter t'.Reusable := by
    intro i mem
    obtain ⟨other, mem⟩ := Finset.mem_erase.mp mem
    exact Finset.mem_filter.mpr
      ⟨Finset.mem_univ i, others i other (Finset.mem_filter.mp mem).2⟩
  have count := Finset.card_le_card kept
  have least := Finset.pred_card_le_card_erase (s := Finset.univ.filter t.Reusable) (a := k)
  unfold room
  omega

/-- A spawn uses up one free slot. -/
theorem System.SpawnResult.room {s : System} {parentId : Nat} {result : Option Task × System}
    (spawns : SpawnResult s parentId result) : s.table.room ≤ result.2.table.room + 1 := by
  cases spawns with
  | failed slots =>
      refine ProcessTable.room_le 0 fun i _ reusable => ?_
      unfold ProcessTable.Reusable ProcessTable.task at reusable ⊢
      rwa [slots]
  | @filled s' k slot heapAllocation image free fresh slots =>
      refine ProcessTable.room_le k fun i other reusable => ?_
      unfold ProcessTable.Reusable at reusable ⊢
      rwa [ProcessTable.task_of_slots slots, Function.update_of_ne other]

/-- While there is room, spawns succeed. -/
theorem System.spawnAll_succeeds {s : System} {issued : Nat} (lodging : s.Lodging)
    (agrees : s.Agrees issued) {images : List (ProcessImage × Nat)}
    (few : issued + images.length ≤ maxWord) (room : images.length ≤ s.table.room) :
    ∀ result ∈ s.spawnAll images, result.isSome = true := by
  induction images generalizing s issued with
  | nil => exact nofun
  | cons pair images ih =>
      obtain ⟨image, heapAllocation⟩ := pair
      rw [List.length_cons] at few room
      have free : s.table.freeSlot.isSome = true := by
        obtain ⟨i, mem⟩ := Finset.card_pos.mp (show 0 < s.table.room by omega)
        exact ProcessTable.freeSlot_isSome (Finset.mem_filter.mp mem).2
      obtain ⟨lodging', succeeds⟩ :=
        spawnImage_lodging lodging agrees (by omega) 0 image (some heapAllocation)
      obtain ⟨issued', bound, -, agrees'⟩ :=
        spawnImage_agrees agrees (by omega) (Nat.zero_le _) image (some heapAllocation)
      have taken := (s.spawnImage_lineage 0 image (some heapAllocation)).room
      intro result mem
      unfold spawnAll at mem
      rw [spawnElfInit_eq] at mem
      rcases List.mem_cons.mp mem with rfl | later
      · exact succeeds rfl free
      · exact ih lodging' agrees' (by omega) (by omega) result later

/-! ### The result -/

/-- Every task of the run has exited and been cleaned up. -/
def ProcessTable.AllFinished (t : ProcessTable) : Prop :=
  ∀ i, (t.task i).state = .empty ∨ t.Finished i

instance (t : ProcessTable) : Decidable t.AllFinished := inferInstanceAs (Decidable (∀ _, _ ∨ _))

/-- With all tasks gone, no zombie keeps its slot. -/
theorem ProcessTable.NoZombies.reusable {t : ProcessTable} (noZombies : t.NoZombies)
    (finished : t.AllFinished) (i : Fin maxTasks) : t.Reusable i := by
  rcases finished i with empty | done
  · exact Or.inl empty
  · refine noZombies i done fun j live => ?_
    rcases finished j with empty | ⟨exited, -⟩
    · simp [Task.live, empty] at live
    · simp [Task.live, exited] at live

/-- In every run in which each task exits after its children were collected, finished
orphans leave their slots; and once all tasks have exited and been cleaned up, the
whole table can be filled again while ids last. -/
theorem orderly_no_zombies (ops : List Op) (orderly : OrderlyRun .boot ops) :
    (run .boot ops).table.NoZombies ∧
      ((run .boot ops).table.AllFinished → ∀ images : List (ProcessImage × Nat),
        images.length ≤ maxTasks → spawnCount ops + images.length ≤ maxWord →
          ∀ result ∈ (run .boot ops).spawnAll images, result.isSome = true) := by
  have fostered := run_fostered (s := .boot) (fun i occupied _ => absurd rfl occupied) orderly
  refine ⟨fostered.noZombies, fun finished images size few => ?_⟩
  have lodging := run_lodging boot_lodging boot_agrees ops (by omega)
  obtain ⟨issued, bound, agrees⟩ := run_agrees boot_agrees ops (by omega)
  refine System.spawnAll_succeeds lodging agrees (by omega) (size.trans ?_)
  have full : Finset.univ.filter (run .boot ops).table.Reusable = Finset.univ :=
    Finset.filter_true_of_mem fun i _ => fostered.noZombies.reusable finished i
  unfold ProcessTable.room
  rw [full, Finset.card_univ, Fintype.card_fin]

/-- Task 2 exits, is cleaned up and collected by its parent, task 1, which exits
afterwards. -/
def tidyRun : List Op :=
  [.spawnElfChild 0 (some someImage) (some 64), .spawnElfChild 1 (some someImage) (some 128),
    .markExited 2 7 0, .cleanupTask 2 ⟨true, some (4, 4, true)⟩, .waitChild 1 2,
    .markExited 1 8 0, .cleanupTask 1 ⟨true, some (4, 4, true)⟩]

/-- The same exits the other way round. -/
def untidyRun : List Op :=
  [.spawnElfChild 0 (some someImage) (some 64), .spawnElfChild 1 (some someImage) (some 128),
    .markExited 1 8 0, .cleanupTask 1 ⟨true, some (4, 4, true)⟩,
    .markExited 2 7 0, .cleanupTask 2 ⟨true, some (4, 4, true)⟩]

theorem orderly_no_zombies_tidyRun :
    (run .boot tidyRun).table.NoZombies ∧
      ∀ result ∈ (run .boot tidyRun).spawnAll (List.replicate maxTasks (someImage, 64)),
        result.isSome = true :=
  ⟨(orderly_no_zombies tidyRun (by decide +kernel)).1,
    (orderly_no_zombies tidyRun (by decide +kernel)).2 (by decide +kernel)
      (List.replicate maxTasks (someImage, 64)) (by decide +kernel) (by decide +kernel)⟩

/-- A finished orphan can keep its slot. -/
theorem not_no_zombies : ¬ ∀ ops : List Op, (run .boot ops).table.NoZombies := by
  intro claim
  exact absurd (claim untidyRun) (by decide +kernel)

end CloudOS.Process
