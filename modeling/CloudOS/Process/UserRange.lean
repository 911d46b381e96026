import CloudOS.Process.UserCopy

/-!
Which addresses the check of user buffers accepts.

No test asks whether an address lies in the user region. The page tables answer that,
and they do not see the bits of an address from 48 on.
-/

namespace CloudOS.Process

open Lib.Word (maxWord)
open CloudOS.Paging
open CloudOS.PhysMem (FrameSource SoundAllocator)

variable {source : FrameSource} {boot : BootTables} {w : World source} {t : TaskSpaces}
  {taskId address length : Nat} {writable : Bool}

/-- The spaces of the tasks are spaces of the world. -/
def TaskSpaces.LivesIn (t : TaskSpaces) (w : World source) : Prop :=
  ∀ index, (t.addressSpace index).active = true → ∃ k, w.Active k (t.addressSpace index)

/-- The task has mapped a page for every byte of the buffer, whatever the bits from 48
on of the address are. -/
def TaskSpaces.Records (t : TaskSpaces) (taskId address length : Nat) (writable : Bool) : Prop :=
  ∃ index, t.table.findTask taskId = some index ∧
    (t.table.task index).addressSpaceRoot ≠ 0 ∧ length ≤ maxUserBufferBytes ∧
    address + (length - 1) ≤ maxWord ∧ (t.addressSpace index).active = true ∧
    ∀ i < length, ∃ page,
      (t.addressSpace index).RecordedAt writable ((address + i) % 2 ^ 48) page

theorem TaskSpaces.LivesIn.housed (livesIn : t.LivesIn w) (closed : World.Closed boot w)
    {index : Fin maxTasks} (active : (t.addressSpace index).active = true) :
    ∃ lowP3 userP2 p1s, Housed w.machine (t.addressSpace index) lowP3 userP2 p1s := by
  obtain ⟨k, isActive⟩ := livesIn index active
  exact closed.housed isActive

theorem active_of_grants {space : AddressSpace} {m : Lib.Store.Memory} {virt : Nat}
    (grants : space.Grants m writable virt) : space.active = true := by
  by_contra inactive
  obtain ⟨isMapped, -⟩ := grants
  rw [AddressSpace.translate, Bool.not_eq_true _ |>.mp inactive] at isMapped
  cases isMapped

/-- The check accepts what is recorded. -/
theorem validateUserBuffer_iff_records (closed : World.Closed boot w) (livesIn : t.LivesIn w)
    (positive : 0 < length) :
    (t.validateUserBuffer w.machine.memory taskId address length writable).valid = true ↔
      t.Records taskId address length writable := by
  rw [TaskSpaces.validateUserBuffer_iff]
  constructor
  · rintro ⟨index, found, root, short, empty | ⟨fits, granted⟩⟩
    · omega
    · have active := active_of_grants (granted 0 positive)
      obtain ⟨lowP3, userP2, p1s, housed⟩ := livesIn.housed closed active
      exact ⟨index, found, root, short, fits, active,
        fun i inside => housed.grants_iff.mp (granted i inside)⟩
  · rintro ⟨index, found, root, short, fits, active, recorded⟩
    obtain ⟨lowP3, userP2, p1s, housed⟩ := livesIn.housed closed active
    exact ⟨index, found, root, short,
      .inr ⟨fits, fun i inside => housed.grants_iff.mpr (recorded i inside)⟩⟩

/-- An accepted buffer lies in the user region, except for the bits that the page tables
do not see: the accepted addresses outside it are those from `2 ^ 48` on. -/
theorem accepted_in_user_region_iff {source : FrameSource} (boot : BootTables)
    (reserved : boot.Reserved source) (w : World source) (reachable : World.Reachable boot w)
    (t : TaskSpaces) (livesIn : t.LivesIn w) (taskId address length : Nat) (positive : 0 < length)
    (writable : Bool) :
    ((t.validateUserBuffer w.machine.memory taskId address length writable).valid = true →
      userSpaceBase ≤ address ∧ address + length ≤ userSpaceEnd) ↔
    address < 2 ^ 48 ∨ ¬ t.Records taskId address length writable := by
  have closed := reachable.closed reserved
  rw [validateUserBuffer_iff_records closed livesIn positive]
  constructor
  · intro inRegion
    by_contra other
    obtain ⟨high, recorded⟩ := not_or.mp other
    obtain ⟨-, below⟩ := inRegion (not_not.mp recorded)
    simp only [userSpaceEnd, userSpaceBase, bootIdentityMapBytes] at below
    omega
  · rintro (low | missing) recorded
    · obtain ⟨index, -, -, short, -, active, pages⟩ := recorded
      obtain ⟨lowP3, userP2, p1s, housed⟩ := livesIn.housed closed active
      obtain ⟨first, recordedFirst⟩ := pages 0 positive
      obtain ⟨last, recordedLast⟩ := pages (length - 1) (by omega)
      obtain ⟨from_, before⟩ := housed.inUserRegion recordedFirst
      obtain ⟨-, below⟩ := housed.inUserRegion recordedLast
      simp only [userSpaceBase, userSpaceEnd, bootIdentityMapBytes, maxUserBufferBytes] at *
      omega
    · exact absurd recorded missing

theorem elfTask_livesIn : elfTask.LivesIn elfWorld := by
  intro index active
  by_cases first : index = 0
  · subst first
    rw [elfTask_space]
    exact ⟨0, elfWorld_active⟩
  · have empty : elfTask.addressSpace index = .empty := by
      simp only [elfTask, Function.update_of_ne first]
    rw [empty] at active
    cases active

theorem elfWorld_reachable : World.Reachable imageTables elfWorld :=
  (World.Reachable.first roomyMachine).run elfPages

/-- A byte that the task has at the address is accepted. -/
theorem elfTask_accepts {address : Nat} (word : address ≤ maxWord)
    (granted : elfSpace.Grants elfWorld.machine.memory false address) :
    (elfTask.validateUserBuffer elfWorld.machine.memory 1 address 1 false).valid = true := by
  refine TaskSpaces.validateUserBuffer_iff.mpr ⟨0, elfTask_found, elfTask_root, by decide,
    .inr ⟨word, fun i inside => ?_⟩⟩
  obtain rfl := Nat.lt_one_iff.mp inside
  rw [elfTask_space]
  exact granted

theorem accepted_in_user_region_iff_elfTask :
    (elfTask.validateUserBuffer elfWorld.machine.memory 1 userElfBase 1 false).valid = true ∧
      userSpaceBase ≤ userElfBase ∧ userElfBase + 1 ≤ userSpaceEnd := by
  have granted : elfSpace.Grants elfWorld.machine.memory false userElfBase := by decide +kernel
  have accepted := elfTask_accepts (by decide) granted
  exact ⟨accepted, (accepted_in_user_region_iff imageTables imageTables_reserved_roomyMap elfWorld
    elfWorld_reachable elfTask elfTask_livesIn 1 userElfBase 1 (by decide) false).mpr
    (.inl (by decide)) accepted⟩

/-- The first page of a program is also accepted `2 ^ 48` higher up. -/
theorem accepted_not_in_user_region : ¬ ∀ (w : World (SoundAllocator.source roomyMap))
    (t : TaskSpaces) (taskId address length : Nat) (writable : Bool),
    World.Reachable imageTables w → t.LivesIn w → 0 < length →
    (t.validateUserBuffer w.machine.memory taskId address length writable).valid = true →
      userSpaceBase ≤ address ∧ address + length ≤ userSpaceEnd := by
  intro claim
  have granted : elfSpace.Grants elfWorld.machine.memory false (2 ^ 48 + userElfBase) := by
    decide +kernel
  have accepted := elfTask_accepts (by decide) granted
  obtain ⟨-, below⟩ := claim elfWorld elfTask 1 _ 1 false elfWorld_reachable elfTask_livesIn
    (by decide) accepted
  exact absurd below (by decide)

end CloudOS.Process
