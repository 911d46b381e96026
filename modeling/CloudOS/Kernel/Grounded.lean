import CloudOS.Heap.Holdings
import CloudOS.Kernel.Projection
import CloudOS.Paging.Admission

/-!
What the tasks hold is there.

A task that holds resources has an allocation of the heap to itself; with a root it has
an address space to itself as well, in frames of its own. Nobody else has a space or an
allocation. Every step of the kernel keeps it so.
-/

namespace CloudOS.Kernel

open Lib.Store (Memory)
open CloudOS.Heap (KernelHeap)
open CloudOS.Paging (AddressSpace Apart BootTables Laid Machine Made World pageSize4k)
open CloudOS.PhysMem (FrameSource)
open CloudOS.Process (System Task maxTasks)

variable {source : FrameSource} {p : Platform} {k k' : KernelState source} {i j : Fin maxTasks}

/-- The machine with the spaces of the slots. -/
def KernelState.world (k : KernelState source) : World source :=
  ⟨k.machine, List.ofFn k.addressSpace⟩

/-- The active spaces of the kernel are those of the paging world. -/
theorem active_world {n : Nat} {space : AddressSpace} : k.world.Active n space ↔
    ∃ i : Fin maxTasks, i.val = n ∧ k.addressSpace i = space ∧ space.active = true := by
  unfold World.Active KernelState.world
  rw [List.getElem?_ofFn]
  constructor
  · rintro ⟨found, active⟩
    split at found
    · rename_i inside
      exact ⟨⟨n, inside⟩, rfl, Option.some.inj found, active⟩
    · cases found
  · rintro ⟨i, rfl, isSpace, active⟩
    rw [dif_pos i.isLt]
    exact ⟨congrArg some isSpace, active⟩

theorem active_slot (active : (k.addressSpace i).active = true) :
    k.world.Active i (k.addressSpace i) := active_world.mpr ⟨i, rfl, rfl, active⟩

/-- What the tasks hold, next to what is there. -/
structure Grounded (p : Platform) (k : KernelState source) : Prop where
  closed : World.Closed p.boot k.world
  usable : ∀ i, (k.addressSpace i).active = true →
    ∀ frame ∈ (k.addressSpace i).frames, source.Usable frame
  active : ∀ i, (k.addressSpace i).active = true ↔
    (k.system.table.task i).resourcesActive = true ∧
      (k.system.table.task i).addressSpaceRoot ≠ 0
  root : ∀ i, (k.addressSpace i).active = true →
    (k.addressSpace i).rootFrame = (k.system.table.task i).addressSpaceRoot
  entry : ∀ i, (k.addressSpace i).active = true →
    (k.system.table.task i).entryPoint % pageSize4k = 0
  intact : k.heap.Intact
  heap : ∀ a, k.heap.Holds a ↔ ∃ i, (k.system.table.task i).resourcesActive = true ∧
    (k.system.table.task i).heapAllocation = a
  distinct : ∀ i j, (k.system.table.task i).resourcesActive = true →
    (k.system.table.task j).resourcesActive = true →
    (k.system.table.task i).heapAllocation = (k.system.table.task j).heapAllocation → i = j

namespace Grounded

/-- The frames of a space are issued. -/
theorem issued (grounded : Grounded p k) (active : (k.addressSpace i).active = true) :
    ∀ frame ∈ (k.addressSpace i).frames, k.machine.Issued frame := by
  intro frame mem
  obtain ⟨-, lowP3, userP2, p1s, owns⟩ := grounded.closed.coherent.owns i _ (active_slot active)
  exact owns.held frame mem (grounded.usable i active frame mem)

theorem nodup (grounded : Grounded p k) (active : (k.addressSpace i).active = true) :
    (k.addressSpace i).frames.Nodup := by
  obtain ⟨-, lowP3, userP2, p1s, owns⟩ := grounded.closed.coherent.owns i _ (active_slot active)
  exact owns.laid.nodup

theorem disjoint (grounded : Grounded p k) (ne : i ≠ j)
    (activeI : (k.addressSpace i).active = true) (activeJ : (k.addressSpace j).active = true) :
    ∀ frame ∈ (k.addressSpace i).frames, frame ∉ (k.addressSpace j).frames :=
  grounded.closed.coherent.apart i j _ _ (fun same => ne (Fin.ext same)) (active_slot activeI)
    (active_slot activeJ)

/-- The root in use by the kernel is that of no space. -/
theorem otherRoot (grounded : Grounded p k) (active : (k.addressSpace i).active = true) :
    p.boot.p4 ≠ (k.addressSpace i).rootFrame := by
  obtain ⟨-, lowP3, userP2, p1s, owns⟩ := grounded.closed.coherent.owns i _ (active_slot active)
  intro same
  refine grounded.closed.coherent.offBoot i _ (active_slot active) _
    (Laid.mem_frames_of_table owns.laid.root_mem) ?_
  rw [← same]
  exact BootTables.has_root _

/-- The tasks hold what they held. -/
theorem same (grounded : Grounded p k) {system : System}
    (holding : ∀ i, (k.system.table.task i).SameHolding (system.table.task i)) :
    Grounded p { k with system } := by
  have entryPoint : ∀ i, (k.system.table.task i).resourcesActive = true →
      (system.table.task i).entryPoint = (k.system.table.task i).entryPoint :=
    fun i held => congrArg Process.Ground.entryPoint ((holding i).ground held)
  have rootFrame : ∀ i, (k.system.table.task i).resourcesActive = true →
      (system.table.task i).addressSpaceRoot = (k.system.table.task i).addressSpaceRoot :=
    fun i held => congrArg Process.Ground.addressSpaceRoot ((holding i).ground held)
  have allocation : ∀ i, (k.system.table.task i).resourcesActive = true →
      (system.table.task i).heapAllocation = (k.system.table.task i).heapAllocation :=
    fun i held => congrArg Process.Ground.heapAllocation ((holding i).ground held)
  have resources := fun i => (holding i).resources
  refine ⟨grounded.closed, grounded.usable, fun i => ?_, fun i active => ?_, fun i active => ?_,
    grounded.intact, fun a => ?_, fun i j heldI heldJ same => ?_⟩
  · dsimp only
    rw [grounded.active, resources]
    exact and_congr_right fun held => by rw [rootFrame i held]
  · rw [grounded.root i active, rootFrame i ((grounded.active i).mp active).1]
  · dsimp only
    rw [entryPoint i ((grounded.active i).mp active).1]
    exact grounded.entry i active
  · dsimp only
    rw [grounded.heap]
    refine exists_congr fun i => ?_
    rw [resources]
    exact and_congr_right fun held => by rw [allocation i held]
  · dsimp only at heldI heldJ same
    rw [resources] at heldI heldJ
    rw [allocation i heldI, allocation j heldJ] at same
    exact grounded.distinct i j heldI heldJ same

/-- Bytes of the pages of a task are stored. -/
theorem write (grounded : Grounded p k) (active : (k.addressSpace i).active = true)
    {memory : Memory} (only : ∀ a, memory a ≠ k.machine.memory a →
      ∃ page ∈ (k.addressSpace i).pages, page.frame ≤ a ∧ a < page.frame + pageSize4k) :
    Grounded p { k with machine := { k.machine with memory } } :=
  { grounded with closed := grounded.closed.writePages (active_slot active) only }

/-- An empty slot loses a space that was given back. -/
theorem forget (grounded : Grounded p k) (inactive : (k.addressSpace i).active = false) :
    Grounded p { k with addressSpace := Function.update k.addressSpace i .empty } := by
  have same : ∀ j, (Function.update k.addressSpace i .empty j).active =
      (k.addressSpace j).active ∧ ((k.addressSpace j).active = true →
        Function.update k.addressSpace i .empty j = k.addressSpace j) := by
    intro j
    by_cases here : j = i
    · rw [here, Function.update_self, inactive]
      exact ⟨rfl, nofun⟩
    · rw [Function.update_of_ne here]
      exact ⟨rfl, fun _ => rfl⟩
  have left : ∀ j, (Function.update k.addressSpace i .empty j).active = true →
      (k.addressSpace j).active = true := fun j active => (same j).1 ▸ active
  refine
    { closed := grounded.closed.changes (n := 0) (.refl (fun _ => False) _) (fun _ _ => not_false)
        fun n space active => .inl ⟨?_, fun _ _ => not_false⟩
      usable := fun j active => ?_
      active := fun j => ?_
      root := fun j active => ?_
      entry := fun j active => grounded.entry j (left j active)
      intact := grounded.intact
      heap := grounded.heap
      distinct := grounded.distinct }
  · obtain ⟨j, rfl, isSpace, isActive⟩ := active_world.mp active
    subst isSpace
    refine active_world.mpr ⟨j, rfl, ((same j).2 (left j isActive)).symm, isActive⟩
  · dsimp only
    rw [(same j).2 (left j active)]
    exact grounded.usable j (left j active)
  · dsimp only
    rw [(same j).1]
    exact grounded.active j
  · dsimp only
    rw [(same j).2 (left j active)]
    exact grounded.root j (left j active)

end Grounded

end CloudOS.Kernel
