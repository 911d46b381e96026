import CloudOS.Kernel.Spawn

/-!
What a cleanup gives back.

The allocation and the endpoint of a task always go back, since the task holds them. Its
frames go back as long as the list of freed frames has room: those that do not fit stay
issued, though no task has them any more.
-/

namespace CloudOS.Kernel

open CloudOS.Heap (KernelHeap)
open CloudOS.Paging (AddressSpace AddressSpaceError CleanupReport Confined Destroys Machine World)
open CloudOS.PhysMem (FrameSource)
open CloudOS.Process (System Task Teardown maxTasks)

variable {source : FrameSource} {p : Platform} {k k' : KernelState source} {i : Fin maxTasks}

/-- The frames of the space of a slot, in the order in which they are given back. -/
def KernelState.holdings (k : KernelState source) (i : Fin maxTasks) : List Nat :=
  if (k.addressSpace i).active then (k.addressSpace i).freed else []

theorem holdings_of_space {space : AddressSpace} (isSpace : k.addressSpace i = space) :
    k.holdings i = if space.active then space.freed else [] := by
  rw [← isSpace]
  rfl

theorem mem_holdings {frame : Nat} : frame ∈ k.holdings i ↔
    (k.addressSpace i).active = true ∧ frame ∈ (k.addressSpace i).frames := by
  unfold KernelState.holdings
  split
  · rename_i active
    rw [AddressSpace.mem_freed]
    exact ⟨fun mem => ⟨active, mem⟩, And.right⟩
  · rename_i inactive
    exact ⟨fun mem => absurd mem List.not_mem_nil, fun both => absurd both.1 inactive⟩

theorem length_holdings (active : (k.addressSpace i).active = true) :
    (k.holdings i).length = (k.addressSpace i).frames.length := by
  rw [KernelState.holdings, if_pos active, AddressSpace.length_freed]

/-- The endpoint goes back, and the cleanup is complete when the heap and the page tables
did their part. -/
theorem cleanupTask_unregisters {s : System} (registered : s.Registered) (lodging : s.Lodging)
    {id : Nat} (found : s.table.findTask id = some i)
    (held : (s.table.task i).resourcesActive = true) (teardown : Teardown) :
    (s.cleanupTask id teardown).1 = ((s.table.task i).heapAllocation != 0 && teardown.heapFreed &&
        (teardown.destroyed.getD (0, 0, false)).2.2) ∧
      ∀ e, (s.cleanupTask id teardown).2.ipc.owners e =
        if s.ipc.owners e = (s.table.task i).id then 0 else s.ipc.owners e := by
  obtain ⟨-, rfl⟩ := Process.ProcessTable.findTask_eq_some found
  obtain ⟨dropped, ipc, eq, owners⟩ := registered.unregisters lodging held
  unfold System.cleanupTask
  rw [found]
  dsimp only
  rw [held, Bool.not_true, if_neg Bool.false_ne_true, eq]
  refine ⟨?_, owners⟩
  dsimp only
  rw [Bool.and_true]

/-- The task in slot `i` gave back what it held. -/
structure Retires (k : KernelState source) (i : Fin maxTasks) (complete : Bool)
    (k' : KernelState source) : Prop where
  released : System.Released complete (k.system.table.task i) (k'.system.table.task i)
  others : ∀ j, j ≠ i → k'.system.table.task j = k.system.table.task j
  vacant : (k'.addressSpace i).active = false
  spaces : ∀ j, j ≠ i → k'.addressSpace j = k.addressSpace j
  complete : complete = true ↔ (k.holdings i).length ≤ k.machine.room
  issued : ∀ x, k'.machine.Issued x ↔
    k.machine.Issued x ∧ x ∉ (k.holdings i).take k.machine.room
  recycled : source.recycled k'.machine.frames =
    source.recycled k.machine.frames + min (k.holdings i).length k.machine.room
  confined : Confined (fun frame => frame ∈ k.holdings i) k.machine k'.machine
  intact : k'.heap.Intact
  heap : ∀ a, k'.heap.Holds a ↔ a ≠ (k.system.table.task i).heapAllocation ∧ k.heap.Holds a
  owners : ∀ e, k'.system.ipc.owners e =
    if k.system.ipc.owners e = (k.system.table.task i).id then 0 else k.system.ipc.owners e

/-- What `destroy` does with the space of a slot, whether it is in use or not. -/
structure Vacates (k : KernelState source) (i : Fin maxTasks)
    (destroyed : Except AddressSpaceError CleanupReport) (space : AddressSpace)
    (machine : Machine source) : Prop where
  report : ∃ report, destroyed = .ok report ∧
    (report.complete = true ↔ (k.holdings i).length ≤ k.machine.room)
  vacant : space.active = false
  issued : ∀ x, machine.Issued x ↔ k.machine.Issued x ∧ x ∉ (k.holdings i).take k.machine.room
  recycled : source.recycled machine.frames =
    source.recycled k.machine.frames + min (k.holdings i).length k.machine.room
  confined : Confined (fun frame => frame ∈ k.holdings i) k.machine machine

/-- Destroying a space gives back its frames and touches no other. -/
theorem Grounded.vacates (grounded : Grounded p k) (i : Fin maxTasks) :
    Vacates k i ((k.addressSpace i).destroy k.machine p.boot.p4).1
      ((k.addressSpace i).destroy k.machine p.boot.p4).2.1
      ((k.addressSpace i).destroy k.machine p.boot.p4).2.2 := by
  cases active : (k.addressSpace i).active with
  | false =>
      have none : k.holdings i = [] := by
        rw [KernelState.holdings, active, if_neg Bool.false_ne_true]
      have eq : (k.addressSpace i).destroy k.machine p.boot.p4 =
          (.ok ⟨0, 0, true⟩, k.addressSpace i, k.machine) := by
        rw [AddressSpace.destroy, active]
        rfl
      rw [eq]
      refine ⟨⟨_, rfl, ?_⟩, active, fun x => ?_, ?_, .refl _ _⟩
      · rw [none]
        exact iff_of_true rfl (Nat.zero_le _)
      · rw [none, List.take_nil]
        exact ⟨fun issued => ⟨issued, List.not_mem_nil⟩, And.left⟩
      · rw [none, List.length_nil, Nat.zero_min, Nat.add_zero]
  | true =>
      have destroys := Paging.destroy_destroys active (grounded.otherRoot active)
        (grounded.nodup active) (grounded.issued active)
      have length := length_holdings active
      have order : k.holdings i = (k.addressSpace i).freed := by
        rw [KernelState.holdings, if_pos active]
      cases call : (k.addressSpace i).destroy k.machine p.boot.p4 with
      | mk destroyed rest =>
      obtain ⟨space, machine⟩ := rest
      rw [call] at destroys
      obtain ⟨report, isReport, -, complete⟩ := destroys.report
      refine ⟨⟨report, isReport, ?_⟩, ?_, ?_, ?_, ?_⟩
      · rw [complete, length]
      · rw [destroys.emptied]
        rfl
      · rw [order]
        exact destroys.issued
      · rw [length]
        exact destroys.recycled
      · rcases Paging.destroy_confined call with ⟨-, same⟩ | ⟨-, -, confined⟩
        · rw [same]
          exact .refl _ _
        · exact confined.mono fun frame mem => mem_holdings.mpr ⟨active, mem⟩

/-- A cleanup finds nothing to do, or retires the task. -/
theorem cleanupTask_cases (grounded : Grounded p k) (registered : k.system.Registered)
    (lodging : k.system.Lodging) (id : Nat) :
    ((k.cleanupTask p id).2 = k ∧ ∀ i, k.system.table.findTask id = some i →
      (k.system.table.task i).resourcesActive = false ∧
        (k.cleanupTask p id).1 = (k.system.table.task i).cleanupComplete) ∨
    ∃ i, k.system.table.findTask id = some i ∧
      (k.system.table.task i).resourcesActive = true ∧
      Retires k i (k.cleanupTask p id).1 (k.cleanupTask p id).2 := by
  unfold KernelState.cleanupTask
  cases found : k.system.table.findTask id with
  | none => exact .inl ⟨rfl, nofun⟩
  | some i =>
      dsimp only
      cases held : (k.system.table.task i).resourcesActive with
      | false =>
          refine .inl ⟨rfl, ?_⟩
          rintro _ ⟨⟩
          exact ⟨held, rfl⟩
      | true =>
          refine .inr ⟨i, rfl, held, ?_⟩
          rw [Bool.not_true, if_neg Bool.false_ne_true]
          have vacates := grounded.vacates i
          have allocated : k.heap.Holds (k.system.table.task i).heapAllocation :=
            (grounded.heap _).mpr ⟨i, held, rfl⟩
          have nonzero := allocated.positive
          obtain ⟨freed, intact, holds⟩ := grounded.intact.free_held allocated
          have released : releaseHeap k.heap (k.system.table.task i).heapAllocation =
              (true, (k.heap.free (k.system.table.task i).heapAllocation).2) := by
            unfold releaseHeap
            rw [if_pos (bne_iff_ne.mpr nonzero)]
            generalize k.heap.free (k.system.table.task i).heapAllocation = result at freed
            obtain ⟨answer, heap⟩ := result
            obtain rfl := freed
            rfl
          rw [released]
          generalize (k.addressSpace i).destroy k.machine p.boot.p4 = result at vacates
          obtain ⟨destroyed, space, machine⟩ := result
          obtain ⟨report, rfl, complete⟩ := vacates.report
          dsimp only
          obtain ⟨isComplete, owners⟩ := cleanupTask_unregisters registered lodging found held
            (teardownOf true (.ok report))
          rcases k.system.cleanupTask_lineage id (teardownOf true (.ok report)) with
            ⟨-, inactive⟩ | ⟨j, task, foundJ, isReleased, tasks⟩
          · rw [inactive i found] at held
            cases held
          · obtain rfl := Option.some.inj (found.symm.trans foundJ)
            refine
              { released := ?_
                others := fun j other => ?_
                vacant := ?_
                spaces := fun j other => Function.update_of_ne other ..
                complete := ?_
                issued := vacates.issued
                recycled := vacates.recycled
                confined := vacates.confined
                intact := intact
                heap := holds
                owners := owners }
            · dsimp only
              rw [tasks, Function.update_self]
              exact isReleased
            · dsimp only
              rw [tasks, Function.update_of_ne other]
            · dsimp only
              rw [Function.update_self]
              exact vacates.vacant
            · rw [isComplete, bne_iff_ne.mpr nonzero]
              exact complete

/-- What the other tasks hold is not touched. -/
theorem Grounded.retired (grounded : Grounded p k) {complete : Bool}
    (held : (k.system.table.task i).resourcesActive = true)
    (retires : Retires k i complete k') : Grounded p k' := by
  have gone := retires.released.resources
  have other : ∀ {j}, (k'.system.table.task j).resourcesActive = true → j ≠ i := by
    rintro j heldJ rfl
    rw [gone] at heldJ
    cases heldJ
  have inUse : ∀ {j}, (k'.addressSpace j).active = true → j ≠ i := by
    rintro j active rfl
    rw [retires.vacant] at active
    cases active
  have apart : ∀ {j}, (k'.addressSpace j).active = true →
      ∀ frame ∈ (k'.addressSpace j).frames, frame ∉ k.holdings i := by
    intro j active frame mem mine
    have ne := inUse active
    rw [retires.spaces j ne] at active mem
    obtain ⟨activeI, mem'⟩ := mem_holdings.mp mine
    exact grounded.disjoint ne active activeI frame mem mem'
  refine
    { closed := ?_
      usable := fun j active => ?_
      active := fun j => ?_
      root := fun j active => ?_
      entry := fun j active => ?_
      intact := retires.intact
      heap := fun a => ?_
      distinct := fun j j' heldJ heldJ' same => ?_ }
  · refine grounded.closed.changes (n := 0) retires.confined (fun frame has mine => ?_)
      fun n space active => .inl ?_
    · obtain ⟨activeI, mem⟩ := mem_holdings.mp mine
      exact grounded.closed.coherent.offBoot i _ (active_slot activeI) frame mem has
    · obtain ⟨j, rfl, rfl, active⟩ := active_world.mp active
      refine ⟨active_world.mpr ⟨j, rfl, ?_, active⟩, apart active⟩
      exact (retires.spaces j (inUse active)).symm
  · have ne := inUse active
    rw [retires.spaces j ne] at active ⊢
    exact grounded.usable j active
  · by_cases here : j = i
    · rw [here, retires.vacant, gone]
      exact iff_of_false Bool.false_ne_true fun both => Bool.false_ne_true both.1
    · rw [retires.spaces j here, retires.others j here]
      exact grounded.active j
  · have ne := inUse active
    rw [retires.spaces j ne] at active ⊢
    rw [retires.others j ne]
    exact grounded.root j active
  · have ne := inUse active
    rw [retires.spaces j ne] at active
    rw [retires.others j ne]
    exact grounded.entry j active
  · rw [retires.heap, grounded.heap]
    constructor
    · rintro ⟨away, j, heldJ, rfl⟩
      have ne : j ≠ i := by
        rintro rfl
        exact away rfl
      exact ⟨j, by rw [retires.others j ne]; exact ⟨heldJ, rfl⟩⟩
    · rintro ⟨j, heldJ, rfl⟩
      have ne := other heldJ
      rw [retires.others j ne] at heldJ ⊢
      exact ⟨fun same => ne (grounded.distinct j i heldJ held same), j, heldJ, rfl⟩
  · have ne := other heldJ
    have ne' := other heldJ'
    rw [retires.others j ne] at heldJ same
    rw [retires.others j' ne'] at heldJ' same
    exact grounded.distinct j j' heldJ heldJ' same

end CloudOS.Kernel
