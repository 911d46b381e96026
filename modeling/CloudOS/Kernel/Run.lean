import CloudOS.Kernel.Retire

/-!
Every run of the kernel from its start keeps what the tasks hold in order.

What the kernel stores for a task, or a task itself, goes to pages of that task. So the
page tables of everybody stay as they are, and the invariants of the process table, of
the spaces and of the heap hold side by side.
-/

namespace CloudOS.Kernel

open Lib.Store (Memory writeBytes zero)
open Lib.Word (maxWord)
open CloudOS.Heap (KernelHeap)
open CloudOS.Paging (AddressSpace BootTables Housed Machine World pageSize4k)
open CloudOS.PhysMem (FrameSource)
open CloudOS.Process (System Task TaskSpaces maxTasks)

variable {source : FrameSource} {p : Platform} {k k' : KernelState source} {i : Fin maxTasks}

/-! ### Stores for a task -/

/-- The memory differs in pages of the task in slot `i` only. -/
structure Pokes (k : KernelState source) (i : Fin maxTasks) (memory : Memory) : Prop where
  active : (k.addressSpace i).active = true
  only : ∀ a, memory a ≠ k.machine.memory a →
    ∃ page ∈ (k.addressSpace i).pages, page.frame ≤ a ∧ a < page.frame + pageSize4k

/-- A space that maps anything is in use. -/
theorem active_of_mapped {space : AddressSpace} {m : Memory} {virt : Nat}
    (mapped : (space.translate m virt).mapped = true) : space.active = true := by
  by_contra inactive
  rw [Bool.not_eq_true] at inactive
  rw [AddressSpace.translate, inactive] at mapped
  cases mapped

theorem Grounded.housed (grounded : Grounded p k) (active : (k.addressSpace i).active = true) :
    ∃ lowP3 userP2 p1s, Housed k.machine (k.addressSpace i) lowP3 userP2 p1s :=
  grounded.closed.housed (active_slot active)

/-- A byte that a space grants is in one of its pages. -/
theorem Grounded.inPage (grounded : Grounded p k) {writable : Bool} {virt : Nat}
    (grants : (k.addressSpace i).Grants k.machine.memory writable virt) :
    ∃ page ∈ (k.addressSpace i).pages,
      page.frame ≤ ((k.addressSpace i).translate k.machine.memory virt).phys ∧
        ((k.addressSpace i).translate k.machine.memory virt).phys < page.frame + pageSize4k := by
  obtain ⟨lowP3, userP2, p1s, housed⟩ := grounded.housed (active_of_mapped grants.1)
  obtain ⟨page, recorded, phys⟩ := housed.page_of_grants grants
  have offset := Nat.mod_lt (virt % 2 ^ 48) (show 0 < pageSize4k by decide)
  rw [AddressSpace.physOf] at phys
  exact ⟨page, recorded.mem, by omega, by omega⟩

/-- A store of user code ends in a page of the current task, or nowhere. -/
theorem userStore_cases (grounded : Grounded p k) (address : Nat) (byte : UInt8) :
    k.userStore address byte = k ∨
    ∃ i memory, k.system.table.findTask k.system.currentTask = some i ∧ Pokes k i memory ∧
      k.userStore address byte = { k with machine := { k.machine with memory } } := by
  unfold KernelState.userStore
  cases found : k.system.table.findTask k.system.currentTask with
  | none => exact .inl rfl
  | some i =>
      dsimp only
      split
      · exact .inl rfl
      · rename_i granted
        simp only [Bool.or_eq_true, Bool.not_eq_true', not_or, Bool.not_eq_false] at granted
        obtain ⟨⟨mapped, user⟩, writable⟩ := granted
        have grants : (k.addressSpace i).Grants k.machine.memory true address :=
          ⟨mapped, user, fun _ => writable⟩
        obtain ⟨page, mem, from_, below⟩ := grounded.inPage grants
        refine .inr ⟨i, _, rfl, ⟨active_of_mapped mapped, fun a changed => ?_⟩, rfl⟩
        unfold writeBytes at changed
        split at changed
        · rename_i inside
          rw [List.length_singleton] at inside
          exact ⟨page, mem, by omega, by omega⟩
        · exact absurd rfl changed

/-- A program is written into a page of its task, or nowhere. -/
theorem writeUserProgram_cases (grounded : Grounded p k) (taskId : Nat)
    (program : UserCodeBuilder) :
    (k.writeUserProgram taskId program).2 = k ∨
    ∃ i memory, k.system.table.findTask taskId = some i ∧ Pokes k i memory ∧
      (k.writeUserProgram taskId program).2 =
        { k with machine := { k.machine with memory } } := by
  unfold KernelState.writeUserProgram
  cases found : k.system.table.findTask taskId with
  | none => exact .inl rfl
  | some i =>
      dsimp only
      split
      · exact .inl rfl
      rename_i granted
      split
      · exact .inl rfl
      rename_i fits
      simp only [Bool.or_eq_true, Bool.not_eq_true', beq_iff_eq, not_or, Bool.not_eq_false]
        at granted
      obtain ⟨⟨⟨⟨⟨⟨mapped, user⟩, -⟩, -⟩, dataMapped⟩, dataUser⟩, dataWritable⟩ := granted
      have active := active_of_mapped mapped
      obtain ⟨lowP3, userP2, p1s, housed⟩ := grounded.housed active
      have grantsC : (k.addressSpace i).Grants k.machine.memory false
          (k.system.table.task i).entryPoint := ⟨mapped, user, nofun⟩
      have grantsD : (k.addressSpace i).Grants k.machine.memory true ipcTestData :=
        ⟨dataMapped, dataUser, fun _ => dataWritable⟩
      obtain ⟨code, memC, physC⟩ := phys_of_aligned housed grantsC (grounded.entry i active)
      obtain ⟨data, memD, physD⟩ := phys_of_aligned housed grantsD (by decide)
      refine .inr ⟨i, _, rfl, ⟨active, fun a changed => ?_⟩, rfl⟩
      have short := program.bounded
      have room : ipcTestMessages.length ≤ pageSize4k := by decide
      rw [physC, physD] at changed
      by_contra outside
      have notCode : ¬ (code.frame ≤ a ∧ a < code.frame + pageSize4k) := fun inside =>
        outside ⟨code, memC, inside⟩
      have notData : ¬ (data.frame ≤ a ∧ a < data.frame + pageSize4k) := fun inside =>
        outside ⟨data, memD, inside⟩
      apply changed
      simp only [ipcTestCodeCapacity, pageSize4k] at short notCode notData room
      unfold writeBytes zero
      rw [if_neg (by omega), if_neg (by omega), if_neg (by simp only [pageSize4k]; omega)]

/-- A space that grants nothing is coherent, and so is one in use. -/
theorem Grounded.coherent (grounded : Grounded p k) (i : Fin maxTasks) :
    (k.addressSpace i).Coherent k.machine.memory := by
  cases active : (k.addressSpace i).active with
  | true =>
      obtain ⟨lowP3, userP2, p1s, housed⟩ := grounded.housed active
      exact housed.coherent
  | false =>
      have never : ∀ {m : Memory} {writable : Bool} {virt : Nat},
          ¬ (k.addressSpace i).Grants m writable virt := by
        intro m writable virt grants
        rw [active_of_mapped grants.1] at active
        cases active
      exact ⟨fun _ _ _ grants => absurd grants never, fun _ _ grants => absurd grants never⟩

/-- What `copy_to_user` stores is in pages of the task. -/
theorem copyToUser_cases (grounded : Grounded p k) (taskId address : Nat) (bytes : List UInt8) :
    (k.spaces.copyToUser k.machine.memory taskId address bytes).2.2 = k.machine.memory ∨
    ∃ i, k.system.table.findTask taskId = some i ∧
      Pokes k i (k.spaces.copyToUser k.machine.memory taskId address bytes).2.2 := by
  have writes := k.spaces.copyToUser_exact k.machine.memory taskId address bytes
    fun index _ => grounded.coherent index
  cases done : (k.spaces.copyToUser k.machine.memory taskId address bytes).1 with
  | false => exact .inl (writes.refused done)
  | true =>
      have accessible := writes.done_iff.mp done
      obtain ⟨i, found, -⟩ := id accessible
      by_cases empty : bytes.length = 0
      · left
        funext x
        exact writes.only done i found x fun j inside => absurd inside (by omega)
      · obtain ⟨-, -, granted⟩ := accessible.bytes found
        refine .inr ⟨i, found, active_of_mapped (granted 0 (Nat.pos_of_ne_zero empty)).1,
          fun x changed => ?_⟩
        by_contra outside
        refine changed (writes.only done i found x fun j inside isPlace => ?_)
        obtain ⟨page, mem, inPage⟩ := grounded.inPage (granted j inside)
        rw [← isPlace] at outside
        exact outside ⟨page, mem, inPage⟩

/-- A system call writes no more than a buffer of the current task. -/
theorem syscall_cases (grounded : Grounded p k) (call : Process.Syscall) (arg0 : Nat)
    (frame : Process.SyscallFrame) :
    ∃ memory, (k.syscall call arg0 frame).2.2 = { k with
        system := (k.system.dispatch k.userMemory call arg0 frame).2.2
        machine := { k.machine with memory } } ∧
      (memory = k.machine.memory ∨
        ∃ i, k.system.table.findTask k.system.currentTask = some i ∧ Pokes k i memory) := by
  refine ⟨_, rfl, ?_⟩
  cases copiedOut k.system k.userMemory call arg0 frame with
  | none => exact .inl rfl
  | some bytes => exact copyToUser_cases grounded k.system.currentTask arg0 bytes

/-! ### One step -/

/-- What holds of a kernel that has issued `issued` task ids. -/
structure Sound (p : Platform) (k : KernelState source) (issued : Nat) : Prop where
  grounded : Grounded p k
  agrees : k.system.Agrees issued
  lodging : k.system.Lodging
  registered : k.system.Registered

/-- A spawn keeps the ground, whether it succeeds or not. -/
theorem Spawns.grounded {parentId pages : Nat}
    {Good : Process.ProcessImage → AddressSpace → Machine source → Prop}
    {result : Option Task × KernelState source} (spawns : Spawns p k parentId pages Good result)
    (grounded : Grounded p k) (lodging : k.system.Lodging) : Grounded p result.2 := by
  cases spawns with
  | failed unspawned intact holds undone =>
      exact grounded.undone unspawned.slots intact holds undone.apart
  | filled provided _ _ free fresh slots intact unheld holds =>
      exact grounded.filled (lodging.inactive free) provided fresh slots intact unheld holds

/-- The slot of the task that the operation is for. -/
def Op.client (k : KernelState source) : Op → Option (Fin maxTasks)
  | .cleanupTask id => k.system.table.findTask id
  | .writeUserProgram taskId _ => k.system.table.findTask taskId
  | .syscall .. | .userStore .. => k.system.table.findTask k.system.currentTask
  | _ => none

/-- What a step can do. -/
inductive Stepped (p : Platform) (k : KernelState source) (op : Op) : KernelState source → Prop
  | spawn {k' : KernelState source} (isSpawn : op.spawns = true)
      (spawns : ∀ {pages}, p.Fits pages →
        Spawns p k op.parentId pages (Furnished p k op) (spawned p k op, k')) : Stepped p k op k'
  | retire {k' : KernelState source} {id : Nat} {i : Fin maxTasks}
      (isCleanup : op = .cleanupTask id) (client : op.client k = some i)
      (held : (k.system.table.task i).resourcesActive = true)
      (retires : Retires k i (k.cleanupTask p id).1 k') : Stepped p k op k'
  | collect {system : System} {i : Fin maxTasks}
      (holding : ∀ i, (k.system.table.task i).SameHolding (system.table.task i))
      (inactive : (k.addressSpace i).active = false) :
      Stepped p k op { k with system, addressSpace := Function.update k.addressSpace i .empty }
  | store {system : System} {memory : Memory}
      (holding : ∀ i, (k.system.table.task i).SameHolding (system.table.task i))
      (writes : memory = k.machine.memory ∨ ∃ i, op.client k = some i ∧ Pokes k i memory) :
      Stepped p k op { k with system, machine := { k.machine with memory } }

/-- Nothing happens. -/
theorem Stepped.idle (op : Op) : Stepped p k op k :=
  .store (k := k) (fun _ => .refl _) (.inl rfl)

/-- What a step can do, one case for each operation. -/
theorem step_stepped (grounded : Grounded p k) (lodging : k.system.Lodging)
    (registered : k.system.Registered) (aligned : p.EntryAligned) (op : Op) :
    Stepped p k op (step p k op) := by
  have sameSystem : ∀ i, (k.system.table.task i).SameHolding (k.system.table.task i) :=
    fun _ => .refl _
  cases op with
  | spawnElfChild parentId =>
      exact .spawn rfl fun fits => spawned_spawns grounded aligned fits rfl
  | spawnPreemptTask => exact .spawn rfl fun fits => spawned_spawns grounded aligned fits rfl
  | spawnLegacy entryPoint stackTop =>
      exact .spawn rfl fun fits => spawned_spawns grounded aligned fits rfl
  | cleanupTask id =>
      rcases cleanupTask_cases grounded registered lodging id with
        ⟨same, -⟩ | ⟨i, found, held, retires⟩
      · change Stepped p k _ (k.cleanupTask p id).2
        rw [same]
        exact .idle _
      · exact .retire rfl found held retires
  | waitChild parentId childId =>
      have holding := k.system.holdings_step (.waitChild parentId childId) rfl
      change Stepped p k _ (k.waitChild parentId childId).2
      unfold KernelState.waitChild
      dsimp only
      split
      · rename_i index reaped found
        rcases k.system.waitChild_lineage parentId childId with
          ⟨notReaped, -⟩ | ⟨i, foundI, -, inactive, -⟩
        · rw [notReaped] at reaped
          cases reaped
        · obtain rfl := Option.some.inj (found.symm.trans foundI)
          refine .collect holding (Bool.eq_false_iff.mpr fun active => ?_)
          rw [((grounded.active index).mp active).1] at inactive
          cases inactive
      · exact .store holding (.inl rfl)
  | writeUserProgram taskId program =>
      change Stepped p k _ (k.writeUserProgram taskId program).2
      rcases writeUserProgram_cases grounded taskId program with
        same | ⟨i, memory, found, pokes, eq⟩
      · rw [same]
        exact .idle _
      · rw [eq]
        exact .store (k := k) sameSystem (.inr ⟨i, found, pokes⟩)
  | syscall call arg0 frame =>
      change Stepped p k _ (k.syscall call arg0 frame).2.2
      obtain ⟨memory, eq, writes⟩ := syscall_cases grounded call arg0 frame
      rw [eq]
      exact .store (k.system.holdings_step (.syscall k.userMemory call arg0 frame) rfl) writes
  | userStore address byte =>
      change Stepped p k _ (k.userStore address byte)
      rcases userStore_cases grounded address byte with same | ⟨i, memory, found, pokes, eq⟩
      · rw [same]
        exact .idle _
      · rw [eq]
        exact .store (k := k) sameSystem (.inr ⟨i, found, pokes⟩)
  | table op only =>
      refine .store (k := k) (k.system.holdings_step op ?_) (.inl rfl)
      cases op <;> first | rfl | cases only

/-- No step takes the ground away. -/
theorem Stepped.grounded {op : Op} (stepped : Stepped p k op k') (grounded : Grounded p k)
    (lodging : k.system.Lodging) : Grounded p k' := by
  cases stepped with
  | spawn _ spawns => exact (spawns p.fits).grounded grounded lodging
  | retire _ _ held retires => exact grounded.retired held retires
  | collect holding inactive =>
      have same := grounded.same holding
      exact same.forget inactive
  | store holding writes =>
      rcases writes with rfl | ⟨i, -, pokes⟩
      · exact grounded.same holding
      · exact (grounded.write pokes.active pokes.only).same holding

/-! ### Runs -/

def spawnCount (ops : List Op) : Nat := ops.countP Op.spawns

/-- Spawns of the kernel are spawns of the process table. -/
theorem spawns_projection {op : Op} {op' : Process.Op} (projects : projection p k op = some op') :
    op'.spawns = op.spawns := by
  cases op with
  | cleanupTask id =>
      obtain ⟨index, -, rfl⟩ := Option.map_eq_some_iff.mp projects
      rfl
  | table op only =>
      obtain rfl := Option.some.inj projects
      cases op <;> first | rfl | cases only
  | writeUserProgram taskId program => cases projects
  | userStore address byte => cases projects
  | _ =>
      obtain rfl := Option.some.inj projects
      rfl

/-- What one step preserves. -/
theorem step_sound {issued : Nat} (sound : Sound p k issued) (aligned : p.EntryAligned) (op : Op)
    (few : op.spawns = true → issued < maxWord) :
    ∃ issued' ≤ issued + if op.spawns then 1 else 0, Sound p (step p k op) issued' := by
  have grounded := (step_stepped sound.grounded sound.lodging sound.registered aligned op).grounded
    sound.grounded sound.lodging
  have system := step_system p k op
  cases projects : projection p k op with
  | none =>
      rw [projects] at system
      refine ⟨issued, Nat.le_add_right _ _, grounded, ?_, ?_, ?_⟩
      all_goals rw [system]
      · exact sound.agrees
      · exact sound.lodging
      · exact sound.registered
  | some op' =>
      rw [projects] at system
      rw [← spawns_projection projects] at few ⊢
      obtain ⟨issued', le, -, agrees⟩ := Process.step_agrees sound.agrees op' few
      refine ⟨issued', le, grounded, ?_, ?_, ?_⟩
      all_goals rw [system]
      · exact agrees
      · exact Process.step_lodging sound.lodging sound.agrees op' few
      · exact System.step_registered sound.registered sound.lodging sound.agrees op' few

/-- What a whole run preserves, by induction over its steps. -/
theorem run_sound {issued : Nat} (sound : Sound p k issued) (aligned : p.EntryAligned)
    (ops : List Op) (few : issued + spawnCount ops ≤ maxWord) :
    ∃ issued' ≤ issued + spawnCount ops, Sound p (run p k ops) issued' := by
  induction ops generalizing k issued with
  | nil => exact ⟨issued, le_rfl, sound⟩
  | cons op ops ih =>
      have count : spawnCount (op :: ops) = spawnCount ops + if op.spawns then 1 else 0 :=
        List.countP_cons
      rw [count] at few ⊢
      obtain ⟨issued₁, le, sound₁⟩ := step_sound sound aligned op fun spawns => by
        rw [spawns, if_pos rfl] at few
        omega
      obtain ⟨issued', le', sound'⟩ := ih sound₁ (by omega)
      exact ⟨issued', by omega, sound'⟩

/-- The state in which the first task is spawned: tables and heap are set up, and no
space or allocation is in use. What was done with them before is left open. -/
structure Starts (p : Platform) (k : KernelState source) : Prop where
  reserved : p.boot.Reserved source
  system : k.system = System.boot
  spaces : k.addressSpace = fun _ => .empty
  machine : ∃ w, World.Reachable p.boot w ∧ w.machine = k.machine ∧
    ∀ n space, ¬ w.Active n space
  intact : k.heap.Intact
  heap : ∀ a, ¬ k.heap.Holds a

/-- The kernel starts out sound. -/
theorem Starts.sound (starts : Starts p k) : Sound p k 0 := by
  obtain ⟨reserved, system, spaces, ⟨w, reachable, machine, unused⟩, intact, heap⟩ := starts
  have held : ∀ i, (k.system.table.task i).resourcesActive = false := by
    rw [system]
    exact fun _ => rfl
  have inactive : ∀ i, ¬ (k.addressSpace i).active = true := by
    rw [spaces]
    exact fun _ active => by cases active
  refine ⟨⟨?_, fun i active => absurd active (inactive i), fun i => ?_,
    fun i active => absurd active (inactive i), fun i active => absurd active (inactive i), intact,
    fun a => ?_, fun i j heldI => ?_⟩, ?_, ?_, ?_⟩
  · have closed := reachable.closed reserved
    have confined : Paging.Confined (fun _ => False) w.machine k.world.machine := by
      rw [machine]
      exact .refl _ _
    refine closed.changes (n := 0) confined (fun _ _ => not_false) fun n space active => ?_
    obtain ⟨i, -, rfl, isActive⟩ := active_world.mp active
    exact absurd isActive (inactive i)
  · rw [held]
    exact iff_of_false (inactive i) fun both => Bool.false_ne_true both.1
  · refine iff_of_false (heap a) ?_
    rintro ⟨i, heldI, -⟩
    rw [held] at heldI
    cases heldI
  · rw [held] at heldI
    cases heldI
  · rw [system]
    exact Process.boot_agrees
  · rw [system]
    exact Process.boot_lodging
  · rw [system]
    exact Process.boot_registered

/-! ### A small machine -/

/-- One page of code, entered at its start. -/
def pageImage : Elf.Slice where
  bytes := Elf.smallImage.bytes.set 24 0x00
  bounded := by decide

def smallPlatform : Platform := ⟨Paging.imageTables, some pageImage⟩

def smallKernel : KernelState (PhysMem.SoundAllocator.source Paging.roomyMap) where
  system := .boot
  addressSpace := fun _ => .empty
  machine := Paging.imageTables.enter Paging.roomyMachine
  heap := Heap.blankHeap.resetAllocator

theorem pageImage_accepted : Elf.validateImage pageImage.bytes =
    .ok { Elf.smallPlan with entryPoint := 0x40100000 } := by decide +kernel

theorem smallPlatform_aligned : smallPlatform.EntryAligned := by
  rintro _ ⟨⟩ plan valid
  obtain rfl := Except.ok.inj (pageImage_accepted.symm.trans valid)
  rfl

theorem smallPlatform_fits : smallPlatform.Fits 1 := by
  refine ⟨by decide, ?_⟩
  rintro _ ⟨⟩ plan valid
  obtain rfl := Except.ok.inj (pageImage_accepted.symm.trans valid)
  exact le_rfl

theorem smallKernel_starts : Starts smallPlatform smallKernel where
  reserved := Paging.imageTables_reserved_roomyMap
  system := rfl
  spaces := rfl
  machine := by
    refine ⟨World.first Paging.imageTables Paging.roomyMachine, .first _, rfl, ?_⟩
    rintro n space ⟨found, -⟩
    cases found
  intact := KernelHeap.resetAllocator_intact ⟨rfl, rfl, rfl, rfl⟩
  heap := fun a held => Lib.Custody.not_held_nil
    (((KernelHeap.resetAllocator_tracks ⟨rfl, rfl, rfl, rfl⟩).held a).mp held)

end CloudOS.Kernel
