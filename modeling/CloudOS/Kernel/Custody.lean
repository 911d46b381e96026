import CloudOS.Kernel.Run

/-!
Who holds what, after every run of the kernel.

* `run_custody`: tasks and what they hold are one to one, and the process table runs as
  it does on its own.
* `failed_spawn_traceless`: a spawn that answers no task leaves nothing behind.
* `spawn_furnishes`: a spawn that answers a task puts it into a space that shows
  `/bin/init` and nothing else, in frames that nobody had.
* `cleanup_returns`: a cleanup gives back what the task held, as long as the list of
  freed frames has room.
-/

namespace CloudOS.Kernel

open Lib.Store (Memory writeBytes)
open Lib.Word (maxWord)
open CloudOS.Elf (Built Undone)
open CloudOS.Heap (KernelHeap)
open CloudOS.Paging (AddressSpace Apart InUserSlot Made Machine)
open CloudOS.PhysMem (FrameSource maxRecycledFrames)
open CloudOS.Process (System Task maxTasks)

variable {source : FrameSource} {p : Platform} {k k' : KernelState source} {i j : Fin maxTasks}

/-! ### One to one -/

/-- A task with resources has an id, an allocation and an endpoint to itself, and with a
root also a space. There are no other spaces, allocations or endpoints in use. -/
structure Custody (p : Platform) (k : KernelState source) : Prop where
  space : ∀ i, (k.addressSpace i).active = true ↔
    (k.system.table.task i).resourcesActive = true ∧
      (k.system.table.task i).addressSpaceRoot ≠ 0
  root : ∀ i, (k.addressSpace i).active = true →
    (k.addressSpace i).rootFrame = (k.system.table.task i).addressSpaceRoot
  issued : ∀ i, ∀ frame ∈ k.holdings i, source.Usable frame ∧ k.machine.Issued frame
  nodup : ∀ i, (k.holdings i).Nodup
  disjoint : ∀ i j, i ≠ j → (k.holdings i).Disjoint (k.holdings j)
  offBoot : ∀ i, ∀ frame ∈ k.holdings i, ¬ p.boot.Has k.machine frame
  allocation : ∀ a, k.heap.Holds a ↔ ∃ i, (k.system.table.task i).resourcesActive = true ∧
    (k.system.table.task i).heapAllocation = a
  distinct : ∀ i j, (k.system.table.task i).resourcesActive = true →
    (k.system.table.task j).resourcesActive = true →
    (k.system.table.task i).heapAllocation = (k.system.table.task j).heapAllocation → i = j
  named : ∀ i, (k.system.table.task i).resourcesActive = true →
    (k.system.table.task i).id ≠ 0
  identity : ∀ i j, (k.system.table.task i).resourcesActive = true →
    (k.system.table.task j).resourcesActive = true →
    (k.system.table.task i).id = (k.system.table.task j).id → i = j
  endpoint : ∀ i, (k.system.table.task i).resourcesActive = true →
    ∃! e, k.system.ipc.owners e = (k.system.table.task i).id
  tenant : ∀ e, k.system.ipc.owners e ≠ 0 →
    ∃ i, (k.system.table.task i).resourcesActive = true ∧
      (k.system.table.task i).id = k.system.ipc.owners e

theorem Grounded.nodup_holdings (grounded : Grounded p k) (i : Fin maxTasks) :
    (k.holdings i).Nodup := by
  unfold KernelState.holdings
  split
  · rename_i active
    exact (k.addressSpace i).freed_perm.nodup_iff.mpr (grounded.nodup active)
  · exact List.nodup_nil

theorem Grounded.disjoint_holdings (grounded : Grounded p k) (ne : i ≠ j) :
    (k.holdings i).Disjoint (k.holdings j) := by
  intro frame mem mem'
  obtain ⟨activeI, memI⟩ := mem_holdings.mp mem
  obtain ⟨activeJ, memJ⟩ := mem_holdings.mp mem'
  exact grounded.disjoint ne activeI activeJ frame memI memJ

/-- A task with resources has the only endpoint in its name. -/
theorem Sound.endpoint {issued : Nat} (sound : Sound p k issued)
    (held : (k.system.table.task i).resourcesActive = true) :
    (k.system.table.task i).id ≠ 0 ∧ ∃! e, k.system.ipc.owners e = (k.system.table.task i).id := by
  have positive := (sound.agrees.ids i (sound.lodging.lodged.occupied i held)).1
  obtain ⟨e, owner⟩ := sound.registered i held
  refine ⟨by omega, e, owner, fun e' owner' => ?_⟩
  exact sound.lodging.lodged.single e e' (by omega) (owner'.trans owner.symm)

/-- What a sound kernel knows of its tasks makes the custody. -/
theorem Sound.custody {issued : Nat} (sound : Sound p k issued) : Custody p k where
  space := sound.grounded.active
  root := sound.grounded.root
  issued := fun i frame mem => by
    obtain ⟨active, mem⟩ := mem_holdings.mp mem
    exact ⟨sound.grounded.usable i active frame mem, sound.grounded.issued active frame mem⟩
  nodup := sound.grounded.nodup_holdings
  disjoint := fun _ _ ne => sound.grounded.disjoint_holdings ne
  offBoot := fun i frame mem => by
    obtain ⟨active, mem⟩ := mem_holdings.mp mem
    exact sound.grounded.closed.coherent.offBoot i _ (active_slot active) frame mem
  allocation := sound.grounded.heap
  distinct := sound.grounded.distinct
  named := fun i held => (sound.endpoint held).1
  identity := fun i j heldI heldJ same =>
    sound.agrees.distinct i j (sound.lodging.lodged.occupied i heldI)
      (sound.lodging.lodged.occupied j heldJ) same
  endpoint := fun i held => (sound.endpoint held).2
  tenant := sound.lodging.lodged.owned

theorem Starts.run_sound (starts : Starts p k) (aligned : p.EntryAligned) (ops : List Op)
    (few : spawnCount ops ≤ maxWord) :
    ∃ issued ≤ spawnCount ops, Sound p (run p k ops) issued := by
  obtain ⟨issued, le, sound⟩ := Kernel.run_sound starts.sound aligned ops (by omega)
  exact ⟨issued, by omega, sound⟩

/-- In every state the kernel reaches, the tasks and what they hold are one to one, and
the process table is where it would be on its own. -/
theorem run_custody (starts : Starts p k) (aligned : p.EntryAligned) (ops : List Op)
    (few : spawnCount ops ≤ maxWord) :
    Custody p (run p k ops) ∧
      (run p k ops).system = Process.run .boot (projections p k ops) := by
  obtain ⟨issued, -, sound⟩ := starts.run_sound aligned ops few
  refine ⟨sound.custody, ?_⟩
  rw [run_system, starts.system]

theorem run_custody_smallKernel : Custody smallPlatform (run smallPlatform smallKernel
    [.spawnElfChild 0, .spawnPreemptTask, .cleanupTask 1, .waitChild 0 1]) :=
  (run_custody smallKernel_starts smallPlatform_aligned _ (by decide)).1

/-! ### Spawns -/

/-- Nothing is left of a spawn that failed. -/
structure Traceless (k k' : KernelState source) : Prop where
  unspawned : Unspawned k.system k'.system
  spaces : k'.addressSpace = k.addressSpace
  heap : ∀ a, k'.heap.Holds a ↔ k.heap.Holds a
  issued : ∀ x, k'.machine.Issued x ↔ k.machine.Issued x
  untouched : Apart k.machine k'.machine

theorem Spawns.traceless {parentId pages : Nat}
    {Good : Process.ProcessImage → AddressSpace → Machine source → Prop}
    (spawns : Spawns p k parentId pages Good (none, k')) : Traceless k k' := by
  cases spawns with
  | failed unspawned intact holds undone =>
      exact ⟨unspawned, rfl, holds, undone.restores.issued, undone.apart⟩

/-- A spawn that fails, at whatever point and after whatever run, takes nothing. -/
theorem failed_spawn_traceless (starts : Starts p k) (aligned : p.EntryAligned) (ops : List Op)
    (few : spawnCount ops ≤ maxWord) {op : Op} (isSpawn : op.spawns = true)
    (fails : spawned p (run p k ops) op = none) :
    Traceless (run p k ops) (step p (run p k ops) op) := by
  obtain ⟨issued, -, sound⟩ := starts.run_sound aligned ops few
  have spawns := spawned_spawns sound.grounded aligned p.fits isSpawn
  rw [fails] at spawns
  exact spawns.traceless

/-- The ninth task finds no free slot, after its space was built and its memory allocated. -/
theorem failed_spawn_traceless_full :
    let k := run smallPlatform smallKernel (List.replicate 8 (.spawnElfChild 0))
    k.system.table.freeSlot = none ∧ Traceless k (step smallPlatform k (.spawnElfChild 0)) :=
  ⟨by decide +kernel, failed_spawn_traceless smallKernel_starts smallPlatform_aligned
    (List.replicate 8 (.spawnElfChild 0)) (by decide) rfl (by decide +kernel)⟩

/-- What user code finds in the space of a new task. The loop of a preemption test lies
over the image, at the entry point. -/
def Shows (p : Platform) (op : Op) (entryPoint : Nat) (space : AddressSpace) (memory : Memory) :
    Prop :=
  match op with
  | .spawnElfChild _ => ∃ file plan, p.init = some file ∧
      Elf.validateImage file.bytes = .ok plan ∧ entryPoint = plan.entryPoint ∧
      Elf.Loaded file.bytes plan Paging.unmapped (space.translate memory) memory
  | .spawnPreemptTask => ∃ file plan before, p.init = some file ∧
      Elf.validateImage file.bytes = .ok plan ∧ entryPoint = plan.entryPoint ∧
      Elf.Loaded file.bytes plan Paging.unmapped (space.translate before) before ∧
      space.Grants before false entryPoint ∧
      memory = writeBytes before (space.translate before entryPoint).phys spinProgram ∧
      ∀ virt, InUserSlot virt → space.translate memory virt = space.translate before virt
  | .spawnLegacy .. => space = .empty
  | _ => False

theorem Made.translate_eq {before s : Machine source} {boot : Paging.BootTables}
    {space : AddressSpace} {machine machine' : Machine source}
    (made : Made boot s space machine) (made' : Made boot before space machine') {virt : Nat}
    (inSlot : InUserSlot virt) :
    space.translate machine'.memory virt = space.translate machine.memory virt := by
  obtain ⟨lowP3, userP2, p1s, owns, -⟩ := made.owns
  obtain ⟨lowP3', userP2', p1s', owns', -⟩ := made'.owns
  rw [owns.translate made.active made.positive inSlot,
    owns'.translate made'.active made'.positive inSlot]

/-- What a furnished space shows is the image it was made from. -/
theorem Furnished.shows_of {op : Op} {image : Process.ProcessImage} {space : AddressSpace}
    {machine : Machine source} (furnished : Furnished p k op image space machine)
    (grounded : Grounded p k) (aligned : p.EntryAligned) :
    Shows p op image.entryPoint space machine.memory := by
  cases op with
  | spawnElfChild parentId =>
      obtain ⟨file, plan, process, init, valid, built, rfl, rfl⟩ := furnished
      exact ⟨file, plan, init, valid, built.entryPoint, built.loaded⟩
  | spawnPreemptTask =>
      obtain ⟨file, plan, process, before, spins⟩ := furnished
      have made := spins.made grounded aligned
      obtain ⟨⟨init, valid, built, rfl, rfl⟩, grants, eq⟩ := spins
      refine ⟨file, plan, before.memory, init, valid, built.entryPoint, built.loaded, grants,
        congrArg Machine.memory eq, fun virt inSlot => ?_⟩
      exact Made.translate_eq (Built.made built) made inSlot
  | spawnLegacy entryPoint stackTop => exact furnished.1
  | _ => exact furnished

/-- A spawn put the task into slot `i`, with a space and an allocation of its own. -/
structure Furnishes (p : Platform) (k : KernelState source) (op : Op) (task : Task)
    (k' : KernelState source) (i : Fin maxTasks) : Prop where
  free : k.system.table.freeSlot = some i
  installed : k'.system.table.task i = task
  fresh : ∃ address image, task = System.freshTask k.system.table.nextTaskId op.parentId address image
  others : ∀ j, j ≠ i → k'.system.table.task j = k.system.table.task j
  spaces : ∀ j, j ≠ i → k'.addressSpace j = k.addressSpace j
  unheld : ¬ k.heap.Holds task.heapAllocation
  heap : ∀ a, k'.heap.Holds a ↔ a = task.heapAllocation ∨ k.heap.Holds a
  unissued : ∀ frame ∈ k'.holdings i, ¬ k.machine.Issued frame
  issued : ∀ x, k'.machine.Issued x ↔ k.machine.Issued x ∨ x ∈ k'.holdings i
  untouched : Apart k.machine k'.machine
  shown : Shows p op task.entryPoint (k'.addressSpace i) k'.machine.memory

/-- What a new space takes from the supply of frames. -/
theorem Grounded.Provided.takes {image : Process.ProcessImage} {space : AddressSpace}
    {machine : Machine source} (provided : Grounded.Provided p k image space machine) :
    Apart k.machine machine ∧ ∃ taken, source.Draws k.machine.frames taken machine.frames ∧
      (if space.active then space.freed else []).Perm taken := by
  cases provided with
  | made made =>
      obtain ⟨taken, draws, perm⟩ := made.draws
      refine ⟨made.apart, taken, draws, ?_⟩
      rw [made.active, if_pos rfl]
      exact space.freed_perm.trans perm
  | none => exact ⟨.refl _ _, [], .done _, .refl _⟩

/-- The parts of a successful spawn, put together. -/
theorem Spawns.furnishes {op : Op} {pages : Nat} {task : Task}
    (spawns : Spawns p k op.parentId pages (Furnished p k op) (some task, k'))
    (grounded : Grounded p k) (aligned : p.EntryAligned) : ∃ i, Furnishes p k op task k' i := by
  cases spawns with
  | filled provided furnished short free fresh slots intact unheld holds =>
      rename_i image space system heap machine index slot address
      obtain ⟨apart, taken, draws, perm⟩ := provided.takes
      have tasks : system.table.task = Function.update k.system.table.task index slot.task :=
        Process.ProcessTable.task_of_slots slots
      have allocation : slot.task.heapAllocation = address := by
        rw [fresh]
        rfl
      have entryPoint : slot.task.entryPoint = image.entryPoint := by
        rw [fresh]
        rfl
      refine ⟨index, free, ?_, ⟨_, _, fresh⟩, fun j other => ?_,
        fun j other => Function.update_of_ne other .., ?_, ?_, ?_, ?_, apart, ?_⟩
      · dsimp only
        rw [tasks, Function.update_self]
      · dsimp only
        rw [tasks, Function.update_of_ne other]
      · rw [allocation]
        exact unheld
      · rw [allocation]
        exact holds
      · rw [holdings_of_space (Function.update_self ..)]
        exact fun frame mem => draws.fresh.2 frame (perm.mem_iff.mp mem)
      · rw [holdings_of_space (Function.update_self ..)]
        exact fun x => (draws.outstanding x).trans (or_congr_right perm.mem_iff.symm)
      · dsimp only
        rw [Function.update_self, entryPoint]
        exact furnished.shows_of grounded aligned

/-- A spawn that answers a task has put it into the free slot. Its space shows the image,
and it takes from nobody. -/
theorem spawn_furnishes (starts : Starts p k) (aligned : p.EntryAligned) (ops : List Op)
    (few : spawnCount ops ≤ maxWord) {op : Op} {task : Task}
    (makes : spawned p (run p k ops) op = some task) :
    ∃ i, Furnishes p (run p k ops) op task (step p (run p k ops) op) i := by
  obtain ⟨issued, -, sound⟩ := starts.run_sound aligned ops few
  have isSpawn : op.spawns = true := by
    cases op with
    | spawnElfChild | spawnPreemptTask | spawnLegacy => rfl
    | _ => cases makes
  have spawns := spawned_spawns sound.grounded aligned p.fits isSpawn
  rw [makes] at spawns
  exact spawns.furnishes sound.grounded aligned

theorem spawn_furnishes_second :
    let k := run smallPlatform smallKernel [.spawnElfChild 0]
    ∃ task i, Furnishes smallPlatform k .spawnPreemptTask task
      (step smallPlatform k .spawnPreemptTask) i := by
  have makes : (spawned smallPlatform (run smallPlatform smallKernel [.spawnElfChild 0])
      .spawnPreemptTask).isSome = true := by decide +kernel
  obtain ⟨task, makes⟩ := Option.isSome_iff_exists.mp makes
  exact ⟨task, spawn_furnishes smallKernel_starts smallPlatform_aligned [.spawnElfChild 0]
    (by decide) makes⟩

/-! ### Cleanups -/

end CloudOS.Kernel
