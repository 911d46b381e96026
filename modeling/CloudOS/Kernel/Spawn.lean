import CloudOS.Kernel.Grounded

/-!
How the spawns of the kernel end.

A spawn that fails gives the allocation and the frames back: the tasks, what they hold and
their spaces are as before. One that succeeds puts the new task, its space and its
allocation into the free slot and touches nothing that others hold.
-/

namespace CloudOS.Kernel

open Lib.Store (Memory writeBytes)
open CloudOS.Elf (Built Undone)
open CloudOS.Heap (KernelHeap)
open CloudOS.Paging (AddressSpace Apart BootTables Laid Machine Made World pageSize4k)
open CloudOS.PhysMem (FrameSource maxRecycledFrames)
open CloudOS.Process (ProcessSlot System Task maxTasks)

variable {source : FrameSource} {p : Platform} {k k' : KernelState source} {i j : Fin maxTasks}

/-! ### The free slot -/

/-- No task came of it: a task id and some counters are spent at most. -/
structure Unspawned (s s' : System) : Prop where
  slots : s'.table.slots = s.table.slots
  ipc : s'.ipc = s.ipc
  scheduler : s'.scheduler = s.scheduler

/-- An endpoint that is refused leaves the message layer alone. -/
theorem register_unchanged {ipc ipc' : Ipc.IpcState} {taskId : Nat} {error : Ipc.IpcError}
    (refused : ipc.register taskId = (.error error, ipc')) : ipc' = ipc := by
  unfold Ipc.IpcState.register at refused
  split_ifs at refused
  · exact (Prod.mk.inj refused).2.symm
  · exact (Prod.mk.inj refused).2.symm
  · cases refused
  · split at refused
    · exact (Prod.mk.inj refused).2.symm
    · cases refused

/-- `install_task` fails without touching a slot, or fills the free one. -/
theorem installTask_cases (s : System) (parentId heapAllocation : Nat)
    (image : Process.ProcessImage) :
    ((s.installTask parentId heapAllocation image).1 = none ∧
      Unspawned s (s.installTask parentId heapAllocation image).2) ∨
    ∃ index slot, s.table.freeSlot = some index ∧
      (s.installTask parentId heapAllocation image).1 = some slot.task ∧
      slot.task = System.freshTask s.table.nextTaskId parentId heapAllocation image ∧
      (s.installTask parentId heapAllocation image).2.table.slots =
        Function.update s.table.slots index slot := by
  unfold System.installTask
  dsimp only
  have same : (if s.table.initialized then s.table else s.table.init).slots = s.table.slots ∧
      (if s.table.initialized then s.table else s.table.init).nextTaskId = s.table.nextTaskId := by
    split
    · exact ⟨rfl, rfl⟩
    · exact ⟨rfl, rfl⟩
  generalize (if s.table.initialized then s.table else s.table.init) = table at same
  obtain ⟨slots, next⟩ := same
  have free : table.freeSlot = s.table.freeSlot := by
    unfold Process.ProcessTable.freeSlot Process.ProcessTable.task
    rw [slots]
  cases found : table.freeSlot with
  | none => exact .inl ⟨rfl, slots, rfl, rfl⟩
  | some index =>
      dsimp only
      split
      · rename_i refused
        exact .inl ⟨rfl, slots, register_unchanged refused, rfl⟩
      · refine .inr ⟨index, ⟨System.freshTask table.nextTaskId parentId heapAllocation image,
          Process.initialTimerContext image.entryPoint image.stackTop, true⟩,
          free.symm.trans found, rfl, ?_, ?_⟩
        · rw [next]
        · rw [← slots]

/-- How the common end of the spawns ends. -/
inductive SpawnEnds (p : Platform) (k : KernelState source) (parentId : Nat) (space : AddressSpace)
    (image : Process.ProcessImage) : Option Task × KernelState source → Prop
  | failed {system : System} {heap : KernelHeap} (unspawned : Unspawned k.system system)
      (intact : heap.Intact) (holds : ∀ a, heap.Holds a ↔ k.heap.Holds a) :
      SpawnEnds p k parentId space image (none, { k with
        system
        heap
        machine := (space.destroy k.machine p.boot.p4).2.2 })
  | filled {system : System} {heap : KernelHeap} {index : Fin maxTasks} {slot : ProcessSlot}
      {address : Nat} (free : k.system.table.freeSlot = some index)
      (fresh : slot.task = System.freshTask k.system.table.nextTaskId parentId address image)
      (slots : system.table.slots = Function.update k.system.table.slots index slot)
      (intact : heap.Intact) (unheld : ¬ k.heap.Holds address)
      (holds : ∀ a, heap.Holds a ↔ a = address ∨ k.heap.Holds a) :
      SpawnEnds p k parentId space image (some slot.task, { k with
        system
        heap
        addressSpace := Function.update k.addressSpace index space })

/-- Where a spawn can end once there is an image. -/
theorem spawnImage_ends (intact : k.heap.Intact) (parentId : Nat) (space : AddressSpace)
    (image : Process.ProcessImage) :
    SpawnEnds p k parentId space image (k.spawnImage p parentId space image) := by
  unfold KernelState.spawnImage
  cases allocs : k.heap.alloc taskHeapBytes taskHeapAlignment with
  | mk answer heap =>
  cases answer with
  | none =>
      obtain ⟨intact', holds⟩ := intact.alloc_none allocs
      exact .failed (k := k) ⟨rfl, rfl, rfl⟩ intact' holds
  | some address =>
      obtain ⟨intact', unheld, holds⟩ := intact.alloc_some allocs
      -- giving the allocation back leaves what was held before
      have undone : ∀ a, (heap.free address).2.Holds a ↔ k.heap.Holds a := by
        intro a
        rw [(intact'.free_held ((holds address).mpr (.inl rfl))).2.2, holds]
        constructor
        · rintro ⟨other, same | held⟩
          · exact absurd same other
          · exact held
        · exact fun held => ⟨fun same => unheld (same ▸ held), .inr held⟩
      dsimp only
      unfold KernelState.installTask
      dsimp only
      rcases installTask_cases k.system parentId address image with
        ⟨failed, unspawned⟩ | ⟨index, slot, free, task, fresh, slots⟩
      · revert failed unspawned
        generalize k.system.installTask parentId address image = installed
        obtain ⟨result, system⟩ := installed
        rintro rfl unspawned
        exact .failed (k := k) unspawned (intact'.free address) undone
      · revert task slots
        generalize k.system.installTask parentId address image = installed
        obtain ⟨result, system⟩ := installed
        rintro rfl slots
        rw [free]
        exact .filled (k := k) free fresh slots intact' unheld holds

/-! ### What a spawn leaves -/

namespace Grounded

/-- Nobody notices a spawn that failed. -/
theorem undone (grounded : Grounded p k) {system : System} {heap : KernelHeap}
    {machine : Machine source} (slots : system.table.slots = k.system.table.slots)
    (intact : heap.Intact) (holds : ∀ a, heap.Holds a ↔ k.heap.Holds a)
    (apart : Apart k.machine machine) : Grounded p { k with system, heap, machine } := by
  have tasks : system.table.task = k.system.table.task := by
    funext i
    rw [Process.ProcessTable.task, slots]
    rfl
  refine
    { closed := grounded.closed.changes (n := 0) apart (fun _ _ => not_false)
        fun n space active => .inl ⟨active, fun _ _ => not_false⟩
      usable := grounded.usable
      active := ?_
      root := ?_
      entry := ?_
      intact := intact
      heap := ?_
      distinct := ?_ }
  all_goals
    dsimp only
    rw [tasks]
  · exact grounded.active
  · exact grounded.root
  · exact grounded.entry
  · exact fun a => (holds a).trans (grounded.heap a)
  · exact grounded.distinct

/-- What a new task gets for a space: one that was made for it, or none. -/
inductive Provided (p : Platform) (k : KernelState source) (image : Process.ProcessImage) :
    AddressSpace → Machine source → Prop
  | made {space : AddressSpace} {machine : Machine source}
      (made : Made p.boot k.machine space machine) (root : image.rootFrame = space.rootFrame)
      (entry : image.entryPoint % pageSize4k = 0) : Provided p k image space machine
  | none (root : image.rootFrame = 0) : Provided p k image .empty k.machine

/-- What a task and the space of its slot have in common. -/
structure Suits (source : FrameSource) (task : Task) (space : AddressSpace) : Prop where
  usable : space.active = true → ∀ frame ∈ space.frames, source.Usable frame
  active : space.active = true ↔ task.resourcesActive = true ∧ task.addressSpaceRoot ≠ 0
  root : space.active = true → space.rootFrame = task.addressSpaceRoot
  entry : space.active = true → task.entryPoint % pageSize4k = 0

theorem suits (grounded : Grounded p k) (i : Fin maxTasks) :
    Suits source (k.system.table.task i) (k.addressSpace i) :=
  ⟨grounded.usable i, grounded.active i, grounded.root i, grounded.entry i⟩

/-- The space was made for the task. -/
theorem Provided.suits {image : Process.ProcessImage} {space : AddressSpace}
    {machine : Machine source} (provided : Provided p k image space machine)
    (id parentId address : Nat) :
    Suits source (System.freshTask id parentId address image) space := by
  cases provided with
  | made made root entry =>
      exact ⟨fun _ => made.usable,
        iff_of_true made.active ⟨rfl, fun zero => made.positive (root.symm.trans zero)⟩,
        fun _ => root.symm, fun _ => entry⟩
  | none root =>
      exact ⟨nofun, iff_of_false Bool.false_ne_true fun both => both.2 root, nofun, nofun⟩

theorem Provided.apart {image : Process.ProcessImage} {space : AddressSpace}
    {machine : Machine source} (provided : Provided p k image space machine) :
    Apart k.machine machine := by
  cases provided with
  | made made => exact made.apart
  | none => exact .refl _ _

/-- The machine stays in order with the new space in a slot that had none. -/
theorem closed_filled (grounded : Grounded p k) {image : Process.ProcessImage}
    {space : AddressSpace} {machine : Machine source} {index : Fin maxTasks}
    (vacant : (k.addressSpace index).active = false)
    (provided : Provided p k image space machine) :
    World.Closed p.boot ⟨machine, List.ofFn (Function.update k.addressSpace index space)⟩ := by
  refine grounded.closed.changes (n := index) provided.apart (fun _ _ => not_false)
    fun n other active => ?_
  obtain ⟨j, rfl, isSpace, isActive⟩ := active_world
    (k := { k with machine, addressSpace := Function.update k.addressSpace index space }).mp active
  dsimp only at isSpace
  by_cases here : j = index
  · subst here
    rw [Function.update_self] at isSpace
    subst isSpace
    cases provided with
    | made made => exact .inr ⟨rfl, made⟩
    | none => cases isActive
  · rw [Function.update_of_ne here] at isSpace
    exact .inl ⟨active_world.mpr ⟨j, rfl, isSpace, isActive⟩, fun _ _ => not_false⟩

section Allocation

variable {index : Fin maxTasks} {task : Task} {address : Nat}

/-- With the allocation of the new task, the heap holds what the tasks have. -/
theorem heap_filled (grounded : Grounded p k)
    (inactive : (k.system.table.task index).resourcesActive = false)
    (held : task.resourcesActive = true) (allocation : task.heapAllocation = address) (a : Nat) :
    a = address ∨ k.heap.Holds a ↔
      ∃ i, (Function.update k.system.table.task index task i).resourcesActive = true ∧
        (Function.update k.system.table.task index task i).heapAllocation = a := by
  rw [grounded.heap]
  constructor
  · rintro (rfl | ⟨j, heldJ, isAllocation⟩)
    · exact ⟨index, by rw [Function.update_self]; exact ⟨held, allocation⟩⟩
    · have here : j ≠ index := by
        rintro rfl
        rw [heldJ] at inactive
        cases inactive
      exact ⟨j, by rw [Function.update_of_ne here]; exact ⟨heldJ, isAllocation⟩⟩
  · rintro ⟨j, heldJ, isAllocation⟩
    by_cases here : j = index
    · rw [here, Function.update_self] at isAllocation
      exact .inl (isAllocation.symm.trans allocation)
    · rw [Function.update_of_ne here] at heldJ isAllocation
      exact .inr ⟨j, heldJ, isAllocation⟩

/-- The new allocation is nobody else's. -/
theorem distinct_filled (grounded : Grounded p k) (unheld : ¬ k.heap.Holds address)
    (allocation : task.heapAllocation = address) {i j : Fin maxTasks}
    (heldI : (Function.update k.system.table.task index task i).resourcesActive = true)
    (heldJ : (Function.update k.system.table.task index task j).resourcesActive = true)
    (same : (Function.update k.system.table.task index task i).heapAllocation =
      (Function.update k.system.table.task index task j).heapAllocation) : i = j := by
  have other : ∀ {j}, (k.system.table.task j).resourcesActive = true →
      (k.system.table.task j).heapAllocation ≠ address :=
    fun {j} held isAddress => unheld ((grounded.heap address).mpr ⟨j, held, isAddress⟩)
  by_cases hereI : i = index
  · by_cases hereJ : j = index
    · exact hereI.trans hereJ.symm
    · rw [Function.update_of_ne hereJ] at heldJ same
      rw [hereI, Function.update_self, allocation] at same
      exact absurd same.symm (other heldJ)
  · rw [Function.update_of_ne hereI] at heldI same
    by_cases hereJ : j = index
    · rw [hereJ, Function.update_self, allocation] at same
      exact absurd same (other heldI)
    · rw [Function.update_of_ne hereJ] at heldJ same
      exact grounded.distinct i j heldI heldJ same

end Allocation

/-- The new task in its slot, with what it was given. -/
theorem filled (grounded : Grounded p k) {parentId address : Nat} {image : Process.ProcessImage}
    {space : AddressSpace} {system : System} {heap : KernelHeap} {machine : Machine source}
    {index : Fin maxTasks} {slot : ProcessSlot}
    (inactive : (k.system.table.task index).resourcesActive = false)
    (provided : Provided p k image space machine)
    (fresh : slot.task = System.freshTask k.system.table.nextTaskId parentId address image)
    (slots : system.table.slots = Function.update k.system.table.slots index slot)
    (intact : heap.Intact) (unheld : ¬ k.heap.Holds address)
    (holds : ∀ a, heap.Holds a ↔ a = address ∨ k.heap.Holds a) :
    Grounded p { k with
      system
      heap
      machine
      addressSpace := Function.update k.addressSpace index space } := by
  have tasks : system.table.task = Function.update k.system.table.task index slot.task :=
    Process.ProcessTable.task_of_slots slots
  have held : slot.task.resourcesActive = true := by rw [fresh]; rfl
  have allocation : slot.task.heapAllocation = address := by rw [fresh]; rfl
  have vacant : (k.addressSpace index).active = false := by
    rw [Bool.eq_false_iff]
    intro active
    rw [((grounded.active index).mp active).1] at inactive
    cases inactive
  have slotwise : ∀ j, Suits source (system.table.task j)
      (Function.update k.addressSpace index space j) := by
    intro j
    by_cases here : j = index
    · rw [here, tasks, Function.update_self, Function.update_self, fresh]
      exact provided.suits _ _ _
    · rw [tasks, Function.update_of_ne here, Function.update_of_ne here]
      exact grounded.suits j
  exact
    { closed := grounded.closed_filled vacant provided
      usable := fun j => (slotwise j).usable
      active := fun j => (slotwise j).active
      root := fun j => (slotwise j).root
      entry := fun j => (slotwise j).entry
      intact := intact
      heap := fun a => by
        dsimp only
        rw [holds, tasks]
        exact grounded.heap_filled inactive held allocation a
      distinct := by
        dsimp only
        rw [tasks]
        exact fun i j heldI heldJ same =>
          grounded.distinct_filled unheld allocation heldI heldJ same }

end Grounded

/-! ### The three spawns -/

/-- How a spawn ends, if an image has at most so many pages. `Good` says what the new
space is like. -/
inductive Spawns (p : Platform) (k : KernelState source) (parentId pages : Nat)
    (Good : Process.ProcessImage → AddressSpace → Machine source → Prop) :
    Option Task × KernelState source → Prop
  | failed {system : System} {heap : KernelHeap} {machine : Machine source}
      (unspawned : Unspawned k.system system) (intact : heap.Intact)
      (holds : ∀ a, heap.Holds a ↔ k.heap.Holds a)
      (undone : Undone k.machine machine (pages + 7)) :
      Spawns p k parentId pages Good (none, { k with system, heap, machine })
  | filled {image : Process.ProcessImage} {space : AddressSpace} {system : System}
      {heap : KernelHeap} {machine : Machine source} {index : Fin maxTasks} {slot : ProcessSlot}
      {address : Nat} (provided : Grounded.Provided p k image space machine)
      (good : Good image space machine)
      (short : space.frames.length ≤ pages + 6)
      (free : k.system.table.freeSlot = some index)
      (fresh : slot.task = System.freshTask k.system.table.nextTaskId parentId address image)
      (slots : system.table.slots = Function.update k.system.table.slots index slot)
      (intact : heap.Intact) (unheld : ¬ k.heap.Holds address)
      (holds : ∀ a, heap.Holds a ↔ a = address ∨ k.heap.Holds a) :
      Spawns p k parentId pages Good (some slot.task, { k with
        system
        heap
        machine
        addressSpace := Function.update k.addressSpace index space })

section Spawns

variable {parentId pages : Nat} {Good : Process.ProcessImage → AddressSpace → Machine source → Prop}
  {image : Process.ProcessImage} {space : AddressSpace} {machine : Machine source}

/-- A space that was made for nothing is given back whole. -/
theorem destroy_made (sound : p.boot.Sound k.machine) (made : Made p.boot k.machine space machine)
    (short : space.frames.length ≤ pages + 6) (few : pages ≤ Elf.maxLoadPages) :
    Undone k.machine (space.destroy machine p.boot.p4).2.2 (pages + 7) := by
  obtain ⟨taken, draws, perm⟩ := made.draws
  obtain ⟨lowP3, userP2, p1s, owns, -⟩ := made.owns
  have other : p.boot.p4 ≠ space.rootFrame := by
    intro same
    refine made.fresh _ (Laid.mem_frames_of_table owns.laid.root_mem) ?_
    rw [← same]
    exact sound.held _ (BootTables.has_root _)
  exact Elf.destroy_undone made.apart made.active other draws perm made.fresh
    (Nat.lt_succ_of_le short) (by simp only [Elf.maxLoadPages, maxRecycledFrames] at *; omega)

theorem spawnImage_spawns (grounded : Grounded p k)
    (provided : Grounded.Provided p k image space machine) (good : Good image space machine)
    (short : space.frames.length ≤ pages + 6) (few : pages ≤ Elf.maxLoadPages) :
    Spawns p k parentId pages Good ({ k with machine }.spawnImage p parentId space image) := by
  have undone : Undone k.machine (space.destroy machine p.boot.p4).2.2 (pages + 7) := by
    cases provided with
    | made made => exact destroy_made grounded.closed.coherent.sound made short few
    | none => exact .refl _ _
  have ends := spawnImage_ends (p := p) (k := { k with machine }) grounded.intact parentId space image
  generalize ({ k with machine } : KernelState source).spawnImage p parentId space image = result
    at ends ⊢
  cases ends with
  | failed unspawned intact holds => exact .failed unspawned intact holds undone
  | filled free fresh slots intact unheld holds =>
      exact .filled provided good short free fresh slots intact unheld holds

/-- The space is the one that the loader built for `/bin/init`. -/
structure Loads (p : Platform) (k : KernelState source) (image : Process.ProcessImage)
    (space : AddressSpace) (machine : Machine source) (file : Elf.Slice) (plan : Elf.ImagePlan)
    (process : Elf.ProcessImage) : Prop where
  init : p.init = some file
  valid : Elf.validateImage file.bytes = .ok plan
  built : Built p.boot k.machine file.bytes plan process machine
  space : process.addressSpace = space
  image : image = summary process

/-- Every accepted `/bin/init` starts with a page: what is written for its entry point
stays in that page. -/
def Platform.EntryAligned (p : Platform) : Prop :=
  ∀ file ∈ p.init, ∀ plan, Elf.validateImage file.bytes = .ok plan →
    plan.entryPoint % pageSize4k = 0

/-- Every accepted `/bin/init` takes at most so many pages. -/
structure Platform.Fits (p : Platform) (pages : Nat) : Prop where
  few : pages ≤ Elf.maxLoadPages
  plan : ∀ file ∈ p.init, ∀ plan, Elf.validateImage file.bytes = .ok plan →
    plan.totalPages ≤ pages

theorem Platform.fits (p : Platform) : p.Fits Elf.maxLoadPages :=
  ⟨le_rfl, fun file _ _ valid => (Elf.safePlan_of_ok file valid).few⟩

/-- What `create_process_image` makes is laid out as a new space. -/
theorem Built.made {file : List UInt8} {plan : Elf.ImagePlan} {process : Elf.ProcessImage}
    (built : Built p.boot k.machine file plan process machine) :
    Made p.boot k.machine process.addressSpace machine :=
  ⟨built.apart, built.active, built.positive, built.fresh, built.draws, built.owns⟩

theorem Loads.short {file : Elf.Slice} {plan : Elf.ImagePlan} {process : Elf.ProcessImage}
    (loads : Loads p k image space machine file plan process) (fits : p.Fits pages) :
    space.frames.length ≤ pages + 6 := by
  obtain ⟨init, valid, built, rfl, -⟩ := loads
  exact built.size.trans (Nat.add_le_add_right (fits.plan file init plan valid) 6)

/-- What the loader answers to the kernel. -/
theorem createProcessImage_cases (grounded : Grounded p k) (fits : p.Fits pages) :
    (∃ fault machine, k.createProcessImage p = (.error fault, machine) ∧
      Undone k.machine machine (pages + 7)) ∨
    ∃ file plan process machine, k.createProcessImage p = (.ok process, machine) ∧
      Loads p k (summary process) process.addressSpace machine file plan process := by
  have coherent := grounded.closed.coherent
  cases creates : k.createProcessImage p with
  | mk answer machine =>
  have outcome := Elf.createProcessImage_outcome coherent.sound coherent.low
    (BootTables.has_root _) fits.plan creates
  cases answer with
  | error fault => exact .inl ⟨fault, machine, rfl, outcome⟩
  | ok process =>
      obtain ⟨file, plan, init, valid, built⟩ := outcome
      exact .inr ⟨file, plan, process, machine, rfl, init, valid, built, rfl, rfl⟩

/-- The bytes at the start of a page are those of the page. -/
theorem phys_of_aligned {lowP3 userP2 : Nat} {p1s : List Nat} {writable : Bool} {virt : Nat}
    (housed : Paging.Housed machine space lowP3 userP2 p1s)
    (grants : space.Grants machine.memory writable virt) (aligned : virt % pageSize4k = 0) :
    ∃ page ∈ space.pages, (space.translate machine.memory virt).phys = page.frame := by
  obtain ⟨page, recorded, phys⟩ := housed.page_of_grants grants
  refine ⟨page, recorded.mem, phys.trans ?_⟩
  simp only [pageSize4k] at *
  omega

/-- The space is the one that the loader built, with a loop at the entry point. -/
structure Spins (p : Platform) (k : KernelState source) (image : Process.ProcessImage)
    (space : AddressSpace) (machine : Machine source) (file : Elf.Slice) (plan : Elf.ImagePlan)
    (process : Elf.ProcessImage) (before : Machine source) : Prop where
  loads : Loads p k image space before file plan process
  entry : space.Grants before.memory false image.entryPoint
  spins : machine = { before with
    memory := writeBytes before.memory (space.translate before.memory image.entryPoint).phys
      spinProgram }

section Spins

variable {file : Elf.Slice} {plan : Elf.ImagePlan} {process : Elf.ProcessImage}
  {before : Machine source}

theorem Loads.entry_aligned (loads : Loads p k image space machine file plan process)
    (aligned : p.EntryAligned) : image.entryPoint % pageSize4k = 0 := by
  obtain ⟨init, valid, built, rfl, rfl⟩ := loads
  change process.entryPoint % pageSize4k = 0
  rw [built.entryPoint]
  exact aligned file init plan valid

theorem Loads.made (loads : Loads p k image space machine file plan process) :
    Made p.boot k.machine space machine := by
  obtain ⟨-, -, built, rfl, -⟩ := loads
  exact Built.made built

theorem Loads.provided (loads : Loads p k image space machine file plan process)
    (aligned : p.EntryAligned) : Grounded.Provided p k image space machine := by
  refine .made loads.made ?_ (loads.entry_aligned aligned)
  obtain ⟨-, -, -, rfl, rfl⟩ := loads
  rfl

/-- The loop stays in the page of the entry point. -/
theorem Spins.made (spins : Spins p k image space machine file plan process before)
    (grounded : Grounded p k) (aligned : p.EntryAligned) : Made p.boot k.machine space machine := by
  obtain ⟨loads, grants, rfl⟩ := spins
  have made := loads.made
  refine made.write fun a changed => ?_
  obtain ⟨lowP3, userP2, p1s, housed⟩ := made.housed grounded.closed.boot
  obtain ⟨page, mem, phys⟩ := phys_of_aligned housed grants (loads.entry_aligned aligned)
  refine ⟨page, mem, ?_⟩
  rw [phys] at changed
  unfold writeBytes at changed
  split at changed
  · rename_i inside
    exact ⟨inside.1, inside.2.trans_le (Nat.add_le_add_left (by decide) _)⟩
  · exact absurd rfl changed

theorem Spins.provided (spins : Spins p k image space machine file plan process before)
    (grounded : Grounded p k) (aligned : p.EntryAligned) :
    Grounded.Provided p k image space machine := by
  refine .made (spins.made grounded aligned) ?_ (spins.loads.entry_aligned aligned)
  obtain ⟨-, -, -, rfl, rfl⟩ := spins.loads
  rfl

end Spins

/-- A child shows the image of `/bin/init`. -/
theorem spawnElfChild_spawns (grounded : Grounded p k) (aligned : p.EntryAligned)
    (fits : p.Fits pages) :
    Spawns p k parentId pages (fun image space machine => ∃ file plan process,
      Loads p k image space machine file plan process) (k.spawnElfChild p parentId) := by
  have refused : ∀ {machine}, Undone k.machine machine (pages + 7) →
      Spawns p k parentId pages (fun image space machine => ∃ file plan process,
        Loads p k image space machine file plan process)
        (none, { k with machine }.failSpawn) := fun undone =>
    .failed ⟨rfl, rfl, rfl⟩ grounded.intact (fun _ => Iff.rfl) undone
  unfold KernelState.spawnElfChild
  split
  · exact refused (.refl _ _)
  · rcases createProcessImage_cases grounded fits with
      ⟨fault, machine, creates, undone⟩ | ⟨file, plan, process, machine, creates, loads⟩
    · rw [creates]
      exact refused undone
    · rw [creates]
      exact spawnImage_spawns grounded (loads.provided aligned) ⟨file, plan, process, loads⟩
        (loads.short fits) fits.few

/-- A task of the preemption test shows the image with the loop in it. -/
theorem spawnPreemptTask_spawns (grounded : Grounded p k) (aligned : p.EntryAligned)
    (fits : p.Fits pages) :
    Spawns p k 0 pages (fun image space machine => ∃ file plan process before,
      Spins p k image space machine file plan process before) (k.spawnPreemptTask p) := by
  unfold KernelState.spawnPreemptTask
  rcases createProcessImage_cases grounded fits with
    ⟨fault, machine, creates, undone⟩ | ⟨file, plan, process, machine, creates, loads⟩
  · rw [creates]
    exact .failed ⟨rfl, rfl, rfl⟩ grounded.intact (fun _ => Iff.rfl) undone
  · rw [creates]
    dsimp only
    split
    · refine .failed ⟨rfl, rfl, rfl⟩ grounded.intact (fun _ => Iff.rfl) ?_
      exact destroy_made grounded.closed.coherent.sound (Built.made loads.built)
        (loads.short fits) fits.few
    · rename_i runs
      simp only [runnable, Bool.not_eq_true', Bool.not_eq_false, Bool.and_eq_true] at runs
      have spins : Spins p k (summary process) process.addressSpace _ file plan process machine :=
        ⟨loads, ⟨runs.1.1, runs.1.2, nofun⟩, rfl⟩
      exact spawnImage_spawns grounded (spins.provided grounded aligned)
        ⟨file, plan, process, machine, spins⟩ (loads.short fits) fits.few

theorem spawnLegacy_spawns (grounded : Grounded p k) (few : pages ≤ Elf.maxLoadPages)
    (entryPoint stackTop : Nat) :
    Spawns p k 0 pages (fun image space machine => space = .empty ∧ machine = k.machine ∧
      image = ⟨entryPoint, stackTop, 0, 0, 0, 0⟩) (k.spawnLegacy p entryPoint stackTop) :=
  have provided : Grounded.Provided p k ⟨entryPoint, stackTop, 0, 0, 0, 0⟩ .empty k.machine :=
    .none rfl
  spawnImage_spawns grounded provided ⟨rfl, rfl, rfl⟩ (Nat.zero_le _) few

end Spawns

/-! ### Any spawn -/

/-- Whether the operation may issue a task id. -/
def Op.spawns : Op → Bool
  | .spawnElfChild _ | .spawnPreemptTask | .spawnLegacy .. => true
  | _ => false

/-- What a spawn answers. The other operations make no task. -/
def spawned (p : Platform) (k : KernelState source) : Op → Option Task
  | .spawnElfChild parentId => (k.spawnElfChild p parentId).1
  | .spawnPreemptTask => (k.spawnPreemptTask p).1
  | .spawnLegacy entryPoint stackTop => (k.spawnLegacy p entryPoint stackTop).1
  | _ => none

/-- The parent of the task that a spawn makes; 0 is the kernel. -/
def Op.parentId : Op → Nat
  | .spawnElfChild parentId => parentId
  | _ => 0

/-- What the space of a new task is like. -/
def Furnished (p : Platform) (k : KernelState source) (op : Op) (image : Process.ProcessImage)
    (space : AddressSpace) (machine : Machine source) : Prop :=
  match op with
  | .spawnElfChild _ => ∃ file plan process, Loads p k image space machine file plan process
  | .spawnPreemptTask => ∃ file plan process before,
      Spins p k image space machine file plan process before
  | .spawnLegacy entryPoint stackTop =>
      space = .empty ∧ machine = k.machine ∧ image = ⟨entryPoint, stackTop, 0, 0, 0, 0⟩
  | _ => False

/-- All three ways to spawn, in one statement. -/
theorem spawned_spawns {op : Op} {pages : Nat} (grounded : Grounded p k)
    (aligned : p.EntryAligned) (fits : p.Fits pages) (isSpawn : op.spawns = true) :
    Spawns p k op.parentId pages (Furnished p k op) (spawned p k op, step p k op) := by
  cases op with
  | spawnElfChild parentId => exact spawnElfChild_spawns grounded aligned fits
  | spawnPreemptTask => exact spawnPreemptTask_spawns grounded aligned fits
  | spawnLegacy entryPoint stackTop =>
      exact spawnLegacy_spawns grounded fits.few entryPoint stackTop
  | _ => cases isSpawn

end CloudOS.Kernel
