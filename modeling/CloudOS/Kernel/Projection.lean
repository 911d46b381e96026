import CloudOS.Kernel.State

/-!
The process table of the kernel takes the steps of `Process.step`, with the answers that
its own loader, heap and page tables give. So what holds of every run of `Process.run`
holds of the table of every run of the kernel.
-/

namespace CloudOS.Kernel

open CloudOS.Paging (AddressSpace)
open CloudOS.PhysMem (FrameSource)
open CloudOS.Process (System Syscall SyscallFrame UserMemory)

variable {source : FrameSource}

/-! ### Spawning -/

/-- What the process table sees of a spawn is the image and the allocation. -/
theorem spawnImage_system (k : KernelState source) (p : Platform) (parentId : Nat)
    (space : AddressSpace) (image : Process.ProcessImage) :
    (k.spawnImage p parentId space image).2.system =
      (k.system.spawnImage parentId image (k.heap.alloc taskHeapBytes taskHeapAlignment).1).2 := by
  unfold KernelState.spawnImage System.spawnImage
  cases k.heap.alloc taskHeapBytes taskHeapAlignment with
  | mk answer heap =>
  cases answer with
  | none => rfl
  | some address =>
      dsimp only
      have installed := installTask_system { k with heap } p parentId address space image
      generalize ({ k with heap } : KernelState source).installTask p parentId address space image =
        result at installed
      obtain ⟨task | task, k'⟩ := result
      · exact installed
      · exact installed

theorem spawnElfChild_system (k : KernelState source) (p : Platform) (parentId : Nat) :
    (k.spawnElfChild p parentId).2.system =
      (k.system.spawnElfChild parentId ((k.createProcessImage p).1.toOption.map summary)
        (k.heap.alloc taskHeapBytes taskHeapAlignment).1).2 := by
  unfold KernelState.spawnElfChild System.spawnElfChild
  split
  · rfl
  · cases k.createProcessImage p with
    | mk answer machine =>
    cases answer with
    | error fault => rfl
    | ok image => exact spawnImage_system { k with machine } p parentId _ _

theorem spawnPreemptTask_system (k : KernelState source) (p : Platform) :
    (k.spawnPreemptTask p).2.system =
      (k.system.spawnPreemptTask ((k.createProcessImage p).1.toOption.map summary)
        ((k.createProcessImage p).1.toOption.any fun image => runnable
          (image.addressSpace.translate (k.createProcessImage p).2.memory image.entryPoint))
        (k.heap.alloc taskHeapBytes taskHeapAlignment).1).2 := by
  unfold KernelState.spawnPreemptTask
  cases k.createProcessImage p with
  | mk answer machine =>
  cases answer with
  | error fault => rfl
  | ok image =>
      change _ = (k.system.spawnPreemptTask (some (summary image)) (runnable
        (image.addressSpace.translate machine.memory image.entryPoint)) _).2
      dsimp only
      cases runnable (image.addressSpace.translate machine.memory image.entryPoint) with
      | false => rfl
      | true => exact spawnImage_system _ p 0 image.addressSpace (summary image)

/-! ### The other steps -/

/-- What the process table sees of a cleanup is whether everything came back. -/
theorem cleanupTask_system (k : KernelState source) (p : Platform) (id : Nat) :
    (k.cleanupTask p id).2.system = ((k.system.table.findTask id).map fun index =>
      (k.system.cleanupTask id (teardownOf
        (releaseHeap k.heap (k.system.table.task index).heapAllocation).1
        ((k.addressSpace index).destroy k.machine p.boot.p4).1)).2).getD k.system := by
  unfold KernelState.cleanupTask
  cases found : k.system.table.findTask id with
  | none => rfl
  | some index =>
      dsimp only [Option.map_some, Option.getD_some]
      split
      · rename_i inactive
        unfold System.cleanupTask
        rw [found]
        dsimp only
        rw [if_pos inactive]
      · rfl

theorem waitChild_system (k : KernelState source) (parentId childId : Nat) :
    (k.waitChild parentId childId).2.system = (k.system.waitChild parentId childId).2 := by
  unfold KernelState.waitChild
  dsimp only
  split
  · rfl
  · rfl

theorem writeUserProgram_system (k : KernelState source) (taskId : Nat)
    (program : UserCodeBuilder) : (k.writeUserProgram taskId program).2.system = k.system := by
  unfold KernelState.writeUserProgram
  split
  · rfl
  · dsimp only
    split
    · rfl
    · split
      · rfl
      · rfl

/-- User code writes memory only. -/
theorem userStore_system (k : KernelState source) (address : Nat) (byte : UInt8) :
    (k.userStore address byte).system = k.system := by
  unfold KernelState.userStore
  split
  · rfl
  · dsimp only
    split
    · rfl
    · rfl

/-! ### Runs -/

/-- Every step of the kernel is one of the process table, or none. -/
theorem step_system (p : Platform) (k : KernelState source) (op : Op) :
    (step p k op).system = ((projection p k op).map (Process.step k.system)).getD k.system := by
  cases op with
  | spawnElfChild parentId => exact spawnElfChild_system k p parentId
  | spawnPreemptTask => exact spawnPreemptTask_system k p
  | spawnLegacy entryPoint stackTop => exact spawnImage_system k p 0 _ _
  | cleanupTask id =>
      refine (cleanupTask_system k p id).trans ?_
      rw [projection, Option.map_map]
      rfl
  | waitChild parentId childId => exact waitChild_system k parentId childId
  | writeUserProgram taskId program => exact writeUserProgram_system k taskId program
  | syscall call arg0 frame => rfl
  | userStore address byte => exact userStore_system k address byte
  | table op only => rfl

theorem run_system (p : Platform) (k : KernelState source) (ops : List Op) :
    (run p k ops).system = Process.run k.system (projections p k ops) := by
  induction ops generalizing k with
  | nil => rfl
  | cons op ops ih =>
      change (run p (step p k op) ops).system = _
      rw [ih, step_system, projections, Process.run_append]
      cases projection p k op with
      | none => rfl
      | some op' => rfl

/-! ### What a system call stores -/

end CloudOS.Kernel
