import CloudOS.Elf.Outcome
import CloudOS.Heap.History
import CloudOS.Process.Holdings
import CloudOS.Process.UserCopy

/-!
The kernel as a whole: the process table, scheduler and messages of `Process.System`
next to the address spaces of the slots, the frames and tables they are made of, and
the kernel heap.

Here the loader, the heap and the page tables answer for themselves. The processor uses
the boot tables whenever kernel code runs, so that they are the active root of every
`destroy`. The bytes of the kernel heap are kept by `KernelHeap`, those behind the
pages of tasks by the machine.
-/

namespace CloudOS.Kernel

open Lib.Store (Memory writeBytes zero)
open CloudOS.Heap (KernelHeap)
open CloudOS.Paging (AddressSpace AddressSpaceError BootTables CleanupReport Machine MapCall
  TranslateResult pageSize4k userElfBase)
open CloudOS.PhysMem (FrameSource)
open CloudOS.Process (System Task TaskSpaces Teardown UserMemory WaitResult maxTasks
  SyscallFrame Syscall)

abbrev taskHeapBytes : Nat := 128
abbrev taskHeapAlignment : Nat := 64

/-! ### Programs of test tasks -/

abbrev spinProgram : List UInt8 := [0xf3, 0x90, 0xeb, 0xfc]
abbrev ipcTestData : Nat := userElfBase + pageSize4k
abbrev ipcTestCodeCapacity : Nat := 512

/-- `b"pingpongdoneSTOP"`. -/
abbrev ipcTestMessages : List UInt8 :=
  [0x70, 0x69, 0x6e, 0x67, 0x70, 0x6f, 0x6e, 0x67, 0x64, 0x6f, 0x6e, 0x65, 0x53, 0x54, 0x4f, 0x50]

/-- The first `len` bytes of its array, as a list; `valid` is false once a byte did not
fit. -/
structure UserCodeBuilder where
  code : List UInt8
  valid : Bool
  bounded : code.length ≤ ipcTestCodeCapacity

/-! ### The state -/

/-- What does not change: the tables that `_start` builds, and `/bin/init` of the
initramfs. -/
structure Platform where
  boot : BootTables
  init : Option Elf.Slice

structure KernelState (source : FrameSource) where
  system : System
  addressSpace : Fin maxTasks → AddressSpace
  machine : Machine source
  heap : KernelHeap

/-- What `install_task` is told of an image. -/
def summary (image : Elf.ProcessImage) : Process.ProcessImage where
  entryPoint := image.entryPoint
  stackTop := image.stackTop
  rootFrame := image.addressSpace.rootFrame
  firstUserFrame := image.firstUserFrame
  mappedPages := image.mappedPages
  tableFrames := image.tableFrames

/-- Whether user code may run the byte that is translated. -/
def runnable (translation : TranslateResult) : Bool :=
  translation.mapped && translation.userAccessible && translation.executable

/-- `heap::free` for the allocation of a task; 0 stands for none. -/
def releaseHeap (heap : KernelHeap) (address : Nat) : Bool × KernelHeap :=
  if address != 0 then
    match heap.free address with
    | (.ok (), heap) => (true, heap)
    | (.error _, heap) => (false, heap)
  else (false, heap)

/-- What `cleanup_task` makes of the answer of `destroy`. -/
def teardownOf (heapFreed : Bool) (destroyed : Except AddressSpaceError CleanupReport) :
    Teardown where
  heapFreed := heapFreed
  destroyed := destroyed.toOption.map fun report =>
    (report.userFramesFreed, report.tableFramesFreed, report.complete)

namespace KernelState

variable {source : FrameSource}

/-! ### Spawning -/

def failSpawn (k : KernelState source) : KernelState source :=
  { k with system := k.system.failSpawn }

/-- Destroy a space that no task has. -/
def discard (k : KernelState source) (p : Platform) (space : AddressSpace) : KernelState source :=
  { k with machine := (space.destroy k.machine p.boot.p4).2.2 }

/-- The new task goes to the free slot, its space beside it. A table that is not
initialized becomes so, which changes no slot. -/
def installTask (k : KernelState source) (p : Platform) (parentId heapAllocation : Nat)
    (space : AddressSpace) (image : Process.ProcessImage) : Option Task × KernelState source :=
  match k.system.installTask parentId heapAllocation image, k.system.table.freeSlot with
  | (some task, system), some index =>
      (some task, { k with
        system
        addressSpace := Function.update k.addressSpace index space })
  | (_, system), _ => (none, { k with system }.discard p space)

/-- The common end of the spawns. -/
def spawnImage (k : KernelState source) (p : Platform) (parentId : Nat) (space : AddressSpace)
    (image : Process.ProcessImage) : Option Task × KernelState source :=
  match k.heap.alloc taskHeapBytes taskHeapAlignment with
  | (none, heap) => (none, ({ k with heap }.discard p space).failSpawn)
  | (some address, heap) =>
      match { k with heap }.installTask p parentId address space image with
      | (none, k) => (none, { k with heap := (k.heap.free address).2 })
      | (some task, k) => (some task, k)

/-- What `create_process_image` answers, and the machine after it. -/
def createProcessImage (k : KernelState source) (p : Platform) :
    Except Elf.Fault Elf.ProcessImage × Machine source :=
  Elf.createProcessImage p.boot k.machine p.boot.p4 (p.init.map Elf.Slice.bytes)

def spawnElfChild (k : KernelState source) (p : Platform) (parentId : Nat) :
    Option Task × KernelState source :=
  if parentId != 0 && !k.system.validParent parentId then (none, k.failSpawn)
  else
    match k.createProcessImage p with
    | (.error _, machine) => (none, { k with machine }.failSpawn)
    | (.ok image, machine) =>
        { k with machine }.spawnImage p parentId image.addressSpace (summary image)

def spawnElfInit (k : KernelState source) (p : Platform) : Option Task × KernelState source :=
  k.spawnElfChild p 0

def spawnPreemptTask (k : KernelState source) (p : Platform) : Option Task × KernelState source :=
  match k.createProcessImage p with
  | (.error _, machine) => (none, { k with machine }.failSpawn)
  | (.ok image, machine) =>
      let k := { k with machine }
      let translation := image.addressSpace.translate machine.memory image.entryPoint
      if !runnable translation then (none, (k.discard p image.addressSpace).failSpawn)
      else
        let memory := writeBytes machine.memory translation.phys spinProgram
        { k with machine := { machine with memory } }.spawnImage p 0 image.addressSpace
          (summary image)

/-- The task runs in the kernel's own tables: an empty space owns no frames. -/
def spawnLegacy (k : KernelState source) (p : Platform) (entryPoint stackTop : Nat) :
    Option Task × KernelState source :=
  k.spawnImage p 0 .empty ⟨entryPoint, stackTop, 0, 0, 0, 0⟩

/-! ### Giving back -/

def cleanupTask (k : KernelState source) (p : Platform) (id : Nat) : Bool × KernelState source :=
  match k.system.table.findTask id with
  | none => (false, k)
  | some index =>
      if !(k.system.table.task index).resourcesActive then
        ((k.system.table.task index).cleanupComplete, k)
      else
        let (heapFreed, heap) := releaseHeap k.heap (k.system.table.task index).heapAllocation
        let (destroyed, space, machine) := (k.addressSpace index).destroy k.machine p.boot.p4
        let (complete, system) := k.system.cleanupTask id (teardownOf heapFreed destroyed)
        (complete,
          { system, machine, heap, addressSpace := Function.update k.addressSpace index space })

/-- A collected child leaves an empty slot. -/
def waitChild (k : KernelState source) (parentId childId : Nat) : WaitResult × KernelState source :=
  let (result, system) := k.system.waitChild parentId childId
  match result.reaped, k.system.table.findChild parentId childId with
  | true, some index =>
      (result, { k with system, addressSpace := Function.update k.addressSpace index .empty })
  | _, _ => (result, { k with system })

/-! ### The memory of tasks -/

def spaces (k : KernelState source) : TaskSpaces := ⟨k.system.table, k.addressSpace⟩

def writeUserProgram (k : KernelState source) (taskId : Nat) (program : UserCodeBuilder) :
    Bool × KernelState source :=
  match k.system.table.findTask taskId with
  | none => (false, k)
  | some index =>
      let entryPoint := (k.system.table.task index).entryPoint
      let code := (k.addressSpace index).translate k.machine.memory entryPoint
      let data := (k.addressSpace index).translate k.machine.memory ipcTestData
      if !code.mapped || !code.userAccessible || !code.executable || data.phys == 0
          || !data.mapped || !data.userAccessible || !data.writable then (false, k)
      else if !program.valid || decide (program.code.length > pageSize4k) then (false, k)
      else
        let memory := writeBytes (zero k.machine.memory code.phys pageSize4k) code.phys program.code
        let memory := writeBytes memory data.phys ipcTestMessages
        (true, { k with machine := { k.machine with memory } })

/-- What a system call of the current task finds at its addresses. Which task that is
and what it may reach stay the same until the call is over or switches. -/
def userMemory (k : KernelState source) : UserMemory where
  validateUserBuffer := fun address length writable =>
    (k.spaces.validateUserBuffer k.machine.memory k.system.currentTask address length writable).valid
  copyFromUser := fun address length =>
    match k.spaces.copyFromUser k.machine.memory k.system.currentTask address
      (List.replicate length 0) with
    | (true, output, _) => some output
    | (false, _) => none
  copyToUser := fun address bytes =>
    (k.spaces.copyToUser k.machine.memory k.system.currentTask address bytes).1
  length_copyFromUser := by
    intro address length bytes copied
    have exact_ := k.spaces.copyFromUser_exact k.machine.memory k.system.currentTask address
      (List.replicate length 0)
    split at copied
    · rename_i result isResult
      obtain rfl := Option.some.inj copied
      rw [isResult] at exact_
      obtain ⟨index, found, -⟩ := exact_.done_iff.mp rfl
      exact (exact_.bytes rfl index found).1.trans List.length_replicate
    · cases copied

end KernelState

/-- The bytes that `syscall_ipc_receive_common` hands to `copy_to_user`. -/
def received (s : System) (memory : UserMemory) (buffer : Nat) (frame : SyscallFrame) :
    Option (List UInt8) :=
  let receiver := s.currentTask
  let capacity := min frame.rsi Ipc.maxMessageBytes
  if receiver = 0 then none
  else if !memory.validateUserBuffer buffer capacity true then none
  else
    match s.takeIpcWakeReason receiver with
    | (.timeout, _) => none
    | (.cancelled, _) => none
    | (_, s) =>
        match s.receive receiver (List.replicate capacity 0) false with
        | (.ok (.message delivery), _, message) => some (message.take delivery.length)
        | _ => none

/-- The bytes that a system call copies to the buffer in `arg0`. -/
def copiedOut (s : System) (memory : UserMemory) (call : Syscall) (arg0 : Nat)
    (frame : SyscallFrame) : Option (List UInt8) :=
  match call with
  | .receive | .receiveTimeout => received s memory arg0 frame
  | .send | .cancel | .sendCapability | .revoke => none

namespace KernelState

variable {source : FrameSource}

/-- `dispatch`, with the bytes that it stores for the caller. -/
def syscall (k : KernelState source) (call : Syscall) (arg0 : Nat) (frame : SyscallFrame) :
    Nat × SyscallFrame × KernelState source :=
  let (root, frame', system) := k.system.dispatch k.userMemory call arg0 frame
  let memory :=
    match copiedOut k.system k.userMemory call arg0 frame with
    | none => k.machine.memory
    | some bytes =>
        (k.spaces.copyToUser k.machine.memory k.system.currentTask arg0 bytes).2.2
  (root, frame', { k with system, machine := { k.machine with memory } })

/-- A store of the current task, where its pages are writable. -/
def userStore (k : KernelState source) (address : Nat) (byte : UInt8) : KernelState source :=
  match k.system.table.findTask k.system.currentTask with
  | none => k
  | some index =>
      let translation := (k.addressSpace index).translate k.machine.memory address
      if !translation.mapped || !translation.userAccessible || !translation.writable then k
      else
        let memory := writeBytes k.machine.memory translation.phys [byte]
        { k with machine := { k.machine with memory } }

end KernelState

/-! ### Runs -/

/-- Whether an operation concerns the tables of `Process.System` only, and neither
address spaces nor the heap nor user memory. -/
def tableOnly : Process.Op → Bool
  | .grant .. | .markRunning .. | .markExited .. | .send .. | .receive .. | .startPreemptionTest
  | .stopPreemptionTest _ | .timer _ => true
  | .spawnElfChild .. | .spawnPreemptTask .. | .spawnLegacy .. | .cleanupTask .. | .waitChild ..
  | .syscall .. => false

inductive Op where
  | spawnElfChild (parentId : Nat)
  | spawnPreemptTask
  | spawnLegacy (entryPoint stackTop : Nat)
  | cleanupTask (id : Nat)
  | waitChild (parentId childId : Nat)
  | writeUserProgram (taskId : Nat) (program : UserCodeBuilder)
  | syscall (call : Syscall) (arg0 : Nat) (frame : SyscallFrame)
  | userStore (address : Nat) (byte : UInt8)
  | table (op : Process.Op) (only : tableOnly op = true)

variable {source : FrameSource}

def step (p : Platform) (k : KernelState source) : Op → KernelState source
  | .spawnElfChild parentId => (k.spawnElfChild p parentId).2
  | .spawnPreemptTask => (k.spawnPreemptTask p).2
  | .spawnLegacy entryPoint stackTop => (k.spawnLegacy p entryPoint stackTop).2
  | .cleanupTask id => (k.cleanupTask p id).2
  | .waitChild parentId childId => (k.waitChild parentId childId).2
  | .writeUserProgram taskId program => (k.writeUserProgram taskId program).2
  | .syscall call arg0 frame => (k.syscall call arg0 frame).2.2
  | .userStore address byte => k.userStore address byte
  | .table op _ => { k with system := Process.step k.system op }

def run (p : Platform) (k : KernelState source) (ops : List Op) : KernelState source :=
  ops.foldl (step p) k

/-! ### One level down -/

/-- The operation of the process table that is carried out, with the answers that the
loader, the heap and the page tables give it. -/
def projection (p : Platform) (k : KernelState source) : Op → Option Process.Op
  | .spawnElfChild parentId =>
      some (.spawnElfChild parentId ((k.createProcessImage p).1.toOption.map summary)
        (k.heap.alloc taskHeapBytes taskHeapAlignment).1)
  | .spawnPreemptTask =>
      some (.spawnPreemptTask ((k.createProcessImage p).1.toOption.map summary)
        ((k.createProcessImage p).1.toOption.any fun image => runnable
          (image.addressSpace.translate (k.createProcessImage p).2.memory image.entryPoint))
        (k.heap.alloc taskHeapBytes taskHeapAlignment).1)
  | .spawnLegacy entryPoint stackTop =>
      some (.spawnLegacy entryPoint stackTop (k.heap.alloc taskHeapBytes taskHeapAlignment).1)
  | .cleanupTask id =>
      (k.system.table.findTask id).map fun index =>
        .cleanupTask id (teardownOf
          (releaseHeap k.heap (k.system.table.task index).heapAllocation).1
          ((k.addressSpace index).destroy k.machine p.boot.p4).1)
  | .waitChild parentId childId => some (.waitChild parentId childId)
  | .writeUserProgram .. | .userStore .. => none
  | .syscall call arg0 frame => some (.syscall k.userMemory call arg0 frame)
  | .table op _ => some op

/-- The steps of the process table in a run. -/
def projections (p : Platform) (k : KernelState source) : List Op → List Process.Op
  | [] => []
  | op :: ops => (projection p k op).toList ++ projections p (step p k op) ops

theorem installTask_system (k : KernelState source) (p : Platform) (parentId heapAllocation : Nat)
    (space : AddressSpace) (image : Process.ProcessImage) :
    (k.installTask p parentId heapAllocation space image).2.system =
      (k.system.installTask parentId heapAllocation image).2 := by
  unfold KernelState.installTask
  generalize k.system.installTask parentId heapAllocation image = installed
  generalize k.system.table.freeSlot = slot
  obtain ⟨task | task, system⟩ := installed
  · rfl
  · cases slot with
    | none => rfl
    | some index => rfl

end CloudOS.Kernel
