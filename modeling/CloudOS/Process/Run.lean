import CloudOS.Process.Syscall

/-!
Runs of the kernel: spawns, grants, task switches, exits, waits, messages, system
calls and timer interrupts, in any order and with any arguments.
-/

namespace CloudOS.Process

open CloudOS.Ipc (CapabilityRights)

inductive Op where
  | spawnElfChild (parentId : Nat) (image : Option ProcessImage) (heapAllocation : Option Nat)
  | spawnPreemptTask (image : Option ProcessImage) (executable : Bool)
      (heapAllocation : Option Nat)
  | spawnLegacy (entryPoint stackTop : Nat) (heapAllocation : Option Nat)
  | grant (owner target : Nat) (rights : CapabilityRights)
  | markRunning (id syscallsBefore : Nat)
  | markExited (id exitCode syscallsAfter : Nat)
  | cleanupTask (id : Nat) (teardown : Teardown)
  | waitChild (parentId childId : Nat)
  | send (sender receiver : Nat) (bytes : List UInt8)
  | receive (receiver : Nat) (output : List UInt8) (blockWhenEmpty : Bool)
  | syscall (memory : UserMemory) (call : Syscall) (arg0 : Nat) (frame : SyscallFrame)
  | startPreemptionTest
  | stopPreemptionTest (passed : Bool)
  | timer (context : Option TimerContext)

/-- Whether the operation may issue a task id. -/
def Op.spawns : Op → Bool
  | spawnElfChild .. | spawnPreemptTask .. | spawnLegacy .. => true
  | _ => false

def step (s : System) : Op → System
  | .spawnElfChild parentId image heap => (s.spawnElfChild parentId image heap).2
  | .spawnPreemptTask image executable heap => (s.spawnPreemptTask image executable heap).2
  | .spawnLegacy entryPoint stackTop heap => (s.spawnLegacy entryPoint stackTop heap).2
  | .grant owner target rights => { s with ipc := (s.ipc.grant owner target rights).2 }
  | .markRunning id syscallsBefore => (s.markRunning id syscallsBefore).2
  | .markExited id exitCode syscallsAfter => (s.markExited id exitCode syscallsAfter).2
  | .cleanupTask id teardown => (s.cleanupTask id teardown).2
  | .waitChild parentId childId => (s.waitChild parentId childId).2
  | .send sender receiver bytes => (s.send sender receiver bytes).2
  | .receive receiver output blockWhenEmpty => (s.receive receiver output blockWhenEmpty).2.1
  | .syscall memory call arg0 frame => (s.dispatch memory call arg0 frame).2.2
  | .startPreemptionTest => { s with table := s.table.startPreemptionTest }
  | .stopPreemptionTest passed => { s with table := (s.table.stopPreemptionTest passed).2 }
  | .timer context => (s.timerInterruptHandler context).2.2

def run (s : System) (ops : List Op) : System := ops.foldl step s

theorem run_cons (s : System) (op : Op) (ops : List Op) :
    run s (op :: ops) = run (step s op) ops := rfl

theorem run_append (s : System) (ops ops' : List Op) :
    run s (ops ++ ops') = run (run s ops) ops' := List.foldl_append

/-! ### Arguments for concrete runs -/

/-- User memory that holds zeros and accepts everything. -/
def blankMemory : UserMemory where
  validateUserBuffer := fun _ _ _ => true
  copyFromUser := fun _ length => some (List.replicate length 0)
  copyToUser := fun _ _ => true
  length_copyFromUser := by
    rintro _ _ _ ⟨⟩
    exact List.length_replicate

def blankFrame : SyscallFrame := loadSyscallContext TimerContext.empty

def someImage : ProcessImage := ⟨0x400000, 0x800000, 0x1000, 0x2000, 4, 4⟩

end CloudOS.Process
