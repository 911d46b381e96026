import CloudOS.Process.Handover

/-!
Registers survive task switches.

A run is any sequence of system calls and timer interrupts of ELF tasks, and between
them whatever the kernel does on its own. The run determines its task switches. A
task that comes back gets the registers it left with: all of them after a
preemption, and after a wait for a message all but the instruction pointer, which
goes back over the two bytes of `int 0x80`, so that the call is made again.
-/

namespace CloudOS.Process

open Lib.Word (satAdd maxWord)
open CloudOS.Ipc (CapabilityRights)

/-! ### Runs and their switches -/

inductive Turn where
  | kernel (op : Op)
  | syscall (memory : UserMemory) (frame : SyscallFrame)
  | timer (context : TimerContext)

/-- What the kernel does on its own: it starts ELF tasks only, and takes no current
task off the processor to wait. -/
def Op.Aside (s : System) : Op → Prop
  | .spawnElfChild _ image _ | .spawnPreemptTask image _ _ => ∀ loaded ∈ image, loaded.rootFrame ≠ 0
  | .spawnLegacy .. | .syscall .. => False
  | .waitChild parentId _ => parentId ≠ s.currentTask
  | .receive receiver _ blockWhenEmpty => blockWhenEmpty = true → receiver ≠ s.currentTask
  | .timer context => context = none
  | _ => True

namespace Turn

def Legal (s : System) : Turn → Prop
  | kernel op => op.Aside s
  | _ => True

def spawns : Turn → Bool
  | kernel op => op.spawns
  | _ => false

def take (s : System) : Turn → System
  | kernel op => step s op
  | syscall memory frame => (s.syscallInterrupt memory frame).2
  | timer context => (s.timerInterruptHandler (some context)).2.2

end Turn

/-- Every turn is legal when it is taken. -/
def LegalTurns (s : System) : List Turn → Prop
  | [] => True
  | turn :: turns => turn.Legal s ∧ LegalTurns (turn.take s) turns

/-- How a task left the processor, with the registers it had. -/
inductive Suspension where
  | preempted (context : TimerContext)
  | blocked (frame : SyscallFrame)
deriving DecidableEq

structure TaskSwitch where
  outgoing : Nat
  suspension : Suspension
  incoming : Nat
  /-- The registers loaded; of a timer context, those of a system call frame. -/
  loaded : SyscallFrame
deriving DecidableEq

/-- The task switch of the turn, if it is one. -/
def Turn.switch (s : System) : Turn → Option TaskSwitch
  | kernel _ => none
  | syscall memory frame =>
      match s.syscallInterrupt memory frame with
      | (.exit _, _) => none
      | (.resume root loaded, s') =>
          if root = 0 then none
          else some ⟨s.currentTask, .blocked frame, s'.currentTask, loaded⟩
  | timer context =>
      match s.timerInterruptHandler (some context) with
      | (.switch _, some loaded, s') =>
          some ⟨s.currentTask, .preempted context, s'.currentTask, loadSyscallContext loaded⟩
      | _ => none

/-- The task switches of a run, in order. -/
def switches (s : System) : List Turn → List TaskSwitch
  | [] => []
  | turn :: turns => (turn.switch s).toList ++ switches (turn.take s) turns

/-- The registers are those that the task was suspended with. After a wait, the
processor is at the `int 0x80` that it left two bytes behind, and the number of the
call is in `rax`. -/
def Suspension.Restored : Suspension → SyscallFrame → Prop
  | preempted context, loaded => loaded = loadSyscallContext context
  | blocked frame, loaded =>
      loaded = { frame with rip := loaded.rip } ∧
        (∀ address, frame.rip = address + syscallInstructionBytes → loaded.rip = address) ∧
        ∃ call, lookup loaded.rax = some (.ipc call) ∧ call.receives = true

/-! ### What is saved -/

namespace Suspension

/-- The registers as the slot of the task keeps them. -/
def context : Suspension → TimerContext
  | preempted context => context
  | blocked frame => saveSyscallContext frame true

/-- A task is blocked by a system call that receives. -/
def Receives : Suspension → Prop
  | preempted _ => True
  | blocked frame => ∃ call, lookup frame.rax = some (.ipc call) ∧ call.receives = true

theorem restored_of_receives {suspension : Suspension} (receives : suspension.Receives) :
    suspension.Restored (loadSyscallContext suspension.context) := by
  cases suspension with
  | preempted context => rfl
  | blocked frame =>
      refine ⟨rfl, fun address after => ?_, receives⟩
      change frame.rip - syscallInstructionBytes = address
      omega

end Suspension

/-- The registers a task starts or goes on with. -/
def expected (suspended : Nat → Option Suspension) (task : Task) : TimerContext :=
  match suspended task.id with
  | some suspension => suspension.context
  | none => initialTimerContext task.entryPoint task.stackTop

/-- Who waits for the processor has the registers it was last suspended with, or
those of a new task. -/
structure System.Recorded (s : System) (issued : Nat) (suspended : Nat → Option Suspension) :
    Prop where
  agrees : s.Agrees issued
  able : s.Able
  saved : ∀ i, (s.table.task i).state ≠ .empty → s.Waits (s.table.task i).id →
    s.saved i = expected suspended (s.table.task i)
  known : ∀ id, suspended id ≠ none → id ≤ issued
  receives : ∀ id suspension, suspended id = some suspension → suspension.Receives

namespace System

variable {s s' : System} {issued issued' : Nat} {suspended : Nat → Option Suspension}

/-- A calm step suspends nobody and loses no registers. -/
theorem Recorded.calm (recorded : s.Recorded issued suspended) (calm : Calm s s')
    (agrees : s'.Agrees issued') (more : issued ≤ issued') : s'.Recorded issued' suspended := by
  refine ⟨agrees, calm.able recorded.able, fun i occupied waits => ?_,
    fun id isKnown => (recorded.known id isKnown).trans more, recorded.receives⟩
  have same := calm.same i occupied
  obtain ⟨waits', kept⟩ := calm.waits i occupied waits
  have id : (s'.table.task i).id = (s.table.task i).id := same.id
  have entry : (s'.table.task i).entryPoint = (s.table.task i).entryPoint := same.entryPoint
  have stack : (s'.table.task i).stackTop = (s.table.task i).stackTop := same.stackTop
  rw [kept, recorded.saved i same.occupied (id ▸ waits')]
  unfold expected
  rw [id, entry, stack]

/-- The next task gets what was saved for it, and the outgoing one is on record. -/
theorem Recorded.handsOver (recorded : s.Recorded issued suspended) (suspension : Suspension)
    {loaded : TimerContext} (handover : HandsOver s s' suspension.context loaded)
    (receives : suspension.Receives) (agrees : s'.Agrees issued) :
    (∃ j, (s.table.task j).id = s'.currentTask ∧ loaded = expected suspended (s.table.task j)) ∧
      s'.Recorded issued (Function.update suspended s.currentTask (some suspension)) := by
  refine ⟨?_, agrees, handover.able recorded.able, fun i occupied waits => ?_,
    fun id isKnown => ?_, fun id other isOther => ?_⟩
  · obtain ⟨j, occupied, id, waits, rfl⟩ := handover.next
    exact ⟨j, id, recorded.saved j occupied (id ▸ waits)⟩
  · have same := handover.same i occupied
    have id : (s'.table.task i).id = (s.table.task i).id := same.id
    have entry : (s'.table.task i).entryPoint = (s.table.task i).entryPoint := same.entryPoint
    have stack : (s'.table.task i).stackTop = (s.table.task i).stackTop := same.stackTop
    unfold expected
    by_cases isCurrent : (s'.table.task i).id = s.currentTask
    · rw [handover.outgoing i occupied isCurrent, isCurrent, Function.update_self]
    · obtain ⟨waits', kept⟩ := handover.waits i occupied isCurrent waits
      rw [kept, recorded.saved i same.occupied (id ▸ waits'), Function.update_of_ne isCurrent]
      unfold expected
      rw [id, entry, stack]
  · by_cases isCurrent : id = s.currentTask
    · rw [isCurrent]
      by_cases running : s.currentTask = 0
      · omega
      · obtain ⟨i, live, same⟩ := Agree.placed recorded.agrees _ (Or.inr (Or.inr ⟨rfl, running⟩))
        exact (show (s.table.task i).id = s.currentTask from same) ▸
          (Agree.ids recorded.agrees i (Task.live_iff.mp live).1).2
    · rw [Function.update_of_ne isCurrent] at isKnown
      exact recorded.known id isKnown
  · by_cases isCurrent : id = s.currentTask
    · rw [isCurrent, Function.update_self] at isOther
      cases isOther
      exact receives
    · rw [Function.update_of_ne isCurrent] at isOther
      exact recorded.receives id other isOther

/-! ### New tasks -/

/-- A new task comes with the registers it starts from. -/
theorem Recorded.install (recorded : s.Recorded issued suspended) (few : issued < maxWord)
    {i : Fin maxTasks} (vacant : (s.table.task i).live = false) {slot : ProcessSlot}
    (slots : s'.table.slots = Function.update s.table.slots i slot)
    (scheduled : s'.scheduler = (s.scheduler.enqueue s.table.nextTaskId).2)
    (agrees : s'.Agrees (issued + 1)) (id : slot.task.id = s.table.nextTaskId)
    (valid : slot.contextValid = true) (root : slot.task.addressSpaceRoot ≠ 0)
    (initial : slot.timerContext = initialTimerContext slot.task.entryPoint slot.task.stackTop) :
    s'.Recorded (issued + 1) suspended := by
  have next : s.table.nextTaskId = issued + 1 := by
    rw [Agree.next recorded.agrees]
    omega
  have tasks := ProcessTable.task_of_slots slots
  obtain ⟨scheduler, enqueued, places, -⟩ := Agree.enqueues recorded.agrees few vacant
  refine ⟨agrees, fun j occupied => ?_, fun j occupied waits => ?_,
    fun x isKnown => (recorded.known x isKnown).trans (Nat.le_succ _), recorded.receives⟩
  · by_cases here : j = i
    · rw [tasks, slots, here, Function.update_self, Function.update_self]
      exact ⟨valid, root⟩
    · rw [tasks, Function.update_of_ne here] at occupied
      rw [tasks, slots, Function.update_of_ne here, Function.update_of_ne here]
      exact recorded.able j occupied
  · by_cases here : j = i
    · unfold System.saved expected
      rw [tasks, slots, here, Function.update_self, Function.update_self, id]
      cases known : suspended s.table.nextTaskId with
      | none => exact initial
      | some suspension =>
          have := recorded.known s.table.nextTaskId (by simp [known])
          omega
    · rw [tasks, Function.update_of_ne here] at occupied waits ⊢
      unfold System.saved
      rw [slots, Function.update_of_ne here]
      refine recorded.saved j occupied ?_
      have older := (Agree.ids recorded.agrees j occupied).2
      unfold Waits at waits
      rw [scheduled, enqueued, places] at waits
      rcases waits with queued | blocked
      · refine Or.inl ((Placement.mem_concat.mp queued).resolve_right fun isNew => ?_)
        omega
      · exact Or.inr blocked

theorem spawnImage_recorded (recorded : s.Recorded issued suspended) (few : issued < maxWord)
    {parentId : Nat} (parent : parentId ≤ issued) (image : ProcessImage)
    (root : image.rootFrame ≠ 0) (heapAllocation : Option Nat) :
    ∃ issued' ≤ issued + 1,
      (s.spawnImage parentId image heapAllocation).2.Recorded issued' suspended := by
  cases heapAllocation with
  | none =>
      exact ⟨issued, Nat.le_succ _, recorded.calm (.of_slots rfl fun _ waits => waits)
        recorded.agrees le_rfl⟩
  | some address =>
      unfold spawnImage installTask
      dsimp only
      have initialized : ({ s with
          table := if s.table.initialized then s.table else s.table.init } : System).Recorded
          issued suspended := by
        refine recorded.calm (.of_slots ?_ fun _ waits => waits) ?_ le_rfl
        · split
          · rfl
          · rfl
        · split
          · exact recorded.agrees
          · exact recorded.agrees
      generalize (if s.table.initialized then s.table else s.table.init) = table at *
      have next : table.nextTaskId = issued + 1 := by
        rw [Agree.next initialized.agrees]
        omega
      cases found : table.freeSlot with
      | none =>
          exact ⟨issued, Nat.le_succ _, initialized.calm (.of_slots rfl fun _ waits => waits)
            initialized.agrees le_rfl⟩
      | some index =>
          have vacant := ProcessTable.freeSlot_eq_some found
          dsimp only
          split
          · -- the id is spent although no endpoint was left
            refine ⟨issued + 1, le_rfl, initialized.calm (.of_slots rfl fun _ waits => waits)
              ?_ (Nat.le_succ _)⟩
            have agree : Agree issued s.scheduler table.nextTaskId table.task := initialized.agrees
            refine ⟨agree.sound, ?_, fun i occupied => ?_, agree.parents, agree.distinct,
              agree.placed, agree.blocked⟩
            · change satAdd table.nextTaskId 1 = _
              unfold satAdd
              omega
            · have := agree.ids i occupied
              exact ⟨this.1, this.2.trans (Nat.le_succ _)⟩
          · refine ⟨issued + 1, le_rfl, initialized.install few vacant rfl rfl ?_ rfl rfl root rfl⟩
            refine Agrees.of_agree ?_ rfl rfl (ProcessTable.task_of_slots rfl)
            refine Agree.install initialized.agrees few vacant rfl ?_ rfl
            change parentId < table.nextTaskId
            omega

end System

/-! ### Runs -/

theorem boot_recorded : System.boot.Recorded 0 fun _ => none where
  agrees := boot_agrees
  able := fun _ occupied => absurd rfl occupied
  saved := fun _ occupied => absurd rfl occupied
  known := fun _ isKnown => absurd rfl isKnown
  receives := nofun

/-- What one step preserves. -/
theorem step_recorded {s : System} {issued : Nat} {suspended : Nat → Option Suspension}
    (recorded : s.Recorded issued suspended) {op : Op} (aside : op.Aside s)
    (few : op.spawns = true → issued < maxWord) :
    ∃ issued' ≤ issued + if op.spawns then 1 else 0, (step s op).Recorded issued' suspended := by
  have agrees := recorded.agrees
  cases op with
  | spawnElfChild parentId image heap =>
      change ∃ issued' ≤ issued + 1,
        (s.spawnElfChild parentId image heap).2.Recorded issued' suspended
      have failed : s.failSpawn.Recorded issued suspended :=
        recorded.calm (.of_slots rfl fun _ waits => waits) agrees le_rfl
      unfold System.spawnElfChild
      split
      · exact ⟨issued, Nat.le_succ _, failed⟩
      rename_i valid
      cases image with
      | none => exact ⟨issued, Nat.le_succ _, failed⟩
      | some image =>
          exact System.spawnImage_recorded recorded (few rfl) (agrees.parent_le valid) image
            (aside image rfl) heap
  | spawnPreemptTask image executable heap =>
      change ∃ issued' ≤ issued + 1,
        (s.spawnPreemptTask image executable heap).2.Recorded issued' suspended
      have failed : s.failSpawn.Recorded issued suspended :=
        recorded.calm (.of_slots rfl fun _ waits => waits) agrees le_rfl
      unfold System.spawnPreemptTask
      cases image with
      | none => exact ⟨issued, Nat.le_succ _, failed⟩
      | some image =>
          dsimp only
          split
          · exact ⟨issued, Nat.le_succ _, failed⟩
          · exact System.spawnImage_recorded recorded (few rfl) (Nat.zero_le _) image
              (aside image rfl) heap
  | spawnLegacy entryPoint stackTop heap => exact aside.elim
  | grant owner target rights =>
      exact ⟨issued, le_rfl, recorded.calm (.of_slots rfl fun _ waits => waits) agrees le_rfl⟩
  | markRunning id syscallsBefore =>
      exact ⟨issued, le_rfl, recorded.calm (System.markRunning_calm agrees id syscallsBefore)
        (System.markRunning_agrees agrees id syscallsBefore) le_rfl⟩
  | markExited id exitCode syscallsAfter =>
      exact ⟨issued, le_rfl, recorded.calm (System.markExited_calm agrees id exitCode syscallsAfter)
        (System.markExited_agrees agrees id exitCode syscallsAfter) le_rfl⟩
  | cleanupTask id teardown =>
      exact ⟨issued, le_rfl, recorded.calm (s.cleanupTask_calm id teardown)
        (System.cleanupTask_agrees agrees id teardown) le_rfl⟩
  | waitChild parentId childId =>
      exact ⟨issued, le_rfl, recorded.calm (System.waitChild_calm agrees aside childId)
        (System.waitChild_agrees agrees parentId childId) le_rfl⟩
  | send sender receiver bytes =>
      exact ⟨issued, le_rfl, recorded.calm (System.send_calm agrees sender receiver bytes)
        (System.send_agrees agrees sender receiver bytes) le_rfl⟩
  | receive receiver output blockWhenEmpty =>
      refine ⟨issued, le_rfl, recorded.calm ?_
        (System.receive_agrees agrees receiver output blockWhenEmpty) le_rfl⟩
      cases blockWhenEmpty with
      | false => exact s.receive_calm receiver output
      | true => exact System.receive_true_calm agrees (aside rfl) output
  | syscall memory call arg0 frame => exact aside.elim
  | startPreemptionTest =>
      exact ⟨issued, le_rfl, recorded.calm (.of_slots rfl fun _ waits => waits) agrees le_rfl⟩
  | stopPreemptionTest passed =>
      exact ⟨issued, le_rfl, recorded.calm (.of_slots rfl fun _ waits => waits) agrees le_rfl⟩
  | timer context =>
      obtain rfl : context = none := aside
      have agrees₁ := System.onTimerTick_agrees agrees ((s.ticks + 1) % 2 ^ 64)
      obtain ⟨expired, agrees₂⟩ := System.expireIpcDeadlines_calm agrees₁ (satAdd s.ticks 1)
      have calm := (s.onTimerTick_calm ((s.ticks + 1) % 2 ^ 64)).trans expired
      change ∃ issued' ≤ issued + 0, (s.timerInterruptHandler none).2.2.Recorded issued' suspended
      unfold System.timerInterruptHandler
      dsimp only
      generalize System.expireIpcDeadlines _ _ = s₁ at *
      exact ⟨issued, le_rfl, recorded.calm calm agrees₂ le_rfl⟩

/-- A turn without a switch changes no record. A turn with one puts the outgoing task
on record, and loads what the record says. -/
theorem take_recorded {s : System} {issued : Nat} {suspended : Nat → Option Suspension}
    (recorded : s.Recorded issued suspended) {turn : Turn} (legal : turn.Legal s)
    (few : turn.spawns = true → issued < maxWord) :
    ∃ issued' ≤ issued + if turn.spawns then 1 else 0,
      match turn.switch s with
      | none => (turn.take s).Recorded issued' suspended
      | some switch =>
          (∃ entryPoint stackTop, switch.loaded = loadSyscallContext
            (match suspended switch.incoming with
              | some suspension => suspension.context
              | none => initialTimerContext entryPoint stackTop)) ∧
          (turn.take s).Recorded issued'
            (Function.update suspended switch.outgoing (some switch.suspension)) := by
  have agrees := recorded.agrees
  cases turn with
  | kernel op => exact step_recorded recorded legal few
  | syscall memory frame =>
      have agrees' := System.syscallInterrupt_agrees agrees memory frame
      refine ⟨issued, le_rfl, ?_⟩
      unfold Turn.switch Turn.take
      dsimp only
      rcases System.syscallInterrupt_effect agrees recorded.able memory frame with
        ⟨ending, s', eq, stays, calm⟩ | ⟨root, loaded, s', call, nonzero, eq, isCall, receives,
          handover⟩
      · rw [eq] at agrees' ⊢
        cases ending with
        | exit exitCode => exact recorded.calm calm agrees' le_rfl
        | resume root frame' =>
            obtain rfl := stays root frame' rfl
            exact recorded.calm calm agrees' le_rfl
      · rw [eq] at agrees' ⊢
        dsimp only
        rw [if_neg nonzero]
        obtain ⟨⟨j, id, restored⟩, recorded'⟩ := recorded.handsOver (.blocked frame) handover
          ⟨call, isCall, receives⟩ agrees'
        refine ⟨⟨(s.table.task j).entryPoint, (s.table.task j).stackTop, ?_⟩, recorded'⟩
        rw [restored, ← id]
        rfl
  | timer context =>
      have agrees' := (System.agrees_survivesTimer issued).timerInterruptHandler agrees
        (some context)
      refine ⟨issued, le_rfl, ?_⟩
      unfold Turn.switch Turn.take
      dsimp only
      rcases System.timerInterruptHandler_effect agrees recorded.able context with
        ⟨action, s', eq, stays, calm⟩ | ⟨root, loaded, s', nonzero, eq, handover⟩
      · rw [eq] at agrees' ⊢
        cases action with
        | «continue» => exact recorded.calm calm agrees' le_rfl
        | stop exitCode => exact recorded.calm calm agrees' le_rfl
        | switch root => exact absurd rfl (stays root)
      · rw [eq] at agrees' ⊢
        obtain ⟨⟨j, id, restored⟩, recorded'⟩ := recorded.handsOver (.preempted context)
          handover trivial agrees'
        refine ⟨⟨(s.table.task j).entryPoint, (s.table.task j).stackTop, ?_⟩, recorded'⟩
        rw [restored, ← id]
        rfl

/-- The record after these switches. -/
def recordAfter (suspended : Nat → Option Suspension) (switches : List TaskSwitch) :
    Nat → Option Suspension :=
  switches.foldl (fun suspended switch =>
    Function.update suspended switch.outgoing (some switch.suspension)) suspended

/-- Nobody else left the processor under that id. -/
theorem recordAfter_of_forall {suspended : Nat → Option Suspension} {id : Nat}
    {switches : List TaskSwitch} (others : ∀ switch ∈ switches, switch.outgoing ≠ id) :
    recordAfter suspended switches id = suspended id := by
  induction switches generalizing suspended with
  | nil => rfl
  | cons switch switches ih =>
      refine (ih fun other mem => others other (List.mem_cons_of_mem _ mem)).trans ?_
      exact Function.update_of_ne (others switch List.mem_cons_self).symm _ _

theorem recordAfter_append (suspended : Nat → Option Suspension) (first second : List TaskSwitch) :
    recordAfter suspended (first ++ second) = recordAfter (recordAfter suspended first) second :=
  List.foldl_append

/-- Every switch of a run loads what is on record for the incoming task. -/
theorem switches_recorded {s : System} {issued : Nat} {suspended : Nat → Option Suspension}
    (recorded : s.Recorded issued suspended) {turns : List Turn} (legal : LegalTurns s turns)
    (few : issued + turns.countP Turn.spawns ≤ maxWord) {before after : List TaskSwitch}
    {back : TaskSwitch} (isRun : switches s turns = before ++ back :: after) :
    ∃ entryPoint stackTop, back.loaded = loadSyscallContext
        (match recordAfter suspended before back.incoming with
          | some suspension => suspension.context
          | none => initialTimerContext entryPoint stackTop) ∧
      ∀ suspension, recordAfter suspended before back.incoming = some suspension →
        suspension.Receives := by
  induction turns generalizing s issued suspended before with
  | nil => cases before <;> cases isRun
  | cons turn turns ih =>
      rw [List.countP_cons] at few
      obtain ⟨issued', bound, taken⟩ := take_recorded recorded legal.1 fun spawns => by
        rw [if_pos spawns] at few
        omega
      unfold switches at isRun
      cases isSwitch : turn.switch s with
      | none =>
          rw [isSwitch] at taken isRun
          exact ih taken legal.2 (by omega) isRun
      | some switch =>
          rw [isSwitch] at taken isRun
          obtain ⟨⟨entryPoint, stackTop, loaded⟩, recorded'⟩ := taken
          cases before with
          | nil =>
              cases isRun
              exact ⟨entryPoint, stackTop, loaded, recorded.receives _⟩
          | cons first before =>
              obtain ⟨rfl, isRun'⟩ := List.cons_eq_cons.mp isRun
              exact ih recorded' legal.2 (by omega) isRun'

/-- In every run with fewer than 2^64 spawns: a task that comes back has the registers
it was suspended with. A task on the processor for the first time has those of a new
one, and so nothing of the system call that gave way to it. -/
theorem registers_survive (turns : List Turn) (legal : LegalTurns .boot turns)
    (few : turns.countP Turn.spawns < 2 ^ 64) :
    (∀ (before between after : List TaskSwitch) (away back : TaskSwitch),
      switches .boot turns = before ++ away :: (between ++ back :: after) →
      back.incoming = away.outgoing →
      (∀ switch ∈ between, switch.outgoing ≠ away.outgoing) →
      away.suspension.Restored back.loaded) ∧
    (∀ (before after : List TaskSwitch) (back : TaskSwitch),
      switches .boot turns = before ++ back :: after →
      (∀ switch ∈ before, switch.outgoing ≠ back.incoming) →
      ∃ entryPoint stackTop,
        back.loaded = loadSyscallContext (initialTimerContext entryPoint stackTop)) := by
  have bound : 0 + turns.countP Turn.spawns ≤ maxWord := by
    simp only [maxWord]
    omega
  refine ⟨fun before between after away back isRun same others => ?_,
    fun before after back isRun others => ?_⟩
  · rw [show before ++ away :: (between ++ back :: after) =
      (before ++ away :: between) ++ back :: after by simp] at isRun
    obtain ⟨_, _, loaded, receives⟩ := switches_recorded boot_recorded legal bound isRun
    have onRecord : recordAfter (fun _ => none) (before ++ away :: between) back.incoming =
        some away.suspension := by
      rw [recordAfter_append, same]
      exact (recordAfter_of_forall others).trans (Function.update_self ..)
    rw [onRecord] at loaded receives
    rw [loaded]
    exact Suspension.restored_of_receives (receives _ rfl)
  · obtain ⟨entryPoint, stackTop, loaded, -⟩ := switches_recorded boot_recorded legal bound isRun
    rw [recordAfter_of_forall others] at loaded
    exact ⟨entryPoint, stackTop, loaded⟩

/-! ### A run with both kinds of switches -/

def userContext (rbx : Nat) : TimerContext := { initialTimerContext 0x400000 0x800000 with rbx }

def userFrame (rax rdi rsi rip : Nat) : SyscallFrame :=
  { loadSyscallContext (userContext 77) with rax, rdi, rsi, rip }

/-- Task 1 waits for a message, gets it from task 2 and is preempted; task 2 waits. -/
def handoffTurns : List Turn :=
  [.kernel (.spawnElfChild 0 (some someImage) (some 64)),
    .kernel (.spawnElfChild 0 (some someImage) (some 128)),
    .kernel (.grant 2 1 CapabilityRights.send),
    .kernel (.markRunning 1 0),
    .kernel .startPreemptionTest,
    .syscall blankMemory (userFrame 6 0x500000 16 0x400012),
    .syscall blankMemory (userFrame 5 770 0x500000 0x400020),
    .timer (userContext 5),
    .timer (userContext 6),
    .syscall blankMemory (userFrame 6 0x500000 16 0x400012),
    .timer (userContext 7),
    .timer (userContext 8),
    .syscall blankMemory (userFrame 6 0x500000 16 0x400012)]

theorem handoffTurns_legal : LegalTurns .boot handoffTurns := by
  have root : ∀ loaded ∈ some someImage, loaded.rootFrame ≠ 0 := by
    rintro _ ⟨⟩
    decide
  exact ⟨root, root, trivial, trivial, trivial, trivial, trivial, trivial, trivial, trivial,
    trivial, trivial, trivial, trivial⟩

theorem registers_survive_handoffTurns :
    (switches .boot handoffTurns).map (fun switch => (switch.outgoing, switch.incoming)) =
      [(1, 2), (2, 1), (1, 2), (2, 1)] ∧
    (∀ (before between after : List TaskSwitch) (away back : TaskSwitch),
      switches .boot handoffTurns = before ++ away :: (between ++ back :: after) →
      back.incoming = away.outgoing →
      (∀ switch ∈ between, switch.outgoing ≠ away.outgoing) →
      away.suspension.Restored back.loaded) ∧
    (∀ (before after : List TaskSwitch) (back : TaskSwitch),
      switches .boot handoffTurns = before ++ back :: after →
      (∀ switch ∈ before, switch.outgoing ≠ back.incoming) →
      ∃ entryPoint stackTop,
        back.loaded = loadSyscallContext (initialTimerContext entryPoint stackTop)) :=
  ⟨by decide +kernel, registers_survive handoffTurns handoffTurns_legal (by decide)⟩

end CloudOS.Process
