import CloudOS.Process.Wakeful

/-!
No wake-up is lost in a system of tasks without parents.

A move is what the kernel does at a time: it starts a task, grants a capability,
runs a ready task when the processor is free, serves a system call of the current
task or a timer interrupt, or ends a task for good. In every state such moves
lead to, a task is blocked exactly when its endpoint and its own flag say that
it waits, and then no message is queued for it.
-/

namespace CloudOS.Process

open Lib.Word (maxWord)
open CloudOS.Ipc (CapabilityRights IpcState Mailbox maxEndpoints)

inductive Move where
  | spawn (image : Option ProcessImage) (heapAllocation : Option Nat)
  | spawnPreempt (image : Option ProcessImage) (executable : Bool) (heapAllocation : Option Nat)
  | grant (owner target : Nat) (rights : CapabilityRights)
  | markRunning (id syscallsBefore : Nat)
  | syscall (memory : UserMemory) (call : Syscall) (arg0 : Nat) (frame : SyscallFrame)
  | timer (context : Option TimerContext)
  | startPreemptionTest
  | stopPreemptionTest (passed : Bool)
  | exit (id exitCode syscallsAfter : Nat) (teardown : Teardown)

namespace Move

def ops : Move → List Op
  | spawn image heap => [.spawnElfChild 0 image heap]
  | spawnPreempt image executable heap => [.spawnPreemptTask image executable heap]
  | grant owner target rights => [.grant owner target rights]
  | markRunning id syscallsBefore => [.markRunning id syscallsBefore]
  | syscall memory call arg0 frame => [.syscall memory call arg0 frame]
  | timer context => [.timer context]
  | startPreemptionTest => [.startPreemptionTest]
  | stopPreemptionTest passed => [.stopPreemptionTest passed]
  | exit id exitCode syscallsAfter teardown =>
      [.markExited id exitCode syscallsAfter, .cleanupTask id teardown]

/-- The move is a system call of the current task. -/
def calls : Move → Bool
  | syscall .. => true
  | _ => false

def spawns : Move → Bool
  | spawn .. | spawnPreempt .. => true
  | _ => false

/-- Images have an address space; only ready tasks are run, one at a time. -/
def Legal (s : System) : Move → Prop
  | spawn image _ | spawnPreempt image _ _ => ∀ loaded ∈ image, loaded.rootFrame ≠ 0
  | markRunning id _ => s.scheduler.currentTask = 0 ∧
      ∃ i ∈ s.table.findTask id, (s.table.task i).state = .ready
  | _ => True

end Move

def perform (s : System) (move : Move) : System := run s move.ops

def play (s : System) (moves : List Move) : System := moves.foldl perform s

/-- Every move is legal when it is made. -/
def LegalPlay (s : System) : List Move → Prop
  | [] => True
  | move :: moves => move.Legal s ∧ LegalPlay (perform s move) moves

theorem play_append (s : System) (before after : List Move) :
    play s (before ++ after) = play (play s before) after := List.foldl_append

theorem legalPlay_append {s : System} {before after : List Move} :
    LegalPlay s (before ++ after) ↔ LegalPlay s before ∧ LegalPlay (play s before) after := by
  induction before generalizing s with
  | nil => exact ⟨fun legal => ⟨trivial, legal⟩, fun both => both.2⟩
  | cons move before ih =>
      change move.Legal s ∧ LegalPlay (perform s move) (before ++ after) ↔ _
      rw [ih, ← and_assoc]
      rfl

/-- The task in slot `i` and its endpoint `e` say the same about its wait. -/
structure InStep (s : System) (i : Fin maxTasks) (e : Fin maxEndpoints) : Prop where
  endpoint : s.ipc.find (s.table.task i).id = some e
  waiting : (s.ipc.endpoints e).waiting = true ↔ (s.table.task i).ipcWaiting = true
  flag : (s.table.task i).ipcWaiting = true ↔ (s.table.task i).state = .blocked
  listed : (s.table.task i).state = .blocked →
    (s.table.task i).id ∈ s.scheduler.blockedTasks
  empty : (s.table.task i).state = .blocked → (s.ipc.endpoints e).len = 0

theorem System.Wakeful.inStep {s : System} {issued : Nat} (wakeful : s.Wakeful issued)
    {i : Fin maxTasks} (live : (s.table.task i).live = true) : ∃ e, InStep s i e := by
  obtain ⟨e, found, pair⟩ := wakeful.mailbox live
  have flag := (wakeful.attuned.fit i).flag
  exact ⟨e, found, pair.waiting.trans flag.symm, flag, Agree.blocked wakeful.agrees i,
    fun blocked => pair.empty (pair.waiting.mpr blocked)⟩

theorem boot_wakeful : System.boot.Wakeful 0 where
  agrees := boot_agrees
  attuned :=
    { fit := fun _ =>
        { able := fun live => by cases live
          orphan := rfl
          flag := ⟨fun waiting => (by cases waiting), fun blocked => (by cases blocked)⟩
          retired := fun _ => rfl }
      paired := fun _ live => by cases live
      owned := fun _ owner => absurd rfl owner
      single := fun _ _ owner => absurd rfl owner
      free := fun _ _ => rfl }
  unique := fun _ _ active => by cases active

/-- Task ids are not taken back. -/
theorem System.spawnImage_issued {s : System} {issued issued' : Nat} (wakeful : s.Wakeful issued)
    (few : issued < maxWord) {parentId : Nat} {image : ProcessImage}
    {heapAllocation : Option Nat}
    (wakeful' : (s.spawnImage parentId image heapAllocation).2.Wakeful issued') :
    issued ≤ issued' := by
  have grown : s.table.nextTaskId ≤
      (s.spawnImage parentId image heapAllocation).2.table.nextTaskId := by
    have next := Agree.next wakeful.agrees
    cases heapAllocation with
    | none => exact le_rfl
    | some address =>
        unfold System.spawnImage System.installTask
        dsimp only
        have same : (if s.table.initialized then s.table else s.table.init).nextTaskId =
            s.table.nextTaskId := by
          split
          · rfl
          · rfl
        generalize (if s.table.initialized then s.table else s.table.init) = table at same
        have advanced : s.table.nextTaskId ≤ Lib.Word.satAdd table.nextTaskId 1 := by
          rw [same]
          unfold Lib.Word.satAdd
          omega
        split
        · exact same.ge
        split
        · exact advanced
        · exact advanced
  rw [Agree.next wakeful.agrees, Agree.next wakeful'.agrees] at grown
  omega

/-- What one legal move preserves. -/
theorem perform_wakeful {s : System} {issued : Nat} (wakeful : s.Wakeful issued) {move : Move}
    (legal : move.Legal s) (few : move.spawns = true → issued < maxWord) :
    ∃ issued', issued ≤ issued' ∧ (issued' ≤ issued + if move.spawns then 1 else 0) ∧
      (perform s move).Wakeful issued' := by
  cases move with
  | spawn image heap =>
      change ∃ issued', issued ≤ issued' ∧ issued' ≤ issued + 1 ∧
        (s.spawnElfChild 0 image heap).2.Wakeful issued'
      cases image with
      | none =>
          exact ⟨issued, le_rfl, Nat.le_succ _, wakeful.agrees, wakeful.attuned, wakeful.unique⟩
      | some image =>
          obtain ⟨issued', bound, wakeful'⟩ :=
            System.spawnImage_wakeful wakeful (few rfl) image (legal image rfl) heap
          exact ⟨issued', System.spawnImage_issued wakeful (few rfl) wakeful', bound, wakeful'⟩
  | spawnPreempt image executable heap =>
      change ∃ issued', issued ≤ issued' ∧ issued' ≤ issued + 1 ∧
        (s.spawnPreemptTask image executable heap).2.Wakeful issued'
      cases image with
      | none =>
          exact ⟨issued, le_rfl, Nat.le_succ _, wakeful.agrees, wakeful.attuned, wakeful.unique⟩
      | some image =>
          cases executable with
          | false =>
              exact ⟨issued, le_rfl, Nat.le_succ _, wakeful.agrees, wakeful.attuned,
                wakeful.unique⟩
          | true =>
              obtain ⟨issued', bound, wakeful'⟩ :=
                System.spawnImage_wakeful wakeful (few rfl) image (legal image rfl) heap
              exact ⟨issued', System.spawnImage_issued wakeful (few rfl) wakeful', bound, wakeful'⟩
  | grant owner target rights =>
      exact ⟨issued, le_rfl, le_rfl, wakeful.undisturbed
        (IpcState.grant_undisturbed wakeful.unique owner target rights)⟩
  | markRunning id syscallsBefore =>
      obtain ⟨-, i, found, ready⟩ := legal
      exact ⟨issued, le_rfl, le_rfl, System.markRunning_wakeful wakeful found ready syscallsBefore⟩
  | syscall memory call arg0 frame =>
      exact ⟨issued, le_rfl, le_rfl,
        (System.wakeful_survivesCalls issued).dispatch wakeful memory call arg0 frame⟩
  | timer context =>
      exact ⟨issued, le_rfl, le_rfl,
        (System.wakeful_survivesTimer issued).timerInterruptHandler wakeful context⟩
  | startPreemptionTest =>
      exact ⟨issued, le_rfl, le_rfl, wakeful.agrees, wakeful.attuned, wakeful.unique⟩
  | stopPreemptionTest passed =>
      exact ⟨issued, le_rfl, le_rfl, wakeful.agrees, wakeful.attuned, wakeful.unique⟩
  | exit id exitCode syscallsAfter teardown =>
      exact ⟨issued, le_rfl, le_rfl,
        System.exit_wakeful wakeful id exitCode syscallsAfter teardown⟩

/-- What a whole legal play preserves. -/
theorem play_wakeful {s : System} {issued : Nat} (wakeful : s.Wakeful issued) {moves : List Move}
    (legal : LegalPlay s moves) (few : issued + moves.countP Move.spawns ≤ maxWord) :
    ∃ issued' ≤ issued + moves.countP Move.spawns, (play s moves).Wakeful issued' := by
  induction moves generalizing s issued with
  | nil => exact ⟨issued, le_rfl, wakeful⟩
  | cons move moves ih =>
      rw [List.countP_cons] at few ⊢
      obtain ⟨issued₁, -, bound₁, wakeful₁⟩ := perform_wakeful wakeful legal.1 fun spawns => by
        rw [if_pos spawns] at few
        omega
      obtain ⟨issued₂, bound₂, wakeful₂⟩ := ih wakeful₁ legal.2 (by omega)
      exact ⟨issued₂, by omega, wakeful₂⟩

/-- In every run with fewer than 2^64 spawns, every task is in step with its
endpoint, and no message fails to wake its receiver. -/
theorem no_lost_wakeup (moves : List Move) (legal : LegalPlay .boot moves)
    (few : moves.countP Move.spawns < 2 ^ 64) :
    (∀ i, ((play .boot moves).table.task i).live = true → ∃ e, InStep (play .boot moves) i e) ∧
    (∀ sender handle bytes,
      ((play .boot moves).sendCapability sender handle bytes).1 ≠ .error .wakeFailed) ∧
    (∀ sender destination transfer rights bytes,
      ((play .boot moves).sendWithCapability sender destination transfer rights bytes).1 ≠
        .error .wakeFailed) := by
  obtain ⟨issued, -, wakeful⟩ := play_wakeful boot_wakeful legal (by
    simp only [maxWord]
    omega)
  refine ⟨fun i live => wakeful.inStep live, fun sender handle bytes => ?_,
    fun sender destination transfer rights bytes => ?_⟩
  · exact (System.sendCapability_wakeful wakeful sender handle bytes).1
  · exact (System.sendWithCapability_wakeful wakeful sender destination transfer rights bytes).1

def spawnMove : Move := .spawn (some someImage) (some 64)

theorem spawnMove_legal (s : System) : spawnMove.Legal s := by
  rintro image ⟨⟩
  decide

/-- Task 1 waits for a message while task 2 runs. -/
def waitingMoves : List Move :=
  [spawnMove, spawnMove, .markRunning 1 0, .syscall blankMemory .receive 0 blankFrame]

theorem waitingMoves_legal : LegalPlay .boot waitingMoves := by
  refine ⟨spawnMove_legal _, spawnMove_legal _, ⟨?_, 0, ?_, ?_⟩, trivial, trivial⟩
  · decide +kernel
  · decide +kernel
  · decide +kernel

theorem no_lost_wakeup_waitingMoves :
    ((play .boot waitingMoves).table.task 0).state = .blocked ∧
    (∀ i, ((play .boot waitingMoves).table.task i).live = true →
      ∃ e, InStep (play .boot waitingMoves) i e) ∧
    (∀ sender handle bytes,
      ((play .boot waitingMoves).sendCapability sender handle bytes).1 ≠ .error .wakeFailed) ∧
    (∀ sender destination transfer rights bytes,
      ((play .boot waitingMoves).sendWithCapability sender destination transfer rights bytes).1 ≠
        .error .wakeFailed) :=
  ⟨by decide +kernel, no_lost_wakeup waitingMoves waitingMoves_legal (by decide)⟩

end CloudOS.Process
