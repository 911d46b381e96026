import CloudOS.Process.ExitAttribution
import CloudOS.Process.MoveTraffic

/-!
What moves do to the wait of a task that does nothing itself.

The four fields of `Wait` are all that a task knows about its receive. They stay
as they are until the wait ends, which takes a send, a cancellation or an expired
deadline; the cause is then on record as the wake reason.
-/

namespace CloudOS.Process

open Lib.Word (satAdd maxWord)
open CloudOS.Ipc (IpcState CapabilityRights maxEndpoints)

/-! ### Waits -/

/-- What a task's slot says about its wait for a message. -/
structure Wait where
  blocked : Bool
  restartPending : Bool
  deadlineTick : Nat
  wakeReason : IpcWakeReason
deriving DecidableEq

def Task.wait (task : Task) : Wait where
  blocked := task.state == .blocked
  restartPending := task.ipcRestartPending
  deadlineTick := task.ipcDeadlineTick
  wakeReason := task.ipcWakeReason

/-- What can end a wait: `finish_send_locked`, `cancel_wait` and
`expire_ipc_deadlines`. -/
inductive WakeCause where
  | send
  | cancel
  | expiry
deriving DecidableEq

def WakeCause.reason : WakeCause → IpcWakeReason
  | send => .message
  | cancel => .cancelled
  | expiry => .timeout

def Wait.ended (wait : Wait) (cause : WakeCause) : Wait where
  blocked := false
  restartPending := wait.restartPending
  deadlineTick := 0
  wakeReason := cause.reason

/-- The wait of the task in slot `i` ends, at tick `now`. -/
structure Ends (cause : WakeCause) (now : Nat) (i : Fin maxTasks) (s s' : System) : Prop where
  blocked : (s.table.task i).wait.blocked = true
  wait : (s'.table.task i).wait = (s.table.task i).wait.ended cause
  mail : cause = .send → s'.ipc.mail (s.table.task i).id ≠ []
  due : cause = .expiry →
    (s.table.task i).wait.deadlineTick ≠ 0 ∧ (s.table.task i).wait.deadlineTick ≤ now

/-- The task in slot `i` stays what it is, unless its wait ends. -/
structure Bears (cause : Option WakeCause) (now : Nat) (i : Fin maxTasks) (s s' : System) :
    Prop where
  id : (s'.table.task i).id = (s.table.task i).id
  live : (s'.table.task i).live = (s.table.task i).live
  wait : (s'.table.task i).wait = (s.table.task i).wait ∨
    ∃ c, cause = some c ∧ Ends c now i s s'

namespace Bears

variable {cause : Option WakeCause} {now : Nat} {i : Fin maxTasks} {s s' s'' : System}

/-- The task is the same. -/
theorem of_task (same : s'.table.task i = s.table.task i) : Bears cause now i s s' :=
  ⟨by rw [same], by rw [same], Or.inl (by rw [same])⟩

theorem refl (s : System) : Bears cause now i s s := of_task rfl

/-- One task changes, and this one at most beside its wait. -/
theorem of_update {k : Fin maxTasks} {task : Task}
    (tasks : s'.table.task = Function.update s.table.task k task)
    (here : i = k → task.id = (s.table.task i).id ∧ task.live = (s.table.task i).live ∧
      task.wait = (s.table.task i).wait) : Bears cause now i s s' := by
  by_cases same : i = k
  · obtain ⟨id, live, wait⟩ := here same
    subst same
    refine ⟨?_, ?_, Or.inl ?_⟩
    all_goals rw [tasks, Function.update_self]
    · exact id
    · exact live
    · exact wait
  · exact of_task (by rw [tasks, Function.update_of_ne same])

/-- Where nothing wakes, the cause does not matter. -/
theorem quiet (bears : Bears none now i s s') : Bears cause now i s s' := by
  refine ⟨bears.id, bears.live, bears.wait.imp_right ?_⟩
  rintro ⟨c, isCause, -⟩
  cases isCause

/-- Only a send has to do with the queue, so other changes compose. -/
theorem trans (first : Bears cause now i s s') (second : Bears cause now i s' s'')
    (other : cause ≠ some .send) : Bears cause now i s s'' := by
  refine ⟨second.id.trans first.id, second.live.trans first.live, ?_⟩
  rcases first.wait with same | ⟨c, isCause, ends⟩
  · rcases second.wait with same' | ⟨c, isCause, ends⟩
    · exact Or.inl (same'.trans same)
    · refine Or.inr ⟨c, isCause, ?_, ?_, fun sends => ?_, fun expires => ?_⟩
      · rw [← same]
        exact ends.blocked
      · rw [← same]
        exact ends.wait
      · exact absurd (isCause.trans (congrArg some sends)) other
      · rw [← same]
        exact ends.due expires
  · rcases second.wait with same' | ⟨c', -, ends'⟩
    · exact Or.inr ⟨c, isCause, ends.blocked, same'.trans ends.wait,
        fun sends => absurd (isCause.trans (congrArg some sends)) other, ends.due⟩
    · have awake := ends'.blocked
      rw [ends.wait] at awake
      cases awake

end Bears

/-- How the move can end a wait. -/
def Move.cause : Move → Option WakeCause
  | syscall _ .send _ _ | syscall _ .sendCapability _ _ => some .send
  | syscall _ .cancel _ _ => some .cancel
  | timer _ => some .expiry
  | _ => none

theorem Task.wait_of_awake {task task' : Task} (awake : task.state ≠ .blocked)
    (awake' : task'.state ≠ .blocked)
    (restart : task'.ipcRestartPending = task.ipcRestartPending)
    (deadline : task'.ipcDeadlineTick = task.ipcDeadlineTick)
    (reason : task'.ipcWakeReason = task.ipcWakeReason) : task'.wait = task.wait := by
  unfold wait
  rw [restart, deadline, reason, beq_false_of_ne awake, beq_false_of_ne awake']

theorem Task.wait_blocked {task : Task} : task.wait.blocked = true ↔ task.state = .blocked :=
  beq_iff_eq

namespace System

variable {s : System} {issued : Nat} {cause : Option WakeCause} {now : Nat} {i : Fin maxTasks}

/-! ### Receiving -/

theorem takeIpcWakeReason_bears {taskId : Nat} (other : (s.table.task i).id ≠ taskId) :
    Bears none now i s (s.takeIpcWakeReason taskId).2 := by
  unfold takeIpcWakeReason
  cases found : s.table.findTask taskId with
  | none => exact .refl s
  | some k =>
      have elsewhere : i ≠ k := by
        rintro rfl
        exact other (ProcessTable.findTask_eq_some found).2
      have taken : Bears none now i s
          (s.modify k fun task => { task with ipcWakeReason := .none }) :=
        .of_update (task_modify s k _) fun here => absurd here elsewhere
      dsimp only
      split
      · refine taken.trans (.of_update (k := k) (ProcessTable.task_of_slots rfl) ?_) nofun
        exact fun here => absurd here elsewhere
      · exact taken

theorem completeIpcRestart_bears {taskId : Nat} (other : (s.table.task i).id ≠ taskId) :
    Bears none now i s (s.completeIpcRestart taskId).2 := by
  unfold completeIpcRestart
  cases found : s.table.findTask taskId with
  | none => exact .refl s
  | some k =>
      dsimp only
      split
      · exact .refl s
      · refine .of_update (k := k) (ProcessTable.task_of_slots rfl) ?_
        rintro rfl
        exact absurd (ProcessTable.findTask_eq_some found).2 other

/-- The task may be the next to run. -/
theorem scheduled_bears {j : Fin maxTasks} {tasks : Fin maxTasks → Task} {s' : System}
    {waited : Nat} (same : tasks i = s.table.task i) (live : (s.table.task j).live = true)
    (awake : (s.table.task j).state ≠ .blocked)
    (after : s'.table.task = Function.update tasks j ((s.table.task j).scheduled s.ticks waited)) :
    Bears none now i s s' := by
  by_cases here : i = j
  · subst here
    have task : s'.table.task i = (s.table.task i).scheduled s.ticks waited := by
      rw [after, Function.update_self]
    refine ⟨?_, ?_, Or.inl ?_⟩
    all_goals rw [task]
    · rfl
    · exact live.symm
    · exact Task.wait_of_awake awake nofun rfl rfl rfl
  · refine .of_task ?_
    rw [after, Function.update_of_ne here, same]

theorem blockSyscall_bears (wakeful : s.Wakeful issued) {receiver : Nat}
    (other : (s.table.task i).id ≠ receiver) (frame : SyscallFrame) (deadlineTick : Nat) :
    Bears none now i s (s.blockSyscall receiver frame deadlineTick).2.2 := by
  unfold blockSyscall
  split
  · exact .of_task rfl
  dsimp only
  split
  · exact .of_task rfl
  · exact .of_task rfl
  split
  · exact .of_task rfl
  rename_i ipc _
  have result := blockForIpcSyscall_result (s := { s with ipc }) (Agree.sound wakeful.agrees)
    receiver frame deadlineTick
  generalize blockForIpcSyscall { s with ipc } receiver frame deadlineTick = blocking at result
  obtain ⟨root, frame', s'⟩ := blocking
  cases result with
  | refused => exact .of_task rfl
  | @saved k context found => exact .of_task (congrFun (s.task_saveContext k context) i)
  | @stuck k context next scheduler found =>
      exact .of_task (congrFun (s.task_saveContext k context) i)
  | @switched waited k j next _ _ found target _ isCurrent nonzero mem places sound beside tasks
      valid =>
      have elsewhere : i ≠ k := by
        rintro rfl
        exact other (ProcessTable.findTask_eq_some found).2
      obtain ⟨j', target', live, awake⟩ := wakeful.queued mem
      cases target.symm.trans target'
      have bears : Bears none now i s s' :=
        scheduled_bears (Function.update_of_ne elsewhere _ s.table.task) live awake tasks
      exact bears.trans (.of_task rfl) nofun

theorem receiveCommon_bears (wakeful : s.Wakeful issued)
    (other : (s.table.task i).id ≠ s.currentTask) (memory : UserMemory) (buffer : Nat)
    (frame : SyscallFrame) (timeoutTicks : Option Nat) :
    Bears none now i s (s.receiveCommon memory buffer frame timeoutTicks).2.2 := by
  have taken : Bears none now i s s.taken := takeIpcWakeReason_bears other
  have other' : (s.taken.table.task i).id ≠ s.currentTask := fun same => other (taken.id ▸ same)
  have received : ∀ ipc, Bears none now i s { s.taken with ipc } := fun ipc =>
    taken.trans (.of_task rfl) nofun
  have blocked : ∀ deadlineTick,
      Bears none now i s (s.taken.blockSyscall s.currentTask frame deadlineTick).2.2 :=
    fun deadlineTick => taken.trans (blockSyscall_bears
      (takeIpcWakeReason_wakeful wakeful s.currentTask) other' frame deadlineTick) nofun
  have exit := s.receiveCommon_exit memory buffer frame timeoutTicks
  generalize s.receiveCommon memory buffer frame timeoutTicks = result at exit ⊢
  obtain ⟨outcome, frame', s'⟩ := result
  dsimp only at exit ⊢
  cases exit with
  | noTask | invalid => exact .refl s
  | ended | polled => exact taken
  | uncopied | failed => exact received _
  | delivered => exact (received _).trans (completeIpcRestart_bears other') nofun
  | refused _ _ _ _ blocks | switched _ _ _ _ blocks =>
      have after := blocked (deadlineTick s.taken.ticks timeoutTicks)
      rw [blocks] at after
      exact after

/-! ### Sending and cancelling -/

/-- A task is woken. -/
theorem woken_bears {k : Fin maxTasks} {c : WakeCause} {s' : System}
    (blocked : (s.table.task k).state = .blocked)
    (slots : s'.table.slots = Function.update s.table.slots k
      { s.table.slots k with task := (s.table.task k).woken c.reason })
    (mail : c = .send → s'.ipc.mail (s.table.task k).id ≠ [])
    (due : c = .expiry →
      (s.table.task k).ipcDeadlineTick ≠ 0 ∧ (s.table.task k).ipcDeadlineTick ≤ now) :
    Bears (some c) now i s s' := by
  have tasks := ProcessTable.task_of_slots slots
  by_cases here : i = k
  · subst here
    have task : s'.table.task i = (s.table.task i).woken c.reason := by
      rw [tasks, Function.update_self]
    refine ⟨?_, ?_, Or.inr ⟨c, rfl, Task.wait_blocked.mpr blocked, ?_, mail, due⟩⟩
    all_goals rw [task]
    · rfl
    · exact (live_of_blocked blocked).symm
    · rfl
  · exact .of_update tasks fun same => absurd same here

theorem mail_of_delivers {ipc ipc' : IpcState} {receiver : Nat} {waiting : Bool}
    {e : Fin maxEndpoints} (delivers : Ipc.Delivers ipc ipc' receiver waiting e) :
    ipc'.mail receiver ≠ [] := by
  have same : ∀ k, (ipc'.mailboxes k).owner = (ipc.mailboxes k).owner := by
    intro k
    rw [delivers.mailboxes]
    by_cases here : k = e
    · rw [here, Function.update_self]
      rfl
    · rw [Function.update_of_ne here]
  have found : ipc'.find receiver = some e := by
    rw [IpcState.find_congr same, delivers.found]
  have filled : (ipc'.endpoints e).len ≠ 0 := by
    have mailbox := congrFun delivers.mailboxes e
    rw [Function.update_self] at mailbox
    have len : (ipc'.endpoints e).len = (ipc.mailboxes e).len + 1 := congrArg Ipc.Mailbox.len mailbox
    omega
  rw [IpcState.mail_of_find found]
  exact fun empty => filled (by simpa [Ipc.Endpoint.messages, Lib.RingBuffer.contents] using empty)

theorem finishSendLocked_bears (wakeful : s.Wakeful issued) {ipc : IpcState} {receiver : Nat}
    {waiting : Bool} {e : Fin maxEndpoints}
    (delivers : Ipc.Delivers s.ipc ipc receiver waiting e) (sequence : Nat) :
    Bears (some .send) now i s
      (({ s with ipc } : System).finishSendLocked sequence waiting receiver).2 := by
  have mail := mail_of_delivers delivers
  unfold finishSendLocked
  cases waiting with
  | false => exact .of_task rfl
  | true =>
      rw [if_pos rfl]
      unfold wakeFromIpc
      rcases endIpcWait_cases (s := { s with ipc }) wakeful.agrees receiver .message with
        missed | ⟨k, scheduler, rfl, blocked, woken⟩
      · rw [missed]
        exact .of_task rfl
      · rw [woken]
        exact woken_bears (k := k) (c := .send) blocked rfl
          (fun _ => mail) nofun

theorem sendCapability_bears (wakeful : s.Wakeful issued) (sender handle : Nat)
    (bytes : List UInt8) :
    Bears (some .send) now i s (s.sendCapability sender handle bytes).2 := by
  unfold sendCapability
  rcases IpcState.sendCapability_delivers wakeful.unique sender handle bytes with
    ⟨sequence, waiting, receiver, e, ipc, eq, delivers⟩ | ⟨error, ipc, eq, -⟩
  · rw [eq]
    exact finishSendLocked_bears wakeful delivers sequence
  · rw [eq]
    exact .of_task rfl

theorem sendWithCapability_bears (wakeful : s.Wakeful issued) (sender destination transfer : Nat)
    (rights : CapabilityRights) (bytes : List UInt8) :
    Bears (some .send) now i s
      (s.sendWithCapability sender destination transfer rights bytes).2 := by
  unfold sendWithCapability
  rcases IpcState.sendWithCapability_delivers wakeful.unique sender destination transfer rights
    bytes with ⟨sequence, waiting, receiver, copy, e, ipc, eq, delivers⟩ | ⟨error, ipc, eq, -⟩
  · rw [eq]
    exact finishSendLocked_bears wakeful delivers sequence
  · rw [eq]
    exact .of_task rfl

theorem cancelWait_bears (wakeful : s.Wakeful issued) (requester handle : Nat) :
    Bears (some .cancel) now i s (s.cancelWait requester handle).2 := by
  unfold cancelWait
  dsimp only
  split
  · exact .of_task rfl
  rename_i target ipc _
  unfold cancelIpcWait
  rcases endIpcWait_cases (s := { s with ipc }) wakeful.agrees target .cancelled with
    missed | ⟨k, scheduler, rfl, blocked, woken⟩
  · rw [missed]
    exact .of_task rfl
  · rw [woken]
    dsimp only
    split
    · exact woken_bears (k := k) (c := .cancel) blocked rfl nofun nofun
    · exact woken_bears (k := k) (c := .cancel) blocked rfl nofun nofun

/-- The task that makes the call is not the one in the slot. -/
theorem handle_bears (wakeful : s.Wakeful issued) (other : (s.table.task i).id ≠ s.currentTask)
    (memory : UserMemory) (call : Syscall) (arg0 : Nat) (frame : SyscallFrame) :
    Bears (Move.syscall memory call arg0 frame).cause now i s
      (s.handle memory call arg0 frame).2.2 := by
  cases call with
  | send =>
      change Bears (some .send) now i s (s.syscallIpcSend memory arg0 frame).2.2
      unfold syscallIpcSend
      dsimp only
      split
      · exact .refl s
      split
      · exact .refl s
      rename_i message _
      have sent : Bears (some .send) now i s
          (s.sendCapability s.currentTask arg0 message).2 :=
        sendCapability_bears wakeful s.currentTask arg0 message
      generalize s.sendCapability s.currentTask arg0 message = result at sent
      obtain ⟨outcome, s'⟩ := result
      cases outcome with
      | ok sequence => exact sent
      | error error => exact sent
  | receive => exact receiveCommon_bears wakeful other memory arg0 frame none
  | receiveTimeout => exact receiveCommon_bears wakeful other memory arg0 frame (some frame.rdx)
  | cancel =>
      change Bears (some .cancel) now i s (s.syscallIpcCancel arg0 frame).2.2
      unfold syscallIpcCancel
      dsimp only
      split
      · exact .refl s
      · exact cancelWait_bears wakeful s.currentTask arg0
  | sendCapability =>
      change Bears (some .send) now i s (s.syscallIpcSendCapability memory arg0 frame).2.2
      unfold syscallIpcSendCapability
      dsimp only
      split
      · exact .refl s
      split
      · exact .refl s
      split
      · exact .refl s
      split
      · exact .refl s
      · exact sendWithCapability_bears wakeful s.currentTask arg0 _ _ _
  | revoke =>
      change Bears none now i s (s.syscallIpcRevoke arg0 frame).2.2
      unfold syscallIpcRevoke
      dsimp only
      split
      · exact .refl s
      · exact .of_task rfl

theorem dispatch_bears (wakeful : s.Wakeful issued)
    (other : (s.table.task i).id ≠ s.currentTask) (memory : UserMemory) (call : Syscall)
    (arg0 : Nat) (frame : SyscallFrame) :
    Bears (Move.syscall memory call arg0 frame).cause now i s
      (s.dispatch memory call arg0 frame).2.2 := by
  have handled : Bears (Move.syscall memory call arg0 frame).cause now i s
      (s.handle memory call arg0 frame).2.2 := handle_bears wakeful other memory call arg0 frame
  unfold dispatch
  dsimp only
  split
  · exact handled
  · exact handled

/-! ### The timer -/

theorem expireSlot_bears (agrees : s.Agrees issued) (now : Nat) (k : Fin maxTasks) :
    Bears (some .expiry) now i s (expireSlot now s k) := by
  have after := s.expireSlot_after now k
  generalize expireSlot now s k = s' at after ⊢
  cases after with
  | keep => exact .refl s
  | stuck blocked wakes => exact absurd wakes (agrees.wakeTask_ne blocked)
  | wake blocked _ deadline passed =>
      exact woken_bears (k := k) (c := .expiry) blocked rfl nofun fun _ => ⟨deadline, passed⟩

theorem expireIpcDeadlines_bears (agrees : s.Agrees issued) (now : Nat) :
    Bears (some .expiry) now i s (s.expireIpcDeadlines now) := by
  unfold expireIpcDeadlines
  generalize List.finRange maxTasks = indices
  induction indices generalizing s with
  | nil => exact .refl s
  | cons k indices ih =>
      exact (expireSlot_bears agrees now k).trans (ih (expireSlot_agrees agrees now k)) nofun

/-- The task may be the one that leaves the processor, or the next one. -/
theorem onTimerInterrupt_bears (wakeful : s.Wakeful issued) (context : TimerContext) :
    Bears none now i s (s.onTimerInterrupt context).2.2 := by
  have result := onTimerInterrupt_result (Agree.sound wakeful.agrees) context
  generalize (s.onTimerInterrupt context).2.2 = s' at result
  cases result with
  | idle beside scheduled tasks => exact .of_task (congrFun tasks i)
  | stuck running mem places sound beside tasks unfit =>
      obtain ⟨k, found, -⟩ := wakeful.current running
      exact (wakeful.not_unfit mem fun j target => unfit k j found target).elim
  | @switched waited k j next _ found target other running mem places sound beside tasks valid =>
      obtain ⟨k', found', live, awake⟩ := wakeful.current running
      cases found.symm.trans found'
      obtain ⟨j', target', liveNext, awakeNext⟩ := wakeful.queued mem
      cases target.symm.trans target'
      let left : System := s.modify k Task.preempted
      have tasksLeft : left.table.task = Function.update s.table.task k (s.table.task k).preempted :=
        task_modify s k Task.preempted
      have stays : Bears none now i s left := by
        refine .of_update tasksLeft ?_
        rintro rfl
        exact ⟨rfl, live.symm, Task.wait_of_awake awake nofun rfl rfl rfl⟩
      have nextTask : left.table.task j = s.table.task j := by
        rw [tasksLeft, Function.update_of_ne other]
      refine stays.trans ?_ nofun
      have after : s'.table.task = Function.update left.table.task j
          ((left.table.task j).scheduled left.ticks waited) := by
        rw [tasks, nextTask, tasksLeft]
        rfl
      exact scheduled_bears rfl (nextTask ▸ liveNext) (nextTask ▸ awakeNext) after

theorem timerInterruptHandler_bears (wakeful : s.Wakeful issued) (context : Option TimerContext) :
    Bears (some .expiry) (satAdd s.ticks 1) i s (s.timerInterruptHandler context).2.2 := by
  have ticked := (wakeful_survivesTimer issued).onTimerTick wakeful ((s.ticks + 1) % 2 ^ 64)
  have wakeful' := (wakeful_survivesTimer issued).expireIpcDeadlines ticked (satAdd s.ticks 1)
  have started : Bears (some .expiry) (satAdd s.ticks 1) i s { s with
      ticks := (s.ticks + 1) % 2 ^ 64, scheduler := s.scheduler.onTimerTick } := .of_task rfl
  have expired := started.trans (expireIpcDeadlines_bears ticked.agrees (satAdd s.ticks 1)) nofun
  unfold timerInterruptHandler
  dsimp only
  generalize expireIpcDeadlines _ _ = s' at expired wakeful'
  cases context with
  | none => exact expired
  | some context =>
      dsimp only
      split
      · exact expired
      · exact expired.trans (onTimerInterrupt_bears wakeful' context).quiet nofun

/-! ### Tasks come, run and go -/

/-- A spawn takes the slot of a task that is not alive, for an id that is new. -/
theorem spawnImage_task (s : System) (parentId : Nat) (image : ProcessImage)
    (heapAllocation : Option Nat) :
    (s.spawnImage parentId image heapAllocation).2.table.task = s.table.task ∨
    ∃ k task, (s.spawnImage parentId image heapAllocation).2.table.task =
        Function.update s.table.task k task ∧
      task.id = s.table.nextTaskId ∧ (s.table.task k).live = false := by
  cases heapAllocation with
  | none => exact Or.inl rfl
  | some address =>
      unfold spawnImage installTask
      dsimp only
      have same : (if s.table.initialized then s.table else s.table.init).task = s.table.task ∧
          (if s.table.initialized then s.table else s.table.init).nextTaskId =
            s.table.nextTaskId := by
        split
        · exact ⟨rfl, rfl⟩
        · exact ⟨rfl, rfl⟩
      generalize (if s.table.initialized then s.table else s.table.init) = table at same
      obtain ⟨same, next⟩ := same
      cases found : table.freeSlot with
      | none => exact Or.inl same
      | some k =>
          have vacant := ProcessTable.freeSlot_eq_some found
          dsimp only
          split
          · exact Or.inl same
          · refine Or.inr ⟨k, freshTask table.nextTaskId parentId address image, ?_, next,
              same ▸ vacant⟩
            rw [← same]
            exact (ProcessTable.task_of_slots (t := table) rfl).trans rfl

theorem spawnImage_bears (live : (s.table.task i).live = true) (parentId : Nat)
    (image : ProcessImage) (heapAllocation : Option Nat) :
    Bears none now i s (s.spawnImage parentId image heapAllocation).2 := by
  rcases s.spawnImage_task parentId image heapAllocation with same | ⟨k, task, tasks, -, vacant⟩
  · exact .of_task (congrFun same i)
  · refine .of_update tasks ?_
    rintro rfl
    rw [live] at vacant
    cases vacant

theorem markRunning_bears {id : Nat} {k : Fin maxTasks} (found : s.table.findTask id = some k)
    (ready : (s.table.task k).state = .ready) (syscallsBefore : Nat) :
    Bears none now i s (s.markRunning id syscallsBefore).2 := by
  unfold markRunning
  rw [found]
  refine .of_update (k := k) (ProcessTable.task_of_slots rfl) ?_
  rintro rfl
  refine ⟨rfl, ?_, Task.wait_of_awake (by simp [ready]) nofun rfl rfl rfl⟩
  unfold Task.live
  rw [ready]
  rfl

theorem exit_bears (wakeful : s.Wakeful issued) {id : Nat} (other : (s.table.task i).id ≠ id)
    (exitCode syscallsAfter : Nat) (teardown : Teardown) :
    Bears none now i s ((s.markExited id exitCode syscallsAfter).2.cleanupTask id teardown).2 := by
  cases found : s.table.findTask id with
  | none =>
      unfold markExited cleanupTask
      rw [found]
      dsimp only
      rw [found]
      exact .refl s
  | some k =>
      have elsewhere : i ≠ k := by
        rintro rfl
        exact other (ProcessTable.findTask_eq_some found).2
      obtain ⟨-, -, marked⟩ := s.markExited_slots found exitCode syscallsAfter
      have found' : (s.markExited id exitCode syscallsAfter).2.table.findTask id = some k :=
        (findTask_of_same (fun j => (marked j).1) (fun j => (marked j).2.2.1) id).trans found
      obtain ⟨task, tasks, -⟩ := cleanupTask_update _ found' teardown
      refine .of_task ?_
      rw [tasks, Function.update_of_ne elsewhere,
        markExited_orphan found (wakeful.attuned.fit k).orphan]
      exact s.retire_task k id exitCode syscallsAfter elsewhere

end System

/-- In a move of others a task stays what it is, unless its wait ends. -/
theorem perform_bears {s : System} {issued : Nat} (wakeful : s.Wakeful issued) {move : Move}
    (legal : move.Legal s) {i : Fin maxTasks}
    (live : move.spawns = true → (s.table.task i).live = true)
    (without : move.Without (s.table.task i).id s) :
    Bears move.cause (satAdd s.ticks 1) i s (perform s move) := by
  cases move with
  | spawn image heap =>
      cases image with
      | none => exact .of_task rfl
      | some image => exact System.spawnImage_bears (live rfl) 0 image heap
  | spawnPreempt image executable heap =>
      cases image with
      | none => exact .of_task rfl
      | some image =>
          cases executable with
          | false => exact .of_task rfl
          | true => exact System.spawnImage_bears (live rfl) 0 image heap
  | grant owner target rights => exact .of_task rfl
  | markRunning id syscallsBefore =>
      obtain ⟨-, k, found, ready⟩ := legal
      exact System.markRunning_bears found ready syscallsBefore
  | syscall memory call arg0 frame =>
      exact System.dispatch_bears wakeful (Ne.symm without) memory call arg0 frame
  | timer context => exact System.timerInterruptHandler_bears wakeful context
  | startPreemptionTest => exact .of_task rfl
  | stopPreemptionTest passed => exact .of_task rfl
  | exit id exitCode syscallsAfter teardown =>
      exact System.exit_bears wakeful (Ne.symm without) exitCode syscallsAfter teardown

/-! ### Tasks that are gone -/

/-- No task that is alive has the id. -/
def System.Gone (taskId : Nat) (s : System) : Prop :=
  ∀ i, (s.table.task i).live = true → (s.table.task i).id ≠ taskId

theorem System.Gone.not_current {s : System} {issued taskId : Nat} (wakeful : s.Wakeful issued)
    (gone : s.Gone taskId) (live : taskId ≠ 0) : s.currentTask ≠ taskId := by
  rintro rfl
  obtain ⟨i, found, alive, -⟩ := wakeful.current live
  exact gone i alive (ProcessTable.findTask_eq_some found).2

theorem System.exit_id (s : System) (id exitCode syscallsAfter : Nat) (teardown : Teardown)
    (j : Fin maxTasks) :
    (((s.markExited id exitCode syscallsAfter).2.cleanupTask id teardown).2.table.task j).id =
      (s.table.task j).id := by
  cases found : s.table.findTask id with
  | none =>
      unfold markExited cleanupTask
      rw [found]
      dsimp only
      rw [found]
  | some k => exact (s.cleanupTask_ended found exitCode syscallsAfter teardown).ids j

/-- After exit and cleanup no live task has the id. -/
theorem System.exit_gone {s : System} {issued : Nat} (agrees : s.Agrees issued)
    (id exitCode syscallsAfter : Nat) (teardown : Teardown) :
    ((s.markExited id exitCode syscallsAfter).2.cleanupTask id teardown).2.Gone id := by
  intro j live isId
  cases found : s.table.findTask id with
  | none =>
      unfold markExited cleanupTask at live isId
      rw [found] at live isId
      dsimp only at live isId
      rw [found] at live isId
      exact ProcessTable.findTask_eq_none.mp found j (Task.live_iff.mp live).1 isId
  | some k =>
      have ended := s.cleanupTask_ended found exitCode syscallsAfter teardown
      generalize ((s.markExited id exitCode syscallsAfter).2.cleanupTask id teardown).2 = s' at *
      obtain ⟨occupied, unexited⟩ := Task.live_iff.mp live
      obtain ⟨occupiedK, isIdK⟩ := ProcessTable.findTask_eq_some found
      have same : j = k := Agree.distinct agrees j k (mt (ended.empty j).mpr occupied) occupiedK
        ((ended.ids j).symm.trans (isId.trans isIdK.symm))
      subst same
      exact unexited ended.exited

/-- Whoever is gone does not come back. -/
theorem perform_gone {s : System} {issued taskId : Nat} (wakeful : s.Wakeful issued)
    {move : Move} (legal : move.Legal s) (few : move.spawns = true → issued < maxWord)
    (known : taskId ≠ 0 ∧ taskId ≤ issued) (gone : s.Gone taskId) :
    (perform s move).Gone taskId := by
  intro j live isTask
  have spawned : ∀ image heap, issued < maxWord →
      ((s.spawnImage 0 image heap).2.table.task j).live = true →
      ((s.spawnImage 0 image heap).2.table.task j).id ≠ taskId := by
    intro image heap few live isTask
    rcases s.spawnImage_task 0 image heap with same | ⟨k, task, tasks, id, -⟩
    · rw [same] at live isTask
      exact gone j live isTask
    · rw [tasks] at live isTask
      by_cases here : j = k
      · rw [here, Function.update_self, id, Agree.next wakeful.agrees] at isTask
        omega
      · rw [Function.update_of_ne here] at live isTask
        exact gone j live isTask
  -- where the task in the slot stays what it is, it was there before
  have stayed : ∀ {cause now s'}, Bears cause now j s s' → (s'.table.task j).live = true →
      (s'.table.task j).id ≠ taskId := by
    intro cause now s' bears live isTask
    exact gone j (bears.live.symm.trans live) (bears.id.symm.trans isTask)
  cases move with
  | spawn image heap =>
      cases image with
      | none => exact gone j live isTask
      | some image => exact spawned image heap (few rfl) live isTask
  | spawnPreempt image executable heap =>
      cases image with
      | none => exact gone j live isTask
      | some image =>
          cases executable with
          | false => exact gone j live isTask
          | true => exact spawned image heap (few rfl) live isTask
  | syscall memory call arg0 frame =>
      have stays : Stays s (s.dispatch memory call arg0 frame).2.2 :=
        (System.stays_survivesCalls s).dispatch (.refl s) memory call arg0 frame
      have same : (s.table.task j).id = taskId := (stays.id j).symm.trans isTask
      have other := gone.not_current wakeful known.1
      exact stayed (perform_bears wakeful legal nofun (same.symm ▸ other)) live isTask
  | exit id exitCode syscallsAfter teardown =>
      by_cases same : (s.table.task j).id = id
      · -- the task of the slot is the one that ends
        have gone' := s.exit_gone wakeful.agrees id exitCode syscallsAfter teardown
        exact gone' j live ((s.exit_id id exitCode syscallsAfter teardown j).trans same)
      · exact stayed (perform_bears wakeful legal nofun (Ne.symm same)) live isTask
  | grant => exact stayed (perform_bears wakeful legal nofun trivial) live isTask
  | markRunning => exact stayed (perform_bears wakeful legal nofun trivial) live isTask
  | timer => exact stayed (perform_bears wakeful legal nofun trivial) live isTask
  | startPreemptionTest => exact stayed (perform_bears wakeful legal nofun trivial) live isTask
  | stopPreemptionTest => exact stayed (perform_bears wakeful legal nofun trivial) live isTask

end CloudOS.Process
