import CloudOS.Ipc.Traffic
import CloudOS.Process.FailedSend
import CloudOS.Process.Handover
import CloudOS.Process.LostWakeup

/-!
The message layer during a run without parents.

Each move changes the message layer by its own operations only, and never by an
operation of a task that makes no system call in the move. So the invariants of
the endpoint table hold in every state of such a run.
-/

namespace CloudOS.Process

open CloudOS.Ipc (IpcState Traffic maxEndpoints)

namespace System

variable {s : System} {issued : Nat} {allowed : Ipc.Op → Prop}

/-! ### System calls -/

/-- Without a lost wake-up, the end of a send only counts. -/
theorem finishSendLocked_core {sequence receiver : Nat} {waiting : Bool}
    (woke : (s.finishSendLocked sequence waiting receiver).1 ≠ .error .wakeFailed) :
    (s.finishSendLocked sequence waiting receiver).2.ipc.core = s.ipc.core := by
  have ipc := s.wakeFromIpc_ipc receiver
  unfold finishSendLocked at woke ⊢
  cases waiting with
  | false => rfl
  | true =>
      generalize s.wakeFromIpc receiver = result at ipc woke
      obtain ⟨woken, s'⟩ := result
      have same : s'.ipc.core = s.ipc.core := congrArg IpcState.core ipc
      cases woken with
      | false => exact absurd rfl woke
      | true => exact same

theorem sendCapability_traffic (wakeful : s.Wakeful issued) {sender handle : Nat}
    {bytes : List UInt8} (allows : allowed (.sendCapability sender handle bytes)) :
    Traffic allowed s.ipc (s.sendCapability sender handle bytes).2.ipc := by
  have woke := (sendCapability_wakeful wakeful sender handle bytes).1
  have traffic : Traffic allowed s.ipc (s.ipc.sendCapability sender handle bytes).2 :=
    Traffic.refl.next (.sendCapability sender handle bytes) trivial allows
  unfold sendCapability at woke ⊢
  generalize s.ipc.sendCapability sender handle bytes = result at woke traffic
  obtain ⟨outcome, ipc⟩ := result
  cases outcome with
  | error error => exact traffic
  | ok sent => exact traffic.counts (finishSendLocked_core woke)

theorem sendWithCapability_traffic (wakeful : s.Wakeful issued)
    {sender destination transfer : Nat} {rights : Ipc.CapabilityRights} {bytes : List UInt8}
    (allows : allowed (.sendWithCapability sender destination transfer rights bytes)) :
    Traffic allowed s.ipc
      (s.sendWithCapability sender destination transfer rights bytes).2.ipc := by
  have woke := (sendWithCapability_wakeful wakeful sender destination transfer rights bytes).1
  have traffic : Traffic allowed s.ipc
      (s.ipc.sendWithCapability sender destination transfer rights bytes).2 :=
    Traffic.refl.next (.sendWithCapability sender destination transfer rights bytes) trivial allows
  unfold sendWithCapability at woke ⊢
  generalize s.ipc.sendWithCapability sender destination transfer rights bytes = result
    at woke traffic
  obtain ⟨outcome, ipc⟩ := result
  cases outcome with
  | error error => exact traffic
  | ok sent => exact traffic.counts (finishSendLocked_core woke)

theorem blockSyscall_traffic (intact : s.ipc.Intact) {receiver : Nat} (live : receiver ≠ 0)
    {i : Fin maxEndpoints} (found : s.ipc.find receiver = some i)
    (allows : ∀ waiting, allowed (.setWaiting receiver waiting)) (frame : SyscallFrame)
    (deadlineTick : Nat) :
    Traffic allowed s.ipc (s.blockSyscall receiver frame deadlineTick).2.2.ipc := by
  have guarded : ∀ {t : IpcState} {waiting}, (Ipc.Op.setWaiting receiver waiting).Guarded t :=
    fun zero => absurd zero live
  unfold blockSyscall
  rw [intact.canReceive live found]
  dsimp only
  split
  · exact .refl
  · exact .refl
  have waits : Traffic allowed s.ipc (s.ipc.setWaiting receiver true).2 :=
    Traffic.refl.next (.setWaiting receiver true) guarded (allows true)
  generalize s.ipc.setWaiting receiver true = result at waits
  obtain ⟨outcome, ipc⟩ := result
  cases outcome with
  | error error => exact waits
  | ok _ =>
      dsimp only
      have same := blockForIpcSyscall_ipc { s with ipc } receiver frame deadlineTick
      generalize blockForIpcSyscall { s with ipc } receiver frame deadlineTick = blocking at same
      obtain ⟨root, frame', s'⟩ := blocking
      cases root with
      | none =>
          have blocked : Traffic allowed s.ipc s'.ipc := waits.counts (congrArg IpcState.core same)
          exact blocked.next (.setWaiting receiver false) guarded (allows false)
      | some root =>
          have blocked : s'.ipc.core = ipc.core := congrArg IpcState.core same
          exact waits.counts blocked

theorem cancelWait_traffic (wakeful : s.Wakeful issued) {requester handle : Nat}
    (resolves : allowed (.resolve requester handle Ipc.CapabilityRights.cancel))
    (allows : ∀ target, allowed (.setWaiting target false)) :
    Traffic allowed s.ipc (s.cancelWait requester handle).2.ipc := by
  unfold cancelWait
  dsimp only
  generalize counted : ({ s.ipc with counters := _ } : IpcState) = counting
  have traffic : Traffic allowed s.ipc
      (counting.resolve requester handle Ipc.CapabilityRights.cancel).2 := by
    have counts : Traffic allowed s.ipc counting := .of_core (by rw [← counted]; rfl)
    exact counts.next (.resolve requester handle _) trivial resolves
  generalize counting.resolve requester handle _ = permission at traffic
  obtain ⟨outcome, ipc⟩ := permission
  cases outcome with
  | error error => exact traffic
  | ok target =>
      dsimp only
      unfold cancelIpcWait
      rcases endIpcWait_cases (s := { s with ipc }) wakeful.agrees target .cancelled with
        missed | ⟨i, scheduler, rfl, blocked, woken⟩
      · rw [missed]
        exact traffic
      · have live : (s.table.task i).id ≠ 0 :=
          wakeful.named.nonzero i (live_of_blocked blocked)
        rw [woken]
        dsimp only [modify]
        have idle : Traffic allowed s.ipc (ipc.setWaiting (s.table.task i).id false).2 :=
          traffic.next (.setWaiting _ false) (fun zero => absurd zero live) (allows _)
        generalize ipc.setWaiting (s.table.task i).id false = result at idle
        obtain ⟨outcome, ipc'⟩ := result
        cases outcome with
        | error error => exact idle
        | ok _ => exact idle.counts rfl

/-! ### The handlers -/

variable {taskId : Nat}

/-- Receiving concerns the current task only. -/
theorem receiveCommon_traffic (wakeful : s.Wakeful issued) (intact : s.ipc.Intact)
    (other : s.currentTask ≠ taskId) (memory : UserMemory) (buffer : Nat) (frame : SyscallFrame)
    (timeoutTicks : Option Nat) :
    Traffic (Ipc.Op.Spares taskId) s.ipc
      (s.receiveCommon memory buffer frame timeoutTicks).2.2.ipc := by
  have taken : Traffic (Ipc.Op.Spares taskId) s.ipc s.taken.ipc := by
    rw [taken_ipc]
    exact .refl
  have received : Traffic (Ipc.Op.Spares taskId) s.ipc
      (s.taken.ipc.receive s.currentTask (messageBuffer frame)).2.1 :=
    taken.next (.receive s.currentTask (messageBuffer frame)) trivial other
  have blocked : s.currentTask ≠ 0 → ∀ deadlineTick, Traffic (Ipc.Op.Spares taskId) s.ipc
      (s.taken.blockSyscall s.currentTask frame deadlineTick).2.2.ipc := by
    intro running deadlineTick
    have wakeful' : s.taken.Wakeful issued := takeIpcWakeReason_wakeful wakeful s.currentTask
    have running' : s.taken.currentTask ≠ 0 := s.taken_currentTask ▸ running
    obtain ⟨j, found, live, -⟩ := wakeful'.current running'
    obtain ⟨e, mailbox, -⟩ := wakeful'.mailbox live
    have caller : (s.taken.table.task j).id = s.currentTask :=
      (ProcessTable.findTask_eq_some found).2.trans s.taken_currentTask
    rw [caller] at mailbox
    exact taken.trans (blockSyscall_traffic (taken.intact intact) running mailbox
      (fun _ => trivial) frame deadlineTick)
  have exit := s.receiveCommon_exit memory buffer frame timeoutTicks
  generalize s.receiveCommon memory buffer frame timeoutTicks = result at exit ⊢
  obtain ⟨outcome, frame', s'⟩ := result
  dsimp only at exit ⊢
  cases exit with
  | noTask | invalid => exact .refl
  | ended | polled => exact taken
  | uncopied _ _ eq | failed _ _ eq =>
      rw [eq] at received
      exact received
  | delivered _ _ eq =>
      rw [eq] at received
      rw [completeIpcRestart_ipc]
      exact received
  | refused admitted _ _ _ blocks | switched admitted _ _ _ blocks =>
      have after := blocked admitted.running (deadlineTick s.taken.ticks timeoutTicks)
      rw [blocks] at after
      exact after

theorem handle_traffic (wakeful : s.Wakeful issued) (intact : s.ipc.Intact)
    (memory : UserMemory) {call : Syscall} (other : call.receives = true → s.currentTask ≠ taskId)
    (arg0 : Nat) (frame : SyscallFrame) :
    Traffic (Ipc.Op.Spares taskId) s.ipc (s.handle memory call arg0 frame).2.2.ipc := by
  cases call with
  | send =>
      change Traffic _ s.ipc (s.syscallIpcSend memory arg0 frame).2.2.ipc
      unfold syscallIpcSend
      dsimp only
      split
      · exact .refl
      split
      · exact .refl
      rename_i message _
      have sent : Traffic (Ipc.Op.Spares taskId) s.ipc
          (s.sendCapability s.currentTask arg0 message).2.ipc :=
        sendCapability_traffic wakeful trivial
      generalize s.sendCapability s.currentTask arg0 message = result at sent
      obtain ⟨outcome, s'⟩ := result
      cases outcome with
      | ok sequence => exact sent
      | error error => exact sent
  | receive => exact receiveCommon_traffic wakeful intact (other rfl) memory arg0 frame none
  | receiveTimeout =>
      exact receiveCommon_traffic wakeful intact (other rfl) memory arg0 frame (some frame.rdx)
  | cancel =>
      change Traffic _ s.ipc (s.syscallIpcCancel arg0 frame).2.2.ipc
      unfold syscallIpcCancel
      dsimp only
      split
      · exact .refl
      · exact cancelWait_traffic wakeful trivial fun _ => trivial
  | sendCapability =>
      change Traffic _ s.ipc (s.syscallIpcSendCapability memory arg0 frame).2.2.ipc
      unfold syscallIpcSendCapability
      dsimp only
      split
      · exact .refl
      split
      · exact .refl
      split
      · exact .refl
      split
      · exact .refl
      · exact sendWithCapability_traffic wakeful trivial
  | revoke =>
      change Traffic _ s.ipc (s.syscallIpcRevoke arg0 frame).2.2.ipc
      unfold syscallIpcRevoke
      dsimp only
      split
      · exact .refl
      · exact Traffic.refl.next (.revoke s.currentTask arg0) trivial trivial

theorem dispatch_traffic (wakeful : s.Wakeful issued) (intact : s.ipc.Intact)
    (memory : UserMemory) {call : Syscall} (other : call.receives = true → s.currentTask ≠ taskId)
    (arg0 : Nat) (frame : SyscallFrame) :
    Traffic (Ipc.Op.Spares taskId) s.ipc (s.dispatch memory call arg0 frame).2.2.ipc := by
  have handled := handle_traffic wakeful intact memory other arg0 frame
  unfold dispatch
  dsimp only
  split
  · exact handled
  · exact handled

/-! ### The timer -/

theorem expireSlot_traffic (wakeful : s.Wakeful issued)
    (allows : ∀ target, allowed (.setWaiting target false)) (now : Nat) (i : Fin maxTasks) :
    Traffic allowed s.ipc (expireSlot now s i).ipc := by
  have after := s.expireSlot_after now i
  generalize expireSlot now s i = s' at after ⊢
  cases after with
  | keep => exact .refl
  | stuck => exact .refl
  | wake blocked =>
      have live := wakeful.named.nonzero i (live_of_blocked blocked)
      exact Traffic.refl.next (.setWaiting (s.table.task i).id false)
        (fun zero => absurd zero live) (allows _)

theorem expireIpcDeadlines_traffic (wakeful : s.Wakeful issued)
    (allows : ∀ target, allowed (.setWaiting target false)) (now : Nat) :
    Traffic allowed s.ipc (s.expireIpcDeadlines now).ipc := by
  unfold expireIpcDeadlines
  generalize List.finRange maxTasks = indices
  induction indices generalizing s with
  | nil => exact .refl
  | cons i indices ih =>
      exact (expireSlot_traffic wakeful allows now i).trans
        (ih (expireSlot_wakeful wakeful now i))

theorem timerInterruptHandler_traffic (wakeful : s.Wakeful issued)
    (allows : ∀ target, allowed (.setWaiting target false)) (context : Option TimerContext) :
    Traffic allowed s.ipc (s.timerInterruptHandler context).2.2.ipc := by
  have ticked := (wakeful_survivesTimer issued).onTimerTick wakeful ((s.ticks + 1) % 2 ^ 64)
  have expired := expireIpcDeadlines_traffic ticked allows (Lib.Word.satAdd s.ticks 1)
  unfold timerInterruptHandler
  dsimp only
  generalize expireIpcDeadlines _ _ = s' at expired
  cases context with
  | none => exact expired
  | some context =>
      dsimp only
      split
      · exact expired
      · rw [onTimerInterrupt_ipc]
        exact expired

/-! ### Tasks come, run and go -/

theorem installTask_traffic (allows : ∀ id, allowed (.register id)) (parentId address : Nat)
    (image : ProcessImage) :
    Traffic allowed s.ipc (s.installTask parentId address image).2.ipc := by
  unfold installTask
  dsimp only
  generalize (if s.table.initialized then s.table else s.table.init) = table
  split
  · exact .refl
  have registered : Traffic allowed s.ipc (s.ipc.register table.nextTaskId).2 :=
    Traffic.refl.next (.register table.nextTaskId) trivial (allows _)
  generalize s.ipc.register table.nextTaskId = result at registered
  obtain ⟨outcome, ipc⟩ := result
  cases outcome with
  | error error => exact registered
  | ok _ => exact registered

theorem spawnImage_traffic (allows : ∀ id, allowed (.register id)) (parentId : Nat)
    (image : ProcessImage) (heapAllocation : Option Nat) :
    Traffic allowed s.ipc (s.spawnImage parentId image heapAllocation).2.ipc := by
  cases heapAllocation with
  | none => exact .refl
  | some address => exact installTask_traffic allows parentId address image

theorem cleanupTask_traffic {id : Nat} (live : id ≠ 0) (allows : allowed (.unregister id))
    (teardown : Teardown) : Traffic allowed s.ipc (s.cleanupTask id teardown).2.ipc := by
  unfold cleanupTask
  split
  · exact .refl
  split
  · exact .refl
  have removed : Traffic allowed s.ipc (s.ipc.unregister id).2 :=
    Traffic.refl.next (.unregister id) (fun zero => absurd zero live) allows
  generalize s.ipc.unregister id = result at removed
  obtain ⟨outcome, ipc⟩ := result
  cases outcome with
  | error error => exact removed
  | ok dropped => exact removed

end System

/-! ### Moves -/

/-- The task makes no system call in the move and is not ended by it. -/
def Move.Without (taskId : Nat) (s : System) : Move → Prop
  | syscall .. => s.currentTask ≠ taskId
  | exit id .. => id ≠ taskId
  | _ => True

/-- The task receives nothing in the move and is not ended by it. -/
def Move.Spares (taskId : Nat) (s : System) : Move → Prop
  | syscall _ call _ _ => call.receives = true → s.currentTask ≠ taskId
  | exit id .. => id ≠ taskId
  | _ => True

theorem Move.Without.spares {taskId : Nat} {s : System} {move : Move}
    (without : move.Without taskId s) : move.Spares taskId s := by
  cases move with
  | syscall => exact fun _ => without
  | exit => exact without
  | _ => trivial

/-- Grants are for tasks. -/
def Move.Named : Move → Prop
  | grant owner target _ => owner ≠ 0 ∧ target ≠ 0
  | _ => True

/-- Every move changes the IPC state by allowed operations only. -/
theorem perform_traffic {s : System} {issued taskId : Nat} (wakeful : s.Wakeful issued)
    (intact : s.ipc.Intact) {move : Move} (named : move.Named) (spares : move.Spares taskId s) :
    Traffic (Ipc.Op.Spares taskId) s.ipc (perform s move).ipc := by
  cases move with
  | spawn image heap =>
      cases image with
      | none => exact .refl
      | some image => exact System.spawnImage_traffic (fun _ => trivial) 0 image heap
  | spawnPreempt image executable heap =>
      cases image with
      | none => exact .refl
      | some image =>
          cases executable with
          | false => exact .refl
          | true => exact System.spawnImage_traffic (fun _ => trivial) 0 image heap
  | grant owner target rights =>
      refine Traffic.refl.next (.grant owner target rights) (fun zero => ?_) trivial
      exact (zero.elim named.1 named.2).elim
  | markRunning id syscallsBefore =>
      exact .of_core (congrArg IpcState.core (s.markRunning_ipc id syscallsBefore))
  | syscall memory call arg0 frame =>
      exact System.dispatch_traffic wakeful intact memory spares arg0 frame
  | timer context => exact System.timerInterruptHandler_traffic wakeful (fun _ => trivial) context
  | startPreemptionTest => exact .refl
  | stopPreemptionTest passed => exact .refl
  | exit id exitCode syscallsAfter teardown =>
      change Traffic _ s.ipc
        ((s.markExited id exitCode syscallsAfter).2.cleanupTask id teardown).2.ipc
      have exited := s.markExited_ipc id exitCode syscallsAfter
      cases found : s.table.findTask id with
      | none =>
          unfold System.markExited System.cleanupTask
          rw [found]
          dsimp only
          rw [found]
          exact .refl
      | some i =>
          obtain ⟨occupied, isId⟩ := ProcessTable.findTask_eq_some found
          have live : id ≠ 0 := by
            have := (Agree.ids wakeful.agrees i occupied).1
            omega
          have spares : Ipc.Op.Spares taskId (.unregister id) := spares
          rw [← exited]
          exact System.cleanupTask_traffic live spares teardown

/-- The invariants of the endpoint table survive every move. -/
theorem perform_intact {s : System} {issued : Nat} (wakeful : s.Wakeful issued)
    (intact : s.ipc.Intact) {move : Move} (named : move.Named) : (perform s move).ipc.Intact := by
  -- some task takes no part in the move
  obtain ⟨taskId, without⟩ : ∃ taskId, move.Without taskId s := by
    cases move with
    | syscall => exact ⟨s.currentTask + 1, Nat.ne_of_lt (Nat.lt_succ_self _)⟩
    | exit id => exact ⟨id + 1, Nat.ne_of_lt (Nat.lt_succ_self _)⟩
    | _ => exact ⟨0, trivial⟩
  exact (perform_traffic wakeful intact named without.spares).intact intact

end CloudOS.Process
