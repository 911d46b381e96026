import CloudOS.Ipc.Backlog
import CloudOS.Process.Preservation

/-!
What a run of the kernel does to the message layer is a run of the message layer.

Every part of the kernel reaches the endpoints through the operations of `Ipc.Op`, so
what these preserve holds in every state of the kernel.
-/

namespace CloudOS.Process

open CloudOS.Ipc (IpcState Served)

namespace System

variable {first : IpcState} {s : System}

/-! ### Messages -/

theorem finishSendLocked_served (served : Served first s.ipc) (sequence receiver : Nat)
    (waiting : Bool) : Served first (s.finishSendLocked sequence waiting receiver).2.ipc := by
  have ipc := s.wakeFromIpc_ipc receiver
  unfold finishSendLocked
  cases waiting with
  | false => exact served
  | true =>
      generalize s.wakeFromIpc receiver = result at ipc
      obtain ⟨woken, s'⟩ := result
      have served' : Served first s'.ipc := (show s'.ipc = s.ipc from ipc) ▸ served
      cases woken with
      | true => exact served'.counts rfl
      | false => exact served'.step (.setWaiting receiver true)

theorem send_served (served : Served first s.ipc) (sender receiver : Nat) (bytes : List UInt8) :
    Served first (s.send sender receiver bytes).2.ipc := by
  have sent : Served first (s.ipc.send sender receiver bytes).2 :=
    served.step (.send sender receiver bytes)
  unfold send
  generalize s.ipc.send sender receiver bytes = result at sent
  obtain ⟨outcome, ipc⟩ := result
  cases outcome with
  | error error => exact sent
  | ok pair => exact finishSendLocked_served sent ..

theorem sendCapability_served (served : Served first s.ipc) (sender handle : Nat)
    (bytes : List UInt8) : Served first (s.sendCapability sender handle bytes).2.ipc := by
  have sent : Served first (s.ipc.sendCapability sender handle bytes).2 :=
    served.step (.sendCapability sender handle bytes)
  unfold sendCapability
  generalize s.ipc.sendCapability sender handle bytes = result at sent
  obtain ⟨outcome, ipc⟩ := result
  cases outcome with
  | error error => exact sent
  | ok triple => exact finishSendLocked_served sent ..

theorem sendWithCapability_served (served : Served first s.ipc)
    (sender destination transfer : Nat) (rights : Ipc.CapabilityRights) (bytes : List UInt8) :
    Served first (s.sendWithCapability sender destination transfer rights bytes).2.ipc := by
  have sent : Served first (s.ipc.sendWithCapability sender destination transfer rights bytes).2 :=
    served.step (.sendWithCapability sender destination transfer rights bytes)
  unfold sendWithCapability
  generalize s.ipc.sendWithCapability sender destination transfer rights bytes = result at sent
  obtain ⟨outcome, ipc⟩ := result
  cases outcome with
  | error error => exact sent
  | ok sent' => exact finishSendLocked_served sent ..

theorem receive_served (served : Served first s.ipc) (receiver : Nat) (output : List UInt8)
    (blockWhenEmpty : Bool) : Served first (s.receive receiver output blockWhenEmpty).2.1.ipc := by
  have received : Served first (s.ipc.receive receiver output).2.1 :=
    served.step (.receive receiver output)
  unfold receive
  generalize s.ipc.receive receiver output = result at received
  obtain ⟨outcome, ipc, output'⟩ := result
  cases outcome with
  | ok delivery => exact received
  | error error =>
      dsimp only at received ⊢
      split
      · have waits : Served first (ipc.setWaiting receiver true).2 :=
          received.step (.setWaiting receiver true)
        generalize ipc.setWaiting receiver true = result at waits
        obtain ⟨outcome, ipc'⟩ := result
        cases outcome with
        | error error => exact waits
        | ok done =>
            dsimp only
            have same := blockForIpc_ipc { s with ipc := ipc' } receiver
            generalize blockForIpc { s with ipc := ipc' } receiver = result at same
            obtain ⟨blocked, s'⟩ := result
            have served' : Served first s'.ipc := (show s'.ipc = ipc' from same) ▸ waits
            cases blocked with
            | false => exact served'.step (.setWaiting receiver false)
            | true => exact served'.counts rfl
      · exact received

theorem blockSyscall_served (served : Served first s.ipc) (receiver : Nat) (frame : SyscallFrame)
    (deadlineTick : Nat) : Served first (s.blockSyscall receiver frame deadlineTick).2.2.ipc := by
  have asked := served.canReceive receiver
  unfold blockSyscall
  generalize s.ipc.canReceive receiver = result at asked
  obtain ⟨outcome, ipc⟩ := result
  cases outcome with
  | error error => exact asked
  | ok done =>
      dsimp only at asked ⊢
      split
      · exact asked
      · exact asked
      · have waits : Served first (ipc.setWaiting receiver true).2 :=
          asked.step (.setWaiting receiver true)
        generalize ipc.setWaiting receiver true = result at waits
        obtain ⟨outcome, ipc'⟩ := result
        cases outcome with
        | error error => exact waits
        | ok done =>
            dsimp only
            have same := blockForIpcSyscall_ipc { s with ipc := ipc' } receiver frame deadlineTick
            generalize blockForIpcSyscall { s with ipc := ipc' } receiver frame deadlineTick =
              result at same
            obtain ⟨root, frame', s'⟩ := result
            have served' : Served first s'.ipc := (show s'.ipc = ipc' from same) ▸ waits
            cases root with
            | none => exact served'.step (.setWaiting receiver false)
            | some root => exact served'.counts rfl

theorem cancelWait_served (served : Served first s.ipc) (requester handle : Nat) :
    Served first (s.cancelWait requester handle).2.ipc := by
  unfold cancelWait
  dsimp only
  generalize counted : ({ s.ipc with counters := _ } : IpcState) = counting
  have resolved : Served first (counting.resolve requester handle Ipc.CapabilityRights.cancel).2 := by
    have counts : Served first counting := served.counts (by rw [← counted]; rfl)
    exact counts.step (.resolve requester handle _)
  generalize counting.resolve requester handle _ = permission at resolved
  obtain ⟨outcome, ipc⟩ := permission
  cases outcome with
  | error error => exact resolved
  | ok target =>
      dsimp only
      have same := cancelIpcWait_ipc { s with ipc } target
      generalize cancelIpcWait { s with ipc } target = result at same
      obtain ⟨succeeded, s'⟩ := result
      have served' : Served first s'.ipc := (show s'.ipc = ipc from same) ▸ resolved
      cases succeeded with
      | false => exact served'
      | true =>
          have idle : Served first (s'.ipc.setWaiting target false).2 :=
            served'.step (.setWaiting target false)
          dsimp only
          generalize s'.ipc.setWaiting target false = result at idle
          obtain ⟨outcome, ipc'⟩ := result
          cases outcome with
          | error error => exact idle
          | ok done => exact idle.counts rfl

theorem served_survivesCalls (first : IpcState) : SurvivesCalls fun s => Served first s.ipc where
  takeIpcWakeReason := fun served taskId => by
    rw [takeIpcWakeReason_ipc]
    exact served
  receive := fun served receiver output => receive_served served receiver output false
  completeIpcRestart := fun served taskId => by
    rw [completeIpcRestart_ipc]
    exact served
  blockSyscall := fun served _ => blockSyscall_served served _
  sendCapability := sendCapability_served
  sendWithCapability := sendWithCapability_served
  cancelWait := cancelWait_served
  revoke := fun served owner handle => served.step (.revoke owner handle)

/-! ### The timer, and tasks that come and go -/

theorem expireSlot_served (served : Served first s.ipc) (now : Nat) (i : Fin maxTasks) :
    Served first (expireSlot now s i).ipc := by
  unfold expireSlot
  dsimp only
  split
  · exact served
  split
  · exact served
  · exact served.step (.setWaiting (s.table.task i).id false)

theorem served_survivesTimer (first : IpcState) : SurvivesTimer fun s => Served first s.ipc where
  onTimerTick := fun served _ => served
  expireSlot := expireSlot_served
  onTimerInterrupt := fun served context => by
    rw [onTimerInterrupt_ipc]
    exact served

theorem spawnImage_served (served : Served first s.ipc) (parentId : Nat) (image : ProcessImage)
    (heapAllocation : Option Nat) :
    Served first (s.spawnImage parentId image heapAllocation).2.ipc := by
  cases heapAllocation with
  | none => exact served
  | some address =>
      change Served first (s.installTask parentId address image).2.ipc
      unfold installTask
      dsimp only
      generalize (if s.table.initialized then s.table else s.table.init) = table
      split
      · exact served
      have registered : Served first (s.ipc.register table.nextTaskId).2 :=
        served.step (.register table.nextTaskId)
      generalize s.ipc.register table.nextTaskId = result at registered
      obtain ⟨outcome, ipc⟩ := result
      cases outcome with
      | error error => exact registered
      | ok done => exact registered

theorem spawnElfChild_served (served : Served first s.ipc) (parentId : Nat)
    (image : Option ProcessImage) (heapAllocation : Option Nat) :
    Served first (s.spawnElfChild parentId image heapAllocation).2.ipc := by
  unfold spawnElfChild
  split
  · exact served
  · cases image with
    | none => exact served
    | some image => exact spawnImage_served served parentId image heapAllocation

theorem spawnPreemptTask_served (served : Served first s.ipc) (image : Option ProcessImage)
    (executable : Bool) (heapAllocation : Option Nat) :
    Served first (s.spawnPreemptTask image executable heapAllocation).2.ipc := by
  unfold spawnPreemptTask
  cases image with
  | none => exact served
  | some image =>
      dsimp only
      split
      · exact served
      · exact spawnImage_served served 0 image heapAllocation

theorem cleanupTask_served (served : Served first s.ipc) (id : Nat) (teardown : Teardown) :
    Served first (s.cleanupTask id teardown).2.ipc := by
  unfold cleanupTask
  split
  · exact served
  split
  · exact served
  have removed : Served first (s.ipc.unregister id).2 := served.step (.unregister id)
  generalize s.ipc.unregister id = result at removed
  obtain ⟨outcome, ipc⟩ := result
  cases outcome with
  | error error => exact removed
  | ok dropped => exact removed

end System

/-- Every operation of the process table serves the endpoints by allowed operations. -/
theorem step_served {first : IpcState} {s : System} (served : Served first s.ipc) (op : Op) :
    Served first (step s op).ipc := by
  cases op with
  | spawnElfChild parentId image heap =>
      exact System.spawnElfChild_served served parentId image heap
  | spawnPreemptTask image executable heap =>
      exact System.spawnPreemptTask_served served image executable heap
  | spawnLegacy entryPoint stackTop heap => exact System.spawnImage_served served 0 _ heap
  | grant owner target rights => exact served.step (.grant owner target rights)
  | markRunning id syscallsBefore =>
      rw [step, System.markRunning_ipc]
      exact served
  | markExited id exitCode syscallsAfter =>
      rw [step, System.markExited_ipc]
      exact served
  | cleanupTask id teardown => exact System.cleanupTask_served served id teardown
  | waitChild parentId childId =>
      rw [step, System.waitChild_ipc]
      exact served
  | send sender receiver bytes => exact System.send_served served sender receiver bytes
  | receive receiver output blockWhenEmpty =>
      exact System.receive_served served receiver output blockWhenEmpty
  | syscall memory call arg0 frame =>
      exact (System.served_survivesCalls first).dispatch served memory call arg0 frame
  | startPreemptionTest => exact served
  | stopPreemptionTest passed => exact served
  | timer context =>
      exact (System.served_survivesTimer first).timerInterruptHandler served context

theorem run_served {first : IpcState} {s : System} (served : Served first s.ipc) (ops : List Op) :
    Served first (run s ops).ipc := by
  induction ops generalizing s with
  | nil => exact served
  | cons op ops ih => exact ih (step_served served op)

/-- In every state of the kernel the rings hold their queues. -/
theorem run_bounded (ops : List Op) : (run .boot ops).ipc.Bounded :=
  IpcState.initial_bounded.served (run_served (s := .boot) .refl ops)

end CloudOS.Process
