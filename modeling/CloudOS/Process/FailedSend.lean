import CloudOS.Ipc.NoTask
import CloudOS.Process.ParentWake

/-!
What a send leaves behind when it reports failure.

The public sends commit the message first and wake the receiver afterwards. If
the wakeup is refused, the call returns an error with the message in the queue.
Whether that can happen is decided by the process table and the scheduler:
`Wakes` says what `wake_from_ipc` asks of them.
-/

namespace CloudOS

namespace Scheduler

variable {s : Scheduler} {id : Nat}

/-- The scheduler has the task ready, or can make it so. -/
def CanWake (s : Scheduler) (id : Nat) : Prop :=
  id ≠ 0 ∧ (s.currentTask = id ∨ id ∈ s.queued ∨ (id ∈ s.blockedTasks ∧ s.len < queueCapacity))

theorem removeBlocked_frame (s : Scheduler) (id : Nat) :
    (s.removeBlocked id).2.queued = s.queued ∧
      (s.removeBlocked id).2.currentTask = s.currentTask ∧ (s.removeBlocked id).2.len = s.len := by
  unfold removeBlocked
  split
  · exact ⟨rfl, rfl, rfl⟩
  · exact ⟨rfl, rfl, rfl⟩

theorem removeBlocked_found (s : Scheduler) (id : Nat) :
    (s.removeBlocked id).1 = true ↔ id ∈ s.blockedTasks := by
  unfold removeBlocked
  cases found : s.blockedTasks.idxOf? id with
  | none => exact iff_of_false Bool.false_ne_true (List.idxOf?_eq_none_iff.mp found)
  | some index =>
      obtain ⟨inside, here, -⟩ := List.idxOf?_eq_some_iff.mp found
      exact iff_of_true rfl (here ▸ List.getElem_mem inside)

/-- When the scheduler can wake a task. -/
theorem wakeTask_iff (s : Scheduler) (id : Nat) : (s.wakeTask id).1 = true ↔ s.CanWake id := by
  unfold wakeTask CanWake
  split
  · rename_i zero
    exact iff_of_false Bool.false_ne_true fun can => can.1 zero
  rename_i nonzero
  split
  · rename_i ready
    simp only [contains, Bool.or_eq_true, beq_iff_eq, List.contains_iff_mem] at ready
    refine iff_of_true rfl ⟨nonzero, ?_⟩
    rcases ready with current | queued
    · exact Or.inl current
    · exact Or.inr (Or.inl queued)
  rename_i idle
  have asleep : ¬ s.currentTask = id ∧ id ∉ s.queued := by
    simpa [contains, not_or] using idle
  obtain ⟨queued, current, len⟩ := s.removeBlocked_frame id
  have found := s.removeBlocked_found id
  rw [or_iff_right asleep.1, or_iff_right asleep.2, and_iff_right nonzero, ← found]
  cases result : s.removeBlocked id with
  | mk removed s' =>
      rw [result] at queued current len
      cases removed with
      | false => exact iff_of_false Bool.false_ne_true fun both => Bool.false_ne_true both.1
      | true =>
          dsimp only at queued current len ⊢
          unfold enqueueAt
          rw [if_neg nonzero, if_neg (by simp [contains, queued, current, asleep])]
          by_cases full : s'.len ≥ queueCapacity
          · rw [if_pos full]
            exact iff_of_false Bool.false_ne_true fun both => absurd both.2 (by omega)
          · rw [if_neg full]
            exact iff_of_true rfl ⟨rfl, by omega⟩

end Scheduler

namespace Process

open CloudOS.Ipc (IpcState IpcError CapabilityRights Dangles Resolves CountsRefusal Endpoints
  TransferChecks Capability maxCapabilitiesPerEndpoint maxEndpoints maxMessageBytes)

/-- Every queue, every capability table and the next sequence number are the
same. -/
def DeliversNothing (s s' : IpcState) : Prop :=
  (∀ i, (s'.endpoints i).queue = (s.endpoints i).queue ∧
    (s'.endpoints i).head = (s.endpoints i).head ∧ (s'.endpoints i).len = (s.endpoints i).len ∧
    (s'.endpoints i).capabilities = (s.endpoints i).capabilities) ∧
  s'.nextSequence = s.nextSequence

theorem DeliversNothing.of_counts {s s' : IpcState} (counts : CountsRefusal s s') :
    DeliversNothing s s' :=
  ⟨fun i => by rw [counts.endpoints]; exact ⟨rfl, rfl, rfl, rfl⟩, counts.nextSequence⟩

theorem DeliversNothing.activeCount {s s' : IpcState} (nothing : DeliversNothing s s') :
    s'.endpoints.activeCount = s.endpoints.activeCount := by
  have same : s'.endpoints.capability = s.endpoints.capability :=
    funext fun p => congrFun (nothing.1 p.1).2.2.2 p.2
  unfold Endpoints.activeCount Endpoints.activePositions
  rw [same]

namespace System

variable {s : System}

/-- What `wake_from_ipc` asks: the task waits for a message and can be woken. -/
def Wakes (s : System) (id : Nat) : Prop :=
  (∃ i, s.table.findTask id = some i ∧ (s.table.task i).state = .blocked ∧
    (s.table.task i).ipcWaiting = true) ∧ s.scheduler.CanWake id

/-- When the process table can wake a task. -/
theorem wakeFromIpc_iff (s : System) (id : Nat) : (s.wakeFromIpc id).1 = true ↔ s.Wakes id := by
  unfold wakeFromIpc endIpcWait Wakes
  cases found : s.table.findTask id with
  | none =>
      refine iff_of_false Bool.false_ne_true fun wakes => ?_
      obtain ⟨i, here, -⟩ := wakes.1
      cases here
  | some i =>
      dsimp only
      split
      · rename_i other
        simp only [Bool.or_eq_true, bne_iff_ne, Bool.not_eq_true'] at other
        refine iff_of_false Bool.false_ne_true fun wakes => ?_
        obtain ⟨j, here, blocked, waiting⟩ := wakes.1
        cases here
        rcases other with awake | idle
        · exact awake blocked
        · rw [waiting] at idle
          cases idle
      · rename_i receiving
        simp only [Bool.or_eq_true, bne_iff_ne, Bool.not_eq_true', not_or, ne_eq, not_not,
          Bool.not_eq_false] at receiving
        rw [and_iff_right ⟨i, rfl, receiving⟩, ← s.scheduler.wakeTask_iff id]
        split
        · rename_i failed
          rw [failed]
        · rename_i woken
          rw [woken]

/-- If the receiver is believed to wait, it can be woken. -/
def WakesReceiver (s : System) (receiver : Nat) : Prop :=
  ∀ i, s.ipc.find receiver = some i → (s.ipc.endpoints i).waiting = true → s.Wakes receiver

theorem setWaiting_len (s : IpcState) (taskId : Nat) (waiting : Bool) (i : Fin maxEndpoints) :
    ((s.setWaiting taskId waiting).2.endpoints i).len = (s.endpoints i).len := by
  unfold IpcState.setWaiting
  split
  · rfl
  · rename_i index _
    by_cases same : i = index
    · subst same
      simp only [Function.update_self]
    · simp only [Function.update_of_ne same]

/-- The end of a send whose message is in the queue at `i`: the one error is a
refused wakeup, and it leaves the message there. -/
theorem finishSend_iff {t : System} {i : Fin maxEndpoints} {sequence receiver : Nat}
    {waiting : Bool} (table : t.table = s.table) (scheduler : t.scheduler = s.scheduler)
    (kept : (t.ipc.endpoints i).len = (s.ipc.endpoints i).len + 1) :
    (∀ error, (t.finishSendLocked sequence waiting receiver).1 = .error error →
        DeliversNothing s.ipc (t.finishSendLocked sequence waiting receiver).2.ipc) ↔
      (waiting = true → s.Wakes receiver) := by
  have wakes : (t.wakeFromIpc receiver).1 = true ↔ s.Wakes receiver := by
    rw [wakeFromIpc_iff, Wakes, Wakes, table, scheduler]
  have ipc := t.wakeFromIpc_ipc receiver
  unfold finishSendLocked
  cases waiting with
  | false => exact iff_of_true (fun error failed => by cases failed) (fun waits => by cases waits)
  | true =>
      rw [if_pos rfl, forall_prop_of_true rfl, ← wakes]
      cases woken : t.wakeFromIpc receiver with
      | mk result t' =>
          rw [woken] at ipc
          cases result with
          | true => exact iff_of_true (fun error failed => by cases failed) rfl
          | false =>
              refine iff_of_false (fun claim => ?_) Bool.false_ne_true
              have same := ((claim .wakeFailed rfl).1 i).2.2.1
              rw [setWaiting_len, ipc, kept] at same
              omega

/-! ### Plain sends -/

/-- If the checks pass, the message is queued. -/
theorem send_of_sends {s : IpcState} {sender receiver : Nat} {bytes : List UInt8}
    {i : Fin maxEndpoints} (found : s.find receiver = some i)
    (sends : s.Sends sender receiver bytes) :
    ∃ s', s.send sender receiver bytes = (.ok (s.nextSequence, (s.endpoints i).waiting), s') ∧
      (s'.endpoints i).len = (s.endpoints i).len + 1 := by
  rcases s.send_cases sender receiver bytes with
    ⟨index, s', eq, -, found', -, core⟩ | ⟨error, s', eq, -⟩
  · obtain rfl := Option.some.inj (found.symm.trans found')
    refine ⟨s', eq, ?_⟩
    have endpoints := congrFun (congrArg Ipc.Core.endpoints core) i
    rw [show s'.endpoints i = _ from endpoints, IpcState.delivered]
    dsimp only
    rw [Function.update_self]
    rfl
  · exact absurd sends ((s.send_failed_iff sender receiver bytes).mp ⟨error, by rw [eq]⟩)

theorem sends_of_send {s s' : IpcState} {sender receiver sequence : Nat} {waiting : Bool}
    {bytes : List UInt8} (sent : s.send sender receiver bytes = (.ok (sequence, waiting), s')) :
    s.Sends sender receiver bytes := by
  by_contra refused
  obtain ⟨error, failed⟩ := (s.send_failed_iff sender receiver bytes).mpr refused
  rw [sent] at failed
  cases failed

/-- `ipc::send`: a failure delivers nothing exactly when the receiver, if the
message is accepted, can be woken. -/
theorem send_failure_iff (s : System) (sender receiver : Nat) (bytes : List UInt8) :
    (∀ error, (s.send sender receiver bytes).1 = .error error →
        DeliversNothing s.ipc (s.send sender receiver bytes).2.ipc) ↔
      (s.ipc.Sends sender receiver bytes → s.WakesReceiver receiver) := by
  unfold send
  cases sent : s.ipc.send sender receiver bytes with
  | mk result ipc =>
      cases result with
      | error error =>
          refine iff_of_true (fun _ _ => .of_counts (IpcState.send_refused sent)) fun sends => ?_
          exact absurd sends ((s.ipc.send_failed_iff sender receiver bytes).mp ⟨error, by rw [sent]⟩)
      | ok reply =>
          obtain ⟨sequence, waiting⟩ := reply
          have sends := sends_of_send sent
          obtain ⟨-, -, -, i, found, -⟩ := sends
          obtain ⟨ipc', sent', kept⟩ := send_of_sends found (sends_of_send sent)
          rw [sent] at sent'
          cases sent'
          dsimp only
          rw [finishSend_iff (s := s) (t := { s with ipc }) rfl rfl kept,
            forall_prop_of_true (sends_of_send sent)]
          constructor
          · intro wakes j here waits
            obtain rfl := Option.some.inj (found.symm.trans here)
            exact wakes waits
          · exact fun wakes waits => wakes i found waits

/-! ### Sends through a capability -/

/-- `ipc::send_capability`: besides, the capability must have a target. -/
theorem sendCapability_failure_iff (s : System) (sender handle : Nat) (bytes : List UInt8) :
    (∀ error, (s.sendCapability sender handle bytes).1 = .error error →
        DeliversNothing s.ipc (s.sendCapability sender handle bytes).2.ipc) ↔
      ¬ Dangles s.ipc sender handle CapabilityRights.send ∧
        ∀ c, Resolves s.ipc sender handle CapabilityRights.send c →
          s.ipc.Sends sender c.target bytes → s.WakesReceiver c.target := by
  by_cases dangles : Dangles s.ipc sender handle CapabilityRights.send
  · refine iff_of_false (fun claim => ?_) fun both => both.1 dangles
    obtain ⟨ipc, eq, fewer⟩ := IpcState.resolveCapability_of_dangles dangles
    have failed : s.sendCapability sender handle bytes =
        (.error .staleCapability, { s with ipc }) := by
      rw [sendCapability, IpcState.sendCapability, IpcState.resolve, eq]
      rfl
    rw [failed] at claim
    have same := (claim .staleCapability rfl).activeCount
    dsimp only at same
    omega
  rw [and_iff_right dangles]
  rcases IpcState.resolveCapability_refused dangles with ⟨c, eq⟩ | ⟨error, ipc, eq, counts⟩
  · -- the handle resolves, and the rest is a plain send
    have same : s.sendCapability sender handle bytes = s.send sender c.target bytes := by
      unfold sendCapability send
      rw [IpcState.sendCapability, IpcState.resolve, eq]
      dsimp only [Ipc.Outcome.andThen]
      cases s.ipc.send sender c.target bytes with
      | mk result ipc =>
          cases result with
          | error error => rfl
          | ok reply => rfl
    rw [same, send_failure_iff]
    constructor
    · intro wakes c' resolves
      have eq' := IpcState.resolveCapability_of_resolves resolves
      rw [eq] at eq'
      cases eq'
      exact wakes
    · exact fun wakes => wakes c (IpcState.resolves_of_resolveCapability eq).2
  · have failed : s.sendCapability sender handle bytes = (.error error, { s with ipc }) := by
      rw [sendCapability, IpcState.sendCapability, IpcState.resolve, eq]
      rfl
    rw [failed]
    refine iff_of_true (fun _ _ => .of_counts counts) fun c resolves => ?_
    rw [IpcState.resolveCapability_of_resolves resolves] at eq
    cases eq

/-! ### Transfers -/

/-- The resolutions of a transfer, as far as it gets, meet no missing target. -/
def TransferResolves (s : IpcState) (sender destination transfer : Nat)
    (rights : CapabilityRights) (bytes : List UInt8) : Prop :=
  rights.valid = true → bytes.length ≤ maxMessageBytes →
    ¬ Dangles s sender destination CapabilityRights.send ∧
      ((∃ c, Resolves s sender destination CapabilityRights.send c) →
        ¬ Dangles s sender transfer CapabilityRights.delegate)

/-- A transfer that fails changes counters only. -/
theorem trySend_refused {s s' : IpcState} {sender destination transfer : Nat}
    {rights : CapabilityRights} {bytes : List UInt8} {error : IpcError}
    (sound : TransferResolves s sender destination transfer rights bytes)
    (failed : s.trySendWithCapability sender destination transfer rights bytes =
      (.error error, s')) : CountsRefusal s s' := by
  by_cases valid : rights.valid = true
  swap
  · rw [IpcState.trySendWithCapability, if_pos (by simpa using valid)] at failed
    cases failed
    exact .denial s false
  by_cases short : bytes.length ≤ maxMessageBytes
  swap
  · rw [IpcState.trySendWithCapability, if_neg (by simp [valid]), if_pos (not_le.mp short)] at failed
    cases failed
    exact .refl s
  obtain ⟨first, second⟩ := sound valid short
  by_cases resolved : ∃ c, Resolves s sender destination CapabilityRights.send c
  · exact IpcState.trySendWithCapability_refused first (second resolved) failed
  · rw [IpcState.trySendWithCapability, if_neg (by simp [valid]), if_neg (not_lt.mpr short)] at failed
    rcases IpcState.resolveCapability_refused first with ⟨c, eq⟩ | ⟨error', t, eq, counts⟩
    · exact absurd ⟨c, (IpcState.resolves_of_resolveCapability eq).2⟩ resolved
    · rw [IpcState.resolve, eq] at failed
      cases failed
      exact counts

/-- A missing target is met: the transfer fails with one capability less. -/
theorem trySend_of_dangles {s : IpcState} {sender destination transfer : Nat}
    {rights : CapabilityRights} {bytes : List UInt8}
    (dangles : ¬ TransferResolves s sender destination transfer rights bytes) :
    ∃ error s', s.trySendWithCapability sender destination transfer rights bytes =
      (.error error, s') ∧ s'.endpoints.activeCount < s.endpoints.activeCount := by
  unfold TransferResolves at dangles
  push Not at dangles
  obtain ⟨valid, short, meets⟩ := dangles
  rw [IpcState.trySendWithCapability, if_neg (by simp [valid]), if_neg (not_lt.mpr short)]
  by_cases first : Dangles s sender destination CapabilityRights.send
  · obtain ⟨s', eq, fewer⟩ := IpcState.resolveCapability_of_dangles first
    rw [IpcState.resolve, eq]
    exact ⟨_, _, rfl, fewer⟩
  · obtain ⟨⟨c, resolves⟩, second⟩ := meets first
    obtain ⟨s', eq, fewer⟩ := IpcState.resolveCapability_of_dangles second
    rw [IpcState.resolve, IpcState.resolveCapability_of_resolves resolves]
    dsimp only [Ipc.Outcome.andThen]
    rw [eq]
    exact ⟨_, _, rfl, fewer⟩

/-- The checks of a transfer are what it takes to commit it. -/
theorem trySend_of_checks {s : IpcState} {sender destination transfer receiver : Nat}
    {rights : CapabilityRights} {bytes : List UInt8} {source : Capability}
    {i : Fin maxEndpoints} {slot : Fin maxCapabilitiesPerEndpoint}
    (short : bytes.length ≤ maxMessageBytes)
    (checks : TransferChecks s sender destination transfer receiver rights source i slot) :
    ∃ handle s', s.trySendWithCapability sender destination transfer rights bytes =
        (.ok (s.nextSequence, (s.endpoints i).waiting, receiver, handle), s') ∧
      (s'.endpoints i).len = (s.endpoints i).len + 1 := by
  obtain ⟨c, rfl, resolves⟩ := checks.destination
  obtain ⟨generation, next, allocated⟩ : ∃ generation next,
      Ipc.allocate s.endpoints s.nextCapabilityGeneration = (generation, next) := ⟨_, _, rfl⟩
  obtain ⟨s', committed, core⟩ := s.commitTransfer_eq sender c.target source slot rights bytes
    checks.space allocated rfl
  have deep : Lib.Word.checkedAdd 255 source.lineageDepth 1 = some (source.lineageDepth + 1) :=
    Lib.Word.checkedAdd_eq_some.mpr ⟨rfl, checks.depth.trans (by decide)⟩
  refine ⟨Ipc.encodeHandle slot generation, s', ?_, ?_⟩
  · rw [IpcState.trySendWithCapability, if_neg (by simp [checks.valid]), if_neg (not_lt.mpr short),
      IpcState.resolve, IpcState.resolveCapability_of_resolves resolves]
    dsimp only [Ipc.Outcome.andThen]
    rw [IpcState.resolveCapability_of_resolves checks.held]
    dsimp only
    rw [if_neg (by simp [checks.attenuated]), if_neg (by simpa using checks.receive), deep]
    dsimp only
    rw [if_neg (not_lt.mpr checks.depth), checks.found]
    dsimp only
    rw [if_neg (not_le.mpr checks.space), checks.free]
    exact committed
  · have endpoints := congrFun (congrArg Ipc.Core.endpoints core) i
    rw [show s'.endpoints i = _ from endpoints]
    dsimp only
    rw [Function.update_self]
    simp only [Ipc.Endpoint.deliver, Endpoints.setCapability_apply]

/-- A transfer that succeeds has passed its checks. -/
theorem checks_of_trySend {s s' : IpcState} {sender destination transfer sequence receiver : Nat}
    {handle : Nat} {waiting : Bool} {rights : CapabilityRights} {bytes : List UInt8}
    (sent : s.trySendWithCapability sender destination transfer rights bytes =
      (.ok (sequence, waiting, receiver, handle), s')) :
    bytes.length ≤ maxMessageBytes ∧ ∃ source i slot,
      TransferChecks s sender destination transfer receiver rights source i slot := by
  unfold IpcState.trySendWithCapability at sent
  split at sent
  · cases sent
  rename_i valid
  split at sent
  · cases sent
  rename_i short
  unfold IpcState.resolve at sent
  cases first : s.resolveCapability sender destination CapabilityRights.send with
  | mk result t =>
    rw [first] at sent
    cases result with
    | error error => cases sent
    | ok c =>
      obtain ⟨rfl, toTarget⟩ := IpcState.resolves_of_resolveCapability first
      dsimp only [Ipc.Outcome.andThen] at sent
      cases second : t.resolveCapability sender transfer CapabilityRights.delegate with
      | mk result u =>
        rw [second] at sent
        cases result with
        | error error => cases sent
        | ok source =>
          obtain ⟨rfl, held⟩ := IpcState.resolves_of_resolveCapability second
          dsimp only at sent
          split at sent
          · cases sent
          rename_i attenuated
          split at sent
          · cases sent
          rename_i receive
          split at sent
          · cases sent
          rename_i depth deep
          obtain ⟨rfl, -⟩ := Lib.Word.checkedAdd_eq_some.mp deep
          split at sent
          · cases sent
          rename_i shallow
          split at sent
          · cases sent
          rename_i i found
          split at sent
          · cases sent
          rename_i space
          split at sent
          · cases sent
          rename_i slot free
          obtain ⟨s', committed, -⟩ := u.commitTransfer_eq sender c.target source slot rights bytes
            (not_le.mp space) rfl rfl
          rw [committed] at sent
          cases sent
          exact ⟨not_lt.mp short, source, i, slot,
            { valid := by simpa using valid
              destination := ⟨c, rfl, toTarget⟩
              held := held
              attenuated := by simpa using attenuated
              receive := by simpa using receive
              depth := not_lt.mp shallow
              found := found
              space := not_le.mp space
              free := free }⟩

/-- `ipc::send_with_capability`. -/
theorem sendWithCapability_failure_iff (s : System) (sender destination transfer : Nat)
    (rights : CapabilityRights) (bytes : List UInt8) :
    (∀ error, (s.sendWithCapability sender destination transfer rights bytes).1 = .error error →
        DeliversNothing s.ipc
          (s.sendWithCapability sender destination transfer rights bytes).2.ipc) ↔
      TransferResolves s.ipc sender destination transfer rights bytes ∧
        ∀ receiver source i slot, bytes.length ≤ maxMessageBytes →
          TransferChecks s.ipc sender destination transfer receiver rights source i slot →
            s.WakesReceiver receiver := by
  unfold sendWithCapability IpcState.sendWithCapability
  cases sent : s.ipc.trySendWithCapability sender destination transfer rights bytes with
  | mk result ipc =>
      cases result with
      | error error =>
          dsimp only
          by_cases resolves : TransferResolves s.ipc sender destination transfer rights bytes
          · refine iff_of_true (fun _ _ => .of_counts ((trySend_refused resolves sent).trans
              ⟨_, _, _, _, rfl⟩)) ⟨resolves, fun receiver source i slot short checks => ?_⟩
            obtain ⟨handle, s', sent', -⟩ := trySend_of_checks short checks
            rw [sent] at sent'
            cases sent'
          · refine iff_of_false (fun claim => ?_) fun both => resolves both.1
            obtain ⟨error', s', sent', fewer⟩ := trySend_of_dangles resolves
            rw [sent] at sent'
            cases sent'
            have same := (claim error rfl).activeCount
            dsimp only at same
            omega
      | ok reply =>
          obtain ⟨sequence, waiting, receiver, handle⟩ := reply
          obtain ⟨short, source, i, slot, checks⟩ := checks_of_trySend sent
          obtain ⟨handle', s', sent', kept⟩ := trySend_of_checks short checks
          rw [sent] at sent'
          cases sent'
          dsimp only
          rw [finishSend_iff (s := s) (t := { s with ipc }) rfl rfl kept]
          constructor
          · intro wakes
            constructor
            · by_contra dangles
              obtain ⟨error', s', failed, -⟩ := trySend_of_dangles dangles
              rw [sent] at failed
              cases failed
            · intro receiver' source' i' slot' _ checks' j here waits
              obtain ⟨handle', s', sent', -⟩ := trySend_of_checks short checks'
              have reply := Except.ok.inj (Prod.mk.inj (sent.symm.trans sent')).1
              obtain rfl : receiver = receiver' := congrArg (fun r => r.2.2.1) reply
              obtain rfl := Option.some.inj (checks.found.symm.trans here)
              exact wakes waits
          · exact fun both waits => both.2 receiver source i slot short checks i checks.found waits

end System

/-- In every state: a send that fails has delivered nothing exactly when the
receiver of a message that is accepted can be woken, should it be believed to
wait, and no handle meets a capability without a target. -/
theorem failed_send_iff (s : System) :
    (∀ sender receiver bytes,
      (∀ error, (s.send sender receiver bytes).1 = .error error →
          DeliversNothing s.ipc (s.send sender receiver bytes).2.ipc) ↔
        (s.ipc.Sends sender receiver bytes → s.WakesReceiver receiver)) ∧
    (∀ sender handle bytes,
      (∀ error, (s.sendCapability sender handle bytes).1 = .error error →
          DeliversNothing s.ipc (s.sendCapability sender handle bytes).2.ipc) ↔
        ¬ Dangles s.ipc sender handle CapabilityRights.send ∧
          ∀ c, Resolves s.ipc sender handle CapabilityRights.send c →
            s.ipc.Sends sender c.target bytes → s.WakesReceiver c.target) ∧
    ∀ sender destination transfer rights bytes,
      (∀ error, (s.sendWithCapability sender destination transfer rights bytes).1 = .error error →
          DeliversNothing s.ipc
            (s.sendWithCapability sender destination transfer rights bytes).2.ipc) ↔
        System.TransferResolves s.ipc sender destination transfer rights bytes ∧
          ∀ receiver source i slot, bytes.length ≤ maxMessageBytes →
            TransferChecks s.ipc sender destination transfer receiver rights source i slot →
              s.WakesReceiver receiver :=
  ⟨s.send_failure_iff, s.sendCapability_failure_iff, s.sendWithCapability_failure_iff⟩

/-- Task 1 left its receive through the exit of its child, so the send of task 3
fails and yet the message is in the queue. -/
theorem failed_send_delivers :
    ¬ ∀ (ops : List Op) (sender receiver : Nat) (bytes : List UInt8) (error : IpcError),
      ((run .boot ops).send sender receiver bytes).1 = .error error →
        DeliversNothing (run .boot ops).ipc
          ((run .boot ops).send sender receiver bytes).2.ipc := by
  intro claim
  have nothing := claim (parentRun ++ [.markExited 2 7 0]) 3 1 [7] .wakeFailed (by decide +kernel)
  have empty : ((run .boot (parentRun ++ [.markExited 2 7 0])).ipc.endpoints 0).len = 0 := by
    decide +kernel
  have queued : (((run .boot (parentRun ++ [.markExited 2 7 0])).send 3 1 [7]).2.ipc.endpoints
      0).len = 1 := by
    decide +kernel
  have same := (nothing.1 0).2.2.1
  omega

end Process

end CloudOS
