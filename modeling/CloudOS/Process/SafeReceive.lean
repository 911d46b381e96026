import CloudOS.Process.Receiving
import CloudOS.Process.Service
import CloudOS.Process.Switch
import CloudOS.Process.UserRange

/-!
The receive system call with the memory that it writes to.

The call checks the buffer for the most it may copy, takes the message, and checks the
buffer again for the length of the message. The second check cannot fail where the first
one did not, so no message is taken and lost.
-/

namespace CloudOS.Process

open Lib.Store (Memory)
open Lib.Word (satAdd maxWord)
open CloudOS.Ipc (IpcState IpcError Delivery Message maxMessageBytes)
open CloudOS.Paging (AddressSpace World BootTables userElfStackTop imageTables
  imageTables_reserved_roomyMap)
open CloudOS.PhysMem (FrameSource SoundAllocator)

/-- The kernel with the address spaces of its tasks and the memory behind them. -/
structure KernelState where
  system : System
  addressSpace : Fin maxTasks → AddressSpace
  memory : Memory

namespace KernelState

def taskSpaces (k : KernelState) : TaskSpaces := ⟨k.system.table, k.addressSpace⟩

/-- `syscall_ipc_receive_common`, where `none` stands for calling itself again. -/
def receiveAttempt (k : KernelState) (buffer : Nat) (frame : SyscallFrame)
    (timeoutTicks : Option Nat) : Option SyscallOutcome × SyscallFrame × KernelState :=
  let receiver := k.system.currentTask
  let capacity := min frame.rsi maxMessageBytes
  if receiver = 0 then (some (.complete (ipcErrorReturn .invalidTask)), frame, k)
  else if !(k.taskSpaces.validateUserBuffer k.memory receiver buffer capacity true).valid then
    (some (.complete retInvalidUserBuffer), frame, k)
  else
    match k.system.takeIpcWakeReason receiver with
    | (.timeout, system) => (some (.complete (ipcErrorReturn .timeout)), frame, { k with system })
    | (.cancelled, system) =>
        (some (.complete (ipcErrorReturn .cancelled)), frame, { k with system })
    | (_, system) =>
        match system.receive receiver (List.replicate capacity 0) false with
        | (.ok (.message delivery), system, message) =>
            let k := { k with system }
            match k.taskSpaces.copyToUser k.memory receiver buffer
              (message.take delivery.length) with
            | (false, _, memory) =>
                (some (.complete retInvalidUserBuffer), frame, { k with memory })
            | (true, _, memory) =>
                (some (.complete delivery.length),
                  { frame with
                    rdx := delivery.sender
                    rcx := delivery.sequence
                    r8 := delivery.capabilityHandle
                    r9 := delivery.capabilityRights.toNat
                    rax := delivery.length },
                  { k with system := (k.system.completeIpcRestart receiver).2, memory })
        | (.ok .blocked, system, _) =>
            (some (.complete (ipcErrorReturn .blockFailed)), frame, { k with system })
        | (.error .queueEmpty, system, _) =>
            if timeoutTicks = some 0 then
              (some (.complete (ipcErrorReturn .timeout)), frame, { k with system })
            else
              let deadlineTick :=
                match timeoutTicks with
                | none => 0
                | some ticks => satAdd system.ticks ticks
              match system.blockSyscall receiver frame deadlineTick with
              | (.ok (.switched root), frame, system) =>
                  (some (.switch root), frame, { k with system })
              | (.ok .messageReady, frame, system) => (none, frame, { k with system })
              | (.error error, frame, system) =>
                  (some (.complete (ipcErrorReturn error)), frame, { k with system })
        | (.error error, system, _) =>
            (some (.complete (ipcErrorReturn error)), frame, { k with system })

/-! ### What the call finds at user addresses -/

/-- The buffers of the current task. -/
def userMemory (k : KernelState) : UserMemory where
  validateUserBuffer address length writable :=
    (k.taskSpaces.validateUserBuffer k.memory k.system.currentTask address length writable).valid
  copyFromUser address length :=
    match k.taskSpaces.copyFromUser k.memory k.system.currentTask address
      (List.replicate length 0) with
    | (true, bytes, _) => some bytes
    | (false, _, _) => none
  copyToUser address bytes :=
    (k.taskSpaces.copyToUser k.memory k.system.currentTask address bytes).1
  length_copyFromUser := by
    intro address length bytes copied
    have isExact := k.taskSpaces.copyFromUser_exact k.memory k.system.currentTask address
      (List.replicate length 0)
    generalize k.taskSpaces.copyFromUser k.memory k.system.currentTask address
      (List.replicate length 0) = result at copied isExact
    obtain ⟨done, output, memory⟩ := result
    cases done with
    | false => cases copied
    | true =>
        obtain rfl := Option.some.inj copied
        obtain ⟨index, found, -⟩ := isExact.done_iff.mp rfl
        rw [(isExact.bytes rfl index found).1, List.length_replicate]

/-- The message that a receive copies, if it comes to that. -/
def handing (k : KernelState) (buffer : Nat) (frame : SyscallFrame) : Option (List UInt8) :=
  if k.system.currentTask = 0 ∨
      k.userMemory.validateUserBuffer buffer frame.capacity true = false ∨
      k.system.wakeReason.error.isSome then none
  else
    match k.system.taken.ipc.receive k.system.currentTask (System.messageBuffer frame) with
    | (.ok delivery, _, message) => some (message.take delivery.length)
    | (.error _, _, _) => none

/-- The memory after a receive. -/
def memoryAfter (k : KernelState) (buffer : Nat) (frame : SyscallFrame) : Memory :=
  match k.handing buffer frame with
  | none => k.memory
  | some bytes => (k.taskSpaces.copyToUser k.memory k.system.currentTask buffer bytes).2.2

end KernelState

/-- Only the ids and the roots of the tasks decide about a copy. -/
theorem TaskSpaces.copyToUser_congr {t t' : TaskSpaces} (spaces : t'.addressSpace = t.addressSpace)
    (find : ∀ id, t'.table.findTask id = t.table.findTask id)
    (root : ∀ i, (t'.table.task i).addressSpaceRoot = (t.table.task i).addressSpaceRoot)
    (m : Memory) (taskId address : Nat) (input : List UInt8) :
    t'.copyToUser m taskId address input = t.copyToUser m taskId address input := by
  obtain ⟨table, space⟩ := t
  obtain ⟨table', space'⟩ := t'
  obtain rfl : space' = space := spaces
  have same : (validateUserBuffer ⟨table', space'⟩ m taskId address input.length true).valid =
      (validateUserBuffer ⟨table, space'⟩ m taskId address input.length true).valid := by
    unfold validateUserBuffer
    dsimp only at find root ⊢
    simp only [find, root]
  unfold copyToUser
  rw [same]
  unfold copyUserBytes
  dsimp only at find ⊢
  rw [find]

namespace System

variable {s : System}

/-- Taking the reason of a wake changes that and the mark of a restart. -/
theorem takeIpcWakeReason_task (s : System) (taskId : Nat) (j : Fin maxTasks) :
    ∃ reason pending, (s.takeIpcWakeReason taskId).2.table.task j =
      { s.table.task j with ipcWakeReason := reason, ipcRestartPending := pending } := by
  unfold takeIpcWakeReason
  cases s.table.findTask taskId with
  | none => exact ⟨_, _, rfl⟩
  | some i =>
      have first := s.task_modify i fun task => { task with ipcWakeReason := .none }
      dsimp only
      generalize s.modify i _ = s₁ at first
      have second := s₁.task_modify i fun task => { task with ipcRestartPending := false }
      rw [first] at second
      by_cases here : j = i
      · subst here
        rw [Function.update_self] at second
        split
        · refine ⟨.none, false, (congrFun second j).trans ?_⟩
          rw [Function.update_self]
        · refine ⟨.none, (s.table.task j).ipcRestartPending, (congrFun first j).trans ?_⟩
          rw [Function.update_self]
      · refine ⟨(s.table.task j).ipcWakeReason, (s.table.task j).ipcRestartPending, ?_⟩
        split
        · refine (congrFun second j).trans ?_
          rw [Function.update_of_ne here, Function.update_of_ne here]
        · refine (congrFun first j).trans ?_
          rw [Function.update_of_ne here]

end System

namespace KernelState

variable {k : KernelState} {buffer : Nat} {frame : SyscallFrame} {timeoutTicks : Option Nat}

/-- The buffer is where it was when the message is copied. -/
theorem copyToUser_taken (k : KernelState) (ipc : IpcState) :
    (⟨{ k.system.taken with ipc }, k.addressSpace, k.memory⟩ : KernelState).taskSpaces.copyToUser =
      k.taskSpaces.copyToUser := by
  have tasks := k.system.takeIpcWakeReason_task k.system.currentTask
  funext m taskId address input
  change TaskSpaces.copyToUser ⟨k.system.taken.table, k.addressSpace⟩ m taskId address input =
    TaskSpaces.copyToUser ⟨k.system.table, k.addressSpace⟩ m taskId address input
  apply TaskSpaces.copyToUser_congr
  · rfl
  · intro id
    refine findTask_of_same (fun i => ?_) (fun i => ?_) id
    · obtain ⟨reason, pending, same⟩ := tasks i
      exact (congrArg Task.id same).trans rfl
    · obtain ⟨reason, pending, same⟩ := tasks i
      exact iff_of_eq ((congrArg (Task.state · = .empty) same).trans rfl)
  · intro i
    obtain ⟨reason, pending, same⟩ := tasks i
    exact (congrArg Task.addressSpaceRoot same).trans rfl

/-- The kernel with memory is the kernel over what its memory answers, and one copy. -/
theorem receiveAttempt_eq (k : KernelState) (buffer : Nat) (frame : SyscallFrame)
    (timeoutTicks : Option Nat) :
    k.receiveAttempt buffer frame timeoutTicks =
      ((k.system.receiveAttempt k.userMemory buffer frame timeoutTicks).1,
        (k.system.receiveAttempt k.userMemory buffer frame timeoutTicks).2.1,
        ⟨(k.system.receiveAttempt k.userMemory buffer frame timeoutTicks).2.2, k.addressSpace,
          k.memoryAfter buffer frame⟩) := by
  unfold receiveAttempt System.receiveAttempt memoryAfter handing
  by_cases zero : k.system.currentTask = 0
  · simp only [zero, if_true, true_or]
  simp only [zero, if_false, false_or]
  have valid : k.userMemory.validateUserBuffer buffer (min frame.rsi maxMessageBytes) true =
      (k.taskSpaces.validateUserBuffer k.memory k.system.currentTask buffer
        (min frame.rsi maxMessageBytes) true).valid := rfl
  rw [SyscallFrame.capacity, valid]
  cases (k.taskSpaces.validateUserBuffer k.memory k.system.currentTask buffer
    (min frame.rsi maxMessageBytes) true).valid with
  | false => rfl
  | true =>
      simp only [Bool.not_true, Bool.false_eq_true, if_false, reduceCtorEq, false_or]
      rw [System.takeIpcWakeReason_eq]
      cases reason : k.system.wakeReason
      case timeout => rfl
      case cancelled => rfl
      all_goals
        simp only [IpcWakeReason.error, Option.isSome, Bool.false_eq_true, if_false]
        rw [System.receive_false, System.messageBuffer, SyscallFrame.capacity]
        generalize k.system.taken.ipc.receive k.system.currentTask _ = result
        obtain ⟨outcome, ipc, message⟩ := result
        cases outcome with
        | ok delivery =>
            dsimp only [Except.map]
            rw [copyToUser_taken]
            have asked : k.userMemory.copyToUser buffer (message.take delivery.length) =
              (k.taskSpaces.copyToUser k.memory k.system.currentTask buffer
                (message.take delivery.length)).1 := rfl
            rw [asked]
            generalize k.taskSpaces.copyToUser k.memory k.system.currentTask buffer _ = copied
            obtain ⟨done, input, memory⟩ := copied
            cases done with
            | false => rfl
            | true => rfl
        | error error =>
            cases error
            case queueEmpty =>
              dsimp only [Except.map]
              by_cases now : timeoutTicks = some 0
              · rw [if_pos now, if_pos now]
              rw [if_neg now, if_neg now]
              generalize System.blockSyscall _ k.system.currentTask frame _ = result
              obtain ⟨outcome, frame', s'⟩ := result
              cases outcome with
              | error error => rfl
              | ok outcome =>
                  cases outcome with
                  | messageReady => rfl
                  | switched root => rfl
            all_goals rfl

theorem receiveAttempt_isSome (k : KernelState) (buffer : Nat) (frame : SyscallFrame)
    (timeoutTicks : Option Nat) :
    (k.receiveAttempt buffer frame timeoutTicks).1.isSome = true := by
  rw [receiveAttempt_eq]
  exact k.system.receiveAttempt_isSome k.userMemory buffer frame timeoutTicks

/-- `syscall_ipc_receive_common`. -/
def receiveCommon (k : KernelState) (buffer : Nat) (frame : SyscallFrame)
    (timeoutTicks : Option Nat) : SyscallOutcome × SyscallFrame × KernelState :=
  ((k.receiveAttempt buffer frame timeoutTicks).1.get
      (k.receiveAttempt_isSome buffer frame timeoutTicks),
    (k.receiveAttempt buffer frame timeoutTicks).2)

theorem receiveCommon_eq (k : KernelState) (buffer : Nat) (frame : SyscallFrame)
    (timeoutTicks : Option Nat) :
    k.receiveCommon buffer frame timeoutTicks =
      ((k.system.receiveCommon k.userMemory buffer frame timeoutTicks).1,
        (k.system.receiveCommon k.userMemory buffer frame timeoutTicks).2.1,
        ⟨(k.system.receiveCommon k.userMemory buffer frame timeoutTicks).2.2, k.addressSpace,
          k.memoryAfter buffer frame⟩) := by
  have attempt := k.receiveAttempt_eq buffer frame timeoutTicks
  have rest := congrArg Prod.snd attempt
  refine Prod.ext ?_ rest
  apply Option.some.inj
  rw [receiveCommon, Option.some_get, attempt, System.receiveCommon, Option.some_get]

/-! ### What is copied -/

theorem handing_of_received {delivery : Delivery} {ipc : IpcState} {message : List UInt8}
    (admitted : Admitted k.system k.userMemory buffer frame)
    (reason : k.system.wakeReason.error = none)
    (received : k.system.taken.ipc.receive k.system.currentTask (System.messageBuffer frame) =
      (.ok delivery, ipc, message)) :
    k.handing buffer frame = some (message.take delivery.length) := by
  rw [handing, if_neg (by simp [admitted.running, admitted.valid, reason]), received]

theorem memoryAfter_of_failed {error : IpcError} {ipc : IpcState} {message : List UInt8}
    (received : k.system.taken.ipc.receive k.system.currentTask (System.messageBuffer frame) =
      (.error error, ipc, message)) : k.memoryAfter buffer frame = k.memory := by
  have nothing : k.handing buffer frame = none := by
    rw [handing, received]
    split
    · rfl
    · rfl
  rw [memoryAfter, nothing]

theorem memoryAfter_of_early (early : k.system.currentTask = 0 ∨
      k.userMemory.validateUserBuffer buffer frame.capacity true = false ∨
      k.system.wakeReason.error.isSome) : k.memoryAfter buffer frame = k.memory := by
  rw [memoryAfter, handing, if_pos early]

end KernelState

/-! ### The queues -/

namespace System

variable {s : System}

theorem setWaiting_mail (s : IpcState) (taskId : Nat) (waiting : Bool) (id : Nat) :
    (s.setWaiting taskId waiting).2.mail id = s.mail id := by
  unfold IpcState.setWaiting
  split
  · rfl
  · rename_i index found
    apply IpcState.mail_congr
    · intro i
      dsimp only
      by_cases here : i = index
      · rw [here, Function.update_self]
      · rw [Function.update_of_ne here]
    · intro i
      dsimp only
      by_cases here : i = index
      · rw [here, Function.update_self]
        rfl
      · rw [Function.update_of_ne here]

/-- A task that falls asleep keeps its messages. -/
theorem blockSyscall_mail {receiver : Nat} (allowed : s.ipc.canReceive receiver = (.ok (), s.ipc))
    (frame : SyscallFrame) (deadlineTick id : Nat) :
    (s.blockSyscall receiver frame deadlineTick).2.2.ipc.mail id = s.ipc.mail id := by
  unfold blockSyscall
  rw [allowed]
  dsimp only
  split
  · rfl
  · rfl
  · have waits := setWaiting_mail s.ipc receiver true id
    generalize s.ipc.setWaiting receiver true = result at waits
    obtain ⟨outcome, ipc⟩ := result
    cases outcome with
    | error error => exact waits
    | ok done =>
        dsimp only
        have same := blockForIpcSyscall_ipc { s with ipc } receiver frame deadlineTick
        generalize blockForIpcSyscall { s with ipc } receiver frame deadlineTick = result at same
        obtain ⟨root, frame', s'⟩ := result
        have same' : s'.ipc = ipc := same
        cases root with
        | none =>
            refine (setWaiting_mail s'.ipc receiver false id).trans ?_
            rw [same']
            exact waits
        | some root =>
            change s'.ipc.mail id = _
            rw [same']
            exact waits

end System

/-- The receive took the message, told the task about it and copied all of it, to bytes
that the task may write, and to no others. -/
structure Handed (k k' : KernelState) (buffer : Nat) (frame frame' : SyscallFrame)
    (outcome : SyscallOutcome) (message : Message) : Prop where
  taken : k.system.ipc.mail k.system.currentTask =
    message :: k'.system.ipc.mail k.system.currentTask
  outcome : outcome = .complete message.length
  frame : frame' = frame.deliver message.delivery
  length : message.payload.length = message.length
  copied : ∃ index, k.system.table.findTask k.system.currentTask = some index ∧
    (∀ i < message.length, (k.addressSpace index).Grants k.memory true (buffer + i)) ∧
    (∀ i < message.length, message.payload[i]? =
      some (k'.memory ((k.addressSpace index).translate k.memory (buffer + i)).phys)) ∧
    ∀ x, (∀ i < message.length,
      ((k.addressSpace index).translate k.memory (buffer + i)).phys ≠ x) → k'.memory x = k.memory x

namespace KernelState

variable {k : KernelState} {buffer : Nat} {frame : SyscallFrame}

/-- A message that fits the buffer that was checked is copied. -/
theorem copies_of_admitted (admitted : Admitted k.system k.userMemory buffer frame)
    (coherent : ∀ index, k.system.table.findTask k.system.currentTask = some index →
      (k.addressSpace index).Coherent k.memory) {bytes : List UInt8}
    (fits : bytes.length ≤ frame.capacity) :
    k.userMemory.copyToUser buffer bytes = true ∧
    ∃ index, k.system.table.findTask k.system.currentTask = some index ∧
      (∀ i < bytes.length, (k.addressSpace index).Grants k.memory true (buffer + i)) ∧
      (∀ i < bytes.length, bytes[i]? = some ((k.taskSpaces.copyToUser k.memory
        k.system.currentTask buffer bytes).2.2
          ((k.addressSpace index).translate k.memory (buffer + i)).phys)) ∧
      ∀ x, (∀ i < bytes.length, ((k.addressSpace index).translate k.memory (buffer + i)).phys ≠ x) →
        (k.taskSpaces.copyToUser k.memory k.system.currentTask buffer bytes).2.2 x =
          k.memory x := by
  have isExact := k.taskSpaces.copyToUser_exact k.memory k.system.currentTask buffer bytes coherent
  obtain ⟨index, found, root, short, granted⟩ := TaskSpaces.validateUserBuffer_iff.mp admitted.valid
  have accessible : k.taskSpaces.Accessible k.memory k.system.currentTask buffer bytes.length
      true := by
    refine ⟨index, found, root, fits.trans short, ?_⟩
    rcases granted with empty | ⟨word, granted⟩
    · exact .inl (by omega)
    · exact .inr ⟨by omega, fun i inside => granted i (by omega)⟩
  have done := isExact.done_iff.mpr accessible
  exact ⟨done, index, found, (accessible.bytes found).2.2, isExact.bytes done index found,
    isExact.only done index found⟩

end KernelState

/-- The spaces of tasks are coherent. -/
theorem TaskSpaces.LivesIn.coherent {source : FrameSource} {boot : BootTables} {w : World source}
    {t : TaskSpaces} (livesIn : t.LivesIn w) (closed : World.Closed boot w)
    (index : Fin maxTasks) : (t.addressSpace index).Coherent w.machine.memory := by
  by_cases active : (t.addressSpace index).active = true
  · obtain ⟨lowP3, userP2, p1s, housed⟩ := livesIn.housed closed active
    exact housed.coherent
  · refine ⟨fun _ _ _ grants => ?_, fun _ _ grants => ?_⟩
    · exact absurd (active_of_grants grants) active
    · exact absurd (active_of_grants grants) active

/-- The number that says that a buffer is invalid says nothing else. -/
theorem ipcErrorReturn_ne_invalid (error : IpcError) :
    ipcErrorReturn error ≠ retInvalidUserBuffer := by
  cases error
  all_goals decide

/-- A message that is received fits the buffer, and all of it is in the kernel's copy. -/
theorem receive_accepted {s : System} {frame : SyscallFrame} (bounded : s.ipc.Bounded)
    {delivery : Delivery} {ipc : IpcState} {bytes : List UInt8}
    (received : s.taken.ipc.receive s.currentTask (System.messageBuffer frame) =
      (.ok delivery, ipc, bytes)) :
    ∃ message, delivery = message.delivery ∧ bytes.take delivery.length = message.payload ∧
      message.payload.length = message.length ∧ message.length ≤ frame.capacity ∧
      s.ipc.mail s.currentTask = message :: ipc.mail s.currentTask := by
  have receipt := s.taken.ipc.receive_receipt s.currentTask (System.messageBuffer frame)
  rw [received, s.taken_ipc] at receipt
  cases receipt with
  | @accepted i message popped allowed found first fits pops =>
      rw [System.length_messageBuffer] at fits
      have short : message.length ≤ maxMessageBytes := fits.trans (Nat.min_le_right _ _)
      refine ⟨message, rfl, IpcState.take_copyPayload short _, ?_, fits, ?_⟩
      · rw [Message.payload, List.length_take, List.length_ofFn]
        exact Nat.min_eq_left short
      · exact bounded.mail_accept found pops

theorem receive_failed_mail {s : System} {frame : SyscallFrame} {error : IpcError} {ipc : IpcState}
    {bytes : List UInt8}
    (received : s.taken.ipc.receive s.currentTask (System.messageBuffer frame) =
      (.error error, ipc, bytes)) : ipc.mail s.currentTask = s.ipc.mail s.currentTask := by
  rw [s.taken_ipc] at received
  have same := (IpcState.receive_refused received).1.endpoints
  exact IpcState.mail_congr (fun i => by rw [same]) fun i => by rw [same]

/-- A receive hands the oldest message over or leaves the queue and the memory as they
were, and one that says that the buffer is invalid has done nothing. -/
theorem receive_hands_over {source : FrameSource} (boot : BootTables)
    (reserved : boot.Reserved source) (w : World source) (reachable : World.Reachable boot w)
    (ops : List Op) (k : KernelState) (system : k.system = run .boot ops)
    (memory : k.memory = w.machine.memory) (livesIn : k.taskSpaces.LivesIn w) (buffer : Nat)
    (frame : SyscallFrame) (timeoutTicks : Option Nat) :
    let result := k.receiveCommon buffer frame timeoutTicks
    ((∃ message, Handed k result.2.2 buffer frame result.2.1 result.1 message) ∨
      (result.2.2.system.ipc.mail k.system.currentTask =
        k.system.ipc.mail k.system.currentTask ∧ result.2.2.memory = k.memory)) ∧
    (result.1.returnValue = retInvalidUserBuffer → result.2.1 = frame ∧ result.2.2 = k) := by
  have bounded : k.system.ipc.Bounded := system ▸ run_bounded ops
  have coherent : ∀ index, k.system.table.findTask k.system.currentTask = some index →
      (k.addressSpace index).Coherent k.memory := by
    intro index _
    rw [memory]
    exact livesIn.coherent (reachable.closed reserved) index
  have exit := k.system.receiveCommon_exit k.userMemory buffer frame timeoutTicks
  intro result
  have isResult : result = _ := k.receiveCommon_eq buffer frame timeoutTicks
  rw [isResult]
  generalize k.system.receiveCommon k.userMemory buffer frame timeoutTicks = after at exit
  obtain ⟨outcome, frame', s'⟩ := after
  dsimp only at exit ⊢
  cases exit with
  | noTask zero =>
      rw [KernelState.memoryAfter_of_early (.inl zero)]
      exact ⟨.inr ⟨rfl, rfl⟩, fun _ => ⟨rfl, rfl⟩⟩
  | invalid running invalid =>
      rw [KernelState.memoryAfter_of_early (.inr (.inl invalid))]
      exact ⟨.inr ⟨rfl, rfl⟩, fun _ => ⟨rfl, rfl⟩⟩
  | @ended error admitted reason =>
      rw [KernelState.memoryAfter_of_early (.inr (.inr (by rw [reason]; rfl)))]
      exact ⟨.inr ⟨by rw [System.taken_ipc], rfl⟩,
        fun invalid => absurd invalid (ipcErrorReturn_ne_invalid error)⟩
  | @delivered delivery ipc bytes admitted reason received copied =>
      have handing := KernelState.handing_of_received admitted reason received
      obtain ⟨message, rfl, payload, length, fits, taken⟩ := receive_accepted bounded received
      rw [payload] at handing
      obtain ⟨-, index, found, granted, stored, only⟩ :=
        KernelState.copies_of_admitted admitted coherent (length.trans_le fits)
      rw [length] at granted stored only
      have memoryAfter : k.memoryAfter buffer frame = (k.taskSpaces.copyToUser k.memory
          k.system.currentTask buffer message.payload).2.2 := by
        rw [KernelState.memoryAfter, handing]
      rw [memoryAfter]
      refine ⟨.inl ⟨message, ?_, rfl, rfl, length, index, found, granted, stored, only⟩, ?_⟩
      · dsimp only
        rw [System.completeIpcRestart_ipc]
        exact taken
      · intro invalid
        have large : message.length = retInvalidUserBuffer := invalid
        have short : message.length ≤ maxMessageBytes := fits.trans (Nat.min_le_right _ _)
        rw [large] at short
        exact absurd short (by decide)
  | @uncopied delivery ipc bytes admitted reason received refused =>
      obtain ⟨message, rfl, payload, length, fits, -⟩ := receive_accepted bounded received
      rw [payload, (KernelState.copies_of_admitted admitted coherent
        (length.trans_le fits)).1] at refused
      cases refused
  | @failed error ipc bytes admitted reason received other =>
      rw [KernelState.memoryAfter_of_failed received]
      exact ⟨.inr ⟨receive_failed_mail received, rfl⟩,
        fun invalid => absurd invalid (ipcErrorReturn_ne_invalid error)⟩
  | polled admitted reason received now =>
      rw [KernelState.memoryAfter_of_failed received]
      exact ⟨.inr ⟨by rw [System.taken_ipc], rfl⟩,
        fun invalid => absurd invalid (ipcErrorReturn_ne_invalid _)⟩
  | @refused bytes error frame' s' admitted reason received later blocks =>
      rw [KernelState.memoryAfter_of_failed received]
      have allowed := (IpcState.receive_eq_queueEmpty received).2.1
      have mail := System.blockSyscall_mail allowed frame
        (deadlineTick k.system.taken.ticks timeoutTicks) k.system.currentTask
      rw [blocks, System.taken_ipc] at mail
      exact ⟨.inr ⟨mail, rfl⟩, fun invalid => absurd invalid (ipcErrorReturn_ne_invalid error)⟩
  | @switched bytes root frame' s' admitted reason received later blocks =>
      rw [KernelState.memoryAfter_of_failed received]
      have allowed := (IpcState.receive_eq_queueEmpty received).2.1
      have mail := System.blockSyscall_mail allowed frame
        (deadlineTick k.system.taken.ticks timeoutTicks) k.system.currentTask
      rw [blocks, System.taken_ipc] at mail
      have ok : retOk ≠ retInvalidUserBuffer := by decide
      exact ⟨.inr ⟨mail, rfl⟩, fun invalid => absurd invalid ok⟩

/-- Task 2 has sent two bytes to the first task, which runs in its space. -/
def mailedRun : List Op :=
  [.spawnElfChild 0 (some someImage) (some 64), .spawnElfChild 0 (some someImage) (some 128),
    .send 2 1 [7, 8], .markRunning 1 0]

def mailedKernel : KernelState where
  system := run .boot mailedRun
  addressSpace := elfTask.addressSpace
  memory := elfWorld.machine.memory

/-- A receive of two bytes at most. -/
def twoByteFrame : SyscallFrame := { blankFrame with rsi := 2 }

/-- The message goes to the end of the stack of the first task. -/
theorem receive_hands_over_mailedRun :
    ∃ message, Handed mailedKernel
      (mailedKernel.receiveCommon (userElfStackTop - 2) twoByteFrame none).2.2
      (userElfStackTop - 2) twoByteFrame
      (mailedKernel.receiveCommon (userElfStackTop - 2) twoByteFrame none).2.1
      (mailedKernel.receiveCommon (userElfStackTop - 2) twoByteFrame none).1 message := by
  have livesIn : mailedKernel.taskSpaces.LivesIn elfWorld := fun index => elfTask_livesIn index
  have memory : mailedKernel.memory = elfWorld.machine.memory := by rw [mailedKernel]
  rcases (receive_hands_over imageTables imageTables_reserved_roomyMap elfWorld
    elfWorld_reachable mailedRun mailedKernel rfl memory livesIn (userElfStackTop - 2) twoByteFrame
    none).1 with handed | ⟨kept, -⟩
  · exact handed
  · have fewer := congrArg List.length kept
    have one : (mailedKernel.system.ipc.mail mailedKernel.system.currentTask).length = 1 := by
      decide +kernel
    have zero : ((mailedKernel.receiveCommon (userElfStackTop - 2) twoByteFrame
        none).2.2.system.ipc.mail mailedKernel.system.currentTask).length = 0 := by
      decide +kernel
    omega

end CloudOS.Process
