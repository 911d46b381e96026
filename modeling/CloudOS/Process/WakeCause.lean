import CloudOS.Process.Answer

/-!
Every blocked receive ends with the cause that woke its task.

The wait of a task that blocked in a receive stays on record until one move ends
it: a send, a cancellation or a timer interrupt past the deadline. What the task
finds when it makes the call again depends on this move alone, whatever happened
since: the wake reason is kept for it, and so is its mail.
-/

namespace CloudOS.Process

open Lib.Word (satAdd maxWord)
open CloudOS.Ipc (Message)

/-! ### Runs that go on -/

/-- The moves can follow in a run without parents that has led to `s`. -/
structure Course (s : System) (moves : List Move) : Prop where
  wakeful : ∃ issued, s.Wakeful issued ∧ issued + moves.countP Move.spawns ≤ maxWord
  intact : s.ipc.Intact
  legal : LegalPlay s moves
  named : ∀ move ∈ moves, move.Named

/-- The property holds in every state of the run. -/
def Throughout (P : System → Prop) (s : System) (moves : List Move) : Prop :=
  ∀ before after, moves = before ++ after → P (play s before)

theorem throughout_cons {P : System → Prop} {s : System} {move : Move} {moves : List Move}
    (here : P s) (later : Throughout P (perform s move) moves) :
    Throughout P s (move :: moves) := by
  intro before after split
  cases before with
  | nil => exact here
  | cons first before =>
      obtain ⟨rfl, rfl⟩ := List.cons.inj split
      exact later before after rfl

theorem throughout_nil {P : System → Prop} {s : System} (here : P s) : Throughout P s [] := by
  intro before after split
  rw [(List.append_eq_nil_iff.mp split.symm).1]
  exact here

theorem Throughout.last {P : System → Prop} {s : System} {moves : List Move}
    (throughout : Throughout P s moves) : P (play s moves) :=
  throughout moves [] (List.append_nil moves).symm

/-- The task makes no system call. -/
def Silent (taskId : Nat) (s : System) : List Move → Prop
  | [] => True
  | move :: moves =>
      (move.calls = true → s.currentTask ≠ taskId) ∧ Silent taskId (perform s move) moves

namespace Course

variable {s : System} {move : Move} {moves before after : List Move}

theorem next (course : Course s (move :: moves)) : Course (perform s move) moves := by
  obtain ⟨⟨issued, wakeful, few⟩, intact, ⟨legal, legal'⟩, named⟩ := course
  rw [List.forall_mem_cons] at named
  rw [List.countP_cons] at few
  obtain ⟨issued', -, bound, wakeful'⟩ := perform_wakeful wakeful legal fun spawns => by
    rw [if_pos spawns] at few
    omega
  exact ⟨⟨issued', wakeful', by omega⟩, perform_intact wakeful intact named.1, legal', named.2⟩

theorem right (course : Course s (before ++ after)) : Course (play s before) after := by
  induction before generalizing s with
  | nil => exact course
  | cons move before ih => exact ih course.next

theorem last (course : Course s moves) : Course (play s moves) [] := by
  rw [← List.append_nil moves] at course
  exact course.right

theorem left (course : Course s (before ++ after)) : Course s before := by
  obtain ⟨⟨issued, wakeful, few⟩, intact, legal, named⟩ := course
  rw [List.countP_append] at few
  exact ⟨⟨issued, wakeful, by omega⟩, intact, (legalPlay_append.mp legal).1,
    fun move mem => named move (List.mem_append_left _ mem)⟩

theorem boot (legal : LegalPlay .boot moves) (named : ∀ move ∈ moves, move.Named)
    (few : moves.countP Move.spawns < 2 ^ 64) : Course .boot moves := by
  refine ⟨⟨0, boot_wakeful, ?_⟩, .initial, legal, named⟩
  simp only [maxWord]
  omega

end Course

/-- A task that is gone does not run again. -/
theorem gone_not_current {s : System} {issued taskId : Nat} {moves : List Move}
    (wakeful : s.Wakeful issued) (legal : LegalPlay s moves)
    (few : issued + moves.countP Move.spawns ≤ maxWord) (known : taskId ≠ 0 ∧ taskId ≤ issued)
    (gone : s.Gone taskId) : (play s moves).currentTask ≠ taskId := by
  induction moves generalizing s issued with
  | nil => exact gone.not_current wakeful known.1
  | cons move moves ih =>
      rw [List.countP_cons] at few
      have room : move.spawns = true → issued < maxWord := fun spawns => by
        rw [if_pos spawns] at few
        omega
      obtain ⟨issued', grown, bound, wakeful'⟩ := perform_wakeful wakeful legal.1 room
      exact ih wakeful' legal.2 (by omega) ⟨known.1, known.2.trans grown⟩
        (perform_gone wakeful legal.1 room known gone)

/-- A task that runs again was not ended. -/
theorem Course.without {s : System} {move : Move} {moves : List Move} {i : Fin maxTasks}
    (course : Course s (move :: moves)) (live : (s.table.task i).live = true)
    (silent : move.calls = true → s.currentTask ≠ (s.table.task i).id)
    (resumes : (play (perform s move) moves).currentTask = (s.table.task i).id) :
    move.Without (s.table.task i).id s := by
  cases move with
  | syscall => exact silent rfl
  | exit id exitCode syscallsAfter teardown =>
      intro same
      obtain ⟨issued, wakeful, few⟩ := course.wakeful
      rw [List.countP_cons] at few
      obtain ⟨issued', grown, bound, wakeful'⟩ := perform_wakeful wakeful course.legal.1 nofun
      have gone := System.exit_gone wakeful.agrees id exitCode syscallsAfter teardown
      have ids := Agree.ids wakeful.agrees i (Task.live_iff.mp live).1
      refine gone_not_current wakeful' course.legal.2 (by omega) ⟨?_, ids.2.trans grown⟩ ?_ resumes
      · exact Nat.one_le_iff_ne_zero.mp ids.1
      · rw [← same]
        exact gone
  | _ => trivial

/-! ### Waits over a run -/

/-- The task `taskId` in slot `i` is alive and has this wait. -/
structure Shows (i : Fin maxTasks) (taskId : Nat) (wait : Wait) (s : System) : Prop where
  live : (s.table.task i).live = true
  id : (s.table.task i).id = taskId
  wait : (s.table.task i).wait = wait

/-- One move of others. -/
theorem Course.shows {s : System} {move : Move} {moves : List Move} {i : Fin maxTasks}
    {taskId : Nat} {wait : Wait} (course : Course s (move :: moves))
    (shows_ : Shows i taskId wait s) (silent : Silent taskId s (move :: moves))
    (resumes : (play s (move :: moves)).currentTask = taskId) :
    Shows i taskId wait (perform s move) ∨
      ∃ cause, move.cause = some cause ∧ Ends cause (satAdd s.ticks 1) i s (perform s move) ∧
        Shows i taskId (wait.ended cause) (perform s move) := by
  obtain ⟨live, rfl, rfl⟩ := shows_
  obtain ⟨issued, wakeful, -⟩ := course.wakeful
  have without := course.without live silent.1 resumes
  have bears := perform_bears wakeful course.legal.1 (fun _ => live) without
  have alive := bears.live.trans live
  rcases bears.wait with same | ⟨cause, isCause, ends⟩
  · exact Or.inl ⟨alive, bears.id, same⟩
  · exact Or.inr ⟨cause, isCause, ends, alive, bears.id, ends.wait⟩

/-- What a task that is not blocked has on record stays until it acts. -/
theorem Course.shows_awake {s : System} {moves : List Move} {i : Fin maxTasks} {taskId : Nat}
    {wait : Wait} (course : Course s moves) (shows_ : Shows i taskId wait s)
    (awake : wait.blocked = false) (silent : Silent taskId s moves)
    (resumes : (play s moves).currentTask = taskId) :
    Throughout (Shows i taskId wait) s moves := by
  induction moves generalizing s with
  | nil => exact throughout_nil shows_
  | cons move moves ih =>
      refine throughout_cons shows_ (ih course.next ?_ silent.2 resumes)
      rcases course.shows shows_ silent resumes with same | ⟨cause, -, ends, -⟩
      · exact same
      · have blocked := ends.blocked
        rw [shows_.wait, awake] at blocked
        cases blocked

/-- A wait lasts through the run, or it ends in one of the moves. -/
theorem Course.wait_ends {s : System} {moves : List Move} {i : Fin maxTasks} {taskId : Nat}
    {wait : Wait} (course : Course s moves) (shows_ : Shows i taskId wait s)
    (silent : Silent taskId s moves) (resumes : (play s moves).currentTask = taskId) :
    Throughout (Shows i taskId wait) s moves ∨
    ∃ first wake rest cause, moves = first ++ wake :: rest ∧ wake.cause = some cause ∧
      Throughout (Shows i taskId wait) s first ∧
      Ends cause (satAdd (play s first).ticks 1) i (play s first) (play s (first ++ [wake])) ∧
      Throughout (Shows i taskId (wait.ended cause)) (play s (first ++ [wake])) rest := by
  induction moves generalizing s with
  | nil => exact Or.inl (throughout_nil shows_)
  | cons move moves ih =>
      rcases course.shows shows_ silent resumes with same | ⟨cause, isCause, ends, ended⟩
      · rcases ih course.next same silent.2 resumes with
          lasts | ⟨first, wake, rest, cause, rfl, isCause, lasts, ends, after⟩
        · exact Or.inl (throughout_cons shows_ lasts)
        · exact Or.inr ⟨move :: first, wake, rest, cause, rfl, isCause,
            throughout_cons shows_ lasts, ends, after⟩
      · exact Or.inr ⟨[], move, moves, cause, rfl, isCause, throughout_nil shows_, ends,
          course.next.shows_awake ended rfl silent.2 resumes⟩

/-! ### What is queued meanwhile -/

/-- Until it acts, a task that runs again stays in its slot, and nothing is done to
its queue but sending. -/
structure Spared (i : Fin maxTasks) (taskId : Nat) (s t : System) : Prop where
  live : (t.table.task i).live = true
  id : (t.table.task i).id = taskId
  traffic : Ipc.Traffic (Ipc.Op.Spares taskId) s.ipc t.ipc

/-- A live task that makes no system call is spared until it resumes. -/
theorem Course.spared {s : System} {moves : List Move} {i : Fin maxTasks} {taskId : Nat}
    (course : Course s moves) (live : (s.table.task i).live = true)
    (id : (s.table.task i).id = taskId) (silent : Silent taskId s moves)
    (resumes : (play s moves).currentTask = taskId) :
    Throughout (Spared i taskId s) s moves := by
  induction moves generalizing s with
  | nil => exact throughout_nil ⟨live, id, .refl⟩
  | cons move moves ih =>
      refine throughout_cons ⟨live, id, .refl⟩ ?_
      obtain ⟨issued, wakeful, -⟩ := course.wakeful
      subst id
      have without := course.without live silent.1 resumes
      have bears := perform_bears wakeful course.legal.1 (fun _ => live) without
      have traffic := perform_traffic wakeful course.intact
        (course.named move List.mem_cons_self) without.spares
      intro before after split
      have later := ih course.next (bears.live.trans live) bears.id silent.2 resumes before after
        split
      exact ⟨later.live, later.id, traffic.trans later.traffic⟩

/-- In none of the moves the task receives, or is ended. -/
def AllSpare (taskId : Nat) (s : System) : List Move → Prop
  | [] => True
  | move :: moves => move.Spares taskId s ∧ AllSpare taskId (perform s move) moves

theorem Course.traffic {s : System} {moves : List Move} {taskId : Nat} (course : Course s moves)
    (spare : AllSpare taskId s moves) :
    Ipc.Traffic (Ipc.Op.Spares taskId) s.ipc (play s moves).ipc := by
  induction moves generalizing s with
  | nil => exact .refl
  | cons move moves ih =>
      obtain ⟨issued, wakeful, -⟩ := course.wakeful
      exact (perform_traffic wakeful course.intact (course.named move List.mem_cons_self)
        spare.1).trans (ih course.next spare.2)

/-! ### Deadlines -/

/-- The task waits for a message past its deadline. -/
def Task.Overdue (now : Nat) (task : Task) : Prop :=
  task.state = .blocked ∧ task.ipcWaiting = true ∧ 0 < task.ipcDeadlineTick ∧
    task.ipcDeadlineTick ≤ now

instance (now : Nat) (task : Task) : Decidable (task.Overdue now) :=
  inferInstanceAs (Decidable (_ ∧ _ ∧ _ ∧ _))

namespace System

variable {s : System} {issued : Nat}

/-- Whoever is overdue is woken. -/
theorem expireSlot_tasks (agrees : s.Agrees issued) (now : Nat) (k : Fin maxTasks) :
    ((expireSlot now s k).table.task = s.table.task ∧ ¬ (s.table.task k).Overdue now) ∨
    (expireSlot now s k).table.task =
      Function.update s.table.task k ((s.table.task k).woken .timeout) := by
  have after := s.expireSlot_after now k
  generalize expireSlot now s k = s' at after ⊢
  cases after with
  | keep settled => exact .inl ⟨rfl, settled⟩
  | stuck blocked wakes => exact absurd wakes (agrees.wakeTask_ne blocked)
  | wake =>
      refine .inr ((ProcessTable.task_of_slots (t := s.table) rfl).trans ?_)
      rfl

/-- A slot that is expired is no longer overdue. -/
theorem expireSlot_overdue (agrees : s.Agrees issued) {now : Nat} {k i : Fin maxTasks}
    (overdue : ((expireSlot now s k).table.task i).Overdue now) :
    i ≠ k ∧ (s.table.task i).Overdue now := by
  rcases expireSlot_tasks agrees now k with ⟨same, settled⟩ | woken
  · rw [same] at overdue
    refine ⟨?_, overdue⟩
    rintro rfl
    exact settled overdue
  · rw [woken] at overdue
    by_cases here : i = k
    · rw [here, Function.update_self] at overdue
      cases overdue.1
    · rw [Function.update_of_ne here] at overdue
      exact ⟨here, overdue⟩

/-- After the deadlines are checked no task is overdue. -/
theorem expireIpcDeadlines_none_overdue (agrees : s.Agrees issued) (now : Nat)
    (i : Fin maxTasks) : ¬ ((s.expireIpcDeadlines now).table.task i).Overdue now := by
  -- slots once visited are settled, and stay so
  have visited : ∀ (indices : List (Fin maxTasks)) (s : System), s.Agrees issued →
      ((indices.foldl (expireSlot now) s).table.task i).Overdue now →
        i ∉ indices ∧ (s.table.task i).Overdue now := by
    intro indices
    induction indices with
    | nil => exact fun s _ overdue => ⟨List.not_mem_nil, overdue⟩
    | cons k indices ih =>
        intro s agrees overdue
        obtain ⟨elsewhere, overdue⟩ := ih _ (expireSlot_agrees agrees now k) overdue
        obtain ⟨other, overdue⟩ := expireSlot_overdue agrees overdue
        exact ⟨fun mem => (List.mem_cons.mp mem).elim other elsewhere, overdue⟩
  intro overdue
  exact (visited _ s agrees overdue).1 (List.mem_finRange i)

end System

/-! ### The wait and the endpoint -/

/-- The task is blocked in a receive. -/
def System.InReceive (taskId : Nat) (s : System) : Prop :=
  ∃ i, s.table.findTask taskId = some i ∧ (s.table.task i).state = .blocked ∧
    (s.table.task i).ipcWaiting = true

instance (taskId : Nat) (s : System) : Decidable (s.InReceive taskId) :=
  inferInstanceAs (Decidable (∃ _, _ ∧ _ ∧ _))

section

variable {s : System} {issued taskId : Nat} {i : Fin maxTasks} {wait : Wait}

theorem Shows.findTask (shows_ : Shows i taskId wait s) (agrees : s.Agrees issued) :
    s.table.findTask taskId = some i := by
  rw [← shows_.id]
  exact agrees.findTask (Task.live_iff.mp shows_.live).1

theorem Shows.inReceive (shows_ : Shows i taskId wait s) (wakeful : s.Wakeful issued) :
    s.InReceive taskId ↔ wait.blocked = true := by
  have flag := (wakeful.attuned.fit i).flag
  rw [← shows_.wait, Task.wait_blocked]
  constructor
  · rintro ⟨j, found, blocked, -⟩
    cases (shows_.findTask wakeful.agrees).symm.trans found
    exact blocked
  · exact fun blocked => ⟨i, shows_.findTask wakeful.agrees, blocked, flag.mpr blocked⟩

/-- A task that is blocked is not the current one. -/
theorem Shows.not_blocked (shows_ : Shows i taskId wait s) (wakeful : s.Wakeful issued)
    (current : s.currentTask = taskId) (nonzero : taskId ≠ 0) : wait.blocked = false := by
  obtain ⟨j, found, -, awake⟩ := wakeful.current fun zero => nonzero (current.symm.trans zero)
  rw [show s.scheduler.currentTask = taskId from current] at found
  cases (shows_.findTask wakeful.agrees).symm.trans found
  rw [← Bool.not_eq_true, ← shows_.wait, Task.wait_blocked]
  exact awake

end

theorem Course.throughout {P Q : System → Prop} {s : System} {moves : List Move}
    (course : Course s moves) (throughout : Throughout P s moves)
    (implies : ∀ {t issued}, t.Wakeful issued → P t → Q t) : Throughout Q s moves := by
  intro before after split
  subst split
  obtain ⟨issued, wakeful, -⟩ := course.right.wakeful
  exact implies wakeful (throughout before after rfl)

theorem silent_append {taskId : Nat} {s : System} {before after : List Move} :
    Silent taskId s (before ++ after) ↔
      Silent taskId s before ∧ Silent taskId (play s before) after := by
  induction before generalizing s with
  | nil => exact ⟨fun silent => ⟨trivial, silent⟩, fun both => both.2⟩
  | cons move before ih =>
      change (_ ∧ Silent taskId (perform s move) (before ++ after)) ↔ _
      rw [ih, ← and_assoc]
      rfl

/-! ### A receive from its block to its end -/

/-- A system call of the current task. -/
structure Call where
  memory : UserMemory
  call : Syscall
  arg0 : Nat
  frame : SyscallFrame

namespace Call

def move (call : Call) : Move := .syscall call.memory call.call call.arg0 call.frame

/-- The address space to return to, or 0 for that of the caller. -/
def root (call : Call) (s : System) : Nat :=
  (s.dispatch call.memory call.call call.arg0 call.frame).1

/-- The registers after the call. -/
def result (call : Call) (s : System) : SyscallFrame :=
  (s.dispatch call.memory call.call call.arg0 call.frame).2.1

/-- The same call made again. The address space of the task is still the same,
and what fits into a valid buffer can be copied there. -/
structure Again (first again : Call) : Prop where
  call : again.call = first.call
  arg0 : again.arg0 = first.arg0
  frame : again.frame = first.frame
  valid : again.memory.validateUserBuffer = first.memory.validateUserBuffer
  copies : ∀ {address length : Nat} {bytes : List UInt8},
    again.memory.validateUserBuffer address length true = true → bytes.length ≤ length →
      again.memory.copyToUser address bytes = true

end Call

/-- The call blocks in `s`, and its task runs again after the moves, none of which
is a call of its own. -/
structure Blocks (call : Call) (s : System) (meanwhile : List Move) : Prop where
  switches : call.root s ≠ 0
  silent : Silent s.currentTask (perform s call.move) meanwhile
  resumes : (play (perform s call.move) meanwhile).currentTask = s.currentTask

/-- The task is woken in the move between the two lists and in no other. -/
structure WokenOnce (taskId : Nat) (s : System) (first : List Move) (wake : Move)
    (rest : List Move) (cause : WakeCause) : Prop where
  cause : wake.cause = some cause
  before : Throughout (System.InReceive taskId) s first
  after : Throughout (fun t => ¬ t.InReceive taskId) (play s (first ++ [wake])) rest

/-- What is queued for the task stays queued, attachments aside. -/
def Keeps (taskId : Nat) (s t : System) : Prop :=
  (s.ipc.mail taskId).map Message.bare <+: (t.ipc.mail taskId).map Message.bare

/-- How a call ends that blocked in `s`: woken for the cause by the move `wake`, and
made again after `rest`, with `later` to follow. -/
structure EndsAsWoken (call call' : Call) (s : System) (first : List Move) (wake : Move)
    (rest later : List Move) (cause : WakeCause) : Prop where
  woken : WokenOnce s.currentTask (perform s call.move) first wake rest cause
  returns : call'.root (play (perform s call.move) (first ++ wake :: rest)) = 0
  answers : Answers cause (play (perform s call.move) (first ++ wake :: rest))
    (play (perform s call.move) (first ++ wake :: rest ++ [call'.move])) s.currentTask
    call.frame.capacity (call'.result (play (perform s call.move) (first ++ wake :: rest)))
  due : cause = .expiry → call.call = .receiveTimeout ∧
    min (s.ticks + call.frame.rdx) maxWord ≤
      satAdd (play (perform s call.move) first).ticks 1
  kept : cause ≠ .send → ∀ early late soon more, rest = early ++ late → later = soon ++ more →
    AllSpare s.currentTask (play (perform s call.move) (first ++ wake :: rest ++ [call'.move]))
      soon →
    Keeps s.currentTask (play (perform s call.move) (first ++ wake :: early))
      (play (perform s call.move) (first ++ wake :: rest ++ [call'.move] ++ soon))

theorem Call.Again.takes {call call' : Call} (again : Call.Again call call') {capacity : Nat}
    (valid : call.memory.validateUserBuffer call.arg0 capacity true = true)
    (mail : List Message) : call'.memory.Takes call'.arg0 capacity mail := by
  have valid' : call'.memory.validateUserBuffer call'.arg0 capacity true = true := by
    rw [again.valid, again.arg0]
    exact valid
  refine ⟨valid', fun message _ fits => again.copies valid' ?_⟩
  rw [Message.payload, List.length_take]
  exact (Nat.min_le_left _ _).trans fits

/-- Nothing is queued for a task that is blocked. -/
theorem Shows.holds {s : System} {issued taskId : Nat} {i : Fin maxTasks} {wait : Wait}
    (shows_ : Shows i taskId wait s) (wakeful : s.Wakeful issued) (blocked : wait.blocked = true) :
    s.ipc.Holds taskId := by
  obtain ⟨live, rfl, rfl⟩ := shows_
  obtain ⟨e, inStep⟩ := wakeful.inStep live
  have empty := inStep.empty (Task.wait_blocked.mp blocked)
  refine ⟨e, inStep.endpoint, Ipc.Endpoints.find_eq_some inStep.endpoint, fun message queued => ?_⟩
  rw [Ipc.Endpoint.messages, empty] at queued
  cases queued

/-- A task that runs again after it blocked has been woken. -/
theorem Blocks.woken {call : Call} {s : System} {meanwhile : List Move} {i : Fin maxTasks}
    {wait : Wait} (blocks : Blocks call s meanwhile)
    (course : Course (perform s call.move) meanwhile) (nonzero : s.currentTask ≠ 0)
    (shows_ : Shows i s.currentTask wait (perform s call.move)) (blocked : wait.blocked = true) :
    ∃ first wake rest cause, meanwhile = first ++ wake :: rest ∧
      WokenOnce s.currentTask (perform s call.move) first wake rest cause ∧
      Ends cause (satAdd (play (perform s call.move) first).ticks 1) i
        (play (perform s call.move) first) (play (perform s call.move) (first ++ [wake])) ∧
      Shows i s.currentTask (wait.ended cause)
        (play (perform s call.move) (first ++ wake :: rest)) ∧
      Shows i s.currentTask wait (play (perform s call.move) first) := by
  rcases course.wait_ends shows_ blocks.silent blocks.resumes with
    lasts | ⟨first, wake, rest, cause, rfl, isCause, lasts, ends, ended⟩
  · obtain ⟨issued, wakeful, -⟩ := course.last.wakeful
    have awake := lasts.last.not_blocked wakeful blocks.resumes nonzero
    rw [blocked] at awake
    cases awake
  · have course' : Course (play (perform s call.move) (first ++ [wake])) rest := by
      rw [List.append_cons] at course
      exact course.right
    refine ⟨first, wake, rest, cause, rfl, ⟨isCause, ?_, ?_⟩, ends, ?_, lasts.last⟩
    · exact course.left.throughout lasts fun wakeful shows_ =>
        (shows_.inReceive wakeful).mpr blocked
    · refine course'.throughout ended fun wakeful shows_ inReceive => ?_
      cases (shows_.inReceive wakeful).mp inReceive
    · rw [List.append_cons, play_append]
      exact ended.last

/-- What is queued for a task meanwhile is queued for it when it runs again. -/
theorem Course.mail {s : System} {before after : List Move} {i : Fin maxTasks} {taskId : Nat}
    {wait : Wait} (course : Course s (before ++ after)) (shows_ : Shows i taskId wait s)
    (nonzero : taskId ≠ 0) (holds : s.ipc.Holds taskId)
    (silent : Silent taskId s (before ++ after))
    (resumes : (play s (before ++ after)).currentTask = taskId) :
    (play s (before ++ after)).ipc.Holds taskId ∧
      Keeps taskId (play s before) (play s (before ++ after)) := by
  have spared := course.spared shows_.live shows_.id silent resumes before after rfl
  have holds' := (spared.traffic.mail course.intact nonzero holds).1
  rw [play_append] at resumes ⊢
  have rest := course.right.spared spared.live spared.id (silent_append.mp silent).2 resumes
  exact rest.last.traffic.mail course.right.intact nonzero holds'

theorem due_of_deadline {call : Syscall} {frame : SyscallFrame} {ticks now : Nat}
    (deadline : deadlineTick ticks (call.timeoutTicks frame) ≠ 0)
    (passed : deadlineTick ticks (call.timeoutTicks frame) ≤ now) :
    call = .receiveTimeout ∧ min (ticks + frame.rdx) maxWord ≤ now := by
  cases call with
  | receiveTimeout => exact ⟨rfl, passed⟩
  | _ => exact absurd rfl deadline

theorem Blocks.ends {call call' : Call} {s : System} {meanwhile later : List Move}
    (course : Course s (call.move :: (meanwhile ++ call'.move :: later)))
    (blocks : Blocks call s meanwhile) (again : Call.Again call call') :
    ∃ first wake rest cause, meanwhile = first ++ wake :: rest ∧
      EndsAsWoken call call' s first wake rest later cause := by
  obtain ⟨issued, wakeful, -⟩ := course.wakeful
  obtain ⟨receives, valid, i, live, id, wait⟩ :=
    System.dispatch_blocks wakeful.agrees blocks.switches
  have asleep : Shows i s.currentTask _ (perform s call.move) := ⟨live, id, wait⟩
  obtain ⟨issued', wakeful', -⟩ := course.next.wakeful
  have nonzero : s.currentTask ≠ 0 := by
    rw [← id]
    exact wakeful'.named.nonzero i live
  obtain ⟨first, wake, rest, cause, rfl, woken, ends, ended, waiting⟩ :=
    blocks.woken course.next.left nonzero asleep rfl
  have holds := asleep.holds wakeful' rfl
  have mail : ∀ early late, rest = early ++ late →
      (play (perform s call.move) (first ++ wake :: rest)).ipc.Holds s.currentTask ∧
        Keeps s.currentTask (play (perform s call.move) (first ++ wake :: early))
          (play (perform s call.move) (first ++ wake :: rest)) := by
    rintro early late rfl
    have split : first ++ wake :: (early ++ late) = (first ++ wake :: early) ++ late := by simp
    have course' := course.next.left
    have silent := blocks.silent
    have resumes := blocks.resumes
    rw [split] at course' silent resumes ⊢
    exact course'.mail asleep nonzero holds silent resumes
  have sent : cause = .send →
      (play (perform s call.move) (first ++ wake :: rest)).ipc.mail s.currentTask ≠ [] := by
    intro sends empty
    have queued := ends.mail sends
    have kept := (mail [] rest rfl).2
    unfold Keeps at kept
    rw [empty, List.map_nil, List.prefix_nil, List.map_eq_nil_iff] at kept
    rw [waiting.id] at queued
    exact queued kept
  obtain ⟨issued'', wakeful'', -⟩ := course.next.left.last.wakeful
  have found := ended.findTask wakeful''.agrees
  have reason : ((play (perform s call.move) (first ++ wake :: rest)).table.task i).ipcWakeReason =
      cause.reason := congrArg Wait.wakeReason ended.wait
  have resumed := (mail [] rest rfl).1
  have takes := again.takes valid
    ((play (perform s call.move) (first ++ wake :: rest)).ipc.mail s.currentTask)
  have answered : call'.root (play (perform s call.move) (first ++ wake :: rest)) = 0 ∧
      Answers cause (play (perform s call.move) (first ++ wake :: rest))
        (perform (play (perform s call.move) (first ++ wake :: rest)) call'.move) s.currentTask
        call.frame.capacity
        (call'.result (play (perform s call.move) (first ++ wake :: rest))) := by
    rw [← blocks.resumes] at nonzero found resumed sent takes ⊢
    rw [← again.frame] at takes ⊢
    exact System.dispatch_answers course.next.left.last.intact found nonzero reason resumed sent
      (again.call ▸ receives) takes
  refine ⟨first, wake, rest, cause, rfl, woken, answered.1, ?_, ?_, ?_⟩
  · rw [play_append _ (first ++ wake :: rest)]
    exact answered.2
  · intro expires
    obtain ⟨deadline, passed⟩ := ends.due expires
    rw [waiting.wait] at deadline passed
    exact due_of_deadline deadline passed
  · intro other early late soon more split split' spare
    have kept := answered.2.kept other
    have resuming : Course (play (perform s call.move) (first ++ wake :: rest))
        (call'.move :: later) := course.next.right
    have course' := resuming.next
    rw [split'] at course'
    rw [play_append _ (first ++ wake :: rest)] at spare
    have stays := (course'.left.traffic spare).mail course'.left.intact nonzero
    rw [kept] at stays
    rw [play_append _ (first ++ wake :: rest ++ [call'.move]), play_append _ (first ++ wake :: rest)]
    exact (mail early late split).2.trans (stays resumed).2

/-- In every run with fewer than 2^64 spawns, checking the deadlines leaves no task
overdue, and every receive that blocked ends as its task was woken. -/
theorem receives_end_as_woken (moves : List Move) (legal : LegalPlay .boot moves)
    (named : ∀ move ∈ moves, move.Named) (few : moves.countP Move.spawns < 2 ^ 64) :
    (∀ now i, ¬ (((play .boot moves).expireIpcDeadlines now).table.task i).Overdue now) ∧
    ∀ (before meanwhile later : List Move) (call call' : Call),
      moves = before ++ call.move :: (meanwhile ++ call'.move :: later) →
      Blocks call (play .boot before) meanwhile → Call.Again call call' →
      ∃ first wake rest cause, meanwhile = first ++ wake :: rest ∧
        EndsAsWoken call call' (play .boot before) first wake rest later cause := by
  have course := Course.boot legal named few
  obtain ⟨issued, wakeful, -⟩ := course.last.wakeful
  refine ⟨System.expireIpcDeadlines_none_overdue wakeful.agrees, ?_⟩
  rintro before meanwhile later call call' rfl blocks again
  exact blocks.ends course.right again

/-- Task 1 blocks for a tick, and its deadline passes while task 2 runs. -/
def shortReceive : Call := ⟨blankMemory, .receiveTimeout, 0, { blankFrame with rdx := 1 }⟩

def twoSpawned : List Move := [spawnMove, spawnMove, .markRunning 1 0]

/-- Task 2 waits for a message. -/
def otherReceive : Move := .syscall blankMemory .receive 0 blankFrame

theorem shortReceive_legal : LegalPlay .boot
    (twoSpawned ++ shortReceive.move :: ([.timer none, otherReceive] ++ [shortReceive.move])) := by
  refine ⟨spawnMove_legal _, spawnMove_legal _, ⟨?_, 0, ?_, ?_⟩, trivial, trivial, trivial, trivial,
    trivial⟩
  all_goals decide +kernel

theorem shortReceive_blocks :
    Blocks shortReceive (play .boot twoSpawned) [.timer none, otherReceive] := by
  refine ⟨?_, ⟨nofun, fun _ => ?_, trivial⟩, ?_⟩
  all_goals decide +kernel

theorem receives_end_as_woken_shortReceive :
    ∃ first wake rest cause, [.timer none, otherReceive] = first ++ wake :: rest ∧
      EndsAsWoken shortReceive shortReceive (play .boot twoSpawned) first wake rest [] cause := by
  refine (receives_end_as_woken _ shortReceive_legal ?_ (by decide)).2 twoSpawned _ []
    shortReceive shortReceive rfl shortReceive_blocks ⟨rfl, rfl, rfl, rfl, fun _ _ => rfl⟩
  intro move mem
  fin_cases mem
  all_goals trivial

/-! ### A deadline that saturates -/

namespace System

variable {s : System}

theorem expireSlot_of_not_overdue {now : Nat} {k : Fin maxTasks}
    (settled : ¬ (s.table.task k).Overdue now) : expireSlot now s k = s := by
  unfold expireSlot
  dsimp only
  rw [if_pos]
  by_contra due
  simp only [Bool.or_eq_true, bne_iff_ne, Bool.not_eq_true', beq_iff_eq, decide_eq_true_eq,
    not_or, not_not, Nat.not_lt, Bool.not_eq_false] at due
  obtain ⟨⟨⟨blocked, waiting⟩, deadline⟩, passed⟩ := due
  exact settled ⟨blocked, waiting, Nat.pos_of_ne_zero deadline, passed⟩

theorem expireIpcDeadlines_of_none_overdue {now : Nat}
    (settled : ∀ k, ¬ (s.table.task k).Overdue now) : s.expireIpcDeadlines now = s := by
  unfold expireIpcDeadlines
  generalize List.finRange maxTasks = indices
  induction indices with
  | nil => rfl
  | cons k indices ih =>
      rw [List.foldl_cons, expireSlot_of_not_overdue (settled k)]
      exact ih

/-- The state `n` ticks later, if the running task is left alone. -/
def idled (s : System) (n : Nat) : System :=
  { s with
    ticks := s.ticks + n
    scheduler := { s.scheduler with
      timerTicks := satAdd s.scheduler.timerTicks n
      accountedTicks := satAdd s.scheduler.accountedTicks n
      sliceTicks := satAdd s.scheduler.sliceTicks n } }

theorem idled_idled (s : System) (m n : Nat) : (s.idled m).idled n = s.idled (m + n) := by
  simp only [idled, Lib.Word.satAdd_satAdd, Nat.add_assoc]

/-- A task runs, and the statistics of the scheduler are words. -/
structure Busy (s : System) : Prop where
  initialized : s.scheduler.initialized = true
  running : s.scheduler.currentTask ≠ 0
  timerTicks : s.scheduler.timerTicks ≤ maxWord
  accountedTicks : s.scheduler.accountedTicks ≤ maxWord
  sliceTicks : s.scheduler.sliceTicks ≤ maxWord

theorem Busy.idled (busy : s.Busy) (n : Nat) : (s.idled n).Busy :=
  ⟨busy.initialized, busy.running, Lib.Word.satAdd_le .., Lib.Word.satAdd_le ..,
    Lib.Word.satAdd_le ..⟩

/-- A tick that finds nothing overdue only moves the clock. -/
theorem timer_idled (busy : s.Busy) (room : s.ticks + 1 ≤ maxWord)
    (settled : ∀ k, ¬ (s.table.task k).Overdue (s.ticks + 1)) :
    perform s (.timer none) = s.idled 1 := by
  change (s.timerInterruptHandler none).2.2 = _
  unfold timerInterruptHandler Scheduler.onTimerTick
  dsimp only
  have fits : s.ticks + 1 < 2 ^ 64 := by
    rw [maxWord] at room
    omega
  rw [if_pos busy.initialized, if_pos busy.running, Lib.Word.satAdd_of_le room,
    Nat.mod_eq_of_lt fits]
  exact expireIpcDeadlines_of_none_overdue (s := s.idled 1) settled

/-- Until a deadline passes timer interrupts only count. -/
theorem play_idled (busy : s.Busy) {n : Nat} (room : s.ticks + n ≤ maxWord)
    (settled : ∀ k, ¬ (s.table.task k).Overdue (s.ticks + n)) :
    play s (List.replicate n (.timer none)) = s.idled n := by
  induction n generalizing s with
  | zero =>
      unfold idled
      rw [Lib.Word.satAdd_zero busy.timerTicks, Lib.Word.satAdd_zero busy.accountedTicks,
        Lib.Word.satAdd_zero busy.sliceTicks]
      rfl
  | succ n ih =>
      have settled' : ∀ k, ¬ (s.table.task k).Overdue (s.ticks + 1) := fun k overdue =>
        settled k ⟨overdue.1, overdue.2.1, overdue.2.2.1, overdue.2.2.2.trans (by omega)⟩
      have later : (s.idled 1).ticks + n = s.ticks + (n + 1) := by
        change s.ticks + 1 + n = _
        omega
      have first : perform s (.timer none) = s.idled 1 := timer_idled busy (by omega) settled'
      have rest := ih (busy.idled 1) (by rwa [later]) (by
        rw [later]
        exact settled)
      rw [List.replicate_succ, play, List.foldl_cons, first]
      rw [play, idled_idled, Nat.add_comm 1 n] at rest
      exact rest

end System

theorem timers_silent (taskId : Nat) (s : System) (n : Nat) :
    Silent taskId s (List.replicate n (.timer none)) := by
  induction n generalizing s with
  | zero => trivial
  | succ n ih => exact ⟨nofun, ih _⟩

theorem timers_legal (s : System) (n : Nat) : LegalPlay s (List.replicate n (.timer none)) := by
  induction n generalizing s with
  | zero => trivial
  | succ n ih => exact ⟨trivial, ih _⟩

/-- Task 1 asks for the longest timeout, at tick 1. -/
def longReceive : Call := ⟨blankMemory, .receiveTimeout, 0, { blankFrame with rdx := maxWord }⟩

def tickedMoves : List Move := .timer none :: twoSpawned

/-- Task 2 runs until the last tick but one. -/
def longIdle : List Move := List.replicate (2 ^ 64 - 3) (.timer none)

def longAsleep : System := perform (play .boot tickedMoves) longReceive.move

/-- By induction over the ticks. -/
theorem longAsleep_idled {n : Nat} (bound : n ≤ 2 ^ 64 - 3) :
    play longAsleep (List.replicate n (.timer none)) = longAsleep.idled n := by
  have ticks : longAsleep.ticks = 1 := by decide +kernel
  have busy : longAsleep.Busy := by
    constructor
    all_goals decide +kernel
  have settled : ∀ k, ¬ (longAsleep.table.task k).Overdue (2 ^ 64 - 2) := by decide +kernel
  refine System.play_idled busy ?_ fun k overdue => settled k ?_
  · rw [ticks, maxWord]
    omega
  · rw [ticks] at overdue
    exact ⟨overdue.1, overdue.2.1, overdue.2.2.1, overdue.2.2.2.trans (by omega)⟩

/-- The deadline is the last tick there is, and comes before the timeout is over. -/
theorem longReceive_expires_early :
    LegalPlay .boot (tickedMoves ++ longReceive.move :: (longIdle ++ [.timer none, otherReceive])) ∧
    Blocks longReceive (play .boot tickedMoves) (longIdle ++ [.timer none, otherReceive]) ∧
    WokenOnce (play .boot tickedMoves).currentTask longAsleep longIdle (.timer none) [otherReceive]
      .expiry ∧
    satAdd (play longAsleep longIdle).ticks 1 <
      (play .boot tickedMoves).ticks + longReceive.frame.rdx := by
  have current : (play .boot tickedMoves).currentTask = 1 := by decide +kernel
  have idle : play longAsleep longIdle = longAsleep.idled (2 ^ 64 - 3) := longAsleep_idled le_rfl
  have woken : ¬ (play (longAsleep.idled (2 ^ 64 - 3)) [.timer none]).InReceive 1 := by
    decide +kernel
  have after : ¬ (play (longAsleep.idled (2 ^ 64 - 3)) [.timer none, otherReceive]).InReceive 1 := by
    decide +kernel
  have resumes : (play (longAsleep.idled (2 ^ 64 - 3)) [.timer none, otherReceive]).currentTask =
      1 := by decide +kernel
  have other : (perform (longAsleep.idled (2 ^ 64 - 3)) (.timer none)).currentTask ≠ 1 := by
    decide +kernel
  rw [current]
  refine ⟨?_, ⟨?_, ?_, ?_⟩, ⟨rfl, ?_, ?_⟩, ?_⟩
  · refine ⟨trivial, spawnMove_legal _, spawnMove_legal _, ⟨?_, 0, ?_, ?_⟩, trivial, ?_⟩
    · decide +kernel
    · decide +kernel
    · decide +kernel
    · exact legalPlay_append.mpr ⟨timers_legal _ _, trivial, trivial, trivial⟩
  · decide +kernel
  · rw [current]
    refine silent_append.mpr ⟨timers_silent _ _ _, nofun, fun _ => ?_, trivial⟩
    rw [show perform _ longReceive.move = longAsleep from rfl, idle]
    exact other
  · rw [current, show perform _ longReceive.move = longAsleep from rfl, play_append, idle]
    exact resumes
  · rintro first rest split
    obtain ⟨length, isFirst, -⟩ := List.append_eq_replicate_iff.mp split.symm
    rw [isFirst, longAsleep_idled (by omega)]
    have asleep : longAsleep.InReceive 1 := by decide +kernel
    exact asleep
  · rw [play_append, idle]
    refine throughout_cons woken (throughout_nil ?_)
    exact after
  · rw [idle]
    decide +kernel

end CloudOS.Process
