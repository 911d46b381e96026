import CloudOS.Process.Lineage
import CloudOS.Process.Reachable

/-!
Every exit is collected at most once, and by the parent.

The invariant ties the table to what was reported so far: the spawn of every task in
it, the last exit of every exited one, the cleanup of every clean one. What has been
collected is not in the table, and its id never comes back.
-/

namespace CloudOS.Process

open Lib.Word (maxWord)

/-! ### Histories -/

/-- What the steps of a run report, oldest first. -/
def history (s : System) : List Op → List Event
  | [] => []
  | op :: ops => (s.event op).toList ++ history (step s op) ops

/-- The exit code, if the event is an exit of the task. -/
def Event.exitOf (id : Nat) : Event → Option Nat
  | exited id' exitCode => if id' = id then some exitCode else none
  | _ => none

/-- Whether the event is the collection of the task. -/
def Event.reaps (id : Nat) : Event → Bool
  | reaped _ _ id' _ => id' == id
  | _ => false

/-- The code of the last exit of the task. -/
def lastExit (events : List Event) (id : Nat) : Option Nat :=
  events.reverse.findSome? (Event.exitOf id)

/-- How often the task was collected. -/
def timesReaped (events : List Event) (id : Nat) : Nat := events.countP (Event.reaps id)

theorem lastExit_append (events : List Event) (event : Event) (id : Nat) :
    lastExit (events ++ [event]) id = (event.exitOf id).or (lastExit events id) := by
  unfold lastExit
  rw [List.reverse_append, List.reverse_singleton, List.singleton_append, List.findSome?_cons]
  cases event.exitOf id with
  | none => rfl
  | some exitCode => rfl

theorem timesReaped_append (events : List Event) (event : Event) (id : Nat) :
    timesReaped (events ++ [event]) id = timesReaped events id + if event.reaps id then 1 else 0 := by
  unfold timesReaped
  rw [List.countP_append, List.countP_singleton]

/-- A task that was never reaped is counted zero times. -/
theorem timesReaped_eq_zero {events : List Event} {id : Nat}
    (never : ∀ parentId childId exitCode, .reaped parentId childId id exitCode ∉ events) :
    timesReaped events id = 0 := by
  refine List.countP_eq_zero.mpr fun event mem reaps => ?_
  cases event with
  | reaped parentId childId id' exitCode =>
      have same : id' = id := by simpa [Event.reaps] using reaps
      exact never parentId childId exitCode (same ▸ mem)
  | spawned => cases reaps
  | exited => cases reaps
  | cleaned => cases reaps

/-! ### The table and its history -/

/-- The table shows what was reported, and nothing that was collected. -/
structure Recorded (t : ProcessTable) (issued : Nat) (events : List Event) : Prop where
  parents : ∀ i, (t.task i).state ≠ .empty → .spawned (t.task i).id (t.task i).parentId ∈ events
  codes : ∀ i, (t.task i).state = .exited → lastExit events (t.task i).id = some (t.task i).exitCode
  cleaned : ∀ i, (t.task i).state ≠ .empty → (t.task i).cleanupComplete = true →
    .cleaned (t.task i).id ∈ events
  gone : ∀ parentId childId id exitCode, .reaped parentId childId id exitCode ∈ events →
    id ≤ issued ∧ ∀ i, (t.task i).state ≠ .empty → (t.task i).id ≠ id
  once : ∀ id, timesReaped events id ≤ 1

/-- The task was there before with the same record, a new cleanup aside. -/
structure Task.Retained (events : List Event) (task task' : Task) : Prop where
  occupied : task.state ≠ .empty
  id : task'.id = task.id
  parent : task'.parentId = task.parentId
  exited : task'.state = .exited → task.state = .exited ∧ task'.exitCode = task.exitCode
  complete : task'.cleanupComplete = true → task.cleanupComplete = true ∨ .cleaned task.id ∈ events

theorem Task.Continues.retained {task task' : Task} (continues : task.Continues task')
    (occupied : task'.state ≠ .empty) (events : List Event) : task.Retained events task' where
  occupied := fun empty => occupied (continues.empty.mpr empty)
  id := continues.id
  parent := continues.parent
  exited := fun exited => by
    refine ⟨?_, continues.exitCode⟩
    by_contra alive
    have live := continues.live
      (Task.live_iff.mpr ⟨fun empty => occupied (continues.empty.mpr empty), alive⟩)
    exact (Task.live_iff.mp live).2 exited
  complete := fun complete => Or.inl (continues.complete ▸ complete)

namespace Recorded

variable {t t' : ProcessTable} {issued issued' : Nat} {events : List Event}

/-- Every task of the new table was there before. -/
theorem retain (recorded : Recorded t issued events) (later : issued ≤ issued')
    (retained : ∀ i, (t'.task i).state ≠ .empty → (t.task i).Retained events (t'.task i)) :
    Recorded t' issued' events where
  parents := fun i occupied => by
    have kept := retained i occupied
    rw [kept.id, kept.parent]
    exact recorded.parents i kept.occupied
  codes := fun i exited => by
    have kept := retained i (by simp [exited])
    obtain ⟨exited', code⟩ := kept.exited exited
    rw [kept.id, code]
    exact recorded.codes i exited'
  cleaned := fun i occupied complete => by
    have kept := retained i occupied
    rw [kept.id]
    exact (kept.complete complete).elim (recorded.cleaned i kept.occupied) id
  gone := fun parentId childId id exitCode mem => by
    obtain ⟨old, absent⟩ := recorded.gone parentId childId id exitCode mem
    refine ⟨old.trans later, fun i occupied => ?_⟩
    have kept := retained i occupied
    rw [kept.id]
    exact absent i kept.occupied
  once := recorded.once

/-- A report that is no exit of an exited task and no collection. -/
theorem report (recorded : Recorded t issued events) {event : Event}
    (quiet : ∀ i, (t.task i).state = .exited → event.exitOf (t.task i).id = none)
    (calm : ∀ id, event.reaps id = false) : Recorded t issued (events ++ [event]) where
  parents := fun i occupied => List.mem_append_left _ (recorded.parents i occupied)
  codes := fun i exited => by
    rw [lastExit_append, quiet i exited]
    exact recorded.codes i exited
  cleaned := fun i occupied complete =>
    List.mem_append_left _ (recorded.cleaned i occupied complete)
  gone := fun parentId childId id exitCode mem => by
    rcases List.mem_append.mp mem with old | new
    · exact recorded.gone parentId childId id exitCode old
    · have reaps := calm id
      rw [← List.mem_singleton.mp new] at reaps
      simp [Event.reaps] at reaps
  once := fun id => by
    rw [timesReaped_append, calm id]
    exact recorded.once id

/-- A new task takes a slot. -/
theorem install (recorded : Recorded t issued events) {k : Fin maxTasks} {task : Task}
    (tasks : t'.task = Function.update t.task k task)
    (spawned : .spawned task.id task.parentId ∈ events) (alive : task.state ≠ .exited)
    (dirty : task.cleanupComplete = false) (new : issued < task.id) (later : issued ≤ issued') :
    Recorded t' issued' events where
  parents := fun i occupied => by
    rw [tasks] at occupied ⊢
    by_cases here : i = k
    · rwa [here, Function.update_self]
    · rw [Function.update_of_ne here] at occupied ⊢
      exact recorded.parents i occupied
  codes := fun i exited => by
    rw [tasks] at exited ⊢
    by_cases here : i = k
    · rw [here, Function.update_self] at exited
      exact absurd exited alive
    · rw [Function.update_of_ne here] at exited ⊢
      exact recorded.codes i exited
  cleaned := fun i occupied complete => by
    rw [tasks] at occupied complete ⊢
    by_cases here : i = k
    · rw [here, Function.update_self, dirty] at complete
      cases complete
    · rw [Function.update_of_ne here] at occupied complete ⊢
      exact recorded.cleaned i occupied complete
  gone := fun parentId childId id exitCode mem => by
    obtain ⟨old, absent⟩ := recorded.gone parentId childId id exitCode mem
    refine ⟨old.trans later, fun i occupied => ?_⟩
    rw [tasks] at occupied ⊢
    by_cases here : i = k
    · rw [here, Function.update_self]
      omega
    · rw [Function.update_of_ne here] at occupied ⊢
      exact absent i occupied
  once := recorded.once

/-- A task ends, and its exit is reported. -/
theorem exit (recorded : Recorded t issued events) {k : Fin maxTasks} {exitCode : Nat}
    (occupied : (t.task k).state ≠ .empty)
    (distinct : ∀ i ≠ k, (t.task i).state ≠ .empty → (t.task k).id ≠ (t.task i).id)
    (ended : System.Exited exitCode (t.task k) (t'.task k))
    (others : ∀ i ≠ k, (t.task i).Continues (t'.task i)) (later : issued ≤ issued') :
    Recorded t' issued' (events ++ [.exited (t.task k).id exitCode]) where
  parents := fun i occupiedI => by
    refine List.mem_append_left _ ?_
    by_cases here : i = k
    · rw [here, ended.id, ended.parent]
      exact recorded.parents k occupied
    · have kept := (others i here).retained occupiedI events
      rw [kept.id, kept.parent]
      exact recorded.parents i kept.occupied
  codes := fun i exited => by
    rw [lastExit_append]
    by_cases here : i = k
    · simp [here, ended.id, ended.exitCode, Event.exitOf]
    · have kept := (others i here).retained (by simp [exited]) events
      obtain ⟨exited', code⟩ := kept.exited exited
      rw [kept.id, code]
      have quiet : Event.exitOf (t.task i).id (.exited (t.task k).id exitCode) = none :=
        if_neg (distinct i here kept.occupied)
      rw [quiet]
      exact recorded.codes i exited'
  cleaned := fun i occupiedI complete => by
    refine List.mem_append_left _ ?_
    by_cases here : i = k
    · rw [here, ended.complete] at complete
      rw [here, ended.id]
      exact recorded.cleaned k occupied complete
    · have kept := (others i here).retained occupiedI events
      rw [kept.id]
      exact (kept.complete complete).elim (recorded.cleaned i kept.occupied) id
  gone := fun parentId childId id exitCode mem => by
    have old : .reaped parentId childId id exitCode ∈ events := by simpa using mem
    obtain ⟨bound, absent⟩ := recorded.gone parentId childId id exitCode old
    refine ⟨bound.trans later, fun i occupiedI => ?_⟩
    by_cases here : i = k
    · rw [here, ended.id]
      exact absent k occupied
    · have kept := (others i here).retained occupiedI events
      rw [kept.id]
      exact absent i kept.occupied
  once := fun id => by
    rw [timesReaped_append]
    exact recorded.once id

/-- A task that left the table is reported as collected. -/
theorem collect (recorded : Recorded t issued events) {parentId childId id exitCode : Nat}
    (old : id ≤ issued) (absent : ∀ i, (t.task i).state ≠ .empty → (t.task i).id ≠ id)
    (never : timesReaped events id = 0) :
    Recorded t issued (events ++ [.reaped parentId childId id exitCode]) where
  parents := fun i occupied => List.mem_append_left _ (recorded.parents i occupied)
  codes := fun i exited => by
    rw [lastExit_append]
    exact recorded.codes i exited
  cleaned := fun i occupied complete =>
    List.mem_append_left _ (recorded.cleaned i occupied complete)
  gone := fun parentId' childId' id' exitCode' mem => by
    rcases List.mem_append.mp mem with before | new
    · exact recorded.gone parentId' childId' id' exitCode' before
    · cases List.mem_singleton.mp new
      exact ⟨old, absent⟩
  once := fun id' => by
    rw [timesReaped_append]
    by_cases same : id = id'
    · rw [← same, never]
      split
      · exact le_rfl
      · exact Nat.zero_le 1
    · rw [if_neg (by simpa [Event.reaps] using same)]
      exact recorded.once id'

end Recorded

/-- Only a spawn reports one. -/
theorem System.event_spawned {s : System} {op : Op} {id parentId : Nat}
    (spawns : s.event op = some (.spawned id parentId)) : op.spawns = true := by
  cases op with
  | spawnElfChild | spawnPreemptTask | spawnLegacy => rfl
  | markExited =>
      unfold System.event at spawns
      dsimp only at spawns
      split at spawns
      · cases spawns
      · cases spawns
  | cleanupTask =>
      unfold System.event at spawns
      dsimp only at spawns
      split at spawns
      · cases spawns
      · cases spawns
  | waitChild =>
      unfold System.event at spawns
      dsimp only at spawns
      split at spawns
      · cases spawns
      · cases spawns
  | _ => cases spawns

/-- What one step adds to the history. -/
theorem recorded_step {s : System} {issued issued' : Nat} {events : List Event}
    (agrees : s.Agrees issued) (recorded : Recorded s.table issued events) {op : Op}
    (later : issued ≤ issued') (few : op.spawns = true → issued < maxWord) :
    Recorded (step s op).table issued' (events ++ (s.event op).toList) := by
  have account := s.step_account op
  generalize step s op = s' at account
  generalize seen : s.event op = event at account
  cases account with
  | continues continues =>
      rw [Option.toList_none, List.append_nil]
      exact recorded.retain later fun i occupied => (continues i).retained occupied events
  | recleaned id continues =>
      rw [Option.toList_some]
      exact (recorded.report (fun _ _ => rfl) fun _ => rfl).retain later
        fun i occupied => (continues i).retained occupied _
  | @spawned k slot parentId heapAllocation image free parent fresh slots =>
      rw [Option.toList_some]
      have room := few (System.event_spawned seen)
      have next : s.table.nextTaskId = issued + 1 := by
        rw [Agree.next agrees]
        omega
      refine (recorded.report (fun _ _ => rfl) fun _ => rfl).install
        (ProcessTable.task_of_slots slots) ?_ ?_ ?_ ?_ later
      · exact List.mem_append_right _ List.mem_cons_self
      · rw [fresh]
        exact nofun
      · rw [fresh]
        rfl
      · rw [fresh]
        change issued < s.table.nextTaskId
        omega
  | @exited id exitCode k found ended others =>
      obtain ⟨occupied, rfl⟩ := ProcessTable.findTask_eq_some found
      rw [Option.toList_some]
      refine recorded.exit occupied (fun i other occupiedI same => ?_) ended others later
      exact other (Agree.distinct agrees i k occupiedI occupied same.symm)
  | @cleaned id complete k task found released tasks =>
      obtain ⟨occupied, rfl⟩ := ProcessTable.findTask_eq_some found
      have kept : ∀ past : List Event, (complete = true → .cleaned (s.table.task k).id ∈ past) →
          ∀ i, (s'.table.task i).state ≠ .empty →
            (s.table.task i).Retained past (s'.table.task i) := by
        intro past reported i occupiedI
        rw [tasks] at occupiedI ⊢
        by_cases here : i = k
        · rw [here, Function.update_self]
          exact ⟨occupied, released.id, released.parent,
            fun exited => ⟨released.state ▸ exited, released.exitCode⟩,
            fun clean => Or.inr (reported (released.complete ▸ clean))⟩
        · rw [Function.update_of_ne here] at occupiedI ⊢
          exact (Task.Continues.refl _).retained occupiedI past
      cases complete with
      | false =>
          rw [if_neg (by decide), Option.toList_none, List.append_nil]
          exact recorded.retain later (kept events nofun)
      | true =>
          rw [if_pos rfl, Option.toList_some]
          exact (recorded.report (fun _ _ => rfl) fun _ => rfl).retain later
            (kept _ fun _ => List.mem_append_right _ List.mem_cons_self)
  | @reaped parentId childId k found exited inactive complete slots =>
      rw [Option.toList_some]
      have occupied : (s.table.task k).state ≠ .empty := by simp [exited]
      have tasks := ProcessTable.task_of_slots slots
      have elsewhere : ∀ i, (s'.table.task i).state ≠ .empty →
          i ≠ k ∧ s'.table.task i = s.table.task i := by
        intro i occupiedI
        have other : i ≠ k := by
          rintro rfl
          rw [tasks, Function.update_self] at occupiedI
          exact occupiedI rfl
        exact ⟨other, by rw [tasks, Function.update_of_ne other]⟩
      have kept : Recorded s'.table issued' events := by
        refine recorded.retain later fun i occupiedI => ?_
        obtain ⟨-, same⟩ := elsewhere i occupiedI
        rw [same] at occupiedI ⊢
        exact (Task.Continues.refl _).retained occupiedI events
      refine kept.collect ((Agree.ids agrees k occupied).2.trans later) (fun i occupiedI id => ?_) ?_
      · obtain ⟨other, same⟩ := elsewhere i occupiedI
        rw [same] at occupiedI id
        exact other (Agree.distinct agrees i k occupiedI occupied id)
      · exact timesReaped_eq_zero fun p c code mem =>
          (recorded.gone p c _ code mem).2 k occupied rfl

/-- By induction over the run: the table agrees with what was recorded. -/
theorem run_recorded {s : System} {issued : Nat} {events : List Event} (agrees : s.Agrees issued)
    (recorded : Recorded s.table issued events) (ops : List Op)
    (few : issued + spawnCount ops ≤ maxWord) :
    ∃ issued', (run s ops).Agrees issued' ∧
      Recorded (run s ops).table issued' (events ++ history s ops) := by
  induction ops generalizing s issued events with
  | nil =>
      rw [history, List.append_nil]
      exact ⟨issued, agrees, recorded⟩
  | cons op ops ih =>
      have count : spawnCount (op :: ops) = spawnCount ops + if op.spawns then 1 else 0 :=
        List.countP_cons
      rw [count] at few
      have room : op.spawns = true → issued < maxWord := fun spawns => by
        rw [if_pos spawns] at few
        omega
      obtain ⟨issued₁, bound₁, later, agrees₁⟩ := step_agrees agrees op room
      rw [run_cons, history, ← List.append_assoc]
      exact ih agrees₁ (recorded_step agrees recorded later room) (by omega)

/-! ### The result -/

/-- The child that is found belongs to the parent and is the one asked for. -/
theorem ProcessTable.findChild_matches {t : ProcessTable} {parentId childId : Nat}
    {k : Fin maxTasks} (found : t.findChild parentId childId = some k) :
    (t.task k).parentId = parentId ∧ (childId ≠ 0 → (t.task k).id = childId) := by
  have matched : t.matchesChild parentId childId k = true := by
    unfold findChild at found
    split at found
    · rename_i first
      have candidate := Lib.Scan.first_eq_some first
      simp only [Bool.and_eq_true] at candidate
      cases found
      exact candidate.1.1
    · exact Lib.Scan.first_eq_some found
  unfold matchesChild at matched
  simp only [Bool.and_eq_true, Bool.or_eq_true, beq_iff_eq] at matched
  exact ⟨matched.1.2, fun named => matched.2.resolve_left named⟩

/-- `wait_child` collected a child: a task that was spawned with the caller as its
parent, that matches the request, exited and was cleaned up. The result carries the
code of its last exit, and only its slot is different afterwards. -/
structure Collects (s : System) (events : List Event) (parentId childId : Nat)
    (result : WaitResult) (s' : System) : Prop where
  spawned : .spawned result.childId parentId ∈ events
  requested : childId ≠ 0 → result.childId = childId
  exited : lastExit events result.childId = some result.exitCode
  cleaned : .cleaned result.childId ∈ events
  emptied : ∃ k, (s.table.task k).state = .exited ∧ (s.table.task k).id = result.childId ∧
    s'.table.slots = Function.update s.table.slots k ProcessSlot.empty

/-- In every run with fewer than 2^64 - 1 spawns: each exit is collected at most
once, by the parent, with the code of the last exit; and no spawn touches an exited
task whose parent is alive. -/
theorem exits_collected_once (ops : List Op) (few : spawnCount ops < 2 ^ 64 - 1) :
    (∀ parentId childId, ((run .boot ops).waitChild parentId childId).1.reaped = true →
      Collects (run .boot ops) (history .boot ops) parentId childId
        ((run .boot ops).waitChild parentId childId).1
        ((run .boot ops).waitChild parentId childId).2) ∧
    (∀ id, timesReaped (history .boot ops) id ≤ 1) ∧
    ∀ op : Op, op.spawns = true → ∀ k j, ((run .boot ops).table.task k).state = .exited →
      ((run .boot ops).table.task j).live = true →
      ((run .boot ops).table.task j).id = ((run .boot ops).table.task k).parentId →
      (step (run .boot ops) op).table.slots k = (run .boot ops).table.slots k := by
  have start : Recorded System.boot.table 0 [] :=
    ⟨fun _ occupied => absurd rfl occupied, fun _ exited => (by cases exited),
      fun _ occupied => absurd rfl occupied, fun _ _ _ _ mem => (by cases mem),
      fun _ => Nat.zero_le 1⟩
  obtain ⟨issued, agrees, recorded⟩ := run_recorded boot_agrees start ops (by
    simp only [maxWord]
    omega)
  rw [List.nil_append] at recorded
  generalize run .boot ops = s at *
  refine ⟨fun parentId childId reaped => ?_, recorded.once,
    fun op spawns k j exited live parent => ?_⟩
  · rcases s.waitChild_lineage parentId childId with ⟨idle, -⟩ |
      ⟨k, found, exited, inactive, complete, -, id, code, slots⟩
    · rw [idle] at reaped
      cases reaped
    · have occupied : (s.table.task k).state ≠ .empty := by simp [exited]
      obtain ⟨isParent, named⟩ := ProcessTable.findChild_matches found
      refine ⟨?_, fun request => ?_, ?_, ?_, k, exited, id.symm, slots⟩
      · rw [id]
        exact isParent ▸ recorded.parents k occupied
      · rw [id]
        exact named request
      · rw [id, code]
        exact recorded.codes k exited
      · rw [id]
        exact recorded.cleaned k occupied complete
  · -- only a slot without a parent is handed out
    have untouched : ∀ {parentId : Nat} {result : Option Task × System},
        System.SpawnResult s parentId result → result.2.table.slots k = s.table.slots k := by
      intro parentId result spawns'
      cases spawns' with
      | failed slots => exact congrFun slots k
      | @filled s' k' slot heapAllocation image free fresh slots =>
          have other : k ≠ k' := by
            rintro rfl
            have reusable := Lib.Scan.first_eq_some free
            simp only [exited, Bool.or_eq_true, Bool.and_eq_true, beq_iff_eq] at reusable
            rcases reusable with empty | ⟨-, orphan⟩
            · cases empty
            · have positive := (Agree.ids agrees j (Task.live_iff.mp live).1).1
              omega
          change s'.table.slots k = s.table.slots k
          rw [slots, Function.update_of_ne other]
    cases op with
    | spawnElfChild parentId image heap =>
        exact untouched (s.spawnElfChild_lineage parentId image heap).1
    | spawnPreemptTask image executable heap =>
        exact untouched (s.spawnPreemptTask_lineage image executable heap)
    | spawnLegacy entryPoint stackTop heap => exact untouched (s.spawnImage_lineage 0 _ heap)
    | _ => cases spawns

/-- Task 2 exits twice and is cleaned up; then its parent, task 1, waits. -/
def collectRun : List Op :=
  [.spawnElfChild 0 (some someImage) (some 64), .spawnElfChild 1 (some someImage) (some 128),
    .markExited 2 7 0, .markExited 2 8 0, .cleanupTask 2 ⟨true, some (4, 4, true)⟩]

theorem exits_collected_once_collectRun :
    ((run .boot collectRun).waitChild 1 0).1 = ⟨true, false, true, 2, 8⟩ ∧
      Collects (run .boot collectRun) (history .boot collectRun) 1 0
        ((run .boot collectRun).waitChild 1 0).1 ((run .boot collectRun).waitChild 1 0).2 :=
  ⟨by decide +kernel, (exits_collected_once collectRun (by decide +kernel)).1 1 0 (by decide +kernel)⟩

end CloudOS.Process
