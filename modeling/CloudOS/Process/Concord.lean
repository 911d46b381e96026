import CloudOS.Ipc.Mailbox
import CloudOS.Process.Reachable

/-!
Process table, scheduler and endpoint table say the same about every task.

The state of a task is its place in the scheduler, and a task has an endpoint
exactly as long as it holds resources. The three tables have the same number of
entries, so a free slot comes with a free endpoint and with room in the queue.
-/

namespace CloudOS.Process

open Lib.Word (maxWord)
open CloudOS.Ipc (Endpoint IpcState Mailbox maxEndpoints)

/-! ### Places -/

/-- Ready tasks are queued and a running task is the current one. Empty slots
carry no id. -/
structure Seated (scheduler : Scheduler) (tasks : Fin maxTasks → Task) : Prop where
  ready : ∀ i, (tasks i).state = .ready → (tasks i).id ∈ scheduler.queued
  running : ∀ i, (tasks i).state = .running → (tasks i).id = scheduler.currentTask
  vacant : ∀ i, (tasks i).state = .empty → (tasks i).id = 0

namespace Seated

variable {issued nextTaskId : Nat} {scheduler scheduler' : Scheduler} {tasks : Fin maxTasks → Task}

/-- One task and its place change. -/
theorem update (seated : Seated scheduler tasks) (agree : Agree issued scheduler nextTaskId tasks)
    {i : Fin maxTasks} {task : Task} (occupied : (tasks i).state ≠ .empty)
    (id : task.id = (tasks i).id)
    (queued : ∀ x ∈ scheduler.queued, x ≠ (tasks i).id → x ∈ scheduler'.queued)
    (current : scheduler.currentTask ≠ 0 → scheduler.currentTask ≠ (tasks i).id →
      scheduler'.currentTask = scheduler.currentTask)
    (ready : task.state = .ready → (tasks i).id ∈ scheduler'.queued)
    (running : task.state = .running → (tasks i).id = scheduler'.currentTask)
    (filled : task.state ≠ .empty) : Seated scheduler' (Function.update tasks i task) := by
  have other : ∀ j, j ≠ i → (tasks j).state ≠ .empty → (tasks j).id ≠ (tasks i).id :=
    fun j elsewhere occupiedJ same => elsewhere (agree.distinct j i occupiedJ occupied same)
  refine ⟨fun j state => ?_, fun j state => ?_, fun j state => ?_⟩
  · by_cases here : j = i
    · rw [here, Function.update_self] at state ⊢
      rw [id]
      exact ready state
    · rw [Function.update_of_ne here] at state ⊢
      exact queued _ (seated.ready j state) (other j here (by rw [state]; decide))
  · by_cases here : j = i
    · rw [here, Function.update_self] at state ⊢
      rw [id]
      exact running state
    · rw [Function.update_of_ne here] at state ⊢
      have occupiedJ : (tasks j).state ≠ .empty := by rw [state]; decide
      have isCurrent := seated.running j state
      have nonzero := (agree.ids j occupiedJ).1
      rw [current (by omega) (isCurrent ▸ other j here occupiedJ), isCurrent]
  · by_cases here : j = i
    · rw [here, Function.update_self] at state
      exact absurd state filled
    · rw [Function.update_of_ne here] at state ⊢
      exact seated.vacant j state

/-- A task changes but keeps its state and its place. -/
theorem retask (seated : Seated scheduler tasks) (agree : Agree issued scheduler nextTaskId tasks)
    {i : Fin maxTasks} {task : Task} (occupied : (tasks i).state ≠ .empty)
    (id : task.id = (tasks i).id) (state : task.state = (tasks i).state) :
    Seated scheduler (Function.update tasks i task) :=
  seated.update agree occupied id (fun _ mem _ => mem) (fun _ _ => rfl)
    (fun ready => seated.ready i (state ▸ ready)) (fun running => seated.running i (state ▸ running))
    (state ▸ occupied)

theorem reschedule (seated : Seated scheduler tasks)
    (places : scheduler'.placement = scheduler.placement) : Seated scheduler' tasks where
  ready := fun i state => by
    rw [show scheduler'.queued = scheduler.queued from Scheduler.queued_of_places places]
    exact seated.ready i state
  running := fun i state => by
    rw [show scheduler'.currentTask = scheduler.currentTask from
      Scheduler.currentTask_of_places places]
    exact seated.running i state
  vacant := seated.vacant

theorem start (seated : Seated scheduler tasks) (agree : Agree issued scheduler nextTaskId tasks)
    {i : Fin maxTasks} {task : Task} (occupied : (tasks i).state ≠ .empty)
    (id : task.id = (tasks i).id) (state : task.state = .running)
    (idle : scheduler.currentTask = 0) :
    Seated (scheduler.beginTask (tasks i).id) (Function.update tasks i task) := by
  obtain ⟨places, -⟩ := agree.sound.beginTask (tasks i).id
  refine seated.update agree occupied id (fun x mem other => ?_) (fun running => absurd idle running)
    (fun ready => ?_) (fun _ => ?_) ?_
  · rw [Scheduler.queued_of_places places]
    exact (List.mem_erase_of_ne other).mpr mem
  · rw [state] at ready
    cases ready
  · rw [Scheduler.currentTask_of_places places]
    rfl
  · rw [state]
    decide

/-- A task gives up its place: it has exited. -/
theorem finish (seated : Seated scheduler tasks) (agree : Agree issued scheduler nextTaskId tasks)
    {i : Fin maxTasks} {task : Task} (occupied : (tasks i).state ≠ .empty)
    (id : task.id = (tasks i).id) (state : task.state = .exited) :
    Seated (scheduler.finishTask (tasks i).id) (Function.update tasks i task) := by
  obtain ⟨places, -⟩ := agree.sound.finishTask (tasks i).id
  refine seated.update agree occupied id (fun x mem other => ?_) (fun _ other => ?_)
    (fun ready => ?_) (fun running => ?_) ?_
  · rw [Scheduler.queued_of_places places]
    exact (List.mem_erase_of_ne other).mpr mem
  · rw [Scheduler.currentTask_of_places places]
    exact if_neg other
  · rw [state] at ready
    cases ready
  · rw [state] at running
    cases running
  · rw [state]
    decide

theorem block (seated : Seated scheduler tasks) (agree : Agree issued scheduler nextTaskId tasks)
    {i : Fin maxTasks} {task : Task} (occupied : (tasks i).state ≠ .empty)
    (id : task.id = (tasks i).id) (state : task.state = .blocked)
    (blocks : scheduler.blockTask (tasks i).id = (true, scheduler')) :
    Seated scheduler' (Function.update tasks i task) := by
  have kept : (∀ x ∈ scheduler.queued, x ≠ (tasks i).id → x ∈ scheduler'.queued) ∧
      (scheduler.currentTask ≠ (tasks i).id →
        scheduler'.currentTask = scheduler.currentTask) := by
    rcases agree.sound.blockTask_cases (tasks i).id with
      ⟨s', eq, -⟩ | ⟨eq, -⟩ | ⟨s', eq, places, -⟩
    · rw [blocks] at eq
      cases eq
    · rw [blocks] at eq
      cases eq
      exact ⟨fun x mem _ => mem, fun _ => rfl⟩
    · rw [blocks] at eq
      cases eq
      refine ⟨fun x mem other => ?_, fun other => ?_⟩
      · rw [Scheduler.queued_of_places places]
        exact (List.mem_erase_of_ne other).mpr mem
      · rw [Scheduler.currentTask_of_places places]
        exact if_neg other
  refine seated.update agree occupied id kept.1 (fun _ => kept.2) (fun ready => ?_)
    (fun running => ?_) ?_
  · rw [state] at ready
    cases ready
  · rw [state] at running
    cases running
  · rw [state]
    decide

theorem block_failed (seated : Seated scheduler tasks)
    (agree : Agree issued scheduler nextTaskId tasks) {id : Nat}
    (blocks : scheduler.blockTask id = (false, scheduler')) : Seated scheduler' tasks := by
  rcases agree.sound.blockTask_cases id with ⟨s', eq, places, -⟩ | ⟨eq, -⟩ | ⟨s', eq, -⟩
  · rw [blocks] at eq
    cases eq
    exact seated.reschedule places
  · rw [blocks] at eq
    cases eq
  · rw [blocks] at eq
    cases eq

theorem wake (seated : Seated scheduler tasks) (agree : Agree issued scheduler nextTaskId tasks)
    {i : Fin maxTasks} {task : Task} (was : (tasks i).state = .blocked)
    (id : task.id = (tasks i).id) (state : task.state = .ready)
    (wakes : scheduler.wakeTask (tasks i).id = (true, scheduler')) :
    Seated scheduler' (Function.update tasks i task) := by
  obtain ⟨s', eq, places, -⟩ := agree.wakes was
  rw [wakes] at eq
  cases eq
  have queued := Scheduler.queued_of_places places
  refine seated.update agree (by rw [was]; decide) id (fun x mem _ => ?_) (fun _ _ => ?_)
    (fun _ => ?_) (fun running => ?_) ?_
  · rw [queued]
    exact List.mem_append_left _ mem
  · rw [Scheduler.currentTask_of_places places]
    rfl
  · rw [queued]
    exact List.mem_append_right _ List.mem_cons_self
  · rw [state] at running
    cases running
  · rw [state]
    decide

/-- The current task leaves the processor as `task`, and the queued one in slot
`j` takes over. -/
theorem takeOver (seated : Seated scheduler tasks) (agree : Agree issued scheduler nextTaskId tasks)
    {i j : Fin maxTasks} (task : Task) (occupied : (tasks i).state ≠ .empty)
    (id : task.id = (tasks i).id) (isCurrent : scheduler.currentTask = (tasks i).id)
    (occupiedNext : (tasks j).state ≠ .empty)
    (queued : ∀ x ∈ scheduler.queued, x ≠ (tasks j).id → x ∈ scheduler'.queued)
    (current : scheduler'.currentTask = (tasks j).id)
    (ready : task.state = .ready → (tasks i).id ∈ scheduler'.queued)
    (left : task.state ≠ .running) (filled : task.state ≠ .empty) (ticks waited : Nat) :
    Seated scheduler' (Function.update (Function.update tasks i task) j
      ((tasks j).scheduled ticks waited)) := by
  refine ⟨fun k state => ?_, fun k state => ?_, fun k state => ?_⟩
  · by_cases next : k = j
    · rw [next, Function.update_self] at state
      cases state
    rw [Function.update_of_ne next] at state ⊢
    by_cases here : k = i
    · rw [here, Function.update_self] at state ⊢
      rw [id]
      exact ready state
    · rw [Function.update_of_ne here] at state ⊢
      refine queued _ (seated.ready k state) fun same => next ?_
      exact agree.distinct k j (by rw [state]; decide) occupiedNext same
  · by_cases next : k = j
    · rw [next, Function.update_self, current]
      rfl
    rw [Function.update_of_ne next] at state
    by_cases here : k = i
    · rw [here, Function.update_self] at state
      exact absurd state left
    · rw [Function.update_of_ne here] at state
      have same := (seated.running k state).trans isCurrent
      exact absurd (agree.distinct k i (by rw [state]; decide) occupied same) here
  · by_cases next : k = j
    · rw [next, Function.update_self] at state
      cases state
    rw [Function.update_of_ne next] at state ⊢
    by_cases here : k = i
    · rw [here, Function.update_self] at state
      exact absurd state filled
    · rw [Function.update_of_ne here] at state ⊢
      exact seated.vacant k state

/-- A new task takes a slot and joins the queue. -/
theorem install (seated : Seated scheduler tasks) {i : Fin maxTasks} {task : Task}
    (places : scheduler'.placement = scheduler.placement.enqueue task.id)
    (state : task.state = .ready) : Seated scheduler' (Function.update tasks i task) := by
  have queued := Scheduler.queued_of_places places
  refine ⟨fun j ready => ?_, fun j running => ?_, fun j empty => ?_⟩
  · rw [queued]
    by_cases here : j = i
    · rw [here, Function.update_self]
      exact List.mem_append_right _ List.mem_cons_self
    · rw [Function.update_of_ne here] at ready ⊢
      exact List.mem_append_left _ (seated.ready j ready)
  · rw [Scheduler.currentTask_of_places places]
    by_cases here : j = i
    · rw [here, Function.update_self, state] at running
      cases running
    · rw [Function.update_of_ne here] at running ⊢
      exact seated.running j running
  · by_cases here : j = i
    · rw [here, Function.update_self, state] at empty
      cases empty
    · rw [Function.update_of_ne here] at empty ⊢
      exact seated.vacant j empty

theorem reap (seated : Seated scheduler tasks) (i : Fin maxTasks) :
    Seated scheduler (Function.update tasks i Task.empty) := by
  refine ⟨fun j state => ?_, fun j state => ?_, fun j state => ?_⟩
  · by_cases here : j = i
    · rw [here, Function.update_self] at state
      cases state
    · rw [Function.update_of_ne here] at state ⊢
      exact seated.ready j state
  · by_cases here : j = i
    · rw [here, Function.update_self] at state
      cases state
    · rw [Function.update_of_ne here] at state ⊢
      exact seated.running j state
  · by_cases here : j = i
    · rw [here, Function.update_self]
      rfl
    · rw [Function.update_of_ne here] at state ⊢
      exact seated.vacant j state

end Seated

/-! ### Endpoints -/

/-- A task that holds resources owns one endpoint, and nobody else owns one. Live
tasks hold resources and can be switched to. -/
structure Housed (tasks : Fin maxTasks → Task) (valid : Fin maxTasks → Bool)
    (owners : Fin maxEndpoints → Nat) : Prop where
  able : ∀ i, (tasks i).live = true → valid i = true ∧ (tasks i).addressSpaceRoot ≠ 0 ∧
    (tasks i).resourcesActive = true
  occupied : ∀ i, (tasks i).resourcesActive = true → (tasks i).state ≠ .empty
  registered : ∀ i, (tasks i).resourcesActive = true → ∃ e, owners e = (tasks i).id
  owned : ∀ e, owners e ≠ 0 → ∃ i, (tasks i).resourcesActive = true ∧ (tasks i).id = owners e
  single : ∀ e e', owners e ≠ 0 → owners e' = owners e → e' = e

namespace Housed

variable {tasks : Fin maxTasks → Task} {valid : Fin maxTasks → Bool}
  {owners : Fin maxEndpoints → Nat}

theorem save (housed : Housed tasks valid owners) (i : Fin maxTasks) :
    Housed tasks (Function.update valid i true) owners := by
  refine { housed with able := fun j live => ⟨?_, (housed.able j live).2⟩ }
  by_cases here : j = i
  · rw [here, Function.update_self]
  · rw [Function.update_of_ne here]
    exact (housed.able j live).1

/-- A task changes but keeps what it holds. -/
theorem retask (housed : Housed tasks valid owners) {i : Fin maxTasks} {task : Task}
    (id : task.id = (tasks i).id) (resources : task.resourcesActive = (tasks i).resourcesActive)
    (root : task.addressSpaceRoot = (tasks i).addressSpaceRoot)
    (live : task.live = true → (tasks i).live = true) (filled : task.state ≠ .empty) :
    Housed (Function.update tasks i task) valid owners := by
  have same : ∀ j, (Function.update tasks i task j).id = (tasks j).id ∧
      (Function.update tasks i task j).resourcesActive = (tasks j).resourcesActive ∧
      (Function.update tasks i task j).addressSpaceRoot = (tasks j).addressSpaceRoot ∧
      ((Function.update tasks i task j).live = true → (tasks j).live = true) :=
    (Function.forall_update_iff tasks fun j task => task.id = (tasks j).id ∧
      task.resourcesActive = (tasks j).resourcesActive ∧
      task.addressSpaceRoot = (tasks j).addressSpaceRoot ∧
      (task.live = true → (tasks j).live = true)).mpr
      ⟨⟨id, resources, root, live⟩, fun _ _ => ⟨rfl, rfl, rfl, fun live => live⟩⟩
  refine ⟨fun j alive => ?_, fun j active => ?_, fun j active => ?_, fun e nonzero => ?_,
    housed.single⟩
  · obtain ⟨-, sameResources, sameRoot, wasLive⟩ := same j
    rw [sameResources, sameRoot]
    exact housed.able j (wasLive alive)
  · by_cases here : j = i
    · rw [here, Function.update_self]
      exact filled
    · rw [Function.update_of_ne here] at active ⊢
      exact housed.occupied j active
  · rw [(same j).2.1] at active
    rw [(same j).1]
    exact housed.registered j active
  · obtain ⟨j, active, owner⟩ := housed.owned e nonzero
    exact ⟨j, (same j).2.1.trans active, (same j).1.trans owner⟩

/-- A task without resources leaves its slot. -/
theorem reap (housed : Housed tasks valid owners) {i : Fin maxTasks}
    (inactive : (tasks i).resourcesActive = false) :
    Housed (Function.update tasks i Task.empty) (Function.update valid i false) owners := by
  refine ⟨fun j live => ?_, fun j active => ?_, fun j active => ?_, fun e nonzero => ?_,
    housed.single⟩
  · by_cases here : j = i
    · rw [here, Function.update_self] at live
      cases live
    · rw [Function.update_of_ne here] at live
      rw [Function.update_of_ne here, Function.update_of_ne here]
      exact housed.able j live
  · by_cases here : j = i
    · rw [here, Function.update_self] at active
      cases active
    · rw [Function.update_of_ne here] at active ⊢
      exact housed.occupied j active
  · by_cases here : j = i
    · rw [here, Function.update_self] at active
      cases active
    · rw [Function.update_of_ne here] at active ⊢
      exact housed.registered j active
  · obtain ⟨j, active, owner⟩ := housed.owned e nonzero
    have elsewhere : j ≠ i := by
      rintro rfl
      rw [inactive] at active
      cases active
    exact ⟨j, by rwa [Function.update_of_ne elsewhere], by rwa [Function.update_of_ne elsewhere]⟩

/-- A task gives its endpoint and its resources back. -/
theorem release (housed : Housed tasks valid owners)
    (distinct : ∀ i j, (tasks i).state ≠ .empty → (tasks j).state ≠ .empty →
      (tasks i).id = (tasks j).id → i = j)
    {i : Fin maxTasks} {task : Task} {e : Fin maxEndpoints} (nonzero : (tasks i).id ≠ 0)
    (active : (tasks i).resourcesActive = true) (owner : owners e = (tasks i).id)
    (released : task.resourcesActive = false) (dead : task.live = false) :
    Housed (Function.update tasks i task) valid (Function.update owners e 0) := by
  refine ⟨fun j live => ?_, fun j activeJ => ?_, fun j activeJ => ?_, fun e' owned => ?_,
    fun e' e'' owned same => ?_⟩
  · by_cases here : j = i
    · rw [here, Function.update_self, dead] at live
      cases live
    · rw [Function.update_of_ne here] at live ⊢
      exact housed.able j live
  · by_cases here : j = i
    · rw [here, Function.update_self, released] at activeJ
      cases activeJ
    · rw [Function.update_of_ne here] at activeJ ⊢
      exact housed.occupied j activeJ
  · by_cases here : j = i
    · rw [here, Function.update_self, released] at activeJ
      cases activeJ
    · rw [Function.update_of_ne here] at activeJ ⊢
      obtain ⟨e', owner'⟩ := housed.registered j activeJ
      refine ⟨e', ?_⟩
      have other : e' ≠ e := by
        rintro rfl
        exact here (distinct j i (housed.occupied j activeJ) (housed.occupied i active)
          (owner'.symm.trans owner))
      rwa [Function.update_of_ne other]
  · have other : e' ≠ e := by
      rintro rfl
      exact owned (Function.update_self ..)
    rw [Function.update_of_ne other] at owned ⊢
    obtain ⟨j, activeJ, owner'⟩ := housed.owned e' owned
    have elsewhere : j ≠ i := by
      rintro rfl
      exact other (housed.single e e' (owner ▸ nonzero) (owner'.symm.trans owner.symm))
    exact ⟨j, by rwa [Function.update_of_ne elsewhere], by rwa [Function.update_of_ne elsewhere]⟩
  · have other : e' ≠ e := by
      rintro rfl
      exact owned (Function.update_self ..)
    have other' : e'' ≠ e := by
      rintro rfl
      rw [Function.update_self] at same
      exact owned same.symm
    rw [Function.update_of_ne other] at owned same
    rw [Function.update_of_ne other'] at same
    exact housed.single e' e'' owned same

/-- A new task takes a slot without resources and an endpoint without owner. -/
theorem install (housed : Housed tasks valid owners) {i : Fin maxTasks} {task : Task}
    {e : Fin maxEndpoints} (inactive : (tasks i).resourcesActive = false) (unowned : owners e = 0)
    (nonzero : ∀ j, (tasks j).state ≠ .empty → (tasks j).id ≠ 0)
    (fresh : ∀ e', owners e' ≠ task.id) (root : task.addressSpaceRoot ≠ 0)
    (active : task.resourcesActive = true) (filled : task.state ≠ .empty) :
    Housed (Function.update tasks i task) (Function.update valid i true)
      (Function.update owners e task.id) := by
  refine ⟨fun j live => ?_, fun j activeJ => ?_, fun j activeJ => ?_, fun e' owned => ?_,
    fun e' e'' owned same => ?_⟩
  · by_cases here : j = i
    · rw [here, Function.update_self, Function.update_self]
      exact ⟨rfl, root, active⟩
    · rw [Function.update_of_ne here] at live
      rw [Function.update_of_ne here, Function.update_of_ne here]
      exact housed.able j live
  · by_cases here : j = i
    · rw [here, Function.update_self]
      exact filled
    · rw [Function.update_of_ne here] at activeJ ⊢
      exact housed.occupied j activeJ
  · by_cases here : j = i
    · exact ⟨e, by rw [here, Function.update_self, Function.update_self]⟩
    · rw [Function.update_of_ne here] at activeJ ⊢
      obtain ⟨e', owner⟩ := housed.registered j activeJ
      have other : e' ≠ e := by
        rintro rfl
        exact nonzero j (housed.occupied j activeJ) (owner.symm.trans unowned)
      exact ⟨e', by rwa [Function.update_of_ne other]⟩
  · by_cases taken : e' = e
    · exact ⟨i, by rwa [Function.update_self], by rw [taken, Function.update_self,
        Function.update_self]⟩
    · rw [Function.update_of_ne taken] at owned ⊢
      obtain ⟨j, activeJ, owner⟩ := housed.owned e' owned
      have elsewhere : j ≠ i := by
        rintro rfl
        rw [inactive] at activeJ
        cases activeJ
      exact ⟨j, by rwa [Function.update_of_ne elsewhere],
        by rwa [Function.update_of_ne elsewhere]⟩
  · by_cases taken : e' = e
    · by_cases taken' : e'' = e
      · rw [taken, taken']
      · rw [taken, Function.update_self, Function.update_of_ne taken'] at same
        exact absurd same (fresh e'')
    · rw [Function.update_of_ne taken] at owned same
      by_cases taken' : e'' = e
      · rw [taken', Function.update_self] at same
        exact absurd same.symm (fresh e')
      · rw [Function.update_of_ne taken'] at same
        exact housed.single e' e'' owned same

/-- With a slot to spare there is an endpoint to spare. -/
theorem exists_free (housed : Housed tasks valid owners) {i : Fin maxTasks}
    (inactive : (tasks i).resourcesActive = false) : ∃ e, owners e = 0 := by
  refine exists_unowned housed.owned housed.single (i := i) ?_
  simp [inactive]

end Housed

end CloudOS.Process
