import CloudOS.Process.Endings
import CloudOS.Process.Switch

/-!
Process table and scheduler agree, in every run.

Whoever has a place in the scheduler is a live task, and a blocked task is among
the blocked ones. Together with the scheduler's own invariant this is enough to
wake: a blocked task always finds room in the queue, because the queue holds
only the other tasks. The argument needs task ids to be distinct, so it covers
runs that issue fewer than 2^64 of them.
-/

namespace CloudOS.Process

open Lib.Word (satAdd maxWord)
open CloudOS.Ipc (maxEndpoints)

/-! ### The agreement -/

/-- `issued` task ids have been handed out. -/
structure Agree (issued : Nat) (scheduler : Scheduler) (nextTaskId : Nat)
    (tasks : Fin maxTasks → Task) : Prop where
  sound : scheduler.Sound
  next : nextTaskId = min (issued + 1) maxWord
  ids : ∀ i, (tasks i).state ≠ .empty → 1 ≤ (tasks i).id ∧ (tasks i).id ≤ issued
  parents : ∀ i, (tasks i).state ≠ .empty → (tasks i).parentId < (tasks i).id
  distinct : ∀ i j, (tasks i).state ≠ .empty → (tasks j).state ≠ .empty →
    (tasks i).id = (tasks j).id → i = j
  placed : ∀ id, scheduler.placement.Has id → ∃ i, (tasks i).live = true ∧ (tasks i).id = id
  blocked : ∀ i, (tasks i).state = .blocked → (tasks i).id ∈ scheduler.blockedTasks

namespace Agree

variable {issued nextTaskId : Nat} {scheduler : Scheduler} {tasks : Fin maxTasks → Task}

/-- The slot of the only task with that id. -/
theorem eq_of_id (agree : Agree issued scheduler nextTaskId tasks) {i j : Fin maxTasks}
    (occupied : (tasks i).state ≠ .empty) (live : (tasks j).live = true)
    (same : (tasks j).id = (tasks i).id) : j = i :=
  agree.distinct j i (Task.live_iff.mp live).1 occupied same

/-- One task and its place change. -/
theorem update (agree : Agree issued scheduler nextTaskId tasks) {i : Fin maxTasks} {task : Task}
    {scheduler' : Scheduler} (occupied : (tasks i).state ≠ .empty)
    (id : task.id = (tasks i).id) (parent : task.parentId = (tasks i).parentId)
    (sound : scheduler'.Sound)
    (placed : ∀ x, scheduler'.placement.Has x →
      (x = task.id ∧ task.live = true) ∨ (x ≠ task.id ∧ scheduler.placement.Has x))
    (kept : ∀ x ∈ scheduler.blockedTasks, x ≠ task.id → x ∈ scheduler'.blockedTasks)
    (blocked : task.state = .blocked → task.id ∈ scheduler'.blockedTasks) :
    Agree issued scheduler' nextTaskId (Function.update tasks i task) := by
  have occupied' : ∀ j, (Function.update tasks i task j).state ≠ .empty →
      (tasks j).state ≠ .empty := by
    intro j state
    by_cases here : j = i
    · exact here ▸ occupied
    · rwa [Function.update_of_ne here] at state
  have sameId : ∀ j, (Function.update tasks i task j).id = (tasks j).id := by
    intro j
    by_cases here : j = i
    · rw [here, Function.update_self, id]
    · rw [Function.update_of_ne here]
  have sameParent : ∀ j, (Function.update tasks i task j).parentId = (tasks j).parentId := by
    intro j
    by_cases here : j = i
    · rw [here, Function.update_self, parent]
    · rw [Function.update_of_ne here]
  refine ⟨sound, agree.next, fun j state => ?_, fun j state => ?_, fun j k stateJ stateK same => ?_,
    fun x has => ?_, fun j state => ?_⟩
  · rw [sameId]
    exact agree.ids j (occupied' j state)
  · rw [sameId, sameParent]
    exact agree.parents j (occupied' j state)
  · rw [sameId, sameId] at same
    exact agree.distinct j k (occupied' j stateJ) (occupied' k stateK) same
  · rcases placed x has with ⟨rfl, live⟩ | ⟨other, before⟩
    · exact ⟨i, by rwa [Function.update_self], by rw [Function.update_self]⟩
    · obtain ⟨j, live, rfl⟩ := agree.placed x before
      have elsewhere : j ≠ i := by
        rintro rfl
        exact other id.symm
      exact ⟨j, by rwa [Function.update_of_ne elsewhere], sameId j⟩
  · rw [sameId]
    by_cases here : j = i
    · subst here
      rw [Function.update_self] at state
      exact id ▸ blocked state
    · rw [Function.update_of_ne here] at state
      refine kept _ (agree.blocked j state) fun same => here ?_
      refine agree.distinct j i (by rw [state]; decide) occupied (same.trans id)

/-- Only places change. -/
theorem reschedule (agree : Agree issued scheduler nextTaskId tasks) {scheduler' : Scheduler}
    (sound : scheduler'.Sound)
    (placed : ∀ x, scheduler'.placement.Has x → scheduler.placement.Has x)
    (kept : ∀ x ∈ scheduler.blockedTasks, x ∈ scheduler'.blockedTasks) :
    Agree issued scheduler' nextTaskId tasks :=
  { agree with
    sound := sound
    placed := fun x has => agree.placed x (placed x has)
    blocked := fun i state => kept _ (agree.blocked i state) }

/-- A task changes but keeps its place. -/
theorem retask (agree : Agree issued scheduler nextTaskId tasks) {i : Fin maxTasks} {task : Task}
    (occupied : (tasks i).state ≠ .empty) (id : task.id = (tasks i).id)
    (parent : task.parentId = (tasks i).parentId) (live : (tasks i).live = true → task.live = true)
    (blocked : task.state = .blocked → (tasks i).id ∈ scheduler.blockedTasks) :
    Agree issued scheduler nextTaskId (Function.update tasks i task) := by
  refine agree.update occupied id parent agree.sound (fun x has => ?_) (fun x mem _ => mem)
    (fun state => id ▸ blocked state)
  by_cases same : x = task.id
  · obtain ⟨j, liveJ, idJ⟩ := agree.placed x has
    have here : j = i := agree.eq_of_id occupied liveJ (idJ.trans (same.trans id))
    exact Or.inl ⟨same, live (here ▸ liveJ)⟩
  · exact Or.inr ⟨same, has⟩

/-- The current task joins the blocked ones and a queued task takes over. -/
theorem dispatch (agree : Agree issued scheduler nextTaskId tasks) {scheduler' : Scheduler}
    {next : Nat} (running : scheduler.currentTask ≠ 0) (mem : next ∈ scheduler.queued)
    (places : scheduler'.placement = scheduler.placement.dispatch next)
    (sound : scheduler'.Sound) : Agree issued scheduler' nextTaskId tasks := by
  have blockedTasks : scheduler'.blockedTasks = scheduler.blockedTasks ++ [scheduler.currentTask] :=
    Scheduler.blockedTasks_of_places places
  refine agree.reschedule sound (fun x has => ?_) (fun x blocked => ?_)
  · rw [places] at has
    rcases has with queued | blocked | ⟨isNext, -⟩
    · exact Or.inl (List.mem_of_mem_erase queued)
    · rcases Placement.mem_concat.mp blocked with blocked | isCurrent
      · exact Or.inr (Or.inl blocked)
      · exact Or.inr (Or.inr ⟨isCurrent, isCurrent ▸ running⟩)
    · exact Or.inl (isNext ▸ mem)
  · rw [blockedTasks]
    exact List.mem_append_left _ blocked

/-- The current task joins the queue and a queued task takes over. -/
theorem rotate (agree : Agree issued scheduler nextTaskId tasks) {scheduler' : Scheduler}
    {next : Nat} (running : scheduler.currentTask ≠ 0) (mem : next ∈ scheduler.queued)
    (places : scheduler'.placement = scheduler.placement.rotate next)
    (sound : scheduler'.Sound) : Agree issued scheduler' nextTaskId tasks := by
  have blockedTasks : scheduler'.blockedTasks = scheduler.blockedTasks :=
    Scheduler.blockedTasks_of_places places
  refine agree.reschedule sound (fun x has => ?_) (fun x blocked => blockedTasks ▸ blocked)
  rw [places] at has
  rcases has with queued | blocked | ⟨isNext, -⟩
  · rcases Placement.mem_concat.mp queued with queued | isCurrent
    · exact Or.inl (List.mem_of_mem_erase queued)
    · exact Or.inr (Or.inr ⟨isCurrent, isCurrent ▸ running⟩)
  · exact Or.inr (Or.inl blocked)
  · exact Or.inl (isNext ▸ mem)

/-- The current task has left the processor as `task`, and the one in slot `j`
takes over. -/
theorem takeOver (agree : Agree issued scheduler nextTaskId tasks) {i j : Fin maxTasks}
    (task : Task) (occupied : (tasks i).state ≠ .empty) (id : task.id = (tasks i).id)
    (parent : task.parentId = (tasks i).parentId) (live : task.live = true)
    (blocked : task.state = .blocked → (tasks i).id ∈ scheduler.blockedTasks)
    (occupiedNext : (tasks j).state ≠ .empty) (other : j ≠ i) (ticks waited : Nat) :
    Agree issued scheduler nextTaskId
      (Function.update (Function.update tasks i task) j ((tasks j).scheduled ticks waited)) := by
  have left := agree.retask occupied id parent (fun _ => live) blocked
  have same := Function.update_of_ne other task tasks
  refine left.retask (by rwa [same]) ?_ ?_ (fun _ => rfl) (fun blocked => by cases blocked)
  · rw [same]
    rfl
  · rw [same]
    rfl

/-! ### Room in the queue -/

/-- While some task is not queued, the queue is not full. -/
theorem len_lt (agree : Agree issued scheduler nextTaskId tasks) {i : Fin maxTasks}
    (idle : (tasks i).state = .empty ∨ (tasks i).state = .exited ∨
      (tasks i).id ∉ scheduler.queued) : scheduler.len < queueCapacity := by
  -- the queued tasks sit in slots other than `i`
  have holds : ∀ x ∈ scheduler.queued, ∃ j, j ≠ i ∧ (tasks j).id = x := by
    intro x mem
    obtain ⟨j, live, rfl⟩ := agree.placed x (Or.inl mem)
    refine ⟨j, ?_, rfl⟩
    rintro rfl
    obtain ⟨occupied, active⟩ := Task.live_iff.mp live
    rcases idle with state | state | absent
    · exact occupied state
    · exact active state
    · exact absent mem
  have within : scheduler.queued.toFinset ⊆ (Finset.univ.erase i).image fun j => (tasks j).id := by
    intro x mem
    obtain ⟨j, other, rfl⟩ := holds x (List.mem_toFinset.mp mem)
    exact Finset.mem_image_of_mem _ (Finset.mem_erase.mpr ⟨other, Finset.mem_univ j⟩)
  have nodup : scheduler.queued.Nodup := agree.sound.places.queued
  have count := (Finset.card_le_card within).trans Finset.card_image_le
  rw [List.toFinset_card_of_nodup nodup, Finset.card_erase_of_mem (Finset.mem_univ i),
    Finset.card_univ, Fintype.card_fin, Scheduler.length_queued] at count
  exact Nat.lt_of_le_of_lt count (by decide)

/-- A blocked task can be woken. -/
theorem wakes (agree : Agree issued scheduler nextTaskId tasks) {i : Fin maxTasks}
    (state : (tasks i).state = .blocked) :
    ∃ scheduler', scheduler.wakeTask (tasks i).id = (true, scheduler') ∧
      scheduler'.placement = scheduler.placement.wake (tasks i).id ∧ scheduler'.Sound := by
  have mem := agree.blocked i state
  have elsewhere : (tasks i).id ∉ scheduler.queued := fun queued =>
    agree.sound.places.apart _ queued mem
  exact agree.sound.wakeTask mem (agree.len_lt (Or.inr (Or.inr elsewhere)))

/-! ### What happens to a task -/

theorem start (agree : Agree issued scheduler nextTaskId tasks) {i : Fin maxTasks} {task : Task}
    (occupied : (tasks i).state ≠ .empty) (id : task.id = (tasks i).id)
    (parent : task.parentId = (tasks i).parentId) (state : task.state = .running) :
    Agree issued (scheduler.beginTask (tasks i).id) nextTaskId (Function.update tasks i task) := by
  obtain ⟨places, sound⟩ := agree.sound.beginTask (tasks i).id
  have live : task.live = true := by simp [Task.live, state]
  have blockedTasks : (scheduler.beginTask (tasks i).id).blockedTasks =
      scheduler.blockedTasks.erase (tasks i).id := Scheduler.blockedTasks_of_places places
  refine agree.update occupied id parent sound (fun x has => ?_) (fun x mem other => ?_)
    (fun blocked => ?_)
  · rw [places] at has
    by_cases same : x = task.id
    · exact Or.inl ⟨same, live⟩
    · refine Or.inr ⟨same, ?_⟩
      rcases has with queued | blocked | ⟨isCurrent, -⟩
      · exact Or.inl (List.mem_of_mem_erase queued)
      · exact Or.inr (Or.inl (List.mem_of_mem_erase blocked))
      · exact absurd (isCurrent.trans id.symm) same
  · rw [blockedTasks]
    exact (List.mem_erase_of_ne (id ▸ other)).mpr mem
  · rw [state] at blocked
    cases blocked

theorem finish (agree : Agree issued scheduler nextTaskId tasks) {i : Fin maxTasks} {task : Task}
    (occupied : (tasks i).state ≠ .empty) (id : task.id = (tasks i).id)
    (parent : task.parentId = (tasks i).parentId) (state : task.state = .exited) :
    Agree issued (scheduler.finishTask (tasks i).id) nextTaskId (Function.update tasks i task) := by
  obtain ⟨places, sound⟩ := agree.sound.finishTask (tasks i).id
  have blockedTasks : (scheduler.finishTask (tasks i).id).blockedTasks =
      scheduler.blockedTasks.erase (tasks i).id := Scheduler.blockedTasks_of_places places
  have nodup := agree.sound.places
  refine agree.update occupied id parent sound (fun x has => ?_) (fun x mem other => ?_)
    (fun blocked => ?_)
  · rw [places] at has
    refine Or.inr ?_
    rcases has with queued | blocked | ⟨isCurrent, nonzero⟩
    · refine ⟨?_, Or.inl (List.mem_of_mem_erase queued)⟩
      rintro rfl
      exact nodup.queued.not_mem_erase (id ▸ queued)
    · refine ⟨?_, Or.inr (Or.inl (List.mem_of_mem_erase blocked))⟩
      rintro rfl
      exact nodup.blocked.not_mem_erase (id ▸ blocked)
    · dsimp only [Placement.finish] at isCurrent
      split at isCurrent
      · exact absurd isCurrent nonzero
      · rename_i other
        exact ⟨fun same => other (isCurrent.symm.trans (same.trans id)),
          Or.inr (Or.inr ⟨isCurrent, nonzero⟩)⟩
  · rw [blockedTasks]
    exact (List.mem_erase_of_ne (id ▸ other)).mpr mem
  · rw [state] at blocked
    cases blocked

/-- The task was moved to the blocked ones, or was there already. -/
theorem block (agree : Agree issued scheduler nextTaskId tasks) {i : Fin maxTasks} {task : Task}
    (live : (tasks i).live = true) (id : task.id = (tasks i).id)
    (parent : task.parentId = (tasks i).parentId) (state : task.state = .blocked)
    {scheduler' : Scheduler} (blocks : scheduler.blockTask (tasks i).id = (true, scheduler')) :
    Agree issued scheduler' nextTaskId (Function.update tasks i task) := by
  have occupied := (Task.live_iff.mp live).1
  have live' : task.live = true := by simp [Task.live, state]
  rcases agree.sound.blockTask_cases (tasks i).id with
    ⟨s', eq, -⟩ | ⟨eq, mem⟩ | ⟨s', eq, places, sound, has, -⟩
  · rw [blocks] at eq
    cases eq
  · rw [blocks] at eq
    cases eq
    refine agree.update occupied id parent agree.sound (fun x has => ?_) (fun x mem _ => mem)
      (fun _ => id ▸ mem)
    by_cases same : x = task.id
    · exact Or.inl ⟨same, live'⟩
    · exact Or.inr ⟨same, has⟩
  · rw [blocks] at eq
    cases eq
    have blockedTasks : scheduler'.blockedTasks = scheduler.blockedTasks ++ [(tasks i).id] :=
      Scheduler.blockedTasks_of_places places
    refine agree.update occupied id parent sound (fun x has' => ?_) (fun x mem _ => ?_)
      (fun _ => ?_)
    · by_cases same : x = task.id
      · exact Or.inl ⟨same, live'⟩
      · refine Or.inr ⟨same, ?_⟩
        rw [places] at has'
        rcases has' with queued | blocked | ⟨isCurrent, nonzero⟩
        · exact Or.inl (List.mem_of_mem_erase queued)
        · rcases Placement.mem_concat.mp blocked with blocked | rfl
          · exact Or.inr (Or.inl blocked)
          · exact absurd id.symm same
        · dsimp only [Placement.block] at isCurrent
          split at isCurrent
          · exact absurd isCurrent nonzero
          · exact Or.inr (Or.inr ⟨isCurrent, nonzero⟩)
    · rw [blockedTasks]
      exact List.mem_append_left _ mem
    · rw [blockedTasks, id]
      exact List.mem_append_right _ List.mem_cons_self

/-- A failed `block_task` moves nobody. -/
theorem block_failed (agree : Agree issued scheduler nextTaskId tasks) {id : Nat}
    {scheduler' : Scheduler} (blocks : scheduler.blockTask id = (false, scheduler')) :
    Agree issued scheduler' nextTaskId tasks := by
  rcases agree.sound.blockTask_cases id with ⟨s', eq, places, sound⟩ | ⟨eq, -⟩ | ⟨s', eq, -⟩
  · rw [blocks] at eq
    cases eq
    refine agree.reschedule sound (fun x has => places ▸ has) (fun x mem => ?_)
    have blockedTasks : scheduler'.blockedTasks = scheduler.blockedTasks :=
      Scheduler.blockedTasks_of_places places
    rwa [blockedTasks]
  · rw [blocks] at eq
    cases eq
  · rw [blocks] at eq
    cases eq

theorem wake (agree : Agree issued scheduler nextTaskId tasks) {i : Fin maxTasks} {task : Task}
    (was : (tasks i).state = .blocked) (id : task.id = (tasks i).id)
    (parent : task.parentId = (tasks i).parentId) (state : task.state = .ready)
    {scheduler' : Scheduler} (wakes : scheduler.wakeTask (tasks i).id = (true, scheduler')) :
    Agree issued scheduler' nextTaskId (Function.update tasks i task) := by
  obtain ⟨s', eq, places, sound⟩ := agree.wakes was
  rw [wakes] at eq
  cases eq
  have blockedTasks : scheduler'.blockedTasks = scheduler.blockedTasks.erase (tasks i).id :=
    Scheduler.blockedTasks_of_places places
  have live : task.live = true := by simp [Task.live, state]
  refine agree.update (by rw [was]; decide) id parent sound (fun x has => ?_) (fun x mem other => ?_)
    (fun blocked => ?_)
  · by_cases same : x = task.id
    · exact Or.inl ⟨same, live⟩
    · refine Or.inr ⟨same, ?_⟩
      rw [places] at has
      rcases has with queued | blocked | isCurrent
      · rcases Placement.mem_concat.mp queued with queued | rfl
        · exact Or.inl queued
        · exact absurd id.symm same
      · exact Or.inr (Or.inl (List.mem_of_mem_erase blocked))
      · exact Or.inr (Or.inr isCurrent)
  · rw [blockedTasks]
    exact (List.mem_erase_of_ne (id ▸ other)).mpr mem
  · rw [state] at blocked
    cases blocked

/-- An exited task leaves its slot. -/
theorem reap (agree : Agree issued scheduler nextTaskId tasks) {i : Fin maxTasks}
    (state : (tasks i).state = .exited) :
    Agree issued scheduler nextTaskId (Function.update tasks i Task.empty) := by
  have other : ∀ j, (Function.update tasks i Task.empty j).state ≠ .empty → j ≠ i := by
    rintro j occupied rfl
    rw [Function.update_self] at occupied
    exact occupied rfl
  refine ⟨agree.sound, agree.next, fun j occupied => ?_, fun j occupied => ?_,
    fun j k occupiedJ occupiedK same => ?_, fun x has => ?_, fun j blocked => ?_⟩
  · have elsewhere := other j occupied
    rw [Function.update_of_ne elsewhere] at occupied ⊢
    exact agree.ids j occupied
  · have elsewhere := other j occupied
    rw [Function.update_of_ne elsewhere] at occupied ⊢
    exact agree.parents j occupied
  · have elsewhereJ := other j occupiedJ
    have elsewhereK := other k occupiedK
    rw [Function.update_of_ne elsewhereJ] at occupiedJ same
    rw [Function.update_of_ne elsewhereK] at occupiedK same
    exact agree.distinct j k occupiedJ occupiedK same
  · obtain ⟨j, live, id⟩ := agree.placed x has
    have elsewhere : j ≠ i := by
      rintro rfl
      exact (Task.live_iff.mp live).2 state
    exact ⟨j, by rwa [Function.update_of_ne elsewhere], by rwa [Function.update_of_ne elsewhere]⟩
  · have elsewhere := other j (by rw [blocked]; decide)
    rw [Function.update_of_ne elsewhere] at blocked ⊢
    exact agree.blocked j blocked

/-- While a slot has no live task, the next task finds room in the queue. -/
theorem enqueues (agree : Agree issued scheduler nextTaskId tasks) (few : issued < maxWord)
    {i : Fin maxTasks} (vacant : (tasks i).live = false) :
    ∃ scheduler', scheduler.enqueue nextTaskId = (true, scheduler') ∧
      scheduler'.placement = scheduler.placement.enqueue nextTaskId ∧ scheduler'.Sound := by
  have nextEq : nextTaskId = issued + 1 := by
    rw [agree.next]
    omega
  have fresh : ¬ scheduler.placement.Has nextTaskId := by
    intro has
    obtain ⟨j, live, same⟩ := agree.placed _ has
    have := (agree.ids j (Task.live_iff.mp live).1).2
    omega
  have idle : (tasks i).state = .empty ∨ (tasks i).state = .exited ∨
      (tasks i).id ∉ scheduler.queued := by
    cases was : (tasks i).state with
    | empty => exact Or.inl rfl
    | exited => exact Or.inr (Or.inl rfl)
    | ready => simp [Task.live, was] at vacant
    | running => simp [Task.live, was] at vacant
    | blocked => simp [Task.live, was] at vacant
  exact agree.sound.enqueueAt (by omega : nextTaskId ≠ 0) fresh (agree.len_lt idle)
    scheduler.timerTicks

/-- A new task takes a slot whose previous task is gone, and joins the queue. -/
theorem install (agree : Agree issued scheduler nextTaskId tasks) (few : issued < maxWord)
    {i : Fin maxTasks} (vacant : (tasks i).live = false) {task : Task}
    (id : task.id = nextTaskId) (parent : task.parentId < task.id) (state : task.state = .ready) :
    Agree (issued + 1) (scheduler.enqueue nextTaskId).2 (satAdd nextTaskId 1)
      (Function.update tasks i task) := by
  have nextEq : nextTaskId = issued + 1 := by
    rw [agree.next]
    omega
  have unused : ∀ j, (tasks j).state ≠ .empty → (tasks j).id ≠ nextTaskId := by
    intro j occupied same
    have := (agree.ids j occupied).2
    omega
  obtain ⟨s', eq, places, sound⟩ := agree.enqueues few vacant
  rw [eq]
  have blockedTasks : s'.blockedTasks = scheduler.blockedTasks :=
    Scheduler.blockedTasks_of_places places
  refine ⟨sound, ?_, fun j occupied => ?_, fun j occupied => ?_,
    fun j k occupiedJ occupiedK same => ?_, fun x has => ?_, fun j blocked => ?_⟩
  · unfold satAdd
    omega
  · by_cases here : j = i
    · rw [here, Function.update_self, id]
      omega
    · rw [Function.update_of_ne here] at occupied ⊢
      have := agree.ids j occupied
      omega
  · by_cases here : j = i
    · rw [here, Function.update_self]
      exact parent
    · rw [Function.update_of_ne here] at occupied ⊢
      exact agree.parents j occupied
  · by_cases hereJ : j = i
    · by_cases hereK : k = i
      · rw [hereJ, hereK]
      · rw [hereJ, Function.update_self, Function.update_of_ne hereK, id] at same
        rw [Function.update_of_ne hereK] at occupiedK
        exact absurd same.symm (unused k occupiedK)
    · rw [Function.update_of_ne hereJ] at occupiedJ same
      by_cases hereK : k = i
      · rw [hereK, Function.update_self, id] at same
        exact absurd same (unused j occupiedJ)
      · rw [Function.update_of_ne hereK] at occupiedK same
        exact agree.distinct j k occupiedJ occupiedK same
  · rw [places] at has
    have before : scheduler.placement.Has x ∨ x = nextTaskId := by
      rcases has with queued | blocked | isCurrent
      · rcases Placement.mem_concat.mp queued with queued | isNew
        · exact Or.inl (Or.inl queued)
        · exact Or.inr isNew
      · exact Or.inl (Or.inr (Or.inl blocked))
      · exact Or.inl (Or.inr (Or.inr isCurrent))
    rcases before with before | rfl
    · obtain ⟨j, live, same⟩ := agree.placed x before
      have elsewhere : j ≠ i := by
        rintro rfl
        rw [vacant] at live
        cases live
      exact ⟨j, by rwa [Function.update_of_ne elsewhere], by rwa [Function.update_of_ne elsewhere]⟩
    · refine ⟨i, ?_, ?_⟩
      · rw [Function.update_self]
        simp [Task.live, state]
      · rw [Function.update_self, id]
  · rw [blockedTasks]
    by_cases here : j = i
    · rw [here, Function.update_self, state] at blocked
      cases blocked
    · rw [Function.update_of_ne here] at blocked ⊢
      exact agree.blocked j blocked

end Agree

/-- Endpoints are held by tasks, one each: a slot whose task holds none leaves an
endpoint without owner. -/
theorem exists_unowned {ids : Fin maxTasks → Nat} {owners : Fin maxEndpoints → Nat}
    {Holds : Fin maxTasks → Prop} (owned : ∀ e, owners e ≠ 0 → ∃ i, Holds i ∧ ids i = owners e)
    (single : ∀ e e', owners e ≠ 0 → owners e' = owners e → e' = e) {i : Fin maxTasks}
    (idle : ¬ Holds i) : ∃ e, owners e = 0 := by
  by_contra taken
  push Not at taken
  choose slot holds id using fun e => owned e (taken e)
  have injective : Function.Injective slot := by
    intro e e' same
    exact (single e e' (taken e) (by rw [← id e, ← id e', same])).symm
  have surjective : Function.Surjective slot := Finite.injective_iff_surjective.mp injective
  obtain ⟨e, here⟩ := surjective i
  exact idle (here ▸ holds e)

/-! ### The methods of the process table -/

def System.Agrees (s : System) (issued : Nat) : Prop :=
  Agree issued s.scheduler s.table.nextTaskId s.table.task

namespace System

variable {s : System} {issued : Nat}

theorem Agrees.of_agree {scheduler : Scheduler} {nextTaskId : Nat} {tasks : Fin maxTasks → Task}
    (agree : Agree issued scheduler nextTaskId tasks) (scheduled : s.scheduler = scheduler)
    (next : s.table.nextTaskId = nextTaskId) (table : s.table.task = tasks) : s.Agrees issued := by
  unfold Agrees
  rwa [scheduled, next, table]

/-- Every task is found under its id. -/
theorem Agrees.findTask (agrees : s.Agrees issued) {i : Fin maxTasks}
    (occupied : (s.table.task i).state ≠ .empty) :
    s.table.findTask (s.table.task i).id = some i := by
  cases found : s.table.findTask (s.table.task i).id with
  | none => exact absurd rfl (ProcessTable.findTask_eq_none.mp found i occupied)
  | some j =>
      obtain ⟨occupied', same⟩ := ProcessTable.findTask_eq_some found
      rw [Agree.distinct agrees j i occupied' occupied same]

/-- Rewriting a slot without changing who is in it or in which state. -/
theorem Agrees.rewrite (agrees : s.Agrees issued) {s' : System} {i : Fin maxTasks}
    {slot : ProcessSlot} (slots : s'.table.slots = Function.update s.table.slots i slot)
    (scheduled : s'.scheduler = s.scheduler) (next : s'.table.nextTaskId = s.table.nextTaskId)
    (occupied : (s.table.task i).state ≠ .empty) (id : slot.task.id = (s.table.task i).id)
    (parent : slot.task.parentId = (s.table.task i).parentId)
    (state : slot.task.state = (s.table.task i).state) : s'.Agrees issued := by
  refine Agrees.of_agree ?_ scheduled next (ProcessTable.task_of_slots slots)
  refine Agree.retask agrees occupied id parent (fun live => ?_) (fun blocked => ?_)
  · rwa [Task.live_iff, state, ← Task.live_iff]
  · exact Agree.blocked agrees i (state ▸ blocked)

/-- A spawn issues at most one new id. -/
theorem spawnImage_agrees (agrees : s.Agrees issued) (few : issued < maxWord) {parentId : Nat}
    (parent : parentId ≤ issued) (image : ProcessImage) (heapAllocation : Option Nat) :
    ∃ issued' ≤ issued + 1, issued ≤ issued' ∧
      (s.spawnImage parentId image heapAllocation).2.Agrees issued' := by
  cases heapAllocation with
  | none => exact ⟨issued, Nat.le_succ _, le_rfl, agrees⟩
  | some address =>
      unfold spawnImage installTask
      dsimp only
      have sameTask : (if s.table.initialized then s.table else s.table.init).task =
          s.table.task := by
        split
        · rfl
        · rfl
      have sameNext : (if s.table.initialized then s.table else s.table.init).nextTaskId =
          s.table.nextTaskId := by
        split
        · rfl
        · rfl
      generalize (if s.table.initialized then s.table else s.table.init) = table at *
      have agree : Agree issued s.scheduler table.nextTaskId table.task := by
        rw [sameTask, sameNext]
        exact agrees
      cases found : table.freeSlot with
      | none => exact ⟨issued, Nat.le_succ _, le_rfl, agree⟩
      | some index =>
          have nextEq : table.nextTaskId = issued + 1 := by
            rw [agree.next]
            omega
          dsimp only
          split
          · -- the id is spent although no endpoint was left
            refine ⟨issued + 1, le_rfl, Nat.le_succ _, agree.sound, ?_, fun i occupied => ?_,
              agree.parents,
              agree.distinct, agree.placed, agree.blocked⟩
            · change satAdd table.nextTaskId 1 = _
              unfold satAdd
              omega
            · have := agree.ids i occupied
              exact ⟨this.1, this.2.trans (Nat.le_succ _)⟩
          · refine ⟨issued + 1, le_rfl, Nat.le_succ _, ?_⟩
            refine Agrees.of_agree ?_ rfl rfl (ProcessTable.task_of_slots rfl)
            refine agree.install few (ProcessTable.freeSlot_eq_some found) rfl ?_ rfl
            change parentId < table.nextTaskId
            omega

/-- A parent that `spawn_elf_child` accepts has an id that was issued. -/
theorem Agrees.parent_le (agrees : s.Agrees issued) {parentId : Nat}
    (valid : ¬ (parentId != 0 && !s.validParent parentId) = true) : parentId ≤ issued := by
  by_cases orphan : parentId = 0
  · omega
  · have named : s.validParent parentId = true := by simpa [orphan] using valid
    unfold validParent at named
    cases found : s.table.findTask parentId with
    | none =>
        rw [found] at named
        cases named
    | some i =>
        obtain ⟨occupied, rfl⟩ := ProcessTable.findTask_eq_some found
        exact (Agree.ids agrees i occupied).2

theorem spawnElfChild_agrees (agrees : s.Agrees issued) (few : issued < maxWord) (parentId : Nat)
    (image : Option ProcessImage) (heapAllocation : Option Nat) :
    ∃ issued' ≤ issued + 1, issued ≤ issued' ∧
      (s.spawnElfChild parentId image heapAllocation).2.Agrees issued' := by
  unfold spawnElfChild
  split
  · exact ⟨issued, Nat.le_succ _, le_rfl, agrees⟩
  rename_i valid
  cases image with
  | none => exact ⟨issued, Nat.le_succ _, le_rfl, agrees⟩
  | some image => exact spawnImage_agrees agrees few (agrees.parent_le valid) image heapAllocation

theorem spawnPreemptTask_agrees (agrees : s.Agrees issued) (few : issued < maxWord)
    (image : Option ProcessImage) (executable : Bool) (heapAllocation : Option Nat) :
    ∃ issued' ≤ issued + 1, issued ≤ issued' ∧
      (s.spawnPreemptTask image executable heapAllocation).2.Agrees issued' := by
  unfold spawnPreemptTask
  cases image with
  | none => exact ⟨issued, Nat.le_succ _, le_rfl, agrees⟩
  | some image =>
      dsimp only
      split
      · exact ⟨issued, Nat.le_succ _, le_rfl, agrees⟩
      · exact spawnImage_agrees agrees few (Nat.zero_le _) image heapAllocation

theorem markRunning_agrees (agrees : s.Agrees issued) (id syscallsBefore : Nat) :
    (s.markRunning id syscallsBefore).2.Agrees issued := by
  unfold markRunning
  cases found : s.table.findTask id with
  | none => exact agrees
  | some i =>
      obtain ⟨occupied, rfl⟩ := ProcessTable.findTask_eq_some found
      refine Agrees.of_agree ?_ rfl rfl (ProcessTable.task_of_slots rfl)
      exact Agree.start agrees occupied rfl rfl rfl

theorem retire_task (s : System) (j : Fin maxTasks) (id exitCode syscallsAfter : Nat)
    {i : Fin maxTasks} (other : i ≠ j) :
    (s.retire j id exitCode syscallsAfter).table.task i = s.table.task i := by
  refine (congrFun (ProcessTable.task_of_slots (t := s.table) rfl) i).trans ?_
  rw [Function.update_of_ne other]

theorem retire_scheduler (s : System) (j : Fin maxTasks) (id exitCode syscallsAfter : Nat) :
    (s.retire j id exitCode syscallsAfter).scheduler = s.scheduler.finishTask id := by
  simp only [retire, modify]

theorem retire_agrees (agrees : s.Agrees issued) {i : Fin maxTasks}
    (occupied : (s.table.task i).state ≠ .empty) (exitCode syscallsAfter : Nat) :
    (s.retire i (s.table.task i).id exitCode syscallsAfter).Agrees issued := by
  refine Agrees.of_agree ?_ rfl rfl (ProcessTable.task_of_slots rfl)
  rw [retire_scheduler]
  exact Agree.finish agrees occupied rfl rfl rfl

/-- A blocked task finds room in the queue. -/
theorem Agrees.wakeTask_ne (agrees : s.Agrees issued) {i : Fin maxTasks} {scheduler : Scheduler}
    (blocked : (s.table.task i).state = .blocked) :
    s.scheduler.wakeTask (s.table.task i).id ≠ (false, scheduler) := by
  obtain ⟨scheduler', wakes, -⟩ := Agree.wakes agrees blocked
  rw [wakes]
  exact nofun

/-- The parent is the only task whose state may change. -/
theorem wakeWaitingParent_agrees (agrees : s.Agrees issued) (parentId childId : Nat) :
    (s.wakeWaitingParent parentId childId).2.Agrees issued := by
  have after := s.wakeWaitingParent_after parentId childId
  generalize (s.wakeWaitingParent parentId childId).2 = s' at after ⊢
  cases after with
  | refuse => exact agrees
  | stuck found blocked wakes =>
      obtain ⟨-, rfl⟩ := ProcessTable.findTask_eq_some found
      exact absurd wakes (agrees.wakeTask_ne blocked)
  | wake found blocked _ wakes =>
      obtain ⟨-, rfl⟩ := ProcessTable.findTask_eq_some found
      refine Agrees.of_agree ?_ rfl rfl (ProcessTable.task_of_slots rfl)
      refine Agree.wake agrees blocked ?_ ?_ ?_ wakes
      all_goals rfl

/-- An ending task leaves the processor, and its parent may wake. -/
theorem markExited_agrees (agrees : s.Agrees issued) (id exitCode syscallsAfter : Nat) :
    (s.markExited id exitCode syscallsAfter).2.Agrees issued := by
  unfold markExited
  cases found : s.table.findTask id with
  | none => exact agrees
  | some i =>
      obtain ⟨occupied, rfl⟩ := ProcessTable.findTask_eq_some found
      have retired := retire_agrees agrees occupied exitCode syscallsAfter
      dsimp only
      split
      · exact wakeWaitingParent_agrees retired _ _
      · exact retired

/-- Cleanup concerns a task that has ended. -/
theorem cleanupTask_agrees (agrees : s.Agrees issued) (id : Nat) (teardown : Teardown) :
    (s.cleanupTask id teardown).2.Agrees issued := by
  unfold cleanupTask
  cases found : s.table.findTask id with
  | none => exact agrees
  | some i =>
      obtain ⟨occupied, -⟩ := ProcessTable.findTask_eq_some found
      dsimp only
      split
      · exact agrees
      · split
        · exact agrees.rewrite rfl rfl rfl occupied rfl rfl rfl
        · exact agrees.rewrite rfl rfl rfl occupied rfl rfl rfl

theorem waitChild_agrees (agrees : s.Agrees issued) (parentId childId : Nat) :
    (s.waitChild parentId childId).2.Agrees issued := by
  have after := s.waitChild_after parentId childId
  generalize (s.waitChild parentId childId).2 = s' at after ⊢
  cases after with
  | refuse => exact agrees
  | collect exited _ =>
      refine Agrees.of_agree ?_ rfl rfl (ProcessTable.task_of_slots rfl)
      exact Agree.reap agrees exited
  | stuck blocks => exact Agree.block_failed agrees blocks
  | block found live blocks =>
      obtain ⟨-, rfl⟩ := ProcessTable.findTask_eq_some found
      refine Agrees.of_agree ?_ rfl rfl (ProcessTable.task_of_slots rfl)
      refine Agree.block agrees live ?_ ?_ ?_ blocks
      all_goals rfl

/-! ### Waiting for messages -/

/-- The task and the scheduler block together. -/
theorem blockForIpc_agrees (agrees : s.Agrees issued) (taskId : Nat) :
    (s.blockForIpc taskId).2.Agrees issued := by
  have after := s.blockForIpc_after taskId
  generalize (s.blockForIpc taskId).2 = s' at after ⊢
  cases after with
  | refuse => exact agrees
  | stuck blocks => exact Agree.block_failed agrees blocks
  | block found awake blocks =>
      obtain ⟨-, rfl⟩ := ProcessTable.findTask_eq_some found
      refine Agrees.of_agree ?_ rfl rfl (ProcessTable.task_of_slots rfl)
      refine Agree.block agrees (live_of_state (awake.imp_right .inl)) ?_ ?_ ?_ blocks
      all_goals rfl

/-- A task that waits for a message can be woken. -/
theorem endIpcWait_wakes (agrees : s.Agrees issued) {i : Fin maxTasks}
    (blocked : (s.table.task i).state = .blocked) (receiving : (s.table.task i).ipcWaiting = true)
    (reason : IpcWakeReason) :
    ∃ scheduler, s.endIpcWait (s.table.task i).id reason =
      (true, { s with scheduler }.modify i fun task => task.woken reason) := by
  obtain ⟨scheduler, wakes, -⟩ := Agree.wakes agrees blocked
  refine ⟨scheduler, ?_⟩
  unfold endIpcWait
  rw [agrees.findTask (by rw [blocked]; decide)]
  dsimp only
  rw [if_neg (by simp [blocked, receiving]), wakes]

/-- Only a task that waits for a message is woken, and the others stay as they are. -/
theorem endIpcWait_cases (agrees : s.Agrees issued) (taskId : Nat) (reason : IpcWakeReason) :
    s.endIpcWait taskId reason = (false, s) ∨
    ∃ i scheduler, (s.table.task i).id = taskId ∧ (s.table.task i).state = .blocked ∧
      s.endIpcWait taskId reason =
        (true, { s with scheduler }.modify i fun task => task.woken reason) := by
  cases found : s.table.findTask taskId with
  | none =>
      unfold endIpcWait
      rw [found]
      exact Or.inl rfl
  | some i =>
      obtain ⟨-, rfl⟩ := ProcessTable.findTask_eq_some found
      by_cases waits : (s.table.task i).state = .blocked ∧ (s.table.task i).ipcWaiting = true
      · obtain ⟨scheduler, woken⟩ := endIpcWait_wakes agrees waits.1 waits.2 reason
        exact Or.inr ⟨i, scheduler, rfl, waits.1, woken⟩
      · unfold endIpcWait
        rw [found]
        refine Or.inl (if_pos ?_)
        simpa [imp_iff_not_or] using waits

theorem endIpcWait_agrees (agrees : s.Agrees issued) (taskId : Nat) (reason : IpcWakeReason) :
    (s.endIpcWait taskId reason).2.Agrees issued := by
  have after := s.endIpcWait_after taskId reason
  generalize (s.endIpcWait taskId reason).2 = s' at after ⊢
  cases after with
  | refuse => exact agrees
  | stuck found blocked _ wakes =>
      obtain ⟨-, rfl⟩ := ProcessTable.findTask_eq_some found
      exact absurd wakes (agrees.wakeTask_ne blocked)
  | wake found blocked _ wakes =>
      obtain ⟨-, rfl⟩ := ProcessTable.findTask_eq_some found
      refine Agrees.of_agree ?_ rfl rfl (ProcessTable.task_of_slots rfl)
      refine Agree.wake agrees blocked ?_ ?_ ?_ wakes
      all_goals rfl

theorem cancelIpcWait_agrees (agrees : s.Agrees issued) (taskId : Nat) :
    (s.cancelIpcWait taskId).2.Agrees issued := by
  have ended := endIpcWait_agrees agrees taskId .cancelled
  unfold cancelIpcWait
  generalize s.endIpcWait taskId .cancelled = result at ended
  obtain ⟨succeeded, s'⟩ := result
  cases succeeded with
  | false => exact ended
  | true => exact ended

theorem expireSlot_agrees (agrees : s.Agrees issued) (now : Nat) (i : Fin maxTasks) :
    (expireSlot now s i).Agrees issued := by
  have after := s.expireSlot_after now i
  generalize expireSlot now s i = s' at after ⊢
  cases after with
  | keep _ => exact agrees
  | stuck blocked wakes => exact absurd wakes (agrees.wakeTask_ne blocked)
  | wake blocked _ _ _ wakes =>
      refine Agrees.of_agree ?_ rfl rfl (ProcessTable.task_of_slots rfl)
      refine Agree.wake agrees blocked ?_ ?_ ?_ wakes
      all_goals rfl

theorem takeIpcWakeReason_agrees (agrees : s.Agrees issued) (taskId : Nat) :
    (s.takeIpcWakeReason taskId).2.Agrees issued := by
  unfold takeIpcWakeReason
  cases found : s.table.findTask taskId with
  | none => exact agrees
  | some i =>
      obtain ⟨occupied, -⟩ := ProcessTable.findTask_eq_some found
      have taken : (s.modify i fun task => { task with ipcWakeReason := .none }).Agrees issued :=
        agrees.rewrite rfl rfl rfl occupied rfl rfl rfl
      dsimp only
      split
      · refine taken.rewrite rfl rfl rfl ?_ rfl rfl rfl
        rw [show (s.modify i fun task => { task with ipcWakeReason := .none }).table.task =
          _ from ProcessTable.task_of_slots rfl, Function.update_self]
        exact occupied
      · exact taken

theorem completeIpcRestart_agrees (agrees : s.Agrees issued) (taskId : Nat) :
    (s.completeIpcRestart taskId).2.Agrees issued := by
  unfold completeIpcRestart
  cases found : s.table.findTask taskId with
  | none => exact agrees
  | some i =>
      obtain ⟨occupied, -⟩ := ProcessTable.findTask_eq_some found
      dsimp only
      split
      · exact agrees
      · exact agrees.rewrite rfl rfl rfl occupied rfl rfl rfl

end System

end CloudOS.Process
