import CloudOS.Ipc.Mailbox
import CloudOS.Process.Reachable

/-!
Tasks and their mailboxes, in step.

That a task waits for a message is recorded in its state, in its flag and in its
mailbox. The functions that end or start a wait change all three, with other
things in between; here are the combined changes, on tasks and mailboxes alone.
-/

namespace CloudOS.Process

open CloudOS.Ipc (Mailbox maxEndpoints)

/-- What a task needs to be switched to, and its two records of a wait. -/
structure Task.Fit (task : Task) (valid : Bool) : Prop where
  able : task.live = true →
    valid = true ∧ task.addressSpaceRoot ≠ 0 ∧ task.resourcesActive = true
  orphan : task.parentId = 0
  flag : task.ipcWaiting = true ↔ task.state = .blocked
  retired : task.state = .exited → task.resourcesActive = false

theorem Task.Fit.congr {task task' : Task} {valid : Bool} (fit : task.Fit valid)
    (state : task'.state = task.state) (waiting : task'.ipcWaiting = task.ipcWaiting)
    (parent : task'.parentId = task.parentId)
    (root : task'.addressSpaceRoot = task.addressSpaceRoot)
    (resources : task'.resourcesActive = task.resourcesActive) : task'.Fit valid where
  able := fun live => by
    rw [root, resources]
    exact fit.able (by rwa [Task.live, ← state])
  orphan := parent.trans fit.orphan
  flag := by rw [waiting, state, fit.flag]
  retired := by
    rw [state, resources]
    exact fit.retired

/-- The task can run and does not wait. -/
theorem Task.Fit.awake {task task' : Task} {valid : Bool} (fit : task.Fit valid)
    (live : task.live = true) (live' : task'.live = true) (state : task'.state ≠ .blocked)
    (waiting : task'.ipcWaiting = false) (parent : task'.parentId = task.parentId)
    (root : task'.addressSpaceRoot = task.addressSpaceRoot)
    (resources : task'.resourcesActive = task.resourcesActive) : task'.Fit valid where
  able := fun _ => by
    rw [root, resources]
    exact fit.able live
  orphan := parent.trans fit.orphan
  flag := by simp [waiting, state]
  retired := fun exited => absurd exited (Task.live_iff.mp live').2

theorem Task.Fit.woken {task : Task} {valid : Bool} (fit : task.Fit valid)
    (live : task.live = true) (reason : IpcWakeReason) : (task.woken reason).Fit valid :=
  fit.awake live rfl (fun blocked => by cases blocked) rfl rfl rfl rfl

theorem Task.Fit.not_waiting {task : Task} {valid : Bool} (fit : task.Fit valid)
    (state : task.state ≠ .blocked) : task.ipcWaiting = false := by
  cases waiting : task.ipcWaiting with
  | false => rfl
  | true => exact absurd (fit.flag.mp waiting) state

/-- The mailbox is the one of the task and agrees with it on the wait. -/
structure Paired (task : Task) (mailbox : Mailbox) : Prop where
  owner : mailbox.owner = task.id
  waiting : mailbox.waiting = true ↔ task.state = .blocked
  empty : mailbox.waiting = true → mailbox.len = 0

structure Attuned (tasks : Fin maxTasks → Task) (valid : Fin maxTasks → Bool)
    (mailboxes : Fin maxEndpoints → Mailbox) : Prop where
  fit : ∀ i, (tasks i).Fit (valid i)
  paired : ∀ i, (tasks i).live = true → ∃ e, Paired (tasks i) (mailboxes e)
  owned : ∀ e, (mailboxes e).owner ≠ 0 →
    ∃ i, (tasks i).live = true ∧ (tasks i).id = (mailboxes e).owner
  single : ∀ e e', (mailboxes e).owner ≠ 0 → (mailboxes e').owner = (mailboxes e).owner → e' = e
  free : ∀ e, (mailboxes e).owner = 0 → (mailboxes e).waiting = false

/-- Live tasks have ids of their own. -/
structure Named (tasks : Fin maxTasks → Task) : Prop where
  nonzero : ∀ i, (tasks i).live = true → (tasks i).id ≠ 0
  distinct : ∀ i j, (tasks i).live = true → (tasks j).live = true →
    (tasks i).id = (tasks j).id → i = j

theorem Agree.named {issued nextTaskId : Nat} {scheduler : Scheduler}
    {tasks : Fin maxTasks → Task} (agree : Agree issued scheduler nextTaskId tasks) :
    Named tasks where
  nonzero := fun i live => by
    have := agree.ids i (Task.live_iff.mp live).1
    omega
  distinct := fun i j liveI liveJ =>
    agree.distinct i j (Task.live_iff.mp liveI).1 (Task.live_iff.mp liveJ).1

namespace Attuned

variable {tasks : Fin maxTasks → Task} {valid : Fin maxTasks → Bool}
  {mailboxes : Fin maxEndpoints → Mailbox}

theorem paired_of_owner (attuned : Attuned tasks valid mailboxes) (named : Named tasks)
    {i : Fin maxTasks} (live : (tasks i).live = true) {e : Fin maxEndpoints}
    (owner : (mailboxes e).owner = (tasks i).id) : Paired (tasks i) (mailboxes e) := by
  obtain ⟨e', pair⟩ := attuned.paired i live
  have same : e' = e := attuned.single e e' (owner ▸ named.nonzero i live)
    (pair.owner.trans owner.symm)
  exact same ▸ pair

/-- The task behind a mailbox that somebody waits at. -/
theorem waiter (attuned : Attuned tasks valid mailboxes) (named : Named tasks)
    {e : Fin maxEndpoints} (waiting : (mailboxes e).waiting = true) :
    ∃ i, (tasks i).state = .blocked ∧ (tasks i).live = true ∧ Paired (tasks i) (mailboxes e) := by
  have nonzero : (mailboxes e).owner ≠ 0 := fun zero => by
    rw [attuned.free e zero] at waiting
    cases waiting
  obtain ⟨i, live, owner⟩ := attuned.owned e nonzero
  have pair := attuned.paired_of_owner named live owner.symm
  exact ⟨i, pair.waiting.mp waiting, live, pair⟩

theorem save (attuned : Attuned tasks valid mailboxes) (i : Fin maxTasks) :
    Attuned tasks (Function.update valid i true) mailboxes := by
  refine { attuned with fit := ?_ }
  refine (Function.forall_update_iff valid fun j valid => (tasks j).Fit valid).mpr
    ⟨?_, fun j _ => attuned.fit j⟩
  exact { attuned.fit i with able := fun live => ⟨rfl, ((attuned.fit i).able live).2⟩ }

/-- A mailbox changes its length while nobody waits at it, or stays empty. -/
theorem remail (attuned : Attuned tasks valid mailboxes) {e : Fin maxEndpoints} {mailbox : Mailbox}
    (owner : mailbox.owner = (mailboxes e).owner) (waiting : mailbox.waiting = (mailboxes e).waiting)
    (empty : mailbox.waiting = true → mailbox.len = 0) :
    Attuned tasks valid (Function.update mailboxes e mailbox) := by
  have sameOwner : ∀ e', (Function.update mailboxes e mailbox e').owner = (mailboxes e').owner :=
    (Function.forall_update_iff mailboxes fun e' mailbox =>
      mailbox.owner = (mailboxes e').owner).mpr ⟨owner, fun _ _ => rfl⟩
  have sameWaiting : ∀ e', (Function.update mailboxes e mailbox e').waiting =
      (mailboxes e').waiting :=
    (Function.forall_update_iff mailboxes fun e' mailbox =>
      mailbox.waiting = (mailboxes e').waiting).mpr ⟨waiting, fun _ _ => rfl⟩
  refine ⟨attuned.fit, fun i live => ?_, fun e' => ?_, fun e' e'' => ?_, fun e' => ?_⟩
  · obtain ⟨e', pair⟩ := attuned.paired i live
    refine ⟨e', (sameOwner e').trans pair.owner, by rw [sameWaiting]; exact pair.waiting, ?_⟩
    by_cases here : e' = e
    · rw [here, Function.update_self]
      exact empty
    · rw [Function.update_of_ne here]
      exact pair.empty
  · rw [sameOwner]
    exact attuned.owned e'
  · rw [sameOwner, sameOwner]
    exact attuned.single e' e''
  · rw [sameOwner, sameWaiting]
    exact attuned.free e'

/-- A task changes, but not whether it waits. -/
theorem retask (attuned : Attuned tasks valid mailboxes) {i : Fin maxTasks} (task : Task)
    (id : task.id = (tasks i).id) (live : task.live = (tasks i).live)
    (blocked : task.state = .blocked ↔ (tasks i).state = .blocked) (fit : task.Fit (valid i)) :
    Attuned (Function.update tasks i task) valid mailboxes := by
  have same : ∀ j, (Function.update tasks i task j).id = (tasks j).id ∧
      (Function.update tasks i task j).live = (tasks j).live ∧
      ((Function.update tasks i task j).state = .blocked ↔ (tasks j).state = .blocked) :=
    (Function.forall_update_iff tasks fun j task => task.id = (tasks j).id ∧
      task.live = (tasks j).live ∧ (task.state = .blocked ↔ (tasks j).state = .blocked)).mpr
      ⟨⟨id, live, blocked⟩, fun _ _ => ⟨rfl, rfl, Iff.rfl⟩⟩
  refine ⟨?_, fun j liveJ => ?_, fun e owned => ?_, attuned.single, attuned.free⟩
  · exact (Function.forall_update_iff tasks fun j task => task.Fit (valid j)).mpr
      ⟨fit, fun j _ => attuned.fit j⟩
  · obtain ⟨sameId, sameLive, sameBlocked⟩ := same j
    obtain ⟨e, pair⟩ := attuned.paired j (sameLive ▸ liveJ)
    exact ⟨e, pair.owner.trans sameId.symm, pair.waiting.trans sameBlocked.symm, pair.empty⟩
  · obtain ⟨j, liveJ, owner⟩ := attuned.owned e owned
    obtain ⟨sameId, sameLive, -⟩ := same j
    exact ⟨j, sameLive.trans liveJ, sameId.trans owner⟩

/-- A task takes over the processor. -/
theorem schedule (attuned : Attuned tasks valid mailboxes) {i : Fin maxTasks}
    (live : (tasks i).live = true) (unblocked : (tasks i).state ≠ .blocked) (ticks waited : Nat) :
    Attuned (Function.update tasks i ((tasks i).scheduled ticks waited)) valid mailboxes := by
  have fit := attuned.fit i
  refine attuned.retask _ rfl live.symm
    ⟨fun blocked => (by cases blocked), fun blocked => absurd blocked unblocked⟩ ?_
  exact fit.awake live rfl (fun blocked => by cases blocked) (fit.not_waiting unblocked) rfl rfl rfl

/-- A task and its mailbox change together. -/
theorem change (attuned : Attuned tasks valid mailboxes) (named : Named tasks) {i : Fin maxTasks}
    (live : (tasks i).live = true) {e : Fin maxEndpoints}
    (owner : (mailboxes e).owner = (tasks i).id) (task : Task) (mailbox : Mailbox)
    (id : task.id = (tasks i).id) (live' : task.live = true) (fit : task.Fit (valid i))
    (pair : Paired task mailbox) :
    Attuned (Function.update tasks i task) valid (Function.update mailboxes e mailbox) := by
  have sameOwner : ∀ e', (Function.update mailboxes e mailbox e').owner = (mailboxes e').owner :=
    (Function.forall_update_iff mailboxes fun e' mailbox =>
      mailbox.owner = (mailboxes e').owner).mpr
      ⟨pair.owner.trans (id.trans owner.symm), fun _ _ => rfl⟩
  refine ⟨?_, fun j liveJ => ?_, fun e' owned => ?_, fun e' e'' => ?_, fun e' zero => ?_⟩
  · exact (Function.forall_update_iff tasks fun j task => task.Fit (valid j)).mpr
      ⟨fit, fun j _ => attuned.fit j⟩
  · by_cases here : j = i
    · subst here
      exact ⟨e, by rwa [Function.update_self, Function.update_self]⟩
    · rw [Function.update_of_ne here] at liveJ ⊢
      obtain ⟨e', pair'⟩ := attuned.paired j liveJ
      have elsewhere : e' ≠ e := by
        rintro rfl
        exact here (named.distinct j i liveJ live (pair'.owner.symm.trans owner))
      exact ⟨e', by rwa [Function.update_of_ne elsewhere]⟩
  · rw [sameOwner] at owned ⊢
    obtain ⟨j, liveJ, ownerJ⟩ := attuned.owned e' owned
    by_cases here : j = i
    · subst here
      exact ⟨j, by rwa [Function.update_self], by rw [Function.update_self, id, ownerJ]⟩
    · exact ⟨j, by rwa [Function.update_of_ne here], by rwa [Function.update_of_ne here]⟩
  · rw [sameOwner, sameOwner]
    exact attuned.single e' e''
  · rw [sameOwner] at zero
    by_cases here : e' = e
    · rw [here, owner] at zero
      exact absurd zero (named.nonzero i live)
    · rw [Function.update_of_ne here]
      exact attuned.free e' zero

/-- A task gives up waiting at its mailbox. -/
theorem wake (attuned : Attuned tasks valid mailboxes) (named : Named tasks) {i : Fin maxTasks}
    (live : (tasks i).live = true) {e : Fin maxEndpoints}
    (owner : (mailboxes e).owner = (tasks i).id) (reason : IpcWakeReason) :
    Attuned (Function.update tasks i ((tasks i).woken reason)) valid
      (Function.update mailboxes e { mailboxes e with waiting := false }) := by
  refine attuned.change named live owner _ _ rfl rfl ((attuned.fit i).woken live reason) ?_
  exact ⟨owner, by simp [Task.woken], fun waiting => by cases waiting⟩

/-- A task starts to wait at its empty mailbox, and another one takes over. -/
theorem sleep (attuned : Attuned tasks valid mailboxes) (named : Named tasks) {i j : Fin maxTasks}
    (live : (tasks i).live = true) {e : Fin maxEndpoints}
    (owner : (mailboxes e).owner = (tasks i).id) (empty : (mailboxes e).len = 0) (other : j ≠ i)
    (liveNext : (tasks j).live = true) (unblocked : (tasks j).state ≠ .blocked)
    (deadlineTick ticks waited : Nat) :
    Attuned (Function.update (Function.update tasks i ((tasks i).asleep deadlineTick)) j
        ((tasks j).scheduled ticks waited)) (Function.update valid i true)
      (Function.update mailboxes e { mailboxes e with waiting := true }) := by
  have saved := attuned.save i
  have fit : ((tasks i).asleep deadlineTick).Fit (Function.update valid i true i) :=
    { able := fun _ => (saved.fit i).able live
      orphan := (saved.fit i).orphan
      flag := by simp [Task.asleep]
      retired := fun exited => by cases exited }
  have slept := saved.change named live owner ((tasks i).asleep deadlineTick)
    { mailboxes e with waiting := true } rfl rfl fit
    ⟨owner, by simp [Task.asleep], fun _ => empty⟩
  have same := Function.update_of_ne other ((tasks i).asleep deadlineTick) tasks
  have started := slept.schedule (i := j) (by rwa [same]) (by rwa [same]) ticks waited
  rwa [same] at started

/-- A task goes back to the queue, and another one takes over. -/
theorem preempt (attuned : Attuned tasks valid mailboxes) {i j : Fin maxTasks}
    (live : (tasks i).live = true) (unblocked : (tasks i).state ≠ .blocked) (other : j ≠ i)
    (liveNext : (tasks j).live = true) (unblockedNext : (tasks j).state ≠ .blocked)
    (ticks waited : Nat) :
    Attuned (Function.update (Function.update tasks i (tasks i).preempted) j
      ((tasks j).scheduled ticks waited)) (Function.update valid i true) mailboxes := by
  have saved := attuned.save i
  have fit : (tasks i).preempted.Fit (Function.update valid i true i) :=
    (saved.fit i).awake live rfl (fun blocked => by cases blocked)
      ((saved.fit i).not_waiting unblocked) rfl rfl rfl
  have queued := saved.retask (tasks i).preempted rfl live.symm
    ⟨fun blocked => (by cases blocked), fun blocked => absurd blocked unblocked⟩ fit
  have same := Function.update_of_ne other (tasks i).preempted tasks
  have started := queued.schedule (i := j) (by rwa [same]) (by rwa [same]) ticks waited
  rwa [same] at started

/-- A new task with a mailbox of its own. -/
theorem install (attuned : Attuned tasks valid mailboxes) (named : Named tasks)
    {i : Fin maxTasks} (vacant : (tasks i).live = false) {e : Fin maxEndpoints}
    (unowned : (mailboxes e).owner = 0) (task : Task)
    (fresh : ∀ j, (tasks j).live = true → (tasks j).id ≠ task.id) (nonzero : task.id ≠ 0)
    (state : task.state = .ready) (fit : task.Fit true) :
    Attuned (Function.update tasks i task) (Function.update valid i true)
      (Function.update mailboxes e ⟨task.id, false, 0⟩) := by
  have live : task.live = true := by simp [Task.live, state]
  have others : ∀ e', (mailboxes e').owner ≠ task.id := by
    intro e' owner
    obtain ⟨j, liveJ, ownerJ⟩ := attuned.owned e' (owner ▸ nonzero)
    exact fresh j liveJ (ownerJ.trans owner)
  refine ⟨fun j => ?_, fun j liveJ => ?_, fun e' owned => ?_, fun e' e'' owned same => ?_,
    fun e' zero => ?_⟩
  · by_cases here : j = i
    · subst here
      rw [Function.update_self, Function.update_self]
      exact fit
    · rw [Function.update_of_ne here, Function.update_of_ne here]
      exact attuned.fit j
  · by_cases here : j = i
    · subst here
      refine ⟨e, ?_⟩
      rw [Function.update_self, Function.update_self]
      exact ⟨rfl, by simp [state], fun _ => rfl⟩
    · rw [Function.update_of_ne here] at liveJ ⊢
      obtain ⟨e', pair⟩ := attuned.paired j liveJ
      have elsewhere : e' ≠ e := by
        rintro rfl
        exact named.nonzero j liveJ (pair.owner.symm.trans unowned)
      exact ⟨e', by rwa [Function.update_of_ne elsewhere]⟩
  · by_cases here : e' = e
    · subst here
      exact ⟨i, by rwa [Function.update_self], by rw [Function.update_self, Function.update_self]⟩
    · rw [Function.update_of_ne here] at owned ⊢
      obtain ⟨j, liveJ, ownerJ⟩ := attuned.owned e' owned
      have elsewhere : j ≠ i := by
        rintro rfl
        rw [vacant] at liveJ
        cases liveJ
      exact ⟨j, by rwa [Function.update_of_ne elsewhere], by rwa [Function.update_of_ne elsewhere]⟩
  · by_cases here : e' = e
    · by_cases here' : e'' = e
      · rw [here, here']
      · rw [here, Function.update_self, Function.update_of_ne here'] at same
        exact absurd same (others e'')
    · rw [Function.update_of_ne here] at owned same
      by_cases here' : e'' = e
      · rw [here', Function.update_self] at same
        exact absurd same.symm (others e')
      · rw [Function.update_of_ne here'] at same
        exact attuned.single e' e'' owned same
  · by_cases here : e' = e
    · rw [here, Function.update_self]
    · rw [Function.update_of_ne here] at zero ⊢
      exact attuned.free e' zero

/-- A task goes and its mailbox is cleared. -/
theorem remove (attuned : Attuned tasks valid mailboxes) (named : Named tasks) {i : Fin maxTasks}
    (live : (tasks i).live = true) {e : Fin maxEndpoints}
    (owner : (mailboxes e).owner = (tasks i).id) (task : Task) (dead : task.live = false)
    (fit : task.Fit (valid i)) :
    Attuned (Function.update tasks i task) valid (Function.update mailboxes e Mailbox.empty) := by
  refine ⟨?_, fun j liveJ => ?_, fun e' owned => ?_, fun e' e'' owned same => ?_, fun e' zero => ?_⟩
  · exact (Function.forall_update_iff tasks fun j task => task.Fit (valid j)).mpr
      ⟨fit, fun j _ => attuned.fit j⟩
  · by_cases here : j = i
    · rw [here, Function.update_self, dead] at liveJ
      cases liveJ
    · rw [Function.update_of_ne here] at liveJ ⊢
      obtain ⟨e', pair⟩ := attuned.paired j liveJ
      have elsewhere : e' ≠ e := by
        rintro rfl
        exact here (named.distinct j i liveJ live (pair.owner.symm.trans owner))
      exact ⟨e', by rwa [Function.update_of_ne elsewhere]⟩
  · by_cases here : e' = e
    · rw [here, Function.update_self] at owned
      exact absurd rfl owned
    · rw [Function.update_of_ne here] at owned ⊢
      obtain ⟨j, liveJ, ownerJ⟩ := attuned.owned e' owned
      have elsewhere : j ≠ i := by
        rintro rfl
        exact here (attuned.single e e' (by rw [owner, ownerJ]; exact owned)
          (ownerJ.symm.trans owner.symm))
      exact ⟨j, by rwa [Function.update_of_ne elsewhere], by rwa [Function.update_of_ne elsewhere]⟩
  · by_cases here : e' = e
    · rw [here, Function.update_self] at owned
      exact absurd rfl owned
    · rw [Function.update_of_ne here] at owned same
      by_cases here' : e'' = e
      · rw [here', Function.update_self] at same
        exact absurd same.symm owned
      · rw [Function.update_of_ne here'] at same
        exact attuned.single e' e'' owned same
  · by_cases here : e' = e
    · rw [here, Function.update_self]
      rfl
    · rw [Function.update_of_ne here] at zero ⊢
      exact attuned.free e' zero

end Attuned

end CloudOS.Process
