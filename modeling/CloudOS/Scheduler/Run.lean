import CloudOS.Scheduler.Placement

/-!
Runs of the scheduler.

The operations may come in any order and with any ids, except that a task that
is blocked is not enqueued from outside. Every state of such a run has each task
in one place at most, and the operations that only move tasks lose none.
-/

namespace CloudOS

open Lib.Word (satAdd)

namespace Scheduler

/-- The method behind the public `on_timer_tick`, which calls it once the
scheduler is initialized. -/
def onTimerTickAlways (s : Scheduler) : Scheduler :=
  let s := { s with timerTicks := satAdd s.timerTicks 1 }
  if s.currentTask ≠ 0 then
    { s with
      accountedTicks := satAdd s.accountedTicks 1
      sliceTicks := satAdd s.sliceTicks 1 }
  else s

theorem onTimerTick_eq (s : Scheduler) :
    s.onTimerTick = if s.initialized then s.onTimerTickAlways else s := rfl

inductive Op where
  | init (ticks : Nat)
  | enqueue (taskId : Nat)
  | beginTask (taskId : Nat)
  | finishTask (taskId : Nat)
  | yieldCurrent
  | blockTask (taskId : Nat)
  | blockCurrentAndDispatch (taskId : Nat)
  | wakeTask (taskId : Nat)
  | onTimerTick
  | onTimerTickAlways
  | preemptCurrent
deriving DecidableEq

def step (s : Scheduler) : Op → Scheduler
  | .init ticks => s.init ticks
  | .enqueue taskId => (s.enqueue taskId).2
  | .beginTask taskId => s.beginTask taskId
  | .finishTask taskId => s.finishTask taskId
  | .yieldCurrent => s.yieldCurrent.2
  | .blockTask taskId => (s.blockTask taskId).2
  | .blockCurrentAndDispatch taskId => (s.blockCurrentAndDispatch taskId).2
  | .wakeTask taskId => (s.wakeTask taskId).2
  | .onTimerTick => s.onTimerTick
  | .onTimerTickAlways => s.onTimerTickAlways
  | .preemptCurrent => s.preemptCurrent.2

/-- A task that is blocked is woken, not enqueued. -/
def Op.Allowed (s : Scheduler) : Op → Prop
  | enqueue taskId => taskId ∉ s.blockedTasks
  | _ => True

instance (s : Scheduler) : DecidablePred (Op.Allowed s)
  | .enqueue taskId => inferInstanceAs (Decidable (taskId ∉ s.blockedTasks))
  | .init _ | .beginTask _ | .finishTask _ | .yieldCurrent | .blockTask _
  | .blockCurrentAndDispatch _ | .wakeTask _ | .onTimerTick | .onTimerTickAlways
  | .preemptCurrent => inferInstanceAs (Decidable True)

def run (s : Scheduler) (ops : List Op) : Scheduler := ops.foldl step s

/-- Every operation is allowed where it comes. -/
def AllAllowed (s : Scheduler) : List Op → Prop
  | [] => True
  | op :: ops => op.Allowed s ∧ (s.step op).AllAllowed ops

instance decidableAllAllowed : (s : Scheduler) → (ops : List Op) → Decidable (s.AllAllowed ops)
  | _, [] => inferInstanceAs (Decidable True)
  | s, op :: ops =>
      have := decidableAllAllowed (s.step op) ops
      inferInstanceAs (Decidable (op.Allowed s ∧ (s.step op).AllAllowed ops))

/-- The tasks with a place: current, queued or blocked, and zero is no task. -/
def tasks (s : Scheduler) : Set Nat :=
  {id | id ≠ 0 ∧ (id = s.currentTask ∨ id ∈ s.queued ∨ id ∈ s.blockedTasks)}

/-- The operations that move tasks without starting or finishing one. -/
def Op.Moves : Op → Prop
  | blockTask _ | blockCurrentAndDispatch _ | wakeTask _ | preemptCurrent | yieldCurrent
  | onTimerTick | onTimerTickAlways => True
  | _ => False

end Scheduler

/-! ### What a move does to the tasks -/

namespace Placement

variable {p : Placement} {id x : Nat}

theorem has_block (has : p.Has id) (nonzero : id ≠ 0) : (p.block id).Has x ↔ p.Has x := by
  unfold Has block
  dsimp only
  by_cases same : x = id
  · subst same
    exact iff_of_true (Or.inr (Or.inl (mem_concat.mpr (Or.inr rfl)))) has
  · rw [List.mem_erase_of_ne same, mem_concat, or_iff_left same]
    split
    · rename_i isCurrent
      rw [isCurrent, iff_false_intro same, false_and]
      exact or_congr_right (or_congr_right (iff_false_intro fun h => h.2 h.1))
    · exact Iff.rfl

theorem has_wake (blocked : id ∈ p.blocked) : (p.wake id).Has x ↔ p.Has x := by
  unfold Has wake
  dsimp only
  by_cases same : x = id
  · subst same
    exact iff_of_true (Or.inl (mem_concat.mpr (Or.inr rfl))) (Or.inr (Or.inl blocked))
  · rw [List.mem_erase_of_ne same, mem_concat, or_iff_left same]

/-- Dispatching loses no task. -/
theorem has_dispatch (running : p.current ≠ 0) (mem : id ∈ p.queued) (sound : p.Sound) :
    (p.dispatch id).Has x ↔ p.Has x := by
  unfold Has dispatch
  dsimp only
  have nonzero : id ≠ 0 := fun zero => sound.nonzero.1 (zero ▸ mem)
  by_cases same : x = id
  · subst same
    exact iff_of_true (Or.inr (Or.inr ⟨rfl, nonzero⟩)) (Or.inl mem)
  · rw [List.mem_erase_of_ne same, mem_concat]
    constructor
    · rintro (mem | (mem | rfl) | ⟨isId, -⟩)
      · exact Or.inl mem
      · exact Or.inr (Or.inl mem)
      · exact Or.inr (Or.inr ⟨rfl, running⟩)
      · exact absurd isId same
    · rintro (mem | mem | ⟨isCurrent, -⟩)
      · exact Or.inl mem
      · exact Or.inr (Or.inl (Or.inl mem))
      · exact Or.inr (Or.inl (Or.inr isCurrent))

/-- Rotating loses no task. -/
theorem has_rotate (running : p.current ≠ 0) (mem : id ∈ p.queued) (sound : p.Sound) :
    (p.rotate id).Has x ↔ p.Has x := by
  unfold Has rotate
  dsimp only
  have nonzero : id ≠ 0 := fun zero => sound.nonzero.1 (zero ▸ mem)
  by_cases same : x = id
  · subst same
    exact iff_of_true (Or.inr (Or.inr ⟨rfl, nonzero⟩)) (Or.inl mem)
  · rw [mem_concat, List.mem_erase_of_ne same]
    constructor
    · rintro ((mem | rfl) | mem | ⟨isId, -⟩)
      · exact Or.inl mem
      · exact Or.inr (Or.inr ⟨rfl, running⟩)
      · exact Or.inr (Or.inl mem)
      · exact absurd isId same
    · rintro (mem | mem | ⟨isCurrent, -⟩)
      · exact Or.inl (Or.inl mem)
      · exact Or.inr (Or.inl mem)
      · exact Or.inl (Or.inr isCurrent)

end Placement

namespace Scheduler

variable {s : Scheduler}

/-- The tasks of a scheduler are those in one of its places. -/
theorem Sound.mem_tasks (sound : s.Sound) {id : Nat} : id ∈ s.tasks ↔ s.placement.Has id := by
  constructor
  · rintro ⟨nonzero, isCurrent | queued | blocked⟩
    · exact Or.inr (Or.inr ⟨isCurrent, nonzero⟩)
    · exact Or.inl queued
    · exact Or.inr (Or.inl blocked)
  · rintro (queued | blocked | ⟨isCurrent, nonzero⟩)
    · exact ⟨fun zero => sound.places.nonzero.1 (zero ▸ queued), Or.inr (Or.inl queued)⟩
    · exact ⟨fun zero => sound.places.nonzero.2 (zero ▸ blocked), Or.inr (Or.inr blocked)⟩
    · exact ⟨nonzero, Or.inl isCurrent⟩

/-- `s'` is a sound state with the tasks of `s`. -/
def KeepsTasks (s s' : Scheduler) : Prop := s'.Sound ∧ s'.tasks = s.tasks

theorem Sound.keepsTasks (sound : s.Sound) {s' : Scheduler} (sound' : s'.Sound)
    (same : ∀ id, s'.placement.Has id ↔ s.placement.Has id) : KeepsTasks s s' := by
  refine ⟨sound', Set.ext fun id => ?_⟩
  rw [sound'.mem_tasks, sound.mem_tasks, same]

theorem Sound.keepsTasks_of_places (sound : s.Sound) {s' : Scheduler} (sound' : s'.Sound)
    (places : s'.placement = s.placement) : KeepsTasks s s' :=
  sound.keepsTasks sound' fun id => by rw [places]

/-! ### Steps -/

theorem Sound.enqueue (sound : s.Sound) {id : Nat} (unblocked : id ∉ s.blockedTasks) :
    (s.enqueue id).2.Sound := by
  unfold Scheduler.enqueue
  by_cases fresh : id ≠ 0 ∧ ¬ s.placement.Has id ∧ s.len < queueCapacity
  · obtain ⟨nonzero, hasNot, space⟩ := fresh
    obtain ⟨s', eq, -, sound'⟩ := sound.enqueueAt nonzero hasNot space s.timerTicks
    rw [eq]
    exact sound'
  · unfold Scheduler.enqueueAt
    split
    · exact ⟨sound.head, sound.len, sound.blockedLen, sound.places⟩
    rename_i nonzero
    split
    · exact sound
    rename_i absent
    split
    · exact ⟨sound.head, sound.len, sound.blockedLen, sound.places⟩
    rename_i space
    simp only [contains, Bool.or_eq_true, List.contains_iff_mem, beq_iff_eq, not_or] at absent
    refine absurd ⟨nonzero, ?_, not_le.mp space⟩ fresh
    rintro (queued | blocked | ⟨isCurrent, -⟩)
    · exact absent.1 queued
    · exact unblocked blocked
    · exact absent.2 isCurrent.symm

/-- Blocking a task loses none. -/
theorem Sound.blockTask (sound : s.Sound) (id : Nat) : KeepsTasks s (s.blockTask id).2 := by
  rcases sound.blockTask_cases id with ⟨s', eq, places, sound'⟩ | ⟨eq, -⟩ |
    ⟨s', eq, places, sound', has, -⟩
  · rw [eq]
    exact sound.keepsTasks_of_places sound' places
  · rw [eq]
    exact ⟨sound, rfl⟩
  · rw [eq]
    have nonzero : id ≠ 0 := by
      rintro rfl
      rcases has with queued | blocked | ⟨-, nonzero⟩
      · exact sound.places.nonzero.1 queued
      · exact sound.places.nonzero.2 blocked
      · exact nonzero rfl
    refine sound.keepsTasks sound' fun x => ?_
    rw [places]
    exact Placement.has_block has nonzero

theorem Sound.blockCurrentAndDispatch (sound : s.Sound) (id : Nat) :
    KeepsTasks s (s.blockCurrentAndDispatch id).2 := by
  rcases sound.blockCurrentAndDispatch_cases id with ⟨decision, eq, -⟩ |
    ⟨decision, s', eq, -, -, isCurrent, nonzero, mem, places, sound'⟩
  · rw [eq]
    exact ⟨sound, rfl⟩
  · rw [eq]
    refine sound.keepsTasks sound' fun x => ?_
    rw [places]
    exact Placement.has_dispatch (fun zero => nonzero (isCurrent.symm.trans zero)) mem sound.places

/-- A task that cannot be queued goes back to the blocked tasks, as the last one. -/
theorem Sound.wakeTask_full (sound : s.Sound) {id : Nat} (blocked : id ∈ s.blockedTasks)
    (full : s.len = queueCapacity) :
    (s.wakeTask id).2.placement =
        { s.placement with blocked := s.blockedTasks.erase id ++ [id] } ∧
      (s.wakeTask id).2.Sound := by
  have nonzero : id ≠ 0 := fun zero => sound.places.nonzero.2 (zero ▸ blocked)
  have notQueued : id ∉ s.queued := fun mem => sound.places.apart id mem blocked
  have notCurrent : s.currentTask ≠ id := by
    rintro rfl
    exact sound.places.current.2 blocked
  obtain ⟨s', eq, places, head, len, blockedLen, removed⟩ := sound.removeBlocked id
  have space : s'.blockedLen < queueCapacity := by
    have := sound.blockedLen
    have := removed blocked
    omega
  have queued' : s'.queued = s.queued := congrArg Placement.queued places
  have blocked' : s'.blockedTasks = s.blockedTasks.erase id := congrArg Placement.blocked places
  have current' : s'.currentTask = s.currentTask := congrArg Placement.current places
  unfold Scheduler.wakeTask Scheduler.enqueueAt
  rw [if_neg nonzero, if_neg (by simp [contains, notQueued, notCurrent]), eq,
    List.contains_iff_mem.mpr blocked]
  dsimp only
  rw [if_neg nonzero, if_neg (by simp [contains, queued', current', notQueued, notCurrent]),
    if_pos (by omega)]
  have pushed := pushBlocked_blockedTasks (s := { s' with
    failedEnqueues := satAdd s'.failedEnqueues 1 }) space id
  have back : ((({ s' with failedEnqueues := satAdd s'.failedEnqueues 1 } :
      Scheduler).pushBlocked id).failWakeup).placement =
        { s.placement with blocked := s.blockedTasks.erase id ++ [id] } := by
    change Placement.mk s'.queued (Scheduler.blockedTasks _) s'.currentTask = _
    rw [queued', current']
    exact congrArg (fun l => Placement.mk s.queued l s.currentTask)
      (pushed.trans (congrArg (· ++ [id]) blocked'))
  refine ⟨back, Sound.of_places back (head ▸ sound.head) (len ▸ sound.len) space ?_⟩
  refine
    { queued := sound.places.queued
      blocked := Placement.nodup_concat (sound.places.blocked.erase id)
        sound.places.blocked.not_mem_erase
      apart := fun x mem mem' => ?_
      current := ⟨sound.places.current.1, fun mem => ?_⟩
      nonzero := ⟨sound.places.nonzero.1, fun mem => ?_⟩ }
  · rcases Placement.mem_concat.mp mem' with mem' | rfl
    · exact sound.places.apart x mem (List.mem_of_mem_erase mem')
    · exact notQueued mem
  · rcases Placement.mem_concat.mp mem with mem | isId
    · exact sound.places.current.2 (List.mem_of_mem_erase mem)
    · exact notCurrent isId
  · rcases Placement.mem_concat.mp mem with mem | isId
    · exact sound.places.nonzero.2 (List.mem_of_mem_erase mem)
    · exact nonzero isId.symm

/-- Only a blocked task is moved by a wakeup. -/
theorem Sound.wakeTask_placement_of_not_mem (sound : s.Sound) {id : Nat}
    (unblocked : id ∉ s.blockedTasks) :
    (s.wakeTask id).2.placement = s.placement ∧ (s.wakeTask id).2.Sound := by
  obtain ⟨s', eq, places, head, len, blockedLen, -⟩ := sound.removeBlocked id
  rw [List.erase_of_not_mem unblocked] at places
  unfold Scheduler.wakeTask
  split
  · exact ⟨rfl, sound.head, sound.len, sound.blockedLen, sound.places⟩
  split
  · exact ⟨rfl, sound⟩
  rw [eq, Bool.eq_false_iff.mpr (fun mem => unblocked (List.contains_iff_mem.mp mem))]
  exact ⟨places, Sound.of_places (s := s'.failWakeup) places (head ▸ sound.head)
    (len ▸ sound.len) (blockedLen.trans sound.blockedLen) sound.places⟩

/-- Waking a task loses none. -/
theorem Sound.wakeTask_keeps (sound : s.Sound) (id : Nat) : KeepsTasks s (s.wakeTask id).2 := by
  by_cases blocked : id ∈ s.blockedTasks
  · by_cases space : s.len < queueCapacity
    · obtain ⟨s', eq, places, sound'⟩ := sound.wakeTask blocked space
      rw [eq]
      refine sound.keepsTasks sound' fun x => ?_
      rw [places]
      exact Placement.has_wake blocked
    · obtain ⟨places, sound'⟩ := sound.wakeTask_full blocked (le_antisymm sound.len (not_lt.mp space))
      refine sound.keepsTasks sound' fun x => ?_
      rw [places]
      unfold Placement.Has
      dsimp only
      rw [(List.perm_append_singleton id _).mem_iff,
        ← (List.perm_cons_erase blocked).mem_iff]
      exact Iff.rfl
  · obtain ⟨places, sound'⟩ := sound.wakeTask_placement_of_not_mem blocked
    exact sound.keepsTasks_of_places sound' places

/-- Preemption loses no task. -/
theorem Sound.preemptCurrent (sound : s.Sound) : KeepsTasks s s.preemptCurrent.2 := by
  rcases sound.preemptCurrent_cases with ⟨decision, eq, -⟩ |
    ⟨decision, s', eq, -, -, running, mem, places, sound'⟩
  · rw [eq]
    exact ⟨sound, rfl⟩
  · rw [eq]
    refine sound.keepsTasks sound' fun x => ?_
    rw [places]
    exact Placement.has_rotate running mem sound.places

theorem onTimerTickAlways_placement (s : Scheduler) :
    s.onTimerTickAlways.placement = s.placement := by
  unfold onTimerTickAlways
  dsimp only
  split
  · rfl
  · rfl

theorem Sound.onTimerTickAlways (sound : s.Sound) : s.onTimerTickAlways.Sound := by
  unfold Scheduler.onTimerTickAlways
  dsimp only
  split
  · exact ⟨sound.head, sound.len, sound.blockedLen, sound.places⟩
  · exact ⟨sound.head, sound.len, sound.blockedLen, sound.places⟩

theorem yieldCurrent_placement (s : Scheduler) : s.yieldCurrent.2.placement = s.placement := by
  unfold yieldCurrent
  dsimp only
  split
  · rfl
  · rfl

theorem Sound.yieldCurrent (sound : s.Sound) : s.yieldCurrent.2.Sound := by
  unfold Scheduler.yieldCurrent
  dsimp only
  split
  · exact ⟨sound.head, sound.len, sound.blockedLen, sound.places⟩
  · exact ⟨sound.head, sound.len, sound.blockedLen, sound.places⟩

theorem new_sound : new.Sound where
  head := Nat.zero_lt_succ _
  len := Nat.zero_le _
  blockedLen := Nat.zero_le _
  places := (init_sound 0).places

theorem Sound.init (sound : s.Sound) (ticks : Nat) : (s.init ticks).Sound := by
  unfold Scheduler.init
  split
  · exact sound
  · exact ⟨new_sound.head, new_sound.len, new_sound.blockedLen, new_sound.places⟩

/-- Operations that only move tasks keep all of them. -/
theorem Sound.keeps_of_moves (sound : s.Sound) {op : Op} (moves : op.Moves) :
    KeepsTasks s (s.step op) := by
  cases op with
  | init => exact moves.elim
  | enqueue => exact moves.elim
  | beginTask => exact moves.elim
  | finishTask => exact moves.elim
  | yieldCurrent => exact sound.keepsTasks_of_places sound.yieldCurrent s.yieldCurrent_placement
  | blockTask id => exact sound.blockTask id
  | blockCurrentAndDispatch id => exact sound.blockCurrentAndDispatch id
  | wakeTask id => exact sound.wakeTask_keeps id
  | onTimerTick => exact sound.keepsTasks_of_places sound.onTimerTick s.onTimerTick_placement
  | onTimerTickAlways =>
      exact sound.keepsTasks_of_places sound.onTimerTickAlways s.onTimerTickAlways_placement
  | preemptCurrent => exact sound.preemptCurrent

/-- Every allowed operation keeps each task in one place. -/
theorem Sound.step (sound : s.Sound) {op : Op} (allowed : op.Allowed s) : (s.step op).Sound := by
  cases op with
  | init ticks => exact sound.init ticks
  | enqueue id => exact sound.enqueue allowed
  | beginTask id => exact (sound.beginTask id).2
  | finishTask id => exact (sound.finishTask id).2
  | yieldCurrent => exact sound.yieldCurrent
  | blockTask id => exact (sound.blockTask id).1
  | blockCurrentAndDispatch id => exact (sound.blockCurrentAndDispatch id).1
  | wakeTask id => exact (sound.wakeTask_keeps id).1
  | onTimerTick => exact sound.onTimerTick
  | onTimerTickAlways => exact sound.onTimerTickAlways
  | preemptCurrent => exact sound.preemptCurrent.1

theorem Sound.run (sound : s.Sound) {ops : List Op} (allowed : s.AllAllowed ops) :
    (s.run ops).Sound := by
  induction ops generalizing s with
  | nil => exact sound
  | cons op ops ih => exact ih (sound.step allowed.1) allowed.2

/-- Every reachable state is sound, and no move adds or loses a task, whether it
succeeds or fails. -/
theorem one_place {ops : List Op} (allowed : new.AllAllowed ops) :
    (new.run ops).head < queueCapacity ∧ (new.run ops).len ≤ queueCapacity ∧
      (new.run ops).blockedLen ≤ queueCapacity ∧
      (0 ∉ (new.run ops).queued ∧ (new.run ops).queued.Nodup) ∧
      (0 ∉ (new.run ops).blockedTasks ∧ (new.run ops).blockedTasks.Nodup) ∧
      (new.run ops).queued.Disjoint (new.run ops).blockedTasks ∧
      (new.run ops).currentTask ∉ (new.run ops).queued ∧
      (new.run ops).currentTask ∉ (new.run ops).blockedTasks ∧
      ∀ op : Op, op.Moves → ((new.run ops).step op).tasks = (new.run ops).tasks := by
  have sound := new_sound.run allowed
  have places := sound.places
  exact ⟨sound.head, sound.len, sound.blockedLen, ⟨places.nonzero.1, places.queued⟩,
    ⟨places.nonzero.2, places.blocked⟩, places.apart, places.current.1, places.current.2,
    fun op moves => (sound.keeps_of_moves moves).2⟩

/-- Three tasks; one runs, one blocks, the third takes over and is preempted. -/
def sampleRun : List Op :=
  [.init 0, .enqueue 1, .enqueue 2, .enqueue 3, .beginTask 1, .blockTask 2,
    .blockCurrentAndDispatch 1, .wakeTask 2, .onTimerTick, .onTimerTick, .preemptCurrent]

theorem one_place_sampleRun : 0 ∉ (new.run sampleRun).queued :=
  (one_place (by decide : new.AllAllowed sampleRun)).2.2.2.1.1

end Scheduler

end CloudOS
