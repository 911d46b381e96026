import CloudOS.Scheduler.State

/-!
Where the scheduler has placed the tasks.

A `Placement` is what the arrays stand for: a ready queue, a set of blocked
tasks and the current task. Its operations are list operations, and each
scheduler operation is shown to perform one of them; the ring arithmetic is not
needed again afterwards.
-/

namespace CloudOS

open Lib.RingBuffer (cell contents shiftDown contents_push contents_remove length_contents)

structure Placement where
  queued : List Nat
  blocked : List Nat
  current : Nat

namespace Placement

def enqueue (p : Placement) (id : Nat) : Placement := { p with queued := p.queued ++ [id] }

/-- Out of the lists, as the current task. -/
def start (p : Placement) (id : Nat) : Placement :=
  ⟨p.queued.erase id, p.blocked.erase id, id⟩

def finish (p : Placement) (id : Nat) : Placement :=
  ⟨p.queued.erase id, p.blocked.erase id, if p.current = id then 0 else p.current⟩

/-- From the queue or the processor to the blocked tasks. -/
def block (p : Placement) (id : Nat) : Placement :=
  ⟨p.queued.erase id, p.blocked ++ [id], if p.current = id then 0 else p.current⟩

def wake (p : Placement) (id : Nat) : Placement :=
  { p with queued := p.queued ++ [id], blocked := p.blocked.erase id }

/-- The current task blocks and `next` takes over. -/
def dispatch (p : Placement) (next : Nat) : Placement :=
  ⟨p.queued.erase next, p.blocked ++ [p.current], next⟩

/-- The current task goes to the end of the queue and `next` takes over. -/
def rotate (p : Placement) (next : Nat) : Placement :=
  ⟨p.queued.erase next ++ [p.current], p.blocked, next⟩

/-- The task has a place. -/
def Has (p : Placement) (id : Nat) : Prop :=
  id ∈ p.queued ∨ id ∈ p.blocked ∨ (id = p.current ∧ id ≠ 0)

/-- Every task has at most one place. -/
structure Sound (p : Placement) : Prop where
  queued : p.queued.Nodup
  blocked : p.blocked.Nodup
  apart : ∀ id ∈ p.queued, id ∉ p.blocked
  current : p.current ∉ p.queued ∧ p.current ∉ p.blocked
  nonzero : 0 ∉ p.queued ∧ 0 ∉ p.blocked

theorem nodup_concat {l : List Nat} {id : Nat} (nodup : l.Nodup) (fresh : id ∉ l) :
    (l ++ [id]).Nodup := by
  refine List.nodup_append.mpr ⟨nodup, List.nodup_singleton id, ?_⟩
  rintro a mem b isId rfl
  exact fresh (List.mem_singleton.mp isId ▸ mem)

theorem mem_concat {l : List Nat} {id x : Nat} : x ∈ l ++ [id] ↔ x ∈ l ∨ x = id := by
  rw [List.mem_append, List.mem_singleton]

/-- A task that is nowhere goes to the back of the queue. -/
theorem Sound.enqueue {p : Placement} (sound : p.Sound) {id : Nat} (fresh : ¬ p.Has id)
    (nonzero : id ≠ 0) : (p.enqueue id).Sound := by
  simp only [Has, not_or, not_and, not_not] at fresh
  obtain ⟨notQueued, notBlocked, notCurrent⟩ := fresh
  refine ⟨nodup_concat sound.queued notQueued, sound.blocked, ?_, ⟨?_, sound.current.2⟩,
    ⟨?_, sound.nonzero.2⟩⟩
  · intro x mem
    rcases mem_concat.mp mem with mem | rfl
    · exact sound.apart x mem
    · exact notBlocked
  · intro mem
    rcases mem_concat.mp mem with mem | isId
    · exact sound.current.1 mem
    · exact nonzero (notCurrent isId.symm)
  · intro mem
    rcases mem_concat.mp mem with mem | isId
    · exact sound.nonzero.1 mem
    · exact nonzero isId.symm

theorem Sound.start {p : Placement} (sound : p.Sound) (id : Nat) : (p.start id).Sound where
  queued := sound.queued.erase id
  blocked := sound.blocked.erase id
  apart := fun x mem mem' => sound.apart x (List.mem_of_mem_erase mem) (List.mem_of_mem_erase mem')
  current := ⟨sound.queued.not_mem_erase, sound.blocked.not_mem_erase⟩
  nonzero := ⟨fun mem => sound.nonzero.1 (List.mem_of_mem_erase mem),
    fun mem => sound.nonzero.2 (List.mem_of_mem_erase mem)⟩

theorem Sound.finish {p : Placement} (sound : p.Sound) (id : Nat) : (p.finish id).Sound where
  queued := sound.queued.erase id
  blocked := sound.blocked.erase id
  apart := fun x mem mem' => sound.apart x (List.mem_of_mem_erase mem) (List.mem_of_mem_erase mem')
  current := by
    unfold Placement.finish
    dsimp only
    split
    · exact ⟨fun mem => sound.nonzero.1 (List.mem_of_mem_erase mem),
        fun mem => sound.nonzero.2 (List.mem_of_mem_erase mem)⟩
    · exact ⟨fun mem => sound.current.1 (List.mem_of_mem_erase mem),
        fun mem => sound.current.2 (List.mem_of_mem_erase mem)⟩
  nonzero := ⟨fun mem => sound.nonzero.1 (List.mem_of_mem_erase mem),
    fun mem => sound.nonzero.2 (List.mem_of_mem_erase mem)⟩

/-- A task moves to the blocked ones. -/
theorem Sound.block {p : Placement} (sound : p.Sound) {id : Nat} (nonzero : id ≠ 0)
    (unblocked : id ∉ p.blocked) : (p.block id).Sound where
  queued := sound.queued.erase id
  blocked := nodup_concat sound.blocked unblocked
  apart := by
    intro x mem mem'
    rcases mem_concat.mp mem' with mem' | rfl
    · exact sound.apart x (List.mem_of_mem_erase mem) mem'
    · exact sound.queued.not_mem_erase mem
  current := by
    unfold Placement.block
    dsimp only
    split
    · refine ⟨fun mem => sound.nonzero.1 (List.mem_of_mem_erase mem), fun mem => ?_⟩
      rcases mem_concat.mp mem with mem | isId
      · exact sound.nonzero.2 mem
      · exact nonzero isId.symm
    · rename_i other
      refine ⟨fun mem => sound.current.1 (List.mem_of_mem_erase mem), fun mem => ?_⟩
      rcases mem_concat.mp mem with mem | isId
      · exact sound.current.2 mem
      · exact other isId
  nonzero := by
    refine ⟨fun mem => sound.nonzero.1 (List.mem_of_mem_erase mem), fun mem => ?_⟩
    rcases mem_concat.mp mem with mem | isId
    · exact sound.nonzero.2 mem
    · exact nonzero isId.symm

/-- The current task makes room for one from the queue. -/
theorem Sound.dispatch {p : Placement} (sound : p.Sound) {next : Nat} (running : p.current ≠ 0)
    (mem : next ∈ p.queued) : (p.dispatch next).Sound where
  queued := sound.queued.erase next
  blocked := nodup_concat sound.blocked sound.current.2
  apart := by
    intro x mem mem'
    have queued := List.mem_of_mem_erase mem
    rcases mem_concat.mp mem' with mem' | rfl
    · exact sound.apart x queued mem'
    · exact sound.current.1 queued
  current := by
    refine ⟨sound.queued.not_mem_erase, fun mem' => ?_⟩
    rcases mem_concat.mp mem' with mem' | rfl
    · exact sound.apart next mem mem'
    · exact sound.current.1 mem
  nonzero := by
    refine ⟨fun mem => sound.nonzero.1 (List.mem_of_mem_erase mem), fun mem => ?_⟩
    rcases mem_concat.mp mem with mem | isCurrent
    · exact sound.nonzero.2 mem
    · exact running isCurrent.symm

/-- The current task and one from the queue change places. -/
theorem Sound.rotate {p : Placement} (sound : p.Sound) {next : Nat} (running : p.current ≠ 0)
    (mem : next ∈ p.queued) : (p.rotate next).Sound where
  queued := nodup_concat (sound.queued.erase next)
    fun mem => sound.current.1 (List.mem_of_mem_erase mem)
  blocked := sound.blocked
  apart := by
    intro x mem
    rcases mem_concat.mp mem with mem | rfl
    · exact sound.apart x (List.mem_of_mem_erase mem)
    · exact sound.current.2
  current := by
    refine ⟨fun mem' => ?_, sound.apart next mem⟩
    rcases mem_concat.mp mem' with mem' | rfl
    · exact sound.queued.not_mem_erase mem'
    · exact sound.current.1 mem
  nonzero := by
    refine ⟨fun mem => ?_, sound.nonzero.2⟩
    rcases mem_concat.mp mem with mem | isCurrent
    · exact sound.nonzero.1 (List.mem_of_mem_erase mem)
    · exact running isCurrent.symm

end Placement

namespace Scheduler

def placement (s : Scheduler) : Placement := ⟨s.queued, s.blockedTasks, s.currentTask⟩

/-- The invariant of the scheduler: indices in range, one place for every task. -/
structure Sound (s : Scheduler) : Prop where
  head : s.head < queueCapacity
  len : s.len ≤ queueCapacity
  blockedLen : s.blockedLen ≤ queueCapacity
  places : s.placement.Sound

theorem length_queued (s : Scheduler) : s.queued.length = s.len := by
  rw [queued, List.length_map, length_contents]

theorem blockedTasks_of_places {s : Scheduler} {p : Placement} (places : s.placement = p) :
    s.blockedTasks = p.blocked :=
  congrArg Placement.blocked places

theorem queued_of_places {s : Scheduler} {p : Placement} (places : s.placement = p) :
    s.queued = p.queued :=
  congrArg Placement.queued places

theorem currentTask_of_places {s : Scheduler} {p : Placement} (places : s.placement = p) :
    s.currentTask = p.current :=
  congrArg Placement.current places

theorem length_blockedTasks (s : Scheduler) : s.blockedTasks.length = s.blockedLen :=
  length_contents ..

/-- At first no task is anywhere. -/
theorem init_sound (ticks : Nat) : (new.init ticks).Sound where
  head := Nat.zero_lt_succ _
  len := Nat.zero_le _
  blockedLen := Nat.zero_le _
  places :=
    { queued := List.nodup_nil
      blocked := List.nodup_nil
      apart := fun _ mem => absurd mem List.not_mem_nil
      current := ⟨List.not_mem_nil, List.not_mem_nil⟩
      nonzero := ⟨List.not_mem_nil, List.not_mem_nil⟩ }

/-! ### The arrays -/

/-- The queue with its stamps. -/
def entries (s : Scheduler) : List QueueEntry := contents s.queue s.head s.len

theorem queued_eq_entries (s : Scheduler) : s.queued = s.entries.map QueueEntry.taskId := rfl

/-- Removing from the ring removes from the queue. -/
theorem Sound.removeAt_entries {s : Scheduler} (sound : s.Sound) {offset : Nat}
    (inside : offset < s.len) : s.entries[offset]? = some (s.removeAt offset).1 ∧
      (s.removeAt offset).2.entries = s.entries.eraseIdx offset := by
  obtain ⟨len, lenEq⟩ : ∃ len, s.len = len + 1 := ⟨s.len - 1, by omega⟩
  have bound := sound.len
  unfold Scheduler.removeAt
  rw [if_neg (by omega)]
  constructor
  · simp only [entries, contents, List.getElem?_map]
    rw [List.getElem?_range inside]
    rfl
  · have removed : contents (Function.update (shiftDown s.queue s.head offset (len - offset))
        (cell queueCapacity (s.head + len)) QueueEntry.empty) s.head len =
          (contents s.queue s.head (len + 1)).eraseIdx offset :=
      contents_remove _ _ (by omega) (by omega) _
    simp only [entries, lenEq, Nat.add_sub_cancel]
    split
    · rename_i zero
      subst zero
      rw [← removed]
      rfl
    · exact removed

/-- It touches nothing else that is placed. -/
theorem Sound.removeAt {s : Scheduler} (sound : s.Sound) {offset : Nat} (inside : offset < s.len) :
    ∃ next s', s.removeAt offset = (next, s') ∧ s.queued[offset]? = some next.taskId ∧
      s'.placement = { s.placement with queued := s.queued.eraseIdx offset } ∧
      s'.head < queueCapacity ∧ s'.len + 1 = s.len ∧ s'.blockedLen = s.blockedLen := by
  obtain ⟨here, erased⟩ := sound.removeAt_entries inside
  have inRing := sound.head
  have queued : (s.removeAt offset).2.queued = s.queued.eraseIdx offset := by
    rw [queued_eq_entries, queued_eq_entries, erased, List.eraseIdx_map]
  have others : (s.removeAt offset).2.blockedTasks = s.blockedTasks ∧
      (s.removeAt offset).2.currentTask = s.currentTask := by
    unfold Scheduler.removeAt
    rw [if_neg (by omega)]
    exact ⟨rfl, rfl⟩
  refine ⟨(s.removeAt offset).1, (s.removeAt offset).2, rfl, ?_, ?_, ?_⟩
  · rw [queued_eq_entries, List.getElem?_map, here]
    rfl
  · rw [placement, queued, others.1, others.2]
    rfl
  · unfold Scheduler.removeAt
    rw [if_neg (by omega)]
    dsimp only
    refine ⟨?_, by omega, rfl⟩
    split
    · exact Nat.zero_lt_succ _
    · exact inRing

/-- `remove` takes the task out of the queue, if it is there. -/
theorem Sound.remove {s : Scheduler} (sound : s.Sound) (id : Nat) :
    ∃ s', s.remove id = (s.queued.contains id, s') ∧
      s'.placement = { s.placement with queued := s.queued.erase id } ∧
      s'.head < queueCapacity ∧ s'.len ≤ s.len ∧ s'.blockedLen = s.blockedLen := by
  unfold Scheduler.remove
  cases found : s.queued.idxOf? id with
  | none =>
      have absent := List.idxOf?_eq_none_iff.mp found
      refine ⟨s, ?_, ?_, sound.head, le_rfl, rfl⟩
      · simp [absent]
      · rw [List.erase_of_not_mem absent]
        rfl
  | some offset =>
      have erase := List.erase_eq_eraseIdx s.queued id
      rw [found] at erase
      obtain ⟨inside, here, -⟩ := List.idxOf?_eq_some_iff.mp found
      have mem : id ∈ s.queued := here ▸ List.getElem_mem inside
      rw [length_queued] at inside
      obtain ⟨next, s', eq, -, places, head, len, blockedLen⟩ := sound.removeAt inside
      refine ⟨s', ?_, ?_, head, by omega, blockedLen⟩
      · simp [eq, mem]
      · rw [places, erase]

theorem Sound.removeBlocked {s : Scheduler} (sound : s.Sound) (id : Nat) :
    ∃ s', s.removeBlocked id = (s.blockedTasks.contains id, s') ∧
      s'.placement = { s.placement with blocked := s.blockedTasks.erase id } ∧
      s'.head = s.head ∧ s'.len = s.len ∧ s'.blockedLen ≤ s.blockedLen ∧
      (id ∈ s.blockedTasks → s'.blockedLen + 1 = s.blockedLen) := by
  unfold Scheduler.removeBlocked
  cases found : s.blockedTasks.idxOf? id with
  | none =>
      have absent := List.idxOf?_eq_none_iff.mp found
      refine ⟨s, ?_, ?_, rfl, rfl, le_rfl, fun mem => absurd mem absent⟩
      · simp [absent]
      · rw [List.erase_of_not_mem absent]
        rfl
  | some index =>
      have erase := List.erase_eq_eraseIdx s.blockedTasks id
      rw [found] at erase
      obtain ⟨inside, here, -⟩ := List.idxOf?_eq_some_iff.mp found
      have mem : id ∈ s.blockedTasks := here ▸ List.getElem_mem inside
      rw [length_blockedTasks] at inside
      obtain ⟨len, lenEq⟩ : ∃ len, s.blockedLen = len + 1 := ⟨s.blockedLen - 1, by omega⟩
      have bound := sound.blockedLen
      rw [List.contains_iff_mem.mpr mem]
      refine ⟨_, rfl, ?_, rfl, rfl, ?_, fun _ => ?_⟩
      · have removed : contents (Function.update (shiftDown s.blocked 0 index (len - index))
            (cell queueCapacity (0 + len)) 0) 0 len =
              (contents s.blocked 0 (len + 1)).eraseIdx index :=
          contents_remove _ _ (by omega) (by omega) _
        rw [erase]
        simp only [placement, queued, blockedTasks, lenEq, Nat.add_sub_cancel, removed]
      · dsimp only
        omega
      · dsimp only
        omega

theorem pushBlocked_blockedTasks {s : Scheduler} (space : s.blockedLen < queueCapacity) (id : Nat) :
    (s.pushBlocked id).blockedTasks = s.blockedTasks ++ [id] :=
  contents_push _ _ space _

theorem Sound.of_places {s : Scheduler} {p : Placement} (places : s.placement = p)
    (head : s.head < queueCapacity) (len : s.len ≤ queueCapacity)
    (blockedLen : s.blockedLen ≤ queueCapacity) (sound : p.Sound) : s.Sound :=
  ⟨head, len, blockedLen, places ▸ sound⟩

/-- A task with no place joins the queue while there is room. -/
theorem Sound.enqueueAt {s : Scheduler} (sound : s.Sound) {id : Nat} (nonzero : id ≠ 0)
    (fresh : ¬ s.placement.Has id) (space : s.len < queueCapacity) (readySince : Nat) :
    ∃ s', s.enqueueAt id readySince = (true, s') ∧ s'.placement = s.placement.enqueue id ∧
      s'.Sound := by
  have notQueued : id ∉ s.queued := fun mem => fresh (Or.inl mem)
  have notCurrent : s.currentTask ≠ id := fun same =>
    fresh (Or.inr (Or.inr ⟨same.symm, nonzero⟩))
  have pushed : contents (Function.update s.queue (cell queueCapacity (s.head + s.len))
      ⟨id, readySince⟩) s.head (s.len + 1) = contents s.queue s.head s.len ++ [⟨id, readySince⟩] :=
    contents_push _ _ space _
  unfold Scheduler.enqueueAt
  rw [if_neg nonzero, if_neg (by simp [contains, notQueued, notCurrent]),
    if_neg (not_le.mpr space)]
  have places : ({ s with
      queue := Function.update s.queue (cell queueCapacity (s.head + s.len)) ⟨id, readySince⟩
      len := s.len + 1 } : Scheduler).placement = s.placement.enqueue id := by
    simp only [placement, queued, blockedTasks, pushed, List.map_append, List.map_cons,
      List.map_nil, Placement.enqueue]
  refine ⟨_, rfl, places, sound.head, space, sound.blockedLen, ?_⟩
  rw [places]
  exact sound.places.enqueue fresh nonzero

/-! ### Starting and finishing -/

/-- `remove` and `remove_blocked` in a row. -/
theorem Sound.withdraw {s : Scheduler} (sound : s.Sound) (id : Nat) :
    ((s.remove id).2.removeBlocked id).2.placement =
        { s.placement with queued := s.queued.erase id, blocked := s.blockedTasks.erase id } ∧
      ((s.remove id).2.removeBlocked id).2.head < queueCapacity ∧
      ((s.remove id).2.removeBlocked id).2.len ≤ queueCapacity ∧
      ((s.remove id).2.removeBlocked id).2.blockedLen ≤ queueCapacity := by
  obtain ⟨s', eq, places, head, len, blockedLen⟩ := sound.remove id
  rw [eq]
  have sound' : s'.Sound := by
    refine ⟨head, len.trans sound.len, blockedLen.le.trans sound.blockedLen, ?_⟩
    rw [places]
    exact
      { queued := sound.places.queued.erase id
        blocked := sound.places.blocked
        apart := fun x mem => sound.places.apart x (List.mem_of_mem_erase mem)
        current := ⟨fun mem => sound.places.current.1 (List.mem_of_mem_erase mem),
          sound.places.current.2⟩
        nonzero := ⟨fun mem => sound.places.nonzero.1 (List.mem_of_mem_erase mem),
          sound.places.nonzero.2⟩ }
  obtain ⟨s'', eq', places', head', len', blockedLen', -⟩ := sound'.removeBlocked id
  have kept : s'.blockedTasks = s.blockedTasks := congrArg Placement.blocked places
  rw [eq', places', places, kept, head', len']
  exact ⟨rfl, head, sound'.len, blockedLen'.trans sound'.blockedLen⟩

theorem Sound.beginTask {s : Scheduler} (sound : s.Sound) (id : Nat) :
    (s.beginTask id).placement = s.placement.start id ∧ (s.beginTask id).Sound := by
  obtain ⟨places, head, len, blockedLen⟩ := sound.withdraw id
  have started : (s.beginTask id).placement = s.placement.start id :=
    congrArg (fun p : Placement => { p with current := id }) places
  exact ⟨started, Sound.of_places started head len blockedLen (sound.places.start id)⟩

/-- The first step of `finish_task`. -/
def vacate (s : Scheduler) (id : Nat) : Scheduler :=
  if s.currentTask = id then
    { s with currentTask := 0, sliceTicks := 0, lastSwitchTick := s.timerTicks }
  else s

theorem finishTask_eq (s : Scheduler) (id : Nat) : s.finishTask id =
    { (((s.vacate id).remove id).2.removeBlocked id).2 with lastTask := id } := by
  unfold finishTask vacate
  rfl

theorem placement_lastTask (s : Scheduler) (id : Nat) :
    ({ s with lastTask := id } : Scheduler).placement = s.placement := rfl

theorem vacate_placement (s : Scheduler) (id : Nat) : (s.vacate id).placement =
    { s.placement with current := if s.currentTask = id then 0 else s.currentTask } := by
  unfold vacate
  split
  · rfl
  · rfl

theorem Sound.vacate {s : Scheduler} (sound : s.Sound) (id : Nat) : (s.vacate id).Sound := by
  unfold Scheduler.vacate
  split
  · exact ⟨sound.head, sound.len, sound.blockedLen,
      { sound.places with current := sound.places.nonzero }⟩
  · exact sound

theorem Sound.finishTask {s : Scheduler} (sound : s.Sound) (id : Nat) :
    (s.finishTask id).placement = s.placement.finish id ∧ (s.finishTask id).Sound := by
  obtain ⟨places, head, len, blockedLen⟩ := (sound.vacate id).withdraw id
  have kept := s.vacate_placement id
  have finished : (s.finishTask id).placement = s.placement.finish id := by
    rw [finishTask_eq, placement_lastTask, places, kept,
      show (s.vacate id).queued = s.queued from congrArg Placement.queued kept,
      show (s.vacate id).blockedTasks = s.blockedTasks from congrArg Placement.blocked kept]
    rfl
  rw [finishTask_eq] at finished ⊢
  exact ⟨finished, Sound.of_places finished head len blockedLen (sound.places.finish id)⟩

/-! ### Blocking and waking -/

/-- `block_task`: it succeeds for a task that is blocked already, and moves one
that is queued or current. -/
theorem Sound.blockTask_cases {s : Scheduler} (sound : s.Sound) (id : Nat) :
    (∃ s', s.blockTask id = (false, s') ∧ s'.placement = s.placement ∧ s'.Sound) ∨
    (s.blockTask id = (true, s) ∧ id ∈ s.blockedTasks) ∨
    (∃ s', s.blockTask id = (true, s') ∧ s'.placement = s.placement.block id ∧ s'.Sound ∧
      s.placement.Has id ∧ id ∉ s.blockedTasks) := by
  unfold Scheduler.blockTask
  split
  · exact Or.inl ⟨s, rfl, rfl, sound⟩
  rename_i nonzero
  split
  · rename_i blocked
    exact Or.inr (Or.inl ⟨rfl, by simpa [containsBlocked] using blocked⟩)
  rename_i unblocked
  have free : id ∉ s.blockedTasks := by simpa [containsBlocked] using unblocked
  split
  · exact Or.inl ⟨s, rfl, rfl, sound⟩
  rename_i space
  have room : s.blockedLen < queueCapacity := not_le.mp space
  have moved := sound.places.block nonzero free
  by_cases isCurrent : s.currentTask = id
  · have absent : s.queued.erase id = s.queued :=
      List.erase_of_not_mem (isCurrent ▸ sound.places.current.1)
    have pushed : (({ s with currentTask := 0, sliceTicks := 0 } : Scheduler).pushBlocked
        id).blockedTasks = s.blockedTasks ++ [id] := pushBlocked_blockedTasks room id
    have blocks : (({ s with currentTask := 0, sliceTicks := 0 } : Scheduler).pushBlocked
        id).placement = s.placement.block id := by
      change Placement.mk s.queued _ 0 = Placement.mk (s.queued.erase id)
        (s.blockedTasks ++ [id]) (if s.currentTask = id then 0 else s.currentTask)
      rw [absent, if_pos isCurrent, pushed]
    rw [if_pos isCurrent]
    refine Or.inr (Or.inr ⟨_, rfl, blocks, ?_, Or.inr (Or.inr ⟨isCurrent.symm, nonzero⟩), free⟩)
    exact Sound.of_places blocks sound.head sound.len room moved
  · obtain ⟨s', eq, places, head, len, blockedLen⟩ := sound.remove id
    rw [if_neg isCurrent, eq]
    dsimp only
    cases mem : s.queued.contains id with
    | false =>
        have absent : s.queued.erase id = s.queued :=
          List.erase_of_not_mem (by simpa using mem)
        rw [absent] at places
        exact Or.inl ⟨s', rfl, places, Sound.of_places places head (len.trans sound.len)
          (blockedLen.le.trans sound.blockedLen) sound.places⟩
    | true =>
        have queued : id ∈ s.queued := by simpa using mem
        have room' : s'.blockedLen < queueCapacity := blockedLen ▸ room
        have blocks : (s'.pushBlocked id).placement = s.placement.block id := by
          change Placement.mk s'.queued _ s'.currentTask = Placement.mk (s.queued.erase id)
            (s.blockedTasks ++ [id]) (if s.currentTask = id then 0 else s.currentTask)
          rw [if_neg isCurrent, pushBlocked_blockedTasks room' id,
            show s'.queued = s.queued.erase id from congrArg Placement.queued places,
            show s'.blockedTasks = s.blockedTasks from congrArg Placement.blocked places,
            show s'.currentTask = s.currentTask from congrArg Placement.current places]
        refine Or.inr (Or.inr ⟨_, rfl, blocks, ?_, Or.inl queued, free⟩)
        exact Sound.of_places blocks head (len.trans sound.len) room' moved

/-- A blocked task wakes while the queue has room. -/
theorem Sound.wakeTask {s : Scheduler} (sound : s.Sound) {id : Nat} (blocked : id ∈ s.blockedTasks)
    (space : s.len < queueCapacity) :
    ∃ s', s.wakeTask id = (true, s') ∧ s'.placement = s.placement.wake id ∧ s'.Sound := by
  have nonzero : id ≠ 0 := fun zero => sound.places.nonzero.2 (zero ▸ blocked)
  have notQueued : id ∉ s.queued := fun mem => sound.places.apart id mem blocked
  have notCurrent : s.currentTask ≠ id := by
    rintro rfl
    exact sound.places.current.2 blocked
  obtain ⟨s', eq, places, head, len, blockedLen, -⟩ := sound.removeBlocked id
  unfold Scheduler.wakeTask
  rw [if_neg nonzero, if_neg (by simp [contains, notQueued, notCurrent]), eq,
    List.contains_iff_mem.mpr blocked]
  dsimp only
  have sound' : s'.Sound := by
    refine ⟨head ▸ sound.head, len ▸ sound.len, blockedLen.trans sound.blockedLen, ?_⟩
    rw [places]
    exact
      { queued := sound.places.queued
        blocked := sound.places.blocked.erase id
        apart := fun x mem mem' => sound.places.apart x mem (List.mem_of_mem_erase mem')
        current := ⟨sound.places.current.1,
          fun mem => sound.places.current.2 (List.mem_of_mem_erase mem)⟩
        nonzero := ⟨sound.places.nonzero.1,
          fun mem => sound.places.nonzero.2 (List.mem_of_mem_erase mem)⟩ }
  have fresh : ¬ s'.placement.Has id := by
    rw [places]
    rintro (mem | mem | ⟨isCurrent, -⟩)
    · exact notQueued mem
    · exact sound.places.blocked.not_mem_erase mem
    · exact notCurrent isCurrent.symm
  obtain ⟨s'', eq', places', sound''⟩ := sound'.enqueueAt nonzero fresh (by omega) s'.timerTicks
  rw [eq']
  refine ⟨_, rfl, ?_, ⟨sound''.head, sound''.len, sound''.blockedLen, sound''.places⟩⟩
  change s''.placement = _
  rw [places', places]
  rfl

/-! ### Handing over -/

/-- The selected task is in the queue. -/
theorem selectNextOffset_lt {s : Scheduler} (nonempty : 0 < s.len) :
    s.selectNextOffset.1 < s.len := by
  have scan : ∀ offsets : List Nat, (∀ k ∈ offsets, k < s.len) → ∀ best : Nat × Nat,
      best.1 < s.len → (offsets.foldl s.selectStep best).1 < s.len := by
    intro offsets
    induction offsets with
    | nil => exact fun _ best inside => inside
    | cons offset offsets ih =>
        intro all best inside
        refine ih (fun k mem => all k (List.mem_cons_of_mem _ mem)) _ ?_
        unfold selectStep
        dsimp only
        split
        · exact all offset List.mem_cons_self
        · exact inside
  have selected := scan (List.range s.len) (fun k => List.mem_range.mp) (0, 0) nonempty
  unfold selectNextOffset
  dsimp only
  split
  · exact selected
  · exact nonempty

/-- The task that the selection hands out comes from the queue. -/
theorem Sound.removeSelected {s : Scheduler} (sound : s.Sound) (nonempty : 0 < s.len) :
    ∃ next s', s.removeAt s.selectNextOffset.1 = (next, s') ∧ next.taskId ∈ s.queued ∧
      next.taskId ≠ 0 ∧
      s'.placement = { s.placement with queued := s.queued.erase next.taskId } ∧
      s'.head < queueCapacity ∧ s'.len + 1 = s.len ∧ s'.blockedLen = s.blockedLen := by
  obtain ⟨next, s', eq, at_, places, rest⟩ := sound.removeAt (selectNextOffset_lt nonempty)
  obtain ⟨inside, here⟩ := List.getElem?_eq_some_iff.mp at_
  have mem : next.taskId ∈ s.queued := here ▸ List.getElem_mem inside
  have queued : s.queued.Nodup := sound.places.queued
  refine ⟨next, s', eq, mem, fun zero => sound.places.nonzero.1 (zero ▸ mem), ?_, rest⟩
  rw [places, ← here, queued.erase_getElem]

/-- Either nothing happens, or the current task is blocked and one from the queue takes over. -/
theorem Sound.blockCurrentAndDispatch_cases {s : Scheduler} (sound : s.Sound) (id : Nat) :
    (∃ decision, s.blockCurrentAndDispatch id = (decision, s) ∧ decision.switched = false) ∨
    (∃ decision s', s.blockCurrentAndDispatch id = (decision, s') ∧ decision.switched = true ∧
      decision.previousTask = id ∧ s.currentTask = id ∧ id ≠ 0 ∧
      decision.nextTask ∈ s.queued ∧
      s'.placement = s.placement.dispatch decision.nextTask ∧ s'.Sound) := by
  unfold Scheduler.blockCurrentAndDispatch
  split
  · exact Or.inl ⟨_, rfl, rfl⟩
  rename_i ready
  simp only [Bool.or_eq_true, Bool.not_eq_true', beq_iff_eq, bne_iff_ne, ne_eq, decide_eq_true_eq,
    not_or, Bool.not_eq_false, not_not, not_le] at ready
  obtain ⟨⟨⟨⟨-, nonzero⟩, isCurrent⟩, nonempty⟩, space⟩ := ready
  obtain ⟨next, s', eq, mem, taken, places, head, len, blockedLen⟩ :=
    sound.removeSelected (Nat.pos_of_ne_zero nonempty)
  dsimp only
  rw [eq]
  dsimp only
  rw [if_neg taken]
  have room : s'.blockedLen < queueCapacity := blockedLen ▸ space
  have handed : Placement.mk s'.queued (s'.pushBlocked id).blockedTasks next.taskId =
      s.placement.dispatch next.taskId := by
    rw [pushBlocked_blockedTasks room id,
      show s'.queued = s.queued.erase next.taskId from congrArg Placement.queued places,
      show s'.blockedTasks = s.blockedTasks from congrArg Placement.blocked places, ← isCurrent]
    rfl
  have bound := sound.len
  have running : s.placement.current ≠ 0 := fun zero => nonzero (isCurrent.symm.trans zero)
  have sound' := sound.places.dispatch running mem
  exact Or.inr ⟨_, _, rfl, rfl, rfl, isCurrent, nonzero, mem, handed,
    Sound.of_places handed head (by dsimp only [pushBlocked]; omega) room sound'⟩

/-- Nothing but an empty queue or a full list of blocked tasks keeps the current
task from blocking. -/
theorem Sound.blockCurrentAndDispatch_switches {s : Scheduler} (sound : s.Sound)
    (initialized : s.initialized = true) (running : s.currentTask ≠ 0) (nonempty : 0 < s.len)
    (space : s.blockedLen < queueCapacity) :
    (s.blockCurrentAndDispatch s.currentTask).1.switched = true := by
  unfold Scheduler.blockCurrentAndDispatch
  rw [if_neg (by simp [initialized, running, nonempty.ne', space])]
  obtain ⟨next, s', eq, -, taken, -⟩ := sound.removeSelected nonempty
  dsimp only
  rw [eq]
  dsimp only
  rw [if_neg taken]

/-- Once the next task has left the queue there is room for the current one. -/
theorem Sound.requeue {s : Scheduler} (sound : s.Sound) (running : s.currentTask ≠ 0)
    (nonempty : 0 < s.len) (maxWaitTicks readySince : Nat) :
    ∃ next s' s'', s.removeAt s.selectNextOffset.1 = (next, s') ∧ next.taskId ∈ s.queued ∧
      next.taskId ≠ 0 ∧
      ({ s' with maxWaitTicks, currentTask := 0 } : Scheduler).enqueueAt s.currentTask
        readySince = (true, s'') ∧
      s''.placement = { s.placement.rotate next.taskId with current := 0 } ∧ s''.Sound := by
  obtain ⟨next, s', eq, mem, taken, places, head, len, blockedLen⟩ :=
    sound.removeSelected nonempty
  have bound := sound.len
  -- between the two tasks nobody is current, so the previous one can queue
  have between : ({ s' with maxWaitTicks, currentTask := 0 } : Scheduler).placement =
      ⟨s.queued.erase next.taskId, s.blockedTasks, 0⟩ :=
    congrArg (fun p : Placement => { p with current := 0 }) places
  have sound' : ({ s' with maxWaitTicks, currentTask := 0 } : Scheduler).Sound := by
    refine ⟨head, by dsimp only; omega, blockedLen.le.trans sound.blockedLen, ?_⟩
    rw [between]
    exact
      { queued := sound.places.queued.erase _
        blocked := sound.places.blocked
        apart := fun x mem => sound.places.apart x (List.mem_of_mem_erase mem)
        current := ⟨fun mem => sound.places.nonzero.1 (List.mem_of_mem_erase mem),
          sound.places.nonzero.2⟩
        nonzero := ⟨fun mem => sound.places.nonzero.1 (List.mem_of_mem_erase mem),
          sound.places.nonzero.2⟩ }
  obtain ⟨s'', eq', places', sound''⟩ := sound'.enqueueAt running
    (by
      rw [between]
      rintro (mem | mem | ⟨zero, nonzero⟩)
      · exact sound.places.current.1 (List.mem_of_mem_erase mem)
      · exact sound.places.current.2 mem
      · exact nonzero zero)
    (by dsimp only; omega) readySince
  rw [between] at places'
  exact ⟨next, s', s'', eq, mem, taken, eq', places', sound''⟩

/-- Either nothing happens, or the current task goes to the back and one from the queue takes
over. -/
theorem Sound.preemptCurrent_cases {s : Scheduler} (sound : s.Sound) :
    (∃ decision, s.preemptCurrent = (decision, s) ∧ decision.switched = false) ∨
    (∃ decision s', s.preemptCurrent = (decision, s') ∧ decision.switched = true ∧
      decision.previousTask = s.currentTask ∧ s.currentTask ≠ 0 ∧ decision.nextTask ∈ s.queued ∧
      s'.placement = s.placement.rotate decision.nextTask ∧ s'.Sound) := by
  unfold Scheduler.preemptCurrent
  dsimp only
  split
  · exact Or.inl ⟨_, rfl, rfl⟩
  rename_i ready
  simp only [Bool.or_eq_true, Bool.not_eq_true', beq_iff_eq, decide_eq_true_eq, not_or,
    Bool.not_eq_false, not_lt] at ready
  obtain ⟨⟨⟨-, running⟩, nonempty⟩, -⟩ := ready
  obtain ⟨next, s', s'', eq, mem, taken, eq', places', sound''⟩ :=
    sound.requeue running (Nat.pos_of_ne_zero nonempty)
      (max (s.removeAt s.selectNextOffset.1).2.maxWaitTicks
        ((s.removeAt s.selectNextOffset.1).2.timerTicks -
          (s.removeAt s.selectNextOffset.1).1.readySince))
      (s.removeAt s.selectNextOffset.1).2.timerTicks
  rw [eq] at eq' ⊢
  dsimp only at eq' ⊢
  rw [if_neg taken, eq']
  dsimp only
  have handed : ({ s''.placement with current := next.taskId } : Placement) =
      s.placement.rotate next.taskId := by
    rw [places']
    rfl
  exact Or.inr ⟨_, _, rfl, rfl, rfl, running, mem, handed,
    Sound.of_places handed sound''.head sound''.len sound''.blockedLen
      (sound.places.rotate running mem)⟩

theorem onTimerTick_placement (s : Scheduler) : s.onTimerTick.placement = s.placement := by
  unfold onTimerTick
  split
  · dsimp only
    split
    · rfl
    · rfl
  · rfl

theorem Sound.onTimerTick {s : Scheduler} (sound : s.Sound) : s.onTimerTick.Sound := by
  have places := s.onTimerTick_placement
  unfold Scheduler.onTimerTick
  split
  · dsimp only
    split
    · exact ⟨sound.head, sound.len, sound.blockedLen, sound.places⟩
    · exact ⟨sound.head, sound.len, sound.blockedLen, sound.places⟩
  · exact sound

end Scheduler

end CloudOS
