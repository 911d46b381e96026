import CloudOS.Lib.Fifo
import CloudOS.Scheduler.Run

/-!
The ready queue is strictly first in, first out.

Entries are stamped with the clock when they join at the end, and the clock never
goes back, so the queue is sorted by stamp and the task at its head has waited
longest. The selection therefore always takes the head. The scheduler then does
what `Placement.next` says, a machine on lists, and the queue of that machine is
a queue of `Lib.Fifo`.
-/

namespace CloudOS

open Lib.Fifo (Event)
open Lib.RingBuffer (cell contents shiftDown contents_push contents_remove length_contents)
open Lib.Word (satAdd maxWord)

/-! ### The machine on lists -/

namespace Placement

open Scheduler (Op)

/-- The task may join the queue. -/
def Admits (p : Placement) (id : Nat) : Prop :=
  id ≠ 0 ∧ id ∉ p.queued ∧ id ≠ p.current ∧ p.queued.length < queueCapacity

/-- The task may be blocked. -/
def Blocks (p : Placement) (id : Nat) : Prop :=
  id ≠ 0 ∧ id ∉ p.blocked ∧ p.blocked.length < queueCapacity ∧ (id ∈ p.queued ∨ id = p.current)

/-- The current task `id` may block in favour of the next one. -/
def HandsOver (p : Placement) (up : Bool) (id : Nat) : Prop :=
  up = true ∧ id ≠ 0 ∧ p.current = id ∧ p.blocked.length < queueCapacity

/-- The current task has used up its time. -/
def Rotates (p : Placement) (up due : Bool) : Prop := up = true ∧ due = true ∧ p.current ≠ 0

instance (p : Placement) (id : Nat) : Decidable (p.Admits id) := by
  unfold Admits
  infer_instance

instance (p : Placement) (id : Nat) : Decidable (p.Blocks id) := by
  unfold Blocks
  infer_instance

instance (p : Placement) (up : Bool) (id : Nat) : Decidable (p.HandsOver up id) := by
  unfold HandsOver
  infer_instance

instance (p : Placement) (up due : Bool) : Decidable (p.Rotates up due) := by
  unfold Rotates
  infer_instance

/-- What an operation is to do. `up` says that the scheduler is initialized and
`due` that the time slice is over. -/
def next (p : Placement) (up due : Bool) : Op → Placement
  | .init _ => if up then p else ⟨[], [], 0⟩
  | .enqueue id => if p.Admits id then p.enqueue id else p
  | .beginTask id => p.start id
  | .finishTask id => p.finish id
  | .blockTask id => if p.Blocks id then p.block id else p
  | .blockCurrentAndDispatch id =>
      match p.queued with
      | [] => p
      | first :: _ => if p.HandsOver up id then p.dispatch first else p
  | .wakeTask id =>
      if id ∈ p.blocked then
        if p.queued.length < queueCapacity then p.wake id
        else { p with blocked := p.blocked.erase id ++ [id] }
      else p
  | .preemptCurrent =>
      match p.queued with
      | [] => p
      | first :: _ => if p.Rotates up due then p.rotate first else p
  | .yieldCurrent | .onTimerTick | .onTimerTickAlways => p

/-- What the operation does to the queue: append on enqueue, wakeup and
preemption, pop the front on dispatch, delete on block, begin and finish. -/
def events (p : Placement) (up due : Bool) : Op → List (Event Nat)
  | .init _ => if up then [] else p.queued.map Event.delete
  | .enqueue id => if p.Admits id then [.push id] else []
  | .beginTask id | .finishTask id => [.delete id]
  | .blockTask id => if p.Blocks id then [.delete id] else []
  | .blockCurrentAndDispatch id =>
      match p.queued with
      | [] => []
      | first :: _ => if p.HandsOver up id then [.pop first] else []
  | .wakeTask id =>
      if id ∈ p.blocked ∧ p.queued.length < queueCapacity then [.push id] else []
  | .preemptCurrent =>
      match p.queued with
      | [] => []
      | first :: _ => if p.Rotates up due then [.pop first, .push p.current] else []
  | .yieldCurrent | .onTimerTick | .onTimerTickAlways => []

/-- The machine works on its queue by these events alone. -/
theorem next_queued (p : Placement) (up due : Bool) (op : Op) :
    Lib.Fifo.Run p.queued (p.events up due op) (p.next up due op).queued := by
  cases op with
  | init ticks =>
      unfold events next
      dsimp only
      split
      · exact .done
      · exact .clear p.queued
  | enqueue id =>
      unfold events next
      dsimp only
      split
      · exact .push .done
      · exact .done
  | beginTask id => exact .delete .done
  | finishTask id => exact .delete .done
  | yieldCurrent => exact .done
  | blockTask id =>
      unfold events next
      dsimp only
      split
      · exact .delete .done
      · exact .done
  | blockCurrentAndDispatch id =>
      unfold events next
      dsimp only
      cases queued : p.queued with
      | nil =>
          dsimp only
          rw [queued]
          exact .done
      | cons first rest =>
          dsimp only
          split
          · unfold dispatch
            rw [queued, List.erase_cons_head]
            exact .pop .done
          · rw [queued]
            exact .done
  | wakeTask id =>
      unfold events next
      dsimp only
      by_cases blocked : id ∈ p.blocked
      · by_cases space : p.queued.length < queueCapacity
        · rw [if_pos ⟨blocked, space⟩, if_pos blocked, if_pos space]
          exact .push .done
        · rw [if_neg (fun h => space h.2), if_pos blocked, if_neg space]
          exact .done
      · rw [if_neg (fun h => blocked h.1), if_neg blocked]
        exact .done
  | onTimerTick => exact .done
  | onTimerTickAlways => exact .done
  | preemptCurrent =>
      unfold events next
      dsimp only
      cases queued : p.queued with
      | nil =>
          dsimp only
          rw [queued]
          exact .done
      | cons first rest =>
          dsimp only
          split
          · unfold rotate
            rw [queued, List.erase_cons_head]
            exact .pop (.push .done)
          · rw [queued]
            exact .done

end Placement

namespace Scheduler

variable {s : Scheduler}

/-! ### The stamps -/

theorem length_entries (s : Scheduler) : s.entries.length = s.len := length_contents ..

/-- The queue is sorted by stamps that are not in the future. -/
structure Ordered (s : Scheduler) : Prop where
  sorted : s.entries.Pairwise fun e e' => e.readySince ≤ e'.readySince
  past : ∀ e ∈ s.entries, e.readySince ≤ s.timerTicks
  clock : s.timerTicks ≤ maxWord

/-- Some entries left the queue, and at most one joined, stamped with the clock. -/
structure Requeues (s s' : Scheduler) : Prop where
  entries : ∃ kept new, s'.entries = kept ++ new ∧ kept.Sublist s.entries ∧ new.length ≤ 1 ∧
    ∀ e ∈ new, e.readySince = s.timerTicks
  clock : s.timerTicks ≤ maxWord → s.timerTicks ≤ s'.timerTicks ∧ s'.timerTicks ≤ maxWord
  preventions : s'.starvationPreventions = s.starvationPreventions
  initialized : s'.initialized = s.initialized

/-- The order lasts as long as tasks are taken out anywhere and put in at the back. -/
theorem Ordered.requeues (ordered : s.Ordered) {s' : Scheduler} (requeues : Requeues s s') :
    s'.Ordered := by
  obtain ⟨⟨kept, new, eq, sub, single, stamped⟩, clock, -, -⟩ := requeues
  obtain ⟨later, bound⟩ := clock ordered.clock
  have past : ∀ e ∈ kept ++ new, e.readySince ≤ s.timerTicks := by
    intro e mem
    rcases List.mem_append.mp mem with old | isNew
    · exact ordered.past e (sub.subset old)
    · exact (stamped e isNew).le
  refine ⟨?_, ?_, bound⟩
  · rw [eq, List.pairwise_append]
    refine ⟨ordered.sorted.sublist sub, ?_, ?_⟩
    · match new, single with
      | [], _ => exact List.Pairwise.nil
      | [e], _ => exact List.pairwise_singleton _ e
    · intro e mem e' mem'
      rw [stamped e' mem']
      exact ordered.past e (sub.subset mem)
  · rw [eq]
    exact fun e mem => (past e mem).trans later

/-- Some entries left the queue and nothing else about it changed. -/
structure Withdraws (s s' : Scheduler) : Prop where
  entries : s'.entries.Sublist s.entries
  clock : s'.timerTicks = s.timerTicks
  preventions : s'.starvationPreventions = s.starvationPreventions
  initialized : s'.initialized = s.initialized

theorem Withdraws.refl (s : Scheduler) : Withdraws s s := ⟨List.Sublist.refl _, rfl, rfl, rfl⟩

theorem Withdraws.trans {s s' s'' : Scheduler} (first : Withdraws s s') (second : Withdraws s' s'') :
    Withdraws s s'' :=
  ⟨second.entries.trans first.entries, second.clock.trans first.clock,
    second.preventions.trans first.preventions, second.initialized.trans first.initialized⟩

theorem Withdraws.requeues {s s' : Scheduler} (withdraws : Withdraws s s') : Requeues s s' :=
  ⟨⟨s'.entries, [], (List.append_nil _).symm, withdraws.entries, Nat.zero_le _,
    fun _ mem => absurd mem List.not_mem_nil⟩,
    fun bound => ⟨withdraws.clock.ge, withdraws.clock ▸ bound⟩, withdraws.preventions,
    withdraws.initialized⟩

/-- Taking one task out leaves the others in order. -/
theorem Sound.removeAt_withdraws (sound : s.Sound) {offset : Nat} (inside : offset < s.len) :
    Withdraws s (s.removeAt offset).2 := by
  have others : (s.removeAt offset).2.timerTicks = s.timerTicks ∧
      (s.removeAt offset).2.starvationPreventions = s.starvationPreventions ∧
      (s.removeAt offset).2.initialized = s.initialized := by
    unfold Scheduler.removeAt
    rw [if_neg (not_le.mpr inside)]
    exact ⟨rfl, rfl, rfl⟩
  refine ⟨?_, others.1, others.2.1, others.2.2⟩
  rw [(sound.removeAt_entries inside).2]
  exact List.eraseIdx_sublist ..

theorem Sound.remove_withdraws (sound : s.Sound) (id : Nat) : Withdraws s (s.remove id).2 := by
  unfold Scheduler.remove
  cases found : s.queued.idxOf? id with
  | none => exact .refl s
  | some offset =>
      obtain ⟨inside, -⟩ := List.idxOf?_eq_some_iff.mp found
      rw [length_queued] at inside
      exact sound.removeAt_withdraws inside

theorem removeBlocked_withdraws (s : Scheduler) (id : Nat) : Withdraws s (s.removeBlocked id).2 := by
  unfold removeBlocked
  split
  · exact .refl s
  · exact ⟨List.Sublist.refl _, rfl, rfl, rfl⟩

/-- Whatever has left, an entry with the present stamp may join. -/
theorem Withdraws.enqueueAt {s s' : Scheduler} (withdraws : Withdraws s s') (id : Nat) :
    Requeues s (s'.enqueueAt id s'.timerTicks).2 := by
  have clock := withdraws.clock
  unfold Scheduler.enqueueAt
  split
  · exact Withdraws.requeues ⟨withdraws.entries, clock, withdraws.preventions,
      withdraws.initialized⟩
  split
  · exact withdraws.requeues
  split
  · exact Withdraws.requeues ⟨withdraws.entries, clock, withdraws.preventions,
      withdraws.initialized⟩
  rename_i space
  refine ⟨⟨s'.entries, _, contents_push _ _ (not_le.mp space) _, withdraws.entries, le_rfl, ?_⟩,
    fun bound => ⟨clock.ge, clock ▸ bound⟩, withdraws.preventions, withdraws.initialized⟩
  intro e mem
  rw [List.mem_singleton.mp mem]
  exact clock

/-- Other fields do not matter. -/
theorem Requeues.congr {s s' s'' : Scheduler} (requeues : Requeues s s')
    (entries : s''.entries = s'.entries) (clock : s''.timerTicks = s'.timerTicks)
    (preventions : s''.starvationPreventions = s'.starvationPreventions)
    (initialized : s''.initialized = s'.initialized) : Requeues s s'' :=
  ⟨entries ▸ requeues.entries, clock ▸ requeues.clock, preventions.trans requeues.preventions,
    initialized.trans requeues.initialized⟩

/-! ### The selection -/

/-- With a sorted queue nobody has waited longer than the head. -/
theorem Ordered.selectNextOffset (ordered : s.Ordered) : s.selectNextOffset = (0, false) := by
  have scan : ∀ offsets : List Nat, (∀ k ∈ offsets, k < s.len) → ∀ wait,
      (∀ k < s.len, s.timerTicks - (s.queue (cell queueCapacity (s.head + k))).readySince ≤ wait) →
        offsets.foldl s.selectStep (0, wait) = (0, wait) := by
    intro offsets
    induction offsets with
    | nil => exact fun _ _ _ => rfl
    | cons offset offsets ih =>
        intro inside wait longest
        have here := longest offset (inside offset List.mem_cons_self)
        rw [List.foldl_cons, selectStep, if_neg (not_lt.mpr here)]
        exact ih (fun k mem => inside k (List.mem_cons_of_mem _ mem)) wait longest
  have selected : ((List.range s.len).foldl s.selectStep (0, 0)).1 = 0 := by
    cases len : s.len with
    | zero => rfl
    | succ m =>
        have longest : ∀ k < s.len,
            s.timerTicks - (s.queue (cell queueCapacity (s.head + k))).readySince ≤
              s.timerTicks - (s.queue (cell queueCapacity (s.head + 0))).readySince := by
          intro k inside
          rcases Nat.eq_zero_or_pos k with rfl | positive
          · exact le_rfl
          have sorted := List.pairwise_iff_getElem.mp ordered.sorted 0 k
            (by rw [length_entries]; omega) (by rw [length_entries]; exact inside) positive
          simp only [entries, contents, List.getElem_map, List.getElem_range] at sorted
          exact Nat.sub_le_sub_left sorted _
        have first : s.selectStep (0, 0) 0 = (0,
            s.timerTicks - (s.queue (cell queueCapacity (s.head + 0))).readySince) := by
          unfold selectStep
          dsimp only
          split
          · rfl
          · rename_i none
            rw [Nat.le_zero.mp (not_lt.mp none)]
        rw [List.range_succ_eq_map, List.foldl_cons, first,
          scan _ (fun k mem => ?_) _ longest]
        obtain ⟨j, inside, rfl⟩ := List.mem_map.mp mem
        have := List.mem_range.mp inside
        omega
  unfold Scheduler.selectNextOffset
  dsimp only
  rw [selected]
  split
  · rfl
  · rfl

/-- The next task is the head of the queue. -/
theorem Ordered.removeSelected (ordered : s.Ordered) (sound : s.Sound) (nonempty : 0 < s.len) :
    ∃ next s' rest, s.removeAt s.selectNextOffset.1 = (next, s') ∧
      s.queued = next.taskId :: rest ∧ Withdraws s s' := by
  rw [ordered.selectNextOffset]
  have withdraws := sound.removeAt_withdraws nonempty
  obtain ⟨next, s', eq, here, -⟩ := sound.removeAt nonempty
  rw [eq] at withdraws
  cases queued : s.queued with
  | nil =>
      rw [queued] at here
      cases here
  | cons first rest =>
      rw [queued] at here
      cases here
      exact ⟨next, s', rest, eq, rfl, withdraws⟩

/-! ### The two dispatches -/

/-- The next task is the one that was selected in the queue. -/
theorem blockCurrentAndDispatch_selected {id : Nat}
    (switched : (s.blockCurrentAndDispatch id).1.switched = true) :
    (s.initialized = true ∧ id ≠ 0 ∧ s.currentTask = id ∧ 0 < s.len ∧
        s.blockedLen < queueCapacity) ∧
      (s.blockCurrentAndDispatch id).1.nextTask = (s.removeAt s.selectNextOffset.1).1.taskId := by
  unfold blockCurrentAndDispatch at switched ⊢
  split at switched
  · cases switched
  rename_i ready
  rw [if_neg ready]
  simp only [Bool.or_eq_true, Bool.not_eq_true', beq_iff_eq, bne_iff_ne, ne_eq, decide_eq_true_eq,
    not_or, Bool.not_eq_false, not_not, not_le] at ready
  obtain ⟨⟨⟨⟨up, nonzero⟩, isCurrent⟩, nonempty⟩, space⟩ := ready
  refine ⟨⟨up, nonzero, isCurrent, Nat.pos_of_ne_zero nonempty, space⟩, ?_⟩
  dsimp only at switched ⊢
  split at switched
  · cases switched
  rename_i taken
  rw [if_neg taken]

/-- A task is preempted only when its slice is used up and another one waits. -/
theorem preemptCurrent_guard (ready : ¬ (s.initialized = true ∧ s.currentTask ≠ 0 ∧ 0 < s.len ∧
    s.quantumTicks ≤ s.sliceTicks)) :
    s.preemptCurrent = (PreemptionDecision.none s.currentTask, s) := by
  unfold preemptCurrent
  dsimp only
  rw [if_pos]
  simp only [Bool.or_eq_true, Bool.not_eq_true', beq_iff_eq, decide_eq_true_eq]
  by_contra go
  simp only [not_or, Bool.not_eq_false, not_lt] at go
  exact ready ⟨go.1.1.1, go.1.1.2, Nat.pos_of_ne_zero go.1.2, go.2⟩

/-- A preemption that is due happens: putting the current task back cannot fail. -/
theorem Sound.preemptCurrent_eq (sound : s.Sound) (up : s.initialized = true)
    (running : s.currentTask ≠ 0) (nonempty : 0 < s.len) (due : s.quantumTicks ≤ s.sliceTicks) :
    ∃ next s' s'' decision result, s.removeAt s.selectNextOffset.1 = (next, s') ∧
      s''.placement = { s.placement.rotate next.taskId with current := 0 } ∧ s''.Sound ∧
      (∃ waited, s'' = (({ s' with maxWaitTicks := waited, currentTask := 0 } :
        Scheduler).enqueueAt s.currentTask s'.timerTicks).2) ∧
      s.preemptCurrent = (decision, result) ∧ decision.switched = true ∧
      decision.nextTask = next.taskId ∧
      result.placement = { s''.placement with current := next.taskId } ∧
      result.entries = s''.entries ∧ result.timerTicks = s''.timerTicks ∧
      result.starvationPreventions = (if s.selectNextOffset.2 then
        satAdd s''.starvationPreventions 1 else s''.starvationPreventions) ∧
      result.initialized = s''.initialized := by
  obtain ⟨next, s', s'', eq, -, taken, eq', places, sound'⟩ :=
    sound.requeue running nonempty
      (max (s.removeAt s.selectNextOffset.1).2.maxWaitTicks
        ((s.removeAt s.selectNextOffset.1).2.timerTicks -
          (s.removeAt s.selectNextOffset.1).1.readySince))
      (s.removeAt s.selectNextOffset.1).2.timerTicks
  unfold Scheduler.preemptCurrent
  dsimp only
  rw [if_neg (by simp [up, running, nonempty.ne', due])]
  rw [eq] at eq' ⊢
  dsimp only at eq' ⊢
  rw [if_neg taken, eq']
  exact ⟨next, s', s'', _, _, rfl, places, sound', ⟨_, (congrArg Prod.snd eq').symm⟩, rfl, rfl, rfl,
    rfl, rfl, rfl, rfl, rfl⟩

theorem Ordered.blockCurrentAndDispatch_requeues (ordered : s.Ordered) (sound : s.Sound)
    (id : Nat) : Requeues s (s.blockCurrentAndDispatch id).2 := by
  unfold Scheduler.blockCurrentAndDispatch
  split
  · exact (Withdraws.refl s).requeues
  rename_i ready
  simp only [Bool.or_eq_true, beq_iff_eq, not_or] at ready
  obtain ⟨next, s', rest, eq, -, withdraws⟩ :=
    ordered.removeSelected sound (Nat.pos_of_ne_zero ready.1.2)
  have unguarded : s.selectNextOffset.2 = false := by rw [ordered.selectNextOffset]
  dsimp only
  rw [eq, unguarded]
  dsimp only
  split
  · exact withdraws.requeues
  · exact withdraws.requeues.congr rfl rfl rfl rfl

/-- A preempted task goes to the back. -/
theorem Ordered.preemptCurrent_requeues (ordered : s.Ordered) (sound : s.Sound) :
    Requeues s s.preemptCurrent.2 := by
  by_cases ready : s.initialized = true ∧ s.currentTask ≠ 0 ∧ 0 < s.len ∧
      s.quantumTicks ≤ s.sliceTicks
  · obtain ⟨up, running, nonempty, due⟩ := ready
    obtain ⟨next, s', s'', decision, result, eq, -, -, ⟨waited, queues⟩, result', -, -, -,
      entries, clock, preventions, initialized⟩ := sound.preemptCurrent_eq up running nonempty due
    obtain ⟨next', s₁, rest, eq', -, withdraws⟩ := ordered.removeSelected sound nonempty
    obtain ⟨rfl, rfl⟩ := Prod.mk.inj (eq.symm.trans eq')
    rw [ordered.selectNextOffset, if_neg Bool.false_ne_true] at preventions
    have between : Withdraws s { s' with maxWaitTicks := waited, currentTask := 0 } :=
      ⟨withdraws.entries, withdraws.clock, withdraws.preventions, withdraws.initialized⟩
    have requeues := between.enqueueAt s.currentTask
    rw [← queues] at requeues
    rw [result']
    exact requeues.congr entries clock preventions initialized
  · rw [preemptCurrent_guard ready]
    exact (Withdraws.refl s).requeues

/-! ### Steps keep the order -/

theorem vacate_withdraws (s : Scheduler) (id : Nat) : Withdraws s (s.vacate id) := by
  unfold vacate
  split
  · exact ⟨List.Sublist.refl _, rfl, rfl, rfl⟩
  · exact .refl s

/-- `begin_task` and `finish_task` take a task out of both lists. -/
theorem Sound.withdraw_withdraws (sound : s.Sound) (id : Nat) :
    Withdraws s ((s.remove id).2.removeBlocked id).2 :=
  (sound.remove_withdraws id).trans (removeBlocked_withdraws _ id)

theorem Sound.blockTask_requeues (sound : s.Sound) (id : Nat) : Requeues s (s.blockTask id).2 := by
  have removed := sound.remove_withdraws id
  obtain ⟨s', eq, -⟩ := sound.remove id
  rw [eq] at removed
  unfold Scheduler.blockTask
  split
  · exact (Withdraws.refl s).requeues
  split
  · exact (Withdraws.refl s).requeues
  split
  · exact (Withdraws.refl s).requeues
  by_cases isCurrent : s.currentTask = id
  · rw [if_pos isCurrent]
    exact (Withdraws.refl s).requeues.congr rfl rfl rfl rfl
  · rw [if_neg isCurrent, eq]
    dsimp only
    split
    · exact removed.requeues
    · exact removed.requeues.congr rfl rfl rfl rfl

/-- A woken task goes to the back. -/
theorem wakeTask_requeues (s : Scheduler) (id : Nat) : Requeues s (s.wakeTask id).2 := by
  have removed := s.removeBlocked_withdraws id
  unfold wakeTask
  split
  · exact (Withdraws.refl s).requeues.congr rfl rfl rfl rfl
  split
  · exact (Withdraws.refl s).requeues
  cases result : s.removeBlocked id with
  | mk found s' =>
      rw [result] at removed
      cases found with
      | false => exact removed.requeues.congr rfl rfl rfl rfl
      | true =>
          have queues := removed.enqueueAt id
          dsimp only
          cases result' : s'.enqueueAt id s'.timerTicks with
          | mk queued s'' =>
              rw [result'] at queues
              cases queued with
              | false => exact queues.congr rfl rfl rfl rfl
              | true => exact queues.congr rfl rfl rfl rfl

theorem onTimerTickAlways_requeues (s : Scheduler) : Requeues s s.onTimerTickAlways := by
  have ticks : s.onTimerTickAlways.timerTicks = satAdd s.timerTicks 1 ∧
      s.onTimerTickAlways.entries = s.entries ∧
      s.onTimerTickAlways.starvationPreventions = s.starvationPreventions ∧
      s.onTimerTickAlways.initialized = s.initialized := by
    unfold onTimerTickAlways
    dsimp only
    split
    · exact ⟨rfl, rfl, rfl, rfl⟩
    · exact ⟨rfl, rfl, rfl, rfl⟩
  obtain ⟨clock, entries, preventions, initialized⟩ := ticks
  refine ⟨⟨s.entries, [], ?_, List.Sublist.refl _, Nat.zero_le _,
    fun _ mem => absurd mem List.not_mem_nil⟩, fun bound => ?_, preventions, initialized⟩
  · rw [entries, List.append_nil]
  · rw [clock]
    simp only [satAdd, maxWord] at *
    omega

theorem onTimerTick_requeues (s : Scheduler) : Requeues s s.onTimerTick := by
  rw [onTimerTick_eq]
  split
  · exact s.onTimerTickAlways_requeues
  · exact (Withdraws.refl s).requeues

theorem yieldCurrent_requeues (s : Scheduler) : Requeues s s.yieldCurrent.2 := by
  unfold yieldCurrent
  dsimp only
  split
  · exact (Withdraws.refl s).requeues.congr rfl rfl rfl rfl
  · exact (Withdraws.refl s).requeues.congr rfl rfl rfl rfl

/-- Only the first `init` starts a new queue. -/
theorem Ordered.step_requeues (ordered : s.Ordered) (sound : s.Sound) (op : Op) :
    Requeues s (s.step op) ∨ (s.initialized = false ∧ ∃ ticks, op = .init ticks) := by
  cases op with
  | init ticks =>
      cases up : s.initialized with
      | false => exact Or.inr ⟨rfl, ticks, rfl⟩
      | true =>
          have same : s.step (.init ticks) = s := if_pos up
          rw [same]
          exact Or.inl (Withdraws.refl s).requeues
  | enqueue id => exact Or.inl ((Withdraws.refl s).enqueueAt id)
  | beginTask id =>
      exact Or.inl ((sound.withdraw_withdraws id).requeues.congr rfl rfl rfl rfl)
  | finishTask id =>
      have withdraws := (s.vacate_withdraws id).trans ((sound.vacate id).withdraw_withdraws id)
      refine Or.inl ?_
      change Requeues s (s.finishTask id)
      rw [finishTask_eq]
      exact withdraws.requeues.congr rfl rfl rfl rfl
  | yieldCurrent => exact Or.inl s.yieldCurrent_requeues
  | blockTask id => exact Or.inl (sound.blockTask_requeues id)
  | blockCurrentAndDispatch id => exact Or.inl (ordered.blockCurrentAndDispatch_requeues sound id)
  | wakeTask id => exact Or.inl (s.wakeTask_requeues id)
  | onTimerTick => exact Or.inl s.onTimerTick_requeues
  | onTimerTickAlways => exact Or.inl s.onTimerTickAlways_requeues
  | preemptCurrent => exact Or.inl (ordered.preemptCurrent_requeues sound)

theorem new_ordered : new.Ordered :=
  ⟨List.Pairwise.nil, fun _ mem => absurd mem List.not_mem_nil, Nat.zero_le _⟩

theorem Ordered.step (ordered : s.Ordered) (sound : s.Sound) (op : Op) : (s.step op).Ordered := by
  rcases ordered.step_requeues sound op with requeues | ⟨down, ticks, rfl⟩
  · exact ordered.requeues requeues
  · change (s.init ticks).Ordered
    rw [init, if_neg (by simp [down])]
    exact ⟨new_ordered.sorted, new_ordered.past, new_ordered.clock⟩

/-- In an ordered queue nobody waits too long, so the guard never acts. -/
theorem Ordered.step_preventions (ordered : s.Ordered) (sound : s.Sound)
    (none : s.starvationPreventions = 0) (op : Op) : (s.step op).starvationPreventions = 0 := by
  rcases ordered.step_requeues sound op with requeues | ⟨down, ticks, rfl⟩
  · exact requeues.preventions.trans none
  · change (s.init ticks).starvationPreventions = 0
    rw [init, if_neg (by simp [down])]
    rfl

/-! ### The scheduler follows the machine -/

/-- The time slice of the current task is over. -/
def due (s : Scheduler) : Bool := decide (s.quantumTicks ≤ s.sliceTicks)

/-- A task is queued if it is nowhere yet and there is room. -/
theorem Sound.enqueue_placement (sound : s.Sound) {id : Nat} (unblocked : id ∉ s.blockedTasks) :
    (s.enqueue id).2.placement =
      if s.placement.Admits id then s.placement.enqueue id else s.placement := by
  have length := s.length_queued
  by_cases admits : s.placement.Admits id
  · obtain ⟨nonzero, notQueued, notCurrent, space⟩ := admits
    have fresh : ¬ s.placement.Has id := by
      rintro (queued | blocked | ⟨isCurrent, -⟩)
      · exact notQueued queued
      · exact unblocked blocked
      · exact notCurrent isCurrent
    obtain ⟨s', eq, places, -⟩ :=
      sound.enqueueAt nonzero fresh (length ▸ space) s.timerTicks
    rw [if_pos ⟨nonzero, notQueued, notCurrent, space⟩, Scheduler.enqueue, eq]
    exact places
  · rw [if_neg admits]
    unfold Scheduler.enqueue Scheduler.enqueueAt
    split
    · rfl
    rename_i nonzero
    split
    · rfl
    rename_i absent
    split
    · rfl
    rename_i space
    simp only [contains, Bool.or_eq_true, List.contains_iff_mem, beq_iff_eq, not_or] at absent
    exact absurd ⟨nonzero, absent.1, fun same => absent.2 same.symm,
      length.trans_lt (not_le.mp space)⟩ admits

/-- A task is blocked wherever it was. -/
theorem Sound.blockTask_placement (sound : s.Sound) (id : Nat) :
    (s.blockTask id).2.placement =
      if s.placement.Blocks id then s.placement.block id else s.placement := by
  have length := s.length_blockedTasks
  have bound := sound.blockedLen
  have succeeds : s.placement.Blocks id → (s.blockTask id).1 = true := by
    rintro ⟨nonzero, unblocked, space, known⟩
    have free : s.containsBlocked id = false :=
      Bool.eq_false_iff.mpr fun mem => unblocked (List.contains_iff_mem.mp mem)
    have room : s.blockedLen < queueCapacity := length ▸ space
    unfold Scheduler.blockTask
    rw [if_neg nonzero, if_neg (by simp [free]), if_neg (not_le.mpr room)]
    by_cases isCurrent : s.currentTask = id
    · rw [if_pos isCurrent]
      rfl
    · obtain ⟨s', eq, -⟩ := sound.remove id
      have queued : id ∈ s.queued := known.resolve_right fun same => isCurrent same.symm
      rw [if_neg isCurrent, eq, List.contains_iff_mem.mpr queued]
      rfl
  rcases sound.blockTask_cases id with ⟨s', eq, places, -⟩ | ⟨eq, blocked⟩ |
    ⟨s', eq, places, sound', has, unblocked⟩
  · have fails : ¬ s.placement.Blocks id := fun blocks => by
      have := succeeds blocks
      rw [eq] at this
      cases this
    rw [if_neg fails, eq]
    exact places
  · rw [if_neg (fun blocks => blocks.2.1 blocked), eq]
  · have grown : s'.blockedLen = s.blockedLen + 1 := by
      rw [← s'.length_blockedTasks, blockedTasks_of_places places, ← length]
      exact List.length_append
    have nonzero : id ≠ 0 := by
      rintro rfl
      rcases has with queued | blocked | ⟨-, nonzero⟩
      · exact sound.places.nonzero.1 queued
      · exact unblocked blocked
      · exact nonzero rfl
    have space : s.placement.blocked.length < queueCapacity := by
      have := sound'.blockedLen
      change s.blockedTasks.length < queueCapacity
      omega
    have known : id ∈ s.queued ∨ id = s.currentTask := by
      rcases has with queued | blocked | ⟨isCurrent, -⟩
      · exact Or.inl queued
      · exact absurd blocked unblocked
      · exact Or.inr isCurrent
    rw [if_pos ⟨nonzero, unblocked, space, known⟩, eq]
    exact places

/-- A blocked task is queued, if there is room. -/
theorem Sound.wakeTask_placement (sound : s.Sound) (id : Nat) :
    (s.wakeTask id).2.placement =
      if id ∈ s.placement.blocked then
        if s.placement.queued.length < queueCapacity then s.placement.wake id
        else { s.placement with blocked := s.placement.blocked.erase id ++ [id] }
      else s.placement := by
  have length : s.placement.queued.length = s.len := s.length_queued
  by_cases blocked : id ∈ s.placement.blocked
  · rw [if_pos blocked]
    by_cases space : s.len < queueCapacity
    · obtain ⟨s', eq, places, -⟩ := sound.wakeTask blocked space
      rw [if_pos (length ▸ space), eq]
      exact places
    · rw [if_neg (length ▸ space)]
      exact (sound.wakeTask_full blocked (le_antisymm sound.len (not_lt.mp space))).1
  · rw [if_neg blocked]
    exact (sound.wakeTask_placement_of_not_mem blocked).1

/-- A blocking task hands over to the head of the queue, if it can. -/
theorem Ordered.blockCurrentAndDispatch_spec (ordered : s.Ordered) (sound : s.Sound) (id : Nat) :
    ((s.blockCurrentAndDispatch id).1.switched = false ∧
        (s.blockCurrentAndDispatch id).2 = s ∧
        (s.queued ≠ [] → ¬ s.placement.HandsOver s.initialized id)) ∨
      ((s.blockCurrentAndDispatch id).1.switched = true ∧
        s.placement.HandsOver s.initialized id ∧
        (∃ rest, s.queued = (s.blockCurrentAndDispatch id).1.nextTask :: rest) ∧
        (s.blockCurrentAndDispatch id).2.placement =
          s.placement.dispatch (s.blockCurrentAndDispatch id).1.nextTask) := by
  have length := s.length_blockedTasks
  rcases sound.blockCurrentAndDispatch_cases id with ⟨decision, eq, unswitched⟩ |
    ⟨decision, s', eq, switched, -, -, -, -, places, -⟩
  · refine Or.inl ⟨by rw [eq]; exact unswitched, by rw [eq], fun nonempty handsOver => ?_⟩
    obtain ⟨up, nonzero, isCurrent, space⟩ := handsOver
    have some_ : 0 < s.len := s.length_queued ▸ List.length_pos_iff.mpr nonempty
    have := sound.blockCurrentAndDispatch_switches up
      (fun zero => nonzero (isCurrent.symm.trans zero)) some_ (length ▸ space)
    rw [show s.currentTask = id from isCurrent, eq, unswitched] at this
    cases this
  · obtain ⟨⟨up, nonzero, isCurrent, nonempty, space⟩, isNext⟩ :=
      blockCurrentAndDispatch_selected
        (by rw [eq]; exact switched : (s.blockCurrentAndDispatch id).1.switched = true)
    obtain ⟨next, s₁, rest, removed, queued, -⟩ := ordered.removeSelected sound nonempty
    rw [removed] at isNext
    exact Or.inr ⟨by rw [eq]; exact switched, ⟨up, nonzero, isCurrent, length.trans_lt space⟩,
      ⟨rest, isNext ▸ queued⟩, by rw [eq]; exact places⟩

/-- So does a preempted one. -/
theorem Ordered.preemptCurrent_spec (ordered : s.Ordered) (sound : s.Sound) :
    (s.preemptCurrent.1.switched = false ∧ s.preemptCurrent.2 = s ∧
        (s.queued ≠ [] → ¬ s.placement.Rotates s.initialized s.due)) ∨
      (s.preemptCurrent.1.switched = true ∧
        s.placement.Rotates s.initialized s.due ∧
        (∃ rest, s.queued = s.preemptCurrent.1.nextTask :: rest) ∧
        s.preemptCurrent.2.placement = s.placement.rotate s.preemptCurrent.1.nextTask) := by
  by_cases ready : s.initialized = true ∧ s.currentTask ≠ 0 ∧ 0 < s.len ∧
      s.quantumTicks ≤ s.sliceTicks
  · obtain ⟨up, running, nonempty, late⟩ := ready
    obtain ⟨next, s', s'', decision, result, removed, places, -, -, eq, switched, isNext, handed,
      -⟩ := sound.preemptCurrent_eq up running nonempty late
    obtain ⟨next', s₁, rest, removed', queued, -⟩ := ordered.removeSelected sound nonempty
    obtain ⟨rfl, rfl⟩ := Prod.mk.inj (removed.symm.trans removed')
    rw [eq]
    refine Or.inr ⟨switched, ⟨up, decide_eq_true late, running⟩, ⟨rest, isNext ▸ queued⟩, ?_⟩
    rw [handed, places, isNext]
    rfl
  · rw [preemptCurrent_guard ready]
    refine Or.inl ⟨rfl, rfl, fun nonempty rotates => ?_⟩
    obtain ⟨up, late, running⟩ := rotates
    exact ready ⟨up, running, s.length_queued ▸ List.length_pos_iff.mpr nonempty,
      of_decide_eq_true late⟩

/-- Every operation does to the placement what the machine says. -/
theorem Ordered.step_placement (ordered : s.Ordered) (sound : s.Sound) {op : Op}
    (allowed : op.Allowed s) :
    (s.step op).placement = s.placement.next s.initialized s.due op := by
  cases op with
  | init ticks =>
      change (s.init ticks).placement = if s.initialized then s.placement else ⟨[], [], 0⟩
      unfold Scheduler.init
      split
      · rfl
      · rfl
  | enqueue id => exact sound.enqueue_placement allowed
  | beginTask id => exact (sound.beginTask id).1
  | finishTask id => exact (sound.finishTask id).1
  | yieldCurrent => exact s.yieldCurrent_placement
  | blockTask id => exact sound.blockTask_placement id
  | blockCurrentAndDispatch id =>
      change (s.blockCurrentAndDispatch id).2.placement = _
      unfold Placement.next
      dsimp only
      rcases ordered.blockCurrentAndDispatch_spec sound id with ⟨-, same, refused⟩ |
        ⟨-, handsOver, ⟨rest, queued⟩, places⟩
      · rw [same]
        cases queued : s.placement.queued with
        | nil => rfl
        | cons first rest =>
            exact (if_neg (refused (queued.trans_ne (List.cons_ne_nil _ _)))).symm
      · rw [places, show s.placement.queued = _ from queued]
        exact (if_pos handsOver).symm
  | wakeTask id => exact sound.wakeTask_placement id
  | onTimerTick => exact s.onTimerTick_placement
  | onTimerTickAlways => exact s.onTimerTickAlways_placement
  | preemptCurrent =>
      change s.preemptCurrent.2.placement = _
      unfold Placement.next
      dsimp only
      rcases ordered.preemptCurrent_spec sound with ⟨-, same, refused⟩ |
        ⟨-, rotates, ⟨rest, queued⟩, places⟩
      · rw [same]
        cases queued : s.placement.queued with
        | nil => rfl
        | cons first rest =>
            exact (if_neg (refused (queued.trans_ne (List.cons_ne_nil _ _)))).symm
      · rw [places, show s.placement.queued = _ from queued]
        exact (if_pos rotates).symm

/-! ### Runs -/

/-- The decision of an operation, for those that dispatch. -/
def decision (s : Scheduler) : Op → Option PreemptionDecision
  | .blockCurrentAndDispatch id => some (s.blockCurrentAndDispatch id).1
  | .preemptCurrent => some s.preemptCurrent.1
  | _ => none

/-- The task that the operation dispatches. -/
def dispatched (s : Scheduler) (op : Op) : List Nat :=
  match s.decision op with
  | none => []
  | some decision => if decision.switched then [decision.nextTask] else []

/-- The tasks that a run dispatches, in order. -/
def dispatches (s : Scheduler) : List Op → List Nat
  | [] => []
  | op :: ops => s.dispatched op ++ (s.step op).dispatches ops

/-- The dispatched task is the one the machine pops. -/
theorem Ordered.dispatched_eq (ordered : s.Ordered) (sound : s.Sound) (op : Op) :
    s.dispatched op = Lib.Fifo.popped (s.placement.events s.initialized s.due op) := by
  cases op with
  | init ticks =>
      unfold Placement.events
      dsimp only
      split
      · rfl
      · exact (Lib.Fifo.popped_map_delete _).symm
  | enqueue id =>
      unfold Placement.events
      dsimp only
      split
      · rfl
      · rfl
  | beginTask id => rfl
  | finishTask id => rfl
  | yieldCurrent => rfl
  | blockTask id =>
      unfold Placement.events
      dsimp only
      split
      · rfl
      · rfl
  | blockCurrentAndDispatch id =>
      unfold dispatched decision Placement.events
      dsimp only
      rcases ordered.blockCurrentAndDispatch_spec sound id with ⟨unswitched, -, refused⟩ |
        ⟨switched, handsOver, ⟨rest, queued⟩, -⟩
      · rw [unswitched]
        cases queued : s.placement.queued with
        | nil => rfl
        | cons first rest =>
            dsimp only
            rw [if_neg (refused (queued.trans_ne (List.cons_ne_nil _ _)))]
            rfl
      · rw [switched, show s.placement.queued = _ from queued]
        dsimp only
        rw [if_pos handsOver]
        rfl
  | wakeTask id =>
      unfold Placement.events
      dsimp only
      split
      · rfl
      · rfl
  | onTimerTick => rfl
  | onTimerTickAlways => rfl
  | preemptCurrent =>
      unfold dispatched decision Placement.events
      dsimp only
      rcases ordered.preemptCurrent_spec sound with ⟨unswitched, -, refused⟩ |
        ⟨switched, rotates, ⟨rest, queued⟩, -⟩
      · rw [unswitched]
        cases queued : s.placement.queued with
        | nil => rfl
        | cons first rest =>
            dsimp only
            rw [if_neg (refused (queued.trans_ne (List.cons_ne_nil _ _)))]
            rfl
      · rw [switched, show s.placement.queued = _ from queued]
        dsimp only
        rw [if_pos rotates]
        rfl

/-- The operation takes the task out of the queue without dispatching it. -/
def Op.Displaces (id : Nat) : Op → Prop
  | blockTask taskId | beginTask taskId | finishTask taskId => taskId = id
  | _ => False

/-- Only an operation about the task takes it out, or a new start. -/
theorem delete_mem_events {p : Placement} {up due : Bool} {op : Op} {id : Nat}
    (mem : Event.delete id ∈ p.events up due op) :
    op.Displaces id ∨ (up = false ∧ ∃ ticks, op = .init ticks) := by
  cases op with
  | init ticks =>
      cases up with
      | false => exact Or.inr ⟨rfl, ticks, rfl⟩
      | true => exact absurd mem List.not_mem_nil
  | enqueue taskId =>
      unfold Placement.events at mem
      dsimp only at mem
      split at mem
      · cases List.mem_singleton.mp mem
      · cases mem
  | beginTask taskId =>
      cases List.mem_singleton.mp mem
      exact Or.inl rfl
  | finishTask taskId =>
      cases List.mem_singleton.mp mem
      exact Or.inl rfl
  | yieldCurrent => cases mem
  | blockTask taskId =>
      unfold Placement.events at mem
      dsimp only at mem
      split at mem
      · cases List.mem_singleton.mp mem
        exact Or.inl rfl
      · cases mem
  | blockCurrentAndDispatch taskId =>
      unfold Placement.events at mem
      dsimp only at mem
      split at mem
      · cases mem
      split at mem
      · cases List.mem_singleton.mp mem
      · cases mem
  | wakeTask taskId =>
      unfold Placement.events at mem
      dsimp only at mem
      split at mem
      · cases List.mem_singleton.mp mem
      · cases mem
  | onTimerTick => cases mem
  | onTimerTickAlways => cases mem
  | preemptCurrent =>
      unfold Placement.events at mem
      dsimp only at mem
      split at mem
      · cases mem
      split at mem
      · rcases List.mem_cons.mp mem with same | mem
        · cases same
        · cases List.mem_singleton.mp mem
      · cases mem

/-- A run is a run of the queue of the machine, whose pops are the dispatches. -/
theorem Ordered.run_fifo (ordered : s.Ordered) (sound : s.Sound) {ops : List Op}
    (allowed : s.AllAllowed ops) {id : Nat} (kept : ∀ op ∈ ops, ¬ op.Displaces id)
    (booted : s.initialized = true ∨ ∀ ticks, Op.init ticks ∉ ops) :
    ∃ events, Lib.Fifo.Run s.queued events (s.run ops).queued ∧
      Lib.Fifo.popped events = s.dispatches ops ∧ Event.delete id ∉ events := by
  induction ops generalizing s with
  | nil => exact ⟨[], .done, rfl, List.not_mem_nil⟩
  | cons op ops ih =>
      have booted' : (s.step op).initialized = true ∨ ∀ ticks, Op.init ticks ∉ ops := by
        rcases booted with up | never
        · refine Or.inl ?_
          rcases ordered.step_requeues sound op with requeues | ⟨down, -⟩
          · exact requeues.initialized.trans up
          · rw [up] at down
            cases down
        · exact Or.inr fun ticks mem => never ticks (List.mem_cons_of_mem _ mem)
      obtain ⟨events, run, popped, undeleted⟩ := ih (ordered.step sound op)
        (sound.step allowed.1) allowed.2 (fun op' mem => kept op' (List.mem_cons_of_mem _ mem))
        booted'
      have first := Placement.next_queued s.placement s.initialized s.due op
      rw [← ordered.step_placement sound allowed.1] at first
      refine ⟨_, first.append run, ?_, fun mem => ?_⟩
      · rw [Lib.Fifo.popped_append, popped, dispatches, ordered.dispatched_eq sound op]
      · rcases List.mem_append.mp mem with mem | mem
        · rcases delete_mem_events mem with displaces | ⟨down, ticks, rfl⟩
          · exact kept op List.mem_cons_self displaces
          · rcases booted with up | never
            · rw [up] at down
              cases down
            · exact never ticks List.mem_cons_self
        · exact undeleted mem

/-- What holds of every reachable state. -/
theorem run_ordered {ops : List Op} (ordered : s.Ordered) (sound : s.Sound)
    (allowed : s.AllAllowed ops) (none : s.starvationPreventions = 0) :
    (s.run ops).Ordered ∧ (s.run ops).Sound ∧ (s.run ops).starvationPreventions = 0 := by
  induction ops generalizing s with
  | nil => exact ⟨ordered, sound, none⟩
  | cons op ops ih =>
      exact ih (ordered.step sound op) (sound.step allowed.1) allowed.2
        (ordered.step_preventions sound none op)

theorem Ordered.blockCurrentAndDispatch_guard (ordered : s.Ordered) (id : Nat) :
    (s.blockCurrentAndDispatch id).1.starvationGuard = false := by
  unfold Scheduler.blockCurrentAndDispatch
  rw [ordered.selectNextOffset]
  split
  · rfl
  dsimp only
  split
  · rfl
  · rfl

theorem Ordered.preemptCurrent_guard (ordered : s.Ordered) :
    s.preemptCurrent.1.starvationGuard = false := by
  unfold Scheduler.preemptCurrent
  rw [ordered.selectNextOffset]
  dsimp only
  split
  · rfl
  split
  · rfl
  split
  · rfl
  · rfl

/-- Who is dispatched stood at the front. -/
theorem Ordered.decision_front (ordered : s.Ordered) (sound : s.Sound) {op : Op}
    {decision : PreemptionDecision} (decides : s.decision op = some decision) :
    decision.starvationGuard = false ∧
      (decision.switched = true → s.queued.head? = some decision.nextTask) := by
  cases op with
  | blockCurrentAndDispatch id =>
      cases decides
      refine ⟨ordered.blockCurrentAndDispatch_guard id, fun switched => ?_⟩
      rcases ordered.blockCurrentAndDispatch_spec sound id with ⟨unswitched, -⟩ |
        ⟨-, -, ⟨rest, queued⟩, -⟩
      · rw [switched] at unswitched
        cases unswitched
      · rw [queued]
        rfl
  | preemptCurrent =>
      cases decides
      refine ⟨ordered.preemptCurrent_guard, fun switched => ?_⟩
      rcases ordered.preemptCurrent_spec sound with ⟨unswitched, -⟩ | ⟨-, -, ⟨rest, queued⟩, -⟩
      · rw [switched] at unswitched
        cases unswitched
      · rw [queued]
        rfl
  | _ => cases decides

/-- Strict first in, first out, in every state that operations lead to. -/
theorem strict_fifo {ops : List Op} (allowed : new.AllAllowed ops) :
    ((new.run ops).entries.Pairwise fun e e' => e.readySince ≤ e'.readySince) ∧
      (∀ op decision, (new.run ops).decision op = some decision →
        decision.starvationGuard = false ∧
          (decision.switched = true → (new.run ops).queued.head? = some decision.nextTask)) ∧
      (new.run ops).starvationPreventions = 0 ∧
      -- the machine on lists is followed, and works on its queue by pushes, pops and deletes
      (∀ op : Op, op.Allowed (new.run ops) →
        ((new.run ops).step op).placement =
            (new.run ops).placement.next (new.run ops).initialized (new.run ops).due op ∧
          Lib.Fifo.Run (new.run ops).queued
            ((new.run ops).placement.events (new.run ops).initialized (new.run ops).due op)
            ((new.run ops).step op).queued) ∧
      -- the current task always finds room in the queue it is to rejoin
      ((new.run ops).currentTask ≠ 0 → 0 < (new.run ops).len → ∀ maxWaitTicks readySince,
        (({ ((new.run ops).removeAt (new.run ops).selectNextOffset.1).2 with
          maxWaitTicks, currentTask := 0 } : Scheduler).enqueueAt (new.run ops).currentTask
            readySince).1 = true) ∧
      -- nobody overtakes
      ∀ more k id, (new.run ops).AllAllowed more → (new.run ops).queued[k]? = some id →
        (∀ op ∈ more, ¬ op.Displaces id) →
        ((new.run ops).initialized = true ∨ ∀ ticks, Op.init ticks ∉ more) →
        k < ((new.run ops).dispatches more).length →
          ∃ j ≤ k, ((new.run ops).dispatches more)[j]? = some id := by
  obtain ⟨ordered, sound, none⟩ := run_ordered new_ordered new_sound allowed rfl
  refine ⟨ordered.sorted, fun op decision => ordered.decision_front sound, none,
    fun op allowed' => ?_, fun running nonempty maxWaitTicks readySince => ?_,
    fun more k id allowed' here kept booted enough => ?_⟩
  · have follows := ordered.step_placement sound allowed'
    refine ⟨follows, ?_⟩
    rw [show ((new.run ops).step op).queued = _ from congrArg Placement.queued follows]
    exact Placement.next_queued (new.run ops).placement _ _ op
  · obtain ⟨next, s', s'', eq, -, -, queues, -⟩ :=
      sound.requeue running nonempty maxWaitTicks readySince
    rw [eq, queues]
  · obtain ⟨events, fifo, popped, undeleted⟩ := ordered.run_fifo sound allowed' kept booted
    rw [← popped] at enough ⊢
    exact fifo.popped_of_getElem? here undeleted enough

/-- Task 3, second in the queue behind task 2, is dispatched second. -/
theorem strict_fifo_sampleRun :
    let s := new.run [.init 0, .enqueue 1, .enqueue 2, .enqueue 3, .beginTask 1]
    ∃ j ≤ 1, (s.dispatches [.blockCurrentAndDispatch 1, .onTimerTick, .onTimerTick,
      .preemptCurrent])[j]? = some 3 :=
  (strict_fifo (by decide :
    new.AllAllowed [.init 0, .enqueue 1, .enqueue 2, .enqueue 3, .beginTask 1])).2.2.2.2.2
    [.blockCurrentAndDispatch 1, .onTimerTick, .onTimerTick,
      .preemptCurrent] 1 3 (by decide) (by decide) (by simp [Op.Displaces]) (Or.inl (by decide))
      (by decide)

end Scheduler

end CloudOS
