import CloudOS.Kernel.Custody
import Mathlib.Algebra.BigOperators.Fin

/-!
No frame is ever lost when images are small.

The list of freed frames has 128 entries, and a cleanup that finds it full leaks. With at
most eight pages to an image, eight tasks hold at most 112 frames, and a spawn that fails
brings back at most 15 more: so there is room for everything that can come back. Then
every frame is either one that the kernel had at the start, or with one task, or free.
-/

namespace CloudOS.Kernel

open Lib.Word (maxWord)
open CloudOS.Paging (AddressSpace Machine)
open CloudOS.PhysMem (FrameSource maxRecycledFrames)
open CloudOS.Process (maxTasks)

variable {source : FrameSource} {p : Platform} {k k' : KernelState source} {i : Fin maxTasks}
  {own : Nat → Prop}

/-- How many frames the tasks have together. -/
def KernelState.taken (k : KernelState source) : Nat := ∑ i, (k.holdings i).length

/-- Every issued frame is one of `own` or with a task, and there is room for what the tasks
have. -/
structure Balanced (own : Nat → Prop) (k : KernelState source) : Prop where
  issued : ∀ x, k.machine.Issued x ↔ own x ∨ ∃ i, x ∈ k.holdings i
  others : ∀ i, ∀ x ∈ k.holdings i, ¬ own x
  short : ∀ i, (k.holdings i).length ≤ 14
  room : source.recycled k.machine.frames + k.taken ≤ maxRecycledFrames

/-- One slot changes what it holds. -/
theorem taken_update (same : ∀ j, j ≠ i → k'.holdings j = k.holdings j) :
    k'.taken + (k.holdings i).length = k.taken + (k'.holdings i).length := by
  unfold KernelState.taken
  rw [← Finset.add_sum_erase _ _ (Finset.mem_univ i),
    ← Finset.add_sum_erase Finset.univ (fun i => (k.holdings i).length) (Finset.mem_univ i),
    Finset.sum_congr rfl fun j mem => congrArg List.length (same j (Finset.ne_of_mem_erase mem))]
  omega

theorem taken_le (short : ∀ i, (k.holdings i).length ≤ 14) : k.taken ≤ 112 :=
  (Finset.sum_le_card_nsmul Finset.univ _ 14 fun i _ => short i).trans
    (by rw [Finset.card_univ, Fintype.card_fin]; decide)

theorem holding_le_taken (k : KernelState source) (i : Fin maxTasks) :
    (k.holdings i).length ≤ k.taken :=
  Finset.single_le_sum (f := fun i => (k.holdings i).length) (fun _ _ => Nat.zero_le _)
    (Finset.mem_univ i)

namespace Balanced

/-- The same frames are with the same tasks. -/
theorem same (balanced : Balanced own k) (holdings : ∀ i, k'.holdings i = k.holdings i)
    (issued : ∀ x, k'.machine.Issued x ↔ k.machine.Issued x)
    (recycled : source.recycled k'.machine.frames ≤
      max (source.recycled k.machine.frames) (maxRecycledFrames - 112)) : Balanced own k' := by
  have taken : k'.taken = k.taken := by
    unfold KernelState.taken
    simp only [holdings]
  have most := taken_le balanced.short
  have room := balanced.room
  refine ⟨fun x => ?_, ?_, ?_, ?_⟩
  · rw [issued, balanced.issued]
    simp only [holdings]
  · simpa only [holdings] using balanced.others
  · simpa only [holdings] using balanced.short
  · simp only [maxRecycledFrames] at *
    omega

/-- The slot has room for all that its task gives back. -/
theorem fits (balanced : Balanced own k) (i : Fin maxTasks) :
    (k.holdings i).length ≤ k.machine.room := by
  have room := balanced.room
  have le := holding_le_taken k i
  rw [Machine.room]
  omega

/-- With small images the list of freed frames never fills up, so all frames come back. -/
theorem retire {complete : Bool} (balanced : Balanced own k) (grounded : Grounded p k)
    (retires : Retires k i complete k') : complete = true ∧ Balanced own k' := by
  have fits := balanced.fits i
  have vacant : k'.holdings i = [] := by
    rw [KernelState.holdings, retires.vacant, if_neg Bool.false_ne_true]
  have others : ∀ j, j ≠ i → k'.holdings j = k.holdings j := fun j ne => by
    rw [KernelState.holdings, KernelState.holdings, retires.spaces j ne]
  have part : ∀ j, ∀ x ∈ k'.holdings j, x ∈ k.holdings j ∧ j ≠ i := by
    intro j x mem
    by_cases here : j = i
    · rw [here, vacant] at mem
      cases mem
    · rw [others j here] at mem
      exact ⟨mem, here⟩
  refine ⟨retires.complete.mpr fits, fun x => ?_, fun j x mem => balanced.others j x (part j x mem).1,
    fun j => ?_, ?_⟩
  · rw [retires.issued, List.take_of_length_le fits, balanced.issued]
    constructor
    · rintro ⟨mine | ⟨j, mem⟩, away⟩
      · exact .inl mine
      · have ne : j ≠ i := fun same => away (same ▸ mem)
        exact .inr ⟨j, by rw [others j ne]; exact mem⟩
    · rintro (mine | ⟨j, mem⟩)
      · exact ⟨.inl mine, fun mem => balanced.others i x mem mine⟩
      · obtain ⟨mem, ne⟩ := part j x mem
        exact ⟨.inr ⟨j, mem⟩, fun mem' => grounded.disjoint_holdings ne mem mem'⟩
  · by_cases here : j = i
    · rw [here, vacant]
      exact Nat.zero_le _
    · rw [others j here]
      exact balanced.short j
  · have taken := taken_update others
    have recycled := retires.recycled
    have room := balanced.room
    rw [Nat.min_eq_left fits] at recycled
    rw [vacant, List.length_nil] at taken
    omega

/-- A new task takes its frames from those that were free. -/
theorem fill {k' : KernelState source} (balanced : Balanced own k)
    (vacant : k.holdings i = []) (others : ∀ j, j ≠ i → k'.holdings j = k.holdings j)
    {taken : List Nat} (draws : source.Draws k.machine.frames taken k'.machine.frames)
    (perm : (k'.holdings i).Perm taken) (short : (k'.holdings i).length ≤ 14) :
    Balanced own k' := by
  have atNew : ∀ x, x ∈ k'.holdings i → ¬ k.machine.Issued x := fun x mem =>
    draws.fresh.2 x (perm.mem_iff.mp mem)
  have issued : ∀ x, k'.machine.Issued x ↔ k.machine.Issued x ∨ x ∈ k'.holdings i := fun x =>
    (draws.outstanding x).trans (or_congr_right perm.mem_iff.symm)
  refine ⟨fun x => ?_, fun j x mem mine => ?_, fun j => ?_, ?_⟩
  · rw [issued, balanced.issued]
    constructor
    · rintro ((mine | ⟨j, mem⟩) | mem)
      · exact .inl mine
      · have ne : j ≠ i := by
          rintro rfl
          rw [vacant] at mem
          cases mem
        exact .inr ⟨j, by rw [others j ne]; exact mem⟩
      · exact .inr ⟨i, mem⟩
    · rintro (mine | ⟨j, mem⟩)
      · exact .inl (.inl mine)
      · by_cases here : j = i
        · exact .inr (here ▸ mem)
        · rw [others j here] at mem
          exact .inl (.inr ⟨j, mem⟩)
  · by_cases here : j = i
    · subst here
      exact atNew x mem ((balanced.issued x).mpr (.inl mine))
    · rw [others j here] at mem
      exact balanced.others j x mem mine
  · by_cases here : j = i
    · rw [here]
      exact short
    · rw [others j here]
      exact balanced.short j
  · have recycled := draws.recycled
    have most := taken_le balanced.short
    have sum := taken_update others
    have room := balanced.room
    rw [← perm.length_eq] at recycled
    rw [vacant, List.length_nil] at sum
    simp only [maxRecycledFrames] at *
    omega

/-- A spawn takes the frames of its space and no others. -/
theorem spawn {parentId pages : Nat}
    {Good : Process.ProcessImage → AddressSpace → Machine source → Prop}
    {result : Option Process.Task × KernelState source} (balanced : Balanced own k)
    (spawns : Spawns p k parentId pages Good result) (few : pages ≤ 8) (grounded : Grounded p k)
    (lodging : k.system.Lodging) : Balanced own result.2 := by
  cases spawns with
  | failed _ _ _ undone =>
      refine balanced.same (fun _ => rfl) undone.restores.issued
        (undone.restores.recycled.trans (max_le_max le_rfl ?_))
      simp only [maxRecycledFrames]
      omega
  | @filled image space system heap machine index slot address provided _ short free =>
      obtain ⟨-, taken, draws, perm⟩ := provided.takes
      have inactive := lodging.inactive free
      have vacant : k.holdings index = [] := by
        refine if_neg fun active => ?_
        rw [((grounded.active index).mp active).1] at inactive
        cases inactive
      refine balanced.fill vacant (fun j other => ?_) draws ?_ ?_
      · rw [holdings_of_space (Function.update_of_ne other ..)]
        rfl
      · rw [holdings_of_space (Function.update_self ..)]
        exact perm
      · rw [holdings_of_space (Function.update_self ..)]
        split
        · rw [AddressSpace.length_freed]
          omega
        · exact Nat.zero_le _

/-- Every step accounts for the frames it takes and returns. -/
theorem step {op : Op} (balanced : Balanced own k) (stepped : Stepped p k op k')
    (fits : p.Fits 8) (grounded : Grounded p k) (lodging : k.system.Lodging) :
    Balanced own k' := by
  cases stepped with
  | spawn _ spawns => exact balanced.spawn (spawns fits) le_rfl grounded lodging
  | retire _ _ _ retires => exact (balanced.retire grounded retires).2
  | @collect system i holding inactive =>
      refine balanced.same (fun j => ?_) (fun _ => Iff.rfl) (le_max_left _ _)
      by_cases here : j = i
      · rw [here, holdings_of_space (Function.update_self ..), KernelState.holdings, inactive]
        rfl
      · rw [holdings_of_space (Function.update_of_ne here ..)]
        rfl
  | store _ _ => exact balanced.same (fun _ => rfl) (fun _ => Iff.rfl) (le_max_left _ _)

theorem run {ops : List Op} {issued : Nat} (balanced : Balanced own k) (sound : Sound p k issued)
    (aligned : p.EntryAligned) (fits : p.Fits 8) (few : issued + spawnCount ops ≤ maxWord) :
    Balanced own (run p k ops) := by
  induction ops generalizing k issued with
  | nil => exact balanced
  | cons op ops ih =>
      have count : spawnCount (op :: ops) = spawnCount ops + if op.spawns then 1 else 0 :=
        List.countP_cons
      rw [count] at few
      have stepped := step_stepped sound.grounded sound.lodging sound.registered aligned op
      obtain ⟨issued', le, sound'⟩ := step_sound sound aligned op fun spawns => by
        rw [spawns, if_pos rfl] at few
        omega
      exact ih (balanced.step stepped fits sound.grounded sound.lodging) sound' (by omega)

end Balanced

/-- At the start no task has a frame. -/
theorem Starts.balanced (starts : Starts p k) : Balanced k.machine.Issued k := by
  have none : ∀ i, k.holdings i = [] := fun i => by
    rw [holdings_of_space (congrFun starts.spaces i)]
    rfl
  have never : ∀ i x, x ∉ k.holdings i := fun i x mem => by
    rw [none i] at mem
    cases mem
  refine ⟨fun x => ⟨.inl, ?_⟩, fun i x mem => absurd mem (never i x), fun i => ?_, ?_⟩
  · rintro (mine | ⟨i, mem⟩)
    · exact mine
    · exact absurd mem (never i x)
  · rw [none i]
    exact Nat.zero_le _
  · unfold KernelState.taken
    simp only [none, List.length_nil, Finset.sum_const_zero]
    exact source.bounded k.machine.frames

/-- With images of at most eight pages, in every run, the frames in use are those of the start
and those of the tasks, and every cleanup is complete. -/
theorem no_frame_lost (starts : Starts p k) (aligned : p.EntryAligned) (fits : p.Fits 8)
    (ops : List Op) (few : spawnCount ops ≤ maxWord) :
    (∀ x, (run p k ops).machine.Issued x ↔
      k.machine.Issued x ∨ ∃ i, x ∈ (run p k ops).holdings i) ∧
    (∀ i, ∀ x ∈ (run p k ops).holdings i, ¬ k.machine.Issued x) ∧
    ∀ id i, (run p k ops).system.table.findTask id = some i →
      ((run p k ops).system.table.task i).resourcesActive = true →
      ((run p k ops).cleanupTask p id).1 = true := by
  obtain ⟨issued, -, sound⟩ := starts.run_sound aligned ops few
  have balanced := starts.balanced.run starts.sound aligned fits
    (show 0 + spawnCount ops ≤ maxWord by omega)
  refine ⟨balanced.issued, balanced.others, fun id i found held => ?_⟩
  rcases cleanupTask_cases sound.grounded sound.registered sound.lodging id with
    ⟨-, inactive⟩ | ⟨j, -, -, retires⟩
  · rw [(inactive i found).1] at held
    cases held
  · exact (balanced.retire sound.grounded retires).1

/-- Two tasks come and one goes. -/
theorem no_frame_lost_smallKernel :
    let k := run smallPlatform smallKernel [.spawnElfChild 0, .spawnPreemptTask, .cleanupTask 1]
    (k.cleanupTask smallPlatform 2).1 = true := by
  have fits : smallPlatform.Fits 8 :=
    ⟨by decide, fun file init plan valid => (smallPlatform_fits.plan file init plan valid).trans
      (by decide)⟩
  exact (no_frame_lost smallKernel_starts smallPlatform_aligned fits
    [.spawnElfChild 0, .spawnPreemptTask, .cleanupTask 1] (by decide)).2.2 2 1 (by decide +kernel)
    (by decide +kernel)

end CloudOS.Kernel
