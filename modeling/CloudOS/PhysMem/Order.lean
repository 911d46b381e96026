import CloudOS.PhysMem.Source

/-!
The order in which frames are handed out.

The frames that were freed last come first, and behind them those that were never
issued, region by region. This holds for every memory map, also for one whose
regions overlap: only the position of the cursor matters, not who has a frame.
-/

namespace CloudOS.PhysMem

open Lib.Word (satAdd)

namespace FrameAllocator

/-- The two calls of the allocator, for any memory map. -/
def calls (boot : BootInfo) : FrameCalls where
  State := FrameAllocator
  allocateFrame := allocateFrame boot
  freeFrame := freeFrame boot

/-- The free frames, in the order in which they are handed out. -/
def supply (a : FrameAllocator) : List Nat := a.recycledFrames ++ a.remaining

/-- The cursor is inside its region, and what was freed are whole frames. -/
structure Ordered (a : FrameAllocator) : Prop where
  initialized : a.initialized = true
  framed : ∀ region ∈ a.regions, region.Framed a.protectedUntil
  cursor : CursorIn a.nextFrame (a.regions.drop a.currentRegion)
  aligned : ∀ frame ∈ a.recycledFrames, frame % frameSize = 0

variable {a : FrameAllocator}

/-- The next frame is the first of the free ones. -/
theorem Ordered.allocateFrame (boot : BootInfo) (ordered : a.Ordered) :
    (a.allocateFrame boot).1 = a.supply.head? ∧
      (a.allocateFrame boot).2.supply = a.supply.tail ∧ (a.allocateFrame boot).2.Ordered := by
  unfold FrameAllocator.allocateFrame
  rw [ready_of_initialized boot ordered.initialized]
  dsimp only
  cases recycled : a.recycledFrames with
  | cons frame rest =>
    refine ⟨?_, ?_, ordered.initialized, ordered.framed, ordered.cursor, ?_⟩
    · simp [supply, recycled]
    · simp [supply, recycled, remaining]
    · intro other mem
      exact ordered.aligned other (recycled ▸ List.mem_cons_of_mem _ mem)
  | nil =>
    have within : ∀ region ∈ a.regions.drop a.currentRegion, region.Framed a.protectedUntil :=
      fun region mem => ordered.framed region (List.mem_of_mem_drop mem)
    have all : a.supply = a.remaining := by simp [supply, recycled]
    rcases bump_spec within a.currentRegion ordered.cursor with
      ⟨done, stopped, eq⟩ | ⟨frame, k, next, eq, -, cursor, remaining⟩
    · have atEnd : a.regions.drop
          (a.currentRegion + (a.regions.drop a.currentRegion).length) = [] := by
        apply List.drop_eq_nil_of_le
        rw [List.length_drop]
        omega
      rw [eq, all, FrameAllocator.remaining, done]
      refine ⟨rfl, ?_, ordered.initialized, ordered.framed, ?_, ?_⟩
      · change remainingIn stopped (a.regions.drop _) = []
        rw [atEnd]
        rfl
      · change CursorIn stopped (a.regions.drop _)
        rw [atEnd]
        trivial
      · exact List.forall_mem_nil _
    · rw [eq, all, FrameAllocator.remaining, remaining, List.drop_drop]
      rw [List.drop_drop] at cursor
      exact ⟨rfl, rfl, ordered.initialized, ordered.framed, cursor, List.forall_mem_nil _⟩

/-- A frame that is taken back becomes the next one. -/
theorem Ordered.freeFrame (boot : BootInfo) (ordered : a.Ordered) (frame : Nat) :
    (a.freeFrame boot frame).2.Ordered ∧
      (a.freeFrame boot frame).2.supply =
        if (a.freeFrame boot frame).1 then frame :: a.supply else a.supply := by
  unfold FrameAllocator.freeFrame
  rw [ready_of_initialized boot ordered.initialized]
  dsimp only
  split
  · exact ⟨ordered, rfl⟩
  rename_i passes
  split
  · exact ⟨ordered, rfl⟩
  split
  · exact ⟨ordered, rfl⟩
  · refine ⟨⟨ordered.initialized, ordered.framed, ordered.cursor, ?_⟩, rfl⟩
    intro other mem
    rcases List.mem_cons.mp mem with rfl | mem
    · simp only [Bool.or_eq_true, not_or, Bool.not_eq_true', Bool.not_eq_false] at passes
      exact isFrameAligned_iff.mp passes.1.1
    · exact ordered.aligned other mem

/-- Free frames are whole frames. -/
theorem Ordered.supply_aligned (ordered : a.Ordered) {frame : Nat} (mem : frame ∈ a.supply) :
    frame % frameSize = 0 := by
  rcases List.mem_append.mp mem with mem | mem
  · exact ordered.aligned frame mem
  · have all : frame ∈ a.frames := by
      rw [frames_eq ordered.framed ordered.cursor]
      exact List.mem_append_right _ mem
    obtain ⟨region, inRegions, inside⟩ := List.mem_flatMap.mp all
    exact ((ordered.framed region inRegions).mem_frames.mp inside).1

end FrameAllocator

open FrameAllocator

/-- The order of a fresh allocator is that of its regions. -/
theorem init_ordered (boot : BootInfo) : (init boot).Ordered := by
  obtain ⟨current, recycled, -, -⟩ := init_untouched boot
  have next := init_nextFrame boot
  refine ⟨rfl, fun _ mem => init_framed boot mem, ?_, ?_⟩
  · rw [current, List.drop_zero]
    cases regions : (init boot).regions with
    | nil => trivial
    | cons region rest =>
      have inBounds := init_framed boot (regions ▸ List.mem_cons_self : region ∈ (init boot).regions)
      rw [regions] at next
      rw [next region rfl]
      exact ⟨le_rfl, inBounds.nonempty.le, inBounds.start⟩
  · rw [recycled]
    exact List.forall_mem_nil _

/-- After every history, on every memory map. -/
theorem history_ordered (boot : BootInfo) (ops : List FrameOp) :
    (history boot ops).allocator.Ordered := by
  suffices runs : ∀ ledger : Ledger, ledger.allocator.Ordered →
      (ops.foldl (Ledger.record boot) ledger).allocator.Ordered from
    runs _ (init_ordered boot)
  induction ops with
  | nil => exact fun _ ordered => ordered
  | cons op ops ih =>
    intro ledger ordered
    refine ih _ ?_
    cases op with
    | allocate =>
      have kept := (ordered.allocateFrame boot).2.2
      rw [Ledger.record]
      cases allocates : ledger.allocator.allocateFrame boot with
      | mk answer allocator =>
        rw [allocates] at kept
        cases answer with
        | none => exact kept
        | some frame => exact kept
    | free frame =>
      have kept := (ordered.freeFrame boot frame).1
      rw [Ledger.record]
      cases frees : ledger.allocator.freeFrame boot frame with
      | mk answer allocator =>
        rw [frees] at kept
        cases answer with
        | false => exact kept
        | true => exact kept

end CloudOS.PhysMem
