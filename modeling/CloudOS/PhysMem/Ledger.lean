import CloudOS.PhysMem.Frames

/-!
Exclusivity and conservation of frames over every history of allocations and
frees.

A ledger keeps, next to the allocator, what its clients know: the frames they
were ever given and those they have not given back. The allocator stores
neither, but in every history its own bookkeeping amounts to the same.
-/

namespace CloudOS.PhysMem

namespace FrameAllocator

/-! ### The initial state -/

/-- The total is the sum of what is recorded. -/
theorem addMemoryRegion_counts (a : FrameAllocator) (region : MemoryRegion)
    (counted : a.allocatableFrames = (a.regions.map AllocRegion.frameCount).sum) :
    (a.addMemoryRegion region).allocatableFrames =
      ((a.addMemoryRegion region).regions.map AllocRegion.frameCount).sum := by
  unfold addMemoryRegion
  dsimp only
  split_ifs
  · exact counted
  · exact counted
  · exact counted
  · exact counted
  · simp [counted]
  · exact counted

/-- What the loop of `init` does not touch. -/
structure Untouched (a : FrameAllocator) : Prop where
  currentRegion : a.currentRegion = 0
  recycled : a.recycledFrames = []
  allocated : a.allocatedFrames = 0
  counted : a.allocatableFrames = (a.regions.map AllocRegion.frameCount).sum

theorem Untouched.addMemoryRegion {a : FrameAllocator} (untouched : a.Untouched)
    (region : MemoryRegion) : (a.addMemoryRegion region).Untouched := by
  refine ⟨?_, ?_, ?_, addMemoryRegion_counts a region untouched.counted⟩
  · unfold FrameAllocator.addMemoryRegion
    dsimp only
    split_ifs
    all_goals exact untouched.currentRegion
  · unfold FrameAllocator.addMemoryRegion
    dsimp only
    split_ifs
    all_goals exact untouched.recycled
  · unfold FrameAllocator.addMemoryRegion
    dsimp only
    split_ifs
    all_goals exact untouched.allocated

theorem Untouched.foldl {a : FrameAllocator} (untouched : a.Untouched)
    (stored : List MemoryRegion) : (stored.foldl FrameAllocator.addMemoryRegion a).Untouched := by
  induction stored generalizing a with
  | nil => exact untouched
  | cons region stored ih => exact ih (untouched.addMemoryRegion region)

/-- Before the first allocation nothing is outstanding. -/
theorem init_untouched (boot : BootInfo) : (init boot).Untouched := by
  have start : ({ new with
      kernelStart := boot.kernelStart
      kernelEnd := alignUp boot.kernelEnd frameSize
      protectedUntil := reserve boot } : FrameAllocator).Untouched := ⟨rfl, rfl, rfl, rfl⟩
  obtain ⟨current, recycled, allocated, counted⟩ := start.foldl boot.memory.regions
  unfold init
  dsimp only
  split
  · exact ⟨current, recycled, allocated, counted⟩
  · exact ⟨current, recycled, allocated, counted⟩

theorem init_nextFrame (boot : BootInfo) :
    ∀ region ∈ (init boot).regions.head?, (init boot).nextFrame = region.start := by
  unfold init
  dsimp only
  split
  · rename_i none
    intro region mem
    rw [none] at mem
    cases mem
  · rename_i first rest some
    intro region mem
    rw [some] at mem
    cases mem
    rfl

/-- A map without overlaps starts out sound. -/
theorem init_sound {boot : BootInfo} (disjoint : (init boot).DisjointRegions) :
    (init boot).Sound := by
  obtain ⟨current, recycled, allocated, counted⟩ := init_untouched boot
  have next := init_nextFrame boot
  have framed : ∀ region ∈ (init boot).regions, region.Framed (init boot).protectedUntil :=
    fun _ mem => init_framed boot mem
  have passed : (init boot).passed = [] := by
    unfold FrameAllocator.passed
    rw [current, List.take_zero, List.drop_zero]
    cases regions : (init boot).regions with
    | nil => rfl
    | cons region rest =>
        rw [regions] at next
        rw [next region rfl, passedIn, framesFrom_self]
        rfl
  constructor
  · rfl
  · exact framed
  · exact disjoint
  · rw [current, List.drop_zero]
    cases regions : (init boot).regions with
    | nil => trivial
    | cons region rest =>
        have inBounds := framed region (by rw [regions]; exact List.mem_cons_self)
        rw [regions] at next
        rw [next region rfl]
        exact ⟨le_rfl, inBounds.nonempty.le, inBounds.start⟩
  · rw [recycled]
    exact List.nodup_nil
  · rw [recycled]
    exact fun _ mem => absurd mem List.not_mem_nil
  · rw [recycled]
    exact Nat.zero_le _
  · rw [counted, FrameAllocator.frames, List.length_flatMap]
    congr 1
    refine List.map_congr_left fun region _ => ?_
    simp [AllocRegion.frames, framesFrom, AllocRegion.frameCount]
  · rw [recycled, allocated, passed]
    rfl

end FrameAllocator

open FrameAllocator

/-! ### Histories -/

inductive FrameOp where
  | allocate
  | free (frame : Nat)

/-- The allocator, the frames it ever returned, and those not freed since. -/
structure Ledger where
  allocator : FrameAllocator
  issued : Finset Nat
  outstanding : Finset Nat

def Ledger.record (boot : BootInfo) (ledger : Ledger) : FrameOp → Ledger
  | .allocate =>
      match ledger.allocator.allocateFrame boot with
      | (some frame, allocator) =>
          ⟨allocator, insert frame ledger.issued, insert frame ledger.outstanding⟩
      | (none, allocator) => { ledger with allocator }
  | .free frame =>
      match ledger.allocator.freeFrame boot frame with
      | (true, allocator) => ⟨allocator, ledger.issued, ledger.outstanding.erase frame⟩
      | (false, allocator) => { ledger with allocator }

def history (boot : BootInfo) (ops : List FrameOp) : Ledger :=
  ops.foldl (Ledger.record boot) ⟨init boot, ∅, ∅⟩

/-- The ledger agrees with the allocator. -/
structure Ledger.Kept (boot : BootInfo) (ledger : Ledger) : Prop where
  sound : ledger.allocator.Sound
  regions : ledger.allocator.regions = (init boot).regions
  issued : ledger.issued = ledger.allocator.passed.toFinset
  outstanding : ledger.outstanding = ledger.allocator.outstanding

/-- Every operation keeps the ledger. -/
theorem Ledger.Kept.record {boot : BootInfo} {ledger : Ledger} (kept : ledger.Kept boot)
    (op : FrameOp) : (ledger.record boot op).Kept boot := by
  obtain ⟨sound, regions, issued, outstanding⟩ := kept
  cases op with
  | allocate =>
      unfold Ledger.record
      have result := sound.allocateFrame boot
      cases allocates : ledger.allocator.allocateFrame boot with
      | mk answer allocator =>
          rw [allocates] at result
          cases answer with
          | none =>
              obtain ⟨sound', -, -, outstanding', regions'⟩ := sound.allocateFrame_none boot allocates
              cases result with
              | exhausted _ _ _ passed _ _ _ =>
                  exact ⟨sound', regions'.trans regions, by rw [issued, passed],
                    outstanding.trans outstanding'.symm⟩
          | some frame =>
              obtain ⟨sound', -, -, outstanding', regions'⟩ := sound.allocateFrame_some boot allocates
              refine ⟨sound', regions'.trans regions, ?_, ?_⟩
              · dsimp only
                rw [issued]
                cases result with
                | recycled was _ passed _ _ =>
                    rw [passed]
                    refine Finset.insert_eq_of_mem (List.mem_toFinset.mpr (sound.issued frame ?_))
                    rw [was]
                    exact List.mem_cons_self
                | bumped _ _ _ passed _ _ =>
                    rw [passed]
                    ext other
                    simp
              · dsimp only
                rw [outstanding, outstanding']
  | free frame =>
      unfold Ledger.record
      dsimp only
      cases frees : ledger.allocator.freeFrame boot frame with
      | mk answer allocator =>
          cases answer with
          | false =>
              obtain ⟨rfl, -⟩ := sound.freeFrame_false boot frees
              exact ⟨sound, regions, issued, outstanding⟩
          | true =>
              obtain ⟨sound', -, -, outstanding', regions', -, passed, -⟩ :=
                sound.freeFrame_true boot frees
              exact ⟨sound', regions'.trans regions, by rw [issued, passed],
                by rw [outstanding, outstanding']⟩

/-- By induction over the history: the ledger is kept. -/
theorem history_kept {boot : BootInfo} (disjoint : (init boot).DisjointRegions)
    (ops : List FrameOp) : (history boot ops).Kept boot := by
  have sound := init_sound disjoint
  have start : Ledger.Kept boot ⟨init boot, ∅, ∅⟩ := by
    have empty : (init boot).passed = [] := by
      have counted := sound.allocated
      obtain ⟨-, recycled, allocated, -⟩ := init_untouched boot
      rw [recycled, allocated] at counted
      exact List.length_eq_zero_iff.mp counted.symm
    refine ⟨sound, rfl, by rw [empty]; rfl, ?_⟩
    unfold FrameAllocator.outstanding
    rw [empty, List.toFinset_nil, Finset.empty_sdiff]
  unfold history
  generalize (⟨init boot, ∅, ∅⟩ : Ledger) = ledger at start
  induction ops generalizing ledger with
  | nil => exact start
  | cons op ops ih => exact ih _ (start.record op)

/-- The frames of the recorded regions that were never issued. -/
def Ledger.neverIssued (ledger : Ledger) : Finset Nat :=
  ledger.allocator.frames.toFinset \ ledger.issued

/-- What holds of every history. -/
structure Ledger.Balanced (boot : BootInfo) (ledger : Ledger) : Prop where
  exclusive : ∀ frame, (ledger.allocator.allocateFrame boot).1 = some frame →
    frame % frameSize = 0 ∧ (∃ r ∈ (init boot).regions, r.start ≤ frame ∧ frame < r.stop) ∧
      frame ∉ ledger.outstanding
  frees : ∀ frame, (ledger.allocator.freeFrame boot frame).1 = true ↔
    frame ∈ ledger.outstanding ∧ ledger.allocator.recycledFrames.length < maxRecycledFrames
  refuses : ∀ frame, (ledger.allocator.freeFrame boot frame).1 = false →
    (ledger.allocator.freeFrame boot frame).2 = ledger.allocator
  distinct : ledger.allocator.recycledFrames.Nodup
  recycled : ∀ frame ∈ ledger.allocator.recycledFrames,
    frame ∈ ledger.issued ∧ frame ∉ ledger.outstanding
  conserved : ledger.allocator.allocatedFrames + ledger.allocator.recycledFrames.length +
    ledger.neverIssued.card = ledger.allocator.allocatableFrames
  free : ledger.allocator.freeFrames =
    ledger.allocator.recycledFrames.length + ledger.neverIssued.card
  exhausted : (ledger.allocator.allocateFrame boot).1 = none ↔
    ledger.allocator.recycledFrames = [] ∧ ledger.neverIssued = ∅

/-- What was never issued is what lies behind the cursor. -/
theorem Ledger.Kept.neverIssued {boot : BootInfo} {ledger : Ledger} (kept : ledger.Kept boot) :
    ledger.neverIssued = ledger.allocator.remaining.toFinset ∧
      ledger.neverIssued.card = ledger.allocator.remaining.length := by
  have nodup := kept.sound.nodup_frames
  have same : ledger.neverIssued = ledger.allocator.remaining.toFinset := by
    unfold Ledger.neverIssued
    rw [kept.issued, frames_eq kept.sound.framed kept.sound.cursor]
    ext frame
    have apart := (List.nodup_append.mp nodup).2.2 frame
    simp only [Finset.mem_sdiff, List.mem_toFinset, List.mem_append]
    refine ⟨fun h => h.1.resolve_left h.2, fun mem => ⟨Or.inr mem, fun mem' => ?_⟩⟩
    exact apart mem' frame mem rfl
  rw [same]
  exact ⟨rfl, List.toFinset_card_of_nodup (List.nodup_append.mp nodup).2.1⟩

/-- A kept ledger is balanced. -/
theorem Ledger.Kept.balanced {boot : BootInfo} {ledger : Ledger} (kept : ledger.Kept boot) :
    ledger.Balanced boot := by
  obtain ⟨never, count⟩ := kept.neverIssued
  have sound := kept.sound
  have conserved : ledger.allocator.allocatedFrames + ledger.allocator.recycledFrames.length +
      ledger.neverIssued.card = ledger.allocator.allocatableFrames := by
    rw [count, sound.allocatable, frames_eq sound.framed sound.cursor, List.length_append,
      sound.allocated]
  constructor
  · intro frame allocates
    obtain ⟨-, mem, fresh, -⟩ := sound.allocateFrame_some boot (Prod.ext allocates rfl)
    obtain ⟨aligned, -, inside⟩ := sound.mem_region mem
    rw [kept.outstanding, ← kept.regions]
    exact ⟨aligned, inside, fresh⟩
  · intro frame
    rw [kept.outstanding]
    rcases sound.freeFrame boot frame with ⟨refused, eq⟩ | ⟨mem, space, a', eq, -⟩
    · rw [eq]
      exact iff_of_false (fun h => by cases h) refused
    · rw [eq]
      exact iff_of_true rfl ⟨mem, space⟩
  · intro frame refused
    exact (sound.freeFrame_false boot (Prod.ext refused rfl)).1
  · exact sound.nodup
  · intro frame mem
    rw [kept.issued, kept.outstanding, List.mem_toFinset]
    exact ⟨sound.issued frame mem, fun outstanding => (mem_outstanding.mp outstanding).2 mem⟩
  · exact conserved
  · unfold FrameAllocator.freeFrames
    omega
  · rw [never, List.toFinset_eq_empty_iff]
    have result := sound.allocateFrame boot
    cases allocates : ledger.allocator.allocateFrame boot with
    | mk answer allocator =>
        rw [allocates] at result
        cases result with
        | recycled was _ _ _ _ =>
            refine iff_of_false (fun h => by cases h) fun h => ?_
            rw [was] at h
            cases h.1
        | bumped _ _ _ _ remaining _ =>
            refine iff_of_false (fun h => by cases h) fun h => ?_
            rw [remaining] at h
            cases h.2
        | exhausted empty _ _ _ all _ _ => exact iff_of_true rfl ⟨empty, all⟩

/-- After every history, each frame has at most one owner and none is lost. -/
theorem frames_conserved (boot : BootInfo) (disjoint : (init boot).DisjointRegions)
    (ops : List FrameOp) : (history boot ops).Balanced boot :=
  (history_kept disjoint ops).balanced

/-- Two regions of two frames each. -/
def smallMap : BootInfo where
  kernelStart := 0x100000
  kernelEnd := 0x200000
  address := 0
  totalSize := 0
  highestModuleEnd := 0
  memory := [⟨0x200000, 0x2000, 1⟩, ⟨0x300000, 0x2000, 1⟩].foldl MemorySummary.addRegion {}

theorem smallMap_regions :
    (init smallMap).regions = [⟨0x200000, 0x202000⟩, ⟨0x300000, 0x302000⟩] := by
  decide +kernel

theorem smallMap_disjoint : (init smallMap).DisjointRegions := by
  unfold DisjointRegions
  rw [smallMap_regions]
  simp [AllocRegion.Disjoint]

/-- Three frames are taken, the second is given back and taken again. -/
def smallHistory : List FrameOp :=
  [.allocate, .allocate, .allocate, .free 0x201000, .free 0x201000, .allocate]

theorem frames_conserved_smallHistory :
    (history smallMap smallHistory).outstanding = {0x200000, 0x201000, 0x300000} ∧
    (history smallMap smallHistory).Balanced smallMap :=
  ⟨by decide +kernel, frames_conserved smallMap smallMap_disjoint smallHistory⟩

end CloudOS.PhysMem
