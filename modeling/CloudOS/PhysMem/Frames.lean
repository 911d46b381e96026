import CloudOS.PhysMem.Init

/-!
Every frame has one owner.

The cursor of the allocator splits the frames of its regions into those it has
passed and those that remain. A frame it has passed is either recycled or
outstanding, and the counters count exactly that. `Sound` says so of a state;
what `allocate_frame` and `free_frame` do to a sound state is said once, in
terms of the set of outstanding frames.
-/

namespace CloudOS.PhysMem

open Lib.Word (maxWord satAdd satAdd_of_le)

/-! ### Frames of a range -/

/-- The frames from `start` up to `stop`. -/
def framesFrom (start stop : Nat) : List Nat :=
  (List.range ((stop - start) / frameSize)).map fun k => start + k * frameSize

theorem framesFrom_self (stop : Nat) : framesFrom stop stop = [] := by
  simp [framesFrom]

/-- The first frame of a region, and the others. -/
theorem framesFrom_cons {start stop : Nat} (alignedStart : start % frameSize = 0)
    (alignedStop : stop % frameSize = 0) (nonempty : start < stop) :
    framesFrom start stop = start :: framesFrom (start + frameSize) stop := by
  have count : (stop - start) / frameSize = (stop - (start + frameSize)) / frameSize + 1 := by
    simp only [frameSize] at *
    omega
  unfold framesFrom
  rw [count, List.range_succ_eq_map, List.map_cons, List.map_map, Nat.zero_mul, Nat.add_zero]
  congr 1
  refine List.map_congr_left fun k _ => ?_
  simp only [Function.comp, frameSize]
  omega

/-- The frames of a region are the aligned addresses in it. -/
theorem mem_framesFrom {start stop frame : Nat} (alignedStart : start % frameSize = 0)
    (alignedStop : stop % frameSize = 0) :
    frame ∈ framesFrom start stop ↔ frame % frameSize = 0 ∧ start ≤ frame ∧ frame < stop := by
  simp only [framesFrom, List.mem_map, List.mem_range, frameSize] at *
  constructor
  · rintro ⟨k, inside, rfl⟩
    omega
  · rintro ⟨aligned, low, high⟩
    exact ⟨(frame - start) / 4096, by omega, by omega⟩

theorem framesFrom_nodup (start stop : Nat) : (framesFrom start stop).Nodup := by
  refine List.nodup_range.map fun j k same => ?_
  simp only [frameSize] at same
  omega

/-- A region that is cut at a frame. -/
theorem framesFrom_append {start middle stop : Nat} (alignedStart : start % frameSize = 0)
    (alignedMiddle : middle % frameSize = 0) (alignedStop : stop % frameSize = 0)
    (low : start ≤ middle) (high : middle ≤ stop) :
    framesFrom start stop = framesFrom start middle ++ framesFrom middle stop := by
  have counts : (stop - start) / frameSize =
      (middle - start) / frameSize + (stop - middle) / frameSize := by
    simp only [frameSize] at *
    omega
  unfold framesFrom
  rw [counts, List.range_add, List.map_append, List.map_map]
  congr 1
  refine List.map_congr_left fun k _ => ?_
  simp only [Function.comp, frameSize] at *
  omega

def AllocRegion.frames (region : AllocRegion) : List Nat := framesFrom region.start region.stop

theorem AllocRegion.Framed.mem_frames {bottom : Nat} {region : AllocRegion}
    (framed : region.Framed bottom) {frame : Nat} :
    frame ∈ region.frames ↔ frame % frameSize = 0 ∧ region.Contains frame :=
  mem_framesFrom framed.start framed.stop

/-! ### The cursor -/

/-- The frames from position `next` of the first region on. -/
def remainingIn (next : Nat) : List AllocRegion → List Nat
  | [] => []
  | region :: rest => framesFrom next region.stop ++ rest.flatMap AllocRegion.frames

/-- The frames of the first region before position `next`. -/
def passedIn (next : Nat) : List AllocRegion → List Nat
  | [] => []
  | region :: _ => framesFrom region.start next

/-- A position inside the first region, or at its end. -/
def CursorIn (next : Nat) : List AllocRegion → Prop
  | [] => True
  | region :: _ => region.start ≤ next ∧ next ≤ region.stop ∧ next % frameSize = 0

namespace FrameAllocator

variable {bottom : Nat}

/-- The loop of `allocate_frame` takes the first remaining frame. -/
theorem bump_spec {regions : List AllocRegion} (framed : ∀ r ∈ regions, r.Framed bottom)
    (current : Nat) {next : Nat} (cursor : CursorIn next regions) :
    (remainingIn next regions = [] ∧
      ∃ stopped, bump regions current next = (none, current + regions.length, stopped)) ∨
    (∃ frame k next', bump regions current next = (some frame, current + k, next') ∧
      k < regions.length ∧ CursorIn next' (regions.drop k) ∧
      remainingIn next regions = frame :: remainingIn next' (regions.drop k)) := by
  induction regions generalizing current next with
  | nil => exact Or.inl ⟨rfl, next, rfl⟩
  | cons region rest ih =>
      obtain ⟨low, high, aligned⟩ := cursor
      have inBounds := framed region List.mem_cons_self
      have stopAligned := inBounds.stop
      unfold bump
      rw [if_neg (Nat.not_lt.mpr low)]
      by_cases inside : next < region.stop
      · dsimp only
        rw [if_pos inside]
        have word : next + frameSize ≤ region.stop := by
          simp only [frameSize] at *
          omega
        refine Or.inr ⟨next, 0, next + frameSize, ?_, Nat.zero_lt_succ _, ⟨by omega, word, ?_⟩, ?_⟩
        · rw [satAdd_of_le (word.trans inBounds.word), Nat.add_zero]
        · simp only [frameSize] at *
          omega
        · rw [List.drop_zero, remainingIn, remainingIn, framesFrom_cons aligned stopAligned inside,
            List.cons_append]
      · dsimp only
        rw [if_neg inside]
        have atEnd : next = region.stop := by omega
        cases rest with
        | nil =>
            refine Or.inl ⟨?_, next, rfl⟩
            rw [remainingIn, atEnd, framesFrom_self]
            rfl
        | cons following rest =>
            have start := framed following (List.mem_cons_of_mem _ List.mem_cons_self)
            have skip : remainingIn next (region :: following :: rest) =
                remainingIn following.start (following :: rest) := by
              rw [remainingIn, atEnd, framesFrom_self]
              rfl
            rw [skip]
            dsimp only
            have atStart : CursorIn following.start (following :: rest) :=
              ⟨le_rfl, start.nonempty.le, start.start⟩
            rcases ih (fun r mem => framed r (List.mem_cons_of_mem _ mem)) (current + 1) atStart with
              ⟨none, stopped, eq⟩ | ⟨frame, k, next', eq, inRange, cursor', remaining⟩
            · refine Or.inl ⟨none, stopped, ?_⟩
              rw [eq, List.length_cons (a := region)]
              congr 2
              omega
            · refine Or.inr ⟨frame, k + 1, next', ?_, Nat.succ_lt_succ inRange, cursor', remaining⟩
              rw [eq]
              congr 2
              omega

/-- All frames of the recorded regions. -/
def frames (a : FrameAllocator) : List Nat := a.regions.flatMap AllocRegion.frames

/-- The frames that were never issued. -/
def remaining (a : FrameAllocator) : List Nat :=
  remainingIn a.nextFrame (a.regions.drop a.currentRegion)

/-- The frames the cursor has passed. -/
def passed (a : FrameAllocator) : List Nat :=
  (a.regions.take a.currentRegion).flatMap AllocRegion.frames ++
    passedIn a.nextFrame (a.regions.drop a.currentRegion)

/-- The frames that were issued and are not recycled. -/
def outstanding (a : FrameAllocator) : Finset Nat :=
  a.passed.toFinset \ a.recycledFrames.toFinset

/-- The invariant of the allocator. -/
structure Sound (a : FrameAllocator) : Prop where
  initialized : a.initialized = true
  framed : ∀ r ∈ a.regions, r.Framed a.protectedUntil
  disjoint : a.DisjointRegions
  cursor : CursorIn a.nextFrame (a.regions.drop a.currentRegion)
  nodup : a.recycledFrames.Nodup
  issued : ∀ frame ∈ a.recycledFrames, frame ∈ a.passed
  bounded : a.recycledFrames.length ≤ maxRecycledFrames
  allocatable : a.allocatableFrames = a.frames.length
  allocated : a.allocatedFrames + a.recycledFrames.length = a.passed.length

/-- Disjoint regions have no frame twice. -/
theorem frames_nodup {a : FrameAllocator} (framed : ∀ r ∈ a.regions, r.Framed bottom)
    (disjoint : a.DisjointRegions) : a.frames.Nodup := by
  refine List.nodup_flatMap.mpr ⟨fun r _ => framesFrom_nodup _ _, ?_⟩
  refine disjoint.imp_of_mem fun {r r'} mem mem' apart => ?_
  intro frame inside inside'
  obtain ⟨-, contains⟩ := (framed r mem).mem_frames.mp inside
  obtain ⟨-, contains'⟩ := (framed r' mem').mem_frames.mp inside'
  exact (AllocRegion.disjoint_iff (framed r mem) (framed r' mem')).mp apart frame contains contains'

/-- The cursor splits the frames of the regions. -/
theorem frames_eq {a : FrameAllocator} (framed : ∀ r ∈ a.regions, r.Framed bottom)
    (cursor : CursorIn a.nextFrame (a.regions.drop a.currentRegion)) :
    a.frames = a.passed ++ a.remaining := by
  unfold frames passed remaining
  conv_lhs => rw [← List.take_append_drop a.currentRegion a.regions]
  rw [List.flatMap_append, List.append_assoc]
  congr 1
  have within : ∀ r ∈ a.regions.drop a.currentRegion, r.Framed bottom :=
    fun r mem => framed r (List.mem_of_mem_drop mem)
  cases left : a.regions.drop a.currentRegion with
  | nil => rfl
  | cons region rest =>
      rw [left] at cursor within
      have inBounds := within region List.mem_cons_self
      rw [List.flatMap_cons, passedIn, remainingIn, ← List.append_assoc]
      congr 1
      exact framesFrom_append inBounds.start cursor.2.2 inBounds.stop cursor.1 cursor.2.1

/-- The loop of `is_issued_frame` finds the frames before the cursor. -/
theorem issuedIn_iff (current next frame : Nat) (regions : List AllocRegion) (index : Nat) :
    issuedIn current next frame regions index = true ↔
      (∃ r ∈ regions.take (current - index), r.Contains frame) ∨
      (index ≤ current ∧ ∃ r ∈ (regions.drop (current - index)).head?, r.Contains frame ∧
        frame < next) := by
  induction regions generalizing index with
  | nil => simp [issuedIn]
  | cons region rest ih =>
      unfold issuedIn
      rcases Nat.lt_trichotomy index current with before | here | after
      · obtain ⟨n, eq⟩ : ∃ n, current - index = n + 1 := ⟨current - index - 1, by omega⟩
        have step : current - (index + 1) = n := by omega
        rw [eq, List.take_succ_cons, List.drop_succ_cons, if_pos before]
        split
        · rename_i inside
          exact iff_of_true rfl (Or.inl ⟨region, List.mem_cons_self, inside⟩)
        · rename_i outside
          rw [ih, step]
          simp only [List.mem_cons, exists_eq_or_imp]
          constructor
          · rintro (inside | ⟨-, inside⟩)
            · exact Or.inl (Or.inr inside)
            · exact Or.inr ⟨by omega, inside⟩
          · rintro ((inside | inside) | ⟨-, inside⟩)
            · exact absurd inside outside
            · exact Or.inl inside
            · exact Or.inr ⟨by omega, inside⟩
      · subst here
        rw [Nat.sub_self, if_neg (Nat.lt_irrefl _), if_pos rfl]
        split
        · rename_i inside
          simpa [AllocRegion.Contains] using fun _ => inside
        · rename_i outside
          rw [ih]
          have none : index - (index + 1) = 0 := by omega
          simp [none, AllocRegion.Contains]
          omega
      · have none : current - index = 0 := by omega
        have none' : current - (index + 1) = 0 := by omega
        have notBefore : ¬ index < current := by omega
        have notHere : ¬ index = current := by omega
        rw [none, if_neg notBefore, if_neg notHere]
        split
        · simp
          omega
        · rw [ih, none']
          simp
          omega

/-- The frames before the cursor are those that count as issued. -/
theorem mem_passed {a : FrameAllocator} (framed : ∀ r ∈ a.regions, r.Framed bottom)
    (cursor : CursorIn a.nextFrame (a.regions.drop a.currentRegion)) {frame : Nat} :
    frame ∈ a.passed ↔ frame % frameSize = 0 ∧ a.isIssuedFrame frame = true := by
  unfold isIssuedFrame passed
  rw [issuedIn_iff, Nat.sub_zero, List.mem_append, List.mem_flatMap]
  have earlier : (∃ r ∈ a.regions.take a.currentRegion, frame ∈ r.frames) ↔
      frame % frameSize = 0 ∧ ∃ r ∈ a.regions.take a.currentRegion, r.Contains frame := by
    constructor
    · rintro ⟨r, mem, inside⟩
      obtain ⟨aligned, contains⟩ := (framed r (List.mem_of_mem_take mem)).mem_frames.mp inside
      exact ⟨aligned, r, mem, contains⟩
    · rintro ⟨aligned, r, mem, contains⟩
      exact ⟨r, mem, (framed r (List.mem_of_mem_take mem)).mem_frames.mpr ⟨aligned, contains⟩⟩
  have current : frame ∈ passedIn a.nextFrame (a.regions.drop a.currentRegion) ↔
      frame % frameSize = 0 ∧ ∃ r ∈ (a.regions.drop a.currentRegion).head?, r.Contains frame ∧
        frame < a.nextFrame := by
    have within : ∀ r ∈ a.regions.drop a.currentRegion, r.Framed bottom :=
      fun r mem => framed r (List.mem_of_mem_drop mem)
    cases left : a.regions.drop a.currentRegion with
    | nil => simp [passedIn]
    | cons region rest =>
        rw [left] at cursor within
        rw [passedIn, mem_framesFrom (within region List.mem_cons_self).start cursor.2.2]
        simp only [List.head?_cons, Option.mem_def, Option.some.injEq, exists_eq_left',
          AllocRegion.Contains]
        have high := cursor.2.1
        refine and_congr_right fun _ => ⟨fun inside => ⟨⟨inside.1, by omega⟩, inside.2⟩,
          fun inside => ⟨inside.1.1, inside.2⟩⟩
  rw [earlier, current]
  simp only [Nat.zero_le, true_and]
  exact and_or_left.symm

/-! ### The operations on a sound state -/

theorem ready_of_initialized (boot : BootInfo) {a : FrameAllocator}
    (initialized : a.initialized = true) : a.ready boot = a := if_pos initialized

theorem mem_outstanding {a : FrameAllocator} {frame : Nat} :
    frame ∈ a.outstanding ↔ frame ∈ a.passed ∧ frame ∉ a.recycledFrames := by
  simp [outstanding]

namespace Sound

variable {a : FrameAllocator} (sound : a.Sound)

include sound

theorem nodup_frames : (a.passed ++ a.remaining).Nodup := by
  rw [← frames_eq sound.framed sound.cursor]
  exact frames_nodup sound.framed sound.disjoint

/-- The counter of allocated frames counts the outstanding ones. -/
theorem card_outstanding : a.outstanding.card = a.allocatedFrames := by
  have within : a.recycledFrames.toFinset ⊆ a.passed.toFinset := by
    intro frame mem
    rw [List.mem_toFinset] at mem ⊢
    exact sound.issued frame mem
  have passed : a.passed.Nodup := (List.nodup_append.mp sound.nodup_frames).1
  rw [outstanding, Finset.card_sdiff_of_subset within, List.toFinset_card_of_nodup passed,
    List.toFinset_card_of_nodup sound.nodup]
  have := sound.allocated
  omega

/-- An issued frame lies in a region above the protected memory. -/
theorem mem_region {frame : Nat} (mem : frame ∈ a.frames) :
    frame % frameSize = 0 ∧ a.protectedUntil ≤ frame ∧ ∃ r ∈ a.regions, r.Contains frame := by
  obtain ⟨r, inRegions, inside⟩ := List.mem_flatMap.mp mem
  have framed := sound.framed r inRegions
  obtain ⟨aligned, contains⟩ := framed.mem_frames.mp inside
  exact ⟨aligned, framed.above.trans contains.1, r, inRegions, contains⟩

theorem passed_subset {frame : Nat} (mem : frame ∈ a.passed) : frame ∈ a.frames := by
  rw [frames_eq sound.framed sound.cursor]
  exact List.mem_append_left _ mem

end Sound

/-- What `allocate_frame` does to a sound state. -/
inductive Allocation (a : FrameAllocator) : Option Nat → FrameAllocator → Prop
  | recycled {frame : Nat} {a' : FrameAllocator} (was : a.recycledFrames = frame :: a'.recycledFrames)
      (regions : a'.regions = a.regions) (passed : a'.passed = a.passed)
      (remaining : a'.remaining = a.remaining) (sound : a'.Sound) : Allocation a (some frame) a'
  | bumped {frame : Nat} {a' : FrameAllocator} (empty : a.recycledFrames = [])
      (empty' : a'.recycledFrames = []) (regions : a'.regions = a.regions)
      (passed : a'.passed = a.passed ++ [frame]) (remaining : a.remaining = frame :: a'.remaining)
      (sound : a'.Sound) : Allocation a (some frame) a'
  | exhausted {a' : FrameAllocator} (empty : a.recycledFrames = []) (empty' : a'.recycledFrames = [])
      (regions : a'.regions = a.regions) (passed : a'.passed = a.passed)
      (all : a.remaining = []) (all' : a'.remaining = []) (sound : a'.Sound) :
      Allocation a none a'

/-- A cursor that moves on leaves behind what no longer remains. -/
theorem passed_of_remaining {a a' : FrameAllocator} (framed : ∀ r ∈ a.regions, r.Framed bottom)
    (regions : a'.regions = a.regions)
    (cursor : CursorIn a.nextFrame (a.regions.drop a.currentRegion))
    (cursor' : CursorIn a'.nextFrame (a'.regions.drop a'.currentRegion)) {taken : List Nat}
    (remaining : a.remaining = taken ++ a'.remaining) : a'.passed = a.passed ++ taken := by
  have split := frames_eq framed cursor
  have split' := frames_eq (a := a') (by rwa [regions]) cursor'
  have same : a'.frames = a.frames := by
    unfold frames
    rw [regions]
  rw [same, split, remaining, ← List.append_assoc] at split'
  exact (List.append_cancel_right split').symm

/-- The state after the cursor has moved past `taken`, with nothing recycled. -/
theorem Sound.moved {a : FrameAllocator} (sound : a.Sound) (a' : FrameAllocator)
    (taken : List Nat) (initialized : a'.initialized = a.initialized)
    (regions : a'.regions = a.regions)
    (protectedUntil : a'.protectedUntil = a.protectedUntil)
    (allocatable : a'.allocatableFrames = a.allocatableFrames)
    (empty : a.recycledFrames = []) (empty' : a'.recycledFrames = [])
    (cursor : CursorIn a'.nextFrame (a'.regions.drop a'.currentRegion))
    (remaining : a.remaining = taken ++ a'.remaining)
    (allocated : a'.allocatedFrames = a.allocatedFrames + taken.length) :
    a'.passed = a.passed ++ taken ∧ a'.Sound := by
  have passed := passed_of_remaining sound.framed regions sound.cursor cursor remaining
  refine ⟨passed, ?_⟩
  have before := sound.allocated
  rw [empty, List.length_nil] at before
  constructor
  · rw [initialized]
    exact sound.initialized
  · rw [regions, protectedUntil]
    exact sound.framed
  · unfold DisjointRegions
    rw [regions]
    exact sound.disjoint
  · exact cursor
  · rw [empty']
    exact List.nodup_nil
  · rw [empty']
    exact fun _ mem => absurd mem List.not_mem_nil
  · rw [empty']
    exact Nat.zero_le _
  · rw [allocatable, sound.allocatable]
    unfold frames
    rw [regions]
  · rw [empty', passed, List.length_append, List.length_nil]
    omega

/-- An allocation takes a freed frame first, then one behind the cursor. -/
theorem Sound.allocateFrame (boot : BootInfo) {a : FrameAllocator} (sound : a.Sound) :
    Allocation a (a.allocateFrame boot).1 (a.allocateFrame boot).2 := by
  unfold FrameAllocator.allocateFrame
  rw [ready_of_initialized boot sound.initialized]
  dsimp only
  cases recycled : a.recycledFrames with
  | cons frame rest =>
      have nodup := sound.nodup
      have bounded := sound.bounded
      have issued := sound.issued
      have allocated := sound.allocated
      rw [recycled] at nodup bounded issued allocated
      refine .recycled recycled rfl rfl rfl { sound with
        nodup := (List.nodup_cons.mp nodup).2
        issued := fun frame mem => issued frame (List.mem_cons_of_mem _ mem)
        bounded := (Nat.le_succ _).trans bounded
        allocated := ?_ }
      rw [List.length_cons] at allocated
      change a.allocatedFrames + 1 + rest.length = a.passed.length
      omega
  | nil =>
      have within : ∀ r ∈ a.regions.drop a.currentRegion, r.Framed a.protectedUntil :=
        fun r mem => sound.framed r (List.mem_of_mem_drop mem)
      rcases bump_spec within a.currentRegion sound.cursor with
        ⟨done, stopped, eq⟩ | ⟨frame, k, next, eq, -, cursor, remaining⟩
      · rw [eq]
        dsimp only
        have atEnd : a.regions.drop (a.currentRegion +
            (a.regions.drop a.currentRegion).length) = [] := by
          rw [List.length_drop]
          exact List.drop_eq_nil_of_le (by omega)
        have all' : remainingIn stopped (a.regions.drop (a.currentRegion +
            (a.regions.drop a.currentRegion).length)) = [] := by rw [atEnd, remainingIn]
        obtain ⟨passed, sound'⟩ := sound.moved { a with
          currentRegion := a.currentRegion + (a.regions.drop a.currentRegion).length
          nextFrame := stopped
          recycledFrames := []
          exhausted := true } [] rfl rfl rfl rfl recycled rfl (by rw [atEnd]; exact trivial)
          (done.trans all'.symm) rfl
        rw [List.append_nil] at passed
        exact .exhausted recycled rfl rfl passed done all' sound'
      · rw [eq]
        dsimp only
        rw [List.drop_drop] at cursor remaining
        obtain ⟨passed, sound'⟩ := sound.moved { a with
          currentRegion := a.currentRegion + k
          nextFrame := next
          recycledFrames := []
          allocatedFrames := a.allocatedFrames + 1
          lastAllocatedFrame := frame } [frame] rfl rfl rfl rfl recycled rfl cursor remaining rfl
        exact .bumped recycled rfl rfl passed remaining sound'

/-- `free_frame` takes an outstanding frame back while the stack has room, and
otherwise does nothing. -/
theorem Sound.freeFrame (boot : BootInfo) {a : FrameAllocator} (sound : a.Sound) (frame : Nat) :
    (¬ (frame ∈ a.outstanding ∧ a.recycledFrames.length < maxRecycledFrames) ∧
      a.freeFrame boot frame = (false, a)) ∨
    (frame ∈ a.outstanding ∧ a.recycledFrames.length < maxRecycledFrames ∧
      ∃ a', a.freeFrame boot frame = (true, a') ∧ a'.recycledFrames = frame :: a.recycledFrames ∧
        a'.regions = a.regions ∧ a'.passed = a.passed ∧ a'.remaining = a.remaining ∧ a'.Sound) := by
  unfold FrameAllocator.freeFrame
  rw [ready_of_initialized boot sound.initialized]
  dsimp only
  have issued : (!isFrameAligned frame || decide (frame < a.protectedUntil) ||
      !a.isIssuedFrame frame) = false ↔ frame ∈ a.passed := by
    rw [mem_passed sound.framed sound.cursor, ← isFrameAligned_iff]
    simp only [Bool.or_eq_false_iff, Bool.not_eq_false', decide_eq_false_iff_not, not_lt]
    refine ⟨fun h => ⟨h.1.1, h.2⟩, fun h => ⟨⟨h.1, ?_⟩, h.2⟩⟩
    have mem := (mem_passed sound.framed sound.cursor).mpr ⟨isFrameAligned_iff.mp h.1, h.2⟩
    exact (sound.mem_region (sound.passed_subset mem)).2.1
  split
  · rename_i refused
    refine Or.inl ⟨fun able => ?_, rfl⟩
    have := issued.mpr (mem_outstanding.mp able.1).1
    rw [refused] at this
    cases this
  rename_i passes
  have passed := issued.mp (Bool.eq_false_iff.mpr passes)
  split
  · rename_i full
    exact Or.inl ⟨fun able => Nat.not_lt.mpr full able.2, rfl⟩
  rename_i space
  split
  · rename_i twice
    refine Or.inl ⟨fun able => ?_, rfl⟩
    exact (mem_outstanding.mp able.1).2 (List.contains_iff_mem.mp twice)
  · rename_i once
    have absent : frame ∉ a.recycledFrames := fun mem => once (List.contains_iff_mem.mpr mem)
    have mem : frame ∈ a.outstanding := mem_outstanding.mpr ⟨passed, absent⟩
    have positive : 0 < a.allocatedFrames := by
      rw [← sound.card_outstanding]
      exact Finset.card_pos.mpr ⟨frame, mem⟩
    refine Or.inr ⟨mem, Nat.not_le.mp space, _, rfl, rfl, rfl, rfl, rfl, { sound with
      nodup := List.nodup_cons.mpr ⟨absent, sound.nodup⟩
      issued := ?_
      bounded := Nat.not_le.mp space
      allocated := ?_ }⟩
    · intro other mem
      rcases List.mem_cons.mp mem with rfl | mem
      · exact passed
      · exact sound.issued other mem
    · have allocated := sound.allocated
      change a.allocatedFrames - 1 + (frame :: a.recycledFrames).length = a.passed.length
      rw [List.length_cons]
      omega

/-! ### The set of outstanding frames -/

/-- The frame that is handed out was not outstanding, and is now. -/
theorem Sound.allocateFrame_some (boot : BootInfo) {a a' : FrameAllocator} (sound : a.Sound)
    {frame : Nat} (allocates : a.allocateFrame boot = (some frame, a')) :
    a'.Sound ∧ frame ∈ a.frames ∧ frame ∉ a.outstanding ∧
      a'.outstanding = insert frame a.outstanding ∧ a'.regions = a.regions := by
  have result := sound.allocateFrame boot
  rw [allocates] at result
  dsimp only at result
  cases result with
  | recycled was regions passed remaining sound' =>
      have mem : frame ∈ a.recycledFrames := by
        rw [was]
        exact List.mem_cons_self
      have nodup := sound.nodup
      rw [was, List.nodup_cons] at nodup
      refine ⟨sound', sound.passed_subset (sound.issued frame mem),
        fun outstanding => (mem_outstanding.mp outstanding).2 mem, ?_, regions⟩
      ext other
      rw [Finset.mem_insert, mem_outstanding, mem_outstanding, passed, was, List.mem_cons]
      by_cases same : other = frame
      · subst same
        exact iff_of_true ⟨sound.issued other mem, nodup.1⟩ (Or.inl rfl)
      · simp [same]
  | bumped empty empty' regions passed remaining sound' =>
      have fresh := sound.nodup_frames
      rw [remaining] at fresh
      have apart : frame ∉ a.passed := fun mem =>
        (List.nodup_append.mp fresh).2.2 frame mem frame List.mem_cons_self rfl
      refine ⟨sound', ?_, fun outstanding => apart (mem_outstanding.mp outstanding).1, ?_, regions⟩
      · rw [frames_eq sound.framed sound.cursor, remaining]
        exact List.mem_append_right _ List.mem_cons_self
      · ext other
        rw [Finset.mem_insert, mem_outstanding, mem_outstanding, passed, empty, empty',
          List.mem_append, List.mem_singleton]
        simp [or_comm]

/-- Only when nothing is left is nothing handed out. -/
theorem Sound.allocateFrame_none (boot : BootInfo) {a a' : FrameAllocator} (sound : a.Sound)
    (allocates : a.allocateFrame boot = (none, a')) :
    a'.Sound ∧ a.recycledFrames = [] ∧ a.remaining = [] ∧ a'.outstanding = a.outstanding ∧
      a'.regions = a.regions := by
  have result := sound.allocateFrame boot
  rw [allocates] at result
  dsimp only at result
  cases result with
  | exhausted empty empty' regions passed all all' sound' =>
      refine ⟨sound', empty, all, ?_, regions⟩
      unfold outstanding
      rw [passed, empty, empty']

/-- An outstanding frame is taken back while there is room. -/
theorem Sound.freeFrame_true (boot : BootInfo) {a a' : FrameAllocator} (sound : a.Sound)
    {frame : Nat} (frees : a.freeFrame boot frame = (true, a')) :
    a'.Sound ∧ frame ∈ a.outstanding ∧ a.recycledFrames.length < maxRecycledFrames ∧
      a'.outstanding = a.outstanding.erase frame ∧ a'.regions = a.regions ∧
      a'.recycledFrames = frame :: a.recycledFrames ∧ a'.passed = a.passed ∧
      a'.remaining = a.remaining := by
  rcases sound.freeFrame boot frame with
    ⟨-, eq⟩ | ⟨mem, space, a₁, eq, recycled, regions, passed, remaining, sound'⟩
  · rw [frees] at eq
    cases eq
  · rw [frees] at eq
    cases eq
    refine ⟨sound', mem, space, ?_, regions, recycled, passed, remaining⟩
    ext other
    rw [Finset.mem_erase, mem_outstanding, mem_outstanding, passed, recycled, List.mem_cons, not_or]
    tauto

/-- Everything else is refused and changes nothing. -/
theorem Sound.freeFrame_false (boot : BootInfo) {a a' : FrameAllocator} (sound : a.Sound)
    {frame : Nat} (frees : a.freeFrame boot frame = (false, a')) :
    a' = a ∧ ¬ (frame ∈ a.outstanding ∧ a.recycledFrames.length < maxRecycledFrames) := by
  rcases sound.freeFrame boot frame with ⟨refused, eq⟩ | ⟨-, -, a₁, eq, -⟩
  · rw [frees] at eq
    cases eq
    exact ⟨rfl, refused⟩
  · rw [frees] at eq
    cases eq

end FrameAllocator

end CloudOS.PhysMem
