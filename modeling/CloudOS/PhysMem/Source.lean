import CloudOS.PhysMem.Ledger

/-!
The frame allocator as the rest of the kernel sees it: a source of frames that
never hands out a frame somebody still has.
-/

namespace CloudOS.PhysMem

open FrameAllocator

/-- The two calls of an allocator of frames, whatever it hands out. -/
structure FrameCalls where
  State : Type
  allocateFrame : State → Option Nat × State
  freeFrame : State → Nat → Bool × State

/-- A source of frames. `Outstanding` frames are issued and not freed since;
`Usable` ones are those it may issue at all. At most `maxRecycledFrames` freed
frames wait to be issued again. -/
structure FrameSource extends FrameCalls where
  Usable : Nat → Prop
  Outstanding : State → Nat → Prop
  recycled : State → Nat
  positive : ∀ {frame : Nat}, Usable frame → 0 < frame
  bounded : ∀ s, recycled s ≤ maxRecycledFrames
  draws : ∀ {s s' : State} {answer : Option Nat}, allocateFrame s = (answer, s') →
    recycled s' = recycled s - 1
  accepts : ∀ {s s' : State} {frame : Nat} {freed : Bool}, freeFrame s frame = (freed, s') →
    (freed = true ↔ Outstanding s frame ∧ recycled s < maxRecycledFrames) ∧
      recycled s' = if freed then recycled s + 1 else recycled s
  issues : ∀ {s s' : State} {frame : Nat}, allocateFrame s = (some frame, s') →
    Usable frame ∧ frame % frameSize = 0 ∧ ¬ Outstanding s frame ∧
      ∀ x, Outstanding s' x ↔ x = frame ∨ Outstanding s x
  exhausts : ∀ {s s' : State}, allocateFrame s = (none, s') →
    ∀ x, Outstanding s' x ↔ Outstanding s x
  frees : ∀ {s s' : State} {frame : Nat}, freeFrame s frame = (true, s') →
    ∀ x, Outstanding s' x ↔ x ≠ frame ∧ Outstanding s x
  refuses : ∀ {s s' : State} {frame : Nat}, freeFrame s frame = (false, s') →
    ∀ x, Outstanding s' x ↔ Outstanding s x

instance : Coe FrameSource FrameCalls := ⟨FrameSource.toFrameCalls⟩

/-! ### Drawing frames -/

namespace FrameSource

variable {source : FrameSource} {s s' s'' : source.State} {taken rest : List Nat} {frame : Nat}

/-- Frames are taken one after the other; in between the source may have none, or
one that is given back at once. -/
inductive Draws (source : FrameSource) : source.State → List Nat → source.State → Prop where
  | done (s : source.State) : Draws source s [] s
  | take {s s' s'' : source.State} {frame : Nat} {rest : List Nat}
      (allocates : source.allocateFrame s = (some frame, s')) (more : Draws source s' rest s'') :
      Draws source s (frame :: rest) s''
  | miss {s s' s'' : source.State} {rest : List Nat}
      (exhausted : source.allocateFrame s = (none, s')) (more : Draws source s' rest s'') :
      Draws source s rest s''
  | reject {s s' s'' : source.State} {frame : Nat} {rest : List Nat}
      (allocates : source.allocateFrame s = (some frame, s'))
      (more : Draws source (source.freeFrame s' frame).2 rest s'') : Draws source s rest s''

namespace Draws

/-- Frames drawn one after the other. -/
theorem trans {later : List Nat} (draws : Draws source s taken s')
    (draws' : Draws source s' later s'') : Draws source s (taken ++ later) s'' := by
  induction draws with
  | done s => exact draws'
  | take allocates _ ih => exact .take allocates (ih draws')
  | miss exhausted _ ih => exact .miss exhausted (ih draws')
  | reject allocates _ ih => exact .reject allocates (ih draws')

/-- A frame that was just taken is accepted back, and leaves no trace but itself. -/
theorem rejected (allocates : source.allocateFrame s = (some frame, s')) :
    (∀ x, source.Outstanding (source.freeFrame s' frame).2 x ↔ source.Outstanding s x) ∧
      source.recycled (source.freeFrame s' frame).2 = max (source.recycled s) 1 := by
  obtain ⟨-, -, fresh, outstanding⟩ := source.issues allocates
  have bounded := source.bounded s
  have draws := source.draws allocates
  obtain ⟨accepted, recycled⟩ :=
    source.accepts (Prod.mk.eta (p := source.freeFrame s' frame)).symm
  have freed : (source.freeFrame s' frame).1 = true := by
    refine accepted.mpr ⟨(outstanding frame).mpr (.inl rfl), ?_⟩
    simp only [maxRecycledFrames] at *
    omega
  refine ⟨fun x => ?_, ?_⟩
  · rw [source.frees (Prod.ext freed rfl), outstanding]
    constructor
    · rintro ⟨other, same | old⟩
      · exact absurd same other
      · exact old
    · intro old
      exact ⟨fun same => fresh (same ▸ old), .inr old⟩
  · rw [recycled, freed, if_pos rfl]
    omega

/-- What is drawn is outstanding, and nothing else has changed. -/
theorem outstanding (draws : Draws source s taken s') (x : Nat) :
    source.Outstanding s' x ↔ source.Outstanding s x ∨ x ∈ taken := by
  induction draws with
  | done s => simp
  | take allocates _ ih =>
      rw [ih, (source.issues allocates).2.2.2, List.mem_cons]
      rw [or_comm (a := x = _), or_assoc]
  | miss exhausted _ ih => rw [ih, source.exhausts exhausted]
  | reject allocates _ ih => rw [ih, (rejected allocates).1]

/-- Nobody had the frames, and none was taken twice. -/
theorem fresh (draws : Draws source s taken s') :
    taken.Nodup ∧ ∀ x ∈ taken, ¬ source.Outstanding s x := by
  induction draws with
  | done s => exact ⟨List.nodup_nil, fun _ mem => absurd mem List.not_mem_nil⟩
  | take allocates _ ih =>
      obtain ⟨-, -, isFresh, outstanding⟩ := source.issues allocates
      refine ⟨List.nodup_cons.mpr ⟨fun mem => ih.2 _ mem ((outstanding _).mpr (.inl rfl)), ih.1⟩,
        fun x mem => ?_⟩
      rcases List.mem_cons.mp mem with rfl | mem
      · exact isFresh
      · exact fun old => ih.2 x mem ((outstanding x).mpr (.inr old))
  | miss exhausted _ ih =>
      exact ⟨ih.1, fun x mem old => ih.2 x mem ((source.exhausts exhausted x).mpr old)⟩
  | reject allocates _ ih =>
      exact ⟨ih.1, fun x mem old => ih.2 x mem (((rejected allocates).1 x).mpr old)⟩

/-- Room for the taken frames is left among the recycled ones. -/
theorem recycled (draws : Draws source s taken s') :
    source.recycled s' + taken.length ≤ max (source.recycled s) (taken.length + 1) := by
  induction draws with
  | done s => simp
  | take allocates _ ih =>
      have drawn := source.draws allocates
      rw [List.length_cons]
      omega
  | miss exhausted _ ih =>
      have drawn := source.draws exhausted
      omega
  | reject allocates _ ih =>
      rw [(rejected allocates).2] at ih
      omega

end Draws

end FrameSource

/-- A sound allocator over the regions of a boot. -/
abbrev SoundAllocator (boot : BootInfo) : Type :=
  { a : FrameAllocator // a.Sound ∧ a.regions = (init boot).regions ∧
    a.protectedUntil = (init boot).protectedUntil }

theorem allocateFrame_protectedUntil (boot : BootInfo) {a : FrameAllocator}
    (initialized : a.initialized = true) :
    (a.allocateFrame boot).2.protectedUntil = a.protectedUntil := by
  unfold FrameAllocator.allocateFrame
  rw [ready_of_initialized boot initialized]
  dsimp only
  split
  · rfl
  · split
    · rfl
    · rfl

theorem freeFrame_protectedUntil (boot : BootInfo) {a : FrameAllocator}
    (initialized : a.initialized = true) (frame : Nat) :
    (a.freeFrame boot frame).2.protectedUntil = a.protectedUntil := by
  unfold FrameAllocator.freeFrame
  rw [ready_of_initialized boot initialized]
  dsimp only
  split_ifs
  all_goals rfl

namespace SoundAllocator

variable {boot : BootInfo}

/-- An allocation stays within the invariant that makes the allocator a source. -/
theorem allocated (a : SoundAllocator boot) : (a.1.allocateFrame boot).2.Sound ∧
    (a.1.allocateFrame boot).2.regions = (init boot).regions ∧
    (a.1.allocateFrame boot).2.protectedUntil = (init boot).protectedUntil := by
  obtain ⟨a, sound, regions, above⟩ := a
  have same := (allocateFrame_protectedUntil boot sound.initialized).trans above
  have result := sound.allocateFrame boot
  generalize FrameAllocator.allocateFrame boot a = outcome at same result
  obtain ⟨answer, a'⟩ := outcome
  cases result with
  | recycled _ regions' _ _ sound' => exact ⟨sound', regions'.trans regions, same⟩
  | bumped _ _ regions' _ _ sound' => exact ⟨sound', regions'.trans regions, same⟩
  | exhausted _ _ regions' _ _ _ sound' => exact ⟨sound', regions'.trans regions, same⟩

/-- A free stays within it as well. -/
theorem freed (a : SoundAllocator boot) (frame : Nat) : (a.1.freeFrame boot frame).2.Sound ∧
    (a.1.freeFrame boot frame).2.regions = (init boot).regions ∧
    (a.1.freeFrame boot frame).2.protectedUntil = (init boot).protectedUntil := by
  obtain ⟨a, sound, regions, above⟩ := a
  have same := (freeFrame_protectedUntil boot sound.initialized frame).trans above
  rcases sound.freeFrame boot frame with ⟨-, eq⟩ | ⟨-, -, a', eq, -, regions', -, -, sound'⟩
  · rw [eq] at same ⊢
    exact ⟨sound, regions, same⟩
  · rw [eq] at same ⊢
    exact ⟨sound', regions'.trans regions, same⟩

def allocateFrame (a : SoundAllocator boot) : Option Nat × SoundAllocator boot :=
  ((a.1.allocateFrame boot).1, ⟨(a.1.allocateFrame boot).2, a.allocated⟩)

def freeFrame (a : SoundAllocator boot) (frame : Nat) : Bool × SoundAllocator boot :=
  ((a.1.freeFrame boot frame).1, ⟨(a.1.freeFrame boot frame).2, a.freed frame⟩)

theorem allocateFrame_val {a a' : SoundAllocator boot} {answer : Option Nat}
    (allocates : a.allocateFrame = (answer, a')) : a.1.allocateFrame boot = (answer, a'.1) := by
  obtain ⟨rfl, rfl⟩ := Prod.mk.inj allocates
  rfl

theorem freeFrame_val {a a' : SoundAllocator boot} {frame : Nat} {answer : Bool}
    (frees : a.freeFrame frame = (answer, a')) : a.1.freeFrame boot frame = (answer, a'.1) := by
  obtain ⟨rfl, rfl⟩ := Prod.mk.inj frees
  rfl

/-- The allocator of `physmem.rs` is a source of frames. -/
def source (boot : BootInfo) : FrameSource where
  State := SoundAllocator boot
  allocateFrame := allocateFrame
  freeFrame := freeFrame
  Usable := fun frame => ∃ r ∈ (init boot).regions, r.Contains frame
  Outstanding := fun a frame => frame ∈ a.1.outstanding
  recycled := fun a => a.1.recycledFrames.length
  positive := by
    rintro frame ⟨region, mem, inside⟩
    have above := (init_framed boot mem).above
    rw [init_protectedUntil] at above
    have bottom := minAllocAddr_le_reserve boot
    simp only [minAllocAddr] at bottom
    have := inside.1
    omega
  bounded := fun a => a.2.1.bounded
  draws := by
    intro a a' answer allocates
    have result := a.2.1.allocateFrame boot
    rw [allocateFrame_val allocates] at result
    dsimp only at result
    cases result with
    | recycled was _ _ _ _ => rw [was, List.length_cons, Nat.add_sub_cancel]
    | bumped empty empty' _ _ _ _ => rw [empty, empty', List.length_nil]
    | exhausted empty empty' _ _ _ _ _ => rw [empty, empty', List.length_nil]
  accepts := by
    intro a a' frame freed frees
    cases freed with
    | false =>
        obtain ⟨same, refused⟩ := a.2.1.freeFrame_false boot (freeFrame_val frees)
        rw [same]
        exact ⟨⟨fun isTrue => (by cases isTrue), fun both => absurd both refused⟩, rfl⟩
    | true =>
        obtain ⟨-, mem, space, -, -, recycled, -⟩ := a.2.1.freeFrame_true boot (freeFrame_val frees)
        rw [recycled, List.length_cons]
        exact ⟨⟨fun _ => ⟨mem, space⟩, fun _ => rfl⟩, rfl⟩
  issues := by
    intro a a' frame allocates
    obtain ⟨sound, regions, -⟩ := a.2
    obtain ⟨-, mem, fresh, outstanding, -⟩ :=
      sound.allocateFrame_some boot (allocateFrame_val allocates)
    obtain ⟨aligned, -, inside⟩ := sound.mem_region mem
    rw [regions] at inside
    refine ⟨inside, aligned, fresh, fun x => ?_⟩
    rw [outstanding, Finset.mem_insert]
  exhausts := by
    intro a a' allocates x
    obtain ⟨-, -, -, outstanding, -⟩ :=
      a.2.1.allocateFrame_none boot (allocateFrame_val allocates)
    rw [outstanding]
  frees := by
    intro a a' frame frees x
    obtain ⟨-, -, -, outstanding, -⟩ := a.2.1.freeFrame_true boot (freeFrame_val frees)
    rw [outstanding, Finset.mem_erase]
  refuses := by
    intro a a' frame frees x
    obtain ⟨same, -⟩ := a.2.1.freeFrame_false boot (freeFrame_val frees)
    rw [same]

/-- The allocator after `init`. -/
def start (boot : BootInfo) (disjoint : (init boot).DisjointRegions) : SoundAllocator boot :=
  ⟨init boot, init_sound disjoint, rfl, rfl⟩

end SoundAllocator

end CloudOS.PhysMem
