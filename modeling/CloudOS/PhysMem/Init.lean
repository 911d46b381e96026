import CloudOS.PhysMem.State

/-!
What the allocator takes from a memory map.

A stored region contributes its whole pages above the protected memory. The
regions are taken one at a time, so the result is as good as the map: the
recorded regions are disjoint and keep clear of unavailable memory exactly when
no two entries of the map contradict each other there.
-/

namespace CloudOS.PhysMem

open Lib.Word (maxWord satAdd satAdd_le)

/-! ### Rounding -/

theorem alignDown_frameSize {value : Nat} (word : value ≤ maxWord) :
    alignDown value frameSize = value / frameSize * frameSize :=
  Lib.Word.and_not_low_mask (k := 12) word

theorem alignUp_frameSize (value : Nat) :
    alignUp value frameSize = satAdd value (frameSize - 1) / frameSize * frameSize :=
  alignDown_frameSize (satAdd_le _ _)

theorem alignUp_mod (value : Nat) : alignUp value frameSize % frameSize = 0 := by
  rw [alignUp_frameSize]
  exact Nat.mul_mod_left _ _

theorem isFrameAligned_iff {value : Nat} : isFrameAligned value = true ↔ value % frameSize = 0 := by
  unfold isFrameAligned
  rw [beq_iff_eq, show frameSize - 1 = 2 ^ 12 - 1 from rfl, Nat.and_two_pow_sub_one_eq_mod]

theorem max_mod {a b : Nat} (alignedA : a % frameSize = 0) (alignedB : b % frameSize = 0) :
    max a b % frameSize = 0 := by
  rcases Nat.le_total a b with le | le
  · rwa [Nat.max_eq_right le]
  · rwa [Nat.max_eq_left le]

theorem reserve_mod (boot : BootInfo) : FrameAllocator.reserve boot % frameSize = 0 := by
  have kernel : max (alignUp boot.kernelEnd frameSize) minAllocAddr % frameSize = 0 :=
    max_mod (alignUp_mod _) (by decide)
  unfold FrameAllocator.reserve
  refine max_mod ?_ (alignUp_mod _)
  split
  · exact max_mod kernel (alignUp_mod _)
  · exact kernel

/-- The first MiB is never allocated. -/
theorem minAllocAddr_le_reserve (boot : BootInfo) :
    minAllocAddr ≤ FrameAllocator.reserve boot := by
  unfold FrameAllocator.reserve
  dsimp only
  split
  · omega
  · omega

/-! ### The recorded part of a region -/

namespace MemoryRegion

/-- The page of the byte lies inside the region. -/
def holdsPage (region : MemoryRegion) (byte : Nat) : Prop :=
  region.baseAddr ≤ byte / frameSize * frameSize ∧
    byte / frameSize * frameSize + frameSize ≤ region.endAddr

/-- The region reports the page of the byte as available. -/
def Offers (region : MemoryRegion) (byte : Nat) : Prop :=
  region.isAvailable = true ∧ region.holdsPage byte

/-- The region reports the byte as not available. -/
def Denies (region : MemoryRegion) (byte : Nat) : Prop :=
  region.isAvailable = false ∧ region.baseAddr ≤ byte ∧ byte < region.baseAddr + region.length

/-- What `add_memory_region` records of the region. -/
def clip (bottom : Nat) (region : MemoryRegion) : Option AllocRegion :=
  let start := max (alignUp region.baseAddr frameSize) bottom
  let stop := alignDown region.endAddr frameSize
  if region.isAvailable = true ∧ frameSize ≤ region.length ∧ start < stop then
    some ⟨start, stop⟩
  else none

end MemoryRegion

open MemoryRegion

namespace AllocRegion

def Contains (region : AllocRegion) (byte : Nat) : Prop :=
  region.start ≤ byte ∧ byte < region.stop

def Disjoint (region other : AllocRegion) : Prop :=
  region.stop ≤ other.start ∨ other.stop ≤ region.start

/-- Whole frames, from `bottom` on, below the end of the address space. -/
structure Framed (bottom : Nat) (region : AllocRegion) : Prop where
  start : region.start % frameSize = 0
  stop : region.stop % frameSize = 0
  above : bottom ≤ region.start
  nonempty : region.start < region.stop
  word : region.stop ≤ maxWord

/-- Two regions of frames are disjoint when they share no byte. -/
theorem disjoint_iff {bottom bottom' : Nat} {region other : AllocRegion}
    (framed : region.Framed bottom) (framed' : other.Framed bottom') :
    region.Disjoint other ↔ ∀ byte, region.Contains byte → ¬ other.Contains byte := by
  constructor
  · rintro apart byte ⟨low, high⟩ ⟨low', high'⟩
    rcases apart with apart | apart
    · omega
    · omega
  · intro apart
    have nonempty := framed.nonempty
    have nonempty' := framed'.nonempty
    have meet := apart (max region.start other.start)
    unfold Contains at meet
    unfold Disjoint
    omega

end AllocRegion

/-- What is recorded of a region begins and ends with a frame. -/
theorem clip_framed {bottom : Nat} (aligned : bottom % frameSize = 0) {region : MemoryRegion}
    {recorded : AllocRegion} (clips : clip bottom region = some recorded) :
    recorded.Framed bottom := by
  unfold clip at clips
  dsimp only at clips
  split at clips
  · rename_i fits
    cases clips
    have word : region.endAddr ≤ maxWord := satAdd_le _ _
    refine ⟨max_mod (alignUp_mod _) aligned, ?_, Nat.le_max_right _ _, fits.2.2, ?_⟩
    · dsimp only
      rw [alignDown_frameSize word]
      exact Nat.mul_mod_left _ _
    · dsimp only
      rw [alignDown_frameSize word]
      exact (Nat.div_mul_le_self _ _).trans word
  · cases clips

/-- A recorded region holds exactly the offered bytes above the protected memory. -/
theorem clip_contains {bottom : Nat} (aligned : bottom % frameSize = 0) (region : MemoryRegion)
    (byte : Nat) :
    (∃ recorded, clip bottom region = some recorded ∧ recorded.Contains byte) ↔
      bottom ≤ byte ∧ region.Offers byte := by
  have word : region.endAddr ≤ maxWord := satAdd_le _ _
  have short : region.endAddr ≤ region.baseAddr + region.length := Nat.min_le_left _ _
  have up := alignUp_frameSize region.baseAddr
  have down := alignDown_frameSize word
  simp only [satAdd, maxWord, frameSize] at *
  constructor
  · rintro ⟨recorded, clips, inside⟩
    unfold clip at clips
    dsimp only at clips
    split at clips
    · rename_i fits
      cases clips
      simp only [AllocRegion.Contains, frameSize, up, down] at inside
      refine ⟨by omega, fits.1, ?_⟩
      unfold holdsPage
      simp only [frameSize]
      omega
    · cases clips
  · rintro ⟨above, available, holds⟩
    unfold holdsPage at holds
    simp only [frameSize] at holds
    refine ⟨⟨max (alignUp region.baseAddr frameSize) bottom, alignDown region.endAddr frameSize⟩,
      ?_, ?_⟩
    · unfold clip
      dsimp only
      refine if_pos ⟨available, ?_, ?_⟩
      · simp only [frameSize]
        omega
      · simp only [frameSize, up, down]
        omega
    · simp only [AllocRegion.Contains, frameSize, up, down]
      omega

/-! ### Initialization -/

namespace FrameAllocator

theorem addMemoryRegion_protectedUntil (a : FrameAllocator) (region : MemoryRegion) :
    (a.addMemoryRegion region).protectedUntil = a.protectedUntil := by
  unfold addMemoryRegion
  dsimp only
  split_ifs
  all_goals rfl

/-- A region is recorded as far as it lies above the reserved memory. -/
theorem addMemoryRegion_regions (a : FrameAllocator) (region : MemoryRegion)
    (space : a.regions.length < maxAllocRegions) :
    (a.addMemoryRegion region).regions =
      a.regions ++ (clip a.protectedUntil region).toList := by
  unfold addMemoryRegion clip
  dsimp only
  split
  · rename_i unfit
    rw [if_neg]
    · simp
    · rintro ⟨available, long, -⟩
      simp only [available, Bool.not_true, Bool.false_or, decide_eq_true_eq] at unfit
      omega
  rename_i fit
  simp only [Bool.or_eq_true, Bool.not_eq_true', decide_eq_true_eq, not_or, Bool.not_eq_false,
    not_lt] at fit
  split
  · rw [if_neg (by omega)]
    simp
  split
  · rw [if_neg (by omega)]
    simp
  split
  · rw [if_neg (by omega)]
    simp
  · rw [if_pos ⟨fit.1, fit.2, by omega⟩]
    rfl

theorem addMemoryRegion_length (a : FrameAllocator) (region : MemoryRegion)
    (space : a.regions.length < maxAllocRegions) :
    (a.addMemoryRegion region).regions.length ≤ a.regions.length + 1 := by
  rw [addMemoryRegion_regions a region space, List.length_append]
  cases clip a.protectedUntil region with
  | none => exact Nat.le_succ _
  | some recorded => exact le_rfl

/-- The induction is on the regions of the map. -/
theorem foldl_addMemoryRegion_regions (a : FrameAllocator) (stored : List MemoryRegion)
    (space : a.regions.length + stored.length ≤ maxAllocRegions) :
    (stored.foldl addMemoryRegion a).regions =
      a.regions ++ stored.filterMap (clip a.protectedUntil) := by
  induction stored generalizing a with
  | nil => simp
  | cons region stored ih =>
      rw [List.length_cons] at space
      have room : a.regions.length < maxAllocRegions := by omega
      have length := addMemoryRegion_length a region room
      rw [List.foldl_cons, ih _ (by omega), addMemoryRegion_protectedUntil,
        addMemoryRegion_regions a region room, List.append_assoc]
      cases kept : clip a.protectedUntil region with
      | none => simp [kept]
      | some recorded => simp [kept]

theorem foldl_addMemoryRegion_protectedUntil (a : FrameAllocator) (stored : List MemoryRegion) :
    (stored.foldl addMemoryRegion a).protectedUntil = a.protectedUntil := by
  induction stored generalizing a with
  | nil => rfl
  | cons region stored ih => rw [List.foldl_cons, ih, addMemoryRegion_protectedUntil]

theorem init_protectedUntil (boot : BootInfo) : (init boot).protectedUntil = reserve boot := by
  unfold init
  dsimp only
  split
  · exact foldl_addMemoryRegion_protectedUntil _ _
  · exact foldl_addMemoryRegion_protectedUntil _ _

/-- The recorded regions are those of the map, clipped. -/
theorem init_regions (boot : BootInfo) :
    (init boot).regions = boot.memory.regions.filterMap (clip (reserve boot)) := by
  have folded := foldl_addMemoryRegion_regions { new with
    kernelStart := boot.kernelStart
    kernelEnd := alignUp boot.kernelEnd frameSize
    protectedUntil := reserve boot } boot.memory.regions (by
      simpa [new] using boot.memory.bounded)
  unfold init
  dsimp only
  split
  · exact folded
  · exact folded

theorem init_framed (boot : BootInfo) {region : AllocRegion} (mem : region ∈ (init boot).regions) :
    region.Framed (init boot).protectedUntil := by
  rw [init_regions, List.mem_filterMap] at mem
  obtain ⟨stored, -, clips⟩ := mem
  rw [init_protectedUntil]
  exact clip_framed (reserve_mod boot) clips

/-- The recorded regions are disjoint. -/
def DisjointRegions (a : FrameAllocator) : Prop := a.regions.Pairwise AllocRegion.Disjoint

/-- No recorded byte is reported as not available. -/
def AvoidsDenied (a : FrameAllocator) (stored : List MemoryRegion) : Prop :=
  ∀ recorded ∈ a.regions, ∀ byte, recorded.Contains byte → ∀ region ∈ stored, ¬ region.Denies byte

end FrameAllocator

open FrameAllocator

/-! ### The map and the recorded regions -/

/-- The regions are disjoint when no byte above the reserved memory is offered twice. -/
theorem disjointRegions_iff (boot : BootInfo) : (init boot).DisjointRegions ↔
    boot.memory.regions.Pairwise fun region other =>
      ∀ byte, (init boot).protectedUntil ≤ byte → ¬ (region.Offers byte ∧ other.Offers byte) := by
  have aligned := reserve_mod boot
  unfold DisjointRegions
  rw [init_regions, init_protectedUntil, List.pairwise_filterMap]
  refine List.Pairwise.iff fun region other => ?_
  constructor
  · rintro apart byte above ⟨offers, offers'⟩
    obtain ⟨recorded, clips, inside⟩ := (clip_contains aligned region byte).mpr ⟨above, offers⟩
    obtain ⟨recorded', clips', inside'⟩ := (clip_contains aligned other byte).mpr ⟨above, offers'⟩
    have disjoint := apart recorded clips recorded' clips'
    rw [AllocRegion.disjoint_iff (clip_framed aligned clips) (clip_framed aligned clips')] at disjoint
    exact disjoint byte inside inside'
  · intro clear recorded clips recorded' clips'
    rw [AllocRegion.disjoint_iff (clip_framed aligned clips) (clip_framed aligned clips')]
    intro byte inside inside'
    obtain ⟨above, offers⟩ := (clip_contains aligned region byte).mp ⟨recorded, clips, inside⟩
    obtain ⟨-, offers'⟩ := (clip_contains aligned other byte).mp ⟨recorded', clips', inside'⟩
    exact clear byte above ⟨offers, offers'⟩

/-- No region holds a byte that the map denies elsewhere. -/
theorem avoidsDenied_iff (boot : BootInfo) : (init boot).AvoidsDenied boot.memory.regions ↔
    ∀ region ∈ boot.memory.regions, ∀ other ∈ boot.memory.regions,
      ∀ byte, (init boot).protectedUntil ≤ byte → ¬ (region.Offers byte ∧ other.Denies byte) := by
  have aligned := reserve_mod boot
  unfold AvoidsDenied
  rw [init_regions, init_protectedUntil]
  constructor
  · rintro avoids region mem other mem' byte above ⟨offers, denies⟩
    obtain ⟨recorded, clips, inside⟩ := (clip_contains aligned region byte).mpr ⟨above, offers⟩
    exact avoids recorded (List.mem_filterMap.mpr ⟨region, mem, clips⟩) byte inside other mem' denies
  · intro clear recorded mem byte inside other mem' denies
    obtain ⟨region, mem, clips⟩ := List.mem_filterMap.mp mem
    obtain ⟨above, offers⟩ := (clip_contains aligned region byte).mp ⟨recorded, clips, inside⟩
    exact clear region mem other mem' byte above ⟨offers, denies⟩

/-- For every memory map, the recorded regions consist of whole frames above the
protected memory. They are disjoint exactly when no page there is offered twice,
and free of unavailable bytes exactly when no offered page has one. -/
theorem init_exact (boot : BootInfo) :
    (∀ recorded ∈ (init boot).regions, recorded.start % frameSize = 0 ∧
      recorded.stop % frameSize = 0 ∧ (init boot).protectedUntil ≤ recorded.start) ∧
    ((init boot).DisjointRegions ↔ boot.memory.regions.Pairwise fun region other =>
      ∀ byte, (init boot).protectedUntil ≤ byte → ¬ (region.Offers byte ∧ other.Offers byte)) ∧
    ((init boot).AvoidsDenied boot.memory.regions ↔
      ∀ region ∈ boot.memory.regions, ∀ other ∈ boot.memory.regions,
        ∀ byte, (init boot).protectedUntil ≤ byte → ¬ (region.Offers byte ∧ other.Denies byte)) := by
  refine ⟨fun recorded mem => ?_, disjointRegions_iff boot, avoidsDenied_iff boot⟩
  have framed := init_framed boot mem
  exact ⟨framed.start, framed.stop, framed.above⟩

/-- Two available regions and a reserved one, all over the same megabyte. -/
def overlappingMap : BootInfo where
  kernelStart := 0x100000
  kernelEnd := 0x200000
  address := 0
  totalSize := 0
  highestModuleEnd := 0
  memory := [⟨0x200000, 0x200000, 1⟩, ⟨0x300000, 0x200000, 1⟩, ⟨0x300000, 0x100000, 2⟩].foldl
    MemorySummary.addRegion {}

theorem overlappingMap_unsafe : ¬ (init overlappingMap).DisjointRegions ∧
    ¬ (init overlappingMap).AvoidsDenied overlappingMap.memory.regions := by
  have regions : (init overlappingMap).regions = [⟨0x200000, 0x400000⟩, ⟨0x300000, 0x500000⟩] := by
    decide +kernel
  have stored : ⟨0x300000, 0x100000, 2⟩ ∈ overlappingMap.memory.regions := by decide +kernel
  constructor
  · unfold DisjointRegions
    rw [regions]
    simp [AllocRegion.Disjoint]
  · intro avoids
    refine avoids ⟨0x200000, 0x400000⟩ ?_ 0x300000 ⟨by decide, by decide⟩ _ stored
      ⟨rfl, by decide, by decide⟩
    rw [regions]
    exact List.mem_cons_self

end CloudOS.PhysMem
