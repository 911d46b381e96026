import CloudOS.PhysMem.Ledger

/-!
Initialization accounts for every frame.

The counters of `add_memory_region` are natural numbers in the model and words
in the source. Here the function is run once more with every sum and difference
checked: over a map that fits the table none of them ever leaves the range of a
word, and at the end each frame that the map offers was either recorded or
skipped.
-/

namespace CloudOS.PhysMem

open Lib.Word (maxWord satAdd satAdd_le satAdd_of_le checkedAdd)
open MemoryRegion (clip)

/-- Checked subtraction of words. -/
def checkedSub (a b : Nat) : Option Nat := if b ≤ a then some (a - b) else none

theorem checkedSub_of_le {a b : Nat} (fits : b ≤ a) : checkedSub a b = some (a - b) := if_pos fits

theorem checkedAdd_of_le {largest a b : Nat} (fits : a + b ≤ largest) :
    checkedAdd largest a b = some (a + b) := if_pos fits

namespace FrameAllocator

/-- `add_memory_region` in a build that traps on overflow. -/
def addMemoryRegionChecked (a : FrameAllocator) (region : MemoryRegion) : Option FrameAllocator :=
  if !region.isAvailable || region.length < frameSize then some a
  else
    let regionStart := alignUp region.baseAddr frameSize
    let regionEnd := alignDown region.endAddr frameSize
    if regionEnd ≤ regionStart then some a
    else do
      let span ← checkedSub regionEnd regionStart
      let totalUsableFrames ← checkedAdd maxWord a.totalUsableFrames (span / frameSize)
      let a := { a with totalUsableFrames }
      if regionEnd ≤ a.protectedUntil then
        let span ← checkedSub regionEnd regionStart
        let skippedFrames ← checkedAdd maxWord a.skippedFrames (span / frameSize)
        return { a with skippedFrames }
      else
        let start := max regionStart a.protectedUntil
        let skippedFrames ←
          checkedAdd maxWord a.skippedFrames ((start - regionStart) / frameSize)
        let a := { a with skippedFrames }
        if regionEnd ≤ start then return a
        else if a.regions.length < maxAllocRegions then
          let allocRegion : AllocRegion := ⟨start, regionEnd⟩
          let allocatableFrames ←
            checkedAdd maxWord a.allocatableFrames allocRegion.frameCount
          return { a with allocatableFrames, regions := a.regions ++ [allocRegion] }
        else
          let span ← checkedSub regionEnd start
          let skippedFrames ← checkedAdd maxWord a.skippedFrames (span / frameSize)
          return { a with skippedFrames }

/-- The frames below the end of the address space. -/
abbrev frameSpace : Nat := 2 ^ 52

/-- The balance of the counters after `count` regions of the map. -/
structure Accounted (a : FrameAllocator) (count : Nat) : Prop where
  protectedUntil : a.protectedUntil % frameSize = 0
  balance : a.totalUsableFrames = a.allocatableFrames + a.skippedFrames
  small : a.totalUsableFrames ≤ count * frameSpace

/-- One region: the two versions agree, and its frames enter both sides of the
balance. -/
theorem Accounted.addMemoryRegion {a : FrameAllocator} {count : Nat} (accounted : a.Accounted count)
    (few : count < maxAllocRegions) (region : MemoryRegion) :
    a.addMemoryRegionChecked region = some (a.addMemoryRegion region) ∧
      (a.addMemoryRegion region).Accounted (count + 1) := by
  obtain ⟨aligned, balance, small⟩ := accounted
  have word : region.endAddr ≤ maxWord := satAdd_le _ _
  have startAligned : alignUp region.baseAddr frameSize % frameSize = 0 := alignUp_mod _
  have endAligned : alignDown region.endAddr frameSize % frameSize = 0 := by
    rw [alignDown_frameSize word]
    exact Nat.mul_mod_left _ _
  have endWord : alignDown region.endAddr frameSize ≤ maxWord := by
    rw [alignDown_frameSize word]
    exact (Nat.div_mul_le_self _ _).trans word
  have more : (count + 1) * frameSpace = count * frameSpace + frameSpace := Nat.succ_mul _ _
  have room : (count + 1) * frameSpace ≤ maxWord :=
    (Nat.mul_le_mul_right frameSpace few).trans (by decide)
  have kept : a.totalUsableFrames ≤ (count + 1) * frameSpace := by
    rw [more]
    exact Nat.le_add_right_of_le small
  unfold FrameAllocator.addMemoryRegion addMemoryRegionChecked
  dsimp only
  generalize alignUp region.baseAddr frameSize = regionStart at *
  generalize alignDown region.endAddr frameSize = regionEnd at *
  have grown : a.totalUsableFrames + (regionEnd - regionStart) / frameSize ≤
      (count + 1) * frameSpace := by
    rw [more]
    refine Nat.add_le_add small ((Nat.div_le_div_right (Nat.sub_le _ _)).trans ?_)
    exact (Nat.div_le_div_right endWord).trans (by decide)
  have fits := grown.trans room
  split
  · exact ⟨rfl, aligned, balance, kept⟩
  split
  · exact ⟨rfl, aligned, balance, kept⟩
  rename_i nonempty
  simp only [checkedSub_of_le (Nat.le_of_not_le nonempty), checkedAdd_of_le fits,
    Option.bind_eq_bind, Option.bind_some, Option.pure_def]
  split
  · rw [checkedAdd_of_le (by omega)]
    exact ⟨rfl, aligned, by dsimp only; omega, grown⟩
  rename_i above
  -- the part below the protected memory is skipped, the rest recorded
  have parts : (regionEnd - regionStart) / frameSize =
      (max regionStart a.protectedUntil - regionStart) / frameSize +
        (regionEnd - max regionStart a.protectedUntil) / frameSize := by
    have cut := max_mod startAligned aligned
    have low := Nat.le_max_left regionStart a.protectedUntil
    have high : max regionStart a.protectedUntil ≤ regionEnd := by omega
    generalize max regionStart a.protectedUntil = start at *
    simp only [frameSize] at *
    omega
  have crossing : ¬ regionEnd ≤ max regionStart a.protectedUntil := by omega
  simp only [AllocRegion.frameCount, if_neg crossing, checkedSub_of_le (Nat.le_of_not_le crossing),
    Option.bind_some]
  generalize (regionEnd - regionStart) / frameSize = span at *
  generalize (max regionStart a.protectedUntil - regionStart) / frameSize = below at *
  generalize (regionEnd - max regionStart a.protectedUntil) / frameSize = kept at *
  have belowFits : a.skippedFrames + below ≤ maxWord := by omega
  simp only [checkedAdd_of_le belowFits, Option.bind_some]
  split
  · rw [checkedAdd_of_le (by omega)]
    exact ⟨rfl, aligned, by dsimp only; omega, grown⟩
  · rw [checkedAdd_of_le (by omega)]
    exact ⟨rfl, aligned, by dsimp only; omega, grown⟩

/-- A whole map: no sum overflows, and the counters balance. -/
theorem Accounted.foldl {a : FrameAllocator} {count : Nat} (accounted : a.Accounted count)
    (stored : List MemoryRegion) (few : count + stored.length ≤ maxAllocRegions) :
    stored.foldlM addMemoryRegionChecked a = some (stored.foldl FrameAllocator.addMemoryRegion a) ∧
      (stored.foldl FrameAllocator.addMemoryRegion a).Accounted (count + stored.length) := by
  induction stored generalizing a count with
  | nil => exact ⟨rfl, accounted⟩
  | cons region stored ih =>
      rw [List.length_cons] at few ⊢
      obtain ⟨checked, next⟩ := accounted.addMemoryRegion (by omega) region
      rw [List.foldlM_cons, checked, List.foldl_cons, Nat.add_comm stored.length,
        ← Nat.add_assoc]
      exact ih next (by omega)

end FrameAllocator

open FrameAllocator

/-- A recorded region lies between the bytes of the entry it was made from. -/
theorem clip_inside {bottom : Nat} {region : MemoryRegion} {recorded : AllocRegion}
    (clips : clip bottom region = some recorded) :
    region.isAvailable = true ∧ region.baseAddr ≤ recorded.start ∧
      recorded.stop ≤ region.baseAddr + region.length := by
  have word : region.endAddr ≤ maxWord := satAdd_le _ _
  have short : region.endAddr ≤ region.baseAddr + region.length := Nat.min_le_left _ _
  have up := alignUp_frameSize region.baseAddr
  have down := alignDown_frameSize word
  unfold clip at clips
  dsimp only at clips
  split at clips
  · rename_i fits
    cases clips
    refine ⟨fits.1, ?_, ?_⟩
    · have nonempty := fits.2.2
      simp only [satAdd, maxWord, frameSize] at *
      omega
    · dsimp only
      rw [down]
      exact (Nat.div_mul_le_self _ _).trans short
  · cases clips

/-- The allocator before the loop of `init`, with any protected memory. -/
def protecting (bottom : Nat) : FrameAllocator := { new with protectedUntil := bottom }

/-- Initialization accounts for every frame. Over every map of at most sixteen
regions and every page-aligned end of the protected memory no sum or difference
leaves the range of a word; each recorded region is page aligned, non-empty,
above the protected memory and inside one available region of the map; and the
usable frames are those recorded and those skipped. -/
theorem init_accounts (bottom : Nat) (aligned : bottom % frameSize = 0)
    (stored : List MemoryRegion) (few : stored.length ≤ maxRegions) :
    let a := stored.foldl addMemoryRegion (protecting bottom)
    stored.foldlM addMemoryRegionChecked (protecting bottom) = some a ∧
    (∀ recorded ∈ a.regions, recorded.start % frameSize = 0 ∧ recorded.stop % frameSize = 0 ∧
      recorded.start < recorded.stop ∧ bottom ≤ recorded.start ∧
      ∃ region ∈ stored, region.isAvailable = true ∧ region.baseAddr ≤ recorded.start ∧
        recorded.stop ≤ region.baseAddr + region.length) ∧
    a.allocatableFrames = (a.regions.map AllocRegion.frameCount).sum ∧
    a.totalUsableFrames = a.allocatableFrames + a.skippedFrames := by
  intro a
  have start : (protecting bottom).Accounted 0 := ⟨aligned, rfl, Nat.zero_le _⟩
  obtain ⟨checked, accounted⟩ := start.foldl stored (by simpa using few)
  have untouched : (protecting bottom).Untouched := ⟨rfl, rfl, rfl, rfl⟩
  refine ⟨checked, fun recorded mem => ?_, (untouched.foldl stored).counted, accounted.balance⟩
  have regions := foldl_addMemoryRegion_regions (protecting bottom) stored
    (by simpa [protecting, new] using few)
  change recorded ∈ (stored.foldl addMemoryRegion (protecting bottom)).regions at mem
  rw [regions] at mem
  obtain ⟨region, stored, clips⟩ := List.mem_filterMap.mp mem
  have framed := clip_framed aligned clips
  exact ⟨framed.start, framed.stop, framed.nonempty, framed.above, region, stored,
    clip_inside clips⟩

/-- A map that touches zero, the protected memory and the end of the address space. -/
def edgeMap : List MemoryRegion :=
  [⟨0, 0x9fc00, 1⟩, ⟨0x1ff800, 0x3000, 1⟩, ⟨2 ^ 64 - 0x2800, 2 ^ 64 - 1, 1⟩, ⟨0x200000, 0x1000, 2⟩]

theorem init_accounts_edgeMap :
    (edgeMap.foldl addMemoryRegion (protecting 0x201000)).totalUsableFrames =
      (edgeMap.foldl addMemoryRegion (protecting 0x201000)).allocatableFrames +
        (edgeMap.foldl addMemoryRegion (protecting 0x201000)).skippedFrames :=
  (init_accounts 0x201000 (by decide) edgeMap (by decide)).2.2.2

end CloudOS.PhysMem
