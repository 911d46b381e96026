import CloudOS.Lib.Word

/-!
The boot memory map of `src/multiboot.rs` and the physical frame allocator of
`src/physmem.rs`.

The allocator hands out frames in the order of its regions and keeps the frames
it gets back on a stack of limited size. What the linker and the boot loader
decide is a `BootInfo`. Of the tables with a fixed number of entries only the
used entries are represented; the stack of recycled frames has its top first.
-/

namespace CloudOS.PhysMem

open Lib.Word (maxWord satAdd)

/-! ### The memory map -/

abbrev maxRegions : Nat := 16
abbrev memoryAvailable : Nat := 1
abbrev memoryAcpiReclaimable : Nat := 3
abbrev memoryAcpiNvs : Nat := 4
abbrev memoryBad : Nat := 5

structure MemoryRegion where
  baseAddr : Nat
  length : Nat
  regionType : Nat
deriving DecidableEq, Repr

namespace MemoryRegion

def endAddr (region : MemoryRegion) : Nat := satAdd region.baseAddr region.length

def isAvailable (region : MemoryRegion) : Bool := region.regionType == memoryAvailable

end MemoryRegion

theorem noRegions_bounded : ([] : List MemoryRegion).length ≤ maxRegions := by decide

/-- The part of `MemorySummary` that `add_region` fills. The table has room for
`MAX_REGIONS` regions. -/
structure MemorySummary where
  regionCount : Nat := 0
  usableRegionCount : Nat := 0
  reservedRegionCount : Nat := 0
  acpiRegionCount : Nat := 0
  badRegionCount : Nat := 0
  usableBytes : Nat := 0
  reservedBytes : Nat := 0
  acpiBytes : Nat := 0
  badBytes : Nat := 0
  highestAddress : Nat := 0
  firstUsableBase : Nat := 0
  firstUsableLength : Nat := 0
  largestUsableBase : Nat := 0
  largestUsableLength : Nat := 0
  regions : List MemoryRegion := []
  bounded : regions.length ≤ maxRegions := by exact CloudOS.PhysMem.noRegions_bounded

namespace MemorySummary

/-- The statistics of `add_region` for one type of memory. -/
def countRegion (summary : MemorySummary) (region : MemoryRegion) : MemorySummary :=
  if region.regionType = memoryAvailable then
    let summary :=
      if summary.usableRegionCount = 0 then
        { summary with firstUsableBase := region.baseAddr, firstUsableLength := region.length }
      else summary
    let summary := { summary with
      usableRegionCount := summary.usableRegionCount + 1
      usableBytes := satAdd summary.usableBytes region.length }
    if summary.largestUsableLength < region.length then
      { summary with largestUsableBase := region.baseAddr, largestUsableLength := region.length }
    else summary
  else if region.regionType = memoryAcpiReclaimable ∨ region.regionType = memoryAcpiNvs then
    { summary with
      acpiRegionCount := summary.acpiRegionCount + 1
      acpiBytes := satAdd summary.acpiBytes region.length }
  else if region.regionType = memoryBad then
    { summary with
      badRegionCount := summary.badRegionCount + 1
      badBytes := satAdd summary.badBytes region.length }
  else
    { summary with
      reservedRegionCount := summary.reservedRegionCount + 1
      reservedBytes := satAdd summary.reservedBytes region.length }

def addRegion (summary : MemorySummary) (region : MemoryRegion) : MemorySummary :=
  if region.length = 0 then summary
  else
    let summary := { summary with
      regionCount := summary.regionCount + 1
      highestAddress := max summary.highestAddress region.endAddr }
    let summary :=
      if space : summary.regions.length < maxRegions then
        { summary with
          regions := summary.regions ++ [region]
          bounded := by
            rw [List.length_append]
            exact space }
      else summary
    summary.countRegion region

end MemorySummary

/-- What `init` reads: the symbols of the linker, the place of the boot
information, the end of the last module and the memory map. -/
structure BootInfo where
  kernelStart : Nat
  kernelEnd : Nat
  address : Nat
  totalSize : Nat
  highestModuleEnd : Nat
  memory : MemorySummary

/-! ### The allocator -/

abbrev frameSize : Nat := 4096
abbrev maxAllocRegions : Nat := 16
abbrev maxRecycledFrames : Nat := 128
abbrev minAllocAddr : Nat := 0x100000

/-- `value & !(alignment - 1)`. -/
def alignDown (value alignment : Nat) : Nat := value &&& (maxWord ^^^ (alignment - 1))

def alignUp (value alignment : Nat) : Nat := alignDown (satAdd value (alignment - 1)) alignment

def isFrameAligned (value : Nat) : Bool := value &&& (frameSize - 1) == 0

structure AllocRegion where
  start : Nat
  stop : Nat
deriving DecidableEq, Repr

def AllocRegion.frameCount (region : AllocRegion) : Nat := (region.stop - region.start) / frameSize

structure FrameAllocator where
  initialized : Bool
  exhausted : Bool
  regions : List AllocRegion
  currentRegion : Nat
  nextFrame : Nat
  totalUsableFrames : Nat
  allocatableFrames : Nat
  allocatedFrames : Nat
  recycledFrames : List Nat
  skippedFrames : Nat
  lastAllocatedFrame : Nat
  kernelStart : Nat
  kernelEnd : Nat
  protectedUntil : Nat
deriving DecidableEq, Repr

namespace FrameAllocator

def new : FrameAllocator where
  initialized := false
  exhausted := false
  regions := []
  currentRegion := 0
  nextFrame := 0
  totalUsableFrames := 0
  allocatableFrames := 0
  allocatedFrames := 0
  recycledFrames := []
  skippedFrames := 0
  lastAllocatedFrame := 0
  kernelStart := 0
  kernelEnd := 0
  protectedUntil := 0

def addMemoryRegion (a : FrameAllocator) (region : MemoryRegion) : FrameAllocator :=
  if !region.isAvailable || region.length < frameSize then a
  else
    let regionStart := alignUp region.baseAddr frameSize
    let regionEnd := alignDown region.endAddr frameSize
    if regionEnd ≤ regionStart then a
    else
      let a := { a with
        totalUsableFrames := a.totalUsableFrames + (regionEnd - regionStart) / frameSize }
      if regionEnd ≤ a.protectedUntil then
        { a with skippedFrames := a.skippedFrames + (regionEnd - regionStart) / frameSize }
      else
        let start := max regionStart a.protectedUntil
        let a := { a with skippedFrames := a.skippedFrames + (start - regionStart) / frameSize }
        if regionEnd ≤ start then a
        else if a.regions.length < maxAllocRegions then
          let allocRegion : AllocRegion := ⟨start, regionEnd⟩
          { a with
            allocatableFrames := a.allocatableFrames + allocRegion.frameCount
            regions := a.regions ++ [allocRegion] }
        else { a with skippedFrames := a.skippedFrames + (regionEnd - start) / frameSize }

/-- The end of what is in use before any frame is handed out. -/
def reserve (boot : BootInfo) : Nat :=
  let kernel := max (alignUp boot.kernelEnd frameSize) minAllocAddr
  let info :=
    if boot.address ≠ 0 ∧ boot.totalSize ≠ 0 then
      max kernel (alignUp (satAdd boot.address boot.totalSize) frameSize)
    else kernel
  max info (alignUp boot.highestModuleEnd frameSize)

def init (boot : BootInfo) : FrameAllocator :=
  let a := { new with
    kernelStart := boot.kernelStart
    kernelEnd := alignUp boot.kernelEnd frameSize
    protectedUntil := reserve boot }
  let a := boot.memory.regions.foldl addMemoryRegion a
  let a :=
    match a.regions with
    | [] => { a with exhausted := true }
    | region :: _ => { a with nextFrame := region.start }
  { a with initialized := true }

/-- The loop of `allocate_frame`: from the current region on, with the position in
it. Returns the frame and where the loop stopped. -/
def bump : List AllocRegion → Nat → Nat → Option Nat × Nat × Nat
  | [], current, next => (none, current, next)
  | region :: rest, current, next =>
      let next := if next < region.start then region.start else next
      if next < region.stop then (some next, current, satAdd next frameSize)
      else
        match rest with
        | [] => (none, current + 1, next)
        | following :: rest => bump (following :: rest) (current + 1) following.start

/-- Initialize on first use. -/
def ready (boot : BootInfo) (a : FrameAllocator) : FrameAllocator :=
  if a.initialized then a else init boot

def allocateFrame (boot : BootInfo) (a : FrameAllocator) : Option Nat × FrameAllocator :=
  let a := a.ready boot
  match a.recycledFrames with
  | frame :: recycled =>
      (some frame, { a with
        recycledFrames := recycled
        allocatedFrames := a.allocatedFrames + 1
        lastAllocatedFrame := frame
        exhausted := false })
  | [] =>
      match bump (a.regions.drop a.currentRegion) a.currentRegion a.nextFrame with
      | (some frame, currentRegion, nextFrame) =>
          (some frame, { a with
            currentRegion
            nextFrame
            allocatedFrames := a.allocatedFrames + 1
            lastAllocatedFrame := frame })
      | (none, currentRegion, nextFrame) =>
          (none, { a with currentRegion, nextFrame, exhausted := true })

/-- The loop of `is_issued_frame` over the regions from `index` on. -/
def issuedIn (current next frame : Nat) : List AllocRegion → Nat → Bool
  | [], _ => false
  | region :: rest, index =>
      if region.start ≤ frame ∧ frame < region.stop then
        if index < current then true
        else if index = current then decide (frame < next)
        else false
      else issuedIn current next frame rest (index + 1)

def isIssuedFrame (a : FrameAllocator) (frame : Nat) : Bool :=
  issuedIn a.currentRegion a.nextFrame frame a.regions 0

def freeFrame (boot : BootInfo) (a : FrameAllocator) (frame : Nat) : Bool × FrameAllocator :=
  let a := a.ready boot
  if !isFrameAligned frame || frame < a.protectedUntil || !a.isIssuedFrame frame then (false, a)
  else if maxRecycledFrames ≤ a.recycledFrames.length then (false, a)
  else if a.recycledFrames.contains frame then (false, a)
  else
    (true, { a with
      recycledFrames := frame :: a.recycledFrames
      allocatedFrames := a.allocatedFrames - 1
      exhausted := false })

/-- The field of the snapshot that is computed. -/
def freeFrames (a : FrameAllocator) : Nat := a.allocatableFrames - a.allocatedFrames

end FrameAllocator

end CloudOS.PhysMem
