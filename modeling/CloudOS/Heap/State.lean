import CloudOS.Lib.Scan
import CloudOS.Lib.Word

/-!
The kernel heap of `src/heap.rs`: a table of blocks over 64 KiB of memory.

Offsets, sizes and addresses are `Nat`, with `satAdd` where the source
saturates; a saturating subtraction is the truncated one. The bytes behind
`HEAP_BASE`, which the source reaches through raw pointers, are the field
`memory`. A `for` loop that only searches is `Lib.Scan.first`; the loop that
mutates (`coalesce_free_blocks`) is one merge per iteration, within a bound
that is shown to suffice.
-/

namespace CloudOS.Heap

open Lib.Scan (first firstPair firstPair_eq_some)
open Lib.Word (satAdd maxWord isPowerOfTwo)

abbrev pageSize4k : Nat := 4096
abbrev heapBase : Nat := 0xffff_8000_0000_0000 + 0x0100_0000 + pageSize4k
abbrev heapSize : Nat := 64 * 1024
abbrev heapPages : Nat := heapSize / pageSize4k
abbrev heapSentinelBytes : Nat := 64
abbrev heapCanaryHead : Nat := 0x544f_4241_4343_4f48
abbrev heapCanaryTail : Nat := 0x4845_4150_5f4f_4b21
abbrev blockMagic : Nat := 0x4842_4c4f_434b_3031
abbrev allocCanaryHead : Nat := 0x4845_4150_4845_4144
abbrev allocCanaryTail : Nat := 0x4845_4150_5441_494c
abbrev allocCanaryBytes : Nat := 8
abbrev minSplitBytes : Nat := 32
abbrev maxBlocks : Nat := 96
abbrev recentFreeCount : Nat := 16
abbrev maxAlignment : Nat := pageSize4k

inductive FreeError where
  | notInitialized
  | invalidPointer
  | doubleFree
  | corruption
deriving DecidableEq, Repr

/-! ### Machine words and memory -/

/-- Memory as the heap code sees it: a byte for every address. -/
abbrev Memory := Nat → UInt8

/-- `value.saturating_add(align - 1) & !(align - 1)`. -/
def alignUp (value align : Nat) : Nat :=
  satAdd value (align - 1) &&& (maxWord ^^^ (align - 1))

def rangesOverlap (leftStart leftEnd rightStart rightEnd : Nat) : Bool :=
  decide (leftStart < rightEnd) && decide (rightStart < leftEnd)

/-- An unaligned little-endian store of eight bytes. -/
def writeU64 (memory : Memory) (address value : Nat) : Memory := fun a =>
  if address ≤ a ∧ a < address + 8 then UInt8.ofNat (value / 256 ^ (a - address)) else memory a

def readU64 (memory : Memory) (address : Nat) : Nat :=
  Nat.ofDigits 256 ((List.range 8).map fun k => (memory (address + k)).toNat)

/-! ### Blocks -/

structure HeapBlock where
  magic : Nat
  offset : Nat
  size : Nat
  payloadOffset : Nat
  requestedSize : Nat
  alignment : Nat
  allocated : Bool
  active : Bool
deriving DecidableEq, Repr

namespace HeapBlock

def empty : HeapBlock := ⟨0, 0, 0, 0, 0, 0, false, false⟩

def free (offset size : Nat) : HeapBlock := ⟨blockMagic, offset, size, 0, 0, 0, false, true⟩

/-- `end`. -/
def endOffset (block : HeapBlock) : Nat := satAdd block.offset block.size

def payloadEnd (block : HeapBlock) : Nat := satAdd block.payloadOffset block.requestedSize

/-- A free block, in the sense of the allocation and coalescing loops. -/
def available (block : HeapBlock) : Bool := block.active && !block.allocated

/-- The payload offset that `alloc` tries in this block. -/
def placement (block : HeapBlock) (effectiveAlign : Nat) : Nat :=
  alignUp (satAdd block.offset allocCanaryBytes) effectiveAlign

/-- The end of the used part, were the block chosen. -/
def usedEnd (block : HeapBlock) (size effectiveAlign : Nat) : Nat :=
  satAdd (satAdd (block.placement effectiveAlign) size) allocCanaryBytes

/-- The block as `alloc` rewrites it. -/
def taken (block : HeapBlock) (size effectiveAlign allocatedSize : Nat) : HeapBlock where
  magic := blockMagic
  offset := block.offset
  size := allocatedSize
  payloadOffset := block.placement effectiveAlign
  requestedSize := size
  alignment := effectiveAlign
  allocated := true
  active := true

/-- `shape_ok` of `compute_stats`. -/
def shapeOk (block : HeapBlock) : Bool :=
  decide (block.payloadOffset ≥ satAdd block.offset allocCanaryBytes)
    && decide (satAdd block.payloadEnd allocCanaryBytes ≤ block.endOffset)
    && decide (block.alignment ≥ allocCanaryBytes)
    && isPowerOfTwo block.alignment
    && decide (block.payloadOffset % block.alignment = 0)

end HeapBlock

structure HeapStats where
  allocatedBytes : Nat := 0
  freeBytes : Nat := 0
  largestFreeBlock : Nat := 0
  activeAllocations : Nat := 0
  freeBlocks : Nat := 0
  metadataBlocks : Nat := 0
  metadataOk : Bool := true
  allocationCanariesOk : Bool := true
deriving DecidableEq, Repr

structure KernelHeap where
  canaryHead : Nat
  initialized : Bool
  mappedPages : Nat
  allocations : Nat
  frees : Nat
  failedAllocations : Nat
  failedFrees : Nat
  doubleFrees : Nat
  invalidFrees : Nat
  coalesces : Nat
  highWatermark : Nat
  corruptionDetections : Nat
  blocks : Fin maxBlocks → HeapBlock
  recentFrees : Fin recentFreeCount → Nat
  recentFreeIndex : Fin recentFreeCount
  canaryTail : Nat
  memory : Memory

namespace KernelHeap

/-- `new`, over memory with any contents. -/
def new (memory : Memory) : KernelHeap where
  canaryHead := heapCanaryHead
  initialized := false
  mappedPages := 0
  allocations := 0
  frees := 0
  failedAllocations := 0
  failedFrees := 0
  doubleFrees := 0
  invalidFrees := 0
  coalesces := 0
  highWatermark := 0
  corruptionDetections := 0
  blocks := fun _ => HeapBlock.empty
  recentFrees := fun _ => 0
  recentFreeIndex := 0
  canaryTail := heapCanaryTail
  memory := memory

/-! ### Canaries and the sentinel -/

def sentinelByte (index : Nat) : UInt8 := 0x5a ^^^ (UInt8.ofNat index * 17)

def writeSentinel (h : KernelHeap) : KernelHeap :=
  { h with memory := fun a =>
      if heapBase ≤ a ∧ a < heapBase + heapSentinelBytes then sentinelByte (a - heapBase)
      else h.memory a }

def writeAllocationCanaries (h : KernelHeap) (index : Fin maxBlocks) : KernelHeap :=
  let block := h.blocks index
  let memory := writeU64 h.memory
    (satAdd heapBase block.payloadOffset - allocCanaryBytes) allocCanaryHead
  { h with memory := writeU64 memory (satAdd heapBase block.payloadEnd) allocCanaryTail }

def allocationCanariesOk (h : KernelHeap) (index : Fin maxBlocks) : Bool :=
  let block := h.blocks index
  if !block.active || !block.allocated then false
  else
    readU64 h.memory (satAdd heapBase block.payloadOffset - allocCanaryBytes) == allocCanaryHead
      && readU64 h.memory (satAdd heapBase block.payloadEnd) == allocCanaryTail

/-! ### Statistics -/

/-- The body of the loop of `compute_stats`; the second component is
`covered_bytes`. -/
def statsStep (h : KernelHeap) (acc : HeapStats × Nat) (index : Fin maxBlocks) : HeapStats × Nat :=
  let block := h.blocks index
  if !block.active then acc
  else
    let stats := acc.1
    let stats := { stats with metadataBlocks := satAdd stats.metadataBlocks 1 }
    let coveredBytes := satAdd acc.2 block.size
    let stats :=
      if block.magic != blockMagic || block.size == 0 || decide (block.offset < heapSentinelBytes)
          || decide (block.endOffset > heapSize) then
        { stats with metadataOk := false }
      else stats
    let stats :=
      if (List.finRange maxBlocks).any fun other => decide (index < other)
          && (h.blocks other).active
          && rangesOverlap block.offset block.endOffset (h.blocks other).offset
            (h.blocks other).endOffset then
        { stats with metadataOk := false }
      else stats
    let stats :=
      if block.allocated then
        let stats := { stats with
          activeAllocations := satAdd stats.activeAllocations 1
          allocatedBytes := satAdd stats.allocatedBytes block.requestedSize }
        if !block.shapeOk then
          { stats with metadataOk := false, allocationCanariesOk := false }
        else if !h.allocationCanariesOk index then { stats with allocationCanariesOk := false }
        else stats
      else
        { stats with
          freeBlocks := satAdd stats.freeBlocks 1
          freeBytes := satAdd stats.freeBytes block.size
          largestFreeBlock := max stats.largestFreeBlock block.size }
    (stats, coveredBytes)

@[irreducible] def computeStats (h : KernelHeap) : HeapStats :=
  let (stats, coveredBytes) := (List.finRange maxBlocks).foldl h.statsStep ({}, 0)
  let stats :=
    if h.initialized && coveredBytes != heapSize - heapSentinelBytes then
      { stats with metadataOk := false }
    else stats
  if decide (stats.metadataBlocks > maxBlocks)
      || decide (satAdd stats.allocatedBytes stats.freeBytes > heapSize) then
    { stats with metadataOk := false }
  else stats

def metadataOk (h : KernelHeap) (stats : HeapStats) : Bool :=
  h.canaryHead == heapCanaryHead
    && h.canaryTail == heapCanaryTail
    && decide (h.mappedPages ≤ heapPages)
    && (!h.initialized || h.mappedPages == heapPages)
    && stats.metadataOk

/-! ### Allocation -/

def failAllocation (h : KernelHeap) : KernelHeap :=
  { h with failedAllocations := satAdd h.failedAllocations 1 }

def freeMetadataSlot (h : KernelHeap) : Option (Fin maxBlocks) :=
  first fun index => !(h.blocks index).active

/-- The first block that neither `continue` of the loop skips. -/
def findBlock (h : KernelHeap) (size effectiveAlign : Nat) : Option (Fin maxBlocks) :=
  first fun index => (h.blocks index).available
    && !decide ((h.blocks index).usedEnd size effectiveAlign > (h.blocks index).endOffset)

/-- The table after the block at `index` was taken, split if it is worth it and
a metadata slot is left. -/
@[irreducible] def carve (h : KernelHeap) (index : Fin maxBlocks) (size effectiveAlign : Nat) :
    KernelHeap :=
  let block := h.blocks index
  let usedEnd := block.usedEnd size effectiveAlign
  let remainder := block.endOffset - usedEnd
  let allocatedSize := if remainder ≥ minSplitBytes then usedEnd - block.offset else block.size
  let h := { h with
    blocks := Function.update h.blocks index (block.taken size effectiveAlign allocatedSize) }
  if remainder ≥ minSplitBytes then
    match h.freeMetadataSlot with
    | some slot =>
        { h with blocks := Function.update h.blocks slot (HeapBlock.free usedEnd remainder) }
    | none =>
        { h with
          blocks := Function.update h.blocks index { h.blocks index with size := block.size } }
  else h

/-- The heap after the block at `index` was chosen. -/
def commit (h : KernelHeap) (index : Fin maxBlocks) (size effectiveAlign : Nat) : KernelHeap :=
  let h := (h.carve index size effectiveAlign).writeAllocationCanaries index
  let h := { h with allocations := satAdd h.allocations 1 }
  { h with highWatermark := max h.highWatermark h.computeStats.allocatedBytes }

def alloc (h : KernelHeap) (size align : Nat) : Option Nat × KernelHeap :=
  if !h.initialized || !h.metadataOk h.computeStats || size == 0 then (none, h.failAllocation)
  else if align == 0 || !isPowerOfTwo align || decide (align > maxAlignment) then
    (none, h.failAllocation)
  else
    let effectiveAlign := max align allocCanaryBytes
    match h.findBlock size effectiveAlign with
    | none => (none, h.failAllocation)
    | some index =>
        (some (satAdd heapBase ((h.blocks index).placement effectiveAlign)),
          h.commit index size effectiveAlign)

/-! ### Release -/

def findAllocatedBlock (h : KernelHeap) (address : Nat) : Option (Fin maxBlocks) :=
  if address < heapBase then none
  else
    first fun index => (h.blocks index).active && (h.blocks index).allocated
      && (h.blocks index).payloadOffset == address - heapBase

def addRecentFree (h : KernelHeap) (address : Nat) : KernelHeap :=
  { h with
    recentFrees := Function.update h.recentFrees h.recentFreeIndex address
    recentFreeIndex := h.recentFreeIndex + 1 }

def wasRecentlyFreed (h : KernelHeap) (address : Nat) : Bool :=
  if address = 0 then false
  else (List.finRange recentFreeCount).any fun k => h.recentFrees k == address

/-- Whether the inner loop of `coalesce_free_blocks` merges `right` into `left`. -/
def mergeable (h : KernelHeap) (left right : Fin maxBlocks) : Bool :=
  left != right && (h.blocks right).available
    && ((h.blocks left).endOffset == (h.blocks right).offset
      || (h.blocks right).endOffset == (h.blocks left).offset)

/-- The first pair that the two nested loops would merge. -/
def findMerge (h : KernelHeap) : Option (Fin maxBlocks × Fin maxBlocks) :=
  firstPair fun left right => (h.blocks left).available && h.mergeable left right

def merge (h : KernelHeap) (left right : Fin maxBlocks) : KernelHeap :=
  let l := h.blocks left
  let r := h.blocks right
  let merged :=
    if l.endOffset = r.offset then { l with size := satAdd l.size r.size }
    else { l with offset := r.offset, size := satAdd l.size r.size }
  { h with
    blocks := Function.update (Function.update h.blocks left merged) right HeapBlock.empty
    coalesces := satAdd h.coalesces 1 }

/-- The `while changed` loop, within a bound. -/
def coalesceLoop : Nat → KernelHeap → Option KernelHeap
  | 0, _ => none
  | bound + 1, h =>
      match h.findMerge with
      | none => some h
      | some (left, right) => coalesceLoop bound (h.merge left right)

/-- The number of active blocks. -/
@[irreducible] def activeCount (h : KernelHeap) : Nat :=
  (Finset.univ.filter fun index => (h.blocks index).active = true).card

theorem findMerge_eq_some {h : KernelHeap} {left right : Fin maxBlocks}
    (found : h.findMerge = some (left, right)) :
    (h.blocks left).available = true ∧ h.mergeable left right = true := by
  simpa using firstPair_eq_some found

/-- A merge uses up one block. -/
theorem merge_activeCount {h : KernelHeap} {left right : Fin maxBlocks}
    (found : h.findMerge = some (left, right)) :
    (h.merge left right).activeCount < h.activeCount := by
  obtain ⟨available, mergeable⟩ := findMerge_eq_some found
  simp only [KernelHeap.mergeable, HeapBlock.available, Bool.and_eq_true, bne_iff_ne,
    Bool.not_eq_true'] at available mergeable
  obtain ⟨⟨different, activeRight, -⟩, -⟩ := mergeable
  unfold activeCount
  refine Finset.card_lt_card (Finset.ssubset_iff_of_subset ?_ |>.mpr ⟨right, ?_, ?_⟩)
  · intro index mem
    simp only [Finset.mem_filter, Finset.mem_univ, true_and, merge, Function.update_apply] at mem ⊢
    split at mem
    · cases mem
    · split at mem
      · rename_i isLeft
        rw [isLeft]
        exact available.1
      · exact mem
  · simpa using activeRight
  · rw [Finset.mem_filter, merge]
    simp only [Function.update_self]
    rintro ⟨-, active⟩
    cases active

/-- There are at most as many merges as blocks. -/
theorem coalesceLoop_isSome {bound : Nat} {h : KernelHeap} (enough : h.activeCount + 1 ≤ bound) :
    (coalesceLoop bound h).isSome = true := by
  induction bound generalizing h with
  | zero => omega
  | succ bound ih =>
      rw [coalesceLoop]
      cases found : h.findMerge with
      | none => rfl
      | some pair =>
          have fewer := merge_activeCount found
          exact ih (by omega)

def coalesceFreeBlocks (h : KernelHeap) : KernelHeap :=
  (coalesceLoop (h.activeCount + 1) h).get (coalesceLoop_isSome le_rfl)

def failFree (h : KernelHeap) : KernelHeap :=
  { h with failedFrees := satAdd h.failedFrees 1 }

/-- The block at `index` as a free block, before coalescing. -/
def release (h : KernelHeap) (index : Fin maxBlocks) : KernelHeap :=
  { h with
    blocks := Function.update h.blocks index { h.blocks index with
      allocated := false
      payloadOffset := 0
      requestedSize := 0
      alignment := 0 }
    frees := satAdd h.frees 1 }

def free (h : KernelHeap) (address : Nat) : Except FreeError Unit × KernelHeap :=
  if !h.initialized then (.error .notInitialized, h.failFree)
  else
    match h.findAllocatedBlock address with
    | some index =>
        if !h.allocationCanariesOk index then
          (.error .corruption, { h.failFree with
            corruptionDetections := satAdd h.corruptionDetections 1 })
        else (.ok (), ((h.release index).addRecentFree address).coalesceFreeBlocks)
    | none =>
        let h := h.failFree
        if h.wasRecentlyFreed address then
          (.error .doubleFree, { h with doubleFrees := satAdd h.doubleFrees 1 })
        else (.error .invalidPointer, { h with invalidFrees := satAdd h.invalidFrees 1 })

def resetAllocator (h : KernelHeap) : KernelHeap :=
  { h with
    blocks := Function.update (fun _ => HeapBlock.empty) 0
      (HeapBlock.free heapSentinelBytes (heapSize - heapSentinelBytes))
    recentFrees := fun _ => 0
    recentFreeIndex := 0
    highWatermark := 0 }.writeSentinel

/-- `init`, given the number of pages that could be mapped. -/
def init (h : KernelHeap) (mappedPages : Nat) : KernelHeap :=
  if h.initialized then h
  else
    let h := { h with mappedPages, initialized := mappedPages == heapPages }
    if h.initialized then h.resetAllocator else h

end KernelHeap

/-! ### Runs -/

/-- A call of the allocator, or a client's store of one byte. -/
inductive HeapOp where
  | alloc (size align : Nat)
  | free (address : Nat)
  | write (address : Nat) (byte : UInt8)

def step (h : KernelHeap) : HeapOp → KernelHeap
  | .alloc size align => (h.alloc size align).2
  | .free address => (h.free address).2
  | .write address byte => { h with memory := Function.update h.memory address byte }

def run (h : KernelHeap) (ops : List HeapOp) : KernelHeap := ops.foldl step h

end CloudOS.Heap
