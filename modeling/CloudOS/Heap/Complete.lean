import CloudOS.Heap.Tiling

/-!
Allocation is complete: it fails only where no placement exists.

The loop of `alloc` tries one place in each block, the lowest aligned one. That
is enough because free blocks are maximal: no free block ends where another
one starts, so that a stretch of free bytes lies in a single block. A split
leaves its remainder next to the block just taken and to whatever followed the
old block, neither of them free; `coalesce_free_blocks` runs until no pair is
left to merge.
-/

namespace CloudOS.Heap

open Lib.Scan (first_eq_none firstPair_eq_none)
open Lib.Word (satAdd maxWord satAdd_of_le isPowerOfTwo_iff)

/-! ### The best placement -/

/-- No multiple of the alignment lies between a value and its rounding. -/
theorem alignUp_le {value align p : Nat} (power : align.isPowerOfTwo)
    (fits : value + (align - 1) ≤ maxWord) (multiple : align ∣ p) (above : value ≤ p) :
    alignUp value align ≤ p := by
  have positive := Nat.pos_of_isPowerOfTwo power
  obtain ⟨k, rfl⟩ := multiple
  rw [alignUp_eq power fits, Nat.mul_comm align k]
  refine Nat.mul_le_mul_right align (Nat.lt_succ_iff.mp ?_)
  rw [Nat.div_lt_iff_lt_mul positive, Nat.succ_mul, Nat.mul_comm k align]
  omega

/-! ### Maximal free blocks -/

/-- No free block ends where another one starts. -/
def Maximal (blocks : Fin maxBlocks → HeapBlock) : Prop :=
  ∀ i j, i ≠ j → (blocks i).available = true → (blocks j).available = true →
    (blocks i).offset + (blocks i).size ≠ (blocks j).offset

/-- Taking a block leaves the other free blocks as they were. -/
theorem Maximal.take {blocks : Fin maxBlocks → HeapBlock} (maximal : Maximal blocks)
    {index : Fin maxBlocks} {block : HeapBlock} (taken : block.available = false) :
    Maximal (Function.update blocks index block) := by
  have old : ∀ k, (Function.update blocks index block k).available = true →
      Function.update blocks index block k = blocks k := by
    intro k free
    by_cases here : k = index
    · rw [here, Function.update_self, taken] at free
      cases free
    · exact Function.update_of_ne here _ _
  intro i j different availableI availableJ
  have sameI := old i availableI
  have sameJ := old j availableJ
  rw [sameI] at availableI ⊢
  rw [sameJ] at availableJ ⊢
  exact maximal i j different availableI availableJ

/-- A new block that touches no free block. -/
theorem Maximal.insert {blocks : Fin maxBlocks → HeapBlock} (maximal : Maximal blocks)
    {slot : Fin maxBlocks} {block : HeapBlock}
    (apart : ∀ i, i ≠ slot → (blocks i).available = true →
      (blocks i).offset + (blocks i).size ≠ block.offset ∧
        block.offset + block.size ≠ (blocks i).offset) :
    Maximal (Function.update blocks slot block) := by
  intro i j different availableI availableJ
  by_cases isI : i = slot
  · have notJ : j ≠ slot := fun isJ => different (isI.trans isJ.symm)
    rw [Function.update_of_ne notJ] at availableJ ⊢
    rw [isI, Function.update_self]
    exact (apart j notJ availableJ).2
  · rw [Function.update_of_ne isI] at availableI ⊢
    by_cases isJ : j = slot
    · rw [isJ, Function.update_self]
      exact (apart i isI availableI).1
    · rw [Function.update_of_ne isJ] at availableJ ⊢
      exact maximal i j different availableI availableJ

theorem HeapBlock.available_iff {block : HeapBlock} :
    block.available = true ↔ block.active = true ∧ block.allocated = false := by
  simp [HeapBlock.available]

namespace KernelHeap

/-- The byte belongs to a free block. -/
def FreeByte (h : KernelHeap) (x : Nat) : Prop :=
  ∃ i, (h.blocks i).available = true ∧ (h.blocks i).offset ≤ x ∧
    x < (h.blocks i).offset + (h.blocks i).size

/-- A stretch of free bytes lies in one block: where the block under its first byte
ended, another free block would have to start. -/
theorem FreeByte.stretch {h : KernelHeap} (tiled : Tiled h.blocks) (maximal : Maximal h.blocks)
    {low high : Nat} (nonempty : low < high)
    (free : ∀ x, low ≤ x → x < high → h.FreeByte x) :
    ∃ i, (h.blocks i).available = true ∧ (h.blocks i).offset ≤ low ∧
      high ≤ (h.blocks i).offset + (h.blocks i).size := by
  obtain ⟨i, available, start, inside⟩ := free low le_rfl nonempty
  refine ⟨i, available, start, ?_⟩
  by_contra short
  obtain ⟨j, available', start', inside'⟩ :=
    free ((h.blocks i).offset + (h.blocks i).size) (by omega) (by omega)
  have different : i ≠ j := by
    rintro rfl
    omega
  have apart := tiled.apart different (HeapBlock.available_iff.mp available).1
    (HeapBlock.available_iff.mp available').1
  exact maximal i j different available available' (by omega)

/-- Coalescing ends when the two loops find no pair. -/
theorem coalesceFreeBlocks_findMerge (h : KernelHeap) : h.coalesceFreeBlocks.findMerge = none := by
  have run : coalesceLoop (h.activeCount + 1) h = some h.coalesceFreeBlocks :=
    (Option.some_get _).symm
  generalize h.activeCount + 1 = bound at run
  generalize h.coalesceFreeBlocks = result at run
  induction bound generalizing h with
  | zero => cases run
  | succ bound ih =>
      rw [coalesceLoop] at run
      cases found : h.findMerge with
      | none =>
          rw [found] at run
          cases run
          exact found
      | some pair =>
          rw [found] at run
          exact ih _ run

theorem maximal_of_findMerge {h : KernelHeap} (tiled : Tiled h.blocks)
    (missing : h.findMerge = none) : Maximal h.blocks := by
  intro i j different availableI availableJ meets
  have none := firstPair_eq_none missing i j
  have endOffset := tiled.endOffset (HeapBlock.available_iff.mp availableI).1
  simp [mergeable, availableI, availableJ, different, endOffset, meets] at none

/-- A fresh heap is one free block. -/
theorem resetAllocator_maximal (h : KernelHeap) : Maximal h.resetAllocator.blocks := by
  have table : h.resetAllocator.blocks = Function.update (fun _ => HeapBlock.empty) 0
      (HeapBlock.free heapSentinelBytes (heapSize - heapSentinelBytes)) := rfl
  have only : ∀ i, (h.resetAllocator.blocks i).available = true → i = 0 := by
    intro i available
    by_contra other
    rw [table, Function.update_of_ne other] at available
    cases available
  intro i j different availableI availableJ
  exact absurd ((only i availableI).trans (only j availableJ).symm) different

/-- The rest of a split block has an allocated one before it. -/
theorem carve_maximal {h : KernelHeap} (tiled : Tiled h.blocks) (maximal : Maximal h.blocks)
    {size align : Nat} (alignment : Alignment align) {index : Fin maxBlocks}
    (found : h.findBlock size align = some index) :
    Maximal (h.carve index size align).blocks := by
  obtain ⟨active, unallocated, fits⟩ := findBlock_eq_some found
  have placed := tiled.placed active alignment fits
  have available : (h.blocks index).available = true :=
    HeapBlock.available_iff.mpr ⟨active, unallocated⟩
  rcases h.carve_blocks index size align with ⟨slot, other, inactive, large, blocks⟩ | blocks
  · rw [blocks]
    refine Maximal.insert (maximal.take rfl) fun i notSlot free => ?_
    have notIndex : i ≠ index := by
      rintro rfl
      rw [Function.update_self] at free
      cases free
    rw [Function.update_of_ne notIndex] at free ⊢
    -- the remainder starts inside the old block and ends where that one ended
    have activeI := (HeapBlock.available_iff.mp free).1
    have nonempty := (tiled.formed i activeI).nonempty
    have apart := tiled.apart notIndex activeI active
    have follows := maximal index i (Ne.symm notIndex) available free
    have usedEnd := placed.usedEnd_eq
    have front := placed.front
    have within := placed.remainder
    rw [placed.blockEnd]
    simp only [HeapBlock.free, allocCanaryBytes] at *
    omega
  · rw [blocks]
    exact maximal.take rfl

/-! ### Runs -/

/-- A sound heap whose free blocks are maximal. -/
structure Coalesced (h : KernelHeap) : Prop extends Sound h where
  maximal : Maximal h.blocks

/-- An allocation makes no two neighbours free. -/
theorem Coalesced.alloc {h : KernelHeap} (coalesced : h.Coalesced) (size align : Nat) :
    (h.alloc size align).2.Coalesced := by
  refine ⟨alloc_sound coalesced.toSound size align, ?_⟩
  rcases coalesced.toSound.alloc_cases size align with
    ⟨eq, -⟩ | ⟨index, _, h', eq, -, -, -, -, allocates⟩
  · rw [eq]
    exact coalesced.maximal
  · rw [eq, allocates.blocks]
    exact carve_maximal coalesced.tiled coalesced.maximal allocates.alignment allocates.found

/-- After a free, neighbours are merged until none are left. -/
theorem Coalesced.free {h : KernelHeap} (coalesced : h.Coalesced) (address : Nat) :
    (h.free address).2.Coalesced := by
  have sound := free_sound coalesced.toSound address
  refine ⟨sound, ?_⟩
  have tiled := sound.tiled
  unfold KernelHeap.free at tiled ⊢
  split
  · exact coalesced.maximal
  · rename_i initialized
    rw [if_neg initialized] at tiled
    cases found : h.findAllocatedBlock address with
    | none =>
        dsimp only
        split
        · exact coalesced.maximal
        · exact coalesced.maximal
    | some index =>
        rw [found] at tiled
        dsimp only at tiled ⊢
        split
        · exact coalesced.maximal
        · rename_i canaries
          rw [if_neg canaries] at tiled
          exact maximal_of_findMerge tiled (coalesceFreeBlocks_findMerge _)

end KernelHeap

theorem step_coalesced {h : KernelHeap} (coalesced : h.Coalesced) (op : HeapOp) :
    (step h op).Coalesced := by
  cases op with
  | alloc size align => exact coalesced.alloc size align
  | free address => exact coalesced.free address
  | write address byte =>
      exact ⟨KernelHeap.step_sound coalesced.toSound (.write address byte), coalesced.maximal⟩

theorem run_coalesced {h : KernelHeap} (coalesced : h.Coalesced) (ops : List HeapOp) :
    (run h ops).Coalesced := by
  induction ops generalizing h with
  | nil => exact coalesced
  | cons op ops ih => exact ih (step_coalesced coalesced op)

theorem Reached.coalesced {h : KernelHeap} (reached : Reached h) : h.Coalesced := by
  obtain ⟨start, ops, ready, rfl⟩ := reached
  exact run_coalesced
    ⟨KernelHeap.resetAllocator_sound ready, KernelHeap.resetAllocator_maximal start⟩ ops

/-! ### Completeness -/

namespace KernelHeap

/-- Room for an allocation: an aligned offset with free bytes for the payload and a
canary on either side of it. -/
def Room (h : KernelHeap) (size align : Nat) : Prop :=
  ∃ p, max align allocCanaryBytes ∣ p ∧ allocCanaryBytes ≤ p ∧
    ∀ x, p - allocCanaryBytes ≤ x → x < p + size + allocCanaryBytes → h.FreeByte x

/-- A block that is carved had room for the request. -/
theorem Allocates.room {h h' : KernelHeap} {size align address : Nat} {index : Fin maxBlocks}
    (allocates : h.Allocates size align index address h') : h.Room size align := by
  obtain ⟨active, unallocated, -⟩ := findBlock_eq_some allocates.found
  have placed := allocates.placed
  have usedEnd := placed.usedEnd_eq
  have front := placed.front
  have within := placed.remainder
  refine ⟨_, Nat.dvd_of_mod_eq_zero placed.aligned, by omega, fun x low high => ?_⟩
  exact ⟨index, HeapBlock.available_iff.mpr ⟨active, unallocated⟩, by omega, by omega⟩

/-- Where there is room, the loop of `alloc` finds a block. -/
theorem Coalesced.findBlock_isSome {h : KernelHeap} (coalesced : h.Coalesced) {size align : Nat}
    (alignment : Alignment (max align allocCanaryBytes)) (room : h.Room size align) :
    h.findBlock size (max align allocCanaryBytes) ≠ none := by
  intro missing
  obtain ⟨p, multiple, above, free⟩ := room
  obtain ⟨i, available, low, high⟩ := FreeByte.stretch coalesced.tiled coalesced.maximal
    (show p - allocCanaryBytes < p + size + allocCanaryBytes by
      simp only [allocCanaryBytes]
      omega) free
  have active := (HeapBlock.available_iff.mp available).1
  have bound := (coalesced.tiled.bounds active).2
  have page := alignment.page
  have canary : satAdd (h.blocks i).offset allocCanaryBytes =
      (h.blocks i).offset + allocCanaryBytes :=
    satAdd_of_le (by simp only [maxWord, heapSize, allocCanaryBytes] at *; omega)
  have placement : (h.blocks i).placement (max align allocCanaryBytes) ≤ p := by
    rw [HeapBlock.placement, canary]
    refine alignUp_le alignment.power ?_ multiple (by omega)
    simp only [maxWord, heapSize, maxAlignment, pageSize4k] at *
    omega
  have fits : (h.blocks i).usedEnd size (max align allocCanaryBytes) ≤ (h.blocks i).endOffset := by
    have payloadEnd : satAdd ((h.blocks i).placement (max align allocCanaryBytes)) size ≤
        (h.blocks i).placement (max align allocCanaryBytes) + size := Nat.min_le_left _ _
    have usedEnd : (h.blocks i).usedEnd size (max align allocCanaryBytes) ≤
        satAdd ((h.blocks i).placement (max align allocCanaryBytes)) size + allocCanaryBytes :=
      Nat.min_le_left _ _
    rw [coalesced.tiled.endOffset active]
    omega
  have skipped := first_eq_none.mp missing i
  simp only [available, Bool.true_and, Bool.not_eq_false', decide_eq_true_eq] at skipped
  omega

end KernelHeap

/-- Completeness of the allocator. In every reached state `alloc` accepts exactly
the sizes above zero and the powers of two up to a page for which some aligned
offset has free bytes all around its payload and canaries; where it refuses,
the block table stays as it was. -/
theorem alloc_complete {h : KernelHeap} (reached : Reached h) (size align : Nat) :
    ((h.alloc size align).1 ≠ none ↔
      0 < size ∧ align.isPowerOfTwo ∧ align ≤ maxAlignment ∧ h.Room size align) ∧
    ((h.alloc size align).1 = none → (h.alloc size align).2.blocks = h.blocks) := by
  have coalesced := reached.coalesced
  rcases coalesced.toSound.alloc_cases size align with
    ⟨eq, refused⟩ | ⟨index, address, h', eq, -, nonzero, power, page, allocates⟩
  · rw [eq]
    refine ⟨⟨fun accepted => absurd rfl accepted, ?_⟩, fun _ => rfl⟩
    rintro ⟨positive, power, page, room⟩ -
    rw [← isPowerOfTwo_iff] at power
    rcases refused with zero | argument | missing
    · omega
    · exact argument ⟨power, page⟩
    · exact coalesced.findBlock_isSome (alignment_max power page) room missing
  · rw [eq]
    refine ⟨⟨fun _ => ?_, fun _ => nofun⟩, nofun⟩
    exact ⟨Nat.pos_of_ne_zero nonzero, isPowerOfTwo_iff.mp power, page, allocates.room⟩

/-- Two neighbours are freed; their room is a third allocation's. -/
def mergeRun : List HeapOp :=
  [.alloc 100 16, .alloc 64 8, .alloc 8 1, .free (heapBase + 80), .free (heapBase + 200)]

theorem alloc_complete_mergeRun :
    ((run blankHeap.resetAllocator mergeRun).alloc 180 16).1 ≠ none := by
  refine (alloc_complete ⟨blankHeap, _, ⟨rfl, rfl, rfl, rfl⟩, rfl⟩ 180 16).1.mpr
    ⟨by decide, ⟨4, rfl⟩, by decide, 80, by decide, by decide, fun x low high => ?_⟩
  have merged : (run blankHeap.resetAllocator mergeRun).blocks 0 = HeapBlock.free 64 208 := by
    decide +kernel
  refine ⟨0, ?_⟩
  rw [merged]
  exact ⟨rfl, le_trans (by decide) low, lt_of_lt_of_le high (by decide)⟩

end CloudOS.Heap
