import CloudOS.Heap.State
import CloudOS.Lib.Partition

/-!
The active blocks tile the heap.

The area of a block is the set of offsets it covers. `Tiled` says that the areas
partition everything behind the sentinel and that every allocated block has
room for its payload and both canaries. Allocation splits an area, coalescing
merges two, and nothing else moves a boundary, so the tiling survives every
call; the statistics then find nothing to complain about.
-/

namespace CloudOS.Heap

open Lib.Partition (IsPartition)
open Lib.Scan (first_eq_some first_eq_none)
open Lib.Word (satAdd maxWord satAdd_of_le isPowerOfTwo isPowerOfTwo_iff)

/-! ### Alignment -/

theorem alignUp_eq {value align : Nat} (power : align.isPowerOfTwo)
    (fits : value + (align - 1) ≤ maxWord) :
    alignUp value align = (value + (align - 1)) / align * align := by
  obtain ⟨k, rfl⟩ := power
  rw [alignUp, satAdd_of_le fits, Lib.Word.and_not_low_mask fits]

/-- Rounding up reaches the next multiple, less than one alignment away. -/
theorem alignUp_spec {value align : Nat} (power : align.isPowerOfTwo)
    (fits : value + (align - 1) ≤ maxWord) :
    value ≤ alignUp value align ∧ alignUp value align % align = 0 := by
  have positive := Nat.pos_of_isPowerOfTwo power
  rw [alignUp_eq power fits]
  refine ⟨?_, Nat.mul_mod_left _ _⟩
  have split := Nat.div_add_mod' (value + (align - 1)) align
  have rest := Nat.mod_lt (value + (align - 1)) positive
  omega

/-- The alignments that `alloc` works with. -/
structure Alignment (align : Nat) : Prop where
  power : align.isPowerOfTwo
  canary : allocCanaryBytes ≤ align
  page : align ≤ maxAlignment

theorem alignment_max {align : Nat} (power : isPowerOfTwo align = true)
    (page : align ≤ maxAlignment) : Alignment (max align allocCanaryBytes) := by
  refine ⟨?_, Nat.le_max_right _ _, Nat.max_le.mpr ⟨page, by decide⟩⟩
  rcases Nat.le_total align allocCanaryBytes with small | large
  · rw [Nat.max_eq_right small]
    exact ⟨3, rfl⟩
  · rw [Nat.max_eq_left large]
    exact isPowerOfTwo_iff.mp power

/-! ### Areas -/

namespace HeapBlock

/-- The offsets that an active block covers. -/
def area (block : HeapBlock) : Finset Nat :=
  if block.active then Finset.Ico block.offset (block.offset + block.size) else ∅

theorem mem_area {block : HeapBlock} {x : Nat} :
    x ∈ block.area ↔ block.active = true ∧ block.offset ≤ x ∧ x < block.offset + block.size := by
  unfold area
  by_cases active : block.active = true
  · simp [active]
  · simp [active]

theorem area_of_active {block : HeapBlock} (active : block.active = true) :
    block.area = Finset.Ico block.offset (block.offset + block.size) := if_pos active

theorem area_of_inactive {block : HeapBlock} (inactive : block.active = false) :
    block.area = ∅ := if_neg (by simp [inactive])

/-- Payload and canaries lie inside the block, the payload where it should. -/
structure Shaped (block : HeapBlock) : Prop where
  front : block.offset + allocCanaryBytes ≤ block.payloadOffset
  back : block.payloadOffset + block.requestedSize + allocCanaryBytes ≤ block.offset + block.size
  power : block.alignment.isPowerOfTwo
  canary : allocCanaryBytes ≤ block.alignment
  aligned : block.payloadOffset % block.alignment = 0

structure WellFormed (block : HeapBlock) : Prop where
  magic : block.magic = blockMagic
  nonempty : 0 < block.size
  shaped : block.allocated = true → block.Shaped

end HeapBlock

/-- The invariant of the block table. -/
structure Tiled (blocks : Fin maxBlocks → HeapBlock) : Prop where
  partition : IsPartition (Finset.Ico heapSentinelBytes heapSize) fun i => (blocks i).area
  formed : ∀ i, (blocks i).active = true → (blocks i).WellFormed

/-- Every block lies between the sentinels. -/
theorem Tiled.bounds {blocks : Fin maxBlocks → HeapBlock} (tiled : Tiled blocks)
    {i : Fin maxBlocks} (active : (blocks i).active = true) :
    heapSentinelBytes ≤ (blocks i).offset ∧ (blocks i).offset + (blocks i).size ≤ heapSize := by
  have nonempty := (tiled.formed i active).nonempty
  have inside := tiled.partition.subset i
  have low := inside (HeapBlock.mem_area.mpr ⟨active, le_refl (blocks i).offset, by omega⟩)
  have high := inside (HeapBlock.mem_area.mpr
    ⟨active, show (blocks i).offset ≤ (blocks i).offset + (blocks i).size - 1 by omega, by omega⟩)
  rw [Finset.mem_Ico] at low high
  omega

theorem Tiled.endOffset {blocks : Fin maxBlocks → HeapBlock} (tiled : Tiled blocks)
    {i : Fin maxBlocks} (active : (blocks i).active = true) :
    (blocks i).endOffset = (blocks i).offset + (blocks i).size := by
  have := (tiled.bounds active).2
  exact satAdd_of_le (by simp only [maxWord, heapSize] at *; omega)

/-- Distinct active blocks do not overlap, end to end. -/
theorem Tiled.apart {blocks : Fin maxBlocks → HeapBlock} (tiled : Tiled blocks)
    {i j : Fin maxBlocks} (different : i ≠ j) (activeI : (blocks i).active = true)
    (activeJ : (blocks j).active = true) :
    (blocks i).offset + (blocks i).size ≤ (blocks j).offset ∨
      (blocks j).offset + (blocks j).size ≤ (blocks i).offset := by
  have nonemptyI := (tiled.formed i activeI).nonempty
  have nonemptyJ := (tiled.formed j activeJ).nonempty
  by_contra overlap
  have disjoint := Finset.disjoint_left.mp (tiled.partition.disjoint i j different)
  refine disjoint (a := max (blocks i).offset (blocks j).offset)
    (HeapBlock.mem_area.mpr ⟨activeI, Nat.le_max_left _ _, ?_⟩)
    (HeapBlock.mem_area.mpr ⟨activeJ, Nat.le_max_right _ _, ?_⟩)
  · omega
  · omega

/-! ### Changes of the table -/

/-- Rewriting a block without moving it. -/
theorem Tiled.rewrite {blocks : Fin maxBlocks → HeapBlock} (tiled : Tiled blocks)
    {i : Fin maxBlocks} {block : HeapBlock} (area : block.area = (blocks i).area)
    (formed : block.active = true → block.WellFormed) :
    Tiled (Function.update blocks i block) := by
  refine ⟨?_, fun j active => ?_⟩
  · refine tiled.partition.redistribute (i := i) (j := i) (fun j other _ => ?_) ?_
      (fun different => absurd rfl different)
    · rw [Function.update_of_ne other]
    · rw [Function.update_self, area]
  · by_cases here : j = i
    · subst here
      rw [Function.update_self] at active ⊢
      exact formed active
    · rw [Function.update_of_ne here] at active ⊢
      exact tiled.formed j active

/-- Moving offsets between two blocks. -/
theorem Tiled.exchange {blocks : Fin maxBlocks → HeapBlock} (tiled : Tiled blocks)
    {i j : Fin maxBlocks} {a b : HeapBlock} (different : i ≠ j)
    (union : a.area ∪ b.area = (blocks i).area ∪ (blocks j).area)
    (apart : Disjoint a.area b.area) (formedA : a.active = true → a.WellFormed)
    (formedB : b.active = true → b.WellFormed) :
    Tiled (Function.update (Function.update blocks i a) j b) := by
  have atI : Function.update (Function.update blocks i a) j b i = a := by
    rw [Function.update_of_ne different, Function.update_self]
  have atJ : Function.update (Function.update blocks i a) j b j = b := Function.update_self ..
  refine ⟨?_, fun k active => ?_⟩
  · refine tiled.partition.redistribute (i := i) (j := j) (fun k notI notJ => ?_) ?_ (fun _ => ?_)
    · rw [Function.update_of_ne notJ, Function.update_of_ne notI]
    · rw [atI, atJ, union]
    · rw [atI, atJ]
      exact apart
  · by_cases isJ : k = j
    · subst isJ
      rw [atJ] at active ⊢
      exact formedB active
    · by_cases isI : k = i
      · subst isI
        rw [atI] at active ⊢
        exact formedA active
      · rw [Function.update_of_ne isJ, Function.update_of_ne isI] at active ⊢
        exact tiled.formed k active

/-! ### Placing an allocation -/

/-- An accepted placement, in exact arithmetic: no sum on the way to it exceeds a
word, and no difference is cut off at zero. -/
structure HeapBlock.Placed (block : HeapBlock) (size align : Nat) : Prop where
  blockEnd : block.endOffset = block.offset + block.size
  canary : satAdd block.offset allocCanaryBytes = block.offset + allocCanaryBytes
  rounding : satAdd (block.offset + allocCanaryBytes) (align - 1) =
    block.offset + allocCanaryBytes + (align - 1)
  payloadEnd : satAdd (block.placement align) size = block.placement align + size
  usedEnd : satAdd (block.placement align + size) allocCanaryBytes =
    block.placement align + size + allocCanaryBytes
  address : satAdd heapBase (block.placement align) = heapBase + block.placement align
  tailAddress : satAdd heapBase (block.placement align + size) =
    heapBase + (block.placement align + size)
  remainder : block.usedEnd size align ≤ block.offset + block.size
  used : block.offset ≤ block.usedEnd size align
  front : block.offset + allocCanaryBytes ≤ block.placement align
  aligned : block.placement align % align = 0

theorem HeapBlock.Placed.usedEnd_eq {block : HeapBlock} {size align : Nat}
    (placed : block.Placed size align) :
    block.usedEnd size align = block.placement align + size + allocCanaryBytes := by
  rw [HeapBlock.usedEnd, placed.payloadEnd, placed.usedEnd]

/-- A payload is placed behind its canary, at the alignment, and before the end of the block. -/
theorem Tiled.placed {blocks : Fin maxBlocks → HeapBlock} (tiled : Tiled blocks)
    {i : Fin maxBlocks} (active : (blocks i).active = true) {size align : Nat}
    (alignment : Alignment align)
    (fits : (blocks i).usedEnd size align ≤ (blocks i).endOffset) :
    (blocks i).Placed size align := by
  have page : align ≤ 4096 := alignment.page
  obtain ⟨low, high⟩ := tiled.bounds active
  have blockEnd := tiled.endOffset active
  rw [blockEnd] at fits
  have canary : satAdd (blocks i).offset allocCanaryBytes =
      (blocks i).offset + allocCanaryBytes :=
    satAdd_of_le (by simp only [maxWord, heapSize, allocCanaryBytes] at *; omega)
  have room : (blocks i).offset + allocCanaryBytes + (align - 1) ≤ maxWord := by
    simp only [maxWord, heapSize, allocCanaryBytes] at *
    omega
  obtain ⟨front, aligned⟩ := alignUp_spec alignment.power room
  have placement : (blocks i).placement align =
      alignUp ((blocks i).offset + allocCanaryBytes) align := by
    rw [HeapBlock.placement, canary]
  rw [← placement] at front aligned
  -- a saturated sum would exceed every block end
  have exact : (blocks i).placement align + size + allocCanaryBytes ≤ heapSize := by
    simp only [HeapBlock.usedEnd, satAdd, maxWord, heapSize, allocCanaryBytes] at fits high ⊢
    omega
  have payloadEnd : satAdd ((blocks i).placement align) size =
      (blocks i).placement align + size :=
    satAdd_of_le (by simp only [maxWord, heapSize] at *; omega)
  have usedEnd : satAdd ((blocks i).placement align + size) allocCanaryBytes =
      (blocks i).placement align + size + allocCanaryBytes :=
    satAdd_of_le (by simp only [maxWord, heapSize] at *; omega)
  refine
    { blockEnd := blockEnd
      canary := canary
      rounding := satAdd_of_le room
      payloadEnd := payloadEnd
      usedEnd := usedEnd
      address := satAdd_of_le ?_
      tailAddress := satAdd_of_le ?_
      remainder := fits
      used := ?_
      front := front
      aligned := aligned }
  · simp only [maxWord, heapSize, heapBase, pageSize4k] at *
    omega
  · simp only [maxWord, heapSize, heapBase, pageSize4k] at *
    omega
  · rw [HeapBlock.usedEnd, payloadEnd, usedEnd]
    omega

theorem HeapBlock.Placed.taken_formed {block : HeapBlock} {size align allocatedSize : Nat}
    (placed : block.Placed size align) (alignment : Alignment align)
    (room : block.usedEnd size align ≤ block.offset + allocatedSize) :
    (block.taken size align allocatedSize).WellFormed := by
  have front := placed.front
  rw [placed.usedEnd_eq] at room
  simp only [allocCanaryBytes] at front room
  refine ⟨rfl, ?_, fun _ => ⟨placed.front, ?_, alignment.power, alignment.canary, placed.aligned⟩⟩
  · change 0 < allocatedSize
    omega
  · exact room

namespace KernelHeap

theorem findBlock_eq_some {h : KernelHeap} {size align : Nat} {index : Fin maxBlocks}
    (found : h.findBlock size align = some index) :
    (h.blocks index).active = true ∧ (h.blocks index).allocated = false ∧
      (h.blocks index).usedEnd size align ≤ (h.blocks index).endOffset := by
  have := first_eq_some found
  simpa [HeapBlock.available, and_assoc] using this

/-- The table after an allocation: the block is split in two, or taken whole. -/
theorem carve_blocks (h : KernelHeap) (index : Fin maxBlocks) (size align : Nat) :
    (∃ slot, slot ≠ index ∧ (h.blocks slot).active = false ∧
      minSplitBytes ≤ (h.blocks index).endOffset - (h.blocks index).usedEnd size align ∧
      (h.carve index size align).blocks = Function.update
        (Function.update h.blocks index ((h.blocks index).taken size align
          ((h.blocks index).usedEnd size align - (h.blocks index).offset))) slot
        (HeapBlock.free ((h.blocks index).usedEnd size align)
          ((h.blocks index).endOffset - (h.blocks index).usedEnd size align))) ∨
    (h.carve index size align).blocks = Function.update h.blocks index
      ((h.blocks index).taken size align (h.blocks index).size) := by
  unfold carve
  dsimp only
  split
  · rename_i large
    split
    · rename_i slot found
      have inactive := first_eq_some found
      have other : slot ≠ index := by
        rintro rfl
        simp [HeapBlock.taken] at inactive
      dsimp only at inactive
      rw [Function.update_of_ne other] at inactive
      exact Or.inl ⟨slot, other, by simpa using inactive, large, rfl⟩
    · refine Or.inr ?_
      dsimp only
      rw [Function.update_idem, Function.update_self]
      rfl
  · exact Or.inr rfl

/-- An allocation touches nothing but the table. -/
theorem carve_eq (h : KernelHeap) (index : Fin maxBlocks) (size align : Nat) :
    h.carve index size align = { h with blocks := (h.carve index size align).blocks } := by
  unfold carve
  dsimp only
  split
  · split <;> rfl
  · rfl

/-- A block is replaced by a taken one and, if it is large enough, a free one behind it. -/
theorem carve_tiled {h : KernelHeap} (tiled : Tiled h.blocks) {size align : Nat}
    (alignment : Alignment align) {index : Fin maxBlocks}
    (found : h.findBlock size align = some index) : Tiled (h.carve index size align).blocks := by
  obtain ⟨active, -, fits⟩ := findBlock_eq_some found
  have placed := tiled.placed active alignment fits
  have used := placed.used
  have within := placed.remainder
  rcases h.carve_blocks index size align with ⟨slot, other, inactive, large, blocks⟩ | blocks
  · rw [blocks]
    rw [placed.blockEnd] at large ⊢
    have area : ((h.blocks index).taken size align
        ((h.blocks index).usedEnd size align - (h.blocks index).offset)).area =
          Finset.Ico (h.blocks index).offset ((h.blocks index).usedEnd size align) := by
      rw [HeapBlock.area_of_active rfl]
      change Finset.Ico (h.blocks index).offset ((h.blocks index).offset +
        ((h.blocks index).usedEnd size align - (h.blocks index).offset)) = _
      rw [Nat.add_sub_cancel' used]
    have rest : (HeapBlock.free ((h.blocks index).usedEnd size align)
        ((h.blocks index).offset + (h.blocks index).size -
          (h.blocks index).usedEnd size align)).area =
        Finset.Ico ((h.blocks index).usedEnd size align)
          ((h.blocks index).offset + (h.blocks index).size) := by
      rw [HeapBlock.area_of_active rfl]
      change Finset.Ico ((h.blocks index).usedEnd size align)
        ((h.blocks index).usedEnd size align + ((h.blocks index).offset + (h.blocks index).size -
          (h.blocks index).usedEnd size align)) = _
      rw [Nat.add_sub_cancel' within]
    refine tiled.exchange (Ne.symm other) ?_ ?_ (fun _ => ?_) (fun _ => ?_)
    · rw [area, rest, HeapBlock.area_of_active active, HeapBlock.area_of_inactive inactive,
        Finset.union_empty, Finset.Ico_union_Ico_eq_Ico used within]
    · rw [area, rest]
      exact Finset.Ico_disjoint_Ico_consecutive _ _ _
    · exact placed.taken_formed alignment (by rw [Nat.add_sub_cancel' used])
    · refine ⟨rfl, ?_, fun allocated => by cases allocated⟩
      change 0 < _ - _
      simp only [minSplitBytes] at large
      omega
  · rw [blocks]
    refine tiled.rewrite ?_ fun _ => placed.taken_formed alignment within
    rw [HeapBlock.area_of_active active, HeapBlock.area_of_active rfl]
    rfl

/-! ### Releasing a block -/

theorem release_tiled {h : KernelHeap} (tiled : Tiled h.blocks) (index : Fin maxBlocks) :
    Tiled (h.release index).blocks := by
  refine tiled.rewrite rfl fun active => ?_
  obtain ⟨magic, nonempty, -⟩ := tiled.formed index active
  exact ⟨magic, nonempty, fun allocated => by cases allocated⟩

/-- Two neighbours are replaced by one block of both sizes. -/
theorem merge_tiled {h : KernelHeap} (tiled : Tiled h.blocks) {left right : Fin maxBlocks}
    (found : h.findMerge = some (left, right)) : Tiled (h.merge left right).blocks := by
  obtain ⟨availableLeft, mergeable⟩ := findMerge_eq_some found
  simp only [KernelHeap.mergeable, HeapBlock.available, Bool.and_eq_true, bne_iff_ne, ne_eq,
    Bool.not_eq_true', Bool.or_eq_true, beq_iff_eq] at availableLeft mergeable
  obtain ⟨activeLeft, freeLeft⟩ := availableLeft
  obtain ⟨⟨different, activeRight, -⟩, adjacent⟩ := mergeable
  obtain ⟨magic, nonempty, -⟩ := tiled.formed left activeLeft
  have boundLeft := (tiled.bounds activeLeft).2
  have boundRight := (tiled.bounds activeRight).2
  rw [tiled.endOffset activeLeft, tiled.endOffset activeRight] at adjacent
  have sum : satAdd (h.blocks left).size (h.blocks right).size =
      (h.blocks left).size + (h.blocks right).size :=
    satAdd_of_le (by simp only [maxWord, heapSize] at *; omega)
  unfold merge
  dsimp only
  rw [tiled.endOffset activeLeft, sum]
  have gone : HeapBlock.empty.area = ∅ := HeapBlock.area_of_inactive rfl
  split
  · rename_i meets
    refine tiled.exchange different ?_ ?_ (fun _ => ?_) (fun active => by cases active)
    · rw [gone, Finset.union_empty, HeapBlock.area_of_active activeLeft,
        HeapBlock.area_of_active activeRight, HeapBlock.area_of_active (by exact activeLeft),
        ← meets, Finset.Ico_union_Ico_eq_Ico (by omega) (by omega), Nat.add_assoc]
    · rw [gone]
      exact Finset.disjoint_empty_right _
    · exact ⟨magic, Nat.add_pos_left nonempty _,
        fun allocated => absurd allocated (by simp [freeLeft])⟩
  · rename_i apart
    have meets := adjacent.resolve_left apart
    refine tiled.exchange different ?_ ?_ (fun _ => ?_) (fun active => by cases active)
    · rw [gone, Finset.union_empty, HeapBlock.area_of_active activeLeft,
        HeapBlock.area_of_active activeRight, HeapBlock.area_of_active (by exact activeLeft),
        ← meets, Finset.union_comm, Finset.Ico_union_Ico_eq_Ico (by omega) (by omega)]
      dsimp only
      congr 1
      omega
    · rw [gone]
      exact Finset.disjoint_empty_right _
    · exact ⟨magic, Nat.add_pos_left nonempty _,
        fun allocated => absurd allocated (by simp [freeLeft])⟩

/-- What merging two neighbours preserves, coalescing does. -/
theorem coalesceFreeBlocks_induction {P : KernelHeap → Prop}
    (merge : ∀ {h : KernelHeap} {left right : Fin maxBlocks}, P h →
      h.findMerge = some (left, right) → P (h.merge left right)) {h : KernelHeap} (start : P h) :
    P h.coalesceFreeBlocks := by
  have run : coalesceLoop (h.activeCount + 1) h = some h.coalesceFreeBlocks :=
    (Option.some_get _).symm
  generalize h.activeCount + 1 = bound at run
  generalize h.coalesceFreeBlocks = result at run
  induction bound generalizing h with
  | zero => cases run
  | succ bound ih =>
      rw [coalesceLoop] at run
      cases found : h.findMerge with
      | none =>
          rw [found] at run
          cases run
          exact start
      | some pair =>
          rw [found] at run
          exact ih (merge start found) run

/-- Coalescing touches nothing but the table and its own counter. -/
theorem coalesceFreeBlocks_eq (h : KernelHeap) :
    h.coalesceFreeBlocks = { h with
      blocks := h.coalesceFreeBlocks.blocks
      coalesces := h.coalesceFreeBlocks.coalesces } := by
  refine coalesceFreeBlocks_induction
    (P := fun g => g = { h with blocks := g.blocks, coalesces := g.coalesces }) ?_ rfl
  intro g left right frame _
  rw [frame]
  rfl

theorem coalesceFreeBlocks_tiled {h : KernelHeap} (tiled : Tiled h.blocks) :
    Tiled h.coalesceFreeBlocks.blocks :=
  coalesceFreeBlocks_induction (P := fun g => Tiled g.blocks)
    (fun tiled found => merge_tiled tiled found) tiled

/-! ### Statistics -/

/-- The bytes that a block contributes to `covered_bytes`. -/
def weight (h : KernelHeap) (index : Fin maxBlocks) : Nat := (h.blocks index).area.card

theorem weight_of_active {h : KernelHeap} {index : Fin maxBlocks}
    (active : (h.blocks index).active = true) : h.weight index = (h.blocks index).size := by
  rw [weight, HeapBlock.area_of_active active, Nat.card_Ico, Nat.add_sub_cancel_left]

theorem weight_of_inactive {h : KernelHeap} {index : Fin maxBlocks}
    (inactive : (h.blocks index).active = false) : h.weight index = 0 := by
  rw [weight, HeapBlock.area_of_inactive inactive, Finset.card_empty]

/-- What the loop of `compute_stats` has found so far in a healthy table. -/
structure Healthy (acc : HeapStats × Nat) (visited covered : Nat) : Prop where
  ok : acc.1.metadataOk = true
  blocks : acc.1.metadataBlocks ≤ visited
  coverage : acc.2 = covered
  bytes : acc.1.allocatedBytes + acc.1.freeBytes ≤ covered

theorem shapeOk_of_shaped {block : HeapBlock} (shaped : block.Shaped)
    (bound : block.offset + block.size ≤ heapSize) : block.shapeOk = true := by
  obtain ⟨front, back, power, canary, aligned⟩ := shaped
  simp only [allocCanaryBytes, heapSize] at front back bound
  have blockEnd : block.endOffset = block.offset + block.size :=
    satAdd_of_le (by simp only [maxWord]; omega)
  have start : satAdd block.offset allocCanaryBytes = block.offset + allocCanaryBytes :=
    satAdd_of_le (by simp only [maxWord, allocCanaryBytes]; omega)
  have payloadEnd : block.payloadEnd = block.payloadOffset + block.requestedSize :=
    satAdd_of_le (by simp only [maxWord]; omega)
  have used : satAdd (block.payloadOffset + block.requestedSize) allocCanaryBytes =
      block.payloadOffset + block.requestedSize + allocCanaryBytes :=
    satAdd_of_le (by simp only [maxWord, allocCanaryBytes]; omega)
  simp only [HeapBlock.shapeOk, Bool.and_eq_true, decide_eq_true_eq]
  rw [start, payloadEnd, used, blockEnd]
  exact ⟨⟨⟨⟨front, back⟩, canary⟩, isPowerOfTwo_iff.mpr power⟩, aligned⟩

/-- The comparison of the statistics finds no overlapping blocks. -/
theorem not_overlaps {h : KernelHeap} (tiled : Tiled h.blocks) {index : Fin maxBlocks}
    (active : (h.blocks index).active = true) :
    ((List.finRange maxBlocks).any fun other => decide (index < other)
      && (h.blocks other).active
      && rangesOverlap (h.blocks index).offset (h.blocks index).endOffset (h.blocks other).offset
        (h.blocks other).endOffset) = false := by
  rw [List.any_eq_false]
  intro other _ overlaps
  simp only [rangesOverlap, Bool.and_eq_true, decide_eq_true_eq] at overlaps
  obtain ⟨⟨later, activeOther⟩, left, right⟩ := overlaps
  rw [tiled.endOffset activeOther] at left
  rw [tiled.endOffset active] at right
  have := tiled.apart later.ne active activeOther
  omega

/-- A round over a block of a tiled heap finds nothing wrong. -/
theorem statsStep_healthy {h : KernelHeap} (tiled : Tiled h.blocks) {acc : HeapStats × Nat}
    {visited covered : Nat} (healthy : Healthy acc visited covered) (index : Fin maxBlocks)
    (small : covered + h.weight index ≤ heapSize) :
    Healthy (h.statsStep acc index) (visited + 1) (covered + h.weight index) := by
  obtain ⟨ok, blocks, coveredEq, bytes⟩ := healthy
  unfold statsStep
  dsimp only
  by_cases active : (h.blocks index).active = true
  · obtain ⟨magic, nonempty, shaped⟩ := tiled.formed index active
    obtain ⟨low, high⟩ := tiled.bounds active
    rw [weight_of_active active] at small ⊢
    have inRange : ((h.blocks index).magic != blockMagic || (h.blocks index).size == 0
        || decide ((h.blocks index).offset < heapSentinelBytes)
        || decide ((h.blocks index).endOffset > heapSize)) = false := by
      rw [tiled.endOffset active]
      simp only [Bool.or_eq_false_iff, bne_eq_false_iff_eq, beq_eq_false_iff_ne,
        decide_eq_false_iff_not]
      exact ⟨⟨⟨magic, nonempty.ne'⟩, not_lt.mpr low⟩, not_lt.mpr high⟩
    simp only [active, Bool.not_true, Bool.false_eq_true, if_false, inRange,
      not_overlaps tiled active]
    have coverage : satAdd acc.2 (h.blocks index).size = covered + (h.blocks index).size := by
      rw [coveredEq]
      exact satAdd_of_le (by simp only [maxWord, heapSize] at *; omega)
    have counted : satAdd acc.1.metadataBlocks 1 ≤ visited + 1 :=
      (Nat.min_le_left _ _).trans (Nat.succ_le_succ blocks)
    split
    · rename_i allocated
      have shape := shaped allocated
      have requested : (h.blocks index).requestedSize ≤ (h.blocks index).size := by
        have := shape.front
        have := shape.back
        omega
      have sum : satAdd acc.1.allocatedBytes (h.blocks index).requestedSize ≤
          acc.1.allocatedBytes + (h.blocks index).requestedSize := Nat.min_le_left _ _
      simp only [shapeOk_of_shaped shape high, Bool.not_true, Bool.false_eq_true, if_false]
      split
      · exact ⟨ok, counted, coverage, by dsimp only; omega⟩
      · exact ⟨ok, counted, coverage, by dsimp only; omega⟩
    · have sum : satAdd acc.1.freeBytes (h.blocks index).size ≤
          acc.1.freeBytes + (h.blocks index).size := Nat.min_le_left _ _
      exact ⟨ok, counted, coverage, by dsimp only; omega⟩
  · have inactive : (h.blocks index).active = false := by simpa using active
    rw [weight_of_inactive inactive, Nat.add_zero]
    simp only [inactive, Bool.not_false, if_true]
    exact ⟨ok, blocks.trans (Nat.le_succ _), coveredEq, bytes⟩

/-- By induction over the table of blocks. -/
theorem foldl_statsStep_healthy {h : KernelHeap} (tiled : Tiled h.blocks)
    (indices : List (Fin maxBlocks)) {acc : HeapStats × Nat} {visited covered : Nat}
    (healthy : Healthy acc visited covered)
    (small : covered + (indices.map h.weight).sum ≤ heapSize) :
    Healthy (indices.foldl h.statsStep acc) (visited + indices.length)
      (covered + (indices.map h.weight).sum) := by
  induction indices generalizing acc visited covered with
  | nil => exact healthy
  | cons index indices ih =>
      rw [List.map_cons, List.sum_cons] at small ⊢
      have next := statsStep_healthy tiled healthy index (by omega)
      have rest := ih next (by omega)
      rw [List.length_cons, List.foldl_cons]
      rwa [Nat.add_assoc, Nat.add_assoc, Nat.add_comm 1] at rest

/-- In a tiled heap the statistics find the metadata in order. -/
theorem computeStats_metadataOk {h : KernelHeap} (tiled : Tiled h.blocks) :
    h.computeStats.metadataOk = true := by
  have total : ((List.finRange maxBlocks).map h.weight).sum = heapSize - heapSentinelBytes := by
    rw [← Fin.sum_univ_def]
    exact tiled.partition.sum_card.trans (Nat.card_Ico _ _)
  have start : Healthy ({}, 0) 0 0 := ⟨rfl, le_rfl, rfl, le_rfl⟩
  obtain ⟨ok, blocks, covered, bytes⟩ := foldl_statsStep_healthy tiled (List.finRange maxBlocks)
    start (by rw [total]; decide)
  rw [total, List.length_finRange, Nat.zero_add] at *
  unfold computeStats
  generalize (List.finRange maxBlocks).foldl h.statsStep ({}, 0) = result at *
  obtain ⟨stats, coveredBytes⟩ := result
  dsimp only at *
  have few : satAdd stats.allocatedBytes stats.freeBytes ≤ heapSize :=
    (Nat.min_le_left _ _).trans (bytes.trans (by decide))
  simp only [covered, bne_self_eq_false, Bool.and_false, Bool.false_eq_true, if_false]
  rw [if_neg]
  · exact ok
  · simp only [Bool.or_eq_true, decide_eq_true_eq, not_or, not_lt]
    exact ⟨blocks, few⟩

/-! ### Calls -/

/-- An initialized heap, all of whose pages are mapped. -/
structure Ready (h : KernelHeap) : Prop where
  initialized : h.initialized = true
  mapped : h.mappedPages = heapPages
  head : h.canaryHead = heapCanaryHead
  tail : h.canaryTail = heapCanaryTail

structure Sound (h : KernelHeap) : Prop extends Ready h where
  tiled : Tiled h.blocks

theorem Sound.metadataOk {h : KernelHeap} (sound : h.Sound) :
    h.metadataOk h.computeStats = true := by
  simp [KernelHeap.metadataOk, sound.head, sound.tail, sound.mapped,
    computeStats_metadataOk sound.tiled]

theorem commit_blocks (h : KernelHeap) (index : Fin maxBlocks) (size align : Nat) :
    (h.commit index size align).blocks = (h.carve index size align).blocks := rfl

theorem commit_memory (h : KernelHeap) (index : Fin maxBlocks) (size align : Nat) :
    (h.commit index size align).memory =
      ((h.carve index size align).writeAllocationCanaries index).memory := rfl

theorem commit_sound {h : KernelHeap} (sound : h.Sound) {size align : Nat}
    (alignment : Alignment align) {index : Fin maxBlocks}
    (found : h.findBlock size align = some index) : (h.commit index size align).Sound := by
  have frame := h.carve_eq index size align
  refine ⟨⟨?_, ?_, ?_, ?_⟩, ?_⟩
  · exact (congrArg initialized frame).trans sound.initialized
  · exact (congrArg mappedPages frame).trans sound.mapped
  · exact (congrArg canaryHead frame).trans sound.head
  · exact (congrArg canaryTail frame).trans sound.tail
  · rw [commit_blocks]
    exact carve_tiled sound.tiled alignment found

/-- An accepted allocation: which block it takes, and the heap it leaves. -/
structure Allocates (h : KernelHeap) (size align : Nat) (index : Fin maxBlocks) (address : Nat)
    (h' : KernelHeap) : Prop where
  alignment : Alignment (max align allocCanaryBytes)
  found : h.findBlock size (max align allocCanaryBytes) = some index
  placed : (h.blocks index).Placed size (max align allocCanaryBytes)
  address : address = heapBase + (h.blocks index).placement (max align allocCanaryBytes)
  blocks : h'.blocks = (h.carve index size (max align allocCanaryBytes)).blocks
  memory : h'.memory =
    ((h.carve index size (max align allocCanaryBytes)).writeAllocationCanaries index).memory

/-- `alloc` in a sound heap: it refuses for a size of zero, an alignment that is
not a power of two up to a page, or for want of a fitting block; never because
of the metadata. -/
theorem Sound.alloc_cases {h : KernelHeap} (sound : h.Sound) (size align : Nat) :
    (h.alloc size align = (none, h.failAllocation) ∧
      (size = 0 ∨ ¬ (isPowerOfTwo align = true ∧ align ≤ maxAlignment) ∨
        h.findBlock size (max align allocCanaryBytes) = none)) ∨
    (∃ index address h', h.alloc size align = (some address, h') ∧ h'.Sound ∧
      size ≠ 0 ∧ isPowerOfTwo align = true ∧ align ≤ maxAlignment ∧
      h.Allocates size align index address h') := by
  unfold alloc
  simp only [sound.initialized, sound.metadataOk, Bool.not_true, Bool.false_or, beq_iff_eq]
  split
  · rename_i zero
    exact Or.inl ⟨rfl, Or.inl zero⟩
  rename_i nonzero
  split
  · rename_i refused
    refine Or.inl ⟨rfl, Or.inr (Or.inl ?_)⟩
    rintro ⟨power, page⟩
    have positive := Nat.pos_of_isPowerOfTwo (isPowerOfTwo_iff.mp power)
    simp only [power, Bool.not_true, Bool.or_false, Bool.or_eq_true, beq_iff_eq,
      decide_eq_true_eq] at refused
    omega
  rename_i accepted
  simp only [Bool.or_eq_true, beq_iff_eq, Bool.not_eq_true', decide_eq_true_eq, not_or,
    Bool.not_eq_false, not_lt] at accepted
  obtain ⟨⟨-, power⟩, page⟩ := accepted
  have alignment := alignment_max power page
  cases found : h.findBlock size (max align allocCanaryBytes) with
  | none => exact Or.inl ⟨rfl, Or.inr (Or.inr rfl)⟩
  | some index =>
      obtain ⟨active, -, fits⟩ := findBlock_eq_some found
      have placed := sound.tiled.placed active alignment fits
      have committed := commit_sound sound alignment found
      exact Or.inr ⟨index, _, _, rfl, committed, nonzero, power, page,
        ⟨alignment, found, placed, placed.address, commit_blocks .., commit_memory ..⟩⟩

theorem alloc_sound {h : KernelHeap} (sound : h.Sound) (size align : Nat) :
    (h.alloc size align).2.Sound := by
  rcases sound.alloc_cases size align with ⟨eq, -⟩ | ⟨_, _, h', eq, sound', -⟩
  · rw [eq]
    exact ⟨⟨sound.initialized, sound.mapped, sound.head, sound.tail⟩, sound.tiled⟩
  · rw [eq]
    exact sound'

/-- The block that is found is allocated at the address. -/
theorem findAllocatedBlock_eq_some {h : KernelHeap} {address : Nat} {index : Fin maxBlocks}
    (found : h.findAllocatedBlock address = some index) :
    (h.blocks index).active = true ∧ (h.blocks index).allocated = true ∧
      address = heapBase + (h.blocks index).payloadOffset := by
  unfold findAllocatedBlock at found
  split at found
  · cases found
  · have := first_eq_some found
    simp only [Bool.and_eq_true, beq_iff_eq] at this
    refine ⟨this.1.1, this.1.2, ?_⟩
    omega

/-- A free keeps the heap tiled, whatever the address. -/
theorem free_sound {h : KernelHeap} (sound : h.Sound) (address : Nat) :
    (h.free address).2.Sound := by
  have ready : h.Ready := sound.toReady
  unfold KernelHeap.free
  split
  · exact ⟨⟨sound.initialized, sound.mapped, sound.head, sound.tail⟩, sound.tiled⟩
  split
  · rename_i index found
    split
    · exact ⟨⟨sound.initialized, sound.mapped, sound.head, sound.tail⟩, sound.tiled⟩
    · have tiled : Tiled ((h.release index).addRecentFree address).blocks :=
        release_tiled sound.tiled index
      have coalesced := coalesceFreeBlocks_tiled tiled
      rw [coalesceFreeBlocks_eq]
      exact ⟨⟨sound.initialized, sound.mapped, sound.head, sound.tail⟩, coalesced⟩
  · dsimp only
    split
    · exact ⟨⟨sound.initialized, sound.mapped, sound.head, sound.tail⟩, sound.tiled⟩
    · exact ⟨⟨sound.initialized, sound.mapped, sound.head, sound.tail⟩, sound.tiled⟩

theorem step_sound {h : KernelHeap} (sound : h.Sound) (op : HeapOp) : (step h op).Sound := by
  cases op with
  | alloc size align => exact alloc_sound sound size align
  | free address => exact free_sound sound address
  | write address byte =>
      exact ⟨⟨sound.initialized, sound.mapped, sound.head, sound.tail⟩, sound.tiled⟩

theorem run_sound {h : KernelHeap} (sound : h.Sound) (ops : List HeapOp) : (run h ops).Sound := by
  induction ops generalizing h with
  | nil => exact sound
  | cons op ops ih => exact ih (step_sound sound op)

/-- After a reset, one free block covers everything behind the sentinel. -/
theorem resetAllocator_sound {h : KernelHeap} (ready : h.Ready) : h.resetAllocator.Sound := by
  have table : h.resetAllocator.blocks = Function.update (fun _ => HeapBlock.empty) 0
      (HeapBlock.free heapSentinelBytes (heapSize - heapSentinelBytes)) := rfl
  have first : (h.resetAllocator.blocks 0).area = Finset.Ico heapSentinelBytes heapSize := by
    rw [table, Function.update_self, HeapBlock.area_of_active rfl]
    rfl
  have others : ∀ i, i ≠ 0 → h.resetAllocator.blocks i = HeapBlock.empty := by
    intro i other
    rw [table, Function.update_of_ne other]
  have vacant : HeapBlock.empty.area = ∅ := HeapBlock.area_of_inactive rfl
  refine ⟨⟨ready.initialized, ready.mapped, ready.head, ready.tail⟩, ⟨?_, ?_⟩, ?_⟩
  · intro i j different
    by_cases zero : i = 0
    · rw [others j (fun h => different (zero.trans h.symm)), vacant]
      exact Finset.disjoint_empty_right _
    · rw [others i zero, vacant]
      exact Finset.disjoint_empty_left _
  · ext x
    rw [Finset.mem_biUnion]
    constructor
    · rintro ⟨i, -, mem⟩
      by_cases zero : i = 0
      · rwa [zero, first] at mem
      · rw [others i zero, vacant] at mem
        exact absurd mem (Finset.notMem_empty x)
    · exact fun mem => ⟨0, Finset.mem_univ _, first ▸ mem⟩
  · intro i active
    by_cases zero : i = 0
    · rw [zero, table, Function.update_self]
      exact ⟨rfl, Nat.zero_lt_succ _, fun allocated => by cases allocated⟩
    · rw [others i zero] at active
      cases active

end KernelHeap

/-- The states reached from a reset of an initialized heap, by any calls with any
arguments. -/
def Reached (h : KernelHeap) : Prop :=
  ∃ start ops, KernelHeap.Ready start ∧ h = run start.resetAllocator ops

/-- Heap tiling. In every reached state the active blocks do not overlap and
cover exactly what lies behind the sentinel; every allocated block has its
shape; the metadata checks pass, so that `alloc` refuses only for its arguments
or for want of room; and an accepted allocation is placed without any sum of
offsets, sizes or addresses saturating. -/
theorem heap_tiling {h : KernelHeap} (reached : Reached h) :
    (∀ i j, i ≠ j → (h.blocks i).active = true → (h.blocks j).active = true →
      (h.blocks i).offset + (h.blocks i).size ≤ (h.blocks j).offset ∨
        (h.blocks j).offset + (h.blocks j).size ≤ (h.blocks i).offset) ∧
    (∀ x, (∃ i, (h.blocks i).active = true ∧ (h.blocks i).offset ≤ x ∧
        x < (h.blocks i).offset + (h.blocks i).size) ↔ heapSentinelBytes ≤ x ∧ x < heapSize) ∧
    (∀ i, (h.blocks i).active = true → (h.blocks i).allocated = true → (h.blocks i).Shaped) ∧
    h.computeStats.metadataOk = true ∧
    ∀ size align,
      ((h.alloc size align).1 = none ↔
        size = 0 ∨ ¬ (isPowerOfTwo align = true ∧ align ≤ maxAlignment) ∨
          h.findBlock size (max align allocCanaryBytes) = none) ∧
      ∀ address, (h.alloc size align).1 = some address →
        ∃ index, h.findBlock size (max align allocCanaryBytes) = some index ∧
          (h.blocks index).Placed size (max align allocCanaryBytes) ∧
          address = heapBase + (h.blocks index).placement (max align allocCanaryBytes) := by
  obtain ⟨start, ops, ready, rfl⟩ := reached
  have sound := KernelHeap.run_sound (KernelHeap.resetAllocator_sound ready) ops
  generalize run start.resetAllocator ops = h at sound
  refine ⟨fun i j different => sound.tiled.apart different, fun x => ?_,
    fun i active => (sound.tiled.formed i active).shaped,
    KernelHeap.computeStats_metadataOk sound.tiled, fun size align => ?_⟩
  · rw [← Finset.mem_Ico, sound.tiled.partition.mem_iff]
    exact exists_congr fun i => HeapBlock.mem_area.symm
  · rcases sound.alloc_cases size align with
      ⟨eq, refused⟩ | ⟨index, address, h', eq, -, nonzero, power, page, allocates⟩
    · rw [eq]
      refine ⟨⟨fun _ => refused, fun _ => rfl⟩, fun address accepted => ?_⟩
      cases accepted
    · rw [eq]
      refine ⟨⟨fun accepted => ?_, ?_⟩, ?_⟩
      · cases accepted
      · rintro (zero | refused | missing)
        · exact absurd zero nonzero
        · exact absurd ⟨power, page⟩ refused
        · rw [allocates.found] at missing
          cases missing
      · intro address' accepted
        cases accepted
        exact ⟨index, allocates.found, allocates.placed, allocates.address⟩

/-- A heap over blank memory, before its first reset. -/
def blankHeap : KernelHeap :=
  { KernelHeap.new fun _ => 0 with initialized := true, mappedPages := heapPages }

theorem heap_tiling_blankHeap :
    (run blankHeap.resetAllocator [.alloc 100 16, .alloc 1000 4096, .free (heapBase + 80),
      .alloc (2 ^ 64 - 1) 8]).computeStats.metadataOk = true :=
  (heap_tiling ⟨blankHeap, _, ⟨rfl, rfl, rfl, rfl⟩, rfl⟩).2.2.2.1

end CloudOS.Heap
