import CloudOS.Heap.Tiling
import CloudOS.Lib.Store

/-!
The heap protects its clients' memory.

A run is confined if every client store goes into the payload of an allocation
that is live at that moment. In a confined run the canaries and the sentinel
are only ever written by the heap itself, and the tiling keeps what one
allocation owns apart from every other, so nothing is ever found corrupted.
-/

namespace CloudOS.Heap

open Lib.Scan (first_eq_some first_eq_none)
open Lib.Word (satAdd maxWord satAdd_of_le isPowerOfTwo_iff)

/-! ### Words in memory -/

theorem readU64_congr {m m' : Memory} {address : Nat}
    (same : ∀ k < 8, m (address + k) = m' (address + k)) :
    readU64 m address = readU64 m' address :=
  Lib.Store.readU64_congr same

theorem writeU64_of_outside {m : Memory} {address value a : Nat}
    (outside : a < address ∨ address + 8 ≤ a) : writeU64 m address value a = m a :=
  Lib.Store.writeU64_of_outside outside

theorem readU64_writeU64 {m : Memory} {address value : Nat} (word : value < 2 ^ 64) :
    readU64 (writeU64 m address value) address = value :=
  Lib.Store.readU64_writeU64 word

theorem readU64_writeU64_of_apart {m : Memory} {address other value : Nat}
    (apart : address + 8 ≤ other ∨ other + 8 ≤ address) :
    readU64 (writeU64 m other value) address = readU64 m address :=
  Lib.Store.readU64_writeU64_of_apart apart

/-! ### Live allocations -/

namespace KernelHeap

def Live (h : KernelHeap) (i : Fin maxBlocks) : Prop :=
  (h.blocks i).active = true ∧ (h.blocks i).allocated = true

instance (h : KernelHeap) (i : Fin maxBlocks) : Decidable (h.Live i) :=
  inferInstanceAs (Decidable (_ ∧ _))

/-- The address that a client has for the allocation. -/
def payload (h : KernelHeap) (i : Fin maxBlocks) : Nat := heapBase + (h.blocks i).payloadOffset

/-- The address lies in the payload of the allocation. -/
def Covers (h : KernelHeap) (i : Fin maxBlocks) (address : Nat) : Prop :=
  h.payload i ≤ address ∧ address < h.payload i + (h.blocks i).requestedSize

instance (h : KernelHeap) (i : Fin maxBlocks) (address : Nat) : Decidable (h.Covers i address) :=
  inferInstanceAs (Decidable (_ ∧ _))

/-- Payloads and canaries of two allocations do not overlap. -/
def Separate (h : KernelHeap) (i j : Fin maxBlocks) : Prop :=
  h.payload i + (h.blocks i).requestedSize + allocCanaryBytes ≤ h.payload j - allocCanaryBytes ∨
    h.payload j + (h.blocks j).requestedSize + allocCanaryBytes ≤ h.payload i - allocCanaryBytes

/-- A payload lies in its block, between the two canaries. -/
theorem Sound.inside {h : KernelHeap} (sound : h.Sound) {i : Fin maxBlocks} (live : h.Live i) :
    heapBase + (h.blocks i).offset + allocCanaryBytes ≤ h.payload i ∧
      h.payload i + (h.blocks i).requestedSize + allocCanaryBytes ≤
        heapBase + (h.blocks i).offset + (h.blocks i).size := by
  have shaped := (sound.tiled.formed i live.1).shaped live.2
  have front := shaped.front
  have back := shaped.back
  unfold payload
  constructor
  · omega
  · omega

theorem Sound.within {h : KernelHeap} (sound : h.Sound) {i : Fin maxBlocks} (live : h.Live i) :
    heapBase + heapSentinelBytes ≤ h.payload i - allocCanaryBytes ∧
      h.payload i + (h.blocks i).requestedSize + allocCanaryBytes ≤ heapBase + heapSize := by
  obtain ⟨front, back⟩ := sound.inside live
  obtain ⟨low, high⟩ := sound.tiled.bounds live.1
  simp only [allocCanaryBytes] at *
  omega

theorem Sound.separate {h : KernelHeap} (sound : h.Sound) {i j : Fin maxBlocks}
    (different : i ≠ j) (liveI : h.Live i) (liveJ : h.Live j) : h.Separate i j := by
  obtain ⟨frontI, backI⟩ := sound.inside liveI
  obtain ⟨frontJ, backJ⟩ := sound.inside liveJ
  have apart := sound.tiled.apart different liveI.1 liveJ.1
  unfold Separate
  simp only [allocCanaryBytes] at *
  omega

/-- Where the canaries of a live allocation are, in exact arithmetic. -/
theorem Sound.canariesOk_iff {h : KernelHeap} (sound : h.Sound) {i : Fin maxBlocks}
    (live : h.Live i) : h.allocationCanariesOk i = true ↔
      readU64 h.memory (h.payload i - allocCanaryBytes) = allocCanaryHead ∧
        readU64 h.memory (h.payload i + (h.blocks i).requestedSize) = allocCanaryTail := by
  have within := (sound.within live).2
  have start : satAdd heapBase (h.blocks i).payloadOffset = h.payload i :=
    satAdd_of_le (by
      simp only [payload, maxWord, heapBase, heapSize, pageSize4k, allocCanaryBytes] at *
      omega)
  have payloadEnd : (h.blocks i).payloadEnd =
      (h.blocks i).payloadOffset + (h.blocks i).requestedSize :=
    satAdd_of_le (by
      simp only [payload, maxWord, heapBase, heapSize, pageSize4k, allocCanaryBytes] at *
      omega)
  have finish : satAdd heapBase (h.blocks i).payloadEnd =
      h.payload i + (h.blocks i).requestedSize := by
    rw [payloadEnd, satAdd_of_le]
    · exact (Nat.add_assoc ..).symm
    · simp only [payload, maxWord, heapBase, heapSize, pageSize4k, allocCanaryBytes] at *
      omega
  unfold allocationCanariesOk
  simp only [live.1, live.2, start, finish, Bool.not_true, Bool.or_self, Bool.false_eq_true,
    if_false, Bool.and_eq_true, beq_iff_eq]

/-! ### What a call leaves alone -/

/-- The allocation at `i` is live in both heaps or in neither, with one block. -/
structure Agrees (h h' : KernelHeap) (i : Fin maxBlocks) : Prop where
  live : h'.Live i ↔ h.Live i
  block : h.Live i → h'.blocks i = h.blocks i

theorem Agrees.of_eq {h h' : KernelHeap} {i : Fin maxBlocks} (same : h'.blocks i = h.blocks i) :
    h.Agrees h' i := by
  refine ⟨?_, fun _ => same⟩
  unfold Live
  rw [same]

theorem Agrees.of_not_live {h h' : KernelHeap} {i : Fin maxBlocks} (before : ¬ h.Live i)
    (after : ¬ h'.Live i) : h.Agrees h' i :=
  ⟨iff_of_false after before, fun live => absurd live before⟩

theorem Agrees.trans {h h' h'' : KernelHeap} {i : Fin maxBlocks} (first : h.Agrees h' i)
    (second : h'.Agrees h'' i) : h.Agrees h'' i :=
  ⟨second.live.trans first.live,
    fun live => (second.block (first.live.mpr live)).trans (first.block live)⟩

theorem not_live_of_free {h : KernelHeap} {i : Fin maxBlocks}
    (free : (h.blocks i).allocated = false) : ¬ h.Live i := fun live => by
  rw [Live, free] at live
  cases live.2

theorem not_live_of_inactive {h : KernelHeap} {i : Fin maxBlocks}
    (inactive : (h.blocks i).active = false) : ¬ h.Live i := fun live => by
  rw [Live, inactive] at live
  cases live.1

/-- The block that an allocation took is live and is the one asked for. -/
theorem Allocates.taken {h h' : KernelHeap} {size align address : Nat} {index : Fin maxBlocks}
    (allocates : h.Allocates size align index address h') :
    h'.Live index ∧ h'.payload index = address ∧ (h'.blocks index).requestedSize = size := by
  have taken : ∃ allocatedSize, h'.blocks index =
      (h.blocks index).taken size (max align allocCanaryBytes) allocatedSize := by
    rw [allocates.blocks]
    rcases h.carve_blocks index size (max align allocCanaryBytes) with
      ⟨slot, other, -, -, blocks⟩ | blocks
    · rw [blocks, Function.update_of_ne (Ne.symm other), Function.update_self]
      exact ⟨_, rfl⟩
    · rw [blocks, Function.update_self]
      exact ⟨_, rfl⟩
  obtain ⟨allocatedSize, block⟩ := taken
  unfold Live payload
  rw [block, allocates.address]
  exact ⟨⟨rfl, rfl⟩, rfl, rfl⟩

/-- An allocation leaves every other one alone. -/
theorem Allocates.agrees {h h' : KernelHeap} {size align address : Nat} {index : Fin maxBlocks}
    (allocates : h.Allocates size align index address h') {i : Fin maxBlocks} (other : i ≠ index) :
    h.Agrees h' i := by
  have blocks := allocates.blocks
  rcases h.carve_blocks index size (max align allocCanaryBytes) with
    ⟨slot, -, inactive, -, carved⟩ | carved
  · rw [carved] at blocks
    by_cases isSlot : i = slot
    · refine Agrees.of_not_live (not_live_of_inactive (isSlot ▸ inactive)) (not_live_of_free ?_)
      rw [blocks, isSlot, Function.update_self]
      rfl
    · apply Agrees.of_eq
      rw [blocks, Function.update_of_ne isSlot, Function.update_of_ne other]
  · apply Agrees.of_eq
    rw [blocks, carved, Function.update_of_ne other]

/-- An allocation stores its two canaries. -/
theorem Allocates.memory_eq {h h' : KernelHeap} {size align address : Nat} {index : Fin maxBlocks}
    (allocates : h.Allocates size align index address h') :
    h'.memory = writeU64 (writeU64 h.memory (address - allocCanaryBytes) allocCanaryHead)
      (address + size) allocCanaryTail := by
  obtain ⟨-, payload, requested⟩ := allocates.taken
  have memory := allocates.memory
  have frame := congrArg KernelHeap.memory (h.carve_eq index size (max align allocCanaryBytes))
  have placed := allocates.placed
  have addressEq := allocates.address
  unfold KernelHeap.payload at payload
  have offset : (h'.blocks index).payloadOffset =
      (h.blocks index).placement (max align allocCanaryBytes) := by omega
  rw [memory, writeAllocationCanaries, ← allocates.blocks, HeapBlock.payloadEnd, offset, requested,
    placed.payloadEnd, placed.address, placed.tailAddress, ← Nat.add_assoc, ← addressEq, frame]

/-- Memory away from the two canaries stays as it was. -/
theorem Allocates.memory_of_outside {h h' : KernelHeap} {size align address a : Nat}
    {index : Fin maxBlocks} (allocates : h.Allocates size align index address h')
    (outside : a < address - allocCanaryBytes ∨ address + size + allocCanaryBytes ≤ a) :
    h'.memory a = h.memory a := by
  simp only [allocCanaryBytes] at outside
  rw [allocates.memory_eq, writeU64_of_outside (by omega),
    writeU64_of_outside (by simp only [allocCanaryBytes]; omega)]

theorem release_agrees {h : KernelHeap} {index i : Fin maxBlocks} (other : i ≠ index) :
    h.Agrees (h.release index) i := by
  apply Agrees.of_eq
  exact Function.update_of_ne other _ _

theorem merge_agrees {h : KernelHeap} {left right : Fin maxBlocks}
    (found : h.findMerge = some (left, right)) (i : Fin maxBlocks) :
    h.Agrees (h.merge left right) i := by
  obtain ⟨availableLeft, mergeable⟩ := findMerge_eq_some found
  simp only [KernelHeap.mergeable, HeapBlock.available, Bool.and_eq_true, bne_iff_ne, ne_eq,
    Bool.not_eq_true'] at availableLeft mergeable
  obtain ⟨⟨different, -, freeRight⟩, -⟩ := mergeable
  by_cases isRight : i = right
  · subst isRight
    refine Agrees.of_not_live (not_live_of_free freeRight) (not_live_of_free ?_)
    dsimp only [merge]
    rw [Function.update_self]
    rfl
  by_cases isLeft : i = left
  · subst isLeft
    refine Agrees.of_not_live (not_live_of_free availableLeft.2) (not_live_of_free ?_)
    dsimp only [merge]
    rw [Function.update_of_ne isRight, Function.update_self]
    split
    · exact availableLeft.2
    · exact availableLeft.2
  apply Agrees.of_eq
  dsimp only [merge]
  rw [Function.update_of_ne isRight, Function.update_of_ne isLeft]

/-- Coalescing moves no live allocation. -/
theorem coalesceFreeBlocks_agrees (h : KernelHeap) (i : Fin maxBlocks) :
    h.Agrees h.coalesceFreeBlocks i :=
  coalesceFreeBlocks_induction (P := fun g => h.Agrees g i)
    (fun agrees found => agrees.trans (merge_agrees found i)) (Agrees.of_eq rfl)

theorem free_memory (h : KernelHeap) (address : Nat) : (h.free address).2.memory = h.memory := by
  unfold free
  split
  · rfl
  split
  · split
    · rfl
    · dsimp only
      rw [coalesceFreeBlocks_eq]
      rfl
  · dsimp only
    split
    · rfl
    · rfl

/-! ### The invariant of confined runs -/

structure Intact (h : KernelHeap) : Prop extends Sound h where
  sentinel : ∀ k < heapSentinelBytes, h.memory (heapBase + k) = sentinelByte k
  canaries : ∀ i, h.Live i → h.allocationCanariesOk i = true

/-- Canaries survive as long as nothing but the payload between them changes. -/
theorem Intact.canaries_frame {h h' : KernelHeap} (intact : h.Intact) (sound : h'.Sound)
    {i : Fin maxBlocks} (live : h.Live i) (agrees : h.Agrees h' i)
    (memory : ∀ a, h.payload i - allocCanaryBytes ≤ a →
      a < h.payload i + (h.blocks i).requestedSize + allocCanaryBytes → ¬ h.Covers i a →
      h'.memory a = h.memory a) : h'.allocationCanariesOk i = true := by
  have same := agrees.block live
  have samePayload : h'.payload i = h.payload i := by rw [payload, same]; rfl
  have within := (intact.toSound.within live).1
  obtain ⟨head, tail⟩ := (intact.toSound.canariesOk_iff live).mp (intact.canaries i live)
  rw [sound.canariesOk_iff (agrees.live.mpr live), samePayload, same, ← head, ← tail]
  have outside : ∀ a, h.payload i - allocCanaryBytes ≤ a →
      a < h.payload i + (h.blocks i).requestedSize + allocCanaryBytes →
      a < h.payload i ∨ h.payload i + (h.blocks i).requestedSize ≤ a →
      h'.memory a = h.memory a := by
    intro a low high away
    refine memory a low high fun covered => ?_
    obtain ⟨low', high'⟩ := covered
    omega
  simp only [allocCanaryBytes, heapSentinelBytes, heapBase, pageSize4k] at *
  refine ⟨readU64_congr fun k hk => outside _ ?_ ?_ ?_, readU64_congr fun k hk => outside _ ?_ ?_ ?_⟩
  all_goals omega

theorem resetAllocator_intact {h : KernelHeap} (ready : h.Ready) : h.resetAllocator.Intact := by
  refine ⟨resetAllocator_sound ready, fun k hk => ?_, fun i live => ?_⟩
  · change (if heapBase ≤ heapBase + k ∧ heapBase + k < heapBase + heapSentinelBytes
      then sentinelByte (heapBase + k - heapBase) else _) = _
    rw [if_pos ⟨Nat.le_add_right _ _, Nat.add_lt_add_left hk _⟩, Nat.add_sub_cancel_left]
  · refine absurd live (not_live_of_free ?_)
    change (Function.update (fun _ => HeapBlock.empty) 0 _ i).allocated = false
    rw [Function.update_apply]
    split
    · rfl
    · rfl

/-- Nothing that another live allocation owns is changed. -/
theorem Allocates.memory_of_live {h h' : KernelHeap} {size align address a : Nat}
    {index i : Fin maxBlocks} (allocates : h.Allocates size align index address h')
    (sound' : h'.Sound) (other : i ≠ index) (live : h.Live i)
    (low : h.payload i - allocCanaryBytes ≤ a)
    (high : a < h.payload i + (h.blocks i).requestedSize + allocCanaryBytes) :
    h'.memory a = h.memory a := by
  obtain ⟨taken, payloadEq, requested⟩ := allocates.taken
  have agrees := allocates.agrees other
  have separate := sound'.separate other (agrees.live.mpr live) taken
  have samePayload : h'.payload i = h.payload i := by rw [payload, agrees.block live]; rfl
  rw [Separate, samePayload, agrees.block live, payloadEq, requested] at separate
  exact allocates.memory_of_outside (by omega)

/-- A new block gets its canaries, and the others keep theirs. -/
theorem Allocates.intact {h h' : KernelHeap} {size align address : Nat} {index : Fin maxBlocks}
    (allocates : h.Allocates size align index address h') (intact : h.Intact) (sound' : h'.Sound) :
    h'.Intact := by
  obtain ⟨taken, payloadEq, requested⟩ := allocates.taken
  have within := (sound'.within taken).1
  rw [payloadEq] at within
  refine ⟨sound', fun k hk => ?_, fun i live' => ?_⟩
  · rw [← intact.sentinel k hk]
    exact allocates.memory_of_outside (Or.inl (by omega))
  · by_cases here : i = index
    · subst here
      rw [sound'.canariesOk_iff live', payloadEq, requested, allocates.memory_eq]
      refine ⟨?_, readU64_writeU64 (by decide)⟩
      rw [readU64_writeU64_of_apart, readU64_writeU64 (by decide)]
      simp only [allocCanaryBytes, heapSentinelBytes, heapBase, pageSize4k] at *
      omega
    · have agrees := allocates.agrees here
      have live := agrees.live.mp live'
      exact intact.canaries_frame sound' live agrees fun a low high _ =>
        allocates.memory_of_live sound' here live low high

/-- No allocation damages a canary. -/
theorem Intact.alloc {h : KernelHeap} (intact : h.Intact) (size align : Nat) :
    (h.alloc size align).2.Intact := by
  rcases intact.toSound.alloc_cases size align with
    ⟨eq, -⟩ | ⟨index, address, h', eq, sound', -, -, -, allocates⟩
  · rw [eq]
    exact ⟨⟨⟨intact.initialized, intact.mapped, intact.head, intact.tail⟩, intact.tiled⟩,
      intact.sentinel, intact.canaries⟩
  · rw [eq]
    exact allocates.intact intact sound'

/-- Live allocations have different payload addresses. -/
theorem Sound.payload_injective {h : KernelHeap} (sound : h.Sound) {i j : Fin maxBlocks}
    (liveI : h.Live i) (liveJ : h.Live j) (same : h.payload i = h.payload j) : i = j := by
  by_contra different
  have separate := sound.separate different liveI liveJ
  have low := (sound.within liveJ).1
  unfold Separate at separate
  simp only [allocCanaryBytes, heapSentinelBytes, heapBase, pageSize4k] at *
  omega

/-- The address of a live block finds it. -/
theorem Sound.findAllocatedBlock_payload {h : KernelHeap} (sound : h.Sound) {i : Fin maxBlocks}
    (live : h.Live i) : h.findAllocatedBlock (h.payload i) = some i := by
  cases found : h.findAllocatedBlock (h.payload i) with
  | none =>
      unfold findAllocatedBlock payload at found
      rw [if_neg (by omega), Nat.add_sub_cancel_left] at found
      have none := first_eq_none.mp found i
      rw [live.1, live.2] at none
      simp at none
  | some j =>
      obtain ⟨active, allocated, address⟩ := findAllocatedBlock_eq_some found
      rw [sound.payload_injective ⟨active, allocated⟩ live address.symm]

/-- What `free` does: it releases the live allocation at the address and agrees on
all others, or the block table stays as it was. -/
inductive Frees (h : KernelHeap) (address : Nat) (h' : KernelHeap) :
    Except FreeError Unit → Prop where
  | released {index : Fin maxBlocks} (live : h.Live index) (payload : h.payload index = address)
      (canaries : h.allocationCanariesOk index = true) (gone : ¬ h'.Live index)
      (others : ∀ i, i ≠ index → h.Agrees h' i)
      (recent : h'.recentFrees = Function.update h.recentFrees h.recentFreeIndex address)
      (next : h'.recentFreeIndex = h.recentFreeIndex + 1) : Frees h address h' (.ok ())
  | damaged {index : Fin maxBlocks} (live : h.Live index) (payload : h.payload index = address)
      (canaries : h.allocationCanariesOk index = false) (blocks : h'.blocks = h.blocks)
      (recent : h'.recentFrees = h.recentFrees) (next : h'.recentFreeIndex = h.recentFreeIndex) :
      Frees h address h' (.error .corruption)
  | missing (dead : ∀ i, h.Live i → h.payload i ≠ address) (blocks : h'.blocks = h.blocks)
      (recent : h'.recentFrees = h.recentFrees) (next : h'.recentFreeIndex = h.recentFreeIndex) :
      Frees h address h'
        (.error (if h.wasRecentlyFreed address then .doubleFree else .invalidPointer))

/-- A free is refused, or releases the block at the address and coalesces. -/
theorem Sound.frees {h : KernelHeap} (sound : h.Sound) (address : Nat) :
    h.Frees address (h.free address).2 (h.free address).1 := by
  have initialized := sound.initialized
  cases found : h.findAllocatedBlock address with
  | some index =>
      obtain ⟨active, allocated, payload⟩ := findAllocatedBlock_eq_some found
      have live : h.Live index := ⟨active, allocated⟩
      cases canaries : h.allocationCanariesOk index with
      | false =>
          simp only [free, initialized, found, canaries, Bool.not_true, Bool.false_eq_true,
            if_false, Bool.not_false, if_true]
          exact .damaged live payload.symm canaries rfl rfl rfl
      | true =>
          have eq : h.free address =
              (.ok (), ((h.release index).addRecentFree address).coalesceFreeBlocks) := by
            simp [free, initialized, found, canaries]
          rw [eq]
          -- the entry in the list of recent releases touches no block
          have released : ∀ i, (h.release index).Agrees
              ((h.release index).addRecentFree address).coalesceFreeBlocks i := by
            intro i
            have recorded : (h.release index).Agrees ((h.release index).addRecentFree address) i :=
              Agrees.of_eq rfl
            exact recorded.trans (coalesceFreeBlocks_agrees _ i)
          refine .released live payload.symm canaries ?_ (fun i other => ?_) ?_ ?_
          · rw [(released index).live]
            apply not_live_of_free
            dsimp only [release]
            rw [Function.update_self]
          · exact (release_agrees other).trans (released i)
          · rw [coalesceFreeBlocks_eq]
            rfl
          · rw [coalesceFreeBlocks_eq]
            rfl
  | none =>
      have dead : ∀ i, h.Live i → h.payload i ≠ address := by
        rintro i live rfl
        rw [sound.findAllocatedBlock_payload live] at found
        cases found
      have answer : (h.free address).1 =
          .error (if h.wasRecentlyFreed address then .doubleFree else .invalidPointer) := by
        simp only [free, initialized, found, Bool.not_true, Bool.false_eq_true, if_false]
        change (if h.wasRecentlyFreed address = true then _ else _ : _ × _).1 = _
        split
        · rfl
        · rfl
      rw [answer]
      simp only [free, initialized, found, Bool.not_true, Bool.false_eq_true, if_false]
      split
      · exact .missing dead rfl rfl rfl
      · exact .missing dead rfl rfl rfl

/-- `free` in an intact heap never finds corruption. -/
theorem Intact.free_cases {h : KernelHeap} (intact : h.Intact) (address : Nat) :
    (∃ index, h.Live index ∧ h.payload index = address ∧ (h.free address).1 = .ok () ∧
      ¬ (h.free address).2.Live index ∧ ∀ i, i ≠ index → h.Agrees (h.free address).2 i) ∨
    ((∀ i, h.Live i → h.payload i ≠ address) ∧
      ∀ i, h.Agrees (h.free address).2 i) := by
  have frees := intact.toSound.frees address
  generalize (h.free address).1 = answer at frees ⊢
  cases frees with
  | released live payload _ gone others _ _ => exact .inl ⟨_, live, payload, rfl, gone, others⟩
  | damaged live _ canaries _ _ _ =>
      rw [intact.canaries _ live] at canaries
      cases canaries
  | missing dead blocks _ _ => exact .inr ⟨dead, fun i => Agrees.of_eq (congrFun blocks i)⟩

/-- Blocks that stay allocated keep their canaries. -/
theorem Intact.free {h : KernelHeap} (intact : h.Intact) (address : Nat) :
    (h.free address).2.Intact := by
  have sound' := free_sound intact.toSound address
  have memory := h.free_memory address
  refine ⟨sound', fun k hk => ?_, fun i live' => ?_⟩
  · rw [memory]
    exact intact.sentinel k hk
  · have agrees : h.Agrees (h.free address).2 i ∧ h.Live i := by
      rcases intact.free_cases address with ⟨index, -, -, -, released, agrees⟩ | ⟨-, agrees⟩
      · by_cases here : i = index
        · exact absurd live' (here ▸ released)
        · exact ⟨agrees i here, (agrees i here).live.mp live'⟩
      · exact ⟨agrees i, (agrees i).live.mp live'⟩
    exact intact.canaries_frame sound' agrees.2 agrees.1 fun a _ _ _ => by rw [memory]

/-- A store inside a live payload spares every canary and the sentinel. -/
theorem Intact.write {h : KernelHeap} (intact : h.Intact) {address : Nat} {byte : UInt8}
    {i : Fin maxBlocks} (live : h.Live i) (covers : h.Covers i address) :
    (step h (.write address byte)).Intact := by
  have sound' := step_sound intact.toSound (.write address byte)
  have elsewhere : ∀ a, a ≠ address → (step h (.write address byte)).memory a = h.memory a :=
    fun a other => Function.update_of_ne other _ _
  have within := (intact.toSound.within live).1
  obtain ⟨low, high⟩ := covers
  refine ⟨sound', fun k hk => ?_, fun j live' => ?_⟩
  · rw [← intact.sentinel k hk]
    refine elsewhere _ ?_
    simp only [allocCanaryBytes, heapSentinelBytes, heapBase, pageSize4k] at *
    omega
  · have liveJ : h.Live j := live'
    refine intact.canaries_frame sound' liveJ (Agrees.of_eq rfl) fun a lowA highA uncovered => ?_
    refine elsewhere a ?_
    rintro rfl
    by_cases here : j = i
    · subst here
      exact uncovered ⟨low, high⟩
    · have separate := intact.toSound.separate here liveJ live
      unfold Separate at separate
      simp only [allocCanaryBytes] at *
      omega

end KernelHeap

/-- A client stores only inside the payload of an allocation live at that moment. -/
def HeapOp.Allowed (h : KernelHeap) : HeapOp → Prop
  | .write address _ => ∃ i, h.Live i ∧ h.Covers i address
  | _ => True

def Confined (h : KernelHeap) : List HeapOp → Prop
  | [] => True
  | op :: ops => op.Allowed h ∧ Confined (step h op) ops

theorem step_intact {h : KernelHeap} (intact : h.Intact) {op : HeapOp} (allowed : op.Allowed h) :
    (step h op).Intact := by
  cases op with
  | alloc size align => exact intact.alloc size align
  | free address => exact intact.free address
  | write address byte =>
      obtain ⟨i, live, covers⟩ := allowed
      exact intact.write live covers

theorem run_intact {h : KernelHeap} (intact : h.Intact) {ops : List HeapOp}
    (confined : Confined h ops) : (run h ops).Intact := by
  induction ops generalizing h with
  | nil => exact intact
  | cons op ops ih => exact ih (step_intact intact confined.1) confined.2

/-- The states that confined runs reach from a reset of an initialized heap. -/
def SafelyReached (h : KernelHeap) : Prop :=
  ∃ start ops, KernelHeap.Ready start ∧ Confined start.resetAllocator ops ∧
    h = run start.resetAllocator ops

/-- The address has the alignment asked for, also where the canaries asked for more. -/
theorem dvd_placement {align size : Nat} {block : HeapBlock} (power : align.isPowerOfTwo)
    (page : align ≤ maxAlignment) (placed : block.Placed size (max align allocCanaryBytes)) :
    align ∣ heapBase + block.placement (max align allocCanaryBytes) := by
  obtain ⟨k, rfl⟩ := power
  have small : k ≤ 12 := (Nat.pow_le_pow_iff_right (by decide)).mp page
  have base : 2 ^ k ∣ heapBase := (Nat.pow_dvd_pow 2 small).trans (by decide)
  have effective : 2 ^ k ∣ max (2 ^ k) allocCanaryBytes := by
    rcases Nat.le_total (2 ^ k) allocCanaryBytes with less | more
    · rw [Nat.max_eq_right less]
      have small : 2 ^ k ≤ 2 ^ 3 := less
      exact Nat.pow_dvd_pow 2 ((Nat.pow_le_pow_iff_right (by decide)).mp small)
    · rw [Nat.max_eq_left more]
  exact Nat.dvd_add base (effective.trans (Nat.dvd_of_mod_eq_zero placed.aligned))

/-- The allocation at `i` survives a call: same block, same payload bytes. -/
def KernelHeap.Untouched (h h' : KernelHeap) (i : Fin maxBlocks) : Prop :=
  h'.Live i ∧ h'.blocks i = h.blocks i ∧ ∀ a, h.Covers i a → h'.memory a = h.memory a

/-- Memory safety for clients that keep to their payloads. In every state reached
the sentinel has its bytes and every live allocation its canaries; an allocated
address has the alignment asked for, and its payload and canaries lie behind
the sentinel, inside the heap and apart from those of every other live
allocation; a call leaves every other live allocation and its payload as it
was; and a live address can be freed. -/
theorem client_memory_safety {h : KernelHeap} (reached : SafelyReached h) :
    (∀ k < heapSentinelBytes, h.memory (heapBase + k) = KernelHeap.sentinelByte k) ∧
    (∀ i, h.Live i → h.allocationCanariesOk i = true) ∧
    (∀ size align address h', h.alloc size align = (some address, h') →
      align ∣ address ∧ ∃ i, ¬ h.Live i ∧ h'.Live i ∧ h'.payload i = address ∧
        (h'.blocks i).requestedSize = size ∧
        heapBase + heapSentinelBytes ≤ address - allocCanaryBytes ∧
        address + size + allocCanaryBytes ≤ heapBase + heapSize ∧
        ∀ j, j ≠ i → h'.Live j → h'.Separate i j) ∧
    (∀ size align i, h.Live i → h.Untouched (h.alloc size align).2 i) ∧
    (∀ address i, h.Live i → h.payload i ≠ address → h.Untouched (h.free address).2 i) ∧
    (∀ i, h.Live i → (h.free (h.payload i)).1 = .ok ()) := by
  obtain ⟨start, ops, ready, confined, rfl⟩ := reached
  have intact := run_intact (KernelHeap.resetAllocator_intact ready) confined
  generalize run start.resetAllocator ops = h at intact
  have sound := intact.toSound
  refine ⟨intact.sentinel, intact.canaries, ?_, ?_, ?_, ?_⟩
  · intro size align address h' accepted
    rcases sound.alloc_cases size align with
      ⟨eq, -⟩ | ⟨index, address', g, eq, sound', -, power, page, allocates⟩
    · rw [eq] at accepted
      cases accepted
    rw [eq] at accepted
    cases accepted
    obtain ⟨taken, payloadEq, requested⟩ := allocates.taken
    have within := sound'.within taken
    rw [payloadEq, requested] at within
    obtain ⟨-, free, -⟩ := KernelHeap.findBlock_eq_some allocates.found
    refine ⟨?_, index, KernelHeap.not_live_of_free free, taken, payloadEq, requested, within.1,
      within.2, fun j other live => sound'.separate (Ne.symm other) taken live⟩
    rw [allocates.address]
    exact dvd_placement (isPowerOfTwo_iff.mp power) page allocates.placed
  · intro size align i live
    rcases sound.alloc_cases size align with
      ⟨eq, -⟩ | ⟨index, address, h', eq, sound', -, -, -, allocates⟩
    · rw [eq]
      exact ⟨live, rfl, fun a _ => rfl⟩
    · rw [eq]
      obtain ⟨-, free, -⟩ := KernelHeap.findBlock_eq_some allocates.found
      have other : i ≠ index := by
        rintro rfl
        exact KernelHeap.not_live_of_free free live
      have agrees := allocates.agrees other
      refine ⟨agrees.live.mpr live, agrees.block live, fun a covers => ?_⟩
      obtain ⟨low, high⟩ := covers
      exact allocates.memory_of_live sound' other live (by omega) (by omega)
  · intro address i live elsewhere
    have agrees : h.Agrees (h.free address).2 i := by
      rcases intact.free_cases address with ⟨index, -, payloadEq, -, -, agrees⟩ | ⟨-, agrees⟩
      · exact agrees i (fun here => elsewhere (here ▸ payloadEq))
      · exact agrees i
    exact ⟨agrees.live.mpr live, agrees.block live, fun a _ => by rw [h.free_memory]⟩
  · intro i live
    rcases intact.free_cases (h.payload i) with ⟨-, -, -, ok, -⟩ | ⟨missing, -⟩
    · exact ok
    · exact absurd rfl (missing i live)

/-- A client fills the ends of its payload, next to a second allocation. -/
def fillRun : List HeapOp :=
  [.alloc 100 16, .alloc 8 1, .write (heapBase + 80) 0xff, .write (heapBase + 179) 0xff]

theorem client_memory_safety_fillRun :
    ((run blankHeap.resetAllocator fillRun).free (heapBase + 80)).1 = .ok () := by
  have confined : Confined blankHeap.resetAllocator fillRun :=
    ⟨trivial, trivial, ⟨0, by decide +kernel, by decide +kernel⟩,
      ⟨0, by decide +kernel, by decide +kernel⟩, trivial⟩
  have live : (run blankHeap.resetAllocator fillRun).Live 0 := by decide +kernel
  have payload : (run blankHeap.resetAllocator fillRun).payload 0 = heapBase + 80 := by
    decide +kernel
  rw [← payload]
  exact (client_memory_safety ⟨blankHeap, fillRun, ⟨rfl, rfl, rfl, rfl⟩, confined, rfl⟩).2.2.2.2.2
    0 live

end CloudOS.Heap
