import CloudOS.Heap.Complete
import CloudOS.Heap.Safety
import CloudOS.Lib.Custody
import CloudOS.Lib.RingBuffer

/-!
The heap and its history.

A history lists the addresses that `alloc` gave out and those that `free` took
back, in order. In every run the live allocations are the addresses held after
the history, and the ring of recent frees holds the last addresses returned;
so what `free` answers is a matter of the history and of the canaries alone,
although blocks are merged and carved anew in between. When everything was
returned no allocated block is left, and maximal free blocks that tile the heap
are a single one.
-/

namespace CloudOS.Heap

open Lib.Custody (Event Held Settled returns settled_iff)
open Lib.RingBuffer (Logs cell)

def freeEvent (address : Nat) : Except FreeError Unit → Option (Event Nat)
  | .ok () => some (.returned address)
  | .error _ => none

/-- What a call shows its caller. -/
def event (h : KernelHeap) : HeapOp → Option (Event Nat)
  | .alloc size align => (h.alloc size align).1.map .given
  | .free address => freeEvent address (h.free address).1
  | .write _ _ => none

def history (h : KernelHeap) : List HeapOp → List (Event Nat)
  | [] => []
  | op :: ops => (event h op).toList ++ history (step h op) ops

namespace KernelHeap

/-- The canaries around the live allocation at the address. -/
def CanariesIntact (h : KernelHeap) (address : Nat) : Prop :=
  ∀ i, h.Live i → h.payload i = address →
    readU64 h.memory (address - allocCanaryBytes) = allocCanaryHead ∧
      readU64 h.memory (address + (h.blocks i).requestedSize) = allocCanaryTail

/-- The canaries are read where they were written. -/
theorem Sound.canariesIntact_iff {h : KernelHeap} (sound : h.Sound) {index : Fin maxBlocks}
    (live : h.Live index) :
    h.CanariesIntact (h.payload index) ↔ h.allocationCanariesOk index = true := by
  rw [sound.canariesOk_iff live]
  constructor
  · exact fun intact => intact index live rfl
  · intro ok i liveI same
    rw [sound.payload_injective liveI live same]
    exact ok

/-- The heap and the history tell the same story. -/
structure Tracks (h : KernelHeap) (events : List (Event Nat)) : Prop where
  coalesced : h.Coalesced
  held : ∀ address, (∃ i, h.Live i ∧ h.payload i = address) ↔ Held events address
  next : h.recentFreeIndex = cell recentFreeCount (returns events).length
  logs : Logs h.recentFrees 0 (returns events)
  proper : ∀ address ∈ returns events, address ≠ 0

theorem resetAllocator_tracks {h : KernelHeap} (ready : h.Ready) : h.resetAllocator.Tracks [] where
  coalesced := ⟨resetAllocator_sound ready, resetAllocator_maximal h⟩
  held := by
    intro address
    refine iff_of_false ?_ Lib.Custody.not_held_nil
    rintro ⟨i, live, -⟩
    have intact := resetAllocator_intact ready
    refine not_live_of_free ?_ live
    change (Function.update (fun _ => HeapBlock.empty) 0 _ i).allocated = false
    rw [Function.update_apply]
    split
    · rfl
    · rfl
  next := rfl
  logs := Logs.nil 0
  proper := nofun

theorem Tracks.of_blocks {h h' : KernelHeap} {events : List (Event Nat)} (tracks : h.Tracks events)
    (coalesced : h'.Coalesced) (blocks : h'.blocks = h.blocks)
    (recent : h'.recentFrees = h.recentFrees) (next : h'.recentFreeIndex = h.recentFreeIndex) :
    h'.Tracks events := by
  refine ⟨coalesced, fun address => ?_, next.trans tracks.next, ?_, tracks.proper⟩
  · rw [← tracks.held]
    unfold Live payload
    rw [blocks]
  · rw [recent]
    exact tracks.logs

theorem cell_succ (k : Nat) : cell recentFreeCount (k + 1) = cell recentFreeCount k + 1 := by
  apply Fin.ext
  simp [cell, Fin.ofNat, Fin.val_add]

/-- An allocation does not touch the ring of recent frees. -/
theorem alloc_recentFrees (h : KernelHeap) (size align : Nat) :
    (h.alloc size align).2.recentFrees = h.recentFrees ∧
      (h.alloc size align).2.recentFreeIndex = h.recentFreeIndex := by
  unfold alloc
  split
  · exact ⟨rfl, rfl⟩
  split
  · exact ⟨rfl, rfl⟩
  dsimp only
  cases h.findBlock size (max align allocCanaryBytes) with
  | none => exact ⟨rfl, rfl⟩
  | some index =>
      have frame := h.carve_eq index size (max align allocCanaryBytes)
      constructor
      · change (h.carve index size (max align allocCanaryBytes)).recentFrees = _
        rw [frame]
      · change (h.carve index size (max align allocCanaryBytes)).recentFreeIndex = _
        rw [frame]

theorem Allocates.live_payload {h h' : KernelHeap} {size align address : Nat}
    {index : Fin maxBlocks} (allocates : h.Allocates size align index address h') (other : Nat) :
    (∃ i, h'.Live i ∧ h'.payload i = other) ↔
      other = address ∨ ∃ i, h.Live i ∧ h.payload i = other := by
  obtain ⟨taken, payload, -⟩ := allocates.taken
  obtain ⟨-, free, -⟩ := findBlock_eq_some allocates.found
  constructor
  · rintro ⟨i, live, rfl⟩
    by_cases here : i = index
    · exact .inl (here ▸ payload)
    · have agrees := allocates.agrees here
      have before := agrees.live.mp live
      refine .inr ⟨i, before, ?_⟩
      rw [KernelHeap.payload, KernelHeap.payload, agrees.block before]
  · rintro (rfl | ⟨i, live, rfl⟩)
    · exact ⟨index, taken, payload⟩
    · have other : i ≠ index := by
        rintro rfl
        exact not_live_of_free free live
      have agrees := allocates.agrees other
      refine ⟨i, agrees.live.mpr live, ?_⟩
      rw [KernelHeap.payload, KernelHeap.payload, agrees.block live]

/-- An address that is handed out is live from then on. -/
theorem Tracks.alloc {h : KernelHeap} {events : List (Event Nat)} (tracks : h.Tracks events)
    (size align : Nat) :
    (h.alloc size align).2.Tracks (events ++ ((h.alloc size align).1.map Event.given).toList) := by
  have coalesced := tracks.coalesced.alloc size align
  obtain ⟨recent, next⟩ := h.alloc_recentFrees size align
  rcases tracks.coalesced.toSound.alloc_cases size align with
    ⟨eq, -⟩ | ⟨index, address, h', eq, -, -, -, -, allocates⟩
  · rw [eq] at coalesced ⊢
    rw [Option.map_none, Option.toList_none, List.append_nil]
    exact tracks.of_blocks coalesced rfl rfl rfl
  · rw [eq] at coalesced recent next ⊢
    rw [Option.map_some, Option.toList_some]
    dsimp only at coalesced recent next ⊢
    constructor
    · exact coalesced
    · intro other
      rw [Lib.Custody.held_given, allocates.live_payload, tracks.held]
    · rw [next, Lib.Custody.returns_given]
      exact tracks.next
    · rw [recent, Lib.Custody.returns_given]
      exact tracks.logs
    · rw [Lib.Custody.returns_given]
      exact tracks.proper

/-- What a successful `free` leaves live. -/
theorem Sound.live_of_freed {h : KernelHeap} (sound : h.Sound) (address : Nat)
    (freed : (h.free address).1 = .ok ()) (i : Fin maxBlocks) :
    ((h.free address).2.Live i ↔ h.Live i ∧ h.payload i ≠ address) ∧
      ((h.free address).2.Live i → (h.free address).2.blocks i = h.blocks i) := by
  have frees := sound.frees address
  rw [freed] at frees
  cases frees with
  | @released index live payload _ gone others _ _ =>
      by_cases here : i = index
      · subst here
        exact ⟨iff_of_false gone fun left => left.2 payload, fun live' => absurd live' gone⟩
      · have agrees := others i here
        refine ⟨?_, fun live' => agrees.block (agrees.live.mp live')⟩
        rw [agrees.live]
        refine ⟨fun liveI => ⟨liveI, fun same => ?_⟩, fun left => left.1⟩
        exact here (sound.payload_injective liveI live (same.trans payload.symm))

/-- An address is answered by what is known of it: live, freed recently, or neither. -/
theorem Tracks.free {h : KernelHeap} {events : List (Event Nat)} (tracks : h.Tracks events)
    (address : Nat) :
    (h.free address).2.Tracks
      (events ++ (freeEvent address (h.free address).1).toList) := by
  have sound := tracks.coalesced.toSound
  have coalesced := tracks.coalesced.free address
  have left := sound.live_of_freed address
  have frees := sound.frees address
  generalize (h.free address).1 = answer at left frees ⊢
  generalize (h.free address).2 = h' at coalesced left frees ⊢
  cases frees with
  | released live payload _ _ _ recent next =>
      have positive : address ≠ 0 := by
        rw [← payload]
        exact Nat.ne_of_gt (Nat.add_pos_left (by decide) _)
      rw [freeEvent, Option.toList_some]
      constructor
      · exact coalesced
      · intro other
        rw [Lib.Custody.held_returned, ← tracks.held]
        constructor
        · rintro ⟨i, live', rfl⟩
          obtain ⟨before, away⟩ := (left rfl i).1.mp live'
          have same := (left rfl i).2 live'
          rw [KernelHeap.payload, same]
          exact ⟨away, i, before, rfl⟩
        · rintro ⟨away, i, before, rfl⟩
          have live' := (left rfl i).1.mpr ⟨before, away⟩
          have same := (left rfl i).2 live'
          refine ⟨i, live', ?_⟩
          rw [KernelHeap.payload, same]
          rfl
      · rw [next, Lib.Custody.returns_returned, List.length_append, tracks.next]
        exact (cell_succ _).symm
      · rw [recent, Lib.Custody.returns_returned, tracks.next]
        exact tracks.logs.push address
      · intro other mem
        rw [Lib.Custody.returns_returned, List.mem_append, List.mem_singleton] at mem
        rcases mem with mem | rfl
        · exact tracks.proper other mem
        · exact positive
  | damaged _ _ _ blocks recent next =>
      rw [freeEvent, Option.toList_none, List.append_nil]
      exact tracks.of_blocks coalesced blocks recent next
  | missing _ blocks recent next =>
      rw [freeEvent, Option.toList_none, List.append_nil]
      exact tracks.of_blocks coalesced blocks recent next

end KernelHeap

theorem step_tracks {h : KernelHeap} {events : List (Event Nat)} (tracks : h.Tracks events)
    (op : HeapOp) : (step h op).Tracks (events ++ (event h op).toList) := by
  cases op with
  | alloc size align => exact tracks.alloc size align
  | free address => exact tracks.free address
  | write address byte =>
      rw [event, Option.toList_none, List.append_nil]
      exact tracks.of_blocks (step_coalesced tracks.coalesced (.write address byte)) rfl rfl rfl

/-- By induction over the calls. -/
theorem run_tracks {h : KernelHeap} {events : List (Event Nat)} (tracks : h.Tracks events)
    (ops : List HeapOp) : (run h ops).Tracks (events ++ history h ops) := by
  induction ops generalizing h events with
  | nil =>
      rw [history, List.append_nil]
      exact tracks
  | cons op ops ih =>
      rw [history, ← List.append_assoc]
      exact ih (step_tracks tracks op)

theorem reset_tracks {start : KernelHeap} (ready : start.Ready) (ops : List HeapOp) :
    (run start.resetAllocator ops).Tracks (history start.resetAllocator ops) :=
  run_tracks (KernelHeap.resetAllocator_tracks ready) ops

/-- The ring knows exactly the last addresses returned. -/
theorem KernelHeap.Tracks.wasRecentlyFreed_iff {h : KernelHeap} {events : List (Event Nat)}
    (tracks : h.Tracks events) (address : Nat) :
    h.wasRecentlyFreed address = true ↔
      address ∈ Lib.Custody.recent recentFreeCount events := by
  unfold KernelHeap.wasRecentlyFreed Lib.Custody.recent
  by_cases zero : address = 0
  · rw [if_pos zero, zero]
    refine iff_of_false Bool.false_ne_true fun mem => ?_
    exact tracks.proper 0 (List.mem_of_mem_drop mem) rfl
  · rw [if_neg zero, ← tracks.logs.mem_iff zero]
    simp

/-! ### Fragmentation -/

/-- The table consists of one block, free, that covers all behind the sentinel. -/
def KernelHeap.Whole (h : KernelHeap) : Prop :=
  ∃ i, (h.blocks i).available = true ∧ (h.blocks i).offset = heapSentinelBytes ∧
    (h.blocks i).offset + (h.blocks i).size = heapSize ∧
    ∀ j, (h.blocks j).active = true → j = i

/-- Without an allocation every byte behind the sentinel is free. -/
theorem KernelHeap.Coalesced.whole {h : KernelHeap} (coalesced : h.Coalesced)
    (dead : ∀ i, ¬ h.Live i) : h.Whole := by
  have tiled := coalesced.tiled
  have available : ∀ i, (h.blocks i).active = true → (h.blocks i).available = true := by
    intro i active
    rw [HeapBlock.available_iff]
    exact ⟨active, Bool.eq_false_iff.mpr fun allocated => dead i ⟨active, allocated⟩⟩
  have free : ∀ x, heapSentinelBytes ≤ x → x < heapSize → h.FreeByte x := by
    intro x low high
    obtain ⟨i, mem⟩ := tiled.partition.mem_iff.mp (Finset.mem_Ico.mpr ⟨low, high⟩)
    obtain ⟨active, start, stop⟩ := HeapBlock.mem_area.mp mem
    exact ⟨i, available i active, start, stop⟩
  obtain ⟨i, availableI, start, stop⟩ :=
    KernelHeap.FreeByte.stretch tiled coalesced.maximal (by decide) free
  have active := (HeapBlock.available_iff.mp availableI).1
  have bounds := tiled.bounds active
  refine ⟨i, availableI, le_antisymm start bounds.1, le_antisymm bounds.2 stop, ?_⟩
  intro j activeJ
  by_contra other
  have boundsJ := tiled.bounds activeJ
  have nonempty := (tiled.formed j activeJ).nonempty
  have apart := tiled.apart other activeJ active
  omega

/-- The heap does not stay fragmented. Coalescing ends, with no pair left to
merge; in every state that a run reaches no two free blocks are adjacent; and once
everything that was allocated has been freed, in whatever order, a single free
block covers the heap. -/
theorem fragments_heal {start : KernelHeap} (ready : start.Ready) (ops : List HeapOp) :
    (∀ h : KernelHeap, ∃ bound, KernelHeap.coalesceLoop bound h = some h.coalesceFreeBlocks ∧
      h.coalesceFreeBlocks.findMerge = none) ∧
    Maximal (run start.resetAllocator ops).blocks ∧
    (Settled (history start.resetAllocator ops) → (run start.resetAllocator ops).Whole) := by
  have tracks := reset_tracks ready ops
  refine ⟨fun h => ?_, tracks.coalesced.maximal, fun settled => ?_⟩
  · exact ⟨_, (Option.some_get _).symm, h.coalesceFreeBlocks_findMerge⟩
  · refine tracks.coalesced.whole fun i live => ?_
    exact settled_iff.mp settled _ ((tracks.held _).mp ⟨i, live, rfl⟩)

/-- Three allocations are freed, the middle one last. -/
def settledRun : List HeapOp :=
  [.alloc 100 16, .alloc 64 8, .alloc 8 1, .free (heapBase + 80), .free (heapBase + 280),
    .free (heapBase + 200)]

theorem fragments_heal_settledRun : (run blankHeap.resetAllocator settledRun).Whole := by
  have settled : Settled (history blankHeap.resetAllocator settledRun) := by decide +kernel
  exact (fragments_heal ⟨rfl, rfl, rfl, rfl⟩ settledRun).2.2 settled

/-! ### The answers of `free` -/

/-- `free` classifies every address by the history: it takes back exactly the
addresses held between intact canaries, finds corruption where one is damaged,
and of the others calls exactly the last sixteen returned ones a double free. An
error leaves the block table as it was; a success ends that allocation alone. -/
theorem free_classifies {start : KernelHeap} (ready : start.Ready) (ops : List HeapOp)
    (address : Nat) :
    let h := run start.resetAllocator ops
    let events := history start.resetAllocator ops
    let h' := (h.free address).2
    (∀ a, (∃ i, h.Live i ∧ h.payload i = a) ↔ Held events a) ∧
    ((h.free address).1 = .ok () ↔ Held events address ∧ h.CanariesIntact address) ∧
    ((h.free address).1 = .error .corruption ↔
      Held events address ∧ ¬ h.CanariesIntact address) ∧
    ((h.free address).1 = .error .doubleFree ↔
      ¬ Held events address ∧ address ∈ Lib.Custody.recent recentFreeCount events) ∧
    ((h.free address).1 = .error .invalidPointer ↔
      ¬ Held events address ∧ address ∉ Lib.Custody.recent recentFreeCount events) ∧
    (∀ error, (h.free address).1 = .error error → h'.blocks = h.blocks) ∧
    ((h.free address).1 = .ok () → ∀ i, (h'.Live i ↔ h.Live i ∧ h.payload i ≠ address) ∧
      (h'.Live i → h'.blocks i = h.blocks i)) := by
  have tracks := reset_tracks ready ops
  generalize run start.resetAllocator ops = h at tracks ⊢
  generalize history start.resetAllocator ops = events at tracks ⊢
  have sound := tracks.coalesced.toSound
  have left := sound.live_of_freed address
  have recent := tracks.wasRecentlyFreed_iff address
  have frees := sound.frees address
  dsimp only
  generalize (h.free address).1 = answer at left frees ⊢
  generalize (h.free address).2 = h' at left frees ⊢
  refine ⟨tracks.held, ?_⟩
  cases frees with
  | released live payload canaries _ _ _ _ =>
      have held : Held events address := (tracks.held address).mp ⟨_, live, payload⟩
      have intact : h.CanariesIntact address := by
        rw [← payload, sound.canariesIntact_iff live]
        exact canaries
      simpa [held, intact] using left rfl
  | damaged live payload canaries blocks _ _ =>
      have held : Held events address := (tracks.held address).mp ⟨_, live, payload⟩
      have broken : ¬ h.CanariesIntact address := by
        rw [← payload, sound.canariesIntact_iff live, canaries]
        exact Bool.false_ne_true
      simp [held, broken, blocks]
  | missing dead blocks _ _ =>
      have unheld : ¬ Held events address := by
        rw [← tracks.held]
        rintro ⟨i, live, payload⟩
        exact dead i live payload
      by_cases freed : h.wasRecentlyFreed address = true
      · simp [unheld, freed, recent.mp freed, blocks]
      · simp [unheld, freed, mt recent.mpr freed, blocks]

/-- A freed address is given out again while the ring still lists it. -/
def reusedRun : List HeapOp :=
  [.alloc 100 16, .alloc 8 1, .free (heapBase + 80), .alloc 16 16, .free (heapBase + 88)]

theorem free_classifies_reusedRun :
    Held (history blankHeap.resetAllocator reusedRun) (heapBase + 80) := by
  have freed : ((run blankHeap.resetAllocator reusedRun).free (heapBase + 80)).1 = .ok () := by
    decide +kernel
  exact ((free_classifies ⟨rfl, rfl, rfl, rfl⟩ reusedRun (heapBase + 80)).2.1.mp freed).1

end CloudOS.Heap
