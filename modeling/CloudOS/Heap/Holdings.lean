import CloudOS.Heap.History

/-!
The addresses that clients of the heap hold, as the operations change them.
-/

namespace CloudOS.Heap.KernelHeap

variable {h h' : KernelHeap} {size align address : Nat}

/-- The address is that of a live allocation. -/
def Holds (h : KernelHeap) (address : Nat) : Prop := ∃ i, h.Live i ∧ h.payload i = address

theorem Holds.positive (holds : h.Holds address) : address ≠ 0 := by
  obtain ⟨i, -, rfl⟩ := holds
  exact Nat.ne_of_gt (Nat.add_pos_left (by decide) _)

theorem holds_of_blocks (blocks : h'.blocks = h.blocks) (address : Nat) :
    h'.Holds address ↔ h.Holds address := by
  unfold Holds Live payload
  rw [blocks]

/-- Nobody had what is allocated. -/
theorem Allocates.fresh {index : Fin maxBlocks} (sound : h'.Sound)
    (allocates : h.Allocates size align index address h') : ¬ h.Holds address := by
  rintro ⟨i, live, payload⟩
  obtain ⟨taken, payload', -⟩ := allocates.taken
  obtain ⟨-, free, -⟩ := findBlock_eq_some allocates.found
  have other : i ≠ index := by
    rintro rfl
    exact not_live_of_free free live
  have agrees := allocates.agrees other
  refine other (sound.payload_injective (agrees.live.mpr live) taken ?_)
  rw [payload', ← payload, KernelHeap.payload, KernelHeap.payload, agrees.block live]

/-- The address that is handed out was held by nobody. -/
theorem Intact.alloc_some (intact : h.Intact)
    (allocs : h.alloc size align = (some address, h')) :
    h'.Intact ∧ ¬ h.Holds address ∧ ∀ a, h'.Holds a ↔ a = address ∨ h.Holds a := by
  have intact' := intact.alloc size align
  rcases intact.toSound.alloc_cases size align with
    ⟨eq, -⟩ | ⟨index, address', h'', eq, sound, -, -, -, allocates⟩
  · rw [eq] at allocs
    cases allocs
  · rw [eq] at allocs intact'
    obtain ⟨isAddress, rfl⟩ := Prod.mk.inj allocs
    obtain rfl := Option.some.inj isAddress
    exact ⟨intact', allocates.fresh sound, allocates.live_payload⟩

/-- A failed allocation changes no holdings. -/
theorem Intact.alloc_none (intact : h.Intact) (allocs : h.alloc size align = (none, h')) :
    h'.Intact ∧ ∀ a, h'.Holds a ↔ h.Holds a := by
  have intact' := intact.alloc size align
  rcases intact.toSound.alloc_cases size align with ⟨eq, -⟩ | ⟨index, address', h'', eq, -⟩
  · rw [eq] at allocs intact'
    obtain ⟨-, rfl⟩ := Prod.mk.inj allocs
    exact ⟨intact', holds_of_blocks rfl⟩
  · rw [eq] at allocs
    cases allocs

/-- What is held is accepted back. -/
theorem Intact.free_held (intact : h.Intact) (holds : h.Holds address) :
    (h.free address).1 = .ok () ∧ (h.free address).2.Intact ∧
      ∀ a, (h.free address).2.Holds a ↔ a ≠ address ∧ h.Holds a := by
  have freed : (h.free address).1 = .ok () := by
    rcases intact.free_cases address with ⟨-, -, -, freed, -⟩ | ⟨dead, -⟩
    · exact freed
    · obtain ⟨i, live, payload⟩ := holds
      exact absurd payload (dead i live)
  have left := intact.toSound.live_of_freed address freed
  refine ⟨freed, intact.free address, fun a => ⟨?_, ?_⟩⟩
  · rintro ⟨i, live', rfl⟩
    obtain ⟨live, away⟩ := (left i).1.mp live'
    rw [KernelHeap.payload, (left i).2 live']
    exact ⟨away, i, live, rfl⟩
  · rintro ⟨away, i, live, rfl⟩
    have live' := (left i).1.mpr ⟨live, away⟩
    refine ⟨i, live', ?_⟩
    rw [KernelHeap.payload, KernelHeap.payload, (left i).2 live']

end CloudOS.Heap.KernelHeap
