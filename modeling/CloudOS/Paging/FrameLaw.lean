import CloudOS.Paging.Start

/-!
The effect of every call that maps or removes a page in the boot tables: the page
it names, and no other.
-/

namespace CloudOS.Paging

open Lib.Word (satAdd satAdd_of_le)
open CloudOS.PhysMem (FrameSource AllocRegion SoundAllocator smallMap smallMap_regions
  smallMap_disjoint)

/-! ### Addresses -/

theorem tableIndex_val (virt shift : Nat) :
    (tableIndex virt shift).val = virt / 2 ^ shift % 512 := by
  calc (tableIndex virt shift).val = virt >>> shift &&& (2 ^ 9 - 1) := rfl
    _ = virt >>> shift % 2 ^ 9 := Nat.and_two_pow_sub_one_eq_mod _ 9
    _ = virt / 2 ^ shift % 512 := by rw [Nat.shiftRight_eq_div_pow]

/-- The walk reads the number of the page, up to bit 47. -/
theorem indices_eq_iff {v w : Nat} :
    indices w = indices v ↔ w / 2 ^ 12 % 2 ^ 36 = v / 2 ^ 12 % 2 ^ 36 := by
  simp only [indices, p4Index, p3Index, p2Index, p1Index, List.cons.injEq, Fin.ext_iff,
    tableIndex_val, and_true]
  omega

/-- Addresses with the same indices have the same leaf. -/
theorem leaf_of_indices {T : Nat → Fin 512 → Nat} {root v w : Nat} (same : indices w = indices v) :
    leaf T root w = leaf T root v := by
  simp only [indices, List.cons.injEq, and_true] at same
  obtain ⟨same4, same3, same2, same1⟩ := same
  rw [leaf, leaf, same4, same3, same2, same1]

/-- The addresses differ in a bit that the walk uses. -/
def DifferInPage (v w : Nat) : Prop := ∃ k, 12 ≤ k ∧ k ≤ 47 ∧ w.testBit k ≠ v.testBit k

theorem DifferInPage.indices {v w : Nat} (differ : DifferInPage v w) :
    indices w ≠ Paging.indices v := by
  obtain ⟨k, low, high, differ⟩ := differ
  intro same
  have pages := congrArg (fun n => n.testBit (k - 12)) (indices_eq_iff.mp same)
  simp only [Nat.testBit_mod_two_pow, Nat.testBit_div_two_pow] at pages
  rw [decide_eq_true (by omega), Bool.true_and, Bool.true_and, Nat.sub_add_cancel low] at pages
  exact differ pages

/-- A page begins at offset zero. -/
theorem offset_of_aligned {virt : Nat} (aligned : virt % pageSize4k = 0) :
    virt &&& (pageSize4k - 1) = 0 := by
  have low := Nat.and_two_pow_sub_one_eq_mod virt 12
  exact low.trans aligned

theorem inManagedVirtualRange_iff {virt : Nat} :
    inManagedVirtualRange virt = true ↔ kernelVirtualBase ≤ virt ∧ virt < kernelVirtualEnd := by
  simp [inManagedVirtualRange]

theorem inUserVirtualRange_iff {virt : Nat} :
    inUserVirtualRange virt = true ↔ userSpaceBase ≤ virt ∧ virt < userSpaceEnd := by
  simp [inUserVirtualRange]

theorem isGuardPage_iff {virt : Nat} : isGuardPage virt = true ↔
    kernelHeapGuardLow ≤ virt ∧ virt < kernelHeapGuardLow + pageSize4k ∨
      kernelHeapGuardHigh ≤ virt ∧ virt < kernelHeapGuardHigh + pageSize4k := by
  have low : satAdd kernelHeapGuardLow pageSize4k = kernelHeapGuardLow + pageSize4k := by decide
  have high : satAdd kernelHeapGuardHigh pageSize4k = kernelHeapGuardHigh + pageSize4k := by decide
  simp [isGuardPage, inPage, low, high]

/-- The guard pages are in the upper half. -/
theorem p4Index_guard {virt : Nat} (guard : isGuardPage virt = true) : p4Index virt ≠ 0 := by
  rw [isGuardPage_iff] at guard
  rw [p4Index, Ne, Fin.ext_iff, tableIndex_val]
  simp only [kernelHeapGuardLow, kernelHeapGuardHigh, kernelHeapBase, kernelVirtualBase, pageSize4k]
    at guard
  change ¬ virt / 2 ^ 39 % 512 = 0
  omega

/-- No page that may be mapped has the indices of a guard page. -/
theorem indices_guard {virt w flags : Nat} (inRange : inMappableVirtualRange virt flags = true)
    (aligned : virt % pageSize4k = 0) (guard : isGuardPage w = true) :
    indices w ≠ indices virt := by
  rw [Ne, indices_eq_iff]
  unfold inMappableVirtualRange at inRange
  split at inRange
  · rw [inUserVirtualRange_iff] at inRange
    rw [isGuardPage_iff] at guard
    simp only [kernelHeapGuardLow, kernelHeapGuardHigh, kernelHeapBase, kernelVirtualBase,
      pageSize4k, userSpaceBase, userSpaceEnd, bootIdentityMapBytes] at *
    omega
  · rw [Bool.and_eq_true, Bool.not_eq_true', inManagedVirtualRange_iff] at inRange
    obtain ⟨inRange, noGuard⟩ := inRange
    have noGuard : ¬ isGuardPage virt = true := by
      rw [noGuard]
      exact Bool.false_ne_true
    rw [isGuardPage_iff] at guard noGuard
    simp only [kernelHeapGuardLow, kernelHeapGuardHigh, kernelHeapBase, kernelVirtualBase,
      kernelVirtualEnd, pageSize4k] at *
    omega

/-! ### Calls -/

inductive MapCall where
  | mapNewPageOwned (virt : Nat) (owner : PageOwner)
  | mapNewUserPage (virt : Nat) (permissions : UserPagePermissions)
  | mapPage (virt phys : Nat)
  | mapUserPageWithPermissions (virt phys : Nat) (permissions : UserPagePermissions)
  | unmapPage (virt : Nat)

/-- What a call returned: the frame it mapped, the frame it had, or an error. -/
inductive Answer where
  | mapped (phys : Nat)
  | removed (phys : Nat)
  | mapError (error : MapError)
  | unmapError (error : UnmapError)
deriving DecidableEq

namespace MapCall

def virt : MapCall → Nat
  | mapNewPageOwned virt _ => virt
  | mapNewUserPage virt _ => virt
  | mapPage virt _ => virt
  | mapUserPageWithPermissions virt _ _ => virt
  | unmapPage virt => virt

/-- The flags that the call asks for. -/
def flags : MapCall → Nat
  | mapNewPageOwned _ owner => owner.defaultFlags
  | mapNewUserPage _ permissions => permissions.flags
  | mapPage _ _ => PageOwner.kernel.defaultFlags
  | mapUserPageWithPermissions _ _ permissions => permissions.flags
  | unmapPage _ => 0

/-- The entries that the call may change, those of pages apart. -/
def route : MapCall → List (Fin 512)
  | unmapPage _ => []
  | call => BootTables.route call.virt call.flags

variable {source : FrameSource}

def run (boot : BootTables) (s : Machine source) : MapCall → Answer × Machine source
  | mapNewPageOwned virt owner =>
      match s.mapNewPageOwned boot virt owner with
      | (.ok phys, s) => (.mapped phys, s)
      | (.error error, s) => (.mapError error, s)
  | mapNewUserPage virt permissions =>
      match s.mapNewUserPage boot virt permissions with
      | (.ok phys, s) => (.mapped phys, s)
      | (.error error, s) => (.mapError error, s)
  | mapPage virt phys =>
      match s.mapPage boot virt phys with
      | (.ok (), s) => (.mapped phys, s)
      | (.error error, s) => (.mapError error, s)
  | mapUserPageWithPermissions virt phys permissions =>
      match s.mapUserPageWithPermissions boot virt phys permissions with
      | (.ok (), s) => (.mapped phys, s)
      | (.error error, s) => (.mapError error, s)
  | unmapPage virt =>
      match s.unmapPage boot virt with
      | (.ok phys, s) => (.removed phys, s)
      | (.error error, s) => (.unmapError error, s)

end MapCall

/-- One call after another. -/
def runCalls {source : FrameSource} (boot : BootTables) (s : Machine source)
    (calls : List MapCall) : Machine source :=
  calls.foldl (fun s call => (call.run boot s).2) s

/-- What a call may do, by what it returned. -/
structure FrameLaw {source : FrameSource} (boot : BootTables) (s : Machine source) (call : MapCall) :
    Prop where
  mapped : ∀ phys, (call.run boot s).1 = .mapped phys →
    translate boot (call.run boot s).2.memory call.virt =
      { virt := call.virt
        phys := phys
        mapped := true
        hugePage := false
        userAccessible := entryUser call.flags
        writable := entryWritable call.flags
        executable := !entryNoExecute call.flags
        pageSize := pageSize4k }
  removed : ∀ phys, (call.run boot s).1 = .removed phys →
    translate boot (call.run boot s).2.memory call.virt = unmapped call.virt ∧
      (translate boot s.memory call.virt).mapped = true ∧
      (translate boot s.memory call.virt).phys = phys
  mapError : ∀ error, (call.run boot s).1 = .mapError error →
    ∀ w, translate boot (call.run boot s).2.memory w = translate boot s.memory w
  unmapError : ∀ error, (call.run boot s).1 = .unmapError error →
    ∀ w, translate boot (call.run boot s).2.memory w = translate boot s.memory w
  elsewhere : ∀ w, DifferInPage call.virt w →
    translate boot (call.run boot s).2.memory w = translate boot s.memory w
  guards : ∀ w, isGuardPage w = true →
    translate boot (call.run boot s).2.memory w = unmapped w

/-! ### The effect on the tables -/

section Effect

variable {source : FrameSource} {boot : BootTables} {s s' : Machine source}

/-- What a call does to the leaves of the boot tables. -/
structure Effect (boot : BootTables) (s : Machine source) (call : MapCall) (answer : Answer)
    (s' : Machine source) : Prop where
  sound : boot.Sound s'
  evolves : boot.Evolves call.route call.flags s s'
  mapped : ∀ phys, answer = .mapped phys → IsFlags call.flags ∧
    BootTables.Admissible call.virt phys call.flags ∧
    boot.Replaces s s' call.virt none (some ⟨false, phys ||| call.flags⟩)
  removed : ∀ phys, answer = .removed phys → call.virt % pageSize4k = 0 ∧
    ∃ e, entryAddr e = phys ∧ boot.Replaces s s' call.virt (some ⟨false, e⟩) none
  failed : (∀ phys, answer ≠ .mapped phys) → (∀ phys, answer ≠ .removed phys) →
    boot.SameLeaves s s'

/-- The law of a new page, as the effect of a call. -/
theorem effect_of_new (call : MapCall) {result : Except MapError Nat} (isFlags : IsFlags call.flags)
    (isRoute : call.route = BootTables.route call.virt call.flags)
    (law : boot.NewOrFails call.virt call.flags s result s') :
    Effect boot s call (match result with
      | .ok phys => .mapped phys
      | .error error => .mapError error) s' := by
  cases result with
  | error error =>
      exact ⟨law.sound, isRoute ▸ law.evolves, fun _ isMapped => (by cases isMapped),
        fun _ isRemoved => (by cases isRemoved), fun _ _ => law.failed error rfl⟩
  | ok phys =>
      refine ⟨law.sound, isRoute ▸ law.evolves, fun phys' isMapped => ?_,
        fun _ isRemoved => (by cases isRemoved), fun notMapped _ => absurd rfl (notMapped phys)⟩
      obtain rfl := Answer.mapped.inj isMapped
      obtain ⟨admissible, replaces, -⟩ := law.done phys rfl
      exact ⟨isFlags, admissible, replaces⟩

theorem effect_of_map (call : MapCall) {phys : Nat} {result : Except MapError Unit}
    (isFlags : IsFlags call.flags) (isRoute : call.route = BootTables.route call.virt call.flags)
    (law : boot.MapsOrFails call.virt phys call.flags s result s') :
    Effect boot s call (match result with
      | .ok () => .mapped phys
      | .error error => .mapError error) s' := by
  cases result with
  | error error =>
      exact ⟨law.sound, isRoute ▸ law.evolves, fun _ isMapped => (by cases isMapped),
        fun _ isRemoved => (by cases isRemoved), fun _ _ => law.failed error rfl⟩
  | ok done =>
      refine ⟨law.sound, isRoute ▸ law.evolves, fun phys' isMapped => ?_,
        fun _ isRemoved => (by cases isRemoved), fun notMapped _ => absurd rfl (notMapped phys)⟩
      obtain rfl := Answer.mapped.inj isMapped
      obtain ⟨admissible, replaces⟩ := law.done rfl
      exact ⟨isFlags, admissible, replaces⟩

theorem effect_of_unmap {virt : Nat} {result : Except UnmapError Nat}
    (law : boot.UnmapsOrFails virt s result s') :
    Effect boot s (.unmapPage virt) (match result with
      | .ok phys => .removed phys
      | .error error => .unmapError error) s' := by
  cases result with
  | error error =>
      refine ⟨law.sound, law.evolves, fun _ isMapped => (by cases isMapped),
        fun _ isRemoved => (by cases isRemoved), fun _ _ w => ?_⟩
      rw [law.failed error rfl]
  | ok phys =>
      refine ⟨law.sound, law.evolves, fun _ isMapped => (by cases isMapped),
        fun phys' isRemoved => ?_, fun _ notRemoved => absurd rfl (notRemoved phys)⟩
      obtain rfl := Answer.removed.inj isRemoved
      exact law.done phys rfl

/-- Every call has one of the four effects. -/
theorem run_effect (sound : boot.Sound s) (call : MapCall) :
    Effect boot s call (call.run boot s).1 (call.run boot s).2 := by
  cases call with
  | mapNewPageOwned virt owner =>
      cases maps : s.mapNewPageOwned boot virt owner with
      | mk result s' =>
      have effect := effect_of_new (.mapNewPageOwned virt owner) owner.isFlags rfl
        (sound.mapNewPageWithFlags owner.isFlags maps)
      rw [MapCall.run, maps]
      cases result with
      | error error => exact effect
      | ok phys => exact effect
  | mapNewUserPage virt permissions =>
      cases maps : s.mapNewUserPage boot virt permissions with
      | mk result s' =>
      have effect := effect_of_new (.mapNewUserPage virt permissions) permissions.isFlags rfl
        (sound.mapNewPageWithFlags permissions.isFlags maps)
      rw [MapCall.run, maps]
      cases result with
      | error error => exact effect
      | ok phys => exact effect
  | mapPage virt phys =>
      cases maps : s.mapPage boot virt phys with
      | mk result s' =>
      have effect := effect_of_map (.mapPage virt phys) PageOwner.kernel.isFlags rfl
        (sound.mapPageInnerWithFlags PageOwner.kernel.isFlags maps)
      rw [MapCall.run, maps]
      cases result with
      | error error => exact effect
      | ok done => exact effect
  | mapUserPageWithPermissions virt phys permissions =>
      cases maps : s.mapUserPageWithPermissions boot virt phys permissions with
      | mk result s' =>
      have effect := effect_of_map (.mapUserPageWithPermissions virt phys permissions)
        permissions.isFlags rfl (sound.mapPageInnerWithFlags permissions.isFlags maps)
      rw [MapCall.run, maps]
      cases result with
      | error error => exact effect
      | ok done => exact effect
  | unmapPage virt =>
      cases unmaps : s.unmapPage boot virt with
      | mk result s' =>
      have effect := effect_of_unmap (sound.unmapPage unmaps)
      rw [MapCall.run, unmaps]
      cases result with
      | error error => exact effect
      | ok phys => exact effect

/-- Other pages do not notice, whatever the answer. -/
theorem Effect.elsewhere {call : MapCall} {answer : Answer} (effect : Effect boot s call answer s')
    {w : Nat} (other : indices w ≠ indices call.virt) :
    leaf (tables s'.memory) boot.p4 w = leaf (tables s.memory) boot.p4 w := by
  cases answer with
  | mapped phys => exact (effect.mapped phys rfl).2.2.elsewhere w other
  | removed phys =>
      obtain ⟨-, e, -, replaces⟩ := effect.removed phys rfl
      exact replaces.elsewhere w other
  | mapError error => exact effect.failed (by simp) (by simp) w
  | unmapError error => exact effect.failed (by simp) (by simp) w

/-- The leaves of the guard pages. -/
def Guarded (boot : BootTables) (s : Machine source) : Prop :=
  ∀ w, isGuardPage w = true → leaf (tables s.memory) boot.p4 w = none

/-- No call maps a guard page. -/
theorem Effect.guarded {call : MapCall} {answer : Answer} (effect : Effect boot s call answer s')
    (guarded : Guarded boot s) : Guarded boot s' := by
  intro w guard
  by_cases same : indices w = indices call.virt
  · cases answer with
    | mapped phys =>
        obtain ⟨-, admissible, -⟩ := effect.mapped phys rfl
        exact absurd same (indices_guard admissible.inRange admissible.virtAligned guard)
    | removed phys =>
        obtain ⟨-, e, -, replaces⟩ := effect.removed phys rfl
        rw [leaf_of_indices same]
        exact replaces.after
    | mapError error =>
        rw [effect.failed (by simp) (by simp) w]
        exact guarded w guard
    | unmapError error =>
        rw [effect.failed (by simp) (by simp) w]
        exact guarded w guard
  · rw [effect.elsewhere same]
    exact guarded w guard

/-- The invariant of a run of calls. -/
theorem runCalls_sound (sound : boot.Sound s) (guarded : Guarded boot s) (calls : List MapCall) :
    boot.Sound (runCalls boot s calls) ∧ Guarded boot (runCalls boot s calls) := by
  induction calls generalizing s with
  | nil => exact ⟨sound, guarded⟩
  | cons call calls ih =>
      have effect := run_effect sound call
      exact ih effect.sound (effect.guarded guarded)

/-- The translation of a page that was just mapped. -/
theorem result_mapped {virt phys flags : Nat} (isFlags : IsFlags flags)
    (admissible : BootTables.Admissible virt phys flags) :
    (Leaf.mk false (phys ||| flags)).result virt =
      { virt
        phys
        mapped := true
        hugePage := false
        userAccessible := entryUser flags
        writable := entryWritable flags
        executable := !entryNoExecute flags
        pageSize := pageSize4k } := by
  have isFrame := admissible.isFrame
  have fits : phys + 0 ≤ Lib.Word.maxWord := by
    have := isFrame.lt_word
    simp only [Lib.Word.maxWord]
    omega
  simp only [Leaf.result, Bool.false_eq_true, if_false, isFrame.entryAddr_or isFlags.bare,
    offset_of_aligned admissible.virtAligned, satAdd_of_le fits, entryUser_or, entryWritable_or,
    entryNoExecute_or, isFrame.entryUser, isFrame.entryWritable, isFrame.entryNoExecute,
    Bool.false_or, Nat.add_zero]

/-- The physical address of a page is that of its entry. -/
theorem result_phys {virt e : Nat} (aligned : virt % pageSize4k = 0) :
    ((Leaf.mk false e).result virt).phys = entryAddr e := by
  have bound : entryAddr e ≤ entryAddrMask := Nat.and_le_right
  have fits : entryAddr e + 0 ≤ Lib.Word.maxWord := bound.trans (by decide)
  simp only [Leaf.result, Bool.false_eq_true, if_false, offset_of_aligned aligned,
    satAdd_of_le fits, Nat.add_zero]

end Effect

/-- From the tables of `_start` on, every call maps or removes the page it names or
fails without a trace, and no call maps a guard page. -/
theorem mapping_frame_law {source : FrameSource} (boot : BootTables) (reserved : boot.Reserved source)
    (s : Machine source) (calls : List MapCall) (call : MapCall) :
    FrameLaw boot (runCalls boot (boot.enter s) calls) call := by
  obtain ⟨sound, guarded⟩ := runCalls_sound (boot.enter_sound reserved s)
    (fun w guard => boot.enter_leaf s (p4Index_guard guard)) calls
  generalize runCalls boot (boot.enter s) calls = before at sound guarded
  have effect := run_effect sound call
  have guarded' := effect.guarded guarded
  have walk := sound.sheltered.translate
  have walk' := effect.sound.sheltered.translate
  refine ⟨?_, ?_, ?_, ?_, ?_, ?_⟩
  · intro phys isMapped
    obtain ⟨isFlags, admissible, replaces⟩ := effect.mapped phys isMapped
    rw [walk', replaces.after, resultOf, result_mapped isFlags admissible]
  · intro phys isRemoved
    obtain ⟨aligned, e, rfl, replaces⟩ := effect.removed phys isRemoved
    rw [walk', replaces.after, walk, replaces.before, resultOf, resultOf, result_phys aligned]
    exact ⟨rfl, rfl, rfl⟩
  · intro error isError w
    rw [walk', walk, effect.failed (by simp [isError]) (by simp [isError]) w]
  · intro error isError w
    rw [walk', walk, effect.failed (by simp [isError]) (by simp [isError]) w]
  · intro w differ
    rw [walk', walk, effect.elsewhere differ.indices]
  · intro w guard
    rw [walk', guarded' w guard, resultOf]

/-- Tables in a kernel image at the first mebibyte. -/
def imageTables : BootTables where
  p4 := 0x101000
  p3 := 0x102000
  p2 := 0x103000
  aligned := by decide
  reachable := by decide
  distinct := by decide

theorem imageTables_reserved : imageTables.Reserved (SoundAllocator.source smallMap) := by
  rintro frame ⟨region, mem, inside⟩
  rw [smallMap_regions] at mem
  simp only [List.mem_cons, List.not_mem_nil, or_false] at mem
  simp only [imageTables]
  rcases mem with rfl | rfl
  · simp only [AllocRegion.Contains] at inside
    omega
  · simp only [AllocRegion.Contains] at inside
    omega

/-- Empty memory and an allocator of four frames. -/
def smallMachine : Machine (SoundAllocator.source smallMap) :=
  ⟨fun _ => 0, SoundAllocator.start smallMap smallMap_disjoint, true, .new, {}⟩

/-- A page of the heap is mapped and removed. -/
theorem mapping_frame_law_heapPage :
    ((MapCall.mapNewPageOwned kernelHeapBase .heap).run imageTables
      (imageTables.enter smallMachine)).1 = .mapped 0x200000 ∧
    FrameLaw imageTables (runCalls imageTables (imageTables.enter smallMachine)
      [.mapNewPageOwned kernelHeapBase .heap]) (.unmapPage kernelHeapBase) :=
  ⟨by decide +kernel, mapping_frame_law imageTables imageTables_reserved smallMachine _ _⟩

end CloudOS.Paging
