import CloudOS.Paging.Records

/-!
The records of the mapper mirror the boot tables.

The pages that are mapped are known from the answers of the calls. After every sequence
of calls, the tables translate these pages and no others, and the records list them,
as long as they fit the records.
-/

namespace CloudOS.Paging

open CloudOS.PhysMem (FrameSource)
open MapperState (Mirrors)
open Machine (Recorded)

variable {source : FrameSource} {boot : BootTables} {s : Machine source}
  {pages : List MappedPage}

/-! ### The pages that the calls mapped -/

/-- The mapped pages after one more answer. -/
def notePages (pages : List MappedPage) (call : MapCall) : Answer → List MappedPage
  | .mapped phys => ⟨call.virt, phys, call.flags, call.owner⟩ :: pages
  | .removed _ => pages.filter fun page => page.virt ≠ call.virt
  | .mapError _ | .unmapError _ => pages

/-- The machine and the mapped pages after one more call. -/
def stepPages (boot : BootTables) (state : Machine source × List MappedPage) (call : MapCall) :
    Machine source × List MappedPage :=
  ((call.run boot state.1).2, notePages state.2 call (call.run boot state.1).1)

/-- The machine and the mapped pages after a sequence of calls. -/
def runPages (boot : BootTables) (s : Machine source) (calls : List MapCall) :
    Machine source × List MappedPage :=
  calls.foldl (stepPages boot) (s, [])

theorem runPages_append (s : Machine source) (calls : List MapCall) (call : MapCall) :
    runPages boot s (calls ++ [call]) = stepPages boot (runPages boot s calls) call := by
  rw [runPages, List.foldl_append]
  rfl

/-! ### Addresses of pages -/

/-- Addresses at which pages are mapped and removed. -/
structure IsPage (virt : Nat) : Prop where
  aligned : virt % pageSize4k = 0
  inRange : inManagedVirtualRange virt = true ∨ inUserVirtualRange virt = true

/-- What may be mapped is the start of a page. -/
theorem isPage_of_mappable {virt flags : Nat} (aligned : virt % pageSize4k = 0)
    (inRange : inMappableVirtualRange virt flags = true) : IsPage virt := by
  refine ⟨aligned, ?_⟩
  unfold inMappableVirtualRange at inRange
  split at inRange
  · exact .inr inRange
  · rw [Bool.and_eq_true] at inRange
    exact .inl inRange.1

/-- The walk tells pages apart. -/
theorem IsPage.eq_of_indices {v w : Nat} (isPageV : IsPage v) (isPageW : IsPage w)
    (same : indices w = indices v) : w = v := by
  obtain ⟨alignedV, rangeV⟩ := isPageV
  obtain ⟨alignedW, rangeW⟩ := isPageW
  rw [indices_eq_iff] at same
  rw [inManagedVirtualRange_iff, inUserVirtualRange_iff] at rangeV rangeW
  simp only [kernelVirtualBase, kernelVirtualEnd, userSpaceBase, userSpaceEnd,
    bootIdentityMapBytes, pageSize4k] at *
  omega

/-! ### The invariant -/

/-- A page is one that a call could map, for its owner. -/
structure MappedPage.Fits (page : MappedPage) : Prop where
  isFlags : IsFlags page.flags
  admissible : BootTables.Admissible page.virt page.phys page.flags
  owned : entryUser page.flags = true ↔ page.owner = .user

/-- The tables and the records show the pages. -/
structure Reflects (boot : BootTables) (s : Machine source) (pages : List MappedPage) : Prop where
  sound : boot.Sound s
  guarded : Guarded boot s
  fits : ∀ page ∈ pages, page.Fits
  mapped : ∀ page ∈ pages,
    leaf (tables s.memory) boot.p4 page.virt = some ⟨false, page.phys ||| page.flags⟩
  only : ∀ virt, IsPage virt → virt ∉ pages.map MappedPage.virt →
    leaf (tables s.memory) boot.p4 virt = none
  mirrors : s.mapper.Mirrors pages

namespace Reflects

theorem isPage (reflects : Reflects boot s pages) {page : MappedPage} (mem : page ∈ pages) :
    IsPage page.virt :=
  isPage_of_mappable (reflects.fits page mem).admissible.virtAligned
    (reflects.fits page mem).admissible.inRange

variable {call : MapCall} {answer : Answer} {s' : Machine source}

/-- Pages at other addresses do not notice the call. -/
theorem mapped_elsewhere (reflects : Reflects boot s pages)
    (effect : Effect boot s call answer s') (isPage : IsPage call.virt) {page : MappedPage}
    (mem : page ∈ pages) (other : page.virt ≠ call.virt) :
    leaf (tables s'.memory) boot.p4 page.virt = some ⟨false, page.phys ||| page.flags⟩ := by
  rw [effect.elsewhere fun same => other (isPage.eq_of_indices (reflects.isPage mem) same)]
  exact reflects.mapped page mem

/-- A page is mapped. -/
theorem map (reflects : Reflects boot s pages) {phys : Nat}
    (effect : Effect boot s call (.mapped phys) s') (tracks : Tracks s call (.mapped phys) s')
    (room : pages.length < maxTrackedMappings) :
    Reflects boot s' (⟨call.virt, phys, call.flags, call.owner⟩ :: pages) := by
  obtain ⟨isFlags, admissible, replaces⟩ := effect.mapped phys rfl
  have isPage := isPage_of_mappable admissible.virtAligned admissible.inRange
  have isNew : call.virt ∉ pages.map MappedPage.virt := by
    intro mem
    obtain ⟨page, mem, isVirt⟩ := List.mem_map.mp mem
    have before := reflects.mapped page mem
    rw [isVirt, replaces.before] at before
    cases before
  refine ⟨effect.sound, effect.guarded reflects.guarded, ?_, ?_, ?_, ?_⟩
  · intro page mem
    rcases List.mem_cons.mp mem with rfl | mem
    · exact ⟨isFlags, admissible, call.owner_iff⟩
    · exact reflects.fits page mem
  · intro page mem
    rcases List.mem_cons.mp mem with rfl | mem
    · exact replaces.after
    · exact reflects.mapped_elsewhere effect isPage mem
        fun same => isNew (same ▸ List.mem_map_of_mem mem)
  · intro virt isPage' missing
    rw [List.map_cons, List.mem_cons, not_or] at missing
    rw [effect.elsewhere fun same => missing.1 (isPage.eq_of_indices isPage' same)]
    exact reflects.only virt isPage' missing.2
  · have recorded := tracks.mapped phys rfl
    generalize s'.mapper = after at recorded
    cases recorded with
    | page page same => exact (reflects.mirrors.congr same).recordMapping isNew room

/-- A page is removed. -/
theorem remove (reflects : Reflects boot s pages) {phys : Nat}
    (effect : Effect boot s call (.removed phys) s') (tracks : Tracks s call (.removed phys) s') :
    Reflects boot s' (pages.filter fun page => page.virt ≠ call.virt) := by
  obtain ⟨aligned, e, -, replaces⟩ := effect.removed phys rfl
  obtain ⟨inRange, before, same, forgets⟩ := tracks.removed phys rfl
  have isPage : IsPage call.virt := ⟨aligned, inRange⟩
  have mem : call.virt ∈ pages.map MappedPage.virt := by
    by_contra missing
    have absent := reflects.only call.virt isPage missing
    rw [replaces.before] at absent
    cases absent
  obtain ⟨page, mem, isVirt⟩ := List.mem_map.mp mem
  refine ⟨effect.sound, effect.guarded reflects.guarded, ?_, ?_, ?_, ?_⟩
  · intro other isMem
    exact reflects.fits other (List.mem_of_mem_filter isMem)
  · intro other isMem
    rw [List.mem_filter, decide_eq_true_iff] at isMem
    exact reflects.mapped_elsewhere effect isPage isMem.1 isMem.2
  · intro virt isPage' missing
    by_cases here : virt = call.virt
    · rw [here]
      exact replaces.after
    · rw [effect.elsewhere fun same => here (isPage.eq_of_indices isPage' same)]
      refine reflects.only virt isPage' fun isMem => missing ?_
      obtain ⟨other, isMem, isOther⟩ := List.mem_map.mp isMem
      rw [← isOther]
      refine List.mem_map_of_mem (List.mem_filter.mpr ⟨isMem, decide_eq_true ?_⟩)
      rw [isOther]
      exact here
  · rw [forgets, ← isVirt]
    exact (reflects.mirrors.congr same).forgetMapping mem

/-- A call fails. -/
theorem fail (reflects : Reflects boot s pages) (effect : Effect boot s call answer s')
    (tracks : Tracks s call answer s') (notMapped : ∀ phys, answer ≠ .mapped phys)
    (notRemoved : ∀ phys, answer ≠ .removed phys) : Reflects boot s' pages := by
  have same := effect.failed notMapped notRemoved
  refine ⟨effect.sound, effect.guarded reflects.guarded, reflects.fits, ?_, ?_,
    reflects.mirrors.congr (tracks.failed notMapped notRemoved)⟩
  · intro page mem
    rw [same]
    exact reflects.mapped page mem
  · intro virt isPage missing
    rw [same]
    exact reflects.only virt isPage missing

/-- One call, as long as the pages fit the records. -/
theorem step (reflects : Reflects boot s pages) (call : MapCall)
    (room : (notePages pages call (call.run boot s).1).length ≤ maxTrackedMappings) :
    Reflects boot (call.run boot s).2 (notePages pages call (call.run boot s).1) := by
  have effect := run_effect reflects.sound call
  have tracks := run_tracks reflects.sound call
  generalize (call.run boot s).2 = s' at *
  cases answer : (call.run boot s).1 with
  | mapped phys =>
      rw [answer] at effect tracks room
      exact reflects.map effect tracks room
  | removed phys =>
      rw [answer] at effect tracks
      exact reflects.remove effect tracks
  | mapError error =>
      rw [answer] at effect tracks
      exact reflects.fail effect tracks (by simp) (by simp)
  | unmapError error =>
      rw [answer] at effect tracks
      exact reflects.fail effect tracks (by simp) (by simp)

end Reflects

/-! ### Every sequence of calls -/

namespace BootTables

/-- `_start` builds the tables, and `init` readies the mapper. -/
def launch (boot : BootTables) (s : Machine source) : Machine source :=
  boot.enter { s with initialized := true, mapper := MapperState.new.init }

/-- At first no page is mapped. -/
theorem launch_leaf (s : Machine source) {virt : Nat} (isPage : IsPage virt) :
    leaf (tables (boot.launch s).memory) boot.p4 virt = none := by
  by_cases low : p4Index virt = 0
  · have started := boot.start_started s.memory
    have high : p3Index virt ≠ 0 := by
      have inRange := isPage.inRange
      rw [inManagedVirtualRange_iff, inUserVirtualRange_iff] at inRange
      rw [p4Index, Fin.ext_iff, tableIndex_val] at low
      rw [p3Index, Ne, Fin.ext_iff, tableIndex_val]
      simp only [kernelVirtualBase, kernelVirtualEnd, userSpaceBase, userSpaceEnd,
        bootIdentityMapBytes] at inRange
      change virt / 2 ^ 39 % 512 = 0 at low
      change ¬ virt / 2 ^ 30 % 512 = 0
      omega
    have toP3 : child (tables (boot.launch s).memory boot.p4 (p4Index virt)) = some boot.p3 :=
      (started.child_p4 _).trans (if_pos low)
    have vacant : child (tables (boot.launch s).memory boot.p3 (p3Index virt)) = none :=
      (started.child_p3 _).trans (if_neg high)
    rw [leaf, Lib.Radix.node, toP3, Option.bind_some, Lib.Radix.node, vacant]
    rfl
  · exact boot.enter_leaf _ low

/-- At the start nothing is mapped. -/
theorem launch_reflects (reserved : boot.Reserved source) (s : Machine source) :
    Reflects boot (boot.launch s) [] where
  sound := boot.enter_sound reserved _
  guarded := fun _ guard => boot.enter_leaf _ (p4Index_guard guard)
  fits := fun _ mem => absurd mem List.not_mem_nil
  mapped := fun _ mem => absurd mem List.not_mem_nil
  only := fun _ isPage _ => launch_leaf s isPage
  mirrors := MapperState.init_mirrors

end BootTables

/-- The pages fit the records at every time. -/
def FewPages (boot : BootTables) (s : Machine source) (calls : List MapCall) : Prop :=
  ∀ before, before <+: calls → (runPages boot s before).2.length ≤ maxTrackedMappings

/-- A call maps one page at most. -/
theorem runPages_length (s : Machine source) (calls : List MapCall) :
    (runPages boot s calls).2.length ≤ calls.length := by
  induction calls using List.reverseRecOn with
  | nil => exact le_rfl
  | append_singleton calls call ih =>
      rw [runPages_append, stepPages, List.length_append, List.length_singleton]
      cases (call.run boot (runPages boot s calls).1).1 with
      | mapped phys => exact Nat.succ_le_succ ih
      | removed phys => exact (List.length_filter_le _ _).trans (ih.trans (Nat.le_succ _))
      | mapError error => exact ih.trans (Nat.le_succ _)
      | unmapError error => exact ih.trans (Nat.le_succ _)

/-- Short sequences of calls cannot map too many pages. -/
theorem fewPages_of_length {calls : List MapCall} (short : calls.length ≤ maxTrackedMappings) :
    FewPages boot s calls := fun before isPrefix =>
  (runPages_length s before).trans (isPrefix.length_le.trans short)

/-- By induction over the calls: the list, the records and the tables speak of the same pages.
-/
theorem runPages_reflects (reserved : boot.Reserved source) (s : Machine source)
    (calls : List MapCall) (few : FewPages boot (boot.launch s) calls) :
    Reflects boot (runPages boot (boot.launch s) calls).1
      (runPages boot (boot.launch s) calls).2 := by
  induction calls using List.reverseRecOn with
  | nil => exact BootTables.launch_reflects reserved s
  | append_singleton calls call ih =>
      have room := few (calls ++ [call]) List.prefix_rfl
      rw [runPages_append] at room ⊢
      refine (ih fun before isPrefix => ?_).step call room
      exact few before (isPrefix.trans (List.prefix_append _ _))

/-- The records are those of the mapped pages, the tables translate these pages and no
others, and the audit finds nothing. -/
structure Mirrored (boot : BootTables) (s : Machine source) (pages : List MappedPage) : Prop where
  lists : Lib.Roster.Lists MappedPage.virt s.mapper.tracked pages
  translated : ∀ page ∈ pages, translate boot s.memory page.virt =
    { virt := page.virt
      phys := page.phys
      mapped := true
      hugePage := false
      userAccessible := entryUser page.flags
      writable := entryWritable page.flags
      executable := !entryNoExecute page.flags
      pageSize := pageSize4k }
  unmapped : ∀ virt, IsPage virt → virt ∉ pages.map MappedPage.virt →
    translate boot s.memory virt = Paging.unmapped virt
  trackingOverflows : s.mapper.trackingOverflows = 0
  trackingMisses : s.mapper.trackingMisses = 0
  violations : (permissionAudit boot s.memory s.mapper).violations = 0
  trackingConsistent : (permissionAudit boot s.memory s.mapper).trackingConsistent = true
  guardPagesIntact : (permissionAudit boot s.memory s.mapper).guardPagesIntact = true

/-- A page is in the range that its owner may use. -/
theorem MappedPage.Fits.ownerAgrees {page : MappedPage} (fits : page.Fits) :
    PermissionAudit.ownerAgrees page.virt (entryUser page.flags) page.owner = true := by
  have inRange : (if entryUser page.flags then inUserVirtualRange page.virt
      else inManagedVirtualRange page.virt && !isGuardPage page.virt) = true :=
    fits.admissible.inRange
  have managed : page.owner ≠ .user →
      (inManagedVirtualRange page.virt && !entryUser page.flags) = true := by
    intro other
    have noUser : entryUser page.flags = false := by
      rw [← Bool.not_eq_true, fits.owned]
      exact other
    rw [noUser, if_neg Bool.false_ne_true, Bool.and_eq_true] at inRange
    rw [noUser, inRange.1]
    rfl
  cases isOwner : page.owner with
  | user =>
      have user := fits.owned.mpr isOwner
      rw [user, if_pos rfl] at inRange
      rw [user, PermissionAudit.ownerAgrees, inRange]
      rfl
  | kernel => exact managed (by simp [isOwner])
  | heap => exact managed (by simp [isOwner])
  | test => exact managed (by simp [isOwner])

/-- The audit agrees with a page that is mapped as it should be. -/
theorem MappedPage.Fits.agrees {page : MappedPage} (fits : page.Fits)
    (translated : translate boot s.memory page.virt =
      (Leaf.mk false (page.phys ||| page.flags)).result page.virt) :
    PermissionAudit.agrees boot s.memory
      ⟨page.virt, page.phys, page.flags, page.owner, true⟩ = true := by
  have execute : (page.flags &&& noExecuteBit == 0) = !entryNoExecute page.flags := by
    simp [entryNoExecute, bne]
  rw [result_mapped fits.isFlags fits.admissible] at translated
  unfold PermissionAudit.agrees
  rw [translated]
  dsimp only
  rw [execute, fits.ownerAgrees]
  simp [entryUser, entryWritable]

/-- What is reflected passes the audit. -/
theorem Reflects.mirrored (reflects : Reflects boot s pages) : Mirrored boot s pages := by
  have walk := reflects.sound.sheltered.translate
  have translated : ∀ page ∈ pages, translate boot s.memory page.virt =
      (Leaf.mk false (page.phys ||| page.flags)).result page.virt := by
    intro page mem
    rw [walk, reflects.mapped page mem, resultOf]
  have agree : ∀ i, (s.mapper.records i).active = true →
      PermissionAudit.agrees boot s.memory (s.mapper.records i) = true := by
    intro i active
    have isTracked : s.mapper.tracked i = some ⟨_, _, _, _⟩ := if_pos active
    have mem := reflects.mirrors.lists.used i _ isTracked
    rw [MapperState.tracked_eq_some.mp isTracked]
    exact (reflects.fits _ mem).agrees (translated _ mem)
  have guards : ∀ w, isGuardPage w = true → translate boot s.memory w = unmapped w := by
    intro w guard
    rw [walk, reflects.guarded w guard, resultOf]
  obtain ⟨violations, intact, consistent⟩ :=
    permissionAudit_clean agree reflects.mirrors.trackingOverflows guards
  refine ⟨reflects.mirrors.lists, ?_, ?_, reflects.mirrors.trackingOverflows,
    reflects.mirrors.trackingMisses, violations, consistent, intact⟩
  · intro page mem
    rw [translated page mem]
    exact result_mapped (reflects.fits page mem).isFlags (reflects.fits page mem).admissible
  · intro virt isPage missing
    rw [walk, reflects.only virt isPage missing, resultOf]

/-- From the start on, the records mirror the tables after every sequence of calls. -/
theorem records_mirror_tables {source : FrameSource} (boot : BootTables)
    (reserved : boot.Reserved source) (s : Machine source) (calls : List MapCall)
    (few : FewPages boot (boot.launch s) calls) :
    Mirrored boot (runPages boot (boot.launch s) calls).1
      (runPages boot (boot.launch s) calls).2 :=
  (runPages_reflects reserved s calls few).mirrored

/-- A page of the heap and one for given memory are mapped, and the first is removed. -/
def threeCalls : List MapCall :=
  [.mapNewPageOwned kernelHeapBase .heap, .mapPage (kernelHeapBase + pageSize4k) 0x500000,
    .unmapPage kernelHeapBase]

theorem records_mirror_tables_threeCalls :
    (runPages imageTables (imageTables.launch smallMachine) threeCalls).2 =
      [⟨kernelHeapBase + pageSize4k, 0x500000, 0x3, .kernel⟩] ∧
    Mirrored imageTables (runPages imageTables (imageTables.launch smallMachine) threeCalls).1
      (runPages imageTables (imageTables.launch smallMachine) threeCalls).2 :=
  ⟨by decide +kernel, records_mirror_tables imageTables imageTables_reserved smallMachine threeCalls
    (fewPages_of_length (by decide))⟩

end CloudOS.Paging
