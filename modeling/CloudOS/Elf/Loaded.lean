import CloudOS.Elf.Copy
import CloudOS.Paging.Supply

/-!
What a loaded image looks like, and that any placement of its pages in frames of their
own becomes one when the segments are copied.
-/

namespace CloudOS.Elf

open Lib (PageMap)
open Lib.Store (Memory)
open CloudOS.Paging (TranslateResult UserPage UserPagePermissions IsFrame InUserSlot InImageRegion
  pageSize4k userElfBase userElfEnd userElfStackPage userElfStackGuard userElfStackTop)

/-! ### What is meant -/

/-- The address is in a page of the plan. -/
def ImagePlan.Maps (plan : ImagePlan) (a : Nat) : Prop :=
  (∃ s ∈ plan.segments, s.pageStart ≤ a ∧ a < s.pageEnd) ∨
    userElfStackPage ≤ a ∧ a < userElfStackTop

/-- The image is loaded: `before` and `after` are the translations of the user region
before and after, `m` is the memory after. -/
structure Loaded (image : List UInt8) (plan : ImagePlan) (before after : Nat → TranslateResult)
    (m : Memory) : Prop where
  mapped : ∀ a, plan.Maps a → (after a).mapped = true ∧ (after a).userAccessible = true ∧
    (after a).pageSize = pageSize4k
  exactly : ∀ a, InUserSlot a →
    ((after a).mapped = true ↔ plan.Maps a ∨ (before a).mapped = true)
  elsewhere : ∀ a, InUserSlot a → ¬ plan.Maps a → after a = before a
  segments : ∀ s ∈ plan.segments, ∀ a, s.pageStart ≤ a → a < s.pageEnd →
    (after a).writable = s.writable ∧ (after a).executable = s.executable
  stack : ∀ a, userElfStackPage ≤ a → a < userElfStackTop →
    (after a).writable = true ∧ (after a).executable = false
  writeXorExecute : ∀ a, plan.Maps a →
    ¬ ((after a).writable = true ∧ (after a).executable = true)
  file : ∀ s ∈ plan.segments, ∀ a, s.InFile a → s.fileByte image a = some (m (after a).phys)
  zero : ∀ a, plan.Maps a → (∀ s ∈ plan.segments, ¬ s.InFile a) → m (after a).phys = 0

/-! ### Validated plans -/

/-- What the validation promises about a plan. -/
structure SafePlan (image : List UInt8) (plan : ImagePlan) : Prop where
  inRegion : ∀ s ∈ plan.segments, s.InRegion
  file : ∀ s ∈ plan.segments, s.fileOffset + s.fileSize ≤ image.length
  sizes : ∀ s ∈ plan.segments, s.fileSize ≤ s.memorySize
  writeXorExecute : ∀ s ∈ plan.segments, ¬ (s.writable = true ∧ s.executable = true)
  apart : plan.segments.Pairwise SegmentPlan.Apart
  totalPages : plan.totalPages = (plan.segments.map SegmentPlan.pages).sum
  few : plan.totalPages ≤ maxLoadPages

/-- What the loaders rely on, from what validation accepts. -/
theorem safePlan_of_ok (image : Slice) {plan : ImagePlan}
    (ok : validateImage image.bytes = .ok plan) : SafePlan image.bytes plan := by
  obtain ⟨loadable, rfl⟩ := (validateImage_checks image).of_ok ok
  obtain ⟨-, all, s, mem, -⟩ := loadable_iff.mp loadable
  have isPlan := all.isPlan (List.ne_nil_of_mem mem)
  have fromHeader : ∀ {s}, s ∈ (planOf image.bytes).segments →
      ∃ h ∈ programHeaders image.bytes, h.loads = true ∧ h.segment = s := by
    intro s mem
    rw [isPlan.segments, segmentsOf, List.mem_map] at mem
    obtain ⟨h, mem, rfl⟩ := mem
    rw [List.mem_filter] at mem
    exact ⟨h, mem.1, mem.2, rfl⟩
  refine ⟨?_, ?_, ?_, ?_, ?_, isPlan.totalPages, ?_⟩
  · intro s mem
    obtain ⟨h, isHeader, loads, rfl⟩ := fromHeader mem
    exact (loadable.fits h isHeader loads).inRegion loads
  · intro s mem
    obtain ⟨h, isHeader, loads, rfl⟩ := fromHeader mem
    exact (loadable.fits h isHeader loads).file
  · intro s mem
    obtain ⟨h, isHeader, loads, rfl⟩ := fromHeader mem
    rw [ProgramHeader.loads, Bool.and_eq_true] at loads
    exact loadable.sizes h isHeader loads.1
  · intro s mem
    obtain ⟨h, isHeader, loads, rfl⟩ := fromHeader mem
    exact (loadable.fits h isHeader loads).writeXorExecute
  · rw [isPlan.segments]
    exact loadable.apart
  · rw [isPlan.totalPages, isPlan.segments]
    exact loadable.pages

/-! ### The pages of a plan -/

/-- The pages of the segments and the stack. -/
def ImagePlan.allTargets (plan : ImagePlan) : List (Nat × UserPagePermissions) :=
  plan.targets ++ [(userElfStackPage, .readWrite)]

theorem SegmentPlan.InRegion.mem_pageStarts {s : SegmentPlan} (inRegion : s.InRegion) {page : Nat} :
    page ∈ s.pageStarts ↔ page % pageSize4k = 0 ∧ s.pageStart ≤ page ∧ page < s.pageEnd := by
  obtain ⟨-, -, -, startAligned, endAligned, -⟩ := inRegion.bounds
  rw [SegmentPlan.pageStarts, List.mem_range']
  simp only [pageSize4k] at *
  constructor
  · rintro ⟨i, small, rfl⟩
    omega
  · rintro ⟨aligned, from_, below⟩
    exact ⟨(page - s.pageStart) / 4096, by omega, by omega⟩

namespace SafePlan

variable {image : List UInt8} {plan : ImagePlan} (safe : SafePlan image plan)

include safe

theorem mem_targets {t : Nat × UserPagePermissions} : t ∈ plan.targets ↔
    ∃ s ∈ plan.segments, t.1 % pageSize4k = 0 ∧ s.pageStart ≤ t.1 ∧ t.1 < s.pageEnd ∧
      t.2 = s.permissions := by
  rw [ImagePlan.targets, List.mem_flatMap]
  refine exists_congr fun s => and_congr_right fun mem => ?_
  rw [List.mem_map]
  constructor
  · rintro ⟨page, isPage, rfl⟩
    obtain ⟨aligned, from_, below⟩ := (safe.inRegion s mem).mem_pageStarts.mp isPage
    exact ⟨aligned, from_, below, rfl⟩
  · rintro ⟨aligned, from_, below, permissions⟩
    refine ⟨t.1, (safe.inRegion s mem).mem_pageStarts.mpr ⟨aligned, from_, below⟩, ?_⟩
    rw [← permissions]

theorem length_targets : plan.targets.length = plan.totalPages := by
  rw [ImagePlan.targets, List.length_flatMap, safe.totalPages]
  refine congrArg List.sum (List.map_congr_left fun s _ => ?_)
  rw [List.length_map, SegmentPlan.pageStarts, List.length_range']
  rfl

theorem length_allTargets : plan.allTargets.length = plan.totalPages + 1 := by
  rw [ImagePlan.allTargets, List.length_append, safe.length_targets]
  rfl

/-- No page is mapped twice. -/
theorem nodup_targets : (plan.targets.map Prod.fst).Nodup := by
  have pages : plan.targets.map Prod.fst = plan.segments.flatMap SegmentPlan.pageStarts := by
    rw [ImagePlan.targets, List.map_flatMap]
    refine List.flatMap_congr fun s _ => ?_
    rw [List.map_map]
    exact List.map_id' _
  rw [pages, List.nodup_flatMap]
  refine ⟨fun s _ => List.nodup_range' pageSize4k (by decide), ?_⟩
  refine safe.apart.imp_of_mem fun {s t} memS memT apart => ?_
  intro page inS inT
  rw [(safe.inRegion s memS).mem_pageStarts] at inS
  rw [(safe.inRegion t memT).mem_pageStarts] at inT
  rcases apart with before | after
  · omega
  · omega

/-- Every target is a page of the region, and no target stands twice. -/
theorem target {t : Nat × UserPagePermissions} (mem : t ∈ plan.allTargets) :
    t.1 % pageSize4k = 0 ∧ InImageRegion t.1 ∧ Paging.inUserVirtualRange t.1 = true ∧
      ¬ (t.2.writable = true ∧ t.2.executable = true) ∧ t.1 ≠ userElfStackGuard := by
  have inRegion : t.1 % pageSize4k = 0 ∧ InImageRegion t.1 ∧ t.1 ≠ userElfStackGuard ∧
      ¬ (t.2.writable = true ∧ t.2.executable = true) := by
    rcases List.mem_append.mp mem with inSegment | isStack
    · obtain ⟨s, memS, aligned, from_, below, permissions⟩ := safe.mem_targets.mp inSegment
      have bounds := (safe.inRegion s memS).bounds
      have wx := safe.writeXorExecute s memS
      rw [permissions]
      refine ⟨aligned, ⟨by omega, ?_⟩, ?_, wx⟩
      · simp only [userElfStackTop, userElfStackPage, userElfStackGuard, pageSize4k] at *
        omega
      · simp only [userElfStackGuard] at *
        omega
    · obtain rfl := List.mem_singleton.mp isStack
      exact ⟨by decide, ⟨by decide, by decide⟩, by decide, by decide⟩
  obtain ⟨aligned, region, notGuard, wx⟩ := inRegion
  refine ⟨aligned, region, ?_, wx, notGuard⟩
  rw [Paging.inUserVirtualRange_iff]
  simp only [InImageRegion, userElfStackTop, userElfStackPage, userElfStackGuard, userElfEnd,
    userElfBase, Paging.userSpaceBase, Paging.userSpaceEnd, Paging.bootIdentityMapBytes,
    pageSize4k] at *
  omega

theorem nodup_allTargets : (plan.allTargets.map Prod.fst).Nodup := by
  rw [ImagePlan.allTargets, List.map_append, List.nodup_append]
  refine ⟨safe.nodup_targets, List.nodup_singleton _, ?_⟩
  intro page mem other isStack same
  obtain ⟨t, memT, rfl⟩ := List.mem_map.mp mem
  obtain ⟨s, memS, -, -, below, -⟩ := safe.mem_targets.mp memT
  have bounds := (safe.inRegion s memS).bounds
  have isStack : other = userElfStackPage := List.mem_singleton.mp isStack
  simp only [userElfStackPage, userElfStackGuard, pageSize4k] at *
  omega

/-- An address is mapped by the plan if its page is a target. -/
theorem maps_iff {a : Nat} : plan.Maps a ↔
    ∃ t ∈ plan.allTargets, t.1 / pageSize4k = a / pageSize4k := by
  constructor
  · rintro (⟨s, mem, from_, below⟩ | ⟨from_, below⟩)
    · have bounds := (safe.inRegion s mem).bounds
      refine ⟨(a / pageSize4k * pageSize4k, s.permissions), List.mem_append_left _
        (safe.mem_targets.mpr ⟨s, mem, ?_, ?_, ?_, rfl⟩), ?_⟩
      all_goals
        simp only [pageSize4k] at *
        omega
    · refine ⟨_, List.mem_append_right _ (List.mem_singleton_self _), ?_⟩
      simp only [userElfStackTop, userElfStackPage, userElfStackGuard, userElfEnd, userElfBase,
        Paging.userSpaceBase, Paging.bootIdentityMapBytes, pageSize4k] at *
      omega
  · rintro ⟨t, mem, same⟩
    rcases List.mem_append.mp mem with inSegment | isStack
    · obtain ⟨s, memS, aligned, from_, below, -⟩ := safe.mem_targets.mp inSegment
      have bounds := (safe.inRegion s memS).bounds
      refine .inl ⟨s, memS, ?_, ?_⟩
      all_goals
        simp only [pageSize4k] at *
        omega
    · obtain rfl := List.mem_singleton.mp isStack
      right
      simp only [userElfStackTop, userElfStackPage, userElfStackGuard, userElfEnd, userElfBase,
        Paging.userSpaceBase, Paging.bootIdentityMapBytes, pageSize4k] at *
      omega

end SafePlan

/-! ### Placing the pages -/

/-- The page of an address. -/
def pageFor (pages : List UserPage) (a : Nat) : Option UserPage :=
  pages.find? fun page => page.virt / pageSize4k == a / pageSize4k

/-- Every page has a frame of its own. -/
structure Backing (pages : List UserPage) : Prop where
  isFrame : ∀ page ∈ pages, IsFrame page.frame
  aligned : ∀ page ∈ pages, page.virt % pageSize4k = 0
  frames : (pages.map UserPage.frame).Nodup
  virts : (pages.map UserPage.virt).Nodup

namespace Backing

variable {pages : List UserPage} (backing : Backing pages)

theorem mem_of_pageFor {a : Nat} {page : UserPage} (found : pageFor pages a = some page) :
    page ∈ pages ∧ page.virt / pageSize4k = a / pageSize4k :=
  ⟨List.mem_of_find?_eq_some found, by simpa using List.find?_some found⟩

/-- The pages as a map of page numbers to frames. -/
def map (backing : Backing pages) : PageMap pageSize4k where
  frameAt := fun n => (pages.find? fun page => page.virt / pageSize4k == n).map UserPage.frame
  aligned := by
    intro n frame mapped
    obtain ⟨page, found, rfl⟩ := Option.map_eq_some_iff.mp mapped
    exact (backing.isFrame page (List.mem_of_find?_eq_some found)).aligned
  distinct := by
    intro n n' frame mapped mapped'
    obtain ⟨page, found, rfl⟩ := Option.map_eq_some_iff.mp mapped
    obtain ⟨page', found', same⟩ := Option.map_eq_some_iff.mp mapped'
    have isPage := List.inj_on_of_nodup_map backing.frames (List.mem_of_find?_eq_some found')
      (List.mem_of_find?_eq_some found) same
    have number : page.virt / pageSize4k = n := by simpa using List.find?_some found
    have number' : page'.virt / pageSize4k = n' := by simpa using List.find?_some found'
    rw [← number, ← number', isPage]

include backing

theorem phys_of_pageFor {a : Nat} {page : UserPage} (found : pageFor pages a = some page) :
    backing.map.phys a = some (page.frame + a % pageSize4k) := by
  change (Option.map UserPage.frame (pageFor pages a)).map _ = _
  rw [found]
  rfl

theorem pageFor_of_phys {a x : Nat} (isPhys : backing.map.phys a = some x) :
    ∃ page, pageFor pages a = some page ∧ x = page.frame + a % pageSize4k := by
  obtain ⟨frame, mapped, rfl⟩ := PageMap.phys_eq_some isPhys
  obtain ⟨page, found, rfl⟩ := Option.map_eq_some_iff.mp mapped
  exact ⟨page, found, rfl⟩

theorem pageFor_of_mem {page : UserPage} (mem : page ∈ pages) {a : Nat}
    (same : page.virt / pageSize4k = a / pageSize4k) : pageFor pages a = some page := by
  cases found : pageFor pages a with
  | none =>
      have := List.find?_eq_none.mp found page mem
      simp [same] at this
  | some other =>
      obtain ⟨mem', same'⟩ := mem_of_pageFor found
      have aligned := backing.aligned page mem
      have aligned' := backing.aligned other mem'
      have virts : other.virt = page.virt := by
        simp only [pageSize4k] at *
        omega
      rw [List.inj_on_of_nodup_map backing.virts mem' mem virts]

end Backing

/-- Empty pages are mapped, and stay mapped whatever is written into them. -/
structure Mapping (pages : List UserPage) (before : Nat → TranslateResult)
    (translate : Memory → Nat → TranslateResult) (m : Memory) : Prop where
  backing : Backing pages
  shown : ∀ m', backing.map.SameOutside m m' → ∀ a, InUserSlot a →
    translate m' a = ((pageFor pages a).map fun page => page.result a).getD (before a)
  empty : ∀ page ∈ pages, ∀ x, page.frame ≤ x → x < page.frame + pageSize4k → m x = 0

section Copying

variable {image : List UInt8} {plan : ImagePlan} {pages : List UserPage}
  {before : Nat → TranslateResult} {translate : Memory → Nat → TranslateResult} {m : Memory}

theorem inUserSlot_of_inImageRegion {a page : Nat} (inRegion : InImageRegion page)
    (same : page / pageSize4k = a / pageSize4k) : InUserSlot a := by
  simp only [InImageRegion, InUserSlot, userElfStackTop, userElfStackPage, userElfStackGuard,
    userElfEnd, userElfBase, Paging.userSpaceBase, Paging.bootIdentityMapBytes, pageSize4k] at *
  omega

/-- The addresses of the file are in pages of the segment. -/
theorem SafePlan.inPages (safe : SafePlan image plan) {s : SegmentPlan} (mem : s ∈ plan.segments)
    {a : Nat} (inFile : s.InFile a) : s.pageStart ≤ a ∧ a < s.pageEnd := by
  have bounds := (safe.inRegion s mem).bounds
  have sizes := safe.sizes s mem
  have memory : s.memoryEnd = s.virtualAddress + s.memorySize := rfl
  obtain ⟨from_, below⟩ := inFile
  omega

/-- Every address of the plan is in a page that was placed. -/
theorem Backing.paged (backing : Backing pages) (safe : SafePlan image plan)
    (isTargets : pages.map (fun page => (page.virt, page.permissions)) = plan.allTargets) {a : Nat}
    (maps : plan.Maps a) : ∃ page, pageFor pages a = some page := by
  obtain ⟨t, mem, same⟩ := safe.maps_iff.mp maps
  rw [← isTargets] at mem
  obtain ⟨page, memP, rfl⟩ := List.mem_map.mp mem
  exact ⟨page, backing.pageFor_of_mem memP same⟩

/-- The copies succeed where the pages are shown. -/
theorem Backing.copies (backing : Backing pages) (safe : SafePlan image plan)
    (isTargets : pages.map (fun page => (page.virt, page.permissions)) = plan.allTargets)
    {copy : SegmentPlan → Memory → Except LoadError Unit × Memory}
    (isCopy : ∀ s m, copy s m = copyChunks translate image s s.fileSize 0 m)
    (shows_ : Shows backing.map translate m) :
    ∃ m', copySegments copy plan.segments m = (.ok (), m') ∧ backing.map.SameOutside m m' ∧
      CopiesAll backing.map image plan.segments m m' := by
  have copyable : ∀ s ∈ plan.segments, Copyable backing.map image s := by
    intro s mem
    refine ⟨safe.file s mem, fun a inFile => ?_⟩
    obtain ⟨page, found⟩ := backing.paged safe isTargets (.inl ⟨s, mem, safe.inPages mem inFile⟩)
    exact ⟨_, backing.phys_of_pageFor found⟩
  have apart : plan.segments.Pairwise fun s t => ∀ a, s.InFile a → ¬ t.InFile a := by
    refine safe.apart.imp_of_mem fun {s t} memS memT apart a inS inT => ?_
    have := safe.inPages memS inS
    have := safe.inPages memT inT
    rcases apart with before | after
    · omega
    · omega
  exact copySegments_copies isCopy copyable apart shows_

/-- Once the segments are copied, the image is loaded. -/
theorem Mapping.copies (safe : SafePlan image plan) (mapping : Mapping pages before translate m)
    (isTargets : pages.map (fun page => (page.virt, page.permissions)) = plan.allTargets)
    (copy : SegmentPlan → Memory → Except LoadError Unit × Memory)
    (isCopy : ∀ s m, copy s m = copyChunks translate image s s.fileSize 0 m) :
    ∃ m', copySegments copy plan.segments m = (.ok (), m') ∧
      mapping.backing.map.SameOutside m m' ∧ Loaded image plan before (translate m') m' := by
  have backing := mapping.backing
  have target : ∀ page ∈ pages, (page.virt, page.permissions) ∈ plan.allTargets := by
    intro page mem
    rw [← isTargets]
    exact List.mem_map_of_mem mem
  have placed : ∀ t ∈ plan.allTargets, ∃ page ∈ pages, (page.virt, page.permissions) = t := by
    intro t mem
    rw [← isTargets] at mem
    exact List.mem_map.mp mem
  have paged : ∀ a, plan.Maps a → ∃ page, pageFor pages a = some page :=
    fun a maps => backing.paged safe isTargets maps
  have slot : ∀ {a page}, pageFor pages a = some page → InUserSlot a := by
    intro a page found
    obtain ⟨mem, same⟩ := Backing.mem_of_pageFor found
    exact inUserSlot_of_inImageRegion (safe.target (target page mem)).2.1 same
  have shown : ∀ {a page m'}, backing.map.SameOutside m m' → pageFor pages a = some page →
      translate m' a = page.result a := by
    intro a page m' same found
    rw [mapping.shown m' same a (slot found), found]
    rfl
  have shows_ : Shows backing.map translate m := by
    intro m' same a x isPhys
    obtain ⟨page, found, rfl⟩ := backing.pageFor_of_phys isPhys
    rw [shown same found]
    exact ⟨rfl, rfl, rfl⟩
  obtain ⟨m', copies, same, file, rest⟩ := backing.copies safe isTargets isCopy shows_
  have result : ∀ {a page}, pageFor pages a = some page → translate m' a = page.result a :=
    fun found => shown same found
  -- the permissions of an address are those of its target
  have permissions : ∀ {a t}, t ∈ plan.allTargets → t.1 / pageSize4k = a / pageSize4k →
      (translate m' a).writable = t.2.writable ∧ (translate m' a).executable = t.2.executable := by
    intro a t mem sameA
    obtain ⟨page, memP, rfl⟩ := placed t mem
    rw [result (backing.pageFor_of_mem memP sameA)]
    exact ⟨rfl, rfl⟩
  have mapped : ∀ a, plan.Maps a → (translate m' a).mapped = true ∧
      (translate m' a).userAccessible = true ∧ (translate m' a).pageSize = pageSize4k := by
    intro a maps
    obtain ⟨page, found⟩ := paged a maps
    rw [result found]
    exact ⟨rfl, rfl, rfl⟩
  have elsewhere : ∀ a, InUserSlot a → ¬ plan.Maps a → translate m' a = before a := by
    intro a inSlot vacant
    rw [mapping.shown m' same a inSlot]
    cases found : pageFor pages a with
    | none => rfl
    | some page =>
        obtain ⟨mem, sameA⟩ := Backing.mem_of_pageFor found
        exact absurd (safe.maps_iff.mpr ⟨_, target page mem, sameA⟩) vacant
  refine ⟨m', copies, same, mapped, ?_, elsewhere, ?_, ?_, ?_, ?_, ?_⟩
  · intro a inSlot
    by_cases maps : plan.Maps a
    · exact iff_of_true (mapped a maps).1 (.inl maps)
    · rw [elsewhere a inSlot maps]
      exact ⟨.inr, fun either => either.resolve_left maps⟩
  · intro s mem a from_ below
    have bounds := (safe.inRegion s mem).bounds
    refine permissions (t := (a / pageSize4k * pageSize4k, s.permissions))
      (List.mem_append_left _ (safe.mem_targets.mpr ⟨s, mem, ?_, ?_, ?_, rfl⟩)) ?_
    all_goals
      simp only [pageSize4k] at *
      omega
  · intro a from_ below
    refine permissions (t := (userElfStackPage, .readWrite))
      (List.mem_append_right _ (List.mem_singleton_self _)) ?_
    simp only [userElfStackTop, userElfStackPage, userElfStackGuard, userElfEnd, userElfBase,
      Paging.userSpaceBase, Paging.bootIdentityMapBytes, pageSize4k] at *
    omega
  · intro a maps
    obtain ⟨t, mem, sameA⟩ := safe.maps_iff.mp maps
    obtain ⟨writable, executable⟩ := permissions mem sameA
    rw [writable, executable]
    exact (safe.target mem).2.2.2.1
  · intro s mem a inFile
    obtain ⟨page, found⟩ := paged a (.inl ⟨s, mem, safe.inPages mem inFile⟩)
    rw [result found]
    exact file s mem a _ (backing.phys_of_pageFor found) inFile
  · intro a maps outside
    obtain ⟨page, found⟩ := paged a maps
    obtain ⟨mem, -⟩ := Backing.mem_of_pageFor found
    have offset := Nat.mod_lt a (show 0 < pageSize4k by decide)
    rw [result found]
    exact (rest a _ (backing.phys_of_pageFor found) outside).trans
      (mapping.empty page mem _ (Nat.le_add_right _ _) (Nat.add_lt_add_left offset _))

end Copying

end CloudOS.Elf
