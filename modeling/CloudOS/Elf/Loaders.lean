import CloudOS.Elf.Loaded

/-!
Both loaders build the image that the plan describes.
-/

namespace CloudOS.Elf

open Lib (PageMap)
open Lib.Store (Memory)
open CloudOS.PhysMem (FrameSource)
open CloudOS.Paging (BootTables Created Machine AddressSpace UserPage UserPagePermissions
  TranslateResult InUserSlot InImageRegion Tidy Owns Confined Laid tables leaf resultOf supplies
  lackingTables pageSize4k userElfStackPage userElfStackGuard userElfStackTop)

variable {source : FrameSource} {boot : BootTables} {s₀ s s' : Machine source}
  {space space' : AddressSpace}
  {pages : List UserPage} {permissions : UserPagePermissions} {virt k lowP3 userP2 : Nat}

/-- A new page is found at its own addresses. -/
theorem pageFor_snoc {page : UserPage} (vacant : pageFor pages page.virt = none) (a : Nat) :
    pageFor (pages ++ [page]) a =
      if a / pageSize4k = page.virt / pageSize4k then some page else pageFor pages a := by
  unfold pageFor at *
  rw [List.find?_append]
  split
  · rename_i same
    rw [same, vacant, Option.none_or]
    simp
  · rename_i other
    have none : List.find? (fun page : UserPage => page.virt / pageSize4k == a / pageSize4k)
        [page] = none := by
      simpa using fun same => other same.symm
    rw [none, Option.or_none]

/-! ### In the boot tables -/

/-- New pages are mapped in the boot tables, and nothing else has changed there. -/
structure Placed (boot : BootTables) (s₀ s : Machine source) (pages : List UserPage) : Prop where
  sound : boot.Sound s
  tidy : Tidy (tables s.memory) boot.p4
  backing : Backing pages
  owned : ∀ page ∈ pages, s.Held page.frame ∧ ¬ boot.Has s page.frame
  shown : ∀ a, InUserSlot a → leaf (tables s.memory) boot.p4 a =
    ((pageFor pages a).map fun page => some ⟨false, page.frame ||| page.permissions.flags⟩).getD
      (leaf (tables s₀.memory) boot.p4 a)
  empty : ∀ page ∈ pages, ∀ x, page.frame ≤ x → x < page.frame + pageSize4k → s.memory x = 0

/-- Before the first page nothing is placed. -/
theorem Placed.start (sound : boot.Sound s) (tidy : Tidy (tables s.memory) boot.p4) :
    Placed boot s s [] where
  sound := sound
  tidy := tidy
  backing := ⟨fun _ mem => absurd mem List.not_mem_nil, fun _ mem => absurd mem List.not_mem_nil,
    List.nodup_nil, List.nodup_nil⟩
  owned := fun _ mem => absurd mem List.not_mem_nil
  shown := fun _ _ => rfl
  empty := fun _ mem => absurd mem List.not_mem_nil

theorem Backing.snoc (backing : Backing pages) {page : UserPage}
    (isFrame : Paging.IsFrame page.frame) (aligned : page.virt % pageSize4k = 0)
    (newFrame : ∀ other ∈ pages, other.frame ≠ page.frame)
    (newVirt : ∀ other ∈ pages, other.virt ≠ page.virt) : Backing (pages ++ [page]) := by
  refine ⟨?_, ?_, ?_, ?_⟩
  · intro other mem
    rcases List.mem_append.mp mem with old | new
    · exact backing.isFrame other old
    · rw [List.mem_singleton.mp new]
      exact isFrame
  · intro other mem
    rcases List.mem_append.mp mem with old | new
    · exact backing.aligned other old
    · rw [List.mem_singleton.mp new]
      exact aligned
  · rw [List.map_append, List.nodup_append]
    refine ⟨backing.frames, List.nodup_singleton _, ?_⟩
    intro frame mem frame' mem' same
    obtain ⟨other, old, rfl⟩ := List.mem_map.mp mem
    exact newFrame other old (same.trans (List.mem_singleton.mp mem'))
  · rw [List.map_append, List.nodup_append]
    refine ⟨backing.virts, List.nodup_singleton _, ?_⟩
    intro v mem v' mem' same
    obtain ⟨other, old, rfl⟩ := List.mem_map.mp mem
    exact newVirt other old (same.trans (List.mem_singleton.mp mem'))

theorem Backing.pageFor_of_new (backing : Backing pages) (aligned : virt % pageSize4k = 0)
    (new : ∀ page ∈ pages, page.virt ≠ virt) : pageFor pages virt = none := by
  cases found : pageFor pages virt with
  | none => rfl
  | some page =>
      obtain ⟨mem, same⟩ := Backing.mem_of_pageFor found
      have aligned' := backing.aligned page mem
      have := new page mem
      simp only [pageSize4k] at *
      omega

/-- One more page. -/
theorem Placed.step (placed : Placed boot s₀ s pages) (aligned : virt % pageSize4k = 0)
    (inRange : Paging.inUserVirtualRange virt = true) (inRegion : InImageRegion virt)
    (new : ∀ page ∈ pages, page.virt ≠ virt)
    (vacant : leaf (tables s₀.memory) boot.p4 virt = none)
    (enough : supplies source (boot.lacking s + (k + 1)) s.frames = true)
    (permissions : UserPagePermissions) :
    ∃ frame s', s.mapNewUserPage boot virt permissions = (.ok frame, s') ∧
      (Paging.translate boot s.memory virt).mapped = false ∧
      Placed boot s₀ s' (pages ++ [⟨frame, virt, permissions⟩]) ∧
      supplies source (boot.lacking s' + k) s'.frames = true := by
  have inSlot := Paging.inUserSlot_of_range inRange
  have none := placed.backing.pageFor_of_new aligned new
  have vacant' : leaf (tables s.memory) boot.p4 virt = .none := by
    rw [placed.shown virt inSlot, none]
    exact vacant
  have mappable : Paging.inMappableVirtualRange virt permissions.flags = true := by
    have user := permissions.entryUser_flags
    rw [Paging.inMappableVirtualRange]
    exact (if_pos user).trans inRange
  obtain ⟨frame, s', maps, rest⟩ := placed.sound.mapNewPageWithFlags_supplied placed.tidy
    permissions.isFlags aligned mappable inRegion vacant' enough .user
  obtain ⟨sound', evolves, -, done⟩ := placed.sound.mapNewPageWithFlags permissions.isFlags maps
  obtain ⟨admissible, replaces, isFresh, held, hasNot, empty⟩ := done frame rfl
  have newFrame : ∀ page ∈ pages, page.frame ≠ frame := by
    rintro page mem rfl
    exact isFresh (placed.owned page mem).1
  refine ⟨frame, s', maps, ?_, ⟨sound', evolves.tidy placed.tidy,
    placed.backing.snoc admissible.isFrame aligned newFrame new, ?_, ?_, ?_⟩, rest⟩
  · rw [placed.sound.sheltered.translate, vacant']
    rfl
  · intro page mem
    rcases List.mem_append.mp mem with old | isNew
    · obtain ⟨heldP, hasNotP⟩ := placed.owned page old
      exact ⟨evolves.held _ heldP, evolves.not_has heldP hasNotP⟩
    · rw [List.mem_singleton.mp isNew]
      exact ⟨held, hasNot⟩
  · intro a inSlotA
    rw [pageFor_snoc none]
    split
    · rename_i same
      have indices : Paging.indices a = Paging.indices virt := by
        rw [Paging.indices_eq_iff]
        simp only [pageSize4k] at same
        omega
      rw [Paging.leaf_of_indices indices, replaces.after]
      rfl
    · rename_i other
      have indices : Paging.indices a ≠ Paging.indices virt := by
        rw [Ne, Paging.indices_eq_iff]
        simp only [InUserSlot, Paging.bootIdentityMapBytes, pageSize4k] at *
        omega
      rw [replaces.elsewhere a indices]
      exact placed.shown a inSlotA
  · intro page mem x from_ below
    rcases List.mem_append.mp mem with old | isNew
    · obtain ⟨heldP, hasNotP⟩ := placed.owned page old
      rw [evolves.untouched page.frame x (placed.backing.isFrame page old).aligned heldP hasNotP
        from_ below]
      exact placed.empty page old x from_ below
    · rw [List.mem_singleton.mp isNew] at from_ below
      exact empty x from_ below

/-- By induction over the pages of the plan, each with a frame in supply. -/
theorem mapTargets_placed {targets : List (Nat × UserPagePermissions)} (mapped : Mapped)
    (placed : Placed boot s₀ s pages)
    (target : ∀ t ∈ targets, t.1 % pageSize4k = 0 ∧ Paging.inUserVirtualRange t.1 = true ∧
      InImageRegion t.1 ∧ leaf (tables s₀.memory) boot.p4 t.1 = none)
    (nodup : (pages.map UserPage.virt ++ targets.map Prod.fst).Nodup)
    (enough : supplies source (boot.lacking s + (targets.length + k)) s.frames = true) :
    ∃ mapped' s' pages', mapTargets boot targets mapped s = (.ok mapped', s') ∧
      Placed boot s₀ s' pages' ∧
      pages'.map (fun page => (page.virt, page.permissions)) =
        pages.map (fun page => (page.virt, page.permissions)) ++ targets ∧
      mapped'.pages.length = mapped.pages.length + targets.length ∧
      supplies source (boot.lacking s' + k) s'.frames = true := by
  induction targets generalizing s pages mapped with
  | nil =>
      refine ⟨mapped, s, pages, rfl, placed, (List.append_nil _).symm, rfl, ?_⟩
      rwa [List.length_nil, Nat.zero_add] at enough
  | cons t rest ih =>
      obtain ⟨virt, permissions⟩ := t
      obtain ⟨⟨aligned, inRange, inRegion, vacant⟩, later⟩ := List.forall_mem_cons.mp target
      have new : ∀ page ∈ pages, page.virt ≠ virt := by
        intro page mem same
        exact (List.nodup_append.mp nodup).2.2 page.virt (List.mem_map_of_mem mem) virt
          List.mem_cons_self same
      rw [List.length_cons, Nat.add_right_comm] at enough
      obtain ⟨frame, s₁, maps, unmapped, placed₁, enough₁⟩ :=
        placed.step aligned inRange inRegion new vacant enough permissions
      obtain ⟨mapped', s', pages', maps', placed', isTargets, length, enough'⟩ := ih _ placed₁ later
        (by simpa [List.map_append] using nodup) enough₁
      unfold mapTargets
      rw [unmapped, if_neg Bool.false_ne_true, maps]
      refine ⟨mapped', s', pages', maps', placed', ?_, ?_, enough'⟩
      · rw [isTargets, List.map_append, List.append_assoc]
        rfl
      · rw [length, List.length_append, List.length_singleton, List.length_cons]
        omega

/-- Writing into the pages touches no other frame. -/
theorem Backing.confined (backing : Backing pages) {m : Memory}
    (same : backing.map.SameOutside s.memory m) :
    Confined (fun frame => ∃ page ∈ pages, page.frame = frame) s { s with memory := m } := by
  refine ⟨fun _ held _ => held, fun frame a aligned _ other from_ below => ?_, rfl⟩
  refine same a ?_
  rintro ⟨n, frame', mapped, from', below'⟩
  obtain ⟨page, found, rfl⟩ := Option.map_eq_some_iff.mp mapped
  have mem := List.mem_of_find?_eq_some found
  have different : frame ≠ page.frame := by
    rintro rfl
    exact other ⟨page, mem, rfl⟩
  rcases Paging.apart_of_ne aligned (backing.isFrame page mem).aligned different from_ below with
    before | after
  · omega
  · omega

/-- Placed pages are shown where they were mapped. -/
theorem Placed.mapping (placed : Placed boot s₀ s pages) (sound₀ : boot.Sound s₀) :
    Mapping pages (Paging.translate boot s₀.memory) (Paging.translate boot) s.memory := by
  refine ⟨placed.backing, fun m' same a inSlot => ?_, placed.empty⟩
  obtain ⟨sound', -, leaves, -⟩ := placed.sound.confined (placed.backing.confined same) (by
    rintro frame has ⟨page, mem, rfl⟩
    exact (placed.owned page mem).2 has)
  have sheltered : Paging.Sheltered (tables m') boot.p4 := sound'.sheltered
  have shown : leaf (tables m') boot.p4 a = _ := (leaves a).trans (placed.shown a inSlot)
  rw [sheltered.translate, shown, sound₀.sheltered.translate]
  cases found : pageFor pages a with
  | none => rfl
  | some page =>
      have mem := (Backing.mem_of_pageFor found).1
      exact page.result_eq (placed.backing.isFrame page mem) a

/-- `load_image` loads a safe plan if there are frames enough. -/
theorem loadPlan_loaded {image : List UInt8} {plan : ImagePlan} (safe : SafePlan image plan)
    (sound : boot.Sound s) (tidy : Tidy (tables s.memory) boot.p4)
    (vacant : ∀ a, plan.Maps a → (Paging.translate boot s.memory a).mapped = false)
    (enough : supplies source (boot.lacking s + (plan.totalPages + 1)) s.frames = true) :
    ∃ loaded s', loadPlan boot s image plan = (.ok loaded, s') ∧
      Loaded image plan (Paging.translate boot s.memory) (Paging.translate boot s'.memory)
        s'.memory ∧
      loaded.entryPoint = plan.entryPoint ∧ loaded.stackTop = userElfStackTop ∧
      loaded.mappedPages = plan.totalPages + 1 := by
  have target : ∀ t ∈ plan.allTargets, t.1 % pageSize4k = 0 ∧
      Paging.inUserVirtualRange t.1 = true ∧ InImageRegion t.1 ∧
      leaf (tables s.memory) boot.p4 t.1 = none := by
    intro t mem
    obtain ⟨aligned, inRegion, inRange, -⟩ := safe.target mem
    have unmapped := vacant t.1 (safe.maps_iff.mpr ⟨t, mem, rfl⟩)
    refine ⟨aligned, inRange, inRegion, ?_⟩
    rw [sound.sheltered.translate] at unmapped
    cases found : leaf (tables s.memory) boot.p4 t.1 with
    | none => rfl
    | some leaf =>
        rw [found] at unmapped
        cases unmapped
  have nodup := safe.nodup_allTargets
  rw [ImagePlan.allTargets, List.map_append] at nodup
  rw [← safe.length_targets] at enough
  obtain ⟨mapped, s₁, pages, maps, placed, isTargets, length, enough₁⟩ :=
    mapTargets_placed ⟨[], 0, 0⟩ (.start sound tidy)
      (fun t mem => target t (List.mem_append_left _ mem)) (List.nodup_append.mp nodup).1 enough
  rw [List.map_nil, List.nil_append] at isTargets
  -- the stack
  obtain ⟨aligned, inRange, inRegion, vacantStack⟩ :=
    target _ (List.mem_append_right _ (List.mem_singleton_self _))
  have new : ∀ page ∈ pages, page.virt ≠ userElfStackPage := by
    intro page mem same
    have member : (page.virt, page.permissions) ∈ plan.targets := by
      rw [← isTargets]
      exact List.mem_map_of_mem mem
    exact (List.nodup_append.mp nodup).2.2 page.virt (List.mem_map_of_mem member) _
      (List.mem_singleton_self _) same
  obtain ⟨frame, s₂, mapsStack, unmapped, placed₂, -⟩ := placed.step aligned inRange inRegion new
    vacantStack (k := 0) enough₁ .readWrite
  obtain ⟨m', copies, -, loaded⟩ := (placed₂.mapping sound).copies safe
    (by rw [List.map_append, isTargets]; rfl) (copySegment boot image) (fun _ _ => rfl)
  unfold loadPlan mapStack
  rw [maps]
  dsimp only
  rw [unmapped, if_neg Bool.false_ne_true, mapsStack]
  dsimp only
  rw [copies]
  refine ⟨_, _, rfl, loaded, rfl, rfl, ?_⟩
  dsimp only
  rw [List.length_append, length, safe.length_targets]
  exact congrArg (· + 1) (Nat.zero_add _)

/-! ### In an address space -/

/-- A space whose pages are empty. -/
structure Filling (s : Machine source) (space : AddressSpace) (lowP3 userP2 : Nat) : Prop where
  owns : ∃ p1s, Owns s space lowP3 userP2 p1s
  active : space.active = true
  positive : space.rootFrame ≠ 0
  room : space.tableFrames.length + lackingTables s userP2 ≤ 5
  empty : ∀ page ∈ space.pages, ∀ x, page.frame ≤ x → x < page.frame + pageSize4k → s.memory x = 0

theorem backing_of_owns {p1s : List Nat} (owns : Owns s space lowP3 userP2 p1s) :
    Backing space.pages where
  isFrame := fun _ mem => owns.laid.isFrame _ (Laid.mem_frames_of_page mem)
  aligned := fun page mem => (owns.laid.virts page mem).1
  frames := (List.nodup_append.mp owns.laid.nodup).2.1
  virts := owns.laid.distinct

/-- One more page. -/
theorem Filling.step (filling : Filling s space lowP3 userP2) (aligned : virt % pageSize4k = 0)
    (inRange : Paging.inUserVirtualRange virt = true) (inRegion : InImageRegion virt)
    (new : ∀ page ∈ space.pages, page.virt ≠ virt)
    (pageRoom : space.pages.length < Paging.maxProcessUserPages)
    (enough : supplies source (lackingTables s userP2 + (k + 1)) s.frames = true)
    (permissions : UserPagePermissions) :
    ∃ frame space' s', space.mapUserPage s virt permissions = (.ok frame, space', s') ∧
      Filling s' space' lowP3 userP2 ∧
      space'.pages = space.pages ++ [⟨frame, virt, permissions⟩] ∧
      supplies source (lackingTables s' userP2 + k) s'.frames = true := by
  obtain ⟨p1s, owns⟩ := filling.owns
  have vacant : space.pageAt virt = none :=
    (backing_of_owns owns).pageFor_of_new aligned new
  obtain ⟨frame, space', s', maps, room, rest⟩ := owns.mapUserPage_supplied filling.active
    filling.positive aligned inRange inRegion vacant pageRoom filling.room enough
    permissions
  obtain ⟨grows, -, done⟩ := owns.mapUserPage maps
  obtain ⟨isPages, -, -, isEmpty⟩ := done frame rfl
  refine ⟨frame, space', s', maps, ⟨grows.owns, grows.active.trans filling.active, ?_, room, ?_⟩,
    isPages, rest⟩
  · rw [grows.rootFrame]
    exact filling.positive
  · intro page mem x from_ below
    rw [isPages] at mem
    rcases List.mem_append.mp mem with old | isNew
    · have notTable : page.frame ∉ space.tableFrames := fun isTable =>
        (List.nodup_append.mp owns.laid.nodup).2.2 _ isTable _ (List.mem_map_of_mem old) rfl
      have inFrames := Laid.mem_frames_of_page old
      rw [grows.confinedTables.untouched page.frame x (owns.laid.isFrame _ inFrames).aligned
        (owns.held _ inFrames) notTable from_ below]
      exact filling.empty page old x from_ below
    · rw [List.mem_singleton.mp isNew] at from_ below
      exact isEmpty x from_ below

/-- By induction over the pages of the plan, in the space that is filled. -/
theorem mapUserPages_filling {targets : List (Nat × UserPagePermissions)}
    (filling : Filling s space lowP3 userP2)
    (target : ∀ t ∈ targets, t.1 % pageSize4k = 0 ∧ Paging.inUserVirtualRange t.1 = true ∧
      InImageRegion t.1)
    (nodup : (space.pages.map UserPage.virt ++ targets.map Prod.fst).Nodup)
    (pageRoom : space.pages.length + targets.length ≤ Paging.maxProcessUserPages)
    (enough : supplies source (lackingTables s userP2 + (targets.length + k)) s.frames = true) :
    ∃ space' s', mapUserPages space s targets = (.ok (), space', s') ∧
      Filling s' space' lowP3 userP2 ∧
      space'.pages.map (fun page => (page.virt, page.permissions)) =
        space.pages.map (fun page => (page.virt, page.permissions)) ++ targets := by
  induction targets generalizing s space with
  | nil => exact ⟨space, s, rfl, filling, (List.append_nil _).symm⟩
  | cons t rest ih =>
      obtain ⟨virt, permissions⟩ := t
      obtain ⟨⟨aligned, inRange, inRegion⟩, later⟩ := List.forall_mem_cons.mp target
      have new : ∀ page ∈ space.pages, page.virt ≠ virt := by
        intro page mem same
        exact (List.nodup_append.mp nodup).2.2 page.virt (List.mem_map_of_mem mem) virt
          List.mem_cons_self same
      rw [List.length_cons] at pageRoom enough
      rw [Nat.add_right_comm] at enough
      obtain ⟨frame, space₁, s₁, maps, filling₁, isPages, enough₁⟩ :=
        filling.step aligned inRange inRegion new (by omega) enough permissions
      obtain ⟨space', s', maps', filling', isTargets⟩ := ih filling₁ later
        (by simpa [isPages, List.map_append] using nodup)
        (by rw [isPages, List.length_append, List.length_singleton]; omega) enough₁
      unfold mapUserPages
      rw [maps]
      refine ⟨space', s', maps', filling', ?_⟩
      rw [isTargets, isPages, List.map_append, List.append_assoc]
      rfl

/-- Writing into its pages leaves a space its tables. -/
theorem owns_written {p1s : List Nat} (owns : Owns s space lowP3 userP2 p1s) {m : Memory}
    (same : (backing_of_owns owns).map.SameOutside s.memory m) :
    Owns { s with memory := m } space lowP3 userP2 p1s := by
  have confined := (backing_of_owns owns).confined same
  refine ⟨owns.laid.congr fun frame mem i => ?_, owns.held⟩
  have notPage : ¬ ∃ page ∈ space.pages, page.frame = frame := by
    rintro ⟨page, memP, isFrame⟩
    exact (List.nodup_append.mp owns.laid.nodup).2.2 frame mem page.frame
      (List.mem_map_of_mem memP) isFrame.symm
  exact confined.tables (owns.laid.isTable mem).aligned
    (owns.held frame (Laid.mem_frames_of_table mem)) notPage i

theorem Filling.mapping (filling : Filling s space lowP3 userP2) :
    Mapping space.pages Paging.unmapped space.translate s.memory := by
  obtain ⟨p1s, owns⟩ := filling.owns
  refine ⟨backing_of_owns owns, fun m' same a inSlot => ?_, filling.empty⟩
  have owns' := owns_written owns same
  have shown : space.translate m' a = _ := owns'.translate filling.active filling.positive inSlot
  rw [shown, AddressSpace.recorded]
  change resultOf a ((pageFor space.pages a).map _) = _
  cases found : pageFor space.pages a with
  | none => rfl
  | some page =>
      have mem := (Backing.mem_of_pageFor found).1
      exact page.result_eq ((backing_of_owns owns).isFrame page mem) a

/-- A new space has no pages yet. -/
theorem Filling.of_created (created : Created boot s space lowP3 userP2 s')
    (active : space.active = true) : Filling s' space lowP3 userP2 := by
  have isFresh := created.fresh _ (Laid.mem_frames_of_table created.owns.laid.root_mem)
  rw [Machine.Held, Classical.not_imp] at isFresh
  have lacks : lackingTables s' userP2 ≤ 2 := List.countP_le_length
  refine ⟨⟨[], created.owns⟩, active, (source.positive isFresh.1).ne', ?_, ?_⟩
  · rw [created.owns.laid.tableFrames, List.length_cons, List.length_cons, List.length_singleton]
    omega
  · rw [created.pages]
    exact fun _ mem => absurd mem List.not_mem_nil

/-- The audit of a loaded space finds what was recorded. -/
theorem Loaded.audit {p1s : List Nat} {image : List UInt8} {plan : ImagePlan} {m : Memory}
    (loaded : Loaded image plan Paging.unmapped (space.translate m) m) (safe : SafePlan image plan)
    (owns : Owns { s with memory := m } space lowP3 userP2 p1s) (active : space.active = true)
    (positive : space.rootFrame ≠ 0) (isTargets :
      space.pages.map (fun page => (page.virt, page.permissions)) = plan.allTargets) :
    (space.audit m).validRoot = true ∧ (space.audit m).userPages = space.mappedPages ∧
      (space.audit m).writableExecutablePages = 0 ∧ (space.audit m).stackGuardIntact = true := by
  have guard : (space.translate m userElfStackGuard).mapped = false := by
    rw [loaded.elsewhere userElfStackGuard ⟨by decide, by decide⟩]
    · rfl
    · intro maps
      obtain ⟨t, mem, sameT⟩ := safe.maps_iff.mp maps
      obtain ⟨aligned, -, -, -, notGuard⟩ := safe.target mem
      have guardAligned : userElfStackGuard % pageSize4k = 0 := by decide
      apply notGuard
      simp only [pageSize4k] at *
      omega
  refine ⟨?_, (owns.faithful active positive).audit, ?_, ?_⟩
  · rw [AddressSpace.audit, active, Bool.true_and, bne_iff_ne]
    exact positive
  · refine List.countP_eq_zero.mpr fun page mem both => ?_
    rw [Bool.and_eq_true] at both
    refine loaded.writeXorExecute page.virt (safe.maps_iff.mpr ⟨(page.virt, page.permissions), ?_,
      rfl⟩) both
    rw [← isTargets]
    exact List.mem_map_of_mem mem
  · rw [AddressSpace.audit, guard]
    rfl

/-- Once the pages of the plan are mapped, nothing else can fail. -/
theorem Filling.fillSpace {image : List UInt8} {plan : ImagePlan} (safe : SafePlan image plan)
    (filling : Filling s' space' lowP3 userP2) (isTargets :
      space'.pages.map (fun page => (page.virt, page.permissions)) = plan.allTargets)
    (maps : mapUserPages space s plan.allTargets = (.ok (), space', s')) {p1s : List Nat}
    (owns : Owns s' space' lowP3 userP2 p1s) :
    ∃ m, Elf.fillSpace space s image plan = (.ok (), space', { s' with memory := m }) ∧
      (backing_of_owns owns).map.SameOutside s'.memory m ∧
      Loaded image plan Paging.unmapped (space'.translate m) m := by
  obtain ⟨m, copies, same, loaded⟩ := filling.mapping.copies safe isTargets
    (copySegmentToAddressSpace space' image) (fun _ _ => rfl)
  obtain ⟨root, audited, wx, intact⟩ :=
    loaded.audit safe (owns_written owns same) filling.active filling.positive isTargets
  refine ⟨m, ?_, same, loaded⟩
  unfold Elf.fillSpace
  rw [show plan.targets ++ [(userElfStackPage, UserPagePermissions.readWrite)] =
    plan.allTargets from rfl, maps]
  dsimp only
  rw [copies]
  dsimp only
  rw [root, audited, wx, intact, bne_self_eq_false, bne_self_eq_false]
  rfl

/-- `create_process_image` loads a safe plan if there are frames enough. -/
theorem createPlan_loaded {image : List UInt8} {plan : ImagePlan} (safe : SafePlan image plan)
    (sound : boot.Sound s) (low : Paging.child (tables s.memory boot.p4 0) = some boot.p3)
    (initialized : s.initialized = true)
    (enough : supplies source (plan.totalPages + 6) s.frames = true) (activeCr3 : Nat) :
    ∃ process s', createPlan boot s activeCr3 image plan = (.ok process, s') ∧
      Loaded image plan Paging.unmapped (process.addressSpace.translate s'.memory) s'.memory ∧
      process.entryPoint = plan.entryPoint ∧ process.stackTop = userElfStackTop ∧
      process.mappedPages = plan.totalPages + 1 := by
  have few := safe.few
  have length := safe.length_allTargets
  obtain ⟨space, s₁, creates, enough₁⟩ := sound.create_supplied low initialized
    (n := plan.totalPages + 3) enough
  obtain ⟨-, done⟩ := sound.create low creates
  obtain ⟨active, lowP3, userP2, created⟩ := done space rfl
  have lacks : lackingTables s₁ userP2 ≤ 2 := List.countP_le_length
  have target : ∀ t ∈ plan.allTargets, t.1 % pageSize4k = 0 ∧
      Paging.inUserVirtualRange t.1 = true ∧ InImageRegion t.1 := by
    intro t mem
    obtain ⟨aligned, inRegion, inRange, -⟩ := safe.target mem
    exact ⟨aligned, inRange, inRegion⟩
  have filling := Filling.of_created created active
  obtain ⟨space', s₂, maps, filling', isTargets⟩ := mapUserPages_filling (k := 0) filling target
    (by rw [created.pages]; exact safe.nodup_allTargets)
    (by
      rw [created.pages, length]
      simp only [List.length_nil, maxLoadPages, Paging.maxProcessUserPages] at *
      omega)
    (Paging.supplies_mono (by omega) enough₁)
  rw [created.pages, List.map_nil, List.nil_append] at isTargets
  obtain ⟨p1s, owns⟩ := filling'.owns
  obtain ⟨m', fills, -, loaded⟩ := filling'.fillSpace safe isTargets maps owns
  have pages : space'.pages.length = plan.totalPages + 1 := by
    have := congrArg List.length isTargets
    rwa [List.length_map, length] at this
  unfold createPlan
  rw [creates]
  dsimp only
  rw [fills]
  exact ⟨_, _, rfl, loaded, rfl, rfl, pages⟩

/-! ### The two loaders -/

/-- In every reachable state, over any source of frames that is lawful and never hands out
a boot table, an accepted image for which there are enough frames is loaded by
`create_process_image`, and by `load_image` if its pages are vacant in the boot tables;
what the two report agrees. -/
theorem loaders_agree {source : FrameSource} (boot : BootTables) (reserved : boot.Reserved source)
    (s : Machine source) (initialized : s.initialized = true) (ops : List Paging.SpaceOp)
    (image : Slice) (plan : ImagePlan) (accepted : validateImage image.bytes = .ok plan)
    (activeCr3 : Nat)
    (enough : supplies source (plan.totalPages + 6)
      (Paging.World.run boot (Paging.World.first boot s) ops).machine.frames = true) :
    let machine := (Paging.World.run boot (Paging.World.first boot s) ops).machine
    ∃ process after,
      createProcessImage boot machine activeCr3 (some image.bytes) = (.ok process, after) ∧
      Loaded image.bytes plan Paging.unmapped (process.addressSpace.translate after.memory)
        after.memory ∧
      process.entryPoint = plan.entryPoint ∧ process.stackTop = userElfStackTop ∧
      process.mappedPages = plan.totalPages + 1 ∧
      ((∀ a, plan.Maps a → (Paging.translate boot machine.memory a).mapped = false) →
        ∃ loaded after', loadImage boot machine image.bytes = (.ok loaded, after') ∧
          Loaded image.bytes plan (Paging.translate boot machine.memory)
            (Paging.translate boot after'.memory) after'.memory ∧
          loaded.entryPoint = process.entryPoint ∧ loaded.stackTop = process.stackTop ∧
          loaded.mappedPages = process.mappedPages) := by
  intro machine
  have first := Paging.World.first_coherent reserved s
  have coherent := first.run ops
  have tidy := Paging.World.run_tidy first (Paging.World.first_tidy boot s) ops
  have ready : machine.initialized = true :=
    (Paging.World.run_initialized first ops).trans initialized
  have safe := safePlan_of_ok image accepted
  obtain ⟨process, after, creates, loaded, entryPoint, stackTop, mappedPages⟩ :=
    createPlan_loaded safe coherent.sound coherent.low ready enough activeCr3
  refine ⟨process, after, ?_, loaded, entryPoint, stackTop, mappedPages, fun vacant => ?_⟩
  · unfold createProcessImage
    dsimp only
    rw [accepted]
    dsimp only
    rw [creates]
  · have lacks := boot.lacking_le machine
    have enough' : supplies source (boot.lacking machine + (plan.totalPages + 1)) machine.frames =
        true := Paging.supplies_mono (by omega) enough
    obtain ⟨image', after', loads, loaded', entryPoint', stackTop', mappedPages'⟩ :=
      loadPlan_loaded safe coherent.sound tidy vacant enough'
    refine ⟨image', after', ?_, loaded', entryPoint'.trans entryPoint.symm,
      stackTop'.trans stackTop.symm, mappedPages'.trans mappedPages.symm⟩
    unfold loadImage
    rw [accepted]
    dsimp only
    rw [loads]

/-- One readable and executable segment of 120 bytes, and 80 bytes of zeros behind. -/
def smallImage : Slice where
  bytes :=
    [0x7f, 0x45, 0x4c, 0x46, 2, 1, 1, 0, 0, 0, 0, 0, 0, 0, 0, 0,
      2, 0, 62, 0, 1, 0, 0, 0, 0x10, 0x00, 0x10, 0x40, 0, 0, 0, 0,
      64, 0, 0, 0, 0, 0, 0, 0, 0, 0, 0, 0, 0, 0, 0, 0,
      0, 0, 0, 0, 64, 0, 56, 0, 1, 0, 0, 0, 0, 0, 0, 0,
      1, 0, 0, 0, 5, 0, 0, 0, 0, 0, 0, 0, 0, 0, 0, 0,
      0x00, 0x00, 0x10, 0x40, 0, 0, 0, 0, 0, 0, 0, 0, 0, 0, 0, 0,
      120, 0, 0, 0, 0, 0, 0, 0, 200, 0, 0, 0, 0, 0, 0, 0,
      0, 16, 0, 0, 0, 0, 0, 0]
  bounded := by decide

def smallPlan : ImagePlan where
  entryPoint := 0x40100010
  imageStart := 0x40100000
  imageEnd := 0x40101000
  totalPages := 1
  segments := [⟨0, 0x40100000, 120, 200, false, true⟩]

theorem smallImage_accepted : validateImage smallImage.bytes = .ok smallPlan := by decide +kernel

/-- The machine with the space of another task. -/
def neighbourMachine : Machine (PhysMem.SoundAllocator.source Paging.roomyMap) :=
  (Paging.World.run Paging.imageTables (Paging.World.first Paging.imageTables Paging.roomyMachine)
    [.create]).machine

/-- The boot tables have nothing where the image goes. -/
theorem smallImage_vacant {a : Nat} (maps : smallPlan.Maps a) :
    (Paging.translate Paging.imageTables neighbourMachine.memory a).mapped = false := by
  have inSlot : InUserSlot a := by
    simp only [ImagePlan.Maps, smallPlan, List.mem_singleton, exists_eq_left] at maps
    rcases maps with ⟨from_, below⟩ | ⟨from_, below⟩
    · exact ⟨le_trans (by decide) from_, lt_of_lt_of_le below (by decide)⟩
    · exact ⟨le_trans (by decide) from_, lt_of_lt_of_le below (by decide)⟩
  have present : Paging.entryPresent
      (Paging.entry neighbourMachine.memory Paging.imageTables.p4 0) = true := by
    decide +kernel
  have table : Paging.tableFromEntry
      (Paging.entry neighbourMachine.memory Paging.imageTables.p4 0) = some 0x102000 := by
    decide +kernel
  have absent : Paging.entryPresent (Paging.entry neighbourMachine.memory 0x102000 1) = false := by
    decide +kernel
  unfold Paging.translate
  simp only [inSlot.p4Index, inSlot.p3Index, present, table, absent]
  rfl

/-- The image next to a space that is there already, loaded either way. -/
theorem loaders_agree_smallImage : ∃ process after loaded after',
    createProcessImage Paging.imageTables neighbourMachine 0 (some smallImage.bytes) =
      (.ok process, after) ∧
    Loaded smallImage.bytes smallPlan Paging.unmapped
      (process.addressSpace.translate after.memory) after.memory ∧
    loadImage Paging.imageTables neighbourMachine smallImage.bytes = (.ok loaded, after') ∧
    Loaded smallImage.bytes smallPlan
      (Paging.translate Paging.imageTables neighbourMachine.memory)
      (Paging.translate Paging.imageTables after'.memory) after'.memory ∧
    process.mappedPages = 2 ∧ loaded.mappedPages = process.mappedPages := by
  obtain ⟨process, after, creates, shown, -, -, mappedPages, loads⟩ :=
    loaders_agree Paging.imageTables Paging.imageTables_reserved_roomyMap Paging.roomyMachine rfl
      [.create] smallImage smallPlan smallImage_accepted 0 (by decide +kernel)
  obtain ⟨loaded, after', succeeds, shown', -, -, same⟩ := loads fun _ => smallImage_vacant
  exact ⟨process, after, loaded, after', creates, shown, succeeds, shown', mappedPages, same⟩

end CloudOS.Elf
