import CloudOS.Paging.Isolation

/-!
What an address space shares with the boot tables. It copies two of them when it is
made, and the entries that it copied do not change afterwards.
-/

namespace CloudOS.Paging

open CloudOS.PhysMem (FrameSource SoundAllocator)

variable {source : FrameSource} {boot : BootTables} {s s' : Machine source}

/-- What later calls rely on in the two topmost boot tables. -/
structure Upper (boot : BootTables) (s : Machine source) : Prop where
  low : child (tables s.memory boot.p4 0) = some boot.p3
  writable : entryWritable (tables s.memory boot.p4 0) = true
  supervisor : ∀ j, j ≠ 1 → entryUser (tables s.memory boot.p3 j) = false

/-- The kernel half has its table, and it may be written through. -/
def KernelOpen (boot : BootTables) (s : Machine source) : Prop :=
  entryPresent (entry s.memory boot.p4 (p4Index kernelVirtualBase)) = true ∧
    entryWritable (entry s.memory boot.p4 (p4Index kernelVirtualBase)) = true

/-- The boot tree starts out with nothing in the upper half. -/
theorem enter_upper (s : Machine source) : Upper boot (boot.enter s) := by
  have started := boot.start_started s.memory
  refine ⟨(started.child_p4 0).trans (if_pos rfl), ?_, fun j _ => ?_⟩
  · refine (congrArg entryWritable (started.p4 0)).trans ?_
    rw [if_pos rfl, entryWritable_or]
    exact Bool.or_true _
  · refine (congrArg entryUser (started.p3 j)).trans ?_
    split
    · rw [entryUser_or, boot.isFrame_p2.entryUser]
      rfl
    · rfl

/-! ### The upper entries stay -/

/-- Widening without the user bit changes no writable entry. -/
theorem or_opened_of_writable {e flags : Nat} (writable : entryWritable e = true)
    (supervisor : entryUser flags = false) : e ||| opened flags = e := by
  rw [entryWritable_eq] at writable
  rw [entryUser_eq] at supervisor
  apply Nat.eq_of_testBit_eq
  intro k
  rw [Nat.testBit_or, testBit_opened]
  by_cases first : 1 = k
  · rw [← first, writable, Bool.true_or]
  · by_cases second : 2 = k
    · rw [← second, supervisor, Bool.false_and, Bool.or_false]
    · rw [decide_eq_false first, decide_eq_false second, Bool.or_false, Bool.and_false,
        Bool.or_false]

/-- The managed range is below one entry of the root. -/
theorem p4Index_of_managed {virt : Nat} (inRange : inManagedVirtualRange virt = true) :
    p4Index virt = p4Index kernelVirtualBase := by
  rw [inManagedVirtualRange_iff] at inRange
  rw [p4Index, p4Index, Fin.ext_iff, tableIndex_val, tableIndex_val]
  simp only [kernelVirtualBase, kernelVirtualEnd] at *
  omega

theorem p4Index_kernelVirtualBase : p4Index kernelVirtualBase ≠ 0 := by decide

/-- The way to a page that may be mapped goes through the user slot, or through the
kernel half without the user bit. -/
theorem route_cases {virt flags : Nat} {path : List (Fin 512)} (nonempty : path ≠ [])
    (onRoute : path <+: BootTables.route virt flags) :
    path <+: indices virt ∧ (InUserSlot virt ∨
      p4Index virt = p4Index kernelVirtualBase ∧ entryUser flags = false) := by
  unfold BootTables.route at onRoute
  split at onRoute
  · rename_i inRange
    refine ⟨onRoute, ?_⟩
    unfold inMappableVirtualRange at inRange
    split at inRange
    · exact .inl (inUserSlot_of_range inRange)
    · rename_i supervisor
      rw [Bool.and_eq_true] at inRange
      exact .inr ⟨p4Index_of_managed inRange.1, Bool.eq_false_iff.mpr supervisor⟩
  · exact absurd (List.prefix_nil.mp onRoute) nonempty

/-- A call writes below the user slot or below the kernel's entry. -/
theorem call_route_cases {call : MapCall} {path : List (Fin 512)} (nonempty : path ≠ [])
    (onRoute : path <+: call.route) : path <+: indices call.virt ∧ (InUserSlot call.virt ∨
      p4Index call.virt = p4Index kernelVirtualBase ∧ entryUser call.flags = false) := by
  cases call with
  | mapNewPageOwned virt owner => exact route_cases nonempty onRoute
  | mapNewUserPage virt permissions => exact route_cases nonempty onRoute
  | mapPage virt phys => exact route_cases nonempty onRoute
  | mapUserPageWithPermissions virt phys permissions => exact route_cases nonempty onRoute
  | unmapPage virt => exact absurd (List.prefix_nil.mp onRoute) nonempty

section Call

variable {call : MapCall} (upper : Upper boot s)
  (evolves : boot.Evolves call.route call.flags s s')

include upper evolves

/-- In the low table only the user slot may change. -/
theorem Upper.low_entry {j : Fin 512} (other : j ≠ 1) :
    tables s'.memory boot.p3 j = tables s.memory boot.p3 j := by
  have reaches : Lib.Radix.node child (tables s.memory) boot.p4 [0] = some boot.p3 := by
    rw [Lib.Radix.node, upper.low]
    rfl
  rcases evolves.entries [0] boot.p3 j (by simp) reaches with same | ⟨onRoute, -⟩
  · exact same
  · obtain ⟨⟨rest, split⟩, way⟩ := call_route_cases (by simp) onRoute
    simp only [indices, List.cons_append, List.nil_append,
      List.cons.injEq] at split
    rcases way with inSlot | ⟨kernel, -⟩
    · rw [inSlot.p3Index] at split
      exact absurd split.2.1 other
    · rw [kernel] at split
      exact absurd split.1.symm p4Index_kernelVirtualBase

/-- The boot tree keeps its shape. -/
theorem Upper.kept : Upper boot s' := by
  have reaches : Lib.Radix.node child (tables s.memory) boot.p4 [0] = some boot.p3 := by
    rw [Lib.Radix.node, upper.low]
    rfl
  refine ⟨?_, ?_, fun j other => ?_⟩
  · have reaches' := evolves.nodes [0] boot.p3 (by simp) reaches
    rw [Lib.Radix.node] at reaches'
    obtain ⟨p3, leads, isP3⟩ := Option.bind_eq_some_iff.mp reaches'
    obtain rfl := Option.some.inj isP3
    exact leads
  · rcases evolves.entries [] boot.p4 0 (by simp) rfl with same | ⟨-, absent | widened⟩
    · rw [same]
      exact upper.writable
    · rw [(present_of_child upper.low).1] at absent
      cases absent
    · rw [widened, entryWritable_or, upper.writable, Bool.true_or]
  · rw [upper.low_entry evolves other]
    exact upper.supervisor j other

omit upper in
/-- Once the kernel half is open, no call changes its entry. -/
theorem KernelOpen.root_entry (isOpen : KernelOpen boot s) {i : Fin 512} (other : i ≠ 0) :
    tables s'.memory boot.p4 i = tables s.memory boot.p4 i := by
  obtain ⟨present, writable⟩ := isOpen
  rw [← tables_of_aligned boot.isFrame.aligned] at present writable
  rcases evolves.entries [] boot.p4 i (by simp) rfl with same | ⟨onRoute, change⟩
  · exact same
  · obtain ⟨⟨rest, split⟩, way⟩ := call_route_cases (by simp) onRoute
    simp only [indices, List.nil_append, List.cons_append, List.cons.injEq] at split
    rcases way with inSlot | ⟨kernel, supervisor⟩
    · rw [inSlot.p4Index] at split
      exact absurd split.1 other
    · rw [← kernel, ← split.1] at present writable
      rcases change with absent | widened
      · rw [present] at absent
        cases absent
      · rw [widened, or_opened_of_writable writable supervisor]

end Call

/-! ### Sharing -/

/-- The entries that a space copied still are those of the boot tables. -/
structure Shares (boot : BootTables) (s : Machine source) (space : AddressSpace) (lowP3 : Nat) :
    Prop where
  root : ∀ i, i ≠ 0 → tables s.memory space.rootFrame i = tables s.memory boot.p4 i
  low : ∀ j, j ≠ 1 → tables s.memory lowP3 j = tables s.memory boot.p3 j

/-- Outside the user slot both walks agree. -/
theorem Shares.translate {space : AddressSpace} {lowP3 userP2 : Nat} {p1s : List Nat}
    (shares : Shares boot s space lowP3) (owns : Owns s space lowP3 userP2 p1s)
    (sound : boot.Sound s) (upper : Upper boot s) {virt : Nat}
    (outside : ¬ (p4Index virt = 0 ∧ p3Index virt = 1)) :
    translateFromRoot s.memory space.rootFrame virt = translate boot s.memory virt := by
  have laid := owns.laid
  have isRoot := laid.isTable laid.root_mem
  have isLow := laid.isTable laid.lowP3_mem
  rw [translate_eq_translateFromRoot]
  unfold translateFromRoot
  rw [isRoot.tableFromFrame, boot.isFrame.tableFromFrame]
  dsimp only
  by_cases zero : p4Index virt = 0
  · have other : p3Index virt ≠ 1 := fun one => outside ⟨zero, one⟩
    have atRoot := laid.root
    have sameLow := shares.low _ other
    have supervisor := upper.supervisor _ other
    obtain ⟨present, small, leads⟩ := present_of_child upper.low
    have writable := upper.writable
    have atTop : Lib.Radix.node child (tables s.memory) boot.p4 [] = some boot.p4 := rfl
    have execute := (sound.sheltered.inner 0 (by simp) atTop present small).1
    rw [tables_of_aligned boot.isFrame.aligned] at present leads writable execute
    rw [tables_of_aligned isRoot.aligned] at atRoot
    rw [tables_of_aligned isLow.aligned, tables_of_aligned boot.isFrame_p3.aligned] at sameLow
    rw [tables_of_aligned boot.isFrame_p3.aligned] at supervisor
    rw [zero, atRoot, present, leads, writable, execute, entryPresent_openEntry,
      tableFromEntry_openEntry isLow, entryWritable_openEntry, entryNoExecute_openEntry isLow]
    dsimp only
    rw [sameLow, supervisor, Bool.and_false, Bool.and_false]
  · have sameRoot := shares.root _ zero
    rw [tables_of_aligned isRoot.aligned, tables_of_aligned boot.isFrame.aligned] at sameRoot
    rw [sameRoot]

/-- Below the first gibibyte nothing is for user code. -/
theorem Shares.supervisor {space : AddressSpace} {lowP3 userP2 : Nat} {p1s : List Nat}
    (shares : Shares boot s space lowP3) (owns : Owns s space lowP3 userP2 p1s)
    (upper : Upper boot s) {virt : Nat} (zero : p4Index virt = 0) (other : p3Index virt ≠ 1) :
    (translateFromRoot s.memory space.rootFrame virt).userAccessible = false := by
  have laid := owns.laid
  have isRoot := laid.isTable laid.root_mem
  have isLow := laid.isTable laid.lowP3_mem
  have atRoot := laid.root
  have low := shares.low _ other
  have supervisor := upper.supervisor _ other
  rw [tables_of_aligned isRoot.aligned] at atRoot
  rw [← low, tables_of_aligned isLow.aligned] at supervisor
  unfold translateFromRoot
  rw [isRoot.tableFromFrame, zero]
  dsimp only
  rw [atRoot, tableFromEntry_openEntry isLow]
  dsimp only
  rw [supervisor, Bool.and_false]
  repeat' split
  all_goals rfl

/-! ### Runs -/

namespace World

variable {w : World source}

/-- The space in the `k`-th place, while it is in use, shares the kernel half. -/
structure SharedAt (boot : BootTables) (w : World source) (k : Nat) : Prop where
  coherent : Coherent boot w
  upper : Upper boot w.machine
  isOpen : KernelOpen boot w.machine
  inside : k < w.spaces.length
  shares : ∀ space, w.Active k space → ∃ lowP3 userP2 p1s,
    Owns w.machine space lowP3 userP2 p1s ∧ Shares boot w.machine space lowP3

/-- The boot tables are not touched by operations on spaces. -/
theorem Coherent.upper_of_confined (coherent : Coherent boot w) {own : Nat → Prop}
    (confined : Confined own w.machine s')
    (apart : ∀ frame, boot.Has w.machine frame → ¬ own frame) :
    (∀ i, tables s'.memory boot.p4 i = tables w.machine.memory boot.p4 i) ∧
      ∀ j, tables s'.memory boot.p3 j = tables w.machine.memory boot.p3 j := by
  obtain ⟨-, -, -, same⟩ := coherent.sound.confined confined apart
  refine ⟨same boot.p4 (BootTables.has_root _), same boot.p3 ⟨[0], by simp, ?_⟩⟩
  rw [Lib.Radix.node, coherent.low]
  rfl

end World

theorem Upper.congr (upper : Upper boot s)
    (sameRoot : ∀ i, tables s'.memory boot.p4 i = tables s.memory boot.p4 i)
    (sameLow : ∀ j, tables s'.memory boot.p3 j = tables s.memory boot.p3 j) : Upper boot s' := by
  refine ⟨?_, ?_, fun j other => ?_⟩
  · rw [sameRoot]
    exact upper.low
  · rw [sameRoot]
    exact upper.writable
  · rw [sameLow]
    exact upper.supervisor j other

theorem KernelOpen.congr (isOpen : KernelOpen boot s)
    (same : tables s'.memory boot.p4 (p4Index kernelVirtualBase) =
      tables s.memory boot.p4 (p4Index kernelVirtualBase)) : KernelOpen boot s' := by
  unfold KernelOpen at *
  rw [← tables_of_aligned boot.isFrame.aligned] at *
  rwa [same]

theorem Shares.congr {space : AddressSpace} {lowP3 : Nat} (shares : Shares boot s space lowP3)
    (sameRoot : ∀ i, i ≠ 0 → tables s'.memory boot.p4 i = tables s.memory boot.p4 i)
    (sameLow : ∀ j, j ≠ 1 → tables s'.memory boot.p3 j = tables s.memory boot.p3 j)
    (sameOwnRoot : ∀ i, tables s'.memory space.rootFrame i = tables s.memory space.rootFrame i)
    (sameOwnLow : ∀ j, tables s'.memory lowP3 j = tables s.memory lowP3 j) :
    Shares boot s' space lowP3 := by
  refine ⟨fun i other => ?_, fun j other => ?_⟩
  · rw [sameOwnRoot, sameRoot i other]
    exact shares.root i other
  · rw [sameOwnLow, sameLow j other]
    exact shares.low j other

namespace World

variable {w : World source} {k : Nat}

/-- A call on the boot tree leaves the shared entries alone. -/
theorem SharedAt.call (shared : SharedAt boot w k) (call : MapCall) :
    SharedAt boot (w.step boot (.boot call)) k := by
  have coherent := shared.coherent
  have evolves := (run_effect coherent.sound call).evolves
  refine ⟨coherent.step _, shared.upper.kept evolves, ?_, shared.inside, fun space active => ?_⟩
  · exact shared.isOpen.congr (shared.isOpen.root_entry evolves p4Index_kernelVirtualBase)
  · obtain ⟨lowP3, userP2, p1s, owns, shares⟩ := shared.shares space active
    obtain ⟨owns', same⟩ := owns.confined evolves.confined (coherent.offBoot k space active)
    exact ⟨lowP3, userP2, p1s, owns', shares.congr
      (fun i other => shared.isOpen.root_entry evolves other)
      (fun j other => shared.upper.low_entry evolves other)
      (same _ owns.laid.root_mem) (same _ owns.laid.lowP3_mem)⟩

/-- The upper entries through any operation. -/
theorem Coherent.upper_step (coherent : Coherent boot w) (upper : Upper boot w.machine)
    (op : SpaceOp) : Upper boot (w.step boot op).machine := by
  by_cases onBoot : ∃ call, op = .boot call
  · obtain ⟨call, rfl⟩ := onBoot
    exact upper.kept (run_effect coherent.sound call).evolves
  · obtain ⟨own, confined, offBoot, -⟩ :=
      coherent.step_confined op fun call same => onBoot ⟨call, same⟩
    obtain ⟨sameRoot, sameLow⟩ := coherent.upper_of_confined confined offBoot
    exact upper.congr sameRoot sameLow

/-- The shape lasts through every run. -/
theorem Coherent.upper_run (coherent : Coherent boot w) (upper : Upper boot w.machine)
    (ops : List SpaceOp) : Upper boot (w.run boot ops).machine := by
  induction ops generalizing w with
  | nil => exact upper
  | cons op ops ih => exact ih (coherent.step op) (coherent.upper_step upper op)

/-- The new tables of the space itself. -/
theorem SharedAt.ownStep (shared : SharedAt boot w k) {op : SpaceOp} (isTarget : op.target = some k)
    (sameRoot : ∀ i, tables (w.step boot op).machine.memory boot.p4 i =
      tables w.machine.memory boot.p4 i)
    (sameLow : ∀ j, tables (w.step boot op).machine.memory boot.p3 j =
      tables w.machine.memory boot.p3 j) {space : AddressSpace}
    (active : (w.step boot op).Active k space) : ∃ lowP3 userP2 p1s,
      Owns (w.step boot op).machine space lowP3 userP2 p1s ∧
        Shares boot (w.step boot op).machine space lowP3 := by
  cases op with
  | create => cases isTarget
  | boot call => cases isTarget
  | mapUserPage j virt permissions =>
      obtain rfl := Option.some.inj isTarget
      cases found : w.spaces[j]? with
      | none =>
          rw [World.step, found] at active
          exact absurd (found.symm.trans active.1) (by simp)
      | some changed =>
      cases maps : changed.mapUserPage w.machine virt permissions with
      | mk result rest =>
      obtain ⟨changed', s'⟩ := rest
      rw [step_mapUserPage found maps] at active sameRoot sameLow ⊢
      rcases active_set active with ⟨-, rfl⟩ | ⟨other, -⟩
      · cases isActive : changed.active with
        | false =>
            rw [AddressSpace.mapUserPage, isActive] at maps
            obtain ⟨-, rfl, -⟩ : _ ∧ changed = space ∧ w.machine = s' := by simpa using maps
            have inactive := active.2
            rw [isActive] at inactive
            cases inactive
        | true =>
            obtain ⟨lowP3, userP2, p1s, owns, shares⟩ := shared.shares changed ⟨found, isActive⟩
            have grows := (owns.mapUserPage maps).grows
            obtain ⟨p1s', owns'⟩ := grows.owns
            have shares' := shares.congr (fun i _ => sameRoot i) (fun j _ => sameLow j)
              (fun i => (grows.upper i).1) (fun i => (grows.upper i).2)
            refine ⟨lowP3, userP2, p1s', owns', ⟨?_, shares'.low⟩⟩
            rw [grows.rootFrame]
            exact shares'.root
      · exact absurd rfl other
  | destroy j activeCr3 =>
      obtain rfl := Option.some.inj isTarget
      cases found : w.spaces[j]? with
      | none =>
          rw [World.step, found] at active
          exact absurd (found.symm.trans active.1) (by simp)
      | some changed =>
      cases destroys : changed.destroy w.machine activeCr3 with
      | mk result rest =>
      obtain ⟨changed', s'⟩ := rest
      rw [step_destroy found destroys] at active sameRoot sameLow ⊢
      rcases active_set active with ⟨-, rfl⟩ | ⟨other, -⟩
      · rcases destroy_confined destroys with ⟨rfl, rfl⟩ | ⟨-, rfl, -⟩
        · exact shared.shares space ⟨found, active.2⟩
        · cases active.2
      · exact absurd rfl other

/-- An operation on any space leaves the shared entries of this one alone. -/
theorem SharedAt.step (shared : SharedAt boot w k) (op : SpaceOp) :
    SharedAt boot (w.step boot op) k := by
  by_cases onBoot : ∃ call, op = .boot call
  · obtain ⟨call, rfl⟩ := onBoot
    exact shared.call call
  · obtain ⟨own, confined, offBoot, offSpace⟩ :=
      shared.coherent.step_confined op fun call same => onBoot ⟨call, same⟩
    obtain ⟨sameRoot, sameLow⟩ := shared.coherent.upper_of_confined confined offBoot
    refine ⟨shared.coherent.step op, shared.upper.congr sameRoot sameLow,
      shared.isOpen.congr (sameRoot _), shared.inside.trans_le (length_step op),
      fun space active => ?_⟩
    by_cases isTarget : op.target = some k
    · exact shared.ownStep isTarget sameRoot sameLow active
    · have before : w.Active k space :=
        ⟨(getElem?_step shared.inside isTarget).symm.trans active.1, active.2⟩
      obtain ⟨lowP3, userP2, p1s, owns, shares⟩ := shared.shares space before
      obtain ⟨owns', same⟩ := owns.confined confined (offSpace k space before isTarget)
      exact ⟨lowP3, userP2, p1s, owns', shares.congr (fun i _ => sameRoot i)
        (fun j _ => sameLow j) (same _ owns.laid.root_mem) (same _ owns.laid.lowP3_mem)⟩

/-- What is shared once is shared from then on. -/
theorem SharedAt.run (shared : SharedAt boot w k) (ops : List SpaceOp) :
    SharedAt boot (w.run boot ops) k := by
  induction ops generalizing w with
  | nil => exact shared
  | cons op ops ih => exact ih (shared.step op)

/-- A space that is made while the kernel half is open shares it. -/
theorem Coherent.shared_create (coherent : Coherent boot w) (upper : Upper boot w.machine)
    (isOpen : KernelOpen boot w.machine) {created : AddressSpace}
    (creates : AddressSpace.create boot w.machine = (.ok created, s')) :
    SharedAt boot (w.step boot .create) w.spaces.length := by
  have next : w.step boot .create = ⟨s', w.spaces ++ [created]⟩ := by rw [World.step, creates]
  obtain ⟨apart, done⟩ := coherent.sound.create coherent.low creates
  obtain ⟨-, lowP3, userP2, made⟩ := done created rfl
  obtain ⟨sameRoot, sameLow⟩ := coherent.upper_of_confined apart fun _ _ => not_false
  have coherent' := coherent.step .create
  rw [next] at coherent' ⊢
  refine ⟨coherent', upper.congr sameRoot sameLow, isOpen.congr (sameRoot _), ?_,
    fun space active => ?_⟩
  · dsimp only
    rw [List.length_append, List.length_singleton]
    omega
  · have found := active.1
    dsimp only at found
    rw [List.getElem?_append_right (le_refl _), Nat.sub_self] at found
    obtain rfl := Option.some.inj found
    refine ⟨lowP3, userP2, [], made.owns, fun i other => ?_, fun j other => ?_⟩
    · rw [sameRoot]
      exact made.root i other
    · rw [sameLow]
      exact made.low j other

end World

/-- A space that is made while the kernel half is open translates, at every later
moment, every address outside its own slot as the boot tables do. -/
theorem kernel_half_shared {source : FrameSource} (boot : BootTables)
    (reserved : boot.Reserved source) (s : Machine source) (ops later : List SpaceOp) :
    let w := World.run boot (World.first boot s) ops
    KernelOpen boot w.machine → ∀ created machine,
    AddressSpace.create boot w.machine = (.ok created, machine) →
    let w' := World.run boot (w.step boot .create) later
    ∀ space, w'.Active w.spaces.length space → ∀ virt,
      (¬ (p4Index virt = 0 ∧ p3Index virt = 1) →
        space.translate w'.machine.memory virt = translate boot w'.machine.memory virt) ∧
      (virt < bootIdentityMapBytes →
        (space.translate w'.machine.memory virt).userAccessible = false) := by
  intro w isOpen created machine creates w' space active virt
  have coherent : World.Coherent boot w := (World.first_coherent reserved s).run ops
  have upper : Upper boot w.machine :=
    (World.first_coherent reserved s).upper_run (enter_upper s) ops
  have shared : World.SharedAt boot w' w.spaces.length :=
    (coherent.shared_create upper isOpen creates).run later
  obtain ⟨lowP3, userP2, p1s, owns, shares⟩ := shared.shares space active
  have positive := (shared.coherent.owns _ space active).1
  have walk : space.translate w'.machine.memory virt =
      translateFromRoot w'.machine.memory space.rootFrame virt := by
    rw [AddressSpace.translate, active.2, beq_false_of_ne positive]
    rfl
  rw [walk]
  refine ⟨fun outside => shares.translate owns shared.coherent.sound shared.upper outside,
    fun low => shares.supervisor owns shared.upper ?_ ?_⟩
  · rw [p4Index, Fin.ext_iff, tableIndex_val]
    simp only [bootIdentityMapBytes] at low
    change virt / 2 ^ 39 % 512 = 0
    omega
  · rw [p3Index, Ne, Fin.ext_iff, tableIndex_val]
    simp only [bootIdentityMapBytes] at low
    change ¬ virt / 2 ^ 30 % 512 = 1
    omega

/-- A page of the heap is mapped. -/
def heapFirst : List SpaceOp := [.boot (.mapNewPageOwned kernelHeapBase .heap)]

/-- Pages on both sides. -/
def pagesLater : List SpaceOp :=
  [.mapUserPage 0 userElfBase .readWrite, .boot (.mapPage (kernelHeapBase + pageSize4k) 0)]

theorem kernel_half_shared_heapFirst :
    let w := World.run imageTables (World.first imageTables roomyMachine) heapFirst
    let w' := World.run imageTables (w.step imageTables .create) pagesLater
    w'.spaces = [⟨0x204000, [0x204000, 0x205000, 0x206000, 0x207000],
      [⟨0x208000, userElfBase, .readWrite⟩], true⟩] ∧
    ∀ space, w'.Active w.spaces.length space →
      space.translate w'.machine.memory kernelHeapBase =
        translate imageTables w'.machine.memory kernelHeapBase := by
  have isOpen : KernelOpen imageTables
      (World.run imageTables (World.first imageTables roomyMachine) heapFirst).machine := by
    unfold KernelOpen
    decide +kernel
  have made : (AddressSpace.create imageTables
      (World.run imageTables (World.first imageTables roomyMachine) heapFirst).machine).1 =
      .ok ⟨0x204000, [0x204000, 0x205000, 0x206000], [], true⟩ := by decide +kernel
  have shared := kernel_half_shared imageTables imageTables_reserved_roomyMap roomyMachine heapFirst
    pagesLater isOpen
  have outside : ¬ (p4Index kernelHeapBase = 0 ∧ p3Index kernelHeapBase = 1) := by decide
  refine ⟨by decide +kernel, fun space active => ?_⟩
  cases creates : AddressSpace.create imageTables
      (World.run imageTables (World.first imageTables roomyMachine) heapFirst).machine with
  | mk result machine =>
      rw [creates] at made
      obtain rfl : result = _ := made
      exact (shared _ machine creates space active kernelHeapBase).1 outside

end CloudOS.Paging
