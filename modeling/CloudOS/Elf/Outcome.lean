import CloudOS.Elf.Loaders
import CloudOS.Paging.Release

/-!
How `create_process_image` ends, whatever the machine is like.

Either the image is in frames that nobody had, in a space that shows the image and
nothing else; or nobody notices, since every frame that was taken goes back. Only a
lack of frames, or of entries in the record of the space, makes it fail: the copies and
the audit at the end always succeed.
-/

namespace CloudOS.Elf

open Lib.Store (Memory)
open CloudOS.PhysMem (FrameSource maxRecycledFrames)
open CloudOS.Paging (AddressSpace AddressSpaceError Apart BootTables Confined Created GivesBack
  Grows InImageRegion Laid Machine Owns Restores UserPage UserPagePermissions lackingTables pageSize4k
  tables userElfStackGuard userElfStackPage userElfStackTop)

variable {source : FrameSource} {boot : BootTables} {s s' s'' : Machine source}
  {space space' : AddressSpace} {lowP3 userP2 : Nat}

/-! ### Frames that were available -/

/-- Whoever touches only frames that were available touches nothing that is held. -/
theorem apart_of_fresh {own : Nat → Prop} (apart : Apart s s') (confined : Confined own s' s'')
    (fresh : ∀ x, own x → ¬ s.Held x) : Apart s s'' where
  held := fun x held _ => confined.held x (apart.held held) fun mine => fresh x mine held
  untouched := by
    intro frame a aligned held _ from_ below
    rw [confined.untouched frame a aligned (apart.held held) (fun mine => fresh frame mine held)
      from_ below]
    exact apart.untouched frame a aligned held not_false from_ below
  initialized := confined.initialized.trans apart.initialized

/-! ### Mapping -/

/-- One call of `map_user_page`, however it ends. -/
theorem Filling.call (filling : Filling s space lowP3 userP2) {virt : Nat}
    {permissions : UserPagePermissions} (inRegion : InImageRegion virt)
    {result : Except AddressSpaceError Nat}
    (maps : space.mapUserPage s virt permissions = (result, space', s')) :
    Filling s' space' lowP3 userP2 ∧ Grows lowP3 userP2 s space s' space' ∧
      space'.pages.length ≤ space.pages.length + 1 ∧ ∀ frame, result = .ok frame →
        space'.pages.map (fun page => (page.virt, page.permissions)) =
          space.pages.map (fun page => (page.virt, page.permissions)) ++ [(virt, permissions)] := by
  obtain ⟨p1s, owns⟩ := filling.owns
  obtain ⟨grows, failed, done⟩ := owns.mapUserPage maps
  obtain ⟨room, onePage⟩ := owns.mapUserPage_size inRegion filling.room maps
  have positive : space'.rootFrame ≠ 0 := by
    rw [grows.rootFrame]
    exact filling.positive
  -- the pages that were there are not touched
  have old : ∀ page ∈ space.pages, ∀ x, page.frame ≤ x → x < page.frame + pageSize4k →
      s'.memory x = 0 := by
    intro page mem x from_ below
    have inFrames := Laid.mem_frames_of_page mem
    have notTable : page.frame ∉ space.tableFrames := fun isTable =>
      (List.nodup_append.mp owns.laid.nodup).2.2 _ isTable _ (List.mem_map_of_mem mem) rfl
    rw [grows.confinedTables.untouched page.frame x (owns.laid.isFrame _ inFrames).aligned
      (owns.held _ inFrames) notTable from_ below]
    exact filling.empty page mem x from_ below
  refine ⟨⟨grows.owns, grows.active.trans filling.active, positive, room, ?_⟩, grows, onePage, ?_⟩
  · cases result with
    | error error =>
        rw [failed error rfl]
        exact old
    | ok frame =>
        obtain ⟨isPages, -, -, isEmpty⟩ := done frame rfl
        rw [isPages, List.forall_mem_append, List.forall_mem_singleton]
        exact ⟨old, isEmpty⟩
  · intro frame isOk
    rw [(done frame isOk).1, List.map_append]
    rfl

/-- The loop over the pages, however it ends. -/
theorem Filling.calls {targets : List (Nat × UserPagePermissions)}
    (filling : Filling s space lowP3 userP2) (inRegion : ∀ t ∈ targets, InImageRegion t.1)
    {result : Except LoadError Unit}
    (maps : mapUserPages space s targets = (result, space', s')) :
    Filling s' space' lowP3 userP2 ∧ Grows lowP3 userP2 s space s' space' ∧
      space'.pages.length ≤ space.pages.length + targets.length ∧ (result = .ok () →
        space'.pages.map (fun page => (page.virt, page.permissions)) =
          space.pages.map (fun page => (page.virt, page.permissions)) ++ targets) := by
  induction targets generalizing s space with
  | nil =>
      obtain ⟨-, rest⟩ := Prod.mk.inj maps
      obtain ⟨rfl, rfl⟩ := Prod.mk.inj rest
      obtain ⟨p1s, owns⟩ := filling.owns
      exact ⟨filling, .refl owns, le_rfl, fun _ => (List.append_nil _).symm⟩
  | cons t rest ih =>
      obtain ⟨here, later⟩ := List.forall_mem_cons.mp inRegion
      obtain ⟨virt, permissions⟩ := t
      unfold mapUserPages at maps
      cases call : space.mapUserPage s virt permissions with
      | mk answer after =>
      obtain ⟨space₁, s₁⟩ := after
      obtain ⟨filling₁, grows₁, onePage, isPages⟩ := filling.call here call
      rw [call] at maps
      cases answer with
      | error error =>
          obtain ⟨rfl, rest⟩ := Prod.mk.inj maps
          obtain ⟨rfl, rfl⟩ := Prod.mk.inj rest
          refine ⟨filling₁, grows₁, ?_, fun ok => by cases ok⟩
          rw [List.length_cons]
          omega
      | ok frame =>
          obtain ⟨filling', grows', few, all⟩ := ih filling₁ later maps
          refine ⟨filling', grows₁.trans grows', ?_, fun ok => ?_⟩
          · rw [List.length_cons]
            omega
          · rw [all ok, isPages frame rfl, List.append_assoc]
            rfl

/-! ### The whole image -/

/-- What a space that `create_process_image` returns is like. -/
structure Built (boot : BootTables) (s : Machine source) (image : List UInt8) (plan : ImagePlan)
    (process : ProcessImage) (s' : Machine source) : Prop where
  apart : Apart s s'
  active : process.addressSpace.active = true
  positive : process.addressSpace.rootFrame ≠ 0
  fresh : ∀ frame ∈ process.addressSpace.frames, ¬ s.Held frame
  draws : ∃ taken, source.Draws s.frames taken s'.frames ∧
    process.addressSpace.frames.Perm taken
  size : process.addressSpace.frames.length ≤ plan.totalPages + 6
  owns : ∃ lowP3 userP2 p1s, Owns s' process.addressSpace lowP3 userP2 p1s ∧
    (∀ i, i ≠ 0 → tables s'.memory process.addressSpace.rootFrame i = tables s.memory boot.p4 i) ∧
    ∀ j, j ≠ 1 → tables s'.memory lowP3 j = tables s.memory boot.p3 j
  targets : process.addressSpace.pages.map (fun page => (page.virt, page.permissions)) =
    plan.allTargets
  loaded : Loaded image plan Paging.unmapped (process.addressSpace.translate s'.memory) s'.memory
  entryPoint : process.entryPoint = plan.entryPoint
  stackTop : process.stackTop = userElfStackTop
  mappedPages : process.mappedPages = plan.totalPages + 1
  tableFrames : process.tableFrames = process.addressSpace.tableFrames.length
  firstUserFrame : process.firstUserFrame = process.addressSpace.firstUserFrame

/-- Nobody notices that an image could not be loaded. -/
structure Undone (s s' : Machine source) (most : Nat) : Prop where
  apart : Apart s s'
  restores : Restores s s' most

theorem Undone.refl (s : Machine source) (most : Nat) : Undone s s most :=
  ⟨.refl _ s, .refl s most⟩

/-- A space of few frames that nobody had is given back whole. -/
theorem destroy_undone {taken : List Nat} {activeCr3 most : Nat} (apart : Apart s s')
    (active : space.active = true) (other : activeCr3 ≠ space.rootFrame)
    (draws : source.Draws s.frames taken s'.frames) (perm : space.frames.Perm taken)
    (fresh : ∀ frame ∈ space.frames, ¬ s.Held frame) (short : space.frames.length < most)
    (small : most ≤ maxRecycledFrames) :
    Undone s (space.destroy s' activeCr3).2.2 most := by
  have issued : ∀ x ∈ space.frames, s'.Issued x := fun x mem =>
    (draws.outstanding x).mpr (.inr (perm.mem_iff.mp mem))
  have destroys := Paging.destroy_destroys active other (perm.nodup_iff.mpr draws.fresh.1) issued
  have fits := perm.length_eq.trans_le (Paging.room_of_draws draws
    (by rw [← perm.length_eq]; omega))
  cases call : space.destroy s' activeCr3 with
  | mk answer rest =>
  obtain ⟨space'', s''⟩ := rest
  rw [call] at destroys
  refine ⟨?_, fun x => ?_, ?_⟩
  · rcases Paging.destroy_confined call with ⟨-, rfl⟩ | ⟨-, -, confined⟩
    · exact apart
    · exact apart_of_fresh apart confined fresh
  · rw [destroys.all fits, Machine.Issued, draws.outstanding, perm.mem_iff]
    constructor
    · rintro ⟨old | isNew, notNew⟩
      · exact old
      · exact absurd isNew notNew
    · exact fun old => ⟨.inl old, fun isNew => draws.fresh.2 x isNew old⟩
  · have recycled := draws.recycled
    have same := perm.length_eq
    rw [destroys.recycled]
    omega

/-- A space that is being filled, in frames that nobody had. -/
structure Underway (boot : BootTables) (s s' : Machine source) (space : AddressSpace)
    (lowP3 most : Nat) : Prop where
  apart : Apart s s'
  fresh : ∀ frame ∈ space.frames, ¬ s.Held frame
  draws : ∃ taken, source.Draws s.frames taken s'.frames ∧ space.frames.Perm taken
  size : space.frames.length ≤ most
  root : ∀ i, i ≠ 0 → tables s'.memory space.rootFrame i = tables s.memory boot.p4 i
  low : ∀ j, j ≠ 1 → tables s'.memory lowP3 j = tables s.memory boot.p3 j

/-- A new space that has grown. -/
theorem Underway.of_grows {most : Nat} (apart : Apart s s')
    (created : Created boot s space lowP3 userP2 s')
    (grows : Grows lowP3 userP2 s' space s'' space') (size : space'.frames.length ≤ most) :
    Underway boot s s'' space' lowP3 most := by
  obtain ⟨new, draws, perm⟩ := grows.draws
  refine ⟨apart_of_fresh apart grows.confined created.fresh, fun frame mem => ?_,
    ⟨_, created.draws.trans draws, perm⟩, size, fun i notZero => ?_, fun j notOne => ?_⟩
  · rcases grows.fresh frame mem with old | notHeld
    · exact created.fresh frame old
    · exact fun held => notHeld (apart.held held)
  · rw [grows.rootFrame, (grows.upper i).1]
    exact created.root i notZero
  · rw [(grows.upper j).2]
    exact created.low j notOne

/-- What is left of a table when the pages of its space were written. -/
theorem tables_written {p1s : List Nat} (owns : Owns s space lowP3 userP2 p1s) {m : Memory}
    (same : (backing_of_owns owns).map.SameOutside s.memory m) {frame : Nat}
    (mem : frame ∈ space.tableFrames) (i : Fin 512) :
    tables m frame i = tables s.memory frame i := by
  have notPage : ¬ ∃ page ∈ space.pages, page.frame = frame := by
    rintro ⟨page, memP, isFrame⟩
    exact (List.nodup_append.mp owns.laid.nodup).2.2 frame mem page.frame
      (List.mem_map_of_mem memP) isFrame.symm
  exact ((backing_of_owns owns).confined same).tables (owns.laid.isTable mem).aligned
    (owns.held _ (Laid.mem_frames_of_table mem)) notPage i

/-- Once its segments are copied, the space is built. -/
theorem Underway.built {image : List UInt8} {plan : ImagePlan} (safe : SafePlan image plan)
    (underway : Underway boot s s' space lowP3 (plan.totalPages + 6))
    (filling : Filling s' space lowP3 userP2) {p1s : List Nat}
    (owns : Owns s' space lowP3 userP2 p1s) (isTargets :
      space.pages.map (fun page => (page.virt, page.permissions)) = plan.allTargets) {m : Memory}
    (same : (backing_of_owns owns).map.SameOutside s'.memory m)
    (loaded : Loaded image plan Paging.unmapped (space.translate m) m) :
    Built boot s image plan ⟨space, plan.entryPoint, userElfStackTop, space.mappedPages,
      space.tableFrames.length, space.firstUserFrame⟩ { s' with memory := m } where
  apart := by
    refine apart_of_fresh underway.apart ((backing_of_owns owns).confined same) ?_
    rintro x ⟨page, mem, rfl⟩
    exact underway.fresh _ (Laid.mem_frames_of_page mem)
  active := filling.active
  positive := filling.positive
  fresh := underway.fresh
  draws := underway.draws
  size := underway.size
  owns := by
    refine ⟨lowP3, userP2, p1s, owns_written owns same, fun i notZero => ?_, fun j notOne => ?_⟩
    · exact (tables_written owns same owns.laid.root_mem i).trans (underway.root i notZero)
    · exact (tables_written owns same owns.laid.lowP3_mem j).trans (underway.low j notOne)
  targets := isTargets
  loaded := loaded
  entryPoint := rfl
  stackTop := rfl
  mappedPages := by
    have := congrArg List.length isTargets
    rwa [List.length_map, safe.length_allTargets] at this
  tableFrames := rfl
  firstUserFrame := rfl

/-- However it ends, `create_process_image` leaves a space of its own or nothing. -/
theorem createPlan_outcome {image : List UInt8} {plan : ImagePlan} (safe : SafePlan image plan)
    (sound : boot.Sound s) (low : Paging.child (tables s.memory boot.p4 0) = some boot.p3)
    {activeCr3 : Nat} (atBoot : boot.Has s activeCr3) {result : Except LoadError ProcessImage}
    (creates : createPlan boot s activeCr3 image plan = (result, s')) :
    match result with
    | .ok process => Built boot s image plan process s'
    | .error _ => Undone s s' (plan.totalPages + 7) := by
  have few := safe.few
  unfold createPlan at creates
  cases call : AddressSpace.create boot s with
  | mk answer s₁ =>
  obtain ⟨apart₁, done⟩ := sound.create low call
  rw [call] at creates
  cases answer with
  | error error =>
      obtain ⟨rfl, rfl⟩ := Prod.mk.inj creates
      exact ⟨apart₁, (sound.create_failed low call).mono (by omega)⟩
  | ok space =>
  obtain ⟨active, lowP3, userP2, created⟩ := done space rfl
  dsimp only at creates
  cases maps : mapUserPages space s₁ plan.allTargets with
  | mk answer after =>
  obtain ⟨space', s₂⟩ := after
  obtain ⟨filling, grows, fewPages, isTargets⟩ :=
    (Filling.of_created created active).calls (fun t mem => (safe.target mem).2.1) maps
  rw [created.pages, List.length_nil, Nat.zero_add, safe.length_allTargets] at fewPages
  obtain ⟨p1s, owns⟩ := filling.owns
  have underway : Underway boot s s₂ space' lowP3 (plan.totalPages + 6) := by
    have room := filling.room
    refine .of_grows apart₁ created grows ?_
    rw [AddressSpace.frames, List.length_append, List.length_map]
    omega
  cases answer with
  | error error =>
      -- the root of the new space is not the one in use
      have other : activeCr3 ≠ space'.rootFrame := by
        rintro rfl
        exact underway.fresh _ (Laid.mem_frames_of_table owns.laid.root_mem) (sound.held _ atBoot)
      have fills : fillSpace space s₁ image plan = (.error error, space', s₂) := by
        unfold fillSpace
        rw [show plan.targets ++ [(userElfStackPage, UserPagePermissions.readWrite)] =
          plan.allTargets from rfl, maps]
      rw [fills] at creates
      obtain ⟨rfl, rfl⟩ := Prod.mk.inj creates
      obtain ⟨taken, draws, perm⟩ := underway.draws
      exact destroy_undone underway.apart filling.active other draws perm underway.fresh
        (Nat.lt_succ_of_le underway.size)
        (by simp only [maxLoadPages, maxRecycledFrames] at *; omega)
  | ok done =>
      have isTargets := isTargets rfl
      rw [created.pages, List.map_nil, List.nil_append] at isTargets
      obtain ⟨m, fills, same, loaded⟩ := filling.fillSpace safe isTargets maps owns
      rw [fills] at creates
      obtain ⟨rfl, rfl⟩ := Prod.mk.inj creates
      exact underway.built safe filling owns isTargets same loaded

/-- How `create_process_image` ends for a file of the initramfs. -/
theorem createProcessImage_outcome {file : Option Slice} {pages : Nat} (sound : boot.Sound s)
    (low : Paging.child (tables s.memory boot.p4 0) = some boot.p3) {activeCr3 : Nat}
    (atBoot : boot.Has s activeCr3) (few : ∀ image ∈ file, ∀ plan,
      validateImage image.bytes = .ok plan → plan.totalPages ≤ pages)
    {result : Except Fault ProcessImage}
    (creates : createProcessImage boot s activeCr3 (file.map Slice.bytes) = (result, s')) :
    match result with
    | .ok process => ∃ image plan, file = some image ∧ validateImage image.bytes = .ok plan ∧
        Built boot s image.bytes plan process s'
    | .error _ => Undone s s' (pages + 7) := by
  cases file with
  | none =>
      obtain ⟨rfl, rfl⟩ := Prod.mk.inj creates
      exact .refl s _
  | some image =>
      unfold createProcessImage at creates
      dsimp only [Option.map_some] at creates
      cases validates : validateImage image.bytes with
      | error fault =>
          rw [validates] at creates
          obtain ⟨rfl, rfl⟩ := Prod.mk.inj creates
          exact .refl s _
      | ok plan =>
          rw [validates] at creates
          dsimp only at creates
          have safe := safePlan_of_ok image validates
          cases call : createPlan boot s activeCr3 image.bytes plan with
          | mk answer s₁ =>
          have outcome := createPlan_outcome safe sound low atBoot call
          rw [call] at creates
          cases answer with
          | error error =>
              obtain ⟨rfl, rfl⟩ := Prod.mk.inj creates
              have few := few image rfl plan validates
              exact ⟨outcome.apart, outcome.restores.mono (by omega)⟩
          | ok process =>
              obtain ⟨rfl, rfl⟩ := Prod.mk.inj creates
              exact ⟨image, plan, rfl, validates, outcome⟩

end CloudOS.Elf
