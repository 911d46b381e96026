import CloudOS.Elf.Loaders
import CloudOS.Paging.Reachable

/-!
`load_image` undoes everything when it fails.

While it maps the pages of an image, all of their frames are on trial: the pages that
are mapped so far, the frames they took and the records they have can be removed one by
one, in reverse, until only the tables that were linked on the way are left.
-/

namespace CloudOS.Elf

open CloudOS.PhysMem (BootInfo FrameSource SoundAllocator maxRecycledFrames)
open CloudOS.PhysMem.FrameSource (Borrowed)
open CloudOS.Paging (BootTables Machine UserPage UserPagePermissions MapCall MappedPage Reachable
  Shown Noted Struck IsPage IsFrame Confined tables leaf leaf_of_indices indices pageSize4k
  userElfStackPage)

variable {source : FrameSource} {boot : BootTables} {s₀ s s' : Machine source}
  {kept : List Nat} {pages : List UserPage} {page : UserPage}

/-! ### Records -/

/-- The records are those of `s₀`, but for records of these pages. -/
def RecordsBeside (s₀ s : Machine source) (virts : List Nat) : Prop :=
  ∀ i, s₀.mapper.tracked i = (s.mapper.tracked i).filter fun record => record.virt ∉ virts

theorem RecordsBeside.refl (s : Machine source) : RecordsBeside s s [] := by
  intro i
  cases s.mapper.tracked i <;> rfl

/-- A page that has a record now had none before. -/
theorem RecordsBeside.noted {virts : List Nat} {record : MappedPage}
    (beside : RecordsBeside s₀ s virts) (noted : Noted s record s')
    (untracked : ∀ i page, s.mapper.tracked i = some page → page.virt ≠ record.virt) :
    RecordsBeside s₀ s' (virts ++ [record.virt]) := by
  have same : ∀ i, s₀.mapper.tracked i =
      (s.mapper.tracked i).filter fun page => page.virt ∉ virts ++ [record.virt] := by
    intro i
    rw [beside i]
    cases isTracked : s.mapper.tracked i with
    | none => rfl
    | some page => simp [Option.filter, untracked i page isTracked]
  cases noted with
  | kept i vacant tracked =>
      intro j
      rw [tracked]
      by_cases here : j = i
      · have before := same i
        rw [vacant] at before
        rw [here, before, Function.update_self]
        simp [Option.filter]
      · rw [Function.update_of_ne here]
        exact same j
  | lost tracked =>
      intro j
      rw [tracked]
      exact same j

/-- No other record is dropped with that of a page. -/
theorem RecordsBeside.struck {virts : List Nat} {virt : Nat}
    (beside : RecordsBeside s₀ s (virts ++ [virt])) (shown : Shown boot s)
    (struck : Struck s virt s') : RecordsBeside s₀ s' virts := by
  have other : ∀ i, (∀ page, s.mapper.tracked i = some page → page.virt ≠ virt) →
      s₀.mapper.tracked i = (s.mapper.tracked i).filter fun page => page.virt ∉ virts := by
    intro i different
    rw [beside i]
    cases isTracked : s.mapper.tracked i with
    | none => rfl
    | some page => simp [Option.filter, different page isTracked]
  cases struck with
  | dropped i removed isRemoved isVirt tracked =>
      intro j
      rw [tracked]
      by_cases here : j = i
      · rw [here, beside i, isRemoved, Function.update_self]
        simp [Option.filter, isVirt]
      · rw [Function.update_of_ne here]
        refine other j fun page isTracked same => here ?_
        exact shown.once j i page removed isTracked isRemoved (same.trans isVirt.symm)
  | missed none_ tracked =>
      intro j
      rw [tracked]
      exact other j (none_ j)

/-! ### Pages on trial -/

/-- Since `s₀`, only these pages were mapped, and only the frames in `kept` became tables. -/
structure Trial (boot : BootTables) (s₀ s : Machine source) (kept : List Nat)
    (pages : List UserPage) : Prop where
  start : boot.Sound s₀
  sound : boot.Sound s
  shown : Shown boot s
  borrowed : Borrowed source s₀.frames s.frames kept (pages.map UserPage.frame)
  has : ∀ f, boot.Has s f ↔ boot.Has s₀ f ∨ f ∈ kept
  isPage : ∀ page ∈ pages, IsPage page.virt
  isFrame : ∀ page ∈ pages, IsFrame page.frame
  distinct : (pages.map UserPage.virt).Nodup
  mapped : ∀ page ∈ pages, leaf (tables s.memory) boot.p4 page.virt =
    some ⟨false, page.frame ||| page.permissions.flags⟩
  vacant : ∀ page ∈ pages, leaf (tables s₀.memory) boot.p4 page.virt = none
  elsewhere : ∀ w, (∀ page ∈ pages, indices w ≠ indices page.virt) →
    leaf (tables s.memory) boot.p4 w = leaf (tables s₀.memory) boot.p4 w
  records : RecordsBeside s₀ s (pages.map UserPage.virt)

theorem Trial.refl (sound : boot.Sound s) (shown : Shown boot s) : Trial boot s s [] [] where
  start := sound
  sound := sound
  shown := shown
  borrowed := .refl s.frames
  has := fun f => by simp
  isPage := fun _ mem => absurd mem List.not_mem_nil
  isFrame := fun _ mem => absurd mem List.not_mem_nil
  distinct := List.nodup_nil
  mapped := fun _ mem => absurd mem List.not_mem_nil
  vacant := fun _ mem => absurd mem List.not_mem_nil
  elsewhere := fun _ _ => rfl
  records := .refl s

namespace Trial

/-- A page can be mapped only where none was mapped before. -/
theorem vacant_of_vacant (trial : Trial boot s₀ s kept pages) {virt : Nat}
    (vacant : leaf (tables s.memory) boot.p4 virt = none) :
    (∀ page ∈ pages, indices virt ≠ indices page.virt) ∧
      leaf (tables s₀.memory) boot.p4 virt = none := by
  have isNew : ∀ page ∈ pages, indices virt ≠ indices page.virt := by
    intro page mem same
    rw [leaf_of_indices same, trial.mapped page mem] at vacant
    cases vacant
  exact ⟨isNew, (trial.elsewhere virt isNew).symm.trans vacant⟩

/-- A frame on trial is no table. -/
theorem noTable (trial : Trial boot s₀ s kept pages) (mem : page ∈ pages) :
    ¬ boot.Has s page.frame := by
  have onTrial : page.frame ∈ pages.map UserPage.frame := List.mem_map_of_mem mem
  rw [trial.has]
  rintro (old | isKept)
  · obtain ⟨usable, isFresh⟩ := trial.borrowed.fresh page.frame (.inr onTrial)
    exact isFresh (trial.start.held page.frame old usable)
  · exact (List.nodup_append.mp trial.borrowed.nodup).2.2 _ isKept _ onTrial rfl

variable {virt : Nat} {permissions : UserPagePermissions}

/-- One more page goes on trial, or a failed attempt leaves some tables. -/
theorem map (trial : Trial boot s₀ s kept pages) (few : pages.length + 1 < maxRecycledFrames)
    {result : Except Paging.MapError Nat}
    (maps : s.mapNewUserPage boot virt permissions = (result, s')) :
    ∃ kept', match result with
      | .ok frame => Trial boot s₀ s' kept' (pages ++ [⟨frame, virt, permissions⟩])
      | .error _ => Trial boot s₀ s' kept' pages := by
  have effect := Paging.run_effect trial.sound (.mapNewUserPage virt permissions)
  have tracks := Paging.run_tracks trial.sound (.mapNewUserPage virt permissions)
  rw [MapCall.run, maps] at effect tracks
  obtain ⟨taken, borrowed, has⟩ := trial.sound.mapNewPageWithFlags_borrowed permissions.isFlags
    trial.borrowed (by rwa [List.length_map]) maps
  have hasAll : ∀ f, boot.Has s' f ↔ boot.Has s₀ f ∨ f ∈ kept ++ taken := by
    intro f
    rw [has, trial.has, List.mem_append, or_assoc]
  refine ⟨kept ++ taken, ?_⟩
  cases result with
  | error error =>
      have same : boot.SameLeaves s s' := effect.failed (by simp) (by simp)
      have tracked := (tracks.failed (by simp) (by simp)).tracked
      rw [show (Except.error error : Except Paging.MapError Nat).toOption.toList = [] from rfl,
        List.append_nil] at borrowed
      exact { trial with
        sound := effect.sound
        shown := trial.shown.congr same tracked
        borrowed := borrowed
        has := hasAll
        mapped := fun page mem => (same page.virt).trans (trial.mapped page mem)
        elsewhere := fun w other => (same w).trans (trial.elsewhere w other)
        records := fun i => by
          rw [tracked]
          exact trial.records i }
  | ok frame =>
      obtain ⟨-, admissible, replaces⟩ := effect.mapped frame rfl
      have isPage : IsPage virt :=
        Paging.isPage_of_mappable admissible.virtAligned admissible.inRange
      obtain ⟨isNew, vacant⟩ := trial.vacant_of_vacant replaces.before
      have untracked := trial.shown.untracked replaces.before
      refine
        { start := trial.start
          sound := effect.sound
          shown := trial.shown.map effect tracks
          borrowed := by
            rw [List.map_append]
            exact borrowed
          has := hasAll
          isPage := ?_
          isFrame := ?_
          distinct := ?_
          mapped := ?_
          vacant := ?_
          elsewhere := ?_
          records := by
            rw [List.map_append]
            exact trial.records.noted (tracks.noted untracked) untracked }
      · rw [List.forall_mem_append]
        exact ⟨trial.isPage, List.forall_mem_singleton.mpr isPage⟩
      · rw [List.forall_mem_append]
        exact ⟨trial.isFrame, List.forall_mem_singleton.mpr admissible.isFrame⟩
      · rw [List.map_append, List.nodup_append]
        refine ⟨trial.distinct, List.nodup_singleton _, ?_⟩
        intro other mem virt' isVirt same
        obtain ⟨page, memP, rfl⟩ := List.mem_map.mp mem
        rw [List.mem_singleton.mp isVirt] at same
        exact isNew page memP (congrArg indices same.symm)
      · rw [List.forall_mem_append]
        refine ⟨fun page mem => ?_, List.forall_mem_singleton.mpr replaces.after⟩
        rw [replaces.elsewhere page.virt (isNew page mem).symm]
        exact trial.mapped page mem
      · rw [List.forall_mem_append]
        exact ⟨trial.vacant, List.forall_mem_singleton.mpr vacant⟩
      · intro w other
        rw [List.forall_mem_append, List.forall_mem_singleton] at other
        rw [replaces.elsewhere w other.2]
        exact trial.elsewhere w other.1

/-- The page that was mapped last is unmapped, and its frame is accepted back. -/
theorem undo (trial : Trial boot s₀ s kept (pages ++ [page])) :
    ∃ s₁, s.unmapPage boot page.virt = (.ok page.frame, s₁) ∧
      (s₁.freeFrame page.frame).1 = true ∧
      Trial boot s₀ (s₁.freeFrame page.frame).2 kept pages := by
  have last : page ∈ pages ++ [page] := by simp
  have old : ∀ {other}, other ∈ pages → other ∈ pages ++ [page] := List.mem_append_left _
  have isPage := trial.isPage page last
  obtain ⟨s₁, unmaps, frames, has⟩ := trial.sound.unmapPage_of_leaf isPage.aligned isPage.inRange
    (trial.mapped page last)
  rw [(trial.isFrame page last).entryAddr_or page.permissions.isFlags.bare] at unmaps
  have effect := Paging.run_effect trial.sound (.unmapPage page.virt)
  have tracks := Paging.run_tracks trial.sound (.unmapPage page.virt)
  rw [MapCall.run, unmaps] at effect tracks
  obtain ⟨-, e, -, replaces⟩ := effect.removed page.frame rfl
  have borrowed := trial.borrowed
  rw [List.map_append, ← frames] at borrowed
  obtain ⟨freed, returned⟩ := Borrowed.giveBack borrowed
  have hasNot : ¬ boot.Has s₁ page.frame := by
    rw [has]
    exact trial.noTable last
  have distinct := trial.distinct
  rw [List.map_append, List.nodup_append] at distinct
  have beside := trial.records
  rw [List.map_append] at beside
  have records : RecordsBeside s₀ s₁ (pages.map UserPage.virt) :=
    beside.struck trial.shown tracks.struck
  have apart : ∀ other ∈ pages, indices other.virt ≠ indices page.virt := by
    intro other mem same
    refine distinct.2.2 _ (List.mem_map_of_mem mem) _ (List.mem_singleton_self _) ?_
    exact isPage.eq_of_indices (trial.isPage other (old mem)) same
  refine ⟨s₁, unmaps, freed,
    { start := trial.start
      sound := effect.sound.free hasNot
      shown := (trial.shown.remove effect tracks).congr (fun _ => rfl) rfl
      borrowed := returned
      has := fun f => (has f).trans (trial.has f)
      isPage := fun other mem => trial.isPage other (old mem)
      isFrame := fun other mem => trial.isFrame other (old mem)
      distinct := distinct.1
      mapped := fun other mem => ?_
      vacant := fun other mem => trial.vacant other (old mem)
      elsewhere := fun w other => ?_
      records := records }⟩
  · exact (replaces.elsewhere other.virt (apart other mem)).trans (trial.mapped other (old mem))
  · by_cases here : indices w = indices page.virt
    · rw [leaf_of_indices here, leaf_of_indices here, trial.vacant page last]
      exact replaces.after
    · refine (replaces.elsewhere w here).trans (trial.elsewhere w ?_)
      rw [List.forall_mem_append, List.forall_mem_singleton]
      exact ⟨other, here⟩

/-- The walk backwards through the pages. -/
theorem rollback (trial : Trial boot s₀ s kept pages) :
    Trial boot s₀ (rollbackMappings boot s (pages.map UserPage.virt)) kept [] := by
  induction pages using List.reverseRecOn generalizing s with
  | nil => exact trial
  | append_singleton pages page ih =>
      obtain ⟨s₁, unmaps, -, rest⟩ := trial.undo
      have again := ih rest
      unfold rollbackMappings at again ⊢
      rw [List.map_append, List.map_singleton, List.reverse_append, List.reverse_singleton,
        List.singleton_append, List.foldl_cons, unmaps]
      exact again

end Trial

/-! ### The loops -/

/-- Every page that was mapped before an error is in the list that rollback goes through. -/
theorem mapTargets_trial (targets : List (Nat × UserPagePermissions)) (mapped : Mapped)
    (trial : Trial boot s₀ s kept pages) (isPages : mapped.pages = pages.map UserPage.virt)
    (few : pages.length + targets.length < maxRecycledFrames)
    {result : Except LoadError Mapped}
    (maps : mapTargets boot targets mapped s = (result, s')) :
    ∃ kept', match result with
      | .ok mapped' => ∃ pages', Trial boot s₀ s' kept' pages' ∧
          mapped'.pages = pages'.map UserPage.virt ∧
          pages'.map (fun page => (page.virt, page.permissions)) =
            pages.map (fun page => (page.virt, page.permissions)) ++ targets
      | .error _ => Trial boot s₀ s' kept' [] := by
  induction targets generalizing s kept pages mapped with
  | nil =>
      obtain ⟨rfl, rfl⟩ := Prod.mk.inj maps
      exact ⟨kept, pages, trial, isPages, (List.append_nil _).symm⟩
  | cons target rest ih =>
      obtain ⟨virt, permissions⟩ := target
      rw [List.length_cons] at few
      unfold mapTargets at maps
      split at maps
      · obtain ⟨rfl, rfl⟩ := Prod.mk.inj maps
        rw [isPages]
        exact ⟨kept, trial.rollback⟩
      · cases step : s.mapNewUserPage boot virt permissions with
        | mk result₁ s₁ =>
        obtain ⟨kept₁, after⟩ := trial.map (by omega) step
        rw [step] at maps
        cases result₁ with
        | error error =>
            obtain ⟨rfl, rfl⟩ := Prod.mk.inj maps
            rw [isPages]
            exact ⟨kept₁, after.rollback⟩
        | ok frame =>
            obtain ⟨kept', ends⟩ := ih _ after (by simp [isPages]) (by simp; omega) maps
            refine ⟨kept', ?_⟩
            cases result with
            | error error => exact ends
            | ok mapped' =>
                obtain ⟨pages', trial', isPages', isTargets⟩ := ends
                refine ⟨pages', trial', isPages', ?_⟩
                rw [isTargets, List.map_append, List.append_assoc]
                rfl

theorem mapStack_trial (mapped : Mapped) (trial : Trial boot s₀ s kept pages)
    (isPages : mapped.pages = pages.map UserPage.virt)
    (few : pages.length + 1 < maxRecycledFrames) {result : Except LoadError Mapped}
    (maps : mapStack boot mapped s = (result, s')) :
    ∃ kept', match result with
      | .ok _ => ∃ frame,
          Trial boot s₀ s' kept' (pages ++ [⟨frame, userElfStackPage, .readWrite⟩])
      | .error _ => Trial boot s₀ s' kept' [] := by
  unfold mapStack at maps
  split at maps
  · obtain ⟨rfl, rfl⟩ := Prod.mk.inj maps
    rw [isPages]
    exact ⟨kept, trial.rollback⟩
  · cases step : s.mapNewUserPage boot userElfStackPage .readWrite with
    | mk result₁ s₁ =>
    obtain ⟨kept₁, after⟩ := trial.map few step
    rw [step] at maps
    cases result₁ with
    | error error =>
        obtain ⟨rfl, rfl⟩ := Prod.mk.inj maps
        rw [isPages]
        exact ⟨kept₁, after.rollback⟩
    | ok frame =>
        obtain ⟨rfl, rfl⟩ := Prod.mk.inj maps
        exact ⟨kept₁, frame, after⟩

/-! ### The copies -/

namespace Trial

theorem backing (trial : Trial boot s₀ s kept pages) : Backing pages where
  isFrame := trial.isFrame
  aligned := fun page mem => (trial.isPage page mem).aligned
  frames := (List.nodup_append.mp trial.borrowed.nodup).2.1
  virts := trial.distinct

/-- Whatever is written into the pages, the tables still show them. -/
theorem shows (trial : Trial boot s₀ s kept pages) :
    Shows trial.backing.map (Paging.translate boot) s.memory := by
  intro m same a x isPhys
  obtain ⟨page, found, rfl⟩ := trial.backing.pageFor_of_phys isPhys
  obtain ⟨mem, number⟩ := Backing.mem_of_pageFor found
  obtain ⟨sound', -, leaves, -⟩ := trial.sound.confined (trial.backing.confined same) (by
    rintro frame has ⟨page, mem, rfl⟩
    exact trial.noTable mem has)
  have here : indices a = indices page.virt := by
    rw [Paging.indices_eq_iff]
    simp only [pageSize4k] at number
    omega
  have shown : leaf (tables m) boot.p4 a = _ :=
    ((leaves a).trans (leaf_of_indices here)).trans (trial.mapped page mem)
  have sheltered : Paging.Sheltered (tables m) boot.p4 := sound'.sheltered
  have result : Paging.translate boot m a = page.result a := by
    rw [sheltered.translate, shown]
    exact page.result_eq (trial.isFrame page mem) a
  rw [result]
  exact ⟨rfl, rfl, rfl⟩

end Trial

/-- After an error, nothing is on trial any more. -/
theorem loadPlan_trial {image : List UInt8} {plan : ImagePlan} (safe : SafePlan image plan)
    (sound : boot.Sound s) (shown : Shown boot s) {error : LoadError}
    (fails : loadPlan boot s image plan = (.error error, s')) :
    ∃ kept, Trial boot s s' kept [] := by
  have few := safe.few
  have length := safe.length_targets
  have fewTargets : ([] : List UserPage).length + plan.targets.length < maxRecycledFrames := by
    simp only [List.length_nil, maxLoadPages, maxRecycledFrames] at *
    omega
  unfold loadPlan at fails
  cases maps : mapTargets boot plan.targets ⟨[], 0, 0⟩ s with
  | mk result₁ s₁ =>
  obtain ⟨kept₁, ends₁⟩ := mapTargets_trial plan.targets _ (.refl sound shown) rfl fewTargets maps
  rw [maps] at fails
  cases result₁ with
  | error error =>
      obtain ⟨-, rfl⟩ := Prod.mk.inj fails
      exact ⟨kept₁, ends₁⟩
  | ok mapped₁ =>
  obtain ⟨pages, trial₁, isPages, isTargets⟩ := ends₁
  have count := congrArg List.length isTargets
  rw [List.map_nil, List.nil_append, List.length_map] at count
  dsimp only at fails
  cases maps₂ : mapStack boot mapped₁ s₁ with
  | mk result₂ s₂ =>
  obtain ⟨kept₂, ends₂⟩ := mapStack_trial mapped₁ trial₁ isPages (by
    simp only [maxLoadPages, maxRecycledFrames] at *
    omega) maps₂
  rw [maps₂] at fails
  cases result₂ with
  | error error =>
      obtain ⟨-, rfl⟩ := Prod.mk.inj fails
      exact ⟨kept₂, ends₂⟩
  | ok mapped₂ =>
      obtain ⟨frame, trial₂⟩ := ends₂
      -- the copies succeed
      obtain ⟨m, copies, -⟩ := trial₂.backing.copies safe
        (by rw [List.map_append, isTargets]; rfl)
        (fun s m => (rfl : copySegment boot image s m = _)) trial₂.shows
      dsimp only at fails
      rw [copies] at fails
      cases fails

/-- Whatever the error, only tables are kept. -/
theorem loadImage_trial (image : Slice) (sound : boot.Sound s) (shown : Shown boot s)
    {fault : Fault} (fails : loadImage boot s image.bytes = (.error fault, s')) :
    ∃ kept, Trial boot s s' kept [] := by
  unfold loadImage at fails
  cases accepted : validateImage image.bytes with
  | error fault =>
      rw [accepted] at fails
      obtain ⟨-, rfl⟩ := Prod.mk.inj fails
      exact ⟨[], .refl sound shown⟩
  | ok plan =>
      rw [accepted] at fails
      dsimp only at fails
      cases loads : loadPlan boot s image.bytes plan with
      | mk result s₁ =>
      rw [loads] at fails
      cases result with
      | ok loaded => cases fails
      | error error =>
          obtain ⟨-, rfl⟩ := Prod.mk.inj fails
          exact loadPlan_trial (safePlan_of_ok image accepted) sound shown loads

/-! ### What is left -/

namespace Trial

theorem translate_eq (trial : Trial boot s₀ s kept []) (virt : Nat) :
    Paging.translate boot s.memory virt = Paging.translate boot s₀.memory virt := by
  rw [trial.sound.sheltered.translate, trial.start.sheltered.translate,
    trial.elsewhere virt fun _ mem => absurd mem List.not_mem_nil]

theorem tracked_eq (trial : Trial boot s₀ s kept []) : s.mapper.tracked = s₀.mapper.tracked := by
  funext i
  rw [trial.records i]
  cases s.mapper.tracked i <;> rfl

/-- The frames that were kept are those of the tables that are new. -/
theorem mem_kept (trial : Trial boot s₀ s kept pages) (frame : Nat) :
    frame ∈ kept ↔ boot.Has s frame ∧ ¬ boot.Has s₀ frame := by
  rw [trial.has]
  constructor
  · intro isKept
    refine ⟨.inr isKept, fun old => ?_⟩
    obtain ⟨usable, isFresh⟩ := trial.borrowed.fresh frame (.inl isKept)
    exact isFresh (trial.start.held frame old usable)
  · rintro ⟨either, isNew⟩
    exact either.resolve_left isNew

end Trial

/-- If `load_image` fails, every address is translated as before, the records are the
same, and the frames that are allocated besides the old ones are those of the tables that
were linked. The allocator is a `SoundAllocator`, so the regions of the memory map do not
overlap. -/
theorem load_image_rolls_back {info : BootInfo} (boot : BootTables)
    (reserved : boot.Reserved (SoundAllocator.source info))
    {s₀ s s' : Machine (SoundAllocator.source info)} (reachable : Reachable boot s₀ s)
    (image : Slice) {fault : Fault}
    (fails : loadImage boot s image.bytes = (.error fault, s')) :
    (∀ virt, Paging.translate boot s'.memory virt = Paging.translate boot s.memory virt) ∧
    s'.mapper.tracked = s.mapper.tracked ∧
    ∃ linked : Finset Nat, (∀ frame, frame ∈ linked ↔ boot.Has s' frame ∧ ¬ boot.Has s frame) ∧
      s'.frames.1.outstanding = s.frames.1.outstanding ∪ linked ∧
      s'.frames.1.allocatedFrames = s.frames.1.allocatedFrames + linked.card := by
  obtain ⟨sound, shown⟩ := reachable.sound_shown reserved
  obtain ⟨kept, trial⟩ := loadImage_trial image sound shown fails
  have isOutstanding : s'.frames.1.outstanding = s.frames.1.outstanding ∪ kept.toFinset := by
    ext frame
    have iff := trial.borrowed.outstanding frame
    rw [List.map_nil] at iff
    rw [Finset.mem_union, List.mem_toFinset]
    exact iff.trans (or_congr Iff.rfl (or_iff_left List.not_mem_nil))
  have apart : Disjoint s.frames.1.outstanding kept.toFinset := by
    rw [Finset.disjoint_right]
    intro frame isKept
    exact (trial.borrowed.fresh frame (.inl (List.mem_toFinset.mp isKept))).2
  refine ⟨trial.translate_eq, trial.tracked_eq, kept.toFinset, fun frame => ?_, isOutstanding, ?_⟩
  · rw [List.mem_toFinset]
    exact trial.mem_kept frame
  · rw [← s'.frames.2.1.card_outstanding, ← s.frames.2.1.card_outstanding, isOutstanding,
      Finset.card_union_of_disjoint apart]

/-- With four frames there is none left for the stack; two of them became tables. -/
theorem load_image_rolls_back_fourFrames :
    let s := Paging.imageTables.launch Paging.smallMachine
    let s' := (loadImage Paging.imageTables s smallImage.bytes).2
    (loadImage Paging.imageTables s smallImage.bytes).1 =
      .error (.load (.stackMappingFailed .outOfFrames)) ∧
    (∀ virt, Paging.translate Paging.imageTables s'.memory virt =
      Paging.translate Paging.imageTables s.memory virt) ∧
    s'.mapper.tracked = s.mapper.tracked ∧
    ∃ linked : Finset Nat, linked.card = 2 ∧ ∀ frame, frame ∈ linked ↔
      Paging.imageTables.Has s' frame ∧ ¬ Paging.imageTables.Has s frame := by
  intro s s'
  have fails : (loadImage Paging.imageTables s smallImage.bytes).1 =
      .error (.load (.stackMappingFailed .outOfFrames)) := by decide +kernel
  have loads : loadImage Paging.imageTables s smallImage.bytes =
      (.error (.load (.stackMappingFailed .outOfFrames)), s') := by
    rw [← fails]
  obtain ⟨same, tracked, linked, isLinked, -, allocated⟩ :=
    load_image_rolls_back Paging.imageTables Paging.imageTables_reserved .launch smallImage loads
  have before : s.frames.1.allocatedFrames = 0 := by decide +kernel
  have after : s'.frames.1.allocatedFrames = 2 := by decide +kernel
  refine ⟨fails, same, tracked, linked, ?_, isLinked⟩
  rw [before, after, Nat.zero_add] at allocated
  exact allocated.symm

end CloudOS.Elf
