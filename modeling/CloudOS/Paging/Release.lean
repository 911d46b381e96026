import CloudOS.Paging.Supply

/-!
How many frames come back when an address space is given up.

A freed frame goes to a list with room for 128. What does not fit stays issued for ever,
since the record of the space is gone; the frames of a space that was being built always
fit, because taking them made the room.
-/

namespace CloudOS.Paging

open CloudOS.PhysMem (FrameSource maxRecycledFrames)

variable {source : FrameSource} {s s' s'' : Machine source} {space space' : AddressSpace}

/-- The frame is issued and not freed since. -/
def Machine.Issued (s : Machine source) (frame : Nat) : Prop :=
  source.Outstanding s.frames frame

/-- How many freed frames the list still takes. -/
def Machine.room (s : Machine source) : Nat := maxRecycledFrames - source.recycled s.frames

/-! ### Frames one by one -/

/-- The first frames of the list, as many as there is room for, are free again. -/
structure GivesBack (s : Machine source) (frames : List Nat) (freed : Nat) (done : Bool)
    (s' : Machine source) : Prop where
  count : freed = min frames.length s.room
  complete : done = true ↔ frames.length ≤ s.room
  recycled : source.recycled s'.frames = source.recycled s.frames + freed
  issued : ∀ x, s'.Issued x ↔ s.Issued x ∧ x ∉ frames.take s.room

/-- Frames are given back one by one until the list of freed frames is full. -/
theorem freeAll_givesBack {frames : List Nat} (nodup : frames.Nodup)
    (issued : ∀ x ∈ frames, s.Issued x) :
    GivesBack s frames (AddressSpace.freeAll s frames).1 (AddressSpace.freeAll s frames).2.1
      (AddressSpace.freeAll s frames).2.2 := by
  induction frames generalizing s with
  | nil => exact ⟨(Nat.zero_min _).symm, by simp [AddressSpace.freeAll], rfl, by simp [AddressSpace.freeAll]⟩
  | cons frame rest ih =>
      obtain ⟨isNew, nodup⟩ := List.nodup_cons.mp nodup
      have bounded := source.bounded s.frames
      cases frees : source.freeFrame s.frames frame with
      | mk freed frames =>
      obtain ⟨accepted, recycled⟩ := source.accepts frees
      have step : s.freeFrame frame = (freed, { s with frames }) := by
        rw [Machine.freeFrame, frees]
      have unfolded : AddressSpace.freeAll s (frame :: rest) =
          (if freed then (AddressSpace.freeAll { s with frames } rest).1 + 1
            else (AddressSpace.freeAll { s with frames } rest).1,
            freed && (AddressSpace.freeAll { s with frames } rest).2.1,
            (AddressSpace.freeAll { s with frames } rest).2.2) := by
        rw [AddressSpace.freeAll, step]
      rw [unfolded]
      cases freed with
      | true =>
          have outstanding := source.frees frees
          have fits := (accepted.mp rfl).2
          rw [if_pos rfl] at recycled
          have rest := ih (s := { s with frames }) nodup fun x mem =>
            (outstanding x).mpr ⟨fun same => isNew (same ▸ mem),
              issued x (List.mem_cons_of_mem _ mem)⟩
          have room : s.room = ({ s with frames } : Machine source).room + 1 := by
            simp only [Machine.room, recycled] at *
            omega
          refine ⟨?_, ?_, ?_, fun x => ?_⟩
          · rw [if_pos rfl, rest.count, room, List.length_cons]
            omega
          · rw [Bool.true_and, rest.complete, room, List.length_cons]
            omega
          · rw [if_pos rfl, rest.recycled]
            dsimp only
            omega
          · rw [rest.issued, room, List.take_succ_cons, List.mem_cons, not_or]
            constructor
            · rintro ⟨still, notRest⟩
              obtain ⟨other, old⟩ := (outstanding x).mp still
              exact ⟨old, other, notRest⟩
            · rintro ⟨old, other, notRest⟩
              exact ⟨(outstanding x).mpr ⟨other, old⟩, notRest⟩
      | false =>
          have outstanding := source.refuses frees
          rw [if_neg Bool.false_ne_true] at recycled
          -- the frame was issued, so it was refused for want of room
          have full : s.room = 0 := by
            have refused := mt accepted.mpr Bool.false_ne_true
            rw [not_and, Nat.not_lt] at refused
            have := refused (issued frame List.mem_cons_self)
            simp only [Machine.room]
            omega
          have full' : ({ s with frames } : Machine source).room = 0 := by
            simp only [Machine.room, recycled] at *
            exact full
          have rest := ih (s := { s with frames }) nodup fun x mem =>
            (outstanding x).mpr (issued x (List.mem_cons_of_mem _ mem))
          refine ⟨?_, ?_, ?_, fun x => ?_⟩
          · rw [if_neg Bool.false_ne_true, rest.count, full, full']
            omega
          · rw [Bool.false_and, full, List.length_cons]
            exact iff_of_false Bool.false_ne_true (by omega)
          · rw [if_neg Bool.false_ne_true, rest.recycled]
            exact congrArg (· + _) recycled
          · rw [rest.issued, full, full', List.take_zero, List.take_zero]
            exact and_congr_left fun _ => outstanding x

theorem freeAll_append (s : Machine source) (frames later : List Nat) :
    AddressSpace.freeAll s (frames ++ later) =
      ((AddressSpace.freeAll s frames).1 +
          (AddressSpace.freeAll (AddressSpace.freeAll s frames).2.2 later).1,
        (AddressSpace.freeAll s frames).2.1 &&
          (AddressSpace.freeAll (AddressSpace.freeAll s frames).2.2 later).2.1,
        (AddressSpace.freeAll (AddressSpace.freeAll s frames).2.2 later).2.2) := by
  induction frames generalizing s with
  | nil => simp [AddressSpace.freeAll]
  | cons frame rest ih =>
      rw [List.cons_append, AddressSpace.freeAll, AddressSpace.freeAll]
      generalize s.freeFrame frame = result
      obtain ⟨freed, s₁⟩ := result
      dsimp only
      rw [ih s₁]
      cases freed with
      | true =>
          rw [if_pos rfl, if_pos rfl, Bool.true_and, Bool.true_and]
          exact Prod.ext (Nat.add_right_comm _ _ _) rfl
      | false => rw [if_neg Bool.false_ne_true, if_neg Bool.false_ne_true, Bool.false_and,
          Bool.false_and, Bool.false_and]

/-! ### Destroying a space -/

/-- The order in which `destroy` gives frames back: pages first, then tables. -/
def AddressSpace.freed (space : AddressSpace) : List Nat :=
  space.pages.map UserPage.frame ++ space.tableFrames.reverse

/-- `destroy` frees all frames of the space, in another order. -/
theorem AddressSpace.freed_perm (space : AddressSpace) : space.freed.Perm space.frames := by
  refine (List.Perm.append_left _ (List.reverse_perm _)).trans ?_
  exact List.perm_append_comm

theorem AddressSpace.mem_freed {frame : Nat} : frame ∈ space.freed ↔ frame ∈ space.frames :=
  space.freed_perm.mem_iff

theorem AddressSpace.length_freed (space : AddressSpace) :
    space.freed.length = space.frames.length :=
  space.freed_perm.length_eq

/-- What `destroy` does to a space in use whose frames are issued. -/
structure Destroys (s : Machine source) (space : AddressSpace)
    (result : Except AddressSpaceError CleanupReport) (space' : AddressSpace)
    (s' : Machine source) : Prop where
  emptied : space' = .empty
  report : ∃ report, result = .ok report ∧
    report.userFramesFreed + report.tableFramesFreed = min space.frames.length s.room ∧
    (report.complete = true ↔ space.frames.length ≤ s.room)
  recycled : source.recycled s'.frames =
    source.recycled s.frames + min space.frames.length s.room
  issued : ∀ x, s'.Issued x ↔ s.Issued x ∧ x ∉ space.freed.take s.room

/-- What `destroy` does to an active space that is not in use. -/
theorem destroy_destroys {cr3 : Nat} (active : space.active = true) (other : cr3 ≠ space.rootFrame)
    (nodup : space.frames.Nodup) (issued : ∀ x ∈ space.frames, s.Issued x) :
    Destroys s space (space.destroy s cr3).1 (space.destroy s cr3).2.1
      (space.destroy s cr3).2.2 := by
  have back := freeAll_givesBack (s := s) (space.freed_perm.nodup_iff.mpr nodup)
    fun x mem => issued x (AddressSpace.mem_freed.mp mem)
  rw [AddressSpace.freed, freeAll_append, ← AddressSpace.freed] at back
  unfold AddressSpace.destroy
  rw [active, Bool.not_true, if_neg Bool.false_ne_true, if_neg other]
  obtain ⟨count, complete, recycled, issued'⟩ := back
  rw [AddressSpace.length_freed] at count complete
  refine ⟨rfl, ⟨_, rfl, count, complete⟩, ?_, issued'⟩
  rw [← count]
  exact recycled

/-- All frames are free again. -/
theorem Destroys.all {result : Except AddressSpaceError CleanupReport}
    (destroys : Destroys s space result space' s') (fits : space.frames.length ≤ s.room) (x : Nat) :
    s'.Issued x ↔ s.Issued x ∧ x ∉ space.frames := by
  rw [destroys.issued, List.take_of_length_le (space.length_freed.trans_le fits),
    AddressSpace.mem_freed]

/-! ### Undoing -/

/-- The same frames are issued as before, and if freed ones have piled up, at most `most`. -/
structure Restores (s s' : Machine source) (most : Nat) : Prop where
  issued : ∀ x, s'.Issued x ↔ s.Issued x
  recycled : source.recycled s'.frames ≤ max (source.recycled s.frames) most

theorem Restores.refl (s : Machine source) (most : Nat) : Restores s s most :=
  ⟨fun _ => Iff.rfl, le_max_left _ _⟩

theorem Restores.mono {most more : Nat} (restores : Restores s s' most) (le : most ≤ more) :
    Restores s s' more :=
  ⟨restores.issued, restores.recycled.trans (max_le_max le_rfl le)⟩

/-- Only usable frames are drawn. -/
theorem draws_usable {before after : source.State}
    {taken : List Nat} (draws : source.Draws before taken after) :
    ∀ x ∈ taken, source.Usable x := by
  induction draws with
  | done s => exact fun _ mem => absurd mem List.not_mem_nil
  | take allocates _ ih =>
      exact List.forall_mem_cons.mpr ⟨(source.issues allocates).1, ih⟩
  | miss _ _ ih => exact ih
  | reject _ _ ih => exact ih

/-- What was drawn can be given back whole: drawing it made the room. -/
theorem room_of_draws {taken : List Nat} (draws : source.Draws s.frames taken s'.frames)
    (short : taken.length < maxRecycledFrames) : taken.length ≤ s'.room := by
  have recycled := draws.recycled
  have bounded := source.bounded s.frames
  simp only [Machine.room, maxRecycledFrames] at *
  omega

/-- Frames that were drawn and given back, up to the room there is for them. -/
theorem GivesBack.restores {taken frames : List Nat} {freed : Nat} {done : Bool}
    (draws : source.Draws s.frames taken s'.frames) (perm : frames.Perm taken)
    (short : taken.length < maxRecycledFrames) (back : GivesBack s' frames freed done s'') :
    Restores s s'' (taken.length + 1) := by
  have fits := perm.length_eq.trans_le (room_of_draws draws short)
  refine ⟨fun x => ?_, ?_⟩
  · rw [back.issued, List.take_of_length_le fits, perm.mem_iff, Machine.Issued, draws.outstanding]
    have fresh := draws.fresh.2 x
    constructor
    · rintro ⟨old | isNew, notNew⟩
      · exact old
      · exact absurd isNew notNew
    · exact fun old => ⟨.inl old, fun isNew => fresh isNew old⟩
  · have recycled := draws.recycled
    rw [back.recycled, back.count, perm.length_eq]
    omega

/-! ### How many frames a space takes -/

section Size

variable {lowP3 userP2 : Nat} {p1s : List Nat} {virt : Nat} {permissions : UserPagePermissions}
  {result : Except AddressSpaceError Nat}

/-- Which of the two tables of an image are lacking does not depend on other tables. -/
theorem lackingTables_congr
    (same : ∀ i, tables s'.memory userP2 i = tables s.memory userP2 i) :
    lackingTables s' userP2 = lackingTables s userP2 := by
  refine List.countP_congr fun i _ => ?_
  rw [same]

theorem length_allocateTableFrame (space : AddressSpace) (s : Machine source) :
    (space.allocateTableFrame s).2.1.tableFrames.length ≤ space.tableFrames.length + 1 := by
  unfold AddressSpace.allocateTableFrame
  split
  · exact Nat.le_succ _
  · generalize s.allocateZeroedFrame = answer
    obtain ⟨error | frame, s'⟩ := answer
    · exact Nat.le_succ _
    · exact (List.length_append ..).le

theorem length_setup (boot : BootTables) (s : Machine source) :
    (AddressSpace.setup boot s).2.1.tableFrames.length ≤ 3 := by
  have first := length_allocateTableFrame .empty s
  unfold AddressSpace.setup
  revert first
  generalize AddressSpace.empty.allocateTableFrame s = one
  obtain ⟨error | root, space, s⟩ := one
  · intro first
    exact first.trans (by decide)
  intro first
  have second := length_allocateTableFrame { space with rootFrame := root } s
  dsimp only at first ⊢
  revert second
  generalize ({ space with rootFrame := root } : AddressSpace).allocateTableFrame s = two
  obtain ⟨error | lowP3, space', s⟩ := two
  · intro second
    exact (second.trans (Nat.succ_le_succ first)).trans (by decide)
  intro second
  have third := length_allocateTableFrame space' s
  dsimp only at second ⊢
  have three : (space'.allocateTableFrame s).2.1.tableFrames.length ≤ 3 :=
    (third.trans (Nat.succ_le_succ (second.trans (Nat.succ_le_succ first)))).trans (by decide)
  clear third second first
  revert three
  generalize space'.allocateTableFrame s = last
  obtain ⟨error | userP2, space'', s⟩ := last
  · exact id
  dsimp only
  intro three
  split
  · exact three
  · split
    · exact three
    · split
      · exact three
      · exact three

/-- A space that could not be made takes no frame. -/
theorem BootTables.Sound.create_failed {boot : BootTables} (sound : boot.Sound s)
    (leads : child (tables s.memory boot.p4 0) = some boot.p3) {error : AddressSpaceError}
    (creates : AddressSpace.create boot s = (.error error, s')) : Restores s s' 4 := by
  have short := length_setup boot s
  unfold AddressSpace.create at creates
  split_ifs at creates
  · obtain ⟨-, rfl⟩ := Prod.mk.inj creates
    exact .refl s 4
  · cases sets : AddressSpace.setup boot s with
    | mk answer rest =>
    obtain ⟨space, s₁⟩ := rest
    obtain ⟨building, -, -⟩ := sound.setup leads sets
    rw [sets] at creates short
    cases answer with
    | ok done => cases creates
    | error error =>
        obtain ⟨-, rfl⟩ := Prod.mk.inj creates
        have perm := List.reverse_perm space.tableFrames
        have back := freeAll_givesBack (s := s₁) (perm.nodup_iff.mpr building.nodup) fun x mem =>
          (building.draws.outstanding x).mpr (.inr (List.mem_reverse.mp mem))
        dsimp only at short
        have few : space.tableFrames.length < maxRecycledFrames := by
          simp only [maxRecycledFrames]
          omega
        exact (GivesBack.restores building.draws perm few back).mono (by omega)

/-- Without a new table, one page at most is added. -/
theorem Owns.mapInTable_size (owns : Owns s space lowP3 userP2 p1s) {p1 : Nat} (mem : p1 ∈ p1s)
    (maps : space.mapInTable s p1 virt permissions = (result, space', s')) :
    space'.tableFrames = space.tableFrames ∧ space'.pages.length ≤ space.pages.length + 1 ∧
      lackingTables s' userP2 = lackingTables s userP2 := by
  have laid := owns.laid
  have notUser : p1 ≠ userP2 := (laid.apart.2.2.2 p1 mem).2.2
  have aligned := (laid.isTable (laid.p1_mem mem)).aligned
  unfold AddressSpace.mapInTable at maps
  split_ifs at maps
  · obtain ⟨-, rfl, rfl⟩ : _ ∧ space = space' ∧ s = s' := by simpa using maps
    exact ⟨rfl, Nat.le_succ _, rfl⟩
  · cases allocates : s.allocateZeroedFrame with
    | mk answer s₁ =>
    rw [allocates] at maps
    cases answer with
    | error error =>
        obtain ⟨-, rfl, rfl⟩ : _ ∧ space = space' ∧ s₁ = s' := by simpa using maps
        obtain ⟨outside, -⟩ := Machine.allocateZeroedFrame_error allocates
        exact ⟨rfl, Nat.le_succ _, lackingTables_congr fun i => by rw [outside.memory]⟩
    | ok fresh =>
        obtain ⟨isFrame, -, -, memory, -⟩ := Machine.allocateZeroedFrame_ok allocates
        have isNew := owns.isNew allocates
        obtain ⟨-, rest⟩ := Prod.mk.inj maps
        obtain ⟨rfl, rfl⟩ := Prod.mk.inj rest
        have stored : tables
            (s₁.store p1 (p1Index virt) (fresh ||| permissions.flags)).memory = _ :=
          tables_store aligned (Nat.or_lt_two_pow isFrame.lt_word permissions.isFlags.word)
        refine ⟨rfl, ?_, lackingTables_congr fun i => ?_⟩
        · rw [List.length_append, List.length_singleton]
        · rw [stored, Lib.Radix.set_of_ne fun same => notUser same.1.symm, memory,
            tables_clear isFrame.aligned, Laid.fill_table isNew laid.userP2_mem]

/-- A page of the image region never needs a sixth table. -/
theorem Owns.mapUserPage_size (owns : Owns s space lowP3 userP2 p1s)
    (inRegion : InImageRegion virt)
    (room : space.tableFrames.length + lackingTables s userP2 ≤ 5)
    (maps : space.mapUserPage s virt permissions = (result, space', s')) :
    space'.tableFrames.length + lackingTables s' userP2 ≤ 5 ∧
      space'.pages.length ≤ space.pages.length + 1 := by
  have refused : ∀ {error : AddressSpaceError}, (.error error, space, s) = (result, space', s') →
      space'.tableFrames.length + lackingTables s' userP2 ≤ 5 ∧
        space'.pages.length ≤ space.pages.length + 1 := by
    rintro error ⟨⟩
    exact ⟨room, Nat.le_succ _⟩
  have laid := owns.laid
  have isRoot := laid.isTable laid.root_mem
  have isLow := laid.isTable laid.lowP3_mem
  have isUser := laid.isTable laid.userP2_mem
  have root := laid.entry_root
  have low := laid.entry_low
  obtain ⟨is4, is3, is2⟩ := inRegion.indices
  unfold AddressSpace.mapUserPage at maps
  split_ifs at maps
  · exact refused maps
  · exact refused maps
  · exact refused maps
  · exact refused maps
  · exact refused maps
  · have reads := tables_of_aligned (m := s.memory) isUser.aligned (p2Index virt)
    rw [isRoot.tableFromFrame, is4, is3] at maps
    dsimp only at maps
    rw [root, tableFromEntry_openEntry isLow] at maps
    dsimp only at maps
    rw [low, tableFromEntry_openEntry isUser] at maps
    dsimp only at maps
    rw [← reads] at maps
    rcases laid.branches (p2Index virt) with absent | ⟨p1, mem, links⟩
    · rw [absent, show entryPresent 0 = false from rfl, if_neg Bool.false_ne_true] at maps
      unfold AddressSpace.allocateTableFrame at maps
      split_ifs at maps
      · exact refused maps
      · cases allocates : s.allocateZeroedFrame with
        | mk answer s₁ =>
        rw [allocates] at maps
        cases answer with
        | error error =>
            obtain ⟨outside, -⟩ := Machine.allocateZeroedFrame_error allocates
            obtain ⟨-, rfl, rfl⟩ : _ ∧ space = space' ∧ s₁ = s' := by simpa using maps
            have same : lackingTables s₁ userP2 = lackingTables s userP2 :=
              lackingTables_congr fun i => by rw [outside.memory]
            exact ⟨same.symm ▸ room, Nat.le_succ _⟩
        | ok fresh =>
            obtain ⟨isFrame, -, -, memory, -⟩ := Machine.allocateZeroedFrame_ok allocates
            obtain ⟨-, rootUser, lowUser, -⟩ := laid.apart
            have isNew := owns.isNew allocates
            have laid' := laid.link isFrame isNew absent
            have grows := owns.grows allocates laid.userP2_mem rootUser.symm lowUser.symm
              (openEntry_lt isFrame) laid' (space.frames_addTable fresh)
              (fun frame mem => by simpa [or_comm] using mem) rfl rfl
            dsimp only at maps
            have entryIs : entry (s₁.store userP2 (p2Index virt) (openEntry fresh)).memory userP2
                (p2Index virt) = openEntry fresh :=
              Lib.Store.readU64_writeU64 (openEntry_lt isFrame)
            rw [entryIs, tableFromEntry_openEntry isFrame] at maps
            dsimp only at maps
            have stored : tables (s₁.store userP2 (p2Index virt) (openEntry fresh)).memory = _ :=
              tables_store isUser.aligned (openEntry_lt isFrame)
            -- one table fewer is lacking
            have member : p2Index virt ∈ ([0, 1] : List (Fin 512)) := by
              rcases is2 with zero | one
              · rw [zero]
                decide
              · rw [one]
                decide
            have fewer : lackingTables (s₁.store userP2 (p2Index virt) (openEntry fresh)) userP2 + 1
                ≤ lackingTables s userP2 := by
              refine countP_succ_le (fun i _ lacks => ?_) member ?_ ?_
              · by_cases here : i = p2Index virt
                · rw [here, stored, Lib.Radix.set_self, entryPresent_openEntry] at lacks
                  cases lacks
                · rwa [stored, Lib.Radix.set_of_ne fun same => here same.2, memory,
                    tables_clear isFrame.aligned, Laid.fill_table isNew laid.userP2_mem] at lacks
              · rw [absent]
                rfl
              · rw [stored, Lib.Radix.set_self, entryPresent_openEntry]
                rfl
            obtain ⟨p1s', owns'⟩ := grows.owns
            have leads : child (tables
                (s₁.store userP2 (p2Index virt) (openEntry fresh)).memory userP2
                (p2Index virt)) = some fresh := by
              rw [tables_of_aligned isUser.aligned, entryIs, child_openEntry isFrame]
            obtain ⟨sameTables, onePage, sameLack⟩ :=
              owns'.mapInTable_size (owns'.laid.mem_of_child leads).1 maps
            rw [sameTables, sameLack, List.length_append, List.length_singleton]
            exact ⟨by omega, onePage⟩
    · have isP1 := laid.isTable (laid.p1_mem mem)
      rw [links, entryPresent_openEntry, if_pos rfl, tableFromEntry_openEntry isP1] at maps
      obtain ⟨sameTables, onePage, sameLack⟩ := owns.mapInTable_size mem maps
      rw [sameTables, sameLack]
      exact ⟨room, onePage⟩

end Size

end CloudOS.Paging
