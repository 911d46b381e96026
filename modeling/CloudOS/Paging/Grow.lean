import CloudOS.Paging.Layout

/-!
What the operations of an address space do to its tables, and to the frames of
others.
-/

namespace CloudOS.Paging

open Lib.Radix (set fill)
open CloudOS.PhysMem (FrameSource)

variable {source : FrameSource} {s s' s'' : Machine source}
  {space space' space'' : AddressSpace} {lowP3 userP2 : Nat} {p1s : List Nat}

/-- The space is laid out in frames that are its own. -/
structure Owns (s : Machine source) (space : AddressSpace) (lowP3 userP2 : Nat) (p1s : List Nat) :
    Prop where
  laid : Laid (tables s.memory) space lowP3 userP2 p1s
  held : ∀ frame ∈ space.frames, s.Held frame

/-- A space got new tables or pages from frames that were available. -/
structure Grows (lowP3 userP2 : Nat) (s : Machine source) (space : AddressSpace)
    (s' : Machine source) (space' : AddressSpace) : Prop where
  owns : ∃ p1s, Owns s' space' lowP3 userP2 p1s
  confinedTables : Confined (· ∈ space.tableFrames) s s'
  freshTables : ∀ frame ∈ space'.tableFrames, frame ∈ space.tableFrames ∨ ¬ s.Held frame
  fresh : ∀ frame ∈ space'.frames, frame ∈ space.frames ∨ ¬ s.Held frame
  keeps : ∀ frame ∈ space.frames, frame ∈ space'.frames
  draws : ∃ new, source.Draws s.frames new s'.frames ∧ space'.frames.Perm (space.frames ++ new)
  upper : ∀ i, tables s'.memory space.rootFrame i = tables s.memory space.rootFrame i ∧
    tables s'.memory lowP3 i = tables s.memory lowP3 i
  rootFrame : space'.rootFrame = space.rootFrame
  active : space'.active = space.active

namespace Grows

theorem refl (owns : Owns s space lowP3 userP2 p1s) : Grows lowP3 userP2 s space s space :=
  ⟨⟨p1s, owns⟩, .refl _ s, fun _ mem => .inl mem, fun _ mem => .inl mem, fun _ mem => mem,
    ⟨[], .done _, by rw [List.append_nil]⟩, fun _ => ⟨rfl, rfl⟩, rfl, rfl⟩

/-- A space grows in its own frames and new ones. -/
theorem confined (grows : Grows lowP3 userP2 s space s' space') :
    Confined (· ∈ space.frames) s s' :=
  grows.confinedTables.mono fun _ mem => Laid.mem_frames_of_table mem

theorem trans (before : Grows lowP3 userP2 s space s' space')
    (after : Grows lowP3 userP2 s' space' s'' space'') : Grows lowP3 userP2 s space s'' space'' := by
  have earlier := before.confinedTables
  have later := after.confinedTables
  have notNew : ∀ {x}, s.Held x → x ∉ space.tableFrames → x ∉ space'.tableFrames := by
    intro x held other mem
    rcases before.freshTables x mem with mem | notHeld
    · exact other mem
    · exact notHeld held
  refine ⟨after.owns, ⟨?_, ?_, ?_⟩, ?_, ?_,
    fun frame mem => after.keeps frame (before.keeps frame mem), ?_, ?_,
    after.rootFrame.trans before.rootFrame, after.active.trans before.active⟩
  · intro x held other
    exact later.held x (earlier.held x held other) (notNew held other)
  · intro frame a aligned held other from_ below
    rw [later.untouched frame a aligned (earlier.held frame held other) (notNew held other) from_
      below]
    exact earlier.untouched frame a aligned held other from_ below
  · exact later.initialized.trans earlier.initialized
  · intro frame mem
    rcases after.freshTables frame mem with mem | notHeld
    · exact before.freshTables frame mem
    · by_cases mine : frame ∈ space.tableFrames
      · exact .inl mine
      · exact .inr fun held => notHeld (earlier.held frame held mine)
  · intro frame mem
    rcases after.fresh frame mem with mem | notHeld
    · exact before.fresh frame mem
    · by_cases mine : frame ∈ space.frames
      · exact .inl mine
      · exact .inr fun held => notHeld (before.confined.held frame held mine)
  · obtain ⟨new, draws, perm⟩ := before.draws
    obtain ⟨new', draws', perm'⟩ := after.draws
    refine ⟨new ++ new', draws.trans draws', perm'.trans ?_⟩
    rw [← List.append_assoc]
    exact perm.append_right new'
  · intro i
    have upper := after.upper i
    rw [before.rootFrame] at upper
    exact ⟨upper.1.trans (before.upper i).1, upper.2.trans (before.upper i).2⟩

/-- A failed allocation shows nowhere. -/
theorem of_sameOutside (owns : Owns s space lowP3 userP2 p1s) (same : Machine.SameOutside s s')
    (held : ∀ x, s.Held x → s'.Held x) (draws : source.Draws s.frames [] s'.frames) :
    Grows lowP3 userP2 s space s' space := by
  refine ⟨⟨p1s, ?_, fun frame mem => held frame (owns.held frame mem)⟩, .of_sameOutside same held,
    fun _ mem => .inl mem, fun _ mem => .inl mem, fun _ mem => mem,
    ⟨[], draws, by rw [List.append_nil]⟩, fun i => ?_, rfl, rfl⟩
  · rw [same.memory]
    exact owns.laid
  · rw [same.memory]
    exact ⟨rfl, rfl⟩

end Grows

section NewFrame

variable {fresh : Nat} (owns : Owns s space lowP3 userP2 p1s)
  (allocates : s.allocateZeroedFrame = (.ok fresh, s'))

include owns allocates

/-- A frame that was free is none of the space. -/
theorem Owns.isNew : fresh ∉ space.frames := by
  obtain ⟨-, isFresh, -⟩ := Machine.allocateZeroedFrame_ok allocates
  exact fun mem => isFresh (owns.held fresh mem)

/-- A new frame is cleared and one entry of a table of pages is set. -/
theorem Owns.grows {table value : Nat} {i : Fin 512} (isTable : table ∈ space.tableFrames)
    (notRoot : table ≠ space.rootFrame) (notLow : table ≠ lowP3) (word : value < 2 ^ 64)
    {p1s' : List Nat} (laid : Laid (set (fill (tables s.memory) fresh 0) table i value) space' lowP3
      userP2 p1s') (frames : space'.frames.Perm (fresh :: space.frames))
    (tableFrames : ∀ frame ∈ space'.tableFrames, frame = fresh ∨ frame ∈ space.tableFrames)
    (rootFrame : space'.rootFrame = space.rootFrame) (active : space'.active = space.active) :
    Grows lowP3 userP2 s space (s'.store table i value) space' := by
  obtain ⟨isFrame, isFresh, held, memory, initialized⟩ := Machine.allocateZeroedFrame_ok allocates
  have aligned := (owns.laid.isTable isTable).aligned
  have isNew := owns.isNew allocates
  have stored : tables (s'.store table i value).memory =
      set (fill (tables s.memory) fresh 0) table i value := by
    refine (tables_store aligned word).trans ?_
    rw [memory, tables_clear isFrame.aligned]
  have sameTable : ∀ {frame : Nat}, frame ∈ space.tableFrames → frame ≠ table → ∀ j,
      tables (s'.store table i value).memory frame j = tables s.memory frame j := by
    intro frame mem other j
    rw [stored, Lib.Radix.set_of_ne fun same => other same.1, Laid.fill_table isNew mem]
  have frames_cases : ∀ frame ∈ space'.frames, frame = fresh ∨ frame ∈ space.frames :=
    fun frame mem => List.mem_cons.mp (frames.mem_iff.mp mem)
  refine ⟨⟨p1s', ?_, ?_⟩, ?_, ?_, ?_,
    fun frame mem => frames.mem_iff.mpr (List.mem_cons_of_mem _ mem),
    ⟨[fresh], Machine.allocateZeroedFrame_draws allocates, ?_⟩, ?_, rootFrame, active⟩
  · rw [stored]
    exact laid
  · intro frame mem
    exact (held frame).mpr ((frames_cases frame mem).imp_right (owns.held frame))
  · exact (Confined.of_cleared isFrame isFresh held memory initialized).trans
      (.store s' isTable aligned i value)
  · intro frame mem
    rcases tableFrames frame mem with rfl | mem
    · exact .inr isFresh
    · exact .inl mem
  · intro frame mem
    rcases frames_cases frame mem with rfl | mem
    · exact .inr isFresh
    · exact .inl mem
  · exact frames.trans (List.perm_append_singleton fresh space.frames).symm
  · intro j
    exact ⟨sameTable owns.laid.root_mem notRoot.symm j,
      sameTable owns.laid.lowP3_mem notLow.symm j⟩

end NewFrame

/-! ### Mapping a page -/

/-- What `map_user_page` did. -/
structure MapsPage (virt : Nat) (permissions : UserPagePermissions) (lowP3 userP2 : Nat)
    (s : Machine source) (space : AddressSpace) (result : Except AddressSpaceError Nat)
    (space' : AddressSpace) (s' : Machine source) : Prop where
  grows : Grows lowP3 userP2 s space s' space'
  failed : ∀ error, result = .error error → space'.pages = space.pages
  done : ∀ frame, result = .ok frame →
    space'.pages = space.pages ++ [⟨frame, virt, permissions⟩] ∧ ¬ s.Held frame ∧
      space.pageAt virt = none ∧ ∀ a, frame ≤ a → a < frame + pageSize4k → s'.memory a = 0

section MapsPage

variable {virt : Nat} {permissions : UserPagePermissions} {result : Except AddressSpaceError Nat}

/-- A call that fails its checks changes nothing. -/
theorem MapsPage.refuse {error : AddressSpaceError} (owns : Owns s space lowP3 userP2 p1s) :
    MapsPage virt permissions lowP3 userP2 s space (.error error) space s :=
  ⟨.refl owns, fun _ _ => rfl, fun _ ok => by cases ok⟩

/-- A table that was linked first does not count as a page. -/
theorem MapsPage.after (grows : Grows lowP3 userP2 s space s' space')
    (pages : space'.pages = space.pages)
    {result : Except AddressSpaceError Nat}
    (rest : MapsPage virt permissions lowP3 userP2 s' space' result space'' s'') :
    MapsPage virt permissions lowP3 userP2 s space result space'' s'' where
  grows := grows.trans rest.grows
  failed := fun error failed => (rest.failed error failed).trans pages
  done := by
    intro frame ok
    obtain ⟨pages', isFresh, vacant, empty⟩ := rest.done frame ok
    obtain ⟨p1s, owns⟩ := grows.owns
    refine ⟨pages'.trans (by rw [pages]), fun held => ?_, ?_, empty⟩
    · by_cases mine : frame ∈ space.frames
      · exact isFresh (owns.held frame (grows.keeps frame mine))
      · exact isFresh (grows.confined.held frame held mine)
    · rw [AddressSpace.pageAt, ← pages]
      exact vacant

/-- Where the table is there, only a frame for the page is missing. -/
theorem Owns.mapInTable (owns : Owns s space lowP3 userP2 p1s) {p1 : Nat}
    (virtAligned : virt % pageSize4k = 0) (inRange : inUserVirtualRange virt = true)
    (leads : child (tables s.memory userP2 (p2Index virt)) = some p1)
    (maps : space.mapInTable s p1 virt permissions = (result, space', s')) :
    MapsPage virt permissions lowP3 userP2 s space result space' s' := by
  have laid := owns.laid
  have inSlot := inUserSlot_of_range inRange
  obtain ⟨mem, -⟩ := laid.mem_of_child leads
  have isTable := laid.p1_mem mem
  obtain ⟨-, -, -, apart⟩ := laid.apart
  obtain ⟨notRoot, notLow, -⟩ := apart p1 mem
  have reads := laid.leaves virt p1 inSlot leads
  have present := Laid.entryPresent_entryAt space virt
  rw [tables_of_aligned (laid.isTable isTable).aligned] at reads
  unfold AddressSpace.mapInTable at maps
  rw [reads, present] at maps
  cases found : space.pageAt virt with
  | some page =>
      rw [found] at maps
      obtain ⟨rfl, same⟩ := Prod.mk.inj maps
      obtain ⟨rfl, rfl⟩ := Prod.mk.inj same
      exact .refuse owns
  | none =>
      rw [found] at maps
      dsimp only [Option.isSome_none] at maps
      rw [if_neg Bool.false_ne_true] at maps
      cases allocates : s.allocateZeroedFrame with
      | mk answer s₁ =>
      rw [allocates] at maps
      cases answer with
      | error error =>
          obtain ⟨rfl, same⟩ := Prod.mk.inj maps
          obtain ⟨rfl, rfl⟩ := Prod.mk.inj same
          obtain ⟨outside, held⟩ := Machine.allocateZeroedFrame_error allocates
          exact ⟨.of_sameOutside owns outside held (Machine.allocateZeroedFrame_draws allocates),
            fun _ _ => rfl, fun _ ok => by cases ok⟩
      | ok fresh =>
          obtain ⟨rfl, same⟩ := Prod.mk.inj maps
          obtain ⟨rfl, rfl⟩ := Prod.mk.inj same
          obtain ⟨isFrame, isFresh, -, memory, -⟩ := Machine.allocateZeroedFrame_ok allocates
          have isNew := owns.isNew allocates
          have word : fresh ||| permissions.flags < 2 ^ 64 :=
            Nat.or_lt_two_pow isFrame.lt_word permissions.isFlags.word
          have laid' := laid.plant isFrame isNew virtAligned inRange leads found permissions
          refine ⟨owns.grows allocates isTable notRoot notLow word laid' (space.frames_addPage _)
            (fun _ mem => .inr mem) rfl rfl, fun _ failed => (by cases failed), fun frame ok => ?_⟩
          obtain rfl := Except.ok.inj ok
          refine ⟨rfl, isFresh, found, fun a from_ below => ?_⟩
          have different : fresh ≠ p1 := by
            rintro rfl
            exact isNew (Laid.mem_frames_of_table isTable)
          rw [s₁.store_memory_of_outside (p1Index virt) _
            (apart_of_ne isFrame.aligned (laid.isTable isTable).aligned different from_ below),
            memory]
          exact Lib.Store.zero_inside from_ below

/-- A page of a space is added, or nothing but a table. -/
theorem Owns.mapUserPage (owns : Owns s space lowP3 userP2 p1s)
    (maps : space.mapUserPage s virt permissions = (result, space', s')) :
    MapsPage virt permissions lowP3 userP2 s space result space' s' := by
  have refused : ∀ {error : AddressSpaceError}, (.error error, space, s) = (result, space', s') →
      MapsPage virt permissions lowP3 userP2 s space result space' s' := by
    rintro error ⟨⟩
    exact .refuse owns
  have laid := owns.laid
  have isRoot := laid.isTable laid.root_mem
  have isLow := laid.isTable laid.lowP3_mem
  have isUser := laid.isTable laid.userP2_mem
  have root := laid.entry_root
  have low := laid.entry_low
  unfold AddressSpace.mapUserPage at maps
  split_ifs at maps with _ virtAligned inRange
  · exact refused maps
  · exact refused maps
  · exact refused maps
  · exact refused maps
  · exact refused maps
  · rw [Bool.not_eq_true', Bool.not_eq_false] at virtAligned inRange
    have inSlot := inUserSlot_of_range inRange
    have aligned := mod_of_isPageAligned virtAligned
    have reads := tables_of_aligned (m := s.memory) isUser.aligned (p2Index virt)
    rw [isRoot.tableFromFrame, inSlot.p4Index, inSlot.p3Index] at maps
    dsimp only at maps
    rw [root, tableFromEntry_openEntry isLow] at maps
    dsimp only at maps
    rw [low, tableFromEntry_openEntry isUser] at maps
    dsimp only at maps
    rw [← reads] at maps
    rcases laid.branches (p2Index virt) with absent | ⟨p1, mem, links⟩
    · rw [absent, show entryPresent 0 = false from rfl, if_neg Bool.false_ne_true] at maps
      unfold AddressSpace.allocateTableFrame at maps
      split_ifs at maps
      · exact refused maps
      · cases allocates : s.allocateZeroedFrame with
        | mk answer s₁ =>
        rw [allocates] at maps
        cases answer with
        | error error =>
            obtain ⟨outside, held⟩ := Machine.allocateZeroedFrame_error allocates
            obtain ⟨rfl, rfl, rfl⟩ : .error error = result ∧ space = space' ∧ s₁ = s' := by
              simpa using maps
            exact ⟨.of_sameOutside owns outside held
                (Machine.allocateZeroedFrame_draws allocates),
              fun _ _ => rfl, fun _ ok => by cases ok⟩
        | ok fresh =>
            obtain ⟨isFrame, -⟩ := Machine.allocateZeroedFrame_ok allocates
            obtain ⟨-, rootUser, lowUser, -⟩ := laid.apart
            have laid' := laid.link isFrame (owns.isNew allocates) absent
            have grows := owns.grows allocates laid.userP2_mem rootUser.symm lowUser.symm
              (openEntry_lt isFrame) laid' (space.frames_addTable fresh)
              (fun frame mem => by simpa [or_comm] using mem) rfl rfl
            dsimp only at maps
            have stored : entry (s₁.store userP2 (p2Index virt) (openEntry fresh)).memory userP2
                (p2Index virt) = openEntry fresh :=
              Lib.Store.readU64_writeU64 (openEntry_lt isFrame)
            rw [stored, tableFromEntry_openEntry isFrame] at maps
            dsimp only at maps
            obtain ⟨p1s', owns'⟩ := grows.owns
            refine .after grows rfl (owns'.mapInTable aligned inRange ?_ maps)
            rw [tables_of_aligned isUser.aligned, stored, child_openEntry isFrame]
    · have isP1 := laid.isTable (laid.p1_mem mem)
      rw [links, entryPresent_openEntry, if_pos rfl, tableFromEntry_openEntry isP1] at maps
      refine owns.mapInTable aligned inRange ?_ maps
      rw [links, child_openEntry isP1]

end MapsPage

end CloudOS.Paging
