import CloudOS.Paging.Isolation

/-!
Mapping pages of an image succeeds as long as there are frames: no other failure can
occur at pages that are vacant.
-/

namespace CloudOS.Paging

open Lib.Radix (node)
open CloudOS.PhysMem (FrameSource)

/-- The addresses of images and their stack. -/
def InImageRegion (virt : Nat) : Prop := userElfBase ≤ virt ∧ virt < userElfStackTop

/-- The indices of an address of the region. -/
theorem InImageRegion.indices {virt : Nat} (inRegion : InImageRegion virt) :
    p4Index virt = 0 ∧ p3Index virt = 1 ∧ (p2Index virt = 0 ∨ p2Index virt = 1) := by
  simp only [p4Index, p3Index, p2Index, Fin.ext_iff, tableIndex_val]
  simp only [InImageRegion, userElfBase, userElfStackTop, userElfStackPage, userElfStackGuard,
    userElfEnd, userSpaceBase, bootIdentityMapBytes, pageSize4k] at inRegion
  change virt / 2 ^ 39 % 512 = 0 ∧ virt / 2 ^ 30 % 512 = 1 ∧
    (virt / 2 ^ 21 % 512 = 0 ∨ virt / 2 ^ 21 % 512 = 1)
  omega

/-- The region of images takes two tables. -/
theorem InImageRegion.p2Index_mem {virt : Nat} (inRegion : InImageRegion virt) :
    p2Index virt ∈ ([0, 1] : List (Fin 512)) := by
  rcases inRegion.indices.2.2 with zero | one
  · rw [zero]
    decide
  · rw [one]
    decide

theorem countP_succ_le {α : Type*} {l : List α} {p q : α → Bool}
    (fewer : ∀ x ∈ l, q x = true → p x = true) {x : α} (mem : x ∈ l) (was : p x = true)
    (isNot : q x = false) : l.countP q + 1 ≤ l.countP p := by
  induction l with
  | nil => cases mem
  | cons y l ih =>
      rw [List.forall_mem_cons] at fewer
      rw [List.countP_cons, List.countP_cons]
      rcases List.mem_cons.mp mem with rfl | mem
      · have rest := List.countP_mono_left fewer.2
        rw [was, isNot, if_pos rfl, if_neg Bool.false_ne_true]
        omega
      · have rest := ih fewer.2 mem
        cases here : q y with
        | false =>
            rw [if_neg Bool.false_ne_true]
            omega
        | true =>
            rw [fewer.1 here]
            omega

/-! ### The boot tables -/

namespace BootTables

/-- The tables that lead to the pages of images and their stack. -/
def imagePaths : List (List (Fin 512)) := [[0], [0, 1], [0, 1, 0], [0, 1, 1]]

variable {source : FrameSource} {s s' : Machine source}

/-- How many of these tables are not there yet. -/
def lacking (boot : BootTables) (s : Machine source) : Nat :=
  imagePaths.countP fun path => (node child (tables s.memory) boot.p4 path).isNone

variable {boot : BootTables} {target : List (Fin 512)} {flags : Nat}

theorem lacking_le (boot : BootTables) (s : Machine source) : boot.lacking s ≤ 4 :=
  List.countP_le_length

theorem length_of_mem_imagePaths {path : List (Fin 512)} (mem : path ∈ imagePaths) :
    path.length ≤ 3 := by
  simp only [imagePaths, List.mem_cons, List.not_mem_nil, or_false] at mem
  rcases mem with rfl | rfl | rfl | rfl
  all_goals decide

/-- No table gets lost. -/
theorem Evolves.lacks (evolves : boot.Evolves target flags s s') :
    ∀ path ∈ imagePaths, (node child (tables s'.memory) boot.p4 path).isNone = true →
      (node child (tables s.memory) boot.p4 path).isNone = true := by
  intro path mem isNone
  cases reaches : node child (tables s.memory) boot.p4 path with
  | none => rfl
  | some frame =>
      rw [evolves.nodes path frame (length_of_mem_imagePaths mem) reaches] at isNone
      cases isNone

/-- A tree that grows lacks no more than before. -/
theorem Evolves.lacking_le (evolves : boot.Evolves target flags s s') :
    boot.lacking s' ≤ boot.lacking s := List.countP_mono_left evolves.lacks

section Level

variable {path : List (Fin 512)} {frame k : Nat} {i : Fin 512}

/-- A frame is needed only for a table that is missing. -/
theorem Sound.ensureNextTable_supplied (sound : boot.Sound s) (short : path.length ≤ 2)
    (reaches : node child (tables s.memory) boot.p4 path = some frame)
    (opens : Open (tables s.memory) boot.p4 path flags) (onPath : path ++ [i] <+: target)
    (small : entryPresent (tables s.memory frame i) = true →
      entryHuge (tables s.memory frame i) = false)
    (member : path ++ [i] ∈ imagePaths)
    (enough : supplies source (boot.lacking s + k) s.frames = true) :
    ∃ next s', s.ensureNextTable frame i flags = (.ok next, s') ∧
      boot.Evolves target flags s s' ∧ supplies source (boot.lacking s' + k) s'.frames = true := by
  have isTable := isFrame_of_node reaches
  cases ensures : s.ensureNextTable frame i flags with
  | mk result s' =>
  obtain ⟨-, evolves, -, descends⟩ := sound.ensureNextTable short reaches opens onPath ensures
  unfold Machine.ensureNextTable at ensures
  rw [← tables_of_aligned (m := s.memory) isTable.aligned i] at ensures
  dsimp only at ensures
  cases present : entryPresent (tables s.memory frame i) with
  | true =>
      obtain ⟨-, leads⟩ := sound.sheltered.inner i short reaches present (small present)
      obtain ⟨next, leads⟩ := Option.isSome_iff_exists.mp leads
      have leads' : tableFromEntry (tables s.memory frame i ||| opened flags) = some next := by
        have moved := child_widen (tables s.memory frame i) flags
        rw [leads] at moved
        exact (present_of_child moved).2.2
      rw [present, if_pos rfl, small present, if_neg Bool.false_ne_true, leads'] at ensures
      obtain ⟨rfl, rfl⟩ := Prod.mk.inj ensures
      exact ⟨next, _, rfl, evolves, supplies_mono
        (Nat.add_le_add_right evolves.lacking_le k) enough⟩
  | false =>
      have vacant : node child (tables s.memory) boot.p4 (path ++ [i]) = none := by
        rw [Lib.Radix.node_concat, reaches, Option.bind_some, child_of_absent present]
      have lacks : 1 ≤ boot.lacking s := List.one_le_countP_iff.mpr
        ⟨path ++ [i], member, by rw [vacant]; rfl⟩
      obtain ⟨n, isSucc⟩ : ∃ n, boot.lacking s + k = n + 1 := ⟨boot.lacking s + k - 1, by omega⟩
      rw [isSucc] at enough
      obtain ⟨fresh, s₁, allocates, reachable, rest⟩ := Machine.allocateFrame_supplied enough
      obtain ⟨aligned, -⟩ := Machine.allocateFrame_some allocates
      have isFrame : IsFrame fresh := ⟨aligned, of_decide_eq_true reachable⟩
      have leads := (present_of_child (child_link isFrame flags)).2.2
      rw [present, if_neg Bool.false_ne_true, allocates] at ensures
      simp only [reachable, Bool.not_true, Bool.false_eq_true, if_false, leads] at ensures
      obtain ⟨rfl, rfl⟩ := Prod.mk.inj ensures
      have reaches' := (descends fresh rfl).reaches
      have fewer := countP_succ_le evolves.lacks member
        (by rw [vacant]; rfl) (by rw [reaches']; rfl)
      exact ⟨fresh, _, rfl, evolves, supplies_mono
        (by simp only [lacking] at *; omega) rest⟩

end Level

/-- The tables on the way to a page of the region. -/
theorem paths_of_inImageRegion {virt : Nat} (inRegion : InImageRegion virt) :
    [] ++ [p4Index virt] ∈ imagePaths ∧ [p4Index virt] ++ [p3Index virt] ∈ imagePaths ∧
      [p4Index virt, p3Index virt] ++ [p2Index virt] ∈ imagePaths := by
  obtain ⟨is4, is3, is2 | is2⟩ := inRegion.indices
  all_goals
    rw [is4, is3, is2]
    decide

section Page

variable {virt phys k : Nat}

/-- Where no page is, the entry of the third level is not one of a large page. -/
theorem small_of_vacant (tidy : Tidy (tables s.memory) boot.p4)
    (vacant : leaf (tables s.memory) boot.p4 virt = none) {p2 : Nat}
    (reaches : node child (tables s.memory) boot.p4 [p4Index virt, p3Index virt] = some p2) :
    entryHuge (tables s.memory p2 (p2Index virt)) = false := by
  cases present : entryPresent (tables s.memory p2 (p2Index virt)) with
  | false => exact tidy _ p2 _ rfl reaches present
  | true =>
      cases huge : entryHuge (tables s.memory p2 (p2Index virt)) with
      | false => rfl
      | true =>
          rw [leaf, reaches, Option.bind_some, leafBelow, present, huge] at vacant
          cases vacant

/-- With a frame for every missing table, the page is mapped. -/
theorem Sound.mapPageInnerWithFlags_supplied (sound : boot.Sound s)
    (tidy : Tidy (tables s.memory) boot.p4) (isFlags : IsFlags flags)
    (admissible : Admissible virt phys flags)
    (inRegion : InImageRegion virt) (vacant : leaf (tables s.memory) boot.p4 virt = none)
    (enough : supplies source (boot.lacking s + k) s.frames = true) (owner : PageOwner) :
    ∃ s', s.mapPageInnerWithFlags boot virt phys flags owner = (.ok (), s') ∧
      supplies source (boot.lacking s' + k) s'.frames = true := by
  obtain ⟨path4, path3, path2⟩ := paths_of_inImageRegion inRegion
  have virtAligned := isPageAligned_of_mod admissible.virtAligned
  have isFrame := admissible.isFrame
  unfold Machine.mapPageInnerWithFlags
  simp only [virtAligned, isFrame.isPageAligned, admissible.inRange, isFrame.identityReachable,
    Bool.not_true, Bool.false_eq_true, if_false]
  -- the first level
  have atRoot : node child (tables s.memory) boot.p4 [] = some boot.p4 := rfl
  have onPath4 : [] ++ [p4Index virt] <+: Paging.indices virt := ⟨_, rfl⟩
  obtain ⟨p3, s₄, step4, evolves4, enough4⟩ := sound.ensureNextTable_supplied (by simp) atRoot
    (open_nil _ _ flags) onPath4 (sound.sheltered.small _ (by simp) atRoot) path4 enough
  obtain ⟨sound4, -, same4, descends4⟩ := sound.ensureNextTable (by simp) atRoot
    (open_nil _ _ flags) onPath4 step4
  obtain ⟨reaches3, opens3⟩ := descends4 p3 rfl
  rw [step4]
  dsimp only
  -- the second level
  have onPath3 : [p4Index virt] ++ [p3Index virt] <+: Paging.indices virt := ⟨_, rfl⟩
  obtain ⟨p2, s₃, step3, evolves3, enough3⟩ := sound4.ensureNextTable_supplied (by simp) reaches3
    opens3 onPath3 (sound4.sheltered.small _ (by simp) reaches3) path3 enough4
  obtain ⟨sound3, -, same3, descends3⟩ := sound4.ensureNextTable (by simp) reaches3 opens3 onPath3
    step3
  obtain ⟨reaches2, opens2⟩ := descends3 p2 rfl
  rw [step3]
  dsimp only
  -- the third level
  have vacant3 : leaf (tables s₃.memory) boot.p4 virt = none := by rw [same3, same4, vacant]
  have small := small_of_vacant (evolves3.tidy (evolves4.tidy tidy)) vacant3 reaches2
  have onPath2 : [p4Index virt, p3Index virt] ++ [p2Index virt] <+: Paging.indices virt := ⟨_, rfl⟩
  rw [← tables_of_aligned (m := s₃.memory) (isFrame_of_node reaches2).aligned, small,
    if_neg Bool.false_ne_true]
  obtain ⟨p1, s₂, step2, -, enough2⟩ := sound3.ensureNextTable_supplied (by simp) reaches2 opens2
    onPath2 (fun _ => small) path2 enough3
  obtain ⟨sound2, -, same2, descends2⟩ := sound3.ensureNextTable (by simp) reaches2 opens2 onPath2
    step2
  obtain ⟨reaches1, opens1⟩ := descends2 p1 rfl
  rw [step2]
  dsimp only
  -- the entry of the page
  have isTable := isFrame_of_node reaches1
  have vacant2 : leaf (tables s₂.memory) boot.p4 virt = none := by rw [same2, vacant3]
  have absent : entryPresent (tables s₂.memory p1 (p1Index virt)) = false := by
    cases present : entryPresent (tables s₂.memory p1 (p1Index virt)) with
    | false => rfl
    | true =>
        rw [leaf_of_table reaches1, present] at vacant2
        cases vacant2
  rw [← tables_of_aligned (m := s₂.memory) isTable.aligned, absent, if_neg Bool.false_ne_true]
  refine ⟨_, rfl, ?_⟩
  have planted : tables (s₂.store p1 (p1Index virt) (phys ||| flags)).memory = _ :=
    tables_store isTable.aligned (Nat.or_lt_two_pow isFrame.lt_word isFlags.word)
  have stored : boot.lacking (s₂.store p1 (p1Index virt) (phys ||| flags)) = boot.lacking s₂ := by
    refine List.countP_congr fun path mem => ?_
    rw [planted, sound2.sheltered.node_planted rfl reaches1 (length_of_mem_imagePaths mem)]
  change supplies source (boot.lacking (s₂.store p1 (p1Index virt) (phys ||| flags)) + k)
    s₂.frames = true
  rw [stored]
  exact enough2

/-- A vacant page of the region can be mapped if there is a frame for it and one for
each table that is not there. -/
theorem Sound.mapNewPageWithFlags_supplied (sound : boot.Sound s)
    (tidy : Tidy (tables s.memory) boot.p4) (isFlags : IsFlags flags)
    (virtAligned : virt % pageSize4k = 0) (inRange : inMappableVirtualRange virt flags = true)
    (inRegion : InImageRegion virt) (vacant : leaf (tables s.memory) boot.p4 virt = none)
    (enough : supplies source (boot.lacking s + (k + 1)) s.frames = true) (owner : PageOwner) :
    ∃ phys s', s.mapNewPageWithFlags boot virt flags owner = (.ok phys, s') ∧
      supplies source (boot.lacking s' + k) s'.frames = true := by
  have unmapped : (translate boot s.memory virt).mapped = false := by
    rw [sound.sheltered.translate, vacant]
    rfl
  obtain ⟨phys, s₁, allocates, reachable, rest⟩ := Machine.allocateFrame_supplied enough
  obtain ⟨aligned, -⟩ := Machine.allocateFrame_some allocates
  obtain ⟨sound₁, evolves₁, same₁, -⟩ := sound.take (Paging.indices virt) flags allocates
  have vacant₁ : leaf (tables (s₁.clear phys).memory) boot.p4 virt = none := by rw [same₁, vacant]
  have rest₁ : supplies source (boot.lacking (s₁.clear phys) + k) (s₁.clear phys).frames = true :=
    supplies_mono (Nat.add_le_add_right evolves₁.lacking_le k) rest
  obtain ⟨s', maps, rest'⟩ := sound₁.mapPageInnerWithFlags_supplied (evolves₁.tidy tidy) isFlags
    ⟨virtAligned, ⟨aligned, of_decide_eq_true reachable⟩, inRange⟩ inRegion vacant₁ rest₁ owner
  refine ⟨phys, s', ?_, rest'⟩
  unfold Machine.mapNewPageWithFlags
  simp only [isPageAligned_of_mod virtAligned, inRange, unmapped, allocates, reachable, maps,
    Bool.not_true, Bool.false_eq_true, if_false]

end Page

end BootTables

/-! ### Address spaces -/

section Space

variable {source : FrameSource} {s s' : Machine source} {space : AddressSpace}
  {lowP3 userP2 : Nat} {p1s : List Nat} {virt k : Nat}

/-- How many of the two tables of pages of an image are not there yet. -/
def lackingTables (s : Machine source) (userP2 : Nat) : Nat :=
  ([0, 1] : List (Fin 512)).countP fun i => !entryPresent (tables s.memory userP2 i)

/-- A vacant page whose table is there. -/
theorem Owns.mapInTable_supplied (owns : Owns s space lowP3 userP2 p1s)
    (permissions : UserPagePermissions) {p1 : Nat}
    (inSlot : InUserSlot virt) (vacant : space.pageAt virt = none)
    (leads : child (tables s.memory userP2 (p2Index virt)) = some p1)
    (enough : supplies source (k + 1) s.frames = true) :
    ∃ frame s', space.mapInTable s p1 virt permissions =
        (.ok frame, { space with pages := space.pages ++ [⟨frame, virt, permissions⟩] }, s') ∧
      lackingTables s' userP2 = lackingTables s userP2 ∧
      supplies source k s'.frames = true := by
  have laid := owns.laid
  obtain ⟨mem, -⟩ := laid.mem_of_child leads
  have isTable := laid.p1_mem mem
  have aligned := (laid.isTable isTable).aligned
  have notUser : p1 ≠ userP2 := (laid.apart.2.2.2 p1 mem).2.2
  have reads := laid.leaves virt p1 inSlot leads
  have present := Laid.entryPresent_entryAt space virt
  rw [tables_of_aligned aligned] at reads
  obtain ⟨frame, s₁, allocates, rest⟩ := Machine.allocateZeroedFrame_supplied enough
  obtain ⟨isFrame, -, -, memory, -⟩ := Machine.allocateZeroedFrame_ok allocates
  have isNew := owns.isNew allocates
  have stored : tables (s₁.store p1 (p1Index virt) (frame ||| permissions.flags)).memory = _ :=
    tables_store aligned (Nat.or_lt_two_pow isFrame.lt_word permissions.isFlags.word)
  refine ⟨frame, s₁.store p1 (p1Index virt) (frame ||| permissions.flags), ?_, ?_, rest⟩
  · rw [AddressSpace.mapInTable, reads, present, vacant, allocates]
    rfl
  · refine List.countP_congr fun i _ => ?_
    rw [stored, Lib.Radix.set_of_ne fun same => notUser same.1.symm, memory,
      tables_clear isFrame.aligned, Laid.fill_table isNew laid.userP2_mem]

/-- Past its checks, `map_user_page` has come to the table of the user slot. -/
theorem Owns.mapUserPage_eq (owns : Owns s space lowP3 userP2 p1s) (active : space.active = true)
    (positive : space.rootFrame ≠ 0) (virtAligned : virt % pageSize4k = 0)
    (inRange : inUserVirtualRange virt = true) (vacant : space.pageAt virt = none)
    (pageRoom : space.pages.length < maxProcessUserPages) (permissions : UserPagePermissions) :
    space.mapUserPage s virt permissions =
      if entryPresent (tables s.memory userP2 (p2Index virt)) then
        match tableFromEntry (tables s.memory userP2 (p2Index virt)) with
        | none => (.error .missingPageTable, space, s)
        | some p1 => space.mapInTable s p1 virt permissions
      else
        match space.allocateTableFrame s with
        | (.error error, space, s) => (.error error, space, s)
        | (.ok p1Frame, space, s) =>
            let s := s.store userP2 (p2Index virt) (openEntry p1Frame)
            match tableFromEntry (entry s.memory userP2 (p2Index virt)) with
            | none => (.error .missingPageTable, space, s)
            | some p1 => space.mapInTable s p1 virt permissions := by
  have laid := owns.laid
  have inSlot := inUserSlot_of_range inRange
  have reads := tables_of_aligned (m := s.memory) (laid.isTable laid.userP2_mem).aligned
    (p2Index virt)
  have unmapped : (space.translate s.memory virt).mapped = false := by
    rw [owns.translate active positive inSlot, AddressSpace.recorded, vacant]
    rfl
  unfold AddressSpace.mapUserPage
  rw [active, beq_false_of_ne positive, isPageAligned_of_mod virtAligned, inRange, unmapped,
    (laid.isTable laid.root_mem).tableFromFrame, inSlot.p4Index, inSlot.p3Index]
  simp only [Bool.not_true, Bool.or_self, Bool.false_eq_true, if_false]
  rw [if_neg (by omega), laid.entry_root, tableFromEntry_openEntry (laid.isTable laid.lowP3_mem)]
  dsimp only
  rw [laid.entry_low, tableFromEntry_openEntry (laid.isTable laid.userP2_mem)]
  dsimp only
  rw [← reads]
  rcases space.allocateTableFrame s with ⟨_ | p1Frame, _, _⟩ <;> rfl

/-- Linking a new table leaves one table fewer to link. -/
theorem Owns.lackingTables_link (owns : Owns s space lowP3 userP2 p1s) {fresh : Nat}
    {s₁ : Machine source} (allocates : s.allocateZeroedFrame = (.ok fresh, s₁))
    (inRegion : InImageRegion virt)
    (isAbsent : entryPresent (tables s.memory userP2 (p2Index virt)) = false) :
    lackingTables (s₁.store userP2 (p2Index virt) (openEntry fresh)) userP2 + 1 ≤
      lackingTables s userP2 := by
  have laid := owns.laid
  have aligned := (laid.isTable laid.userP2_mem).aligned
  obtain ⟨isFrame, -, -, memory, -⟩ := Machine.allocateZeroedFrame_ok allocates
  have isNew := owns.isNew allocates
  have stored : tables (s₁.store userP2 (p2Index virt) (openEntry fresh)).memory = _ :=
    tables_store aligned (openEntry_lt isFrame)
  have elsewhere : ∀ i, i ≠ p2Index virt →
      tables (s₁.store userP2 (p2Index virt) (openEntry fresh)).memory userP2 i =
        tables s.memory userP2 i := by
    intro i other
    rw [stored, Lib.Radix.set_of_ne fun same => other same.2, memory, tables_clear isFrame.aligned,
      Laid.fill_table isNew laid.userP2_mem]
  have linked : entryPresent (tables
      (s₁.store userP2 (p2Index virt) (openEntry fresh)).memory userP2 (p2Index virt)) = true := by
    have reads : entry (s₁.store userP2 (p2Index virt) (openEntry fresh)).memory userP2
        (p2Index virt) = openEntry fresh := Lib.Store.readU64_writeU64 (openEntry_lt isFrame)
    rw [tables_of_aligned aligned, reads, entryPresent_openEntry]
  refine countP_succ_le (fun i _ lacks => ?_) inRegion.p2Index_mem (by rw [isAbsent]; rfl)
    (by rw [linked]; rfl)
  by_cases here : i = p2Index virt
  · rw [here, linked] at lacks
    cases lacks
  · rwa [elsewhere i here] at lacks

/-- A vacant page whose table has to be made first. -/
theorem Owns.mapInNewTable_supplied (owns : Owns s space lowP3 userP2 p1s)
    (inRange : inUserVirtualRange virt = true) (inRegion : InImageRegion virt)
    (vacant : space.pageAt virt = none) (absent : tables s.memory userP2 (p2Index virt) = 0)
    (tableRoom : space.tableFrames.length + lackingTables s userP2 ≤ 5)
    (enough : supplies source (lackingTables s userP2 + (k + 1)) s.frames = true)
    (permissions : UserPagePermissions) :
    ∃ fresh s₁ frame space' s', space.allocateTableFrame s =
        (.ok fresh, { space with tableFrames := space.tableFrames ++ [fresh] }, s₁) ∧
      tableFromEntry (entry (s₁.store userP2 (p2Index virt) (openEntry fresh)).memory userP2
        (p2Index virt)) = some fresh ∧
      AddressSpace.mapInTable { space with tableFrames := space.tableFrames ++ [fresh] }
        (s₁.store userP2 (p2Index virt) (openEntry fresh)) fresh virt permissions =
          (.ok frame, space', s') ∧
      space'.tableFrames.length + lackingTables s' userP2 ≤ 5 ∧
      supplies source (lackingTables s' userP2 + k) s'.frames = true := by
  have laid := owns.laid
  have isAbsent : entryPresent (tables s.memory userP2 (p2Index virt)) = false := by
    rw [absent]
    rfl
  have lacks : 1 ≤ lackingTables s userP2 := List.one_le_countP_iff.mpr
    ⟨p2Index virt, inRegion.p2Index_mem, by rw [isAbsent]; rfl⟩
  obtain ⟨n, isSucc⟩ : ∃ n, lackingTables s userP2 + (k + 1) = n + 1 :=
    ⟨lackingTables s userP2 + k, by omega⟩
  rw [isSucc] at enough
  obtain ⟨fresh, s₁, allocates, rest⟩ := Machine.allocateZeroedFrame_supplied enough
  obtain ⟨isFrame, -⟩ := Machine.allocateZeroedFrame_ok allocates
  obtain ⟨-, rootUser, lowUser, -⟩ := laid.apart
  have grows := owns.grows allocates laid.userP2_mem rootUser.symm lowUser.symm
    (openEntry_lt isFrame) (laid.link isFrame (owns.isNew allocates) absent)
    (space.frames_addTable fresh) (fun frame mem => by simpa [or_comm] using mem) rfl rfl
  obtain ⟨p1s', owns'⟩ := grows.owns
  have reads : entry (s₁.store userP2 (p2Index virt) (openEntry fresh)).memory userP2
      (p2Index virt) = openEntry fresh := Lib.Store.readU64_writeU64 (openEntry_lt isFrame)
  have leads : child (tables (s₁.store userP2 (p2Index virt) (openEntry fresh)).memory userP2
      (p2Index virt)) = some fresh := by
    rw [tables_of_aligned (laid.isTable laid.userP2_mem).aligned, reads, child_openEntry isFrame]
  have fewer := owns.lackingTables_link allocates inRegion isAbsent
  obtain ⟨frame, s', maps, same, rest'⟩ := owns'.mapInTable_supplied permissions
    (inUserSlot_of_range inRange) vacant leads (k := lackingTables
      (s₁.store userP2 (p2Index virt) (openEntry fresh)) userP2 + k)
    (supplies_mono (by omega) rest)
  refine ⟨fresh, s₁, frame, _, s', ?_, ?_, maps, ?_, ?_⟩
  · rw [AddressSpace.allocateTableFrame, if_neg (by simp only [maxProcessTableFrames]; omega),
      allocates]
  · rw [reads, tableFromEntry_openEntry isFrame]
  · rw [same]
    dsimp only
    rw [List.length_append, List.length_singleton]
    omega
  · rw [same]
    exact rest'

/-- A vacant page of the region can be mapped if there is a frame for it and one for
its table. -/
theorem Owns.mapUserPage_supplied (owns : Owns s space lowP3 userP2 p1s)
    (active : space.active = true) (positive : space.rootFrame ≠ 0)
    (virtAligned : virt % pageSize4k = 0) (inRange : inUserVirtualRange virt = true)
    (inRegion : InImageRegion virt) (vacant : space.pageAt virt = none)
    (pageRoom : space.pages.length < maxProcessUserPages)
    (tableRoom : space.tableFrames.length + lackingTables s userP2 ≤ 5)
    (enough : supplies source (lackingTables s userP2 + (k + 1)) s.frames = true)
    (permissions : UserPagePermissions) :
    ∃ frame space' s', space.mapUserPage s virt permissions = (.ok frame, space', s') ∧
      space'.tableFrames.length + lackingTables s' userP2 ≤ 5 ∧
      supplies source (lackingTables s' userP2 + k) s'.frames = true := by
  rw [owns.mapUserPage_eq active positive virtAligned inRange vacant pageRoom permissions]
  rcases owns.laid.branches (p2Index virt) with absent | ⟨p1, mem, links⟩
  · have isAbsent : entryPresent (tables s.memory userP2 (p2Index virt)) = false := by
      rw [absent]
      rfl
    obtain ⟨fresh, s₁, frame, space', s', takes, reads, maps, room, rest⟩ :=
      owns.mapInNewTable_supplied inRange inRegion vacant absent tableRoom enough permissions
    rw [isAbsent, if_neg Bool.false_ne_true, takes]
    dsimp only
    rw [reads]
    exact ⟨frame, space', s', maps, room, rest⟩
  · have isP1 := owns.laid.isTable (owns.laid.p1_mem mem)
    have leads : child (tables s.memory userP2 (p2Index virt)) = some p1 := by
      rw [links, child_openEntry isP1]
    rw [links, entryPresent_openEntry, if_pos rfl, tableFromEntry_openEntry isP1]
    dsimp only
    obtain ⟨frame, s', maps, same, rest⟩ := owns.mapInTable_supplied permissions
      (inUserSlot_of_range inRange) vacant leads enough
    refine ⟨frame, _, s', maps, ?_, ?_⟩
    · rw [same]
      exact tableRoom
    · rw [same]
      exact rest

end Space

/-! ### Runs -/

/-- The tables of the boot code are tidy. -/
theorem BootTables.Started.tidy {boot : BootTables} {T : Nat → Fin 512 → Nat}
    (started : boot.Started T) : Tidy T boot.p4 := by
  intro path frame i length reaches absent
  rcases started.node_cases reaches with ⟨rfl, -⟩ | ⟨rfl, -⟩ | ⟨-, rfl⟩
  · cases length
  · cases length
  · rw [started.p2, entryPresent_or] at absent
    rw [show entryPresent 0x83 = true from rfl, Bool.or_true] at absent
    cases absent

/-- Work on other frames keeps the boot tree tidy. -/
theorem BootTables.Sound.tidy_confined {source : FrameSource} {boot : BootTables}
    {s s' : Machine source} {own : Nat → Prop} (sound : boot.Sound s) (confined : Confined own s s')
    (apart : ∀ frame, boot.Has s frame → ¬ own frame) (tidy : Tidy (tables s.memory) boot.p4) :
    Tidy (tables s'.memory) boot.p4 := by
  obtain ⟨-, -, -, same⟩ := sound.confined confined apart
  obtain ⟨-, nodes, -⟩ := sound.sheltered.congr same
  intro path frame i length reaches
  rw [nodes path (by omega)] at reaches
  rw [same frame ⟨path, by omega, reaches⟩]
  exact tidy path frame i length reaches

namespace World

variable {source : FrameSource} {boot : BootTables} {w : World source}

theorem Coherent.tidy_step (coherent : Coherent boot w) (op : SpaceOp)
    (tidy : Tidy (tables w.machine.memory) boot.p4) :
    Tidy (tables (w.step boot op).machine.memory) boot.p4 := by
  by_cases onSpace : ∀ call, op ≠ .boot call
  · obtain ⟨own, confined, apart, -⟩ := coherent.step_confined op onSpace
    exact coherent.sound.tidy_confined confined apart tidy
  · simp only [ne_eq, not_forall, not_not] at onSpace
    obtain ⟨call, rfl⟩ := onSpace
    exact (run_effect coherent.sound call).evolves.tidy tidy

/-- The boot tables are tidy after every run. -/
theorem run_tidy (coherent : Coherent boot w) (tidy : Tidy (tables w.machine.memory) boot.p4)
    (ops : List SpaceOp) : Tidy (tables (w.run boot ops).machine.memory) boot.p4 := by
  induction ops generalizing w with
  | nil => exact tidy
  | cons op ops ih => exact ih (coherent.step op) (coherent.tidy_step op tidy)

theorem first_tidy (boot : BootTables) (s : Machine source) :
    Tidy (tables (first boot s).machine.memory) boot.p4 := (boot.start_started s.memory).tidy

/-- Whether the mapper is set up does not change. -/
theorem Coherent.initialized_step (coherent : Coherent boot w) (op : SpaceOp) :
    (w.step boot op).machine.initialized = w.machine.initialized := by
  by_cases onSpace : ∀ call, op ≠ .boot call
  · obtain ⟨own, confined, -⟩ := coherent.step_confined op onSpace
    exact confined.initialized
  · simp only [ne_eq, not_forall, not_not] at onSpace
    obtain ⟨call, rfl⟩ := onSpace
    exact (run_effect coherent.sound call).evolves.initialized

/-- Nothing takes the initialization back. -/
theorem run_initialized (coherent : Coherent boot w) (ops : List SpaceOp) :
    (w.run boot ops).machine.initialized = w.machine.initialized := by
  induction ops generalizing w with
  | nil => rfl
  | cons op ops ih => exact (ih (coherent.step op)).trans (coherent.initialized_step op)

end World

end CloudOS.Paging
