import CloudOS.Paging.Space

/-!
How an address space lays out its tables, and what it then translates the user
region to.
-/

namespace CloudOS.Paging

open Lib.Radix (set fill)
open Lib.Store (Memory)
open CloudOS.PhysMem (FrameSource)

/-! ### Entries that grant everything -/

/-- The entry by which a space leads to one of its own tables. -/
abbrev openEntry (frame : Nat) : Nat := frame ||| presentBit ||| writableBit ||| userBit

section OpenEntry

variable {frame : Nat} (isFrame : IsFrame frame)

theorem openEntry_eq (frame : Nat) : openEntry frame = frame ||| 7 := by
  rw [openEntry, Nat.or_assoc, Nat.or_assoc]
  rfl

theorem entryPresent_openEntry (frame : Nat) : entryPresent (openEntry frame) = true := by
  rw [openEntry_eq, entryPresent_or]
  exact Bool.or_true _

theorem entryWritable_openEntry (frame : Nat) : entryWritable (openEntry frame) = true := by
  rw [openEntry_eq, entryWritable_or]
  exact Bool.or_true _

theorem entryUser_openEntry (frame : Nat) : entryUser (openEntry frame) = true := by
  rw [openEntry_eq, entryUser_or]
  exact Bool.or_true _

include isFrame

theorem entryNoExecute_openEntry : entryNoExecute (openEntry frame) = false := by
  rw [openEntry_eq, entryNoExecute_or, isFrame.entryNoExecute]
  rfl

theorem entryHuge_openEntry : entryHuge (openEntry frame) = false := by
  rw [openEntry_eq, entryHuge_or, isFrame.entryHuge]
  rfl

theorem tableFromEntry_openEntry : tableFromEntry (openEntry frame) = some frame := by
  rw [openEntry_eq]
  exact isFrame.tableFromEntry_or (by decide)

theorem child_openEntry : child (openEntry frame) = some frame := by
  rw [child_of_present (entryPresent_openEntry frame) (entryHuge_openEntry isFrame),
    tableFromEntry_openEntry isFrame]

/-- A table entry is a word. -/
theorem openEntry_lt : openEntry frame < 2 ^ 64 := by
  rw [openEntry_eq]
  exact Nat.or_lt_two_pow isFrame.lt_word (by decide)

end OpenEntry

/-! ### The record of a space -/

namespace AddressSpace

/-- All frames of a space. -/
def frames (space : AddressSpace) : List Nat := space.tableFrames ++ space.pages.map UserPage.frame

/-- A table added to the record is one frame more. -/
theorem frames_addTable (space : AddressSpace) (fresh : Nat) :
    ({ space with tableFrames := space.tableFrames ++ [fresh] } : AddressSpace).frames.Perm
      (fresh :: space.frames) := by
  simp only [frames, List.append_assoc, List.singleton_append]
  exact List.perm_middle

theorem frames_addPage (space : AddressSpace) (page : UserPage) :
    ({ space with pages := space.pages ++ [page] } : AddressSpace).frames.Perm
      (page.frame :: space.frames) := by
  simp only [frames, List.map_append, List.map_cons, List.map_nil]
  rw [← List.append_assoc]
  exact List.perm_append_singleton _ _

/-- The recorded page of an address. -/
def pageAt (space : AddressSpace) (virt : Nat) : Option UserPage :=
  space.pages.find? fun page => page.virt / pageSize4k == virt / pageSize4k

/-- The entry that the record calls for. -/
def entryAt (space : AddressSpace) (virt : Nat) : Nat :=
  match space.pageAt virt with
  | none => 0
  | some page => page.frame ||| page.permissions.flags

end AddressSpace

/-- The addresses that a space has for itself. -/
def InUserSlot (virt : Nat) : Prop :=
  bootIdentityMapBytes ≤ virt ∧ virt < 2 * bootIdentityMapBytes

/-- The user range lies in the slot. -/
theorem inUserSlot_of_range {virt : Nat} (inRange : inUserVirtualRange virt = true) :
    InUserSlot virt := by
  rw [inUserVirtualRange_iff] at inRange
  simp only [InUserSlot, userSpaceBase, userSpaceEnd, bootIdentityMapBytes] at *
  omega

/-- The slot is below the first entry of the root. -/
theorem InUserSlot.p4Index {virt : Nat} (inSlot : InUserSlot virt) : p4Index virt = 0 := by
  rw [Paging.p4Index, Fin.ext_iff, tableIndex_val]
  simp only [InUserSlot, bootIdentityMapBytes] at inSlot
  change virt / 2 ^ 39 % 512 = 0
  omega

theorem InUserSlot.p3Index {virt : Nat} (inSlot : InUserSlot virt) : p3Index virt = 1 := by
  rw [Paging.p3Index, Fin.ext_iff, tableIndex_val]
  simp only [InUserSlot, bootIdentityMapBytes] at inSlot
  change virt / 2 ^ 30 % 512 = 1
  omega

/-- In the slot, two indices determine the page. -/
theorem InUserSlot.page_eq_iff {v w : Nat} (inSlotV : InUserSlot v) (inSlotW : InUserSlot w) :
    v / pageSize4k = w / pageSize4k ↔ p2Index v = p2Index w ∧ p1Index v = p1Index w := by
  simp only [p2Index, p1Index, Fin.ext_iff, tableIndex_val]
  simp only [InUserSlot, bootIdentityMapBytes, pageSize4k] at *
  omega

/-- The tables of an active space: a root and a low table with an entry for the
user region, a table for that region and the tables of its pages. -/
structure Laid (T : Nat → Fin 512 → Nat) (space : AddressSpace) (lowP3 userP2 : Nat)
    (p1s : List Nat) : Prop where
  tableFrames : space.tableFrames = space.rootFrame :: lowP3 :: userP2 :: p1s
  isFrame : ∀ frame ∈ space.frames, IsFrame frame
  nodup : space.frames.Nodup
  root : T space.rootFrame 0 = openEntry lowP3
  low : T lowP3 1 = openEntry userP2
  branches : ∀ i, T userP2 i = 0 ∨ ∃ p1 ∈ p1s, T userP2 i = openEntry p1
  once : ∀ i j p1, child (T userP2 i) = some p1 → child (T userP2 j) = some p1 → i = j
  leaves : ∀ virt p1, InUserSlot virt → child (T userP2 (p2Index virt)) = some p1 →
    T p1 (p1Index virt) = space.entryAt virt
  placed : ∀ page ∈ space.pages, (child (T userP2 (p2Index page.virt))).isSome = true
  virts : ∀ page ∈ space.pages, page.virt % pageSize4k = 0 ∧ inUserVirtualRange page.virt = true
  distinct : (space.pages.map UserPage.virt).Nodup

namespace Laid

variable {T T' : Nat → Fin 512 → Nat} {space : AddressSpace} {lowP3 userP2 : Nat} {p1s : List Nat}

theorem mem_frames_of_table {frame : Nat} (mem : frame ∈ space.tableFrames) :
    frame ∈ space.frames := List.mem_append_left _ mem

theorem mem_frames_of_page {page : UserPage} (mem : page ∈ space.pages) :
    page.frame ∈ space.frames := List.mem_append_right _ (List.mem_map_of_mem mem)

variable (laid : Laid T space lowP3 userP2 p1s)

include laid

theorem root_mem : space.rootFrame ∈ space.tableFrames := by
  rw [laid.tableFrames]
  simp

theorem lowP3_mem : lowP3 ∈ space.tableFrames := by
  rw [laid.tableFrames]
  simp

theorem userP2_mem : userP2 ∈ space.tableFrames := by
  rw [laid.tableFrames]
  simp

theorem p1_mem {p1 : Nat} (mem : p1 ∈ p1s) : p1 ∈ space.tableFrames := by
  rw [laid.tableFrames]
  simp [mem]

theorem isTable {frame : Nat} (mem : frame ∈ space.tableFrames) : IsFrame frame :=
  laid.isFrame frame (mem_frames_of_table mem)

/-- A table of pages is one of the recorded ones. -/
theorem mem_of_child {i : Fin 512} {p1 : Nat} (leads : child (T userP2 i) = some p1) :
    p1 ∈ p1s ∧ T userP2 i = openEntry p1 := by
  rcases laid.branches i with absent | ⟨p1', mem, links⟩
  · rw [absent, child_zero] at leads
    cases leads
  · rw [links, child_openEntry (laid.isTable (laid.p1_mem mem))] at leads
    obtain rfl := Option.some.inj leads
    exact ⟨mem, links⟩

/-- The tables have different frames. -/
theorem apart : space.rootFrame ≠ lowP3 ∧ space.rootFrame ≠ userP2 ∧ lowP3 ≠ userP2 ∧
    (∀ p1 ∈ p1s, p1 ≠ space.rootFrame ∧ p1 ≠ lowP3 ∧ p1 ≠ userP2) := by
  have nodup := (List.nodup_append.mp laid.nodup).1
  rw [laid.tableFrames] at nodup
  simp only [List.nodup_cons, List.mem_cons, not_or] at nodup
  obtain ⟨⟨ne1, ne2, ne3⟩, ⟨ne4, ne5⟩, ne6, -⟩ := nodup
  refine ⟨ne1, ne2, ne4, fun p1 mem => ⟨?_, ?_, ?_⟩⟩
  · rintro rfl
    exact ne3 mem
  · rintro rfl
    exact ne5 mem
  · rintro rfl
    exact ne6 mem

/-- Nothing else reads the tables. -/
theorem congr (same : ∀ frame ∈ space.tableFrames, ∀ i, T' frame i = T frame i) :
    Laid T' space lowP3 userP2 p1s where
  tableFrames := laid.tableFrames
  isFrame := laid.isFrame
  nodup := laid.nodup
  root := (same _ laid.root_mem 0).trans laid.root
  low := (same _ laid.lowP3_mem 1).trans laid.low
  branches := by
    intro i
    rw [same _ laid.userP2_mem]
    exact laid.branches i
  once := by
    intro i j p1
    rw [same _ laid.userP2_mem, same _ laid.userP2_mem]
    exact laid.once i j p1
  leaves := by
    intro virt p1 inSlot leads
    rw [same _ laid.userP2_mem] at leads
    rw [same _ (laid.p1_mem (laid.mem_of_child leads).1)]
    exact laid.leaves virt p1 inSlot leads
  placed := by
    intro page mem
    rw [same _ laid.userP2_mem]
    exact laid.placed page mem
  virts := laid.virts
  distinct := laid.distinct

theorem virt_inSlot {page : UserPage} (mem : page ∈ space.pages) : InUserSlot page.virt :=
  inUserSlot_of_range (laid.virts page mem).2

omit laid in
/-- The page recorded for an address is the one that contains it. -/
theorem mem_of_pageAt {virt : Nat} {page : UserPage} (found : space.pageAt virt = some page) :
    page ∈ space.pages ∧ page.virt / pageSize4k = virt / pageSize4k :=
  ⟨List.mem_of_find?_eq_some found, by simpa using List.find?_some found⟩

/-- A recorded page is found. -/
theorem pageAt_of_mem {page : UserPage} (mem : page ∈ space.pages) {virt : Nat}
    (same : page.virt / pageSize4k = virt / pageSize4k) : space.pageAt virt = some page := by
  cases found : space.pageAt virt with
  | none =>
      have := List.find?_eq_none.mp found page mem
      simp [same] at this
  | some other =>
      obtain ⟨mem', same'⟩ := mem_of_pageAt found
      have aligned := (laid.virts page mem).1
      have aligned' := (laid.virts other mem').1
      have virts : other.virt = page.virt := by
        simp only [pageSize4k] at *
        omega
      rw [List.inj_on_of_nodup_map laid.distinct mem' mem virts]

/-- Where there is no table there is no page. -/
theorem pageAt_of_absent {virt : Nat} (inSlot : InUserSlot virt)
    (absent : child (T userP2 (p2Index virt)) = none) : space.pageAt virt = none := by
  cases found : space.pageAt virt with
  | none => rfl
  | some page =>
      obtain ⟨mem, same⟩ := mem_of_pageAt found
      have placed := laid.placed page mem
      rw [((laid.virt_inSlot mem).page_eq_iff inSlot).mp same |>.1, absent] at placed
      cases placed

omit laid in
/-- The record calls for a present entry exactly where it has a page. -/
theorem entryPresent_entryAt (space : AddressSpace) (virt : Nat) :
    entryPresent (space.entryAt virt) = (space.pageAt virt).isSome := by
  unfold AddressSpace.entryAt
  cases space.pageAt virt with
  | none => rfl
  | some page =>
      dsimp only
      rw [entryPresent_or, page.permissions.isFlags.present, Bool.or_true]
      rfl

end Laid

/-! ### Growth -/

namespace Laid

variable {T : Nat → Fin 512 → Nat} {space : AddressSpace} {lowP3 userP2 fresh : Nat}
  {p1s : List Nat} (laid : Laid T space lowP3 userP2 p1s) (isFrame : IsFrame fresh)
  (isNew : fresh ∉ space.frames)

include isNew

/-- A frame outside the space can be cleared without touching its tables. -/
theorem fill_table {frame : Nat} (mem : frame ∈ space.tableFrames) (i : Fin 512) :
    fill T fresh 0 frame i = T frame i := by
  apply Lib.Radix.fill_of_ne
  rintro rfl
  exact isNew (mem_frames_of_table mem)

include laid isFrame

/-- A table of pages is added. -/
theorem link {i : Fin 512} (absent : T userP2 i = 0) :
    Laid (set (fill T fresh 0) userP2 i (openEntry fresh))
      { space with tableFrames := space.tableFrames ++ [fresh] } lowP3 userP2 (p1s ++ [fresh]) := by
  obtain ⟨ne1, ne2, ne3, ne4⟩ := laid.apart
  have notUser : ∀ {frame : Nat}, frame ∈ space.tableFrames → frame ≠ userP2 → ∀ j,
      set (fill T fresh 0) userP2 i (openEntry fresh) frame j = T frame j := by
    intro frame mem ne j
    rw [Lib.Radix.set_of_ne fun same => ne same.1, fill_table isNew mem]
  have atUser : ∀ j, set (fill T fresh 0) userP2 i (openEntry fresh) userP2 j =
      if j = i then openEntry fresh else T userP2 j := by
    intro j
    by_cases here : j = i
    · rw [if_pos here, here, Lib.Radix.set_self]
    · rw [if_neg here, Lib.Radix.set_of_ne fun same => here same.2,
        fill_table isNew laid.userP2_mem]
  have notRecorded : fresh ∉ p1s := fun mem =>
    isNew (mem_frames_of_table (laid.p1_mem mem))
  have newTable : fresh ≠ userP2 := by
    rintro rfl
    exact isNew (mem_frames_of_table laid.userP2_mem)
  refine ⟨?_, ?_, ?_, ?_, ?_, ?_, ?_, ?_, ?_, laid.virts, laid.distinct⟩
  · change space.tableFrames ++ [fresh] = _
    rw [laid.tableFrames]
    rfl
  · intro frame mem
    rcases List.mem_cons.mp ((space.frames_addTable fresh).mem_iff.mp mem) with rfl | mem
    · exact isFrame
    · exact laid.isFrame frame mem
  · exact (space.frames_addTable fresh).nodup_iff.mpr (List.nodup_cons.mpr ⟨isNew, laid.nodup⟩)
  · exact (notUser laid.root_mem ne2 0).trans laid.root
  · exact (notUser laid.lowP3_mem ne3 1).trans laid.low
  · intro j
    rw [atUser]
    split
    · exact .inr ⟨fresh, by simp, rfl⟩
    · rcases laid.branches j with absent | ⟨p1, mem, links⟩
      · exact .inl absent
      · exact .inr ⟨p1, List.mem_append_left _ mem, links⟩
  · intro j k p1 leadsJ leadsK
    rw [atUser] at leadsJ leadsK
    split at leadsJ
    · rename_i isI
      rw [child_openEntry isFrame] at leadsJ
      obtain rfl := Option.some.inj leadsJ
      split at leadsK
      · rename_i isI'
        exact isI.trans isI'.symm
      · exact absurd (laid.mem_of_child leadsK).1 notRecorded
    · split at leadsK
      · rw [child_openEntry isFrame] at leadsK
        obtain rfl := Option.some.inj leadsK
        exact absurd (laid.mem_of_child leadsJ).1 notRecorded
      · exact laid.once j k p1 leadsJ leadsK
  · intro virt p1 inSlot leads
    rw [atUser] at leads
    change _ = space.entryAt virt
    split at leads
    · rename_i here
      rw [child_openEntry isFrame] at leads
      obtain rfl := Option.some.inj leads
      rw [Lib.Radix.set_of_ne fun same => newTable same.1, Lib.Radix.fill_self,
        AddressSpace.entryAt, laid.pageAt_of_absent inSlot (by rw [here, absent, child_zero])]
    · have mem := (laid.mem_of_child leads).1
      rw [notUser (laid.p1_mem mem) (ne4 p1 mem).2.2]
      exact laid.leaves virt p1 inSlot leads
  · intro page mem
    rw [atUser]
    split
    · rw [child_openEntry isFrame]
      rfl
    · exact laid.placed page mem

omit laid isFrame isNew in
/-- A new page is found at its own addresses, every other one where it was. -/
theorem pageAt_snoc {virt : Nat} (vacant : space.pageAt virt = none)
    (permissions : UserPagePermissions) (w : Nat) :
    ({ space with pages := space.pages ++ [⟨fresh, virt, permissions⟩] } : AddressSpace).pageAt w =
      if w / pageSize4k = virt / pageSize4k then some ⟨fresh, virt, permissions⟩
      else space.pageAt w := by
  unfold AddressSpace.pageAt at *
  rw [List.find?_append]
  split
  · rename_i same
    rw [same, vacant, Option.none_or]
    simp
  · rename_i other
    have none : List.find? (fun page : UserPage => page.virt / pageSize4k == w / pageSize4k)
        [⟨fresh, virt, permissions⟩] = none := by
      simpa using fun same => other same.symm
    rw [none, Option.or_none]

/-- A page is added. -/
theorem plant {virt p1 : Nat} (virtAligned : virt % pageSize4k = 0)
    (inRange : inUserVirtualRange virt = true)
    (leads : child (T userP2 (p2Index virt)) = some p1) (vacant : space.pageAt virt = none)
    (permissions : UserPagePermissions) :
    Laid (set (fill T fresh 0) p1 (p1Index virt) (fresh ||| permissions.flags))
      { space with pages := space.pages ++ [⟨fresh, virt, permissions⟩] } lowP3 userP2 p1s := by
  obtain ⟨-, -, -, ne4⟩ := laid.apart
  obtain ⟨mem, links⟩ := laid.mem_of_child leads
  obtain ⟨neRoot, neLow, neUser⟩ := ne4 p1 mem
  have inSlot := inUserSlot_of_range inRange
  have elsewhere : ∀ {frame : Nat} {j : Fin 512}, frame ∈ space.tableFrames →
      ¬ (frame = p1 ∧ j = p1Index virt) →
      set (fill T fresh 0) p1 (p1Index virt) (fresh ||| permissions.flags) frame j = T frame j := by
    intro frame j isTable other
    rw [Lib.Radix.set_of_ne other, fill_table isNew isTable]
  have atUser : ∀ j, set (fill T fresh 0) p1 (p1Index virt) (fresh ||| permissions.flags) userP2 j =
      T userP2 j := fun j => elsewhere laid.userP2_mem fun same => neUser same.1.symm
  refine ⟨laid.tableFrames, ?_, ?_, ?_, ?_, ?_, ?_, ?_, ?_, ?_, ?_⟩
  · intro frame isMem
    rcases List.mem_cons.mp ((space.frames_addPage _).mem_iff.mp isMem) with rfl | isMem
    · exact isFrame
    · exact laid.isFrame frame isMem
  · exact (space.frames_addPage _).nodup_iff.mpr (List.nodup_cons.mpr ⟨isNew, laid.nodup⟩)
  · exact (elsewhere laid.root_mem fun same => neRoot same.1.symm).trans laid.root
  · exact (elsewhere laid.lowP3_mem fun same => neLow same.1.symm).trans laid.low
  · intro j
    rw [atUser]
    exact laid.branches j
  · intro j k p1'
    rw [atUser, atUser]
    exact laid.once j k p1'
  · intro w p1' inSlotW leadsW
    rw [atUser] at leadsW
    rw [AddressSpace.entryAt, pageAt_snoc vacant]
    by_cases same : w / pageSize4k = virt / pageSize4k
    · obtain ⟨same2, same1⟩ := (inSlotW.page_eq_iff inSlot).mp same
      rw [same2, leads] at leadsW
      obtain rfl := Option.some.inj leadsW
      rw [if_pos same, same1, Lib.Radix.set_self]
    · rw [if_neg same, elsewhere (laid.p1_mem (laid.mem_of_child leadsW).1)]
      · exact laid.leaves w p1' inSlotW leadsW
      · rintro ⟨rfl, same1⟩
        have same2 := laid.once _ _ _ leadsW leads
        exact same ((inSlotW.page_eq_iff inSlot).mpr ⟨same2, same1⟩)
  · intro page isMem
    rw [atUser]
    rcases List.mem_append.mp isMem with isMem | isMem
    · exact laid.placed page isMem
    · obtain rfl := List.mem_singleton.mp isMem
      change (child (T userP2 (p2Index virt))).isSome = true
      rw [leads]
      rfl
  · intro page isMem
    rcases List.mem_append.mp isMem with isMem | isMem
    · exact laid.virts page isMem
    · obtain rfl := List.mem_singleton.mp isMem
      exact ⟨virtAligned, inRange⟩
  · rw [List.map_append, List.map_cons, List.map_nil]
    refine List.nodup_append.mpr ⟨laid.distinct, List.nodup_singleton _, ?_⟩
    intro v isMem w isNew' same
    obtain ⟨page, isMem, isVirt⟩ := List.mem_map.mp isMem
    have isHere : page.virt = virt := isVirt.trans (same.trans (List.mem_singleton.mp isNew'))
    have found := laid.pageAt_of_mem isMem (congrArg (· / pageSize4k) isHere)
    rw [vacant] at found
    cases found

end Laid

/-! ### Translation -/

/-- The leaf that the record calls for. -/
def AddressSpace.recorded (space : AddressSpace) (virt : Nat) : Option Leaf :=
  (space.pageAt virt).map fun page => ⟨false, page.frame ||| page.permissions.flags⟩

section Reads

variable {m : Memory} {space : AddressSpace} {lowP3 userP2 : Nat} {p1s : List Nat}
  (laid : Laid (tables m) space lowP3 userP2 p1s)

include laid

theorem Laid.entry_root : entry m space.rootFrame 0 = openEntry lowP3 := by
  rw [← tables_of_aligned (laid.isTable laid.root_mem).aligned]
  exact laid.root

theorem Laid.entry_low : entry m lowP3 1 = openEntry userP2 := by
  rw [← tables_of_aligned (laid.isTable laid.lowP3_mem).aligned]
  exact laid.low

end Reads

/-- Within the slot the walk finds what is recorded. -/
theorem Laid.translateFromRoot {m : Memory} {space : AddressSpace} {lowP3 userP2 : Nat}
    {p1s : List Nat} (laid : Laid (tables m) space lowP3 userP2 p1s) {virt : Nat}
    (inSlot : InUserSlot virt) :
    translateFromRoot m space.rootFrame virt = resultOf virt (space.recorded virt) := by
  have isRoot := laid.isTable laid.root_mem
  have isLow := laid.isTable laid.lowP3_mem
  have isUser := laid.isTable laid.userP2_mem
  have root := laid.entry_root
  have low := laid.entry_low
  have reads := tables_of_aligned (m := m) isUser.aligned (p2Index virt)
  unfold Paging.translateFromRoot
  rw [isRoot.tableFromFrame, inSlot.p4Index, inSlot.p3Index]
  dsimp only
  rw [root, entryPresent_openEntry, tableFromEntry_openEntry isLow]
  dsimp only
  rw [low, entryPresent_openEntry, tableFromEntry_openEntry isUser]
  dsimp only
  rw [← reads, entryUser_openEntry, entryUser_openEntry, entryWritable_openEntry,
    entryWritable_openEntry, entryNoExecute_openEntry isLow, entryNoExecute_openEntry isUser]
  unfold AddressSpace.recorded
  rcases laid.branches (p2Index virt) with absent | ⟨p1, mem, links⟩
  · have vacant := laid.pageAt_of_absent inSlot (by rw [absent, child_zero])
    rw [absent, vacant]
    rfl
  · have isP1 := laid.isTable (laid.p1_mem mem)
    have leads : child (tables m userP2 (p2Index virt)) = some p1 := by
      rw [links, child_openEntry isP1]
    have reads1 := laid.leaves virt p1 inSlot leads
    have present := Laid.entryPresent_entryAt space virt
    rw [tables_of_aligned isP1.aligned] at reads1
    rw [links, entryPresent_openEntry, entryHuge_openEntry isP1, tableFromEntry_openEntry isP1]
    dsimp only
    rw [reads1, present, entryUser_openEntry, entryWritable_openEntry,
      entryNoExecute_openEntry isP1]
    unfold AddressSpace.entryAt
    cases space.pageAt virt with
    | none => rfl
    | some page => simp [resultOf, Leaf.result]

end CloudOS.Paging
