import CloudOS.Paging.Grow

/-!
Making an address space from the boot tables, and giving its frames back.
-/

namespace CloudOS.Paging

open Lib.Radix (node set fill)
open CloudOS.PhysMem (FrameSource)

variable {source : FrameSource} {s s' s'' : Machine source} {space space' : AddressSpace}

/-- Nothing that anybody holds is touched. -/
abbrev Apart (s s' : Machine source) : Prop := Confined (fun _ => False) s s'

/-- What is held stays held. -/
theorem Apart.held (apart : Apart s s') {frame : Nat} (held : s.Held frame) : s'.Held frame :=
  Confined.held apart frame held not_false

/-! ### Giving frames back -/

/-- Giving frames back writes no memory. -/
theorem freeAll_sameOutside (s : Machine source) (frames : List Nat) :
    Machine.SameOutside s (AddressSpace.freeAll s frames).2.2 := by
  induction frames generalizing s with
  | nil => exact ⟨rfl, rfl, rfl, rfl⟩
  | cons frame frames ih =>
      obtain ⟨memory, initialized, mapper, stats⟩ := ih (s.freeFrame frame).2
      exact ⟨memory, initialized, mapper, stats⟩

theorem freeAll_held (s : Machine source) (frames : List Nat) {x : Nat} (other : x ∉ frames) :
    (AddressSpace.freeAll s frames).2.2.Held x ↔ s.Held x := by
  induction frames generalizing s with
  | nil => exact Iff.rfl
  | cons frame frames ih =>
      rw [List.mem_cons, not_or] at other
      exact (ih (s.freeFrame frame).2 other.2).trans (s.freeFrame_held frame other.1)

/-- A destroyed space leaves the frames of others alone. -/
theorem destroy_confined {cr3 : Nat} {result : Except AddressSpaceError CleanupReport}
    (destroys : space.destroy s cr3 = (result, space', s')) :
    (space' = space ∧ s' = s) ∨
      space.active = true ∧ space' = .empty ∧ Confined (· ∈ space.frames) s s' := by
  unfold AddressSpace.destroy at destroys
  split_ifs at destroys with inactive
  · obtain ⟨-, rfl, rfl⟩ : _ ∧ space = space' ∧ s = s' := by simpa using destroys
    exact .inl ⟨rfl, rfl⟩
  · obtain ⟨-, rfl, rfl⟩ : _ ∧ space = space' ∧ s = s' := by simpa using destroys
    exact .inl ⟨rfl, rfl⟩
  · have pages := freeAll_sameOutside s (space.pages.map UserPage.frame)
    have pagesHeld : ∀ {x}, x ∉ space.pages.map UserPage.frame → _ :=
      fun other => freeAll_held s _ other
    generalize AddressSpace.freeAll s (space.pages.map UserPage.frame) = first at *
    obtain ⟨userFreed, userComplete, s₁⟩ := first
    dsimp only at destroys pages pagesHeld
    have tableFrames := freeAll_sameOutside s₁ space.tableFrames.reverse
    have tableFramesHeld : ∀ {x}, x ∉ space.tableFrames.reverse → _ :=
      fun other => freeAll_held s₁ _ other
    generalize AddressSpace.freeAll s₁ space.tableFrames.reverse = second at *
    obtain ⟨tableFreed, tableComplete, s₂⟩ := second
    dsimp only at destroys tableFrames tableFramesHeld
    obtain ⟨-, rest⟩ := Prod.mk.inj destroys
    obtain ⟨rfl, isState⟩ := Prod.mk.inj rest
    have sameFrames : s'.frames = s₂.frames := by rw [← isState]
    have sameMemory : s'.memory = s.memory := by
      rw [← isState]
      exact tableFrames.memory.trans pages.memory
    rw [Bool.not_eq_true', Bool.not_eq_false] at inactive
    refine .inr ⟨inactive, rfl, ?_, fun frame a _ _ _ _ _ => congrFun sameMemory a, ?_⟩
    · intro x held other
      have notPage : x ∉ space.pages.map UserPage.frame := fun mem =>
        other (List.mem_append_right _ mem)
      have notTable : x ∉ space.tableFrames.reverse := fun mem =>
        other (List.mem_append_left _ (List.mem_reverse.mp mem))
      rw [Machine.Held, sameFrames]
      exact (tableFramesHeld notTable).mpr ((pagesHeld notPage).mpr held)
    · rw [← isState]
      exact tableFrames.initialized.trans pages.initialized

/-! ### New tables -/

/-- A space under construction: its tables are frames that were available. -/
structure Building (s : Machine source) (space : AddressSpace) (s' : Machine source) : Prop where
  apart : Apart s s'
  fresh : ∀ frame ∈ space.tableFrames, ¬ s.Held frame ∧ s'.Held frame ∧ IsFrame frame
  nodup : space.tableFrames.Nodup
  pages : space.pages = []
  draws : source.Draws s.frames space.tableFrames s'.frames

theorem Building.empty (s : Machine source) : Building s .empty s :=
  ⟨.refl _ s, fun _ mem => absurd mem List.not_mem_nil, List.nodup_nil, rfl, .done _⟩

/-- `allocate_table_frame` for a space under construction. -/
theorem Building.allocateTableFrame (building : Building s space s')
    {result : Except AddressSpaceError Nat}
    (allocates : space.allocateTableFrame s' = (result, space', s'')) :
    Building s space' s'' ∧ ∀ frame, result = .ok frame → IsFrame frame ∧ ¬ s'.Held frame ∧
      space' = { space with tableFrames := space.tableFrames ++ [frame] } ∧
      s''.memory = zeroFrame s'.memory frame := by
  unfold AddressSpace.allocateTableFrame at allocates
  split_ifs at allocates
  · obtain ⟨rfl, rfl, rfl⟩ : _ ∧ space = space' ∧ s' = s'' := by simpa using allocates
    exact ⟨building, fun _ ok => by cases ok⟩
  · cases takes : s'.allocateZeroedFrame with
    | mk answer s₁ =>
    rw [takes] at allocates
    cases answer with
    | error error =>
        obtain ⟨rfl, rfl, rfl⟩ : .error error = result ∧ space = space' ∧ s₁ = s'' := by
          simpa using allocates
        obtain ⟨outside, held⟩ := Machine.allocateZeroedFrame_error takes
        have draws := building.draws.trans (Machine.allocateZeroedFrame_draws takes)
        refine ⟨⟨building.apart.trans (.of_sameOutside outside held), fun frame mem => ?_,
          building.nodup, building.pages, List.append_nil space.tableFrames ▸ draws⟩,
          fun _ ok => by cases ok⟩
        obtain ⟨isFresh, heldFrame, isFrame⟩ := building.fresh frame mem
        exact ⟨isFresh, held frame heldFrame, isFrame⟩
    | ok fresh =>
        obtain ⟨rfl, rest⟩ := Prod.mk.inj allocates
        obtain ⟨rfl, rfl⟩ := Prod.mk.inj rest
        obtain ⟨isFrame, isFresh, held, memory, initialized⟩ := Machine.allocateZeroedFrame_ok takes
        have notYet : fresh ∉ space.tableFrames := fun mem =>
          isFresh (building.fresh fresh mem).2.1
        refine ⟨⟨building.apart.trans (.of_cleared isFrame isFresh held memory initialized), ?_, ?_,
          building.pages, building.draws.trans (Machine.allocateZeroedFrame_draws takes)⟩, ?_⟩
        · intro frame mem
          rcases List.mem_append.mp mem with mem | mem
          · obtain ⟨wasFresh, heldFrame, isFrame'⟩ := building.fresh frame mem
            exact ⟨wasFresh, (held frame).mpr (.inr heldFrame), isFrame'⟩
          · obtain rfl := List.mem_singleton.mp mem
            exact ⟨fun heldBefore => isFresh (building.apart.held heldBefore),
              (held frame).mpr (.inl rfl), isFrame⟩
        · refine List.nodup_append.mpr ⟨building.nodup, List.nodup_singleton _, ?_⟩
          intro x mem y mem' same
          obtain rfl := List.mem_singleton.mp mem'
          exact notYet (same ▸ mem)
        · intro frame ok
          obtain rfl := Except.ok.inj ok
          exact ⟨isFrame, isFresh, rfl, memory⟩

/-- With room in the record and a frame in supply, a table is made. -/
theorem allocateTableFrame_supplied {n : Nat}
    (room : space.tableFrames.length < maxProcessTableFrames)
    (enough : supplies source (n + 1) s.frames = true) :
    ∃ frame s', space.allocateTableFrame s =
        (.ok frame, { space with tableFrames := space.tableFrames ++ [frame] }, s') ∧
      supplies source n s'.frames = true := by
  obtain ⟨frame, s', allocates, rest⟩ := Machine.allocateZeroedFrame_supplied enough
  refine ⟨frame, s', ?_, rest⟩
  rw [AddressSpace.allocateTableFrame, if_neg (by omega), allocates]

/-- An allocation with room in the record that failed was not supplied. -/
theorem supplied_of_allocateTableFrame {n : Nat} {result : Except AddressSpaceError Nat}
    (room : space.tableFrames.length < maxProcessTableFrames)
    (allocates : space.allocateTableFrame s = (result, space', s'))
    (enough : supplies source (n + 1) s.frames = true) :
    (∀ error, result ≠ .error error) ∧ supplies source n s'.frames = true := by
  obtain ⟨frame, s₁, allocates', rest⟩ := allocateTableFrame_supplied room enough
  rw [allocates] at allocates'
  obtain ⟨rfl, same⟩ := Prod.mk.inj allocates'
  obtain ⟨-, rfl⟩ := Prod.mk.inj same
  exact ⟨fun _ failed => (by cases failed), rest⟩

/-- Writes into a table under construction. -/
theorem Building.write (building : Building s space s') {table : Nat}
    (mem : table ∈ space.tableFrames)
    (s'' : Machine source) (frames : s''.frames = s'.frames)
    (memory : ∀ a, a < table ∨ table + pageSize4k ≤ a → s''.memory a = s'.memory a)
    (initialized : s''.initialized = s'.initialized) : Building s space s'' := by
  obtain ⟨isFresh, -, isFrame⟩ := building.fresh table mem
  have sameHeld : ∀ x, s''.Held x ↔ s'.Held x := by
    intro x
    rw [Machine.Held, Machine.Held, frames]
  refine ⟨⟨fun x held other => ?_, ?_, initialized.trans building.apart.initialized⟩, ?_,
    building.nodup, building.pages, frames ▸ building.draws⟩
  · exact (sameHeld x).mpr (Confined.held building.apart x held other)
  · intro frame a aligned held other from_ below
    have different : frame ≠ table := by
      rintro rfl
      exact isFresh held
    rw [memory a (apart_of_ne aligned isFrame.aligned different from_ below)]
    exact building.apart.untouched frame a aligned held other from_ below
  · intro frame mem'
    obtain ⟨wasFresh, heldFrame, isFrame'⟩ := building.fresh frame mem'
    exact ⟨wasFresh, (sameHeld frame).mpr heldFrame, isFrame'⟩

/-- A table under construction may be written. -/
theorem Building.store (building : Building s space s') {table : Nat}
    (mem : table ∈ space.tableFrames) (i : Fin 512) (value : Nat) :
    Building s space (s'.store table i value) :=
  building.write mem _ rfl (fun _ outside => s'.store_memory_of_outside i value outside) rfl

theorem Building.copy (building : Building s space s') {table : Nat}
    (mem : table ∈ space.tableFrames) (other : Nat) :
    Building s space { s' with memory := copyTable s'.memory table other } :=
  building.write mem _ rfl (fun _ outside => Lib.Store.copy_of_outside outside) rfl

/-- A new space: copies of the boot tables, but for the way to the user region. -/
structure Created (boot : BootTables) (s : Machine source) (space : AddressSpace)
    (lowP3 userP2 : Nat) (s' : Machine source) : Prop where
  owns : Owns s' space lowP3 userP2 []
  fresh : ∀ frame ∈ space.frames, ¬ s.Held frame
  root : ∀ i, i ≠ 0 → tables s'.memory space.rootFrame i = tables s.memory boot.p4 i
  low : ∀ j, j ≠ 1 → tables s'.memory lowP3 j = tables s.memory boot.p3 j
  pages : space.pages = []
  draws : source.Draws s.frames space.frames s'.frames

section Setup

variable {boot : BootTables}

/-- The tables after both copies and both new entries. -/
theorem setup_tables {T : Nat → Fin 512 → Nat} {root lowP3 userP2 p4 p3 : Nat}
    (nodup : [root, lowP3, userP2].Nodup) (copied : p4 ∉ [root, lowP3, userP2])
    (copiedLow : p3 ∉ [root, lowP3, userP2]) {T' : Nat → Fin 512 → Nat}
    (eq : T' = set (set (Function.update (Function.update
      (fill (fill (fill T root 0) lowP3 0) userP2 0) root
        (fill (fill (fill T root 0) lowP3 0) userP2 0 p4)) lowP3
      (Function.update (fill (fill (fill T root 0) lowP3 0) userP2 0) root
        (fill (fill (fill T root 0) lowP3 0) userP2 0 p4) p3)) root 0 (openEntry lowP3))
      lowP3 1 (openEntry userP2)) :
    (∀ i, T' root i = if i = 0 then openEntry lowP3 else T p4 i) ∧
      (∀ j, T' lowP3 j = if j = 1 then openEntry userP2 else T p3 j) ∧ ∀ i, T' userP2 i = 0 := by
  simp only [List.nodup_cons, List.mem_cons, List.not_mem_nil, or_false, not_or,
    not_false_eq_true] at nodup copied copiedLow
  obtain ⟨⟨ne1, ne2⟩, ne3, -⟩ := nodup
  obtain ⟨ne4, ne5, ne6⟩ := copied
  obtain ⟨ne7, ne8, ne9⟩ := copiedLow
  have filled : ∀ {f : Nat}, f ≠ root → f ≠ lowP3 → f ≠ userP2 →
      fill (fill (fill T root 0) lowP3 0) userP2 0 f = T f := by
    intro f neRoot neLow neUser
    funext i
    rw [Lib.Radix.fill_of_ne neUser, Lib.Radix.fill_of_ne neLow, Lib.Radix.fill_of_ne neRoot]
  rw [filled ne4 ne5 ne6, Function.update_of_ne ne7, filled ne7 ne8 ne9] at eq
  subst eq
  refine ⟨fun i => ?_, fun j => ?_, fun i => ?_⟩
  · rw [Lib.Radix.set_of_ne fun same => ne1 same.1]
    split
    · rename_i zero
      rw [zero, Lib.Radix.set_self]
    · rename_i other
      rw [Lib.Radix.set_of_ne fun same => other same.2, Function.update_of_ne ne1,
        Function.update_self]
  · split
    · rename_i one
      rw [one, Lib.Radix.set_self]
    · rename_i other
      rw [Lib.Radix.set_of_ne fun same => other same.2,
        Lib.Radix.set_of_ne fun same => ne1 same.1.symm, Function.update_self]
  · rw [Lib.Radix.set_of_ne fun same => ne3 same.1.symm,
      Lib.Radix.set_of_ne fun same => ne2 same.1.symm, Function.update_of_ne (Ne.symm ne3),
      Function.update_of_ne (Ne.symm ne2), Lib.Radix.fill_self]

/-- The three tables of a new space: a root and a low table like those of the boot tree but for
one entry each, and an empty user table. -/
theorem BootTables.Sound.setup (sound : boot.Sound s)
    (leads : child (tables s.memory boot.p4 0) = some boot.p3)
    {result : Except AddressSpaceError Unit}
    (sets : AddressSpace.setup boot s = (result, space, s')) :
    Building s space s' ∧ (result = .ok () → ∃ lowP3 userP2,
      space.tableFrames = [space.rootFrame, lowP3, userP2] ∧
      (∀ i, tables s'.memory space.rootFrame i =
        if i = 0 then openEntry lowP3 else tables s.memory boot.p4 i) ∧
      (∀ j, tables s'.memory lowP3 j =
        if j = 1 then openEntry userP2 else tables s.memory boot.p3 j) ∧
      ∀ i, tables s'.memory userP2 i = 0) ∧
    ∀ n, supplies source (n + 3) s.frames = true →
      result = .ok () ∧ supplies source n s'.frames = true := by
  unfold AddressSpace.setup at sets
  cases step1 : AddressSpace.empty.allocateTableFrame s with
  | mk result1 rest1 =>
  obtain ⟨space1, s₁⟩ := rest1
  obtain ⟨building1, taken1⟩ := (Building.empty s).allocateTableFrame step1
  rw [step1] at sets
  cases result1 with
  | error error =>
      obtain ⟨rfl, rfl, rfl⟩ : .error error = result ∧ space1 = space ∧ s₁ = s' := by
        simpa using sets
      refine ⟨building1, fun ok => (by cases ok), fun n enough => ?_⟩
      exact absurd rfl ((supplied_of_allocateTableFrame (by decide) step1 enough).1 error)
  | ok root =>
  obtain ⟨isRoot, -, rfl, memory1⟩ := taken1 root rfl
  dsimp only at sets
  have building1 : Building s ⟨root, [root], [], false⟩ s₁ :=
    ⟨building1.apart, building1.fresh, building1.nodup, building1.pages, building1.draws⟩
  cases step2 : AddressSpace.allocateTableFrame ⟨root, [root], [], false⟩ s₁ with
  | mk result2 rest2 =>
  obtain ⟨space2, s₂⟩ := rest2
  obtain ⟨building2, taken2⟩ := building1.allocateTableFrame step2
  simp only [AddressSpace.empty, List.nil_append] at sets
  rw [step2] at sets
  cases result2 with
  | error error =>
      obtain ⟨rfl, rfl, rfl⟩ : .error error = result ∧ space2 = space ∧ s₂ = s' := by
        simpa using sets
      refine ⟨building2, fun ok => (by cases ok), fun n enough => ?_⟩
      have enough1 := (supplied_of_allocateTableFrame (by decide) step1 enough).2
      exact absurd rfl ((supplied_of_allocateTableFrame (by simp) step2 enough1).1 error)
  | ok lowP3 =>
  obtain ⟨isLow, -, rfl, memory2⟩ := taken2 lowP3 rfl
  dsimp only at sets
  cases step3 : AddressSpace.allocateTableFrame ⟨root, [root] ++ [lowP3], [], false⟩ s₂ with
  | mk result3 rest3 =>
  obtain ⟨space3, s₃⟩ := rest3
  obtain ⟨building3, taken3⟩ := building2.allocateTableFrame step3
  rw [step3] at sets
  cases result3 with
  | error error =>
      obtain ⟨rfl, rfl, rfl⟩ : .error error = result ∧ space3 = space ∧ s₃ = s' := by
        simpa using sets
      refine ⟨building3, fun ok => (by cases ok), fun n enough => ?_⟩
      have enough1 := (supplied_of_allocateTableFrame (by decide) step1 enough).2
      have enough2 := (supplied_of_allocateTableFrame (by simp) step2 enough1).2
      have failed := supplied_of_allocateTableFrame (by simp [maxProcessTableFrames]) step3 enough2
      exact absurd rfl (failed.1 error)
  | ok userP2 =>
  obtain ⟨isUser, -, rfl, memory3⟩ := taken3 userP2 rfl
  dsimp only at sets
  rw [isRoot.tableFromFrame] at sets
  dsimp only at sets
  -- the frames of the boot tables are not among the new ones
  have old : ∀ {frame : Nat}, boot.Has s frame → frame ∉ [root, lowP3, userP2] :=
    fun has mem => (building3.fresh _ mem).1 (sound.held _ has)
  have oldP4 := old (BootTables.has_root s)
  have oldP3 : boot.p3 ∉ [root, lowP3, userP2] :=
    old ⟨[0], by simp, by rw [Lib.Radix.node, leads]; rfl⟩
  have cleared : tables s₃.memory =
      fill (fill (fill (tables s.memory) root 0) lowP3 0) userP2 0 := by
    rw [memory3, tables_clear isUser.aligned, memory2, tables_clear isLow.aligned, memory1,
      tables_clear isRoot.aligned]
  have copied : tables (copyTable s₃.memory root boot.p4) =
      Function.update (tables s₃.memory) root (tables s₃.memory boot.p4) :=
    tables_copy isRoot.aligned boot.isFrame.aligned
  have copiedLow : tables (copyTable (copyTable s₃.memory root boot.p4) lowP3 boot.p3) = _ :=
    tables_copy isLow.aligned boot.isFrame_p3.aligned
  simp only [List.mem_cons, List.not_mem_nil, or_false, not_or] at oldP4
  have sameEntry : entry (copyTable s₃.memory root boot.p4) boot.p4 0 =
      tables s.memory boot.p4 0 := by
    rw [← tables_of_aligned boot.isFrame.aligned, copied, Function.update_of_ne oldP4.1, cleared,
      Lib.Radix.fill_of_ne oldP4.2.2, Lib.Radix.fill_of_ne oldP4.2.1,
      Lib.Radix.fill_of_ne oldP4.1]
  rw [sameEntry, (present_of_child leads).2.2] at sets
  dsimp only at sets
  rw [isLow.tableFromFrame] at sets
  dsimp only at sets
  obtain ⟨rfl, rest⟩ := Prod.mk.inj sets
  obtain ⟨rfl, rfl⟩ := Prod.mk.inj rest
  have rootMem : root ∈ [root] ++ [lowP3] ++ [userP2] := by simp
  have lowMem : lowP3 ∈ [root] ++ [lowP3] ++ [userP2] := by simp
  refine ⟨?_, fun _ => ⟨lowP3, userP2, rfl, ?_⟩, fun n enough => ⟨rfl, ?_⟩⟩
  · exact (((building3.copy rootMem boot.p4).copy lowMem boot.p3).store rootMem 0 _).store lowMem
      (p3Index userSpaceBase) _
  · have isOne : p3Index userSpaceBase = 1 := by decide
    refine setup_tables building3.nodup (by simpa using oldP4) oldP3 ?_
    change tables (setEntry (setEntry (copyTable (copyTable s₃.memory root boot.p4) lowP3 boot.p3)
      root 0 (openEntry lowP3)) lowP3 (p3Index userSpaceBase) (openEntry userP2)) = _
    rw [tables_store isLow.aligned (openEntry_lt isUser),
      tables_store isRoot.aligned (openEntry_lt isLow), copiedLow, copied, cleared, isOne]
  · have enough1 := (supplied_of_allocateTableFrame (by decide) step1 enough).2
    have enough2 := (supplied_of_allocateTableFrame (by simp) step2 enough1).2
    exact (supplied_of_allocateTableFrame (by simp [maxProcessTableFrames]) step3 enough2).2

/-- `create` makes a space of its own, or gives everything back. -/
theorem BootTables.Sound.create (sound : boot.Sound s)
    (leads : child (tables s.memory boot.p4 0) = some boot.p3)
    {result : Except AddressSpaceError AddressSpace}
    (creates : AddressSpace.create boot s = (result, s')) :
    Apart s s' ∧ ∀ space, result = .ok space → space.active = true ∧
      ∃ lowP3 userP2, Created boot s space lowP3 userP2 s' := by
  unfold AddressSpace.create at creates
  split_ifs at creates
  · obtain ⟨rfl, rfl⟩ := Prod.mk.inj creates
    exact ⟨.refl _ s, fun _ ok => by cases ok⟩
  · cases sets : AddressSpace.setup boot s with
    | mk answer rest =>
    obtain ⟨space, s₁⟩ := rest
    obtain ⟨building, done, -⟩ := sound.setup leads sets
    rw [sets] at creates
    cases answer with
    | error error =>
        obtain ⟨rfl, rfl⟩ := Prod.mk.inj creates
        have same := freeAll_sameOutside s₁ space.tableFrames.reverse
        refine ⟨⟨fun x held other => ?_, ?_, same.initialized.trans building.apart.initialized⟩,
          fun _ ok => by cases ok⟩
        · have notTable : x ∉ space.tableFrames.reverse := fun mem =>
            (building.fresh x (List.mem_reverse.mp mem)).1 held
          exact (freeAll_held s₁ _ notTable).mpr (building.apart.held held)
        · intro frame a aligned held other from_ below
          rw [same.memory]
          exact building.apart.untouched frame a aligned held other from_ below
    | ok done' =>
        obtain ⟨rfl, isState⟩ := Prod.mk.inj creates
        obtain ⟨lowP3, userP2, tableFrames, root, low, user⟩ := done rfl
        have frames : s'.frames = s₁.frames := by rw [← isState]
        have memory : s'.memory = s₁.memory := by rw [← isState]
        have initialized : s'.initialized = s₁.initialized := by rw [← isState]
        have held : ∀ x, s'.Held x ↔ s₁.Held x := by
          intro x
          rw [Machine.Held, Machine.Held, frames]
        refine ⟨⟨fun x heldX other => (held x).mpr (Confined.held building.apart x heldX other), ?_,
          initialized.trans building.apart.initialized⟩, fun space' ok => ?_⟩
        · intro frame a aligned heldFrame other from_ below
          rw [memory]
          exact building.apart.untouched frame a aligned heldFrame other from_ below
        · obtain rfl := Except.ok.inj ok
          have allFrames : ({ space with active := true } : AddressSpace).frames =
              space.tableFrames := by
            simp only [AddressSpace.frames, building.pages, List.map_nil, List.append_nil]
          have noPage : ∀ virt, ({ space with active := true } : AddressSpace).pageAt virt =
              none := by
            intro virt
            rw [AddressSpace.pageAt, building.pages]
            rfl
          refine ⟨rfl, lowP3, userP2,
            ⟨⟨⟨tableFrames, ?_, ?_, ?_, ?_, ?_, ?_, ?_, ?_, ?_, ?_⟩, ?_⟩, ?_, ?_,
            ?_, building.pages, ?_⟩⟩
          · rw [allFrames]
            exact fun frame mem => (building.fresh frame mem).2.2
          · rw [allFrames]
            exact building.nodup
          · rw [memory]
            exact (root 0).trans (if_pos rfl)
          · rw [memory]
            exact (low 1).trans (if_pos rfl)
          · rw [memory]
            exact fun i => .inl (user i)
          · rw [memory]
            intro i j p1 leadsI
            rw [user i, child_zero] at leadsI
            cases leadsI
          · rw [memory]
            intro virt p1 _ leadsV
            rw [user, child_zero] at leadsV
            cases leadsV
          · rw [building.pages]
            exact fun page mem => absurd mem List.not_mem_nil
          · rw [building.pages]
            exact fun page mem => absurd mem List.not_mem_nil
          · rw [building.pages]
            exact List.nodup_nil
          · rw [allFrames]
            exact fun frame mem => (held frame).mpr (building.fresh frame mem).2.1
          · rw [allFrames]
            exact fun frame mem => (building.fresh frame mem).1
          · intro i other
            rw [memory]
            exact (root i).trans (if_neg other)
          · intro j other
            rw [memory]
            exact (low j).trans (if_neg other)
          · rw [allFrames, frames]
            exact building.draws

/-- With three frames in supply `create` succeeds. -/
theorem BootTables.Sound.create_supplied (sound : boot.Sound s)
    (leads : child (tables s.memory boot.p4 0) = some boot.p3) (initialized : s.initialized = true)
    {n : Nat} (enough : supplies source (n + 3) s.frames = true) :
    ∃ space s', AddressSpace.create boot s = (.ok space, s') ∧
      supplies source n s'.frames = true := by
  cases sets : AddressSpace.setup boot s with
  | mk result rest =>
  obtain ⟨space, s₁⟩ := rest
  obtain ⟨-, -, supplied⟩ := sound.setup leads sets
  obtain ⟨rfl, enough'⟩ := supplied n enough
  rw [AddressSpace.create, initialized, sets]
  exact ⟨_, _, rfl, enough'⟩

end Setup

end CloudOS.Paging
