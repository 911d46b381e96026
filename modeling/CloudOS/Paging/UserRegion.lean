import CloudOS.Paging.Secluded

/-!
What an address space lets user code reach, in every state of memory that the kernel
and user code can bring about: the pages it has recorded, and nothing else.
-/

namespace CloudOS.Paging

open Lib.Store (Memory)
open CloudOS.PhysMem (FrameSource)

variable {source : FrameSource} {boot : BootTables} {s s' : Machine source} {w : World source}

/-! ### Runs with stores between the operations -/

namespace World

/-- The byte belongs to a boot table, or to a table of a space in use. -/
def InTable (boot : BootTables) (w : World source) (a : Nat) : Prop :=
  ∃ frame, (boot.Has w.machine frame ∨ ∃ k space, w.Active k space ∧ frame ∈ space.tableFrames) ∧
    frame ≤ a ∧ a < frame + pageSize4k

/-- The worlds that a run reaches. Between two operations anything may be stored in
memory that is not part of a table. -/
inductive Reachable (boot : BootTables) : World source → Prop
  | first (s : Machine source) : Reachable boot (first boot s)
  | step {w : World source} (reachable : Reachable boot w) (op : SpaceOp) :
      Reachable boot (w.step boot op)
  | write {w : World source} (reachable : Reachable boot w) (memory : Memory)
      (elsewhere : ∀ a, w.InTable boot a → memory a = w.machine.memory a) :
      Reachable boot ⟨{ w.machine with memory }, w.spaces⟩

/-- Coherent, and no entry leads user code out of the user region. -/
structure Closed (boot : BootTables) (w : World source) : Prop where
  coherent : Coherent boot w
  upper : Upper boot w.machine
  boot : Secluded (tables w.machine.memory) boot.p4 boot.p3
  spaces : ∀ k space, w.Active k space → ∃ lowP3 userP2 p1s,
    Owns w.machine space lowP3 userP2 p1s ∧
      Secluded (tables w.machine.memory) space.rootFrame lowP3

end World

/-- The space `space'` is `space` with the same two topmost tables. -/
structure KeepsUpper (s : Machine source) (space : AddressSpace) (s' : Machine source)
    (space' : AddressSpace) : Prop where
  rootFrame : space'.rootFrame = space.rootFrame
  tables : ∀ {lowP3 userP2 : Nat} {p1s : List Nat}, Owns s space lowP3 userP2 p1s →
    (∃ p1s', Owns s' space' lowP3 userP2 p1s') ∧
    (∀ i, Paging.tables s'.memory space.rootFrame i = Paging.tables s.memory space.rootFrame i) ∧
      ∀ j, Paging.tables s'.memory lowP3 j = Paging.tables s.memory lowP3 j

/-- Work on other frames leaves the upper entries of the space alone. -/
theorem KeepsUpper.of_confined {own : Nat → Prop} {space : AddressSpace}
    (confined : Confined own s s') (apart : ∀ frame ∈ space.frames, ¬ own frame) :
    KeepsUpper s space s' space := by
  refine ⟨rfl, fun {lowP3 userP2 p1s} owns => ?_⟩
  obtain ⟨owns', same⟩ := owns.confined confined apart
  exact ⟨⟨p1s, owns'⟩, same _ owns.laid.root_mem, same _ owns.laid.lowP3_mem⟩

namespace World

/-- A space after an operation has kept its two topmost tables, or is a new one. -/
theorem Coherent.active_cases (coherent : Coherent boot w) (op : SpaceOp) {k : Nat}
    {space' : AddressSpace} (active : (w.step boot op).Active k space') :
    (∃ space, w.Active k space ∧ KeepsUpper w.machine space (w.step boot op).machine space') ∨
      ∃ lowP3 userP2, Created boot w.machine space' lowP3 userP2 (w.step boot op).machine := by
  have unchanged : w.step boot op = w → ∃ space, w.Active k space ∧
      KeepsUpper w.machine space (w.step boot op).machine space' := by
    intro same
    rw [same] at active ⊢
    exact ⟨space', active, .of_confined (.refl (fun _ => False) _) fun _ _ => not_false⟩
  cases op with
  | boot call =>
      have evolves := (run_effect coherent.sound call).evolves
      exact .inl ⟨space', active, .of_confined evolves.confined (coherent.offBoot k space' active)⟩
  | create =>
      cases creates : AddressSpace.create boot w.machine with
      | mk result s' =>
      obtain ⟨apart, done⟩ := coherent.sound.create coherent.low creates
      cases result with
      | error error =>
          rw [World.step, creates] at active ⊢
          exact .inl ⟨space', active, .of_confined apart fun _ _ => not_false⟩
      | ok created =>
          obtain ⟨-, lowP3, userP2, made⟩ := done created rfl
          rw [World.step, creates] at active ⊢
          obtain ⟨found, isActive⟩ := active
          dsimp only at found
          rcases Nat.lt_or_ge k w.spaces.length with old | new
          · rw [List.getElem?_append_left old] at found
            exact .inl ⟨space', ⟨found, isActive⟩, .of_confined apart fun _ _ => not_false⟩
          · rw [List.getElem?_append_right new, List.getElem?_singleton] at found
            split at found
            · obtain rfl := Option.some.inj found
              exact .inr ⟨lowP3, userP2, made⟩
            · cases found
  | mapUserPage j virt permissions =>
      refine .inl ?_
      cases found : w.spaces[j]? with
      | none => exact unchanged (by rw [World.step, found])
      | some changed =>
      cases maps : changed.mapUserPage w.machine virt permissions with
      | mk result rest =>
      obtain ⟨changed', s'⟩ := rest
      rw [step_mapUserPage found maps] at active ⊢
      cases isActive : changed.active with
      | false =>
          rw [AddressSpace.mapUserPage, isActive] at maps
          obtain ⟨-, rfl, rfl⟩ : _ ∧ changed = changed' ∧ w.machine = s' := by simpa using maps
          rcases active_set active with ⟨rfl, rfl⟩ | ⟨-, active⟩
          · exact ⟨space', ⟨found, active.2⟩, .of_confined (.refl (fun _ => False) _)
              fun _ _ => not_false⟩
          · exact ⟨space', active, .of_confined (.refl (fun _ => False) _) fun _ _ => not_false⟩
      | true =>
          obtain ⟨-, lowP3, userP2, p1s, owns⟩ := coherent.owns j changed ⟨found, isActive⟩
          have grows := (owns.mapUserPage maps).grows
          rcases active_set active with ⟨rfl, rfl⟩ | ⟨other, active⟩
          · refine ⟨changed, ⟨found, isActive⟩, grows.rootFrame, fun owns => ?_⟩
            have grows := (owns.mapUserPage maps).grows
            exact ⟨grows.owns, fun i => (grows.upper i).1, fun i => (grows.upper i).2⟩
          · exact ⟨space', active, .of_confined grows.confined
              (coherent.apart k j space' changed other active ⟨found, isActive⟩)⟩
  | destroy j activeCr3 =>
      refine .inl ?_
      cases found : w.spaces[j]? with
      | none => exact unchanged (by rw [World.step, found])
      | some changed =>
      cases destroys : changed.destroy w.machine activeCr3 with
      | mk result rest =>
      obtain ⟨changed', s'⟩ := rest
      rw [step_destroy found destroys] at active ⊢
      rcases destroy_confined destroys with ⟨rfl, rfl⟩ | ⟨isActive, rfl, confined⟩
      · rcases active_set active with ⟨rfl, rfl⟩ | ⟨-, active⟩
        · exact ⟨space', ⟨found, active.2⟩, .of_confined (.refl (fun _ => False) _)
            fun _ _ => not_false⟩
        · exact ⟨space', active, .of_confined (.refl (fun _ => False) _) fun _ _ => not_false⟩
      · rcases active_set active with ⟨-, rfl⟩ | ⟨other, active⟩
        · cases active.2
        · exact ⟨space', active, .of_confined confined
            (coherent.apart k j space' changed other active ⟨found, isActive⟩)⟩

theorem Closed.step (closed : Closed boot w) (op : SpaceOp) : Closed boot (w.step boot op) := by
  refine ⟨closed.coherent.step op, closed.coherent.upper_step closed.upper op, ?_,
    fun k space' active => ?_⟩
  · by_cases onBoot : ∃ call, op = .boot call
    · obtain ⟨call, rfl⟩ := onBoot
      exact closed.boot.call closed.coherent.sound closed.upper
    · obtain ⟨own, confined, offBoot, -⟩ :=
        closed.coherent.step_confined op fun call same => onBoot ⟨call, same⟩
      obtain ⟨sameRoot, sameLow⟩ := closed.coherent.upper_of_confined confined offBoot
      exact closed.boot.congr sameRoot sameLow
  · rcases closed.coherent.active_cases op active with ⟨space, before, keeps⟩ | ⟨lowP3, userP2, made⟩
    · obtain ⟨lowP3, userP2, p1s, owns, secluded⟩ := closed.spaces k space before
      obtain ⟨⟨p1s', owns'⟩, sameRoot, sameLow⟩ := keeps.tables owns
      rw [keeps.rootFrame]
      exact ⟨lowP3, userP2, p1s', owns', secluded.congr sameRoot sameLow⟩
    · refine ⟨lowP3, userP2, [], made.owns, fun i other => ?_, fun j other => ?_⟩
      · rw [made.root i other]
        exact closed.boot.root i other
      · rw [made.low j other]
        exact closed.boot.low j other

/-- Stores outside the tables change no table. -/
theorem tables_of_elsewhere {memory : Memory}
    (elsewhere : ∀ a, w.InTable boot a → memory a = w.machine.memory a) {frame : Nat}
    (isTable : boot.Has w.machine frame ∨
      ∃ k space, w.Active k space ∧ frame ∈ space.tableFrames) (i : Fin 512) :
    tables memory frame i = tables w.machine.memory frame i :=
  tables_congr (fun a from_ below => elsewhere a ⟨frame, isTable, from_, below⟩) i

/-- User code writes pages, not tables. -/
theorem Closed.write (closed : Closed boot w) {memory : Memory}
    (elsewhere : ∀ a, w.InTable boot a → memory a = w.machine.memory a) :
    Closed boot ⟨{ w.machine with memory }, w.spaces⟩ := by
  obtain ⟨sheltered, nodes, -⟩ := closed.coherent.sound.sheltered.congr
    fun frame has => tables_of_elsewhere elsewhere (.inl has)
  have sameHas : ∀ frame, boot.Has { w.machine with memory } frame → boot.Has w.machine frame := by
    rintro frame ⟨path, short, reaches⟩
    rw [nodes path (by omega)] at reaches
    exact ⟨path, short, reaches⟩
  have sameRoot : ∀ i, tables memory boot.p4 i = tables w.machine.memory boot.p4 i :=
    tables_of_elsewhere elsewhere (.inl (BootTables.has_root _))
  have hasLow : boot.Has w.machine boot.p3 := by
    refine ⟨[0], by simp, ?_⟩
    rw [Lib.Radix.node, closed.coherent.low]
    rfl
  have sameLow : ∀ j, tables memory boot.p3 j = tables w.machine.memory boot.p3 j :=
    tables_of_elsewhere elsewhere (.inl hasLow)
  have kept : ∀ {k space}, w.Active k space → ∀ {lowP3 userP2 p1s},
      Owns w.machine space lowP3 userP2 p1s →
      Owns { w.machine with memory } space lowP3 userP2 p1s := fun active _ _ _ owns =>
    ⟨owns.laid.congr fun frame mem => tables_of_elsewhere elsewhere (.inr ⟨_, _, active, mem⟩),
      owns.held⟩
  refine ⟨⟨⟨sheltered, fun frame has => closed.coherent.sound.held frame (sameHas frame has)⟩, ?_,
    fun k space active => ?_, fun k space active frame mem has =>
      closed.coherent.offBoot k space active frame mem (sameHas frame has),
    closed.coherent.apart⟩, closed.upper.congr sameRoot sameLow, closed.boot.congr sameRoot sameLow,
    fun k space active => ?_⟩
  · dsimp only
    rw [sameRoot]
    exact closed.coherent.low
  · obtain ⟨positive, lowP3, userP2, p1s, owns⟩ := closed.coherent.owns k space active
    exact ⟨positive, lowP3, userP2, p1s, kept active owns⟩
  · obtain ⟨lowP3, userP2, p1s, owns, secluded⟩ := closed.spaces k space active
    have isTable : ∀ {frame}, frame ∈ space.tableFrames → ∀ i,
        tables memory frame i = tables w.machine.memory frame i := fun mem =>
      tables_of_elsewhere elsewhere (.inr ⟨k, space, active, mem⟩)
    exact ⟨lowP3, userP2, p1s, kept active owns, secluded.congr (isTable owns.laid.root_mem)
      (isTable owns.laid.lowP3_mem)⟩

/-- Before the first space there is nothing open to the user. -/
theorem first_closed (reserved : boot.Reserved source) (s : Machine source) :
    Closed boot (first boot s) := by
  refine ⟨first_coherent reserved s, enter_upper s, enter_secluded s, ?_⟩
  rintro k space ⟨found, -⟩
  cases found

/-- By induction over the operations. -/
theorem Reachable.closed (reserved : boot.Reserved source) (reachable : Reachable boot w) :
    Closed boot w := by
  induction reachable with
  | first s => exact first_closed reserved s
  | step _ op ih => exact ih.step op
  | write _ memory elsewhere ih => exact ih.write elsewhere

theorem Reachable.run (reachable : Reachable boot w) (ops : List SpaceOp) :
    Reachable boot (w.run boot ops) := by
  induction ops generalizing w with
  | nil => exact reachable
  | cons op ops ih => exact ih (reachable.step op)

end World

/-! ### What a space grants -/

section Grants

variable {m : Memory} {space : AddressSpace} {lowP3 userP2 : Nat} {p1s : List Nat}
  {writable : Bool} {virt : Nat}

/-- A walk through an entry without the user bit leads to nothing for user code. -/
theorem Secluded.userAccessible (secluded : Secluded (tables m) space.rootFrame lowP3)
    (laid : Laid (tables m) space lowP3 userP2 p1s)
    (outside : ¬ (p4Index virt = 0 ∧ p3Index virt = 1)) :
    (translateFromRoot m space.rootFrame virt).userAccessible = false := by
  have isRoot := laid.isTable laid.root_mem
  have isLow := laid.isTable laid.lowP3_mem
  unfold translateFromRoot
  rw [isRoot.tableFromFrame]
  dsimp only
  by_cases zero : p4Index virt = 0
  · have supervisor := secluded.low _ fun one => outside ⟨zero, one⟩
    have atRoot := laid.root
    rw [tables_of_aligned isLow.aligned] at supervisor
    rw [tables_of_aligned isRoot.aligned] at atRoot
    rw [zero, atRoot, tableFromEntry_openEntry isLow]
    dsimp only
    rw [supervisor, Bool.and_false]
    repeat' split
    all_goals rfl
  · have supervisor := secluded.root _ zero
    rw [tables_of_aligned isRoot.aligned] at supervisor
    rw [supervisor]
    simp only [Bool.false_and]
    repeat' split
    all_goals rfl

/-- What the user may access lies in the slot. -/
theorem Secluded.inUserSlot (secluded : Secluded (tables m) space.rootFrame lowP3)
    (laid : Laid (tables m) space lowP3 userP2 p1s) (grants : space.Grants m writable virt) :
    InUserSlot (virt % 2 ^ 48) := by
  obtain ⟨isMapped, user, -⟩ := AddressSpace.grants_mod.mp grants
  have here : p4Index (virt % 2 ^ 48) = 0 ∧ p3Index (virt % 2 ^ 48) = 1 := by
    by_contra outside
    unfold AddressSpace.translate at user
    split at user
    · cases user
    · rw [secluded.userAccessible laid outside] at user
      cases user
  obtain ⟨zero, one⟩ := here
  rw [p4Index, Fin.ext_iff, tableIndex_val] at zero
  rw [p3Index, Fin.ext_iff, tableIndex_val] at one
  change _ = 0 at zero
  change _ = 1 at one
  simp only [InUserSlot, bootIdentityMapBytes]
  omega

/-- The page that the space has recorded for an address. -/
structure AddressSpace.RecordedAt (space : AddressSpace) (writable : Bool) (virt : Nat)
    (page : UserPage) : Prop where
  mem : page ∈ space.pages
  virt : page.virt = virt - virt % pageSize4k
  writable : writable = true → page.permissions.writable = true

/-- The space is in use, and its tables are laid out and secluded. -/
structure Housed (s : Machine source) (space : AddressSpace) (lowP3 userP2 : Nat) (p1s : List Nat) :
    Prop where
  active : space.active = true
  positive : space.rootFrame ≠ 0
  owns : Owns s space lowP3 userP2 p1s
  secluded : Secluded (tables s.memory) space.rootFrame lowP3

/-- An active space in a closed world houses its pages. -/
theorem World.Closed.housed (closed : World.Closed boot w) {k : Nat} (active : w.Active k space) :
    ∃ lowP3 userP2 p1s, Housed w.machine space lowP3 userP2 p1s := by
  obtain ⟨lowP3, userP2, p1s, owns, secluded⟩ := closed.spaces k space active
  exact ⟨lowP3, userP2, p1s, active.2, (closed.coherent.owns k space active).1, owns, secluded⟩

namespace Housed

variable (housed : Housed s space lowP3 userP2 p1s)

include housed

/-- User code reaches the recorded pages. -/
theorem page_of_grants (grants : space.Grants s.memory writable virt) :
    ∃ page, space.RecordedAt writable (virt % 2 ^ 48) page ∧
      space.physOf s.memory virt = page.frame + virt % 2 ^ 48 % pageSize4k := by
  have faithful := housed.owns.faithful housed.active housed.positive
  have inSlot := housed.secluded.inUserSlot housed.owns.laid grants
  obtain ⟨isMapped, -, permits⟩ := AddressSpace.grants_mod.mp grants
  obtain ⟨page, mem, isVirt⟩ := (faithful.mapped _ inSlot).mp isMapped
  have shown := faithful.page page mem _ isVirt
  refine ⟨page, ⟨mem, isVirt, fun wants => ?_⟩, ?_⟩
  · have isWritable := permits wants
    rwa [shown] at isWritable
  · rw [AddressSpace.physOf_mod, AddressSpace.physOf, shown]
    rfl

/-- Access is granted exactly where a page is recorded that permits it. -/
theorem grants_iff : space.Grants s.memory writable virt ↔
    ∃ page, space.RecordedAt writable (virt % 2 ^ 48) page := by
  constructor
  · intro grants
    obtain ⟨page, recorded, -⟩ := housed.page_of_grants grants
    exact ⟨page, recorded⟩
  · rintro ⟨page, recorded⟩
    have faithful := housed.owns.faithful housed.active housed.positive
    have shown := faithful.page page recorded.mem _ recorded.virt
    rw [AddressSpace.grants_mod, AddressSpace.Grants, shown]
    exact ⟨rfl, rfl, recorded.writable⟩

/-- The recorded pages lie in the user region. -/
theorem inUserRegion {page : UserPage} (recorded : space.RecordedAt writable virt page) :
    userSpaceBase ≤ virt ∧ virt < userSpaceEnd := by
  obtain ⟨aligned, inRange⟩ := housed.owns.laid.virts page recorded.mem
  have isVirt := recorded.virt
  rw [inUserVirtualRange_iff] at inRange
  simp only [pageSize4k, userSpaceBase, userSpaceEnd, bootIdentityMapBytes] at *
  omega

/-- Pages with a byte in common are the same page. -/
theorem page_unique {page other : UserPage} (mem : page ∈ space.pages)
    (mem' : other ∈ space.pages) (same : page.frame = other.frame) : page = other :=
  List.inj_on_of_nodup_map (List.nodup_append.mp housed.owns.laid.nodup).2.1 mem mem' same

/-- Neighbouring addresses of a page are neighbours in memory. -/
theorem coherent : space.Coherent s.memory := by
  have laid := housed.owns.laid
  refine ⟨fun m' only v grants => ?_, fun v w grantsV grantsW same => ?_⟩
  · -- the bytes that change are in pages, and a page is no table
    have sameTables : ∀ frame ∈ space.tableFrames, ∀ i,
        tables m' frame i = tables s.memory frame i := by
      intro frame mem
      refine tables_congr fun a from_ below => ?_
      by_contra changed
      obtain ⟨u, grantsU, isPlace⟩ := only a changed
      obtain ⟨page, recorded, place⟩ := housed.page_of_grants grantsU
      have isFrame := laid.isFrame _ (Laid.mem_frames_of_page recorded.mem)
      have offset := Nat.mod_lt (u % 2 ^ 48) (show 0 < pageSize4k by decide)
      have different : page.frame ≠ frame := by
        rintro rfl
        exact List.disjoint_of_nodup_append laid.nodup mem (List.mem_map_of_mem recorded.mem)
      have apart := apart_of_ne (a := a) isFrame.aligned (laid.isTable mem).aligned different
        (by omega) (by omega)
      omega
    have walk : ∀ {m}, Laid (tables m) space lowP3 userP2 p1s →
        space.translate m v = (resultOf (v % 2 ^ 48) (space.recorded (v % 2 ^ 48))).seenAt v := by
      intro m laid
      have inSlot := housed.secluded.inUserSlot housed.owns.laid grants
      rw [AddressSpace.translate_mod, AddressSpace.translate, housed.active,
        beq_false_of_ne housed.positive, ← laid.translateFromRoot inSlot]
      rfl
    rw [walk (laid.congr sameTables), walk laid]
  · obtain ⟨page, recorded, place⟩ := housed.page_of_grants grantsV
    obtain ⟨other, recorded', place'⟩ := housed.page_of_grants grantsW
    rw [place, place'] at same
    have aligned := (laid.isFrame _ (Laid.mem_frames_of_page recorded.mem)).aligned
    have aligned' := (laid.isFrame _ (Laid.mem_frames_of_page recorded'.mem)).aligned
    have sameFrame : page.frame = other.frame := by
      simp only [pageSize4k] at *
      omega
    obtain rfl := housed.page_unique recorded.mem recorded'.mem sameFrame
    have isVirt := recorded.virt
    have isVirt' := recorded'.virt
    simp only [pageSize4k] at *
    omega

end Housed

end Grants

end CloudOS.Paging
