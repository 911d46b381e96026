import CloudOS.Paging.Create

/-!
Any number of address spaces beside the boot tables: each one translates the user
region to what it has recorded, and no operation on another one shows in it.
-/

namespace CloudOS.Paging

open CloudOS.PhysMem (FrameSource BootInfo MemorySummary FrameAllocator AllocRegion SoundAllocator)

/-- The machine with the address spaces that were created, in order. A destroyed
space is left empty. -/
structure World (source : FrameSource) where
  machine : Machine source
  spaces : List AddressSpace

inductive SpaceOp where
  | create
  | mapUserPage (k virt : Nat) (permissions : UserPagePermissions)
  | destroy (k activeCr3 : Nat)
  | boot (call : MapCall)

/-- The space that an operation is about. -/
def SpaceOp.target : SpaceOp → Option Nat
  | mapUserPage k _ _ => some k
  | destroy k _ => some k
  | create | boot _ => none

namespace World

variable {source : FrameSource}

def step (boot : BootTables) (w : World source) : SpaceOp → World source
  | .create =>
      match AddressSpace.create boot w.machine with
      | (.ok space, machine) => ⟨machine, w.spaces ++ [space]⟩
      | (.error _, machine) => { w with machine }
  | .mapUserPage k virt permissions =>
      match w.spaces[k]? with
      | none => w
      | some space =>
          match space.mapUserPage w.machine virt permissions with
          | (_, space, machine) => ⟨machine, w.spaces.set k space⟩
  | .destroy k activeCr3 =>
      match w.spaces[k]? with
      | none => w
      | some space =>
          match space.destroy w.machine activeCr3 with
          | (_, space, machine) => ⟨machine, w.spaces.set k space⟩
  | .boot call => { w with machine := (call.run boot w.machine).2 }

def run (boot : BootTables) (w : World source) (ops : List SpaceOp) : World source :=
  ops.foldl (step boot) w

/-- The state that `_start` leaves: no address spaces. -/
def first (boot : BootTables) (s : Machine source) : World source := ⟨boot.enter s, []⟩

/-- The `k`-th space is in use. -/
def Active (w : World source) (k : Nat) (space : AddressSpace) : Prop :=
  w.spaces[k]? = some space ∧ space.active = true

/-- Every active space is laid out in frames of its own. -/
structure Coherent (boot : BootTables) (w : World source) : Prop where
  sound : boot.Sound w.machine
  low : child (tables w.machine.memory boot.p4 0) = some boot.p3
  owns : ∀ k space, w.Active k space → space.rootFrame ≠ 0 ∧
    ∃ lowP3 userP2 p1s, Owns w.machine space lowP3 userP2 p1s
  offBoot : ∀ k space, w.Active k space → ∀ frame ∈ space.frames, ¬ boot.Has w.machine frame
  apart : ∀ j k space other, j ≠ k → w.Active j space → w.Active k other →
    ∀ frame ∈ space.frames, frame ∉ other.frames

end World

section Preservation

variable {source : FrameSource} {boot : BootTables} {s s' : Machine source} {w : World source}
  {own : Nat → Prop}

/-- The tables of a space are not touched by what happens in other frames. -/
theorem Owns.confined {space : AddressSpace} {lowP3 userP2 : Nat} {p1s : List Nat}
    (owns : Owns s space lowP3 userP2 p1s) (confined : Confined own s s')
    (apart : ∀ frame ∈ space.frames, ¬ own frame) :
    Owns s' space lowP3 userP2 p1s ∧ ∀ frame ∈ space.tableFrames, ∀ i,
      tables s'.memory frame i = tables s.memory frame i := by
  have same : ∀ frame ∈ space.tableFrames, ∀ i,
      tables s'.memory frame i = tables s.memory frame i := by
    intro frame mem
    have mem' := Laid.mem_frames_of_table mem
    exact confined.tables (owns.laid.isTable mem).aligned (owns.held frame mem') (apart frame mem')
  exact ⟨⟨owns.laid.congr same, fun frame mem =>
    confined.held frame (owns.held frame mem) (apart frame mem)⟩, same⟩

/-- The translation of a space depends on its own tables only. -/
theorem Owns.translate {space : AddressSpace} {lowP3 userP2 : Nat} {p1s : List Nat}
    (owns : Owns s space lowP3 userP2 p1s) (active : space.active = true)
    (positive : space.rootFrame ≠ 0) {virt : Nat} (inSlot : InUserSlot virt) :
    space.translate s.memory virt = resultOf virt (space.recorded virt) := by
  rw [AddressSpace.translate, active, beq_false_of_ne positive, ← owns.laid.translateFromRoot inSlot]
  rfl

namespace World

/-- Only the space at the changed position may have changed. -/
theorem active_set {k j : Nat} {space other : AddressSpace} {machine : Machine source}
    (active : World.Active ⟨machine, w.spaces.set k space⟩ j other) :
    j = k ∧ other = space ∨ j ≠ k ∧ w.Active j other := by
  obtain ⟨found, isActive⟩ := active
  by_cases same : j = k
  · subst same
    simp only [List.getElem?_set] at found
    split at found
    · split at found
      · exact .inl ⟨rfl, (Option.some.inj found).symm⟩
      · cases found
    · contradiction
  · simp only [List.getElem?_set_ne (Ne.symm same)] at found
    exact .inr ⟨same, found, isActive⟩

/-- An operation that touches only `own` frames keeps everybody else's tables. -/
theorem Coherent.others (coherent : Coherent boot w) (confined : Confined own w.machine s')
    {k : Nat} {space : AddressSpace} (active : w.Active k space)
    (apart : ∀ frame ∈ space.frames, ¬ own frame) : space.rootFrame ≠ 0 ∧
    ∃ lowP3 userP2 p1s, Owns s' space lowP3 userP2 p1s := by
  obtain ⟨positive, lowP3, userP2, p1s, owns⟩ := coherent.owns k space active
  exact ⟨positive, lowP3, userP2, p1s, (owns.confined confined apart).1⟩

/-- A call on the boot tables. -/
theorem Coherent.call (coherent : Coherent boot w) (call : MapCall) :
    Coherent boot (w.step boot (.boot call)) := by
  have effect := run_effect coherent.sound call
  have evolves := effect.evolves
  refine ⟨effect.sound, ?_, ?_, ?_, coherent.apart⟩
  · have reaches := evolves.nodes [0] boot.p3 (by simp) (by
      rw [Lib.Radix.node, coherent.low]
      rfl)
    rw [Lib.Radix.node] at reaches
    obtain ⟨p3, leads, isP3⟩ := Option.bind_eq_some_iff.mp reaches
    obtain rfl := Option.some.inj isP3
    exact leads
  · intro k space active
    exact coherent.others evolves.confined active (coherent.offBoot k space active)
  · intro k space active frame mem
    obtain ⟨-, lowP3, userP2, p1s, owns⟩ := coherent.owns k space active
    exact evolves.not_has (owns.held frame mem) (coherent.offBoot k space active frame mem)

/-- An operation on the space `k`, which became `space'`. -/
theorem Coherent.replace (coherent : Coherent boot w) {k : Nat} {space space' : AddressSpace}
    (found : w.spaces[k]? = some space)
    (confined : Confined (fun frame => space.active = true ∧ frame ∈ space.frames) w.machine s')
    (owns : space'.active = true → space'.rootFrame ≠ 0 ∧
      ∃ lowP3 userP2 p1s, Owns s' space' lowP3 userP2 p1s)
    (fresh : space'.active = true → space.active = true ∧
      ∀ frame ∈ space'.frames, frame ∈ space.frames ∨ ¬ w.machine.Held frame) :
    Coherent boot ⟨s', w.spaces.set k space'⟩ := by
  have offOwn : ∀ frame, boot.Has w.machine frame →
      ¬ (space.active = true ∧ frame ∈ space.frames) :=
    fun frame has mine => coherent.offBoot k space ⟨found, mine.1⟩ frame mine.2 has
  obtain ⟨sound', sameHas, -, sameTables⟩ := coherent.sound.confined confined offOwn
  have otherApart : ∀ {j other}, j ≠ k → w.Active j other → ∀ frame ∈ other.frames,
      ¬ (space.active = true ∧ frame ∈ space.frames) :=
    fun ne active frame mem mine =>
      coherent.apart _ k _ space ne active ⟨found, mine.1⟩ frame mem mine.2
  -- a frame of the changed space is one it had, or one nobody had
  have newApart : ∀ {j other}, j ≠ k → w.Active j other → space'.active = true →
      ∀ frame ∈ other.frames, frame ∉ space'.frames := by
    intro j other ne active isActive frame mem mem'
    obtain ⟨wasActive, fresh⟩ := fresh isActive
    rcases fresh frame mem' with mine | notHeld
    · exact otherApart ne active frame mem ⟨wasActive, mine⟩
    · obtain ⟨-, lowP3, userP2, p1s, owns⟩ := coherent.owns j other active
      exact notHeld (owns.held frame mem)
  refine ⟨sound', ?_, ?_, ?_, ?_⟩
  · dsimp only
    rw [sameTables boot.p4 (BootTables.has_root _)]
    exact coherent.low
  · intro j other active
    rcases active_set active with ⟨rfl, rfl⟩ | ⟨ne, active⟩
    · exact owns active.2
    · exact coherent.others confined active (otherApart ne active)
  · intro j other active frame mem
    rw [sameHas]
    rcases active_set active with ⟨rfl, rfl⟩ | ⟨ne, active⟩
    · obtain ⟨wasActive, fresh⟩ := fresh active.2
      rcases fresh frame mem with mine | notHeld
      · exact coherent.offBoot j space ⟨found, wasActive⟩ frame mine
      · exact fun has => notHeld (coherent.sound.held frame has)
    · exact coherent.offBoot j other active frame mem
  · intro i j A B ne activeA activeB frame mem
    rcases active_set activeA with ⟨rfl, rfl⟩ | ⟨neA, activeA'⟩
    · rcases active_set activeB with ⟨rfl, rfl⟩ | ⟨neB, activeB'⟩
      · exact absurd rfl ne
      · exact fun mem' => newApart neB activeB' activeA.2 frame mem' mem
    · rcases active_set activeB with ⟨rfl, rfl⟩ | ⟨neB, activeB'⟩
      · exact newApart neA activeA' activeB.2 frame mem
      · exact coherent.apart i j A B ne activeA' activeB' frame mem

/-- A page more for one of the spaces. -/
theorem Coherent.mapUserPage (coherent : Coherent boot w) (k virt : Nat)
    (permissions : UserPagePermissions) :
    Coherent boot (w.step boot (.mapUserPage k virt permissions)) := by
  rw [step]
  cases found : w.spaces[k]? with
  | none => exact coherent
  | some space =>
      dsimp only
      cases maps : space.mapUserPage w.machine virt permissions with
      | mk result rest =>
      obtain ⟨space', s'⟩ := rest
      dsimp only
      cases isActive : space.active with
      | false =>
          rw [AddressSpace.mapUserPage, isActive] at maps
          obtain ⟨-, rfl, rfl⟩ : _ ∧ space = space' ∧ w.machine = s' := by simpa using maps
          refine coherent.replace found (.refl _ _) (fun active => ?_) (fun active => ?_)
          · rw [isActive] at active
            cases active
          · rw [isActive] at active
            cases active
      | true =>
          obtain ⟨positive, lowP3, userP2, p1s, owns⟩ := coherent.owns k space ⟨found, isActive⟩
          have grows := (owns.mapUserPage maps).grows
          refine coherent.replace found (grows.confined.mono fun frame mem => ⟨isActive, mem⟩)
            (fun _ => ?_) (fun _ => ⟨isActive, grows.fresh⟩)
          rw [grows.rootFrame]
          exact ⟨positive, lowP3, userP2, grows.owns⟩

/-- A destroyed space has no frames any longer; those of the others were not among its own. -/
theorem Coherent.destroy (coherent : Coherent boot w) (k activeCr3 : Nat) :
    Coherent boot (w.step boot (.destroy k activeCr3)) := by
  rw [step]
  cases found : w.spaces[k]? with
  | none => exact coherent
  | some space =>
      dsimp only
      cases destroys : space.destroy w.machine activeCr3 with
      | mk result rest =>
      obtain ⟨space', s'⟩ := rest
      dsimp only
      rcases destroy_confined destroys with ⟨rfl, rfl⟩ | ⟨isActive, rfl, confined⟩
      · refine coherent.replace found (.refl _ _) (fun active => ?_)
          (fun active => ⟨active, fun _ mem => .inl mem⟩)
        exact coherent.owns k space' ⟨found, active⟩
      · exact coherent.replace found (confined.mono fun frame mem => ⟨isActive, mem⟩)
          (fun active => by cases active) (fun active => by cases active)

/-- A new space takes frames that nobody holds. -/
theorem Coherent.create (coherent : Coherent boot w) : Coherent boot (w.step boot .create) := by
  rw [step]
  cases creates : AddressSpace.create boot w.machine with
  | mk result s' =>
  obtain ⟨apart, done⟩ := coherent.sound.create coherent.low creates
  have offOwn : ∀ frame, boot.Has w.machine frame → ¬ False := fun _ _ => not_false
  obtain ⟨sound', sameHas, -, sameTables⟩ := coherent.sound.confined apart offOwn
  have low : child (tables s'.memory boot.p4 0) = some boot.p3 := by
    rw [sameTables boot.p4 (BootTables.has_root _)]
    exact coherent.low
  have owns : ∀ k space, w.Active k space → space.rootFrame ≠ 0 ∧
      ∃ lowP3 userP2 p1s, Owns s' space lowP3 userP2 p1s :=
    fun k space active => coherent.others apart active fun _ _ => not_false
  cases result with
  | error error =>
      refine ⟨sound', low, owns, fun k space active frame mem => ?_, coherent.apart⟩
      rw [sameHas]
      exact coherent.offBoot k space active frame mem
  | ok space =>
      obtain ⟨isActive, lowP3, userP2, created⟩ := done space rfl
      have positive : space.rootFrame ≠ 0 := by
        have isFresh := created.fresh _ (Laid.mem_frames_of_table created.owns.laid.root_mem)
        rw [Machine.Held, Classical.not_imp] at isFresh
        exact (source.positive isFresh.1).ne'
      -- a space of the longer list is an old one, or the new one
      have cases' : ∀ {k other}, World.Active ⟨s', w.spaces ++ [space]⟩ k other →
          w.Active k other ∨ k = w.spaces.length ∧ other = space := by
        rintro k other ⟨found, active⟩
        dsimp only at found
        rcases Nat.lt_or_ge k w.spaces.length with old | new
        · rw [List.getElem?_append_left old] at found
          exact .inl ⟨found, active⟩
        · rw [List.getElem?_append_right new, List.getElem?_singleton] at found
          split at found
          · exact .inr ⟨by omega, (Option.some.inj found).symm⟩
          · cases found
      have notNew : ∀ {k other}, w.Active k other → ∀ frame ∈ other.frames,
          frame ∉ space.frames := by
        intro k other active frame mem mem'
        obtain ⟨-, lowP3', userP2', p1s', owns'⟩ := coherent.owns k other active
        exact created.fresh frame mem' (owns'.held frame mem)
      have bound : ∀ {k other}, w.Active k other → k < w.spaces.length :=
        fun active => (List.getElem?_eq_some_iff.mp active.1).1
      refine ⟨sound', low, ?_, ?_, ?_⟩
      · intro k other active
        rcases cases' active with old | ⟨-, rfl⟩
        · exact owns k other old
        · exact ⟨positive, lowP3, userP2, [], created.owns⟩
      · intro k other active frame mem
        rw [sameHas]
        rcases cases' active with old | ⟨-, rfl⟩
        · exact coherent.offBoot k other old frame mem
        · exact fun has => created.fresh frame mem (coherent.sound.held frame has)
      · intro i j A B ne activeA activeB frame mem
        rcases cases' activeA with oldA | ⟨rfl, rfl⟩
        · rcases cases' activeB with oldB | ⟨rfl, rfl⟩
          · exact coherent.apart i j A B ne oldA oldB frame mem
          · exact notNew oldA frame mem
        · rcases cases' activeB with oldB | ⟨rfl, -⟩
          · exact fun mem' => notNew oldB frame mem' mem
          · exact absurd rfl ne

/-- Every operation keeps the spaces apart. -/
theorem Coherent.step (coherent : Coherent boot w) (op : SpaceOp) :
    Coherent boot (w.step boot op) := by
  cases op with
  | create => exact coherent.create
  | mapUserPage k virt permissions => exact coherent.mapUserPage k virt permissions
  | destroy k activeCr3 => exact coherent.destroy k activeCr3
  | boot call => exact coherent.call call

theorem Coherent.run (coherent : Coherent boot w) (ops : List SpaceOp) :
    Coherent boot (w.run boot ops) := by
  induction ops generalizing w with
  | nil => exact coherent
  | cons op ops ih => exact ih (coherent.step op)

/-- The invariant holds before the first space is made. -/
theorem first_coherent (reserved : boot.Reserved source) (s : Machine source) :
    Coherent boot (first boot s) := by
  have none : ∀ {k space}, ¬ (first boot s).Active k space := by
    rintro k space ⟨found, -⟩
    cases found
  refine ⟨BootTables.enter_sound reserved s, ?_, fun k space active => absurd active none,
    fun k space active => absurd active none, fun j k A B _ active => absurd active none⟩
  exact ((boot.start_started s.memory).child_p4 0).trans (if_pos rfl)

/-- Other operations leave a space where it is. -/
theorem getElem?_step {op : SpaceOp} {k : Nat} (inside : k < w.spaces.length)
    (other : op.target ≠ some k) : (w.step boot op).spaces[k]? = w.spaces[k]? := by
  cases op with
  | create =>
      rw [step]
      cases AddressSpace.create boot w.machine with
      | mk result s' =>
      cases result with
      | error error => rfl
      | ok new => exact List.getElem?_append_left inside
  | mapUserPage j virt permissions =>
      have ne : j ≠ k := fun same => other (congrArg some same)
      rw [step]
      cases w.spaces[j]? with
      | none => rfl
      | some changed => exact List.getElem?_set_ne ne
  | destroy j activeCr3 =>
      have ne : j ≠ k := fun same => other (congrArg some same)
      rw [step]
      cases w.spaces[j]? with
      | none => rfl
      | some changed => exact List.getElem?_set_ne ne
  | boot call => rfl

theorem active_step {op : SpaceOp} {k : Nat} {space : AddressSpace} (active : w.Active k space)
    (other : op.target ≠ some k) : (w.step boot op).Active k space :=
  ⟨(getElem?_step (List.getElem?_eq_some_iff.mp active.1).1 other).trans active.1, active.2⟩

theorem step_mapUserPage {k virt : Nat} {permissions : UserPagePermissions}
    {space space' : AddressSpace} {result : Except AddressSpaceError Nat}
    (found : w.spaces[k]? = some space)
    (maps : space.mapUserPage w.machine virt permissions = (result, space', s')) :
    w.step boot (.mapUserPage k virt permissions) = ⟨s', w.spaces.set k space'⟩ := by
  rw [step, found]
  dsimp only
  rw [maps]

theorem step_destroy {k activeCr3 : Nat} {space space' : AddressSpace}
    {result : Except AddressSpaceError CleanupReport} (found : w.spaces[k]? = some space)
    (destroys : space.destroy w.machine activeCr3 = (result, space', s')) :
    w.step boot (.destroy k activeCr3) = ⟨s', w.spaces.set k space'⟩ := by
  rw [step, found]
  dsimp only
  rw [destroys]

/-- Operations on spaces touch neither the boot tables nor another space. -/
theorem Coherent.step_confined (coherent : Coherent boot w) (op : SpaceOp)
    (onSpace : ∀ call, op ≠ .boot call) :
    ∃ own, Confined own w.machine (w.step boot op).machine ∧
      (∀ frame, boot.Has w.machine frame → ¬ own frame) ∧
      ∀ k space, w.Active k space → op.target ≠ some k → ∀ frame ∈ space.frames, ¬ own frame := by
  have untouched : ∀ {s' : Machine source}, s' = w.machine →
      ∃ own, Confined own w.machine s' ∧ (∀ frame, boot.Has w.machine frame → ¬ own frame) ∧
        ∀ k space, w.Active k space → op.target ≠ some k →
          ∀ frame ∈ space.frames, ¬ own frame := by
    rintro s' rfl
    exact ⟨fun _ => False, .refl _ _, fun _ _ => not_false, fun _ _ _ _ _ _ => not_false⟩
  have inSpace : ∀ {k : Nat} {changed : AddressSpace}, w.Active k changed → op.target = some k →
      (∀ frame, boot.Has w.machine frame → frame ∉ changed.frames) ∧
        ∀ j space, w.Active j space → op.target ≠ some j →
          ∀ frame ∈ space.frames, frame ∉ changed.frames := by
    intro k changed active isTarget
    refine ⟨fun frame has mem => coherent.offBoot k changed active frame mem has,
      fun j space activeJ other => ?_⟩
    refine coherent.apart j k space changed (fun same => other ?_) activeJ active
    rw [isTarget, same]
  cases op with
  | boot call => exact absurd rfl (onSpace call)
  | create =>
      have apart : Apart w.machine (w.step boot .create).machine := by
        rw [World.step]
        cases creates : AddressSpace.create boot w.machine with
        | mk result s' =>
        have apart := (coherent.sound.create coherent.low creates).1
        cases result with
        | error error => exact apart
        | ok space => exact apart
      exact ⟨_, apart, fun _ _ => not_false, fun _ _ _ _ _ _ => not_false⟩
  | mapUserPage k virt permissions =>
      cases found : w.spaces[k]? with
      | none => exact untouched (by rw [World.step, found])
      | some changed =>
      cases maps : changed.mapUserPage w.machine virt permissions with
      | mk result rest =>
      rw [step_mapUserPage found maps]
      cases isActive : changed.active with
      | false =>
          rw [AddressSpace.mapUserPage, isActive] at maps
          exact untouched (by simpa using (congrArg (fun out => out.2.2) maps).symm)
      | true =>
          obtain ⟨-, lowP3, userP2, p1s, owns⟩ := coherent.owns k changed ⟨found, isActive⟩
          exact ⟨_, (owns.mapUserPage maps).grows.confined, inSpace ⟨found, isActive⟩ rfl⟩
  | destroy k activeCr3 =>
      cases found : w.spaces[k]? with
      | none => exact untouched (by rw [World.step, found])
      | some changed =>
      cases destroys : changed.destroy w.machine activeCr3 with
      | mk result rest =>
      rw [step_destroy found destroys]
      rcases destroy_confined destroys with ⟨-, same⟩ | ⟨isActive, -, confined⟩
      · exact untouched same
      · exact ⟨_, confined, inSpace ⟨found, isActive⟩ rfl⟩

/-- Spaces keep their positions. -/
theorem length_step (op : SpaceOp) : w.spaces.length ≤ (w.step boot op).spaces.length := by
  cases op with
  | create =>
      rw [step]
      cases AddressSpace.create boot w.machine with
      | mk result s' =>
      cases result with
      | error error => exact le_refl _
      | ok space =>
          dsimp only
          rw [List.length_append]
          omega
  | mapUserPage k virt permissions =>
      rw [step]
      cases w.spaces[k]? with
      | none => exact le_refl _
      | some space =>
          dsimp only
          rw [List.length_set]
  | destroy k activeCr3 =>
      rw [step]
      cases w.spaces[k]? with
      | none => exact le_refl _
      | some space =>
          dsimp only
          rw [List.length_set]
  | boot call => exact le_refl _

/-- A space finds the pages it has recorded, and no others. -/
theorem Coherent.translate (coherent : Coherent boot w) {k : Nat} {space : AddressSpace}
    (active : w.Active k space) {virt : Nat} (inSlot : InUserSlot virt) :
    space.translate w.machine.memory virt = resultOf virt (space.recorded virt) := by
  obtain ⟨positive, lowP3, userP2, p1s, owns⟩ := coherent.owns k space active
  exact owns.translate active.2 positive inSlot

end World

/-! ### What a space shows -/

/-- The translation that the record of a page calls for. -/
def UserPage.result (page : UserPage) (virt : Nat) : TranslateResult where
  virt := virt
  phys := page.frame + virt % pageSize4k
  mapped := true
  hugePage := false
  userAccessible := true
  writable := page.permissions.writable
  executable := page.permissions.executable
  pageSize := pageSize4k

/-- What the walk answers for a leaf is what the record says. -/
theorem UserPage.result_eq {page : UserPage} (isFrame : IsFrame page.frame) (virt : Nat) :
    (Leaf.mk false (page.frame ||| page.permissions.flags)).result virt = page.result virt := by
  have offset : virt &&& (pageSize4k - 1) = virt % pageSize4k :=
    Nat.and_two_pow_sub_one_eq_mod virt 12
  have fits : page.frame + virt % pageSize4k ≤ Lib.Word.maxWord := by
    have bound := isFrame.reachable
    have small := Nat.mod_lt virt (show 0 < pageSize4k by decide)
    simp only [bootIdentityMapBytes, pageSize4k, Lib.Word.maxWord] at *
    omega
  simp only [Leaf.result, UserPage.result, Bool.false_eq_true, if_false, offset,
    isFrame.entryAddr_or page.permissions.isFlags.bare, Lib.Word.satAdd_of_le fits, entryUser_or,
    entryWritable_or, entryNoExecute_or, isFrame.entryUser, isFrame.entryWritable,
    isFrame.entryNoExecute, page.permissions.entryUser_flags, page.permissions.entryWritable_flags,
    page.permissions.entryNoExecute_flags, Bool.false_or, Bool.not_not]

/-- A space shows of the user region exactly what it has recorded. -/
structure Faithful (m : Lib.Store.Memory) (space : AddressSpace) : Prop where
  mapped : ∀ virt, InUserSlot virt → ((space.translate m virt).mapped = true ↔
    ∃ page ∈ space.pages, page.virt = virt - virt % pageSize4k)
  page : ∀ page ∈ space.pages, ∀ virt, page.virt = virt - virt % pageSize4k →
    space.translate m virt = page.result virt
  audit : (space.audit m).userPages = space.mappedPages

/-- Two addresses are in one page when the one is the start of the other's. -/
theorem page_eq_iff {page virt : Nat} (aligned : page % pageSize4k = 0) :
    page / pageSize4k = virt / pageSize4k ↔ page = virt - virt % pageSize4k := by
  simp only [pageSize4k] at *
  omega

/-- A space that owns its frames is faithful. -/
theorem Owns.faithful {space : AddressSpace} {lowP3 userP2 : Nat} {p1s : List Nat}
    (owns : Owns s space lowP3 userP2 p1s) (active : space.active = true)
    (positive : space.rootFrame ≠ 0) : Faithful s.memory space := by
  have laid := owns.laid
  have shows : ∀ page ∈ space.pages, ∀ virt, page.virt = virt - virt % pageSize4k →
      space.translate s.memory virt = page.result virt := by
    intro page mem virt same
    have inPage := (page_eq_iff (laid.virts page mem).1).mpr same
    have inSlot : InUserSlot virt := by
      have inSlot := laid.virt_inSlot mem
      simp only [InUserSlot, bootIdentityMapBytes, pageSize4k] at *
      omega
    have isFrame := laid.isFrame _ (Laid.mem_frames_of_page mem)
    rw [owns.translate active positive inSlot, AddressSpace.recorded,
      laid.pageAt_of_mem mem inPage, Option.map_some, resultOf, UserPage.result_eq isFrame]
  refine ⟨?_, shows, ?_⟩
  · intro virt inSlot
    constructor
    · intro isMapped
      rw [owns.translate active positive inSlot, AddressSpace.recorded] at isMapped
      cases found : space.pageAt virt with
      | none =>
          rw [found] at isMapped
          cases isMapped
      | some page =>
          obtain ⟨mem, same⟩ := Laid.mem_of_pageAt found
          exact ⟨page, mem, (page_eq_iff (laid.virts page mem).1).mp same⟩
    · rintro ⟨page, mem, same⟩
      rw [shows page mem virt same]
      rfl
  · refine List.countP_eq_length.mpr fun page mem => ?_
    have aligned := (laid.virts page mem).1
    have shown := shows page mem page.virt (by rw [aligned, Nat.sub_zero])
    rw [AddressSpace.auditsPage, shown]
    simp [UserPage.result, aligned]

/-- The record of an active space says what its tables say. -/
theorem World.Coherent.faithful (coherent : Coherent boot w) {k : Nat} {space : AddressSpace}
    (active : w.Active k space) : Faithful w.machine.memory space := by
  obtain ⟨positive, lowP3, userP2, p1s, owns⟩ := coherent.owns k space active
  exact owns.faithful active.2 positive

end Preservation

/-- After every run of operations, each active space shows the user region as it has
recorded it, no two pages share a frame, and an operation on another space or on
the boot tables changes none of its translations there. -/
theorem spaces_isolated {source : FrameSource} (boot : BootTables) (reserved : boot.Reserved source)
    (s : Machine source) (ops : List SpaceOp) :
    let w := World.run boot (World.first boot s) ops
    (∀ k space, w.Active k space → Faithful w.machine.memory space) ∧
    (∀ (j k : Nat) (space other : AddressSpace) (a b : Nat) (page page' : UserPage),
      w.Active j space → w.Active k other → space.pages[a]? = some page →
      other.pages[b]? = some page' → (j, a) ≠ (k, b) → page.frame ≠ page'.frame) ∧
    ∀ op k space, w.Active k space → op.target ≠ some k →
      (w.step boot op).Active k space ∧ ∀ virt, InUserSlot virt →
        space.translate (w.step boot op).machine.memory virt =
          space.translate w.machine.memory virt := by
  intro w
  have coherent : World.Coherent boot w := (World.first_coherent reserved s).run ops
  refine ⟨fun k space active => coherent.faithful active, ?_, ?_⟩
  · intro j k space other a b page page' active active' found found' ne
    by_cases same : j = k
    · subst same
      obtain rfl := Option.some.inj (active.1.symm.trans active'.1)
      obtain ⟨-, lowP3, userP2, p1s, owns⟩ := coherent.owns j space active
      have nodup := (List.nodup_append.mp owns.laid.nodup).2.1
      intro sameFrame
      have isA : (space.pages.map UserPage.frame)[a]? = some page.frame := by
        rw [List.getElem?_map, found]
        rfl
      have isB : (space.pages.map UserPage.frame)[b]? = some page.frame := by
        rw [List.getElem?_map, found', sameFrame]
        rfl
      obtain ⟨boundA, isA⟩ := List.getElem?_eq_some_iff.mp isA
      obtain ⟨boundB, isB⟩ := List.getElem?_eq_some_iff.mp isB
      exact ne (congrArg _ ((nodup.getElem_inj_iff).mp (isA.trans isB.symm)))
    · intro sameFrame
      refine coherent.apart j k space other same active active' page.frame
        (Laid.mem_frames_of_page (List.mem_of_getElem? found)) ?_
      rw [sameFrame]
      exact Laid.mem_frames_of_page (List.mem_of_getElem? found')
  · intro op k space active elsewhere
    have active' : (w.step boot op).Active k space := World.active_step active elsewhere
    refine ⟨active', fun virt inSlot => ?_⟩
    rw [(coherent.step op).translate active' inSlot, coherent.translate active inSlot]

/-- One region of 256 frames. -/
def roomyMap : BootInfo where
  kernelStart := 0x100000
  kernelEnd := 0x200000
  address := 0
  totalSize := 0
  highestModuleEnd := 0
  memory := [⟨0x200000, 0x100000, 1⟩].foldl MemorySummary.addRegion {}

theorem roomyMap_regions : (FrameAllocator.init roomyMap).regions = [⟨0x200000, 0x300000⟩] := by
  decide +kernel

theorem roomyMap_disjoint : (FrameAllocator.init roomyMap).DisjointRegions := by
  unfold FrameAllocator.DisjointRegions
  rw [roomyMap_regions]
  exact List.pairwise_singleton _ _

theorem imageTables_reserved_roomyMap :
    imageTables.Reserved (SoundAllocator.source roomyMap) := by
  rintro frame ⟨region, mem, inside⟩
  rw [roomyMap_regions] at mem
  obtain rfl := List.mem_singleton.mp mem
  simp only [AllocRegion.Contains] at inside
  simp only [imageTables]
  omega

/-- Empty memory and an allocator of 256 frames. -/
def roomyMachine : Machine (SoundAllocator.source roomyMap) :=
  ⟨fun _ => 0, SoundAllocator.start roomyMap roomyMap_disjoint, true, .new, {}⟩

/-- Two spaces with a page each at the same address, and a page in the boot tables. -/
def twoSpaces : List SpaceOp :=
  [.create, .create, .mapUserPage 0 userElfBase .readExecute, .boot (.mapPage kernelHeapBase 0),
    .mapUserPage 1 userElfBase .readWrite]

theorem spaces_isolated_twoSpaces :
    let w := World.run imageTables (World.first imageTables roomyMachine) twoSpaces
    (w.spaces.map fun space => space.pages.map UserPage.frame) = [[0x207000], [0x20c000]] ∧
    ∀ k space, w.Active k space → Faithful w.machine.memory space :=
  ⟨by decide +kernel,
    (spaces_isolated imageTables imageTables_reserved_roomyMap roomyMachine twoSpaces).1⟩

end CloudOS.Paging
