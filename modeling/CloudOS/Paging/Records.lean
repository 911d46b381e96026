import CloudOS.Paging.Audit

/-!
The records of the mapper mirror the boot tables.

Each call is followed on both sides: what it does to the leaves of the tables is known,
and here is what it does to the records. As long as the mapped pages fit the records,
the two agree after every sequence of calls.
-/

namespace CloudOS.Paging

open Lib.Word (satAdd)
open CloudOS.PhysMem (FrameCalls FrameSource smallMap)
open MapperState (SameTracking Mirrors)

/-! ### What a call records -/

namespace Machine

variable {source : FrameCalls} {s s' : Machine source} {boot : BootTables}

theorem allocateFrame_mapper {answer : Option Nat} (allocates : s.allocateFrame = (answer, s')) :
    s'.mapper = s.mapper := by
  obtain ⟨-, rfl⟩ := Prod.mk.inj allocates
  rfl

/-- Linking tables is no mapping, so nothing is recorded. -/
theorem ensureNextTable_tracking {table flags : Nat} {index : Fin 512}
    {result : Except MapError Nat} (ensures : s.ensureNextTable table index flags = (result, s')) :
    SameTracking s.mapper s'.mapper := by
  unfold ensureNextTable at ensures
  dsimp only at ensures
  split at ensures
  · split at ensures
    · obtain ⟨-, rfl⟩ := Prod.mk.inj ensures
      exact .refl _
    · split at ensures
      · obtain ⟨-, rfl⟩ := Prod.mk.inj ensures
        exact .refl _
      · obtain ⟨-, rfl⟩ := Prod.mk.inj ensures
        exact .refl _
  · cases allocates : s.allocateFrame with
    | mk answer s₁ =>
    have same := allocateFrame_mapper allocates
    rw [allocates] at ensures
    cases answer with
    | none =>
        obtain ⟨-, rfl⟩ := Prod.mk.inj ensures
        exact same ▸ .refl _
    | some frame =>
        dsimp only at ensures
        split at ensures
        · obtain ⟨-, rfl⟩ := Prod.mk.inj ensures
          exact same ▸ .refl _
        · split at ensures
          · obtain ⟨-, rfl⟩ := Prod.mk.inj ensures
            exact same ▸ ⟨rfl, rfl, rfl⟩
          · obtain ⟨-, rfl⟩ := Prod.mk.inj ensures
            exact same ▸ ⟨rfl, rfl, rfl⟩

/-- A call records a page, or leaves the records alone. -/
inductive Recorded (mapper : MapperState) : Option MappedPage → MapperState → Prop where
  | nothing {after : MapperState} (same : SameTracking mapper after) : Recorded mapper none after
  | page {before : MapperState} (page : MappedPage) (same : SameTracking mapper before) :
      Recorded mapper (some page)
        (before.recordMapping page.virt page.phys page.flags page.owner)

/-- Steps that record nothing may come first. -/
theorem Recorded.after {mapper mapper' after : MapperState} {page : Option MappedPage}
    (same : SameTracking mapper mapper') (recorded : Recorded mapper' page after) :
    Recorded mapper page after := by
  cases recorded with
  | nothing same' => exact .nothing (same.trans same')
  | page page same' => exact .page page (same.trans same')

variable {virt flags : Nat} {owner : PageOwner}

theorem descent_tracking {root table : Nat} {path : List (Fin 512)}
    (descent : Descent root virt flags s path table s') : SameTracking s.mapper s'.mapper := by
  induction descent with
  | root => exact .refl _
  | level _ _ _ _ ensures ih => exact ih.trans (ensureNextTable_tracking ensures)

/-- A page is recorded exactly when the call succeeds. -/
theorem mapPageInnerWithFlags_recorded {phys : Nat} {result : Except MapError Unit}
    (maps : s.mapPageInnerWithFlags boot virt phys flags owner = (result, s')) :
    Recorded s.mapper (result.toOption.map fun _ => ⟨virt, phys, flags, owner⟩) s'.mapper := by
  cases mapPageInnerWithFlags_ends maps with
  | refuse descent => exact .nothing (descent_tracking descent)
  | stick descent _ _ _ ensures =>
      exact .nothing ((descent_tracking descent).trans (ensureNextTable_tracking ensures))
  | plant _ _ _ descent _ isState =>
      refine .after (descent_tracking descent) ?_
      rw [isState]
      exact .page ⟨virt, phys, flags, owner⟩ ⟨rfl, rfl, rfl⟩

/-- The frame that is recorded is the one answered. -/
theorem mapNewPageWithFlags_recorded {result : Except MapError Nat}
    (maps : s.mapNewPageWithFlags boot virt flags owner = (result, s')) :
    Recorded s.mapper (result.toOption.map fun phys => ⟨virt, phys, flags, owner⟩) s'.mapper := by
  cases mapNewPageWithFlags_ends maps with
  | refuse => exact .nothing (.refl _)
  | exhausted allocates => exact .nothing (allocateFrame_mapper allocates ▸ .refl _)
  | reject allocates => exact .nothing (allocateFrame_mapper allocates ▸ .refl _)
  | undo allocates inner =>
      exact .after (allocateFrame_mapper allocates ▸ .refl _) (mapPageInnerWithFlags_recorded inner)
  | map allocates inner =>
      exact .after (allocateFrame_mapper allocates ▸ .refl _) (mapPageInnerWithFlags_recorded inner)

/-- Only a managed or a user page can be unmapped, and its record goes. -/
theorem unmapPage_forgotten {phys : Nat} (unmaps : s.unmapPage boot virt = (.ok phys, s')) :
    (inManagedVirtualRange virt = true ∨ inUserVirtualRange virt = true) ∧
      ∃ before, SameTracking s.mapper before ∧ s'.mapper = before.forgetMapping virt := by
  unfold unmapPage at unmaps
  dsimp only at unmaps
  split at unmaps
  · cases unmaps
  split at unmaps
  · cases unmaps
  rename_i inRange
  split at unmaps
  · cases unmaps
  split at unmaps
  · cases unmaps
  split at unmaps
  · cases unmaps
  split at unmaps
  · cases unmaps
  split at unmaps
  · cases unmaps
  split at unmaps
  · cases unmaps
  split at unmaps
  · cases unmaps
  split at unmaps
  · cases unmaps
  · obtain ⟨-, rfl⟩ := Prod.mk.inj unmaps
    refine ⟨?_, { s.mapper with unmappedPages := satAdd s.mapper.unmappedPages 1 },
      ⟨rfl, rfl, rfl⟩, rfl⟩
    rw [Bool.and_eq_true, Bool.not_eq_true', Bool.not_eq_true'] at inRange
    cases managed : inManagedVirtualRange virt with
    | true => exact .inl rfl
    | false =>
        cases user : inUserVirtualRange virt with
        | true => exact .inr rfl
        | false => exact absurd ⟨managed, user⟩ inRange

end Machine

open Machine (Recorded)

/-- The owner that a call records. -/
def MapCall.owner : MapCall → PageOwner
  | mapNewPageOwned _ owner => owner
  | mapNewUserPage _ _ => .user
  | mapPage _ _ => .kernel
  | mapUserPageWithPermissions _ _ _ => .user
  | unmapPage _ => .kernel

/-- The default flags tell the owner. -/
theorem PageOwner.entryUser_defaultFlags (owner : PageOwner) :
    entryUser owner.defaultFlags = true ↔ owner = .user := by
  cases owner with
  | kernel => decide
  | heap => decide
  | user => decide
  | test => decide

/-- Pages for user code are those that are recorded as such. -/
theorem MapCall.owner_iff (call : MapCall) :
    entryUser call.flags = true ↔ call.owner = .user := by
  cases call with
  | mapNewPageOwned virt owner => exact owner.entryUser_defaultFlags
  | mapNewUserPage virt permissions => simp [owner, flags, permissions.entryUser_flags]
  | mapPage virt phys => exact PageOwner.kernel.entryUser_defaultFlags
  | mapUserPageWithPermissions virt phys permissions =>
      simp [owner, flags, permissions.entryUser_flags]
  | unmapPage virt =>
      change entryUser 0 = true ↔ PageOwner.kernel = .user
      decide

section Calls

variable {source : FrameSource} {boot : BootTables} {s : Machine source}

/-- What a call does to the records, by what it returned. -/
structure Tracks (s : Machine source) (call : MapCall) (answer : Answer) (s' : Machine source) :
    Prop where
  mapped : ∀ phys, answer = .mapped phys →
    Recorded s.mapper (some ⟨call.virt, phys, call.flags, call.owner⟩) s'.mapper
  removed : ∀ phys, answer = .removed phys →
    (inManagedVirtualRange call.virt = true ∨ inUserVirtualRange call.virt = true) ∧
      ∃ before, SameTracking s.mapper before ∧ s'.mapper = before.forgetMapping call.virt
  failed : (∀ phys, answer ≠ .mapped phys) → (∀ phys, answer ≠ .removed phys) →
    SameTracking s.mapper s'.mapper

/-- What is recorded is what the answer of the call says. -/
theorem tracks_of_recorded (call : MapCall) (result : Except MapError Nat) {s' : Machine source}
    (recorded : Recorded s.mapper
      (result.toOption.map fun phys => ⟨call.virt, phys, call.flags, call.owner⟩) s'.mapper) :
    Tracks s call (match result with
      | .ok phys => .mapped phys
      | .error error => .mapError error) s' := by
  cases result with
  | error error =>
      refine ⟨fun _ isMapped => (by cases isMapped), fun _ isRemoved => (by cases isRemoved),
        fun _ _ => ?_⟩
      cases recorded with
      | nothing same => exact same
  | ok phys =>
      refine ⟨fun phys' isMapped => ?_, fun _ isRemoved => (by cases isRemoved),
        fun notMapped _ => absurd rfl (notMapped phys)⟩
      obtain rfl := Answer.mapped.inj isMapped
      exact recorded

/-- The records follow the answers of all calls. -/
theorem run_tracks (sound : boot.Sound s) (call : MapCall) :
    Tracks s call (call.run boot s).1 (call.run boot s).2 := by
  cases call with
  | mapNewPageOwned virt owner =>
      cases maps : s.mapNewPageOwned boot virt owner with
      | mk result s' =>
      have tracks := tracks_of_recorded (.mapNewPageOwned virt owner) result
        (Machine.mapNewPageWithFlags_recorded maps)
      rw [MapCall.run, maps]
      cases result with
      | error error => exact tracks
      | ok phys => exact tracks
  | mapNewUserPage virt permissions =>
      cases maps : s.mapNewUserPage boot virt permissions with
      | mk result s' =>
      have tracks := tracks_of_recorded (.mapNewUserPage virt permissions) result
        (Machine.mapNewPageWithFlags_recorded maps)
      rw [MapCall.run, maps]
      cases result with
      | error error => exact tracks
      | ok phys => exact tracks
  | mapPage virt phys =>
      cases maps : s.mapPage boot virt phys with
      | mk result s' =>
      have recorded := Machine.mapPageInnerWithFlags_recorded maps
      rw [MapCall.run, maps]
      cases result with
      | error error => exact tracks_of_recorded (.mapPage virt phys) (.error error) recorded
      | ok done => exact tracks_of_recorded (.mapPage virt phys) (.ok phys) recorded
  | mapUserPageWithPermissions virt phys permissions =>
      cases maps : s.mapUserPageWithPermissions boot virt phys permissions with
      | mk result s' =>
      have recorded := Machine.mapPageInnerWithFlags_recorded maps
      rw [MapCall.run, maps]
      cases result with
      | error error =>
          exact tracks_of_recorded (.mapUserPageWithPermissions virt phys permissions)
            (.error error) recorded
      | ok done =>
          exact tracks_of_recorded (.mapUserPageWithPermissions virt phys permissions)
            (.ok phys) recorded
  | unmapPage virt =>
      cases unmaps : s.unmapPage boot virt with
      | mk result s' =>
      rw [MapCall.run, unmaps]
      cases result with
      | error error =>
          refine ⟨fun _ isMapped => (by cases isMapped), fun _ isRemoved => (by cases isRemoved),
            fun _ _ => ?_⟩
          rw [(sound.unmapPage unmaps).failed error rfl]
          exact .refl _
      | ok phys =>
          exact ⟨fun _ isMapped => (by cases isMapped),
            fun _ _ => Machine.unmapPage_forgotten unmaps,
            fun _ notRemoved => absurd rfl (notRemoved phys)⟩

end Calls

end CloudOS.Paging
