import CloudOS.Paging.KernelHalf
import CloudOS.Paging.UserBytes

/-!
No address outside the user region is one that user code may reach.

The entries that lead elsewhere from the two topmost tables lack the user bit: in the
boot tables because no kernel page asks for it, and in an address space because it
copies them from there.
-/

namespace CloudOS.Paging

open Lib.Store (Memory)
open CloudOS.PhysMem (FrameSource)

variable {source : FrameSource} {boot : BootTables} {s s' s'' : Machine source}

/-! ### Kernel pages open nothing to user code -/

/-- No entry of any table gets the user bit. -/
def GainsNoUser (s s' : Machine source) : Prop :=
  ∀ frame i, entryUser (tables s'.memory frame i) = true →
    entryUser (tables s.memory frame i) = true

namespace GainsNoUser

theorem of_memory (same : s'.memory = s.memory) : GainsNoUser s s' := by
  intro frame i user
  rwa [same] at user

theorem trans (before : GainsNoUser s s') (after : GainsNoUser s' s'') : GainsNoUser s s'' :=
  fun frame i user => before frame i (after frame i user)

/-- An empty table gives the user nothing. -/
theorem clear {phys : Nat} (aligned : phys % pageSize4k = 0) : GainsNoUser s (s.clear phys) := by
  intro frame i user
  rw [Machine.clear, tables_clear aligned] at user
  by_cases here : frame = phys
  · rw [here, Lib.Radix.fill_self] at user
    cases user
  · rwa [Lib.Radix.fill_of_ne here] at user

/-- An entry for the user stood there before, or is none. -/
theorem store {table value : Nat} {i : Fin 512} (aligned : table % pageSize4k = 0)
    (word : value < 2 ^ 64)
    (kept : entryUser value = true → entryUser (tables s.memory table i) = true) :
    GainsNoUser s (s.store table i value) := by
  intro frame j user
  rw [Machine.store, tables_store aligned word] at user
  by_cases here : frame = table ∧ j = i
  · rw [here.1, here.2, Lib.Radix.set_self] at user
    rw [here.1, here.2]
    exact kept user
  · rwa [Lib.Radix.set_of_ne here] at user

end GainsNoUser

section Supervisor

variable {flags : Nat} (supervisor : entryUser flags = false)

include supervisor

/-- Flags without user access open no table to the user. -/
theorem ensureNextTable_gainsNoUser {table : Nat} (aligned : table % pageSize4k = 0) {i : Fin 512}
    {result : Except MapError Nat} (ensures : s.ensureNextTable table i flags = (result, s')) :
    GainsNoUser s s' ∧ ∀ next, result = .ok next → next % pageSize4k = 0 := by
  have noUser : entryUser (opened flags) = false := (entryUser_opened flags).trans supervisor
  unfold Machine.ensureNextTable at ensures
  rw [← tables_of_aligned aligned] at ensures
  dsimp only at ensures
  split at ensures
  · split at ensures
    · obtain ⟨rfl, rfl⟩ := Prod.mk.inj ensures
      exact ⟨.of_memory rfl, nofun⟩
    · have widens : GainsNoUser s (s.store table i (tables s.memory table i ||| opened flags)) := by
        refine .store aligned (Nat.or_lt_two_pow (tables_lt _ _ _) (opened_lt flags)) fun user => ?_
        rwa [entryUser_or, noUser, Bool.or_false] at user
      split at ensures
      · obtain ⟨rfl, rfl⟩ := Prod.mk.inj ensures
        exact ⟨widens, nofun⟩
      · rename_i next leads
        obtain ⟨rfl, rfl⟩ := Prod.mk.inj ensures
        refine ⟨widens, fun next' isNext => ?_⟩
        obtain rfl := Except.ok.inj isNext
        exact (isFrame_of_tableFromEntry leads).aligned
  · cases taken : s.allocateFrame with
    | mk answer s₁ =>
    rw [taken] at ensures
    cases answer with
    | none =>
        obtain ⟨rfl, rfl⟩ := Prod.mk.inj ensures
        exact ⟨.of_memory (Machine.allocateFrame_none taken).2.memory, nofun⟩
    | some frame =>
        obtain ⟨frameAligned, -, -, outside⟩ := Machine.allocateFrame_some taken
        have takes : GainsNoUser s s₁ := .of_memory outside.memory
        dsimp only at ensures
        split at ensures
        · obtain ⟨rfl, rfl⟩ := Prod.mk.inj ensures
          exact ⟨takes.trans (.of_memory (s₁.freeFrame_sameOutside frame).memory), nofun⟩
        · rename_i reachable
          rw [Bool.not_eq_true', Bool.not_eq_false] at reachable
          have isFrame : IsFrame frame := ⟨frameAligned, of_decide_eq_true reachable⟩
          have links : GainsNoUser s ((s₁.clear frame).store table i
              (frame ||| presentBit ||| opened flags)) := by
            refine takes.trans ((GainsNoUser.clear frameAligned).trans (.store aligned ?_ ?_))
            · exact Nat.or_lt_two_pow (Nat.or_lt_two_pow isFrame.lt_word (by decide))
                (opened_lt flags)
            · intro user
              rw [entryUser_or, entryUser_or, isFrame.entryUser, noUser] at user
              cases user
          split at ensures
          · obtain ⟨rfl, rfl⟩ := Prod.mk.inj ensures
            exact ⟨links, nofun⟩
          · rename_i next leads
            obtain ⟨rfl, rfl⟩ := Prod.mk.inj ensures
            refine ⟨links, fun next' isNext => ?_⟩
            obtain rfl := Except.ok.inj isNext
            exact (isFrame_of_tableFromEntry leads).aligned

theorem descent_gainsNoUser {root virt table : Nat} {path : List (Fin 512)}
    (aligned : root % pageSize4k = 0) (descent : Machine.Descent root virt flags s path table s') :
    GainsNoUser s s' ∧ table % pageSize4k = 0 := by
  induction descent with
  | root => exact ⟨.of_memory rfl, aligned⟩
  | level _ _ _ _ ensures ih =>
      obtain ⟨gains, next⟩ := ensureNextTable_gainsNoUser supervisor ih.2 ensures
      exact ⟨ih.1.trans gains, next _ rfl⟩

/-- A kernel page gives the user nothing. -/
theorem mapPageInnerWithFlags_gainsNoUser (isFlags : IsFlags flags) {virt phys : Nat}
    {owner : PageOwner} {result : Except MapError Unit}
    (maps : s.mapPageInnerWithFlags boot virt phys flags owner = (result, s')) :
    GainsNoUser s s' := by
  cases Machine.mapPageInnerWithFlags_ends maps with
  | refuse descent => exact (descent_gainsNoUser supervisor boot.isFrame.aligned descent).1
  | stick descent _ _ _ ensures =>
      obtain ⟨gains, aligned⟩ := descent_gainsNoUser supervisor boot.isFrame.aligned descent
      exact gains.trans (ensureNextTable_gainsNoUser supervisor aligned ensures).1
  | @plant p1 s₁ _ _ isFrame _ descent _ isState =>
      obtain ⟨gains, aligned⟩ := descent_gainsNoUser supervisor boot.isFrame.aligned descent
      have plants : GainsNoUser s₁ (s₁.store p1 (p1Index virt) (phys ||| flags)) := by
        refine .store aligned (Nat.or_lt_two_pow isFrame.lt_word isFlags.word) fun user => ?_
        rw [entryUser_or, isFrame.entryUser, supervisor] at user
        cases user
      exact gains.trans (plants.trans (.of_memory (by rw [isState])))

theorem mapNewPageWithFlags_gainsNoUser (isFlags : IsFlags flags) {virt : Nat} {owner : PageOwner} :
    GainsNoUser s (s.mapNewPageWithFlags boot virt flags owner).2 := by
  have inner : ∀ {phys : Nat} {s₁ s₂ : Machine source} {result : Except MapError Unit},
      s.allocateFrame = (some phys, s₁) →
      (s₁.clear phys).mapPageInnerWithFlags boot virt phys flags owner = (result, s₂) →
      GainsNoUser s s₂ := by
    intro phys s₁ s₂ result allocates maps
    obtain ⟨aligned, -, -, outside⟩ := Machine.allocateFrame_some allocates
    exact .trans (.of_memory outside.memory) ((GainsNoUser.clear aligned).trans
      (mapPageInnerWithFlags_gainsNoUser supervisor isFlags maps))
  cases call : s.mapNewPageWithFlags boot virt flags owner with
  | mk result s' =>
  cases Machine.mapNewPageWithFlags_ends call with
  | refuse => exact .of_memory rfl
  | exhausted allocates => exact .of_memory (Machine.allocateFrame_none allocates).2.memory
  | @reject phys s₁ allocates =>
      exact .trans (.of_memory (Machine.allocateFrame_some allocates).2.2.2.memory)
        (.of_memory (s₁.freeFrame_sameOutside phys).memory)
  | @undo phys s₁ s₂ error allocates maps =>
      exact (inner allocates maps).trans (.of_memory (s₂.freeFrame_sameOutside phys).memory)
  | map allocates maps => exact inner allocates maps

end Supervisor

/-- Nothing is gained by unmapping. -/
theorem unmapPage_gainsNoUser {virt : Nat} : GainsNoUser s (s.unmapPage boot virt).2 := by
  unfold Machine.unmapPage
  dsimp only
  -- every check before the last one leaves the state alone
  iterate 9
    split
    · exact .of_memory rfl
  rename_i p1 leads
  split
  · exact .of_memory rfl
  have removes : GainsNoUser s (s.store p1 (p1Index virt) 0) :=
    .store (isFrame_of_tableFromEntry leads).aligned (by decide) nofun
  exact removes.trans (.of_memory rfl)

/-- A call that does not ask for the user bit gives it to no entry. -/
theorem MapCall.gainsNoUser (call : MapCall) (supervisor : entryUser call.flags = false) :
    GainsNoUser s (call.run boot s).2 := by
  cases call with
  | mapNewPageOwned virt owner =>
      have gains : GainsNoUser s (s.mapNewPageOwned boot virt owner).2 :=
        mapNewPageWithFlags_gainsNoUser supervisor owner.isFlags
      rw [MapCall.run]
      revert gains
      cases s.mapNewPageOwned boot virt owner with
      | mk result s' =>
      cases result with
      | error error => exact id
      | ok phys => exact id
  | mapNewUserPage virt permissions =>
      rw [MapCall.flags, permissions.entryUser_flags] at supervisor
      cases supervisor
  | mapPage virt phys =>
      cases maps : s.mapPage boot virt phys with
      | mk result s' =>
      have gains := mapPageInnerWithFlags_gainsNoUser supervisor PageOwner.kernel.isFlags maps
      rw [MapCall.run, maps]
      cases result with
      | error error => exact gains
      | ok done => exact gains
  | mapUserPageWithPermissions virt phys permissions =>
      rw [MapCall.flags, permissions.entryUser_flags] at supervisor
      cases supervisor
  | unmapPage virt =>
      have gains : GainsNoUser s (s.unmapPage boot virt).2 := unmapPage_gainsNoUser
      rw [MapCall.run]
      revert gains
      cases s.unmapPage boot virt with
      | mk result s' =>
      cases result with
      | error error => exact id
      | ok phys => exact id

/-! ### Secluded tables -/

/-- The entries that do not lead to the user region are not for user code. -/
structure Secluded (T : Nat → Fin 512 → Nat) (root lowP3 : Nat) : Prop where
  root : ∀ i, i ≠ 0 → entryUser (T root i) = false
  low : ∀ j, j ≠ 1 → entryUser (T lowP3 j) = false

/-- Seclusion is about the entries of two tables. -/
theorem Secluded.congr {T T' : Nat → Fin 512 → Nat} {root lowP3 : Nat}
    (secluded : Secluded T root lowP3) (sameRoot : ∀ i, T' root i = T root i)
    (sameLow : ∀ j, T' lowP3 j = T lowP3 j) : Secluded T' root lowP3 := by
  refine ⟨fun i other => ?_, fun j other => ?_⟩
  · rw [sameRoot]
    exact secluded.root i other
  · rw [sameLow]
    exact secluded.low j other

/-- The tables of the boot code have no entry for the user. -/
theorem enter_secluded (s : Machine source) :
    Secluded (tables (boot.enter s).memory) boot.p4 boot.p3 := by
  refine ⟨fun i other => ?_, (enter_upper s).supervisor⟩
  rw [BootTables.enter, (boot.start_started s.memory).p4 i, if_neg other]
  rfl

/-- A call keeps the boot tables secluded: for a user page it only changes entries on
the way to the user region. -/
theorem Secluded.call {call : MapCall} (secluded : Secluded (tables s.memory) boot.p4 boot.p3)
    (sound : boot.Sound s) (upper : Upper boot s) :
    Secluded (tables (call.run boot s).2.memory) boot.p4 boot.p3 := by
  have evolves := (run_effect sound call).evolves
  refine ⟨fun i other => ?_, fun j other => ?_⟩
  · cases supervisor : entryUser call.flags with
    | false =>
        have noUser : GainsNoUser s (call.run boot s).2 := call.gainsNoUser supervisor
        have gains := noUser boot.p4 i
        have before := secluded.root i other
        by_contra user
        rw [Bool.not_eq_false] at user
        rw [gains user] at before
        cases before
    | true =>
        rcases evolves.entries [] boot.p4 i (by simp) rfl with same | ⟨onRoute, -⟩
        · rw [same]
          exact secluded.root i other
        · obtain ⟨⟨rest, split⟩, way⟩ := call_route_cases (by simp) onRoute
          simp only [indices, List.nil_append, List.cons_append, List.cons.injEq] at split
          rcases way with inSlot | ⟨-, noUser⟩
          · rw [inSlot.p4Index] at split
            exact absurd split.1 other
          · rw [supervisor] at noUser
            cases noUser
  · rw [upper.low_entry evolves other]
    exact secluded.low j other

end CloudOS.Paging
