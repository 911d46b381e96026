import CloudOS.Lib.Roster
import CloudOS.Paging.FrameLaw

/-!
The records of the mapper and `permission_audit`, which compares them with the tables.

A call touches the records in one way only: a page that was mapped is recorded, and one
that was removed is forgotten.
-/

namespace CloudOS.Paging

open Lib.Scan (first first_eq_some first_eq_none)
open Lib.Store (Memory)
open Lib.Word (satAdd satAdd_of_le maxWord)
open CloudOS.PhysMem (FrameSource)

/-! ### The audit -/

structure PermissionAudit where
  checkedPages : Nat
  violations : Nat
  kernelPages : Nat
  heapPages : Nat
  userPages : Nat
  testPages : Nat
  guardPagesIntact : Bool
  trackingConsistent : Bool
deriving DecidableEq, Repr

namespace PermissionAudit

def countOwner (audit : PermissionAudit) : PageOwner → PermissionAudit
  | .kernel => { audit with kernelPages := satAdd audit.kernelPages 1 }
  | .heap => { audit with heapPages := satAdd audit.heapPages 1 }
  | .user => { audit with userPages := satAdd audit.userPages 1 }
  | .test => { audit with testPages := satAdd audit.testPages 1 }

/-- Whether a page is where its owner has pages, and accessible to user code if and only
if the owner is. -/
def ownerAgrees (virt : Nat) (userAccessible : Bool) : PageOwner → Bool
  | .user => inUserVirtualRange virt && userAccessible
  | .kernel | .heap | .test => inManagedVirtualRange virt && !userAccessible

/-- Whether the tables agree with a record, and the record with its owner. -/
def agrees (boot : BootTables) (m : Memory) (record : MappingRecord) : Bool :=
  let translated := translate boot m record.virt
  translated.mapped && translated.phys == record.phys && translated.pageSize == pageSize4k
    && translated.userAccessible == (record.flags &&& userBit != 0)
    && translated.writable == (record.flags &&& writableBit != 0)
    && translated.executable == (record.flags &&& noExecuteBit == 0)
    && ownerAgrees record.virt translated.userAccessible record.owner

/-- One turn of the loop over the records. -/
def check (boot : BootTables) (m : Memory) (audit : PermissionAudit) (record : MappingRecord) :
    PermissionAudit :=
  if !record.active then audit
  else
    let audit := { audit with checkedPages := satAdd audit.checkedPages 1 }
    let audit := audit.countOwner record.owner
    if !agrees boot m record then { audit with violations := satAdd audit.violations 1 } else audit

end PermissionAudit

def MapperState.activeMappingCount (state : MapperState) : Nat :=
  (List.ofFn state.records).countP MappingRecord.active

/-- The audit before the loop. -/
def PermissionAudit.start (boot : BootTables) (m : Memory) : PermissionAudit where
  checkedPages := 0
  violations := 0
  kernelPages := 0
  heapPages := 0
  userPages := 0
  testPages := 0
  guardPagesIntact := !(translate boot m kernelHeapGuardLow).mapped
    && !(translate boot m kernelHeapGuardHigh).mapped
  trackingConsistent := true

def permissionAudit (boot : BootTables) (m : Memory) (state : MapperState) : PermissionAudit :=
  let audit := (List.ofFn state.records).foldl (PermissionAudit.check boot m) (.start boot m)
  let audit :=
    if audit.checkedPages ≠ state.activeMappingCount ∨ state.trackingOverflows ≠ 0 then
      { audit with trackingConsistent := false, violations := satAdd audit.violations 1 }
    else audit
  if !audit.guardPagesIntact then { audit with violations := satAdd audit.violations 1 } else audit

namespace PermissionAudit

variable {boot : BootTables} {m : Memory}

/-- Records that agree with the tables only count. -/
structure Counts (audit audit' : PermissionAudit) (pages : Nat) : Prop where
  checkedPages : audit.checkedPages + pages ≤ maxWord →
    audit'.checkedPages = audit.checkedPages + pages
  violations : audit'.violations = audit.violations
  guardPagesIntact : audit'.guardPagesIntact = audit.guardPagesIntact
  trackingConsistent : audit'.trackingConsistent = audit.trackingConsistent

/-- A record that agrees with the tables adds nothing but to the count. -/
theorem check_counts {record : MappingRecord} (audit : PermissionAudit)
    (agree : record.active = true → agrees boot m record = true) :
    Counts audit (audit.check boot m record) (if record.active then 1 else 0) := by
  unfold check
  cases active : record.active with
  | false => exact ⟨fun _ => rfl, rfl, rfl, rfl⟩
  | true =>
      simp only [agree active, Bool.not_true, Bool.false_eq_true, if_false, if_true]
      cases record.owner with
      | kernel => exact ⟨satAdd_of_le, rfl, rfl, rfl⟩
      | heap => exact ⟨satAdd_of_le, rfl, rfl, rfl⟩
      | user => exact ⟨satAdd_of_le, rfl, rfl, rfl⟩
      | test => exact ⟨satAdd_of_le, rfl, rfl, rfl⟩

/-- Record by record. -/
theorem foldl_counts (records : List MappingRecord) (audit : PermissionAudit)
    (agree : ∀ record ∈ records, record.active = true → agrees boot m record = true) :
    Counts audit (records.foldl (check boot m) audit) (records.countP MappingRecord.active) := by
  induction records generalizing audit with
  | nil => exact ⟨fun _ => rfl, rfl, rfl, rfl⟩
  | cons record records ih =>
      have step := check_counts audit (agree record List.mem_cons_self)
      have rest := ih (audit.check boot m record)
        (fun other mem => agree other (List.mem_cons_of_mem _ mem))
      refine ⟨fun fits => ?_, rest.violations.trans step.violations,
        rest.guardPagesIntact.trans step.guardPagesIntact,
        rest.trackingConsistent.trans step.trackingConsistent⟩
      rw [List.countP_cons] at fits ⊢
      have counted := step.checkedPages (by omega)
      rw [List.foldl_cons, rest.checkedPages (by omega), counted]
      omega

end PermissionAudit

/-- An audit of records that agree with the tables finds nothing. -/
theorem permissionAudit_clean {boot : BootTables} {m : Memory} {state : MapperState}
    (agree : ∀ i, (state.records i).active = true →
      PermissionAudit.agrees boot m (state.records i) = true)
    (overflows : state.trackingOverflows = 0)
    (guards : ∀ w, isGuardPage w = true → translate boot m w = unmapped w) :
    (permissionAudit boot m state).violations = 0 ∧
      (permissionAudit boot m state).guardPagesIntact = true ∧
      (permissionAudit boot m state).trackingConsistent = true := by
  have low : (translate boot m kernelHeapGuardLow).mapped = false := by
    rw [guards kernelHeapGuardLow (by decide), unmapped]
  have high : (translate boot m kernelHeapGuardHigh).mapped = false := by
    rw [guards kernelHeapGuardHigh (by decide), unmapped]
  have every : ∀ record ∈ List.ofFn state.records, record.active = true →
      PermissionAudit.agrees boot m record = true := by
    intro record mem active
    obtain ⟨i, rfl⟩ := List.mem_ofFn.mp mem
    exact agree i active
  have few : (List.ofFn state.records).countP MappingRecord.active ≤ maxTrackedMappings :=
    List.countP_le_length.trans (List.length_ofFn (f := state.records)).le
  have counts := PermissionAudit.foldl_counts (List.ofFn state.records) (.start boot m) every
  have intact : (PermissionAudit.start boot m).guardPagesIntact = true := by
    rw [PermissionAudit.start, low, high]
    rfl
  have counted : ((List.ofFn state.records).foldl (PermissionAudit.check boot m)
      (.start boot m)).checkedPages = state.activeMappingCount := by
    rw [counts.checkedPages ((Nat.add_le_add_left few 0).trans (by decide))]
    exact Nat.zero_add _
  have consistent : ¬ (((List.ofFn state.records).foldl (PermissionAudit.check boot m)
      (.start boot m)).checkedPages ≠ state.activeMappingCount ∨ state.trackingOverflows ≠ 0) := by
    rintro (differ | lost)
    · exact differ counted
    · exact lost overflows
  have stillIntact := counts.guardPagesIntact.trans intact
  unfold permissionAudit
  dsimp only
  rw [if_neg consistent, if_neg (by rw [stillIntact]; exact Bool.false_ne_true)]
  exact ⟨counts.violations, stillIntact, counts.trackingConsistent⟩

/-! ### The records -/

/-- What a record in use says. -/
structure MappedPage where
  virt : Nat
  phys : Nat
  flags : Nat
  owner : PageOwner
deriving DecidableEq, Repr

def MappingRecord.page (record : MappingRecord) : Option MappedPage :=
  if record.active then some ⟨record.virt, record.phys, record.flags, record.owner⟩ else none

namespace MapperState

/-- The records as a roster of pages. -/
def tracked (s : MapperState) : Fin maxTrackedMappings → Option MappedPage :=
  fun i => (s.records i).page

/-- What `init` does to the mapper. -/
def init (s : MapperState) : MapperState := { s with initialized := true, guardPages := 2 }

/-- The counters may differ, but not what is recorded. -/
structure SameTracking (s s' : MapperState) : Prop where
  records : s'.records = s.records
  trackingOverflows : s'.trackingOverflows = s.trackingOverflows
  trackingMisses : s'.trackingMisses = s.trackingMisses

theorem SameTracking.refl (s : MapperState) : SameTracking s s := ⟨rfl, rfl, rfl⟩

theorem SameTracking.trans {s s' s'' : MapperState} (before : SameTracking s s')
    (after : SameTracking s' s'') : SameTracking s s'' :=
  ⟨after.records.trans before.records, after.trackingOverflows.trans before.trackingOverflows,
    after.trackingMisses.trans before.trackingMisses⟩

/-- The records mirror the pages, and nothing was lost on the way. -/
structure Mirrors (s : MapperState) (pages : List MappedPage) : Prop where
  lists : Lib.Roster.Lists MappedPage.virt s.tracked pages
  trackingOverflows : s.trackingOverflows = 0
  trackingMisses : s.trackingMisses = 0

variable {s s' : MapperState} {pages : List MappedPage}

theorem SameTracking.tracked (same : SameTracking s s') : s'.tracked = s.tracked := by
  funext i
  rw [MapperState.tracked, same.records]
  rfl

/-- A mirror of the records that nothing was recorded in. -/
theorem Mirrors.congr (mirrors : s.Mirrors pages) (same : SameTracking s s') :
    s'.Mirrors pages where
  lists := by
    rw [same.tracked]
    exact mirrors.lists
  trackingOverflows := same.trackingOverflows.trans mirrors.trackingOverflows
  trackingMisses := same.trackingMisses.trans mirrors.trackingMisses

/-- After `init` there are no records. -/
theorem init_mirrors : MapperState.new.init.Mirrors [] :=
  ⟨Lib.Roster.lists_empty, rfl, rfl⟩

/-- An active record is a page. -/
theorem tracked_eq_some {i : Fin maxTrackedMappings} {page : MappedPage} :
    s.tracked i = some page ↔
      s.records i = ⟨page.virt, page.phys, page.flags, page.owner, true⟩ := by
  unfold tracked MappingRecord.page
  cases s.records i with
  | mk virt phys flags owner active =>
  cases page with
  | mk virt' phys' flags' owner' =>
  cases active with
  | false => simp
  | true => simp

theorem tracked_eq_none {i : Fin maxTrackedMappings} :
    s.tracked i = none ↔ (s.records i).active = false := by
  simp [tracked, MappingRecord.page]

/-- A record that is written is the only one that changes. -/
theorem tracked_update (i : Fin maxTrackedMappings) (record : MappingRecord) :
    ({ s with records := Function.update s.records i record } : MapperState).tracked =
      Function.update s.tracked i record.page := by
  funext j
  by_cases here : j = i
  · subst here
    simp [tracked]
  · simp [tracked, here]

/-- A page that is not recorded yet gets a record, or is lost if none is free. -/
theorem recordMapping_cases {page : MappedPage}
    (isNew : ∀ i other, s.tracked i = some other → other.virt ≠ page.virt) :
    (∃ i, s.tracked i = none ∧
      (s.recordMapping page.virt page.phys page.flags page.owner).tracked =
        Function.update s.tracked i (some page) ∧
      (s.recordMapping page.virt page.phys page.flags page.owner).trackingOverflows =
        s.trackingOverflows ∧
      (s.recordMapping page.virt page.phys page.flags page.owner).trackingMisses =
        s.trackingMisses) ∨
    (∀ i, s.tracked i ≠ none) ∧
      (s.recordMapping page.virt page.phys page.flags page.owner).tracked = s.tracked := by
  have missing : (first fun i => (s.records i).active && (s.records i).virt == page.virt) =
      none := by
    rw [first_eq_none]
    intro i
    by_contra hit
    rw [Bool.not_eq_false, Bool.and_eq_true, beq_iff_eq] at hit
    exact isNew i ⟨_, _, _, _⟩ (if_pos hit.1) hit.2
  unfold MapperState.recordMapping
  rw [missing]
  dsimp only
  cases free : first fun i => !(s.records i).active with
  | none =>
      right
      refine ⟨fun i vacant => ?_, rfl⟩
      have used := first_eq_none.mp free i
      rw [tracked_eq_none.mp vacant] at used
      cases used
  | some i =>
      left
      exact ⟨i, tracked_eq_none.mpr (by simpa using first_eq_some free), tracked_update i _, rfl, rfl⟩

/-- The record of a page is dropped, if there is one. -/
theorem forgetMapping_cases (virt : Nat) :
    (∃ i page, s.tracked i = some page ∧ page.virt = virt ∧
      (s.forgetMapping virt).tracked = Function.update s.tracked i none ∧
      (s.forgetMapping virt).trackingOverflows = s.trackingOverflows ∧
      (s.forgetMapping virt).trackingMisses = s.trackingMisses) ∨
    (∀ i page, s.tracked i = some page → page.virt ≠ virt) ∧
      (s.forgetMapping virt).tracked = s.tracked := by
  unfold MapperState.forgetMapping
  cases found : first fun i => (s.records i).active && (s.records i).virt == virt with
  | none =>
      right
      refine ⟨fun i page isTracked same => ?_, rfl⟩
      have missed := first_eq_none.mp found i
      rw [tracked_eq_some.mp isTracked] at missed
      simp [same] at missed
  | some i =>
      left
      have hit := first_eq_some found
      rw [Bool.and_eq_true, beq_iff_eq] at hit
      exact ⟨i, ⟨_, _, _, _⟩, if_pos hit.1, hit.2, tracked_update i _, rfl, rfl⟩

/-- A page that is not recorded yet finds a free record. -/
theorem Mirrors.recordMapping (mirrors : s.Mirrors pages) {page : MappedPage}
    (isNew : page.virt ∉ pages.map MappedPage.virt) (room : pages.length < maxTrackedMappings) :
    (s.recordMapping page.virt page.phys page.flags page.owner).Mirrors (page :: pages) := by
  have untracked : ∀ i other, s.tracked i = some other → other.virt ≠ page.virt := by
    intro i other isTracked same
    exact isNew (same ▸ List.mem_map_of_mem (mirrors.lists.used i other isTracked))
  rcases recordMapping_cases untracked with ⟨i, vacant, tracked, overflows, misses⟩ | ⟨full, -⟩
  · refine ⟨?_, overflows.trans mirrors.trackingOverflows, misses.trans mirrors.trackingMisses⟩
    rw [tracked]
    exact mirrors.lists.put vacant isNew
  · obtain ⟨i, vacant⟩ := mirrors.lists.vacancy room
    exact absurd vacant (full i)

/-- All records of the page are made inactive, and no others. -/
theorem Mirrors.forgetMapping (mirrors : s.Mirrors pages) {page : MappedPage}
    (mem : page ∈ pages) :
    (s.forgetMapping page.virt).Mirrors (pages.filter fun other => other.virt ≠ page.virt) := by
  rcases forgetMapping_cases page.virt with ⟨i, other, isTracked, same, tracked, overflows, misses⟩ |
    ⟨missed, -⟩
  · refine ⟨?_, overflows.trans mirrors.trackingOverflows, misses.trans mirrors.trackingMisses⟩
    rw [tracked, ← same]
    exact mirrors.lists.drop isTracked
  · obtain ⟨i, isPage⟩ := mirrors.lists.placed page mem
    exact absurd rfl (missed i page isPage)

end MapperState

end CloudOS.Paging
