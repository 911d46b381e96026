import CloudOS.Paging.Linking
import CloudOS.Paging.Mirror
import CloudOS.Paging.Space

/-!
Every state of the boot tables that the kernel can reach.

Besides the calls that map and remove pages, anybody may take frames, give back frames
that are no boot tables, and write to memory outside these tables. In all of these
states, also when more pages are mapped than there are records, a record is one of a
mapped page and no page has two.
-/

namespace CloudOS.Paging

open Lib.Store (Memory)
open CloudOS.PhysMem (FrameSource)
open MapperState (SameTracking recordMapping_cases forgetMapping_cases)

variable {source : FrameSource} {boot : BootTables} {s₀ s s' : Machine source}

/-! ### Records of mapped pages -/

/-- Records are of mapped pages, one for each page at most. -/
structure Shown (boot : BootTables) (s : Machine source) : Prop where
  mapped : ∀ i page, s.mapper.tracked i = some page →
    IsPage page.virt ∧ leaf (tables s.memory) boot.p4 page.virt ≠ none
  once : ∀ i j page other, s.mapper.tracked i = some page → s.mapper.tracked j = some other →
    page.virt = other.virt → i = j

/-- Neither the leaves nor the records changed. -/
theorem Shown.congr (shown : Shown boot s) (same : boot.SameLeaves s s')
    (tracked : s'.mapper.tracked = s.mapper.tracked) : Shown boot s' where
  mapped := by
    intro i page isTracked
    rw [tracked] at isTracked
    rw [same]
    exact shown.mapped i page isTracked
  once := by
    rw [tracked]
    exact shown.once

/-- A page that is not mapped has no record. -/
theorem Shown.untracked (shown : Shown boot s) {virt : Nat}
    (vacant : leaf (tables s.memory) boot.p4 virt = none) (i : Fin maxTrackedMappings)
    (page : MappedPage) (isTracked : s.mapper.tracked i = some page) : page.virt ≠ virt := by
  rintro rfl
  exact (shown.mapped i page isTracked).2 vacant

/-- What a call that maps a page does to the records. -/
inductive Noted (s : Machine source) (page : MappedPage) (s' : Machine source) : Prop where
  | kept (i : Fin maxTrackedMappings) (vacant : s.mapper.tracked i = none)
      (tracked : s'.mapper.tracked = Function.update s.mapper.tracked i (some page))
  | lost (tracked : s'.mapper.tracked = s.mapper.tracked)

/-- What a call that removes a page does to the records. -/
inductive Struck (s : Machine source) (virt : Nat) (s' : Machine source) : Prop where
  | dropped (i : Fin maxTrackedMappings) (page : MappedPage)
      (isTracked : s.mapper.tracked i = some page) (same : page.virt = virt)
      (tracked : s'.mapper.tracked = Function.update s.mapper.tracked i none)
  | missed (none_ : ∀ i page, s.mapper.tracked i = some page → page.virt ≠ virt)
      (tracked : s'.mapper.tracked = s.mapper.tracked)

section Call

variable {call : MapCall} {answer : Answer} {phys : Nat}

/-- A mapped page is recorded once, behind those that are. -/
theorem Tracks.noted (tracks : Tracks s call (.mapped phys) s')
    (untracked : ∀ i page, s.mapper.tracked i = some page → page.virt ≠ call.virt) :
    Noted s ⟨call.virt, phys, call.flags, call.owner⟩ s' := by
  have recorded := tracks.mapped phys rfl
  generalize isRecord : MappedPage.mk call.virt phys call.flags call.owner = record at recorded
  have isVirt : record.virt = call.virt := by rw [← isRecord]
  generalize isMapper : s'.mapper = after at recorded
  cases recorded with
  | @page before page same =>
      rw [← same.tracked, ← isVirt] at untracked
      rcases recordMapping_cases untracked with ⟨i, vacant, tracked, -⟩ | ⟨-, tracked⟩
      · rw [same.tracked] at vacant tracked
        exact .kept i vacant (isMapper ▸ tracked)
      · rw [same.tracked] at tracked
        exact .lost (isMapper ▸ tracked)

/-- The record of a page that was removed is struck. -/
theorem Tracks.struck (tracks : Tracks s call (.removed phys) s') : Struck s call.virt s' := by
  obtain ⟨-, before, same, isMapper⟩ := tracks.removed phys rfl
  rcases forgetMapping_cases (s := before) call.virt with
    ⟨i, page, isTracked, isVirt, tracked, -⟩ | ⟨missed, tracked⟩
  · rw [same.tracked] at isTracked tracked
    exact .dropped i page isTracked isVirt (isMapper ▸ tracked)
  · rw [same.tracked] at missed tracked
    exact .missed missed (isMapper ▸ tracked)

/-- A page is mapped. -/
theorem Shown.map (shown : Shown boot s) (effect : Effect boot s call (.mapped phys) s')
    (tracks : Tracks s call (.mapped phys) s') : Shown boot s' := by
  obtain ⟨-, admissible, replaces⟩ := effect.mapped phys rfl
  have isPage := isPage_of_mappable admissible.virtAligned admissible.inRange
  have untracked := shown.untracked replaces.before
  have old : ∀ i page, s.mapper.tracked i = some page →
      IsPage page.virt ∧ leaf (tables s'.memory) boot.p4 page.virt ≠ none := by
    intro i page isTracked
    obtain ⟨isPage', mapped⟩ := shown.mapped i page isTracked
    refine ⟨isPage', ?_⟩
    rw [effect.elsewhere fun same => untracked i page isTracked (isPage.eq_of_indices isPage' same)]
    exact mapped
  cases tracks.noted untracked with
  | kept i vacant tracked =>
      constructor
      · intro j page isTracked
        rw [tracked] at isTracked
        by_cases here : j = i
        · rw [here, Function.update_self] at isTracked
          obtain rfl := Option.some.inj isTracked
          refine ⟨isPage, ?_⟩
          rw [replaces.after]
          simp
        · rw [Function.update_of_ne here] at isTracked
          exact old j page isTracked
      · intro j k page other isTracked isOther same
        rw [tracked] at isTracked isOther
        by_cases here : j = i
        · by_cases here' : k = i
          · exact here.trans here'.symm
          · rw [here, Function.update_self] at isTracked
            rw [Function.update_of_ne here'] at isOther
            obtain rfl := Option.some.inj isTracked
            exact absurd same.symm (untracked k other isOther)
        · rw [Function.update_of_ne here] at isTracked
          by_cases here' : k = i
          · rw [here', Function.update_self] at isOther
            obtain rfl := Option.some.inj isOther
            exact absurd same (untracked j page isTracked)
          · rw [Function.update_of_ne here'] at isOther
            exact shown.once j k page other isTracked isOther same
  | lost tracked =>
      constructor
      · intro i page isTracked
        rw [tracked] at isTracked
        exact old i page isTracked
      · rw [tracked]
        exact shown.once

/-- A page is removed. -/
theorem Shown.remove (shown : Shown boot s) (effect : Effect boot s call (.removed phys) s')
    (tracks : Tracks s call (.removed phys) s') : Shown boot s' := by
  obtain ⟨aligned, e, -, replaces⟩ := effect.removed phys rfl
  have isPage : IsPage call.virt := ⟨aligned, (tracks.removed phys rfl).1⟩
  have other : ∀ i page, s.mapper.tracked i = some page → page.virt ≠ call.virt →
      IsPage page.virt ∧ leaf (tables s'.memory) boot.p4 page.virt ≠ none := by
    intro i page isTracked different
    obtain ⟨isPage', mapped⟩ := shown.mapped i page isTracked
    refine ⟨isPage', ?_⟩
    rw [effect.elsewhere fun same => different (isPage.eq_of_indices isPage' same)]
    exact mapped
  cases tracks.struck with
  | dropped i removed isRemoved isVirt tracked =>
      have kept : ∀ j page, s'.mapper.tracked j = some page →
          j ≠ i ∧ s.mapper.tracked j = some page := by
        intro j page isTracked
        rw [tracked] at isTracked
        by_cases here : j = i
        · rw [here, Function.update_self] at isTracked
          cases isTracked
        · rw [Function.update_of_ne here] at isTracked
          exact ⟨here, isTracked⟩
      constructor
      · intro j page isTracked
        obtain ⟨different, isTracked⟩ := kept j page isTracked
        refine other j page isTracked fun same => different ?_
        exact shown.once j i page removed isTracked isRemoved (same.trans isVirt.symm)
      · intro j k page page' isTracked isTracked' same
        exact shown.once j k page page' (kept j page isTracked).2 (kept k page' isTracked').2 same
  | missed none_ tracked =>
      constructor
      · intro i page isTracked
        rw [tracked] at isTracked
        exact other i page isTracked (none_ i page isTracked)
      · rw [tracked]
        exact shown.once

end Call

/-- Every call keeps the records in line with the tables. -/
theorem Shown.step (sound : boot.Sound s) (shown : Shown boot s) (call : MapCall) :
    Shown boot (call.run boot s).2 := by
  have effect := run_effect sound call
  have tracks := run_tracks sound call
  generalize (call.run boot s).2 = s' at *
  cases answer : (call.run boot s).1 with
  | mapped phys =>
      rw [answer] at effect tracks
      exact shown.map effect tracks
  | removed phys =>
      rw [answer] at effect tracks
      exact shown.remove effect tracks
  | mapError error =>
      rw [answer] at effect tracks
      exact shown.congr (effect.failed (by simp) (by simp))
        (tracks.failed (by simp) (by simp)).tracked
  | unmapError error =>
      rw [answer] at effect tracks
      exact shown.congr (effect.failed (by simp) (by simp))
        (tracks.failed (by simp) (by simp)).tracked

/-! ### Reachable states -/

/-- The states that follow the start. -/
inductive Reachable (boot : BootTables) (s₀ : Machine source) : Machine source → Prop where
  | launch : Reachable boot s₀ (boot.launch s₀)
  | call {s : Machine source} (reachable : Reachable boot s₀ s) (call : MapCall) :
      Reachable boot s₀ (call.run boot s).2
  | allocate {s : Machine source} (reachable : Reachable boot s₀ s) :
      Reachable boot s₀ s.allocateFrame.2
  | free {s : Machine source} (reachable : Reachable boot s₀ s) (frame : Nat)
      (noTable : ¬ boot.Has s frame) : Reachable boot s₀ (s.freeFrame frame).2
  | write {s : Machine source} (reachable : Reachable boot s₀ s) (m : Memory)
      (noTable : ∀ frame, boot.Has s frame → ∀ a, frame ≤ a → a < frame + pageSize4k →
        m a = s.memory a) : Reachable boot s₀ { s with memory := m }

theorem launch_shown (s₀ : Machine source) : Shown boot (boot.launch s₀) where
  mapped := fun _ _ isTracked => by cases isTracked
  once := fun _ _ _ _ isTracked => by cases isTracked

/-- By induction over the calls, in every reachable state. -/
theorem Reachable.sound_shown (reserved : boot.Reserved source) (reachable : Reachable boot s₀ s) :
    boot.Sound s ∧ Shown boot s := by
  induction reachable with
  | launch => exact ⟨boot.enter_sound reserved _, launch_shown s₀⟩
  | call _ call ih => exact ⟨(run_effect ih.1 call).sound, ih.2.step ih.1 call⟩
  | @allocate s _ ih =>
      cases allocates : s.allocateFrame with
      | mk answer s' =>
      cases answer with
      | none =>
          obtain ⟨held, outside⟩ := Machine.allocateFrame_none allocates
          exact ⟨ih.1.of_sameOutside outside fun x => (held x).mpr,
            ih.2.congr (fun virt => by rw [outside.memory]) (by rw [outside.mapper])⟩
      | some frame =>
          obtain ⟨-, -, held, outside⟩ := Machine.allocateFrame_some allocates
          exact ⟨ih.1.of_sameOutside outside fun x heldX => (held x).mpr (.inr heldX),
            ih.2.congr (fun virt => by rw [outside.memory]) (by rw [outside.mapper])⟩
  | free _ frame noTable ih => exact ⟨ih.1.free noTable, ih.2.congr (fun _ => rfl) rfl⟩
  | @write s _ m noTable ih =>
      have confined : Confined (fun frame => ¬ boot.Has s frame) s { s with memory := m } := by
        refine ⟨fun _ held _ => held, fun frame a _ _ has from_ below => ?_, rfl⟩
        exact noTable frame (not_not.mp has) a from_ below
      obtain ⟨sound, -, same, -⟩ := ih.1.confined confined fun frame has => not_not.mpr has
      exact ⟨sound, ih.2.congr same rfl⟩

end CloudOS.Paging
