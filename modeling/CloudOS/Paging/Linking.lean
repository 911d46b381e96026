import CloudOS.PhysMem.Borrow
import CloudOS.Paging.Pages

/-!
The frames behind the boot tables.

Mapping a page takes a frame for every table that it links, and for nothing else but the
page. Removing a page goes through wherever one is mapped.
-/

namespace CloudOS.Paging

open Lib.Radix (node set)
open CloudOS.PhysMem (FrameSource maxRecycledFrames)
open CloudOS.PhysMem.FrameSource (Draws Borrowed)

namespace BootTables

variable {source : FrameSource} {boot : BootTables} {s s' s'' : Machine source} {flags : Nat}
  {taken later : List Nat}

/-- The frames that were taken hold the tables that are new. -/
structure Links (boot : BootTables) (s s' : Machine source) (taken : List Nat) : Prop where
  draws : Draws source s.frames taken s'.frames
  has : ∀ f, boot.Has s' f ↔ boot.Has s f ∨ f ∈ taken

theorem Links.refl (s : Machine source) : boot.Links s s [] where
  draws := .done s.frames
  has := fun f => by simp

theorem Links.trans (links : boot.Links s s' taken) (links' : boot.Links s' s'' later) :
    boot.Links s s'' (taken ++ later) where
  draws := links.draws.trans links'.draws
  has := by
    intro f
    rw [links'.has, links.has, List.mem_append, or_assoc]

/-- Steps before the page is touched link tables as well. -/
theorem Links.andThen (links : boot.Links s s' taken) (rest : ∃ later, boot.Links s' s'' later) :
    ∃ taken, boot.Links s s'' taken := by
  obtain ⟨later, links'⟩ := rest
  exact ⟨taken ++ later, links.trans links'⟩

/-- The tables did not change. -/
theorem Links.of_draws (draws : Draws source s.frames [] s'.frames)
    (same : ∀ f, boot.Has s' f ↔ boot.Has s f) : boot.Links s s' [] where
  draws := draws
  has := by
    intro f
    rw [same]
    simp

/-- Taking a frame writes nothing. -/
theorem allocateFrame_eq {answer : Option Nat} (allocates : s.allocateFrame = (answer, s')) :
    source.allocateFrame s.frames = (answer, s'.frames) ∧ s'.memory = s.memory := by
  obtain ⟨isAnswer, rfl⟩ := Prod.mk.inj allocates
  exact ⟨Prod.ext isAnswer rfl, rfl⟩

/-- The next table is there, or its frame is taken. -/
theorem Sound.ensureNextTable_links (sound : boot.Sound s) {path : List (Fin 512)} {frame : Nat}
    {i : Fin 512} (short : path.length ≤ 2)
    (reaches : node child (tables s.memory) boot.p4 path = some frame)
    {result : Except MapError Nat} (ensures : s.ensureNextTable frame i flags = (result, s')) :
    ∃ taken, boot.Links s s' taken := by
  cases sound.ensureNextTable_ends short reaches result ensures with
  | huge isHuge => exact ⟨[], .refl s⟩
  | widen leads => exact ⟨[], .of_draws (.done s.frames) (has_widened reaches)⟩
  | exhausted allocates =>
      obtain ⟨exhausted, memory⟩ := allocateFrame_eq allocates
      exact ⟨[], .of_draws (.miss exhausted (.done _)) fun f => by rw [Has, memory]⟩
  | @reject s₁ fresh allocates =>
      obtain ⟨issued, memory⟩ := allocateFrame_eq allocates
      refine ⟨[], .of_draws (.reject issued (.done _)) fun f => ?_⟩
      change Reached (tables s₁.memory) boot.p4 f ↔ _
      rw [memory]
  | @link s₁ fresh absent isFrame allocates =>
      obtain ⟨issued, memory⟩ := allocateFrame_eq allocates
      have isFresh := (Machine.allocateFrame_some allocates).2.1
      have linked : ((s₁.clear fresh).store frame i (fresh ||| presentBit ||| opened flags)).memory =
          ((s.clear fresh).store frame i (fresh ||| presentBit ||| opened flags)).memory := by
        simp only [Machine.store, Machine.clear, memory]
      refine ⟨[fresh], .take issued (.done _), fun f => ?_⟩
      rw [List.mem_singleton]
      exact sound.has_linked short reaches isFresh isFrame absent linked f

/-- Entries of pages lead nowhere. -/
theorem Sound.has_planted (sound : boot.Sound s) {virt frame value : Nat}
    (reaches : node child (tables s.memory) boot.p4 [p4Index virt, p3Index virt, p2Index virt] =
      some frame) (word : value < 2 ^ 64) (f : Nat) :
    boot.Has (s.store frame (p1Index virt) value) f ↔ boot.Has s f := by
  have stored : tables (s.store frame (p1Index virt) value).memory =
      set (tables s.memory) frame (p1Index virt) value :=
    tables_store (isFrame_of_node reaches).aligned word
  refine exists_congr fun p => and_congr_right fun shortP => ?_
  rw [stored, sound.sheltered.node_planted rfl reaches shortP]

/-- The descent links the tables it had to make, and no other frame. -/
theorem Sound.descent_links (sound : boot.Sound s) {virt table : Nat} {path : List (Fin 512)}
    (descent : Machine.Descent boot.p4 virt flags s path table s') :
    ∃ taken, boot.Links s s' taken := by
  induction descent with
  | root => exact ⟨[], .refl s⟩
  | level above short _ _ ensures ih =>
      obtain ⟨taken, links⟩ := ih
      obtain ⟨sound₁, -, -, reaches, -⟩ := sound.descent above
      exact links.andThen (sound₁.ensureNextTable_links short reaches ensures)

/-- Mapping a page takes the frames of the new tables. -/
theorem Sound.mapPageInnerWithFlags_links (sound : boot.Sound s) (isFlags : IsFlags flags)
    {virt phys : Nat} {owner : PageOwner} {result : Except MapError Unit}
    (maps : s.mapPageInnerWithFlags boot virt phys flags owner = (result, s')) :
    ∃ taken, boot.Links s s' taken := by
  cases Machine.mapPageInnerWithFlags_ends maps with
  | refuse descent => exact sound.descent_links descent
  | stick descent short _ _ ensures =>
      obtain ⟨taken, links⟩ := sound.descent_links descent
      obtain ⟨sound₁, -, -, reaches, -⟩ := sound.descent descent
      exact links.andThen (sound₁.ensureNextTable_links short reaches ensures)
  | @plant p1 s₁ _ _ isFrame _ descent _ isState =>
      obtain ⟨taken, links⟩ := sound.descent_links descent
      obtain ⟨sound₁, -, -, reaches, -⟩ := sound.descent descent
      have word := Nat.or_lt_two_pow isFrame.lt_word isFlags.word
      refine links.andThen ⟨[], ?_⟩
      rw [isState]
      exact .of_draws (.done s₁.frames) (sound₁.has_planted reaches word)

/-- Since the state `before`, a call that maps a new page keeps the frames of new tables,
and takes the frame of the page on trial if it succeeds. -/
theorem Sound.mapNewPageWithFlags_borrowed (sound : boot.Sound s) (isFlags : IsFlags flags)
    {before : source.State} {kept trial : List Nat}
    (borrowed : Borrowed source before s.frames kept trial)
    (few : trial.length + 1 < maxRecycledFrames) {virt : Nat} {owner : PageOwner}
    {result : Except MapError Nat}
    (maps : s.mapNewPageWithFlags boot virt flags owner = (result, s')) :
    ∃ taken, Borrowed source before s'.frames (kept ++ taken) (trial ++ result.toOption.toList) ∧
      ∀ f, boot.Has s' f ↔ boot.Has s f ∨ f ∈ taken := by
  have nothing : ∀ {s₁ : Machine source}, Borrowed source before s₁.frames kept trial →
      (∀ f, boot.Has s₁ f ↔ boot.Has s f) →
      ∃ taken, Borrowed source before s₁.frames (kept ++ taken) (trial ++ []) ∧
        ∀ f, boot.Has s₁ f ↔ boot.Has s f ∨ f ∈ taken := by
    intro s₁ borrowed₁ same
    refine ⟨[], ?_, fun f => (same f).trans (by simp)⟩
    rwa [List.append_nil, List.append_nil]
  have sameHas : ∀ {answer s₁}, s.allocateFrame = (answer, s₁) →
      ∀ f, boot.Has s₁ f ↔ boot.Has s f := by
    intro answer s₁ allocates f
    rw [Has, (allocateFrame_eq allocates).2]
  -- the frame of the page is on trial while the tables are linked
  have inner : ∀ {phys : Nat} {s₁ s₂ : Machine source} {result : Except MapError Unit},
      s.allocateFrame = (some phys, s₁) →
      (s₁.clear phys).mapPageInnerWithFlags boot virt phys flags owner = (result, s₂) →
      ∃ taken, Borrowed source before s₂.frames (kept ++ taken) (trial ++ [phys]) ∧
        ∀ f, boot.Has s₂ f ↔ boot.Has s f ∨ f ∈ taken := by
    intro phys s₁ s₂ result allocates maps
    obtain ⟨issued, memory⟩ := allocateFrame_eq allocates
    obtain ⟨sound₁, -, -, isFresh, -⟩ := sound.take [] flags allocates
    have aligned := (Machine.allocateFrame_some allocates).1
    have unreached : ¬ boot.Has s phys := fun has => isFresh (sound.held phys has)
    have cleared : ∀ f, boot.Has (s₁.clear phys) f ↔ boot.Has s f := by
      intro f
      refine exists_congr fun p => and_congr_right fun shortP => ?_
      have stored : tables (s₁.clear phys).memory = Lib.Radix.fill (tables s.memory) phys 0 := by
        rw [← memory]
        exact tables_clear aligned
      rw [stored, node_fill unreached (by omega)]
    obtain ⟨taken, links⟩ := sound₁.mapPageInnerWithFlags_links isFlags maps
    refine ⟨taken, (borrowed.borrow issued (by omega)).draws links.draws ?_, fun f => ?_⟩
    · rw [List.length_append, List.length_singleton]
      exact few
    · rw [links.has, cleared]
  cases Machine.mapNewPageWithFlags_ends maps with
  | refuse => exact nothing borrowed fun _ => Iff.rfl
  | exhausted allocates =>
      exact nothing (borrowed.miss (allocateFrame_eq allocates).1) (sameHas allocates)
  | reject allocates =>
      have same := sameHas allocates
      exact nothing (borrowed.reject (allocateFrame_eq allocates).1 (by omega)) fun f => same f
  | undo allocates fails =>
      obtain ⟨taken, withPage, has⟩ := inner allocates fails
      exact ⟨taken, (List.append_nil trial).symm ▸ withPage.giveBack.2, has⟩
  | map allocates done => exact inner allocates done

/-! ### Removing a page that is there -/

/-- Where a small page is mapped, the walk of `unmap_page` arrives. -/
theorem Sound.unmapPage_of_leaf (sound : boot.Sound s) {virt e : Nat}
    (aligned : virt % pageSize4k = 0)
    (inRange : inManagedVirtualRange virt = true ∨ inUserVirtualRange virt = true)
    (isLeaf : leaf (tables s.memory) boot.p4 virt = some ⟨false, e⟩) :
    ∃ s', s.unmapPage boot virt = (.ok (entryAddr e), s') ∧ s'.frames = s.frames ∧
      ∀ f, boot.Has s' f ↔ boot.Has s f := by
  obtain ⟨p2, reaches2, below⟩ := Option.bind_eq_some_iff.mp isLeaf
  unfold leafBelow at below
  split at below
  · cases below
  obtain ⟨p1, leads2, entry1⟩ := Option.bind_eq_some_iff.mp below
  have reaches1 : node child (tables s.memory) boot.p4
      [p4Index virt, p3Index virt, p2Index virt] = some p1 :=
    Sheltered.node_snoc reaches2 leads2
  simp only [node, Option.bind_eq_some_iff] at reaches2
  obtain ⟨p3, leads4, p2', leads3, isP2⟩ := reaches2
  obtain rfl := Option.some.inj isP2
  cases present1 : entryPresent (tables s.memory p1 (p1Index virt)) with
  | false =>
      rw [present1] at entry1
      cases entry1
  | true =>
      rw [present1, if_pos rfl] at entry1
      have isEntry := (Leaf.mk.inj (Option.some.inj entry1)).2
      obtain ⟨present4, -, to3⟩ := present_of_child leads4
      obtain ⟨present3, -, to2⟩ := present_of_child leads3
      obtain ⟨present2, small2, to1⟩ := present_of_child leads2
      have reads4 := tables_of_aligned (m := s.memory) boot.aligned.1 (p4Index virt)
      have reads3 := tables_of_aligned (m := s.memory) (isFrame_of_child leads4).aligned
        (p3Index virt)
      have reads2 := tables_of_aligned (m := s.memory) (isFrame_of_child leads3).aligned
        (p2Index virt)
      have reads1 := tables_of_aligned (m := s.memory) (isFrame_of_child leads2).aligned
        (p1Index virt)
      have covered : (!inManagedVirtualRange virt && !inUserVirtualRange virt) = false := by
        rcases inRange with managed | user
        · rw [managed]
          rfl
        · rw [user]
          exact Bool.and_false _
      unfold Machine.unmapPage
      rw [isPageAligned_of_mod aligned, covered, ← reads4]
      dsimp only
      rw [present4, to3]
      dsimp only
      rw [← reads3, present3, to2]
      dsimp only
      rw [← reads2, small2, present2, to1]
      dsimp only
      rw [← reads1, present1, isEntry]
      exact ⟨_, rfl, rfl, sound.has_planted reaches1 (by decide)⟩

end BootTables

end CloudOS.Paging
