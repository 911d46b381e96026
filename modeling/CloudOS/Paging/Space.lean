import CloudOS.Paging.FrameLaw

/-!
The tables of one address space: a tree of private tables over the user region,
with an entry for every recorded page.
-/

namespace CloudOS.Paging

open Lib.Radix (node set fill)
open Lib.Store (Memory)
open Lib.Word (satAdd)
open CloudOS.PhysMem (FrameSource)

/-! ### Memory that others hold -/

section Confined

variable {source : FrameSource} {s s' s'' : Machine source} {own own' : Nat → Prop}

/-- Only frames of `own` and frames that were available are touched. -/
structure Confined (own : Nat → Prop) (s s' : Machine source) : Prop where
  held : ∀ x, s.Held x → ¬ own x → s'.Held x
  untouched : ∀ frame a, frame % pageSize4k = 0 → s.Held frame → ¬ own frame →
    frame ≤ a → a < frame + pageSize4k → s'.memory a = s.memory a
  initialized : s'.initialized = s.initialized

namespace Confined

theorem refl (own : Nat → Prop) (s : Machine source) : Confined own s s :=
  ⟨fun _ held _ => held, fun _ _ _ _ _ _ _ => rfl, rfl⟩

theorem trans (before : Confined own s s') (after : Confined own s' s'') : Confined own s s'' where
  held := fun x held other => after.held x (before.held x held other) other
  untouched := by
    intro frame a aligned held other from_ below
    rw [after.untouched frame a aligned (before.held frame held other) other from_ below,
      before.untouched frame a aligned held other from_ below]
  initialized := after.initialized.trans before.initialized

theorem mono (confined : Confined own s s') (sub : ∀ x, own x → own' x) : Confined own' s s' where
  held := fun x held other => confined.held x held fun mine => other (sub x mine)
  untouched := fun frame a aligned held other =>
    confined.untouched frame a aligned held fun mine => other (sub frame mine)
  initialized := confined.initialized

theorem of_sameOutside (same : Machine.SameOutside s s') (held : ∀ x, s.Held x → s'.Held x) :
    Confined own s s' :=
  ⟨fun x heldX _ => held x heldX, fun _ a _ _ _ _ _ => congrFun same.memory a, same.initialized⟩

/-- A table that is not one's own stays as it is. -/
theorem tables (confined : Confined own s s') {frame : Nat} (aligned : frame % pageSize4k = 0)
    (held : s.Held frame) (other : ¬ own frame) (i : Fin 512) :
    Paging.tables s'.memory frame i = Paging.tables s.memory frame i :=
  tables_congr (fun a => confined.untouched frame a aligned held other) i

/-- A store into a table of one's own. -/
theorem store (s : Machine source) {table : Nat} (mine : own table)
    (aligned : table % pageSize4k = 0) (i : Fin 512) (value : Nat) :
    Confined own s (s.store table i value) := by
  refine ⟨fun _ held _ => held, fun frame a aligned' _ other from_ below => ?_, rfl⟩
  have different : frame ≠ table := by
    rintro rfl
    exact other mine
  exact s.store_memory_of_outside i value (apart_of_ne aligned' aligned different from_ below)

end Confined

/-- The boot tree evolves within its own frames. -/
theorem BootTables.Evolves.confined {boot : BootTables} {target : List (Fin 512)} {flags : Nat}
    (evolves : boot.Evolves target flags s s') : Confined (boot.Has s) s s' :=
  ⟨fun x held _ => evolves.held x held, evolves.untouched, evolves.initialized⟩

/-- Tables that are not touched stay as they are. -/
theorem Sheltered.congr {T T' : Nat → Fin 512 → Nat} {root : Nat} (sheltered : Sheltered T root)
    (same : ∀ frame, Reached T root frame → ∀ i, T' frame i = T frame i) :
    Sheltered T' root ∧ (∀ path, path.length ≤ 4 →
      node child T' root path = node child T root path) ∧
      ∀ virt, leaf T' root virt = leaf T root virt := by
  have nodes : ∀ path : List (Fin 512), path.length ≤ 4 →
      node child T' root path = node child T root path := by
    intro path short
    refine Lib.Radix.node_congr fun before index after frame split reaches => ?_
    have inTree : before.length ≤ 3 := by
      rw [split] at short
      simp only [List.length_append, List.length_cons] at short
      omega
    rw [same frame ⟨before, inTree, reaches⟩]
  refine ⟨⟨?_, ?_, ?_, ?_⟩, nodes, ?_⟩
  · intro p q f shortP shortQ
    rw [nodes p (by omega), nodes q (by omega)]
    exact sheltered.tree p q f shortP shortQ
  · intro p f i short
    rw [nodes p (by omega)]
    intro reaches
    rw [same f ⟨p, by omega, reaches⟩]
    exact sheltered.small i short reaches
  · intro p f i short
    rw [nodes p (by omega)]
    intro reaches
    rw [same f ⟨p, by omega, reaches⟩]
    exact sheltered.inner i short reaches
  · intro p f next i j short
    rw [nodes p (by omega)]
    intro reaches
    rw [same f ⟨p, by omega, reaches⟩]
    intro leads
    rw [same next ⟨p ++ [i], by simp; omega, node_snoc reaches leads⟩]
    exact sheltered.covers i j short reaches leads
  · intro virt
    refine leaf_congr (nodes _ (by simp)) fun p2 reaches => ?_
    rw [same p2 ⟨_, by simp, reaches⟩]
    refine leafBelow_congr fun p1 leads => ?_
    rw [same p1 ⟨_, by simp, node_snoc reaches leads⟩]

/-- The boot tables do not notice what happens in other frames. -/
theorem BootTables.Sound.confined {boot : BootTables} (sound : boot.Sound s)
    (confined : Confined own s s') (apart : ∀ frame, boot.Has s frame → ¬ own frame) :
    boot.Sound s' ∧ (∀ frame, boot.Has s' frame ↔ boot.Has s frame) ∧ boot.SameLeaves s s' ∧
      ∀ frame, boot.Has s frame → ∀ i, tables s'.memory frame i = tables s.memory frame i := by
  have same : ∀ frame, boot.Has s frame → ∀ i,
      tables s'.memory frame i = tables s.memory frame i := by
    intro frame has
    obtain ⟨path, -, reaches⟩ := id has
    exact confined.tables (isFrame_of_node reaches).aligned (sound.held frame has)
      (apart frame has)
  obtain ⟨sheltered, nodes, leaves⟩ := sound.sheltered.congr same
  have sameHas : ∀ frame, boot.Has s' frame ↔ boot.Has s frame := by
    intro frame
    refine exists_congr fun path => and_congr_right fun short => ?_
    rw [nodes path (by omega)]
  refine ⟨⟨sheltered, fun frame has => ?_⟩, sameHas, leaves, same⟩
  have has' := (sameHas frame).mp has
  exact confined.held frame (sound.held frame has') (apart frame has')

/-! ### A new frame -/

/-- A frame that nobody held, filled with zeros. -/
theorem Machine.allocateZeroedFrame_ok {frame : Nat}
    (allocates : s.allocateZeroedFrame = (.ok frame, s')) :
    IsFrame frame ∧ ¬ s.Held frame ∧ (∀ x, s'.Held x ↔ x = frame ∨ s.Held x) ∧
      s'.memory = zeroFrame s.memory frame ∧ s'.initialized = s.initialized := by
  unfold Machine.allocateZeroedFrame at allocates
  cases taken : s.allocateFrame with
  | mk answer s₁ =>
  rw [taken] at allocates
  cases answer with
  | none => cases allocates
  | some fresh =>
      obtain ⟨aligned, isFresh, held, outside⟩ := Machine.allocateFrame_some taken
      dsimp only at allocates
      split_ifs at allocates with reachable
      · cases allocates
      · obtain ⟨isOk, rfl⟩ := Prod.mk.inj allocates
        obtain rfl := Except.ok.inj isOk
        rw [Bool.not_eq_true', Bool.not_eq_false] at reachable
        refine ⟨⟨aligned, of_decide_eq_true reachable⟩, isFresh, held, ?_, outside.initialized⟩
        rw [Machine.clear, outside.memory]

/-- A frame that cannot be reached is put back. -/
theorem Machine.allocateZeroedFrame_error {error : AddressSpaceError}
    (allocates : s.allocateZeroedFrame = (.error error, s')) :
    SameOutside s s' ∧ ∀ x, s.Held x → s'.Held x := by
  unfold Machine.allocateZeroedFrame at allocates
  cases taken : s.allocateFrame with
  | mk answer s₁ =>
  rw [taken] at allocates
  cases answer with
  | none =>
      obtain ⟨-, rfl⟩ := Prod.mk.inj allocates
      obtain ⟨held, outside⟩ := Machine.allocateFrame_none taken
      exact ⟨outside, fun x => (held x).mpr⟩
  | some fresh =>
      obtain ⟨-, isFresh, held, outside⟩ := Machine.allocateFrame_some taken
      dsimp only at allocates
      split_ifs at allocates with reachable
      · obtain ⟨-, rfl⟩ := Prod.mk.inj allocates
        refine ⟨⟨outside.memory, outside.initialized, outside.mapper, outside.stats⟩,
          fun x heldX => ?_⟩
        have different : x ≠ fresh := by
          rintro rfl
          exact isFresh heldX
        rw [s₁.freeFrame_held fresh different, held]
        exact .inr heldX
      · cases allocates

/-- In the account of the allocator, one frame is drawn or none. -/
theorem Machine.allocateZeroedFrame_draws {result : Except AddressSpaceError Nat}
    (allocates : s.allocateZeroedFrame = (result, s')) :
    source.Draws s.frames result.toOption.toList s'.frames := by
  unfold Machine.allocateZeroedFrame at allocates
  cases taken : s.allocateFrame with
  | mk answer s₁ =>
  rw [taken] at allocates
  obtain ⟨isAnswer, isState⟩ := Prod.mk.inj taken
  have frames : source.allocateFrame s.frames = (answer, s₁.frames) :=
    Prod.ext isAnswer (by rw [← isState])
  cases answer with
  | none =>
      obtain ⟨rfl, rfl⟩ := Prod.mk.inj allocates
      exact .miss frames (.done _)
  | some fresh =>
      dsimp only at allocates
      split_ifs at allocates
      · obtain ⟨rfl, rfl⟩ := Prod.mk.inj allocates
        exact .reject frames (.done _)
      · obtain ⟨rfl, rfl⟩ := Prod.mk.inj allocates
        exact .take frames (.done _)

/-- Taking a frame touches nobody else's. -/
theorem Confined.of_cleared {frame : Nat} (isFrame : IsFrame frame) (isFresh : ¬ s.Held frame)
    (held : ∀ x, s'.Held x ↔ x = frame ∨ s.Held x) (memory : s'.memory = zeroFrame s.memory frame)
    (initialized : s'.initialized = s.initialized) : Confined own s s' := by
  refine ⟨fun x heldX _ => (held x).mpr (.inr heldX), ?_, initialized⟩
  intro other a aligned heldOther _ from_ below
  have different : other ≠ frame := by
    rintro rfl
    exact isFresh heldOther
  rw [memory]
  exact s.clear_memory_of_outside (apart_of_ne aligned isFrame.aligned different from_ below)

end Confined

/-! ### Enough frames -/

/-- The next `n` frames are there and within reach of the identity map. -/
def supplies (source : FrameSource) : Nat → source.State → Bool
  | 0, _ => true
  | n + 1, s =>
      match source.allocateFrame s with
      | (none, _) => false
      | (some frame, s) => identityReachable frame && supplies source n s

section Frames

variable {source : FrameSource} {s : Machine source} {n : Nat}

theorem supplies_mono {m : Nat} (fewer : m ≤ n) {state : source.State}
    (enough : supplies source n state = true) : supplies source m state = true := by
  induction n generalizing m state with
  | zero =>
      rw [Nat.le_zero.mp fewer]
      rfl
  | succ n ih =>
      cases m with
      | zero => rfl
      | succ m =>
          unfold supplies at enough ⊢
          cases allocates : source.allocateFrame state with
          | mk answer state' =>
          rw [allocates] at enough
          cases answer with
          | none => cases enough
          | some frame =>
              dsimp only at enough ⊢
              rw [Bool.and_eq_true] at enough
              rw [enough.1, ih (by omega) enough.2]
              rfl

/-- The first frame in supply is handed out. -/
theorem Machine.allocateFrame_supplied (enough : supplies source (n + 1) s.frames = true) :
    ∃ frame s', s.allocateFrame = (some frame, s') ∧ identityReachable frame = true ∧
      supplies source n s'.frames = true := by
  unfold supplies at enough
  unfold Machine.allocateFrame
  cases allocates : source.allocateFrame s.frames with
  | mk answer state =>
  rw [allocates] at enough
  cases answer with
  | none => cases enough
  | some frame =>
      rw [Bool.and_eq_true] at enough
      exact ⟨frame, _, rfl, enough.1, enough.2⟩

/-- A frame in supply can be reached, so it is cleared and handed out. -/
theorem Machine.allocateZeroedFrame_supplied (enough : supplies source (n + 1) s.frames = true) :
    ∃ frame s', s.allocateZeroedFrame = (.ok frame, s') ∧ supplies source n s'.frames = true := by
  obtain ⟨frame, s', allocates, reachable, rest⟩ := allocateFrame_supplied enough
  refine ⟨frame, s'.clear frame, ?_, rest⟩
  rw [allocateZeroedFrame, allocates]
  dsimp only
  rw [reachable, Bool.not_true, if_neg Bool.false_ne_true]

end Frames

end CloudOS.Paging
