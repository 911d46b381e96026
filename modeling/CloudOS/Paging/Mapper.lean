import CloudOS.Paging.Update

/-!
The mapper of the boot tables keeps them sheltered, and touches no memory that
somebody else holds.
-/

namespace CloudOS.Paging

open Lib.Radix (node set fill Tree)
open Lib.Word (satAdd)
open CloudOS.PhysMem (FrameSource)

variable {source : FrameSource}

namespace Machine

/-- The allocator does not hand the frame out. -/
def Held (s : Machine source) (frame : Nat) : Prop :=
  source.Usable frame → source.Outstanding s.frames frame

/-! ### Frames -/

/-- The parts of the state that the frame allocator does not have. -/
structure SameOutside (s s' : Machine source) : Prop where
  memory : s'.memory = s.memory
  initialized : s'.initialized = s.initialized
  mapper : s'.mapper = s.mapper
  stats : s'.stats = s.stats

variable {s s' : Machine source} {frame : Nat}

/-- A frame that is handed out is aligned, and was held by nobody. -/
theorem allocateFrame_some (allocates : s.allocateFrame = (some frame, s')) :
    frame % pageSize4k = 0 ∧ ¬ s.Held frame ∧ (∀ x, s'.Held x ↔ x = frame ∨ s.Held x) ∧
      SameOutside s s' := by
  obtain ⟨isFrame, rfl⟩ := Prod.mk.inj allocates
  have eq : source.allocateFrame s.frames = (some frame, (source.allocateFrame s.frames).2) :=
    Prod.ext isFrame rfl
  obtain ⟨usable, aligned, fresh, outstanding⟩ := source.issues eq
  refine ⟨aligned, fun held => fresh (held usable), fun x => ?_, rfl, rfl, rfl, rfl⟩
  simp only [Held]
  rw [outstanding]
  constructor
  · intro held
    by_cases same : x = frame
    · exact .inl same
    · exact .inr fun usable => (held usable).resolve_left same
  · rintro (same | held) usable
    · exact .inl same
    · exact .inr (held usable)

theorem allocateFrame_none (allocates : s.allocateFrame = (none, s')) :
    (∀ x, s'.Held x ↔ s.Held x) ∧ SameOutside s s' := by
  obtain ⟨isNone, rfl⟩ := Prod.mk.inj allocates
  have eq : source.allocateFrame s.frames = (none, (source.allocateFrame s.frames).2) :=
    Prod.ext isNone rfl
  refine ⟨fun x => ?_, rfl, rfl, rfl, rfl⟩
  simp only [Held]
  rw [source.exhausts eq]

theorem freeFrame_held (s : Machine source) (frame : Nat) {x : Nat} (other : x ≠ frame) :
    (s.freeFrame frame).2.Held x ↔ s.Held x := by
  simp only [Held, freeFrame]
  cases freed : (source.freeFrame s.frames frame).1 with
  | false => rw [source.refuses (Prod.ext freed rfl)]
  | true =>
      rw [source.frees (Prod.ext freed rfl)]
      simp [other]

theorem freeFrame_sameOutside (s : Machine source) (frame : Nat) :
    SameOutside s (s.freeFrame frame).2 := ⟨rfl, rfl, rfl, rfl⟩

/-- An entry is stored within its table. -/
theorem store_memory_of_outside (s : Machine source) {table : Nat} (i : Fin 512) (value : Nat)
    {a : Nat} (outside : a < table ∨ table + pageSize4k ≤ a) :
    (s.store table i value).memory a = s.memory a := by
  have := i.isLt
  refine Lib.Store.writeU64_of_outside ?_
  simp only [pageSize4k] at outside
  omega

/-- Clearing a frame writes nothing outside it. -/
theorem clear_memory_of_outside (s : Machine source) {phys a : Nat}
    (outside : a < phys ∨ phys + pageSize4k ≤ a) : (s.clear phys).memory a = s.memory a :=
  Lib.Store.zero_of_outside outside

end Machine

/-- Different frames do not overlap. -/
theorem apart_of_ne {frame other a : Nat} (aligned : frame % pageSize4k = 0)
    (aligned' : other % pageSize4k = 0) (different : frame ≠ other) (from_ : frame ≤ a)
    (below : a < frame + pageSize4k) : a < other ∨ other + pageSize4k ≤ a := by
  simp only [pageSize4k] at *
  omega

/-! ### The boot tables -/

namespace BootTables

variable (boot : BootTables)

theorem isFrame : IsFrame boot.p4 := ⟨boot.aligned.1, boot.reachable.1⟩

/-- The frame holds one of the tables below the boot root. -/
abbrev Has (s : Machine source) (frame : Nat) : Prop := Reached (tables s.memory) boot.p4 frame

/-- The tables are sheltered and their frames are not available. -/
structure Sound (s : Machine source) : Prop where
  sheltered : Sheltered (tables s.memory) boot.p4
  held : ∀ frame, boot.Has s frame → s.Held frame

/-- What mapping a page may do: widen or link entries on the way to the page, with
tables made of frames that were available. -/
structure Evolves (target : List (Fin 512)) (flags : Nat) (s s' : Machine source) : Prop where
  held : ∀ x, s.Held x → s'.Held x
  untouched : ∀ frame a, frame % pageSize4k = 0 → s.Held frame → ¬ boot.Has s frame →
    frame ≤ a → a < frame + pageSize4k → s'.memory a = s.memory a
  nodes : ∀ path frame, path.length ≤ 3 →
    node child (tables s.memory) boot.p4 path = some frame →
    node child (tables s'.memory) boot.p4 path = some frame
  fresh : ∀ frame, boot.Has s' frame → boot.Has s frame ∨ ¬ s.Held frame
  entries : ∀ path frame i, path.length ≤ 2 →
    node child (tables s.memory) boot.p4 path = some frame →
    tables s'.memory frame i = tables s.memory frame i ∨
      path ++ [i] <+: target ∧ (entryPresent (tables s.memory frame i) = false ∨
        tables s'.memory frame i = tables s.memory frame i ||| opened flags)
  tidy : Tidy (tables s.memory) boot.p4 → Tidy (tables s'.memory) boot.p4
  initialized : s'.initialized = s.initialized
  stats : s'.stats = s.stats

/-- No page notices. -/
abbrev SameLeaves (s s' : Machine source) : Prop :=
  ∀ virt, leaf (tables s'.memory) boot.p4 virt = leaf (tables s.memory) boot.p4 virt

variable {boot} {target : List (Fin 512)} {flags : Nat} {s s' s'' : Machine source}

theorem has_root (s : Machine source) : boot.Has s boot.p4 := ⟨[], by simp, rfl⟩

/-- Every table of the boot tree is a frame. -/
theorem isFrame_of_node {path : List (Fin 512)} {frame : Nat}
    (reaches : node child (tables s.memory) boot.p4 path = some frame) : IsFrame frame := by
  induction path using List.reverseRecOn with
  | nil =>
      obtain rfl := Option.some.inj reaches
      exact boot.isFrame
  | append_singleton path i _ =>
      rw [Lib.Radix.node_concat] at reaches
      obtain ⟨parent, -, leads⟩ := Option.bind_eq_some_iff.mp reaches
      exact isFrame_of_child leads

theorem Evolves.refl (s : Machine source) : boot.Evolves target flags s s where
  held := fun _ held => held
  untouched := fun _ _ _ _ _ _ _ => rfl
  nodes := fun _ _ _ reaches => reaches
  fresh := fun _ has => .inl has
  entries := fun _ _ _ _ _ => .inl rfl
  tidy := id
  initialized := rfl
  stats := rfl

/-- What was held and not in the tree does not become part of it. -/
theorem Evolves.not_has (evolves : boot.Evolves target flags s s') {frame : Nat}
    (held : s.Held frame) (hasNot : ¬ boot.Has s frame) : ¬ boot.Has s' frame := by
  intro has
  rcases evolves.fresh frame has with has | notHeld
  · exact hasNot has
  · exact notHeld held

theorem Evolves.trans (first : boot.Evolves target flags s s')
    (second : boot.Evolves target flags s' s'') : boot.Evolves target flags s s'' where
  held := fun x held => second.held x (first.held x held)
  untouched := by
    intro frame a aligned held hasNot from_ below
    rw [second.untouched frame a aligned (first.held frame held) (first.not_has held hasNot) from_
      below]
    exact first.untouched frame a aligned held hasNot from_ below
  nodes := fun path frame short reaches =>
    second.nodes path frame short (first.nodes path frame short reaches)
  fresh := by
    intro frame has
    rcases second.fresh frame has with has | notHeld
    · exact first.fresh frame has
    · exact .inr fun held => notHeld (first.held frame held)
  entries := by
    intro path frame i short reaches
    have reaches' := first.nodes path frame (by omega) reaches
    rcases first.entries path frame i short reaches with same | ⟨onPath, change⟩
    · rcases second.entries path frame i short reaches' with same' | ⟨onPath, change⟩
      · exact .inl (same'.trans same)
      · rw [same] at change
        exact .inr ⟨onPath, change⟩
    · refine .inr ⟨onPath, ?_⟩
      rcases change with absent | widened
      · exact .inl absent
      · rcases second.entries path frame i short reaches' with same' | ⟨-, absent | widened'⟩
        · exact .inr (same'.trans widened)
        · rw [widened, entryPresent_or, entryPresent_opened, Bool.or_false] at absent
          exact .inl absent
        · rw [widened, Nat.or_assoc, Nat.or_self] at widened'
          exact .inr widened'
  tidy := fun tidy => second.tidy (first.tidy tidy)
  initialized := second.initialized.trans first.initialized
  stats := second.stats.trans first.stats

/-- Changes of other parts of the state. -/
theorem Sound.of_sameOutside (sound : boot.Sound s) (same : Machine.SameOutside s s')
    (held : ∀ x, s.Held x → s'.Held x) : boot.Sound s' := by
  obtain ⟨sheltered, tablesHeld⟩ := sound
  refine ⟨same.memory ▸ sheltered, fun frame has => held frame (tablesHeld frame ?_)⟩
  rw [Has, same.memory] at has
  exact has

/-- Without a write, the tree is the same. -/
theorem Evolves.of_sameOutside (same : Machine.SameOutside s s')
    (held : ∀ x, s.Held x → s'.Held x) : boot.Evolves target flags s s' where
  held := held
  untouched := fun _ a _ _ _ _ _ => congrFun same.memory a
  nodes := fun _ _ _ reaches => same.memory.symm ▸ reaches
  fresh := by
    intro frame has
    rw [Has, same.memory] at has
    exact .inl has
  entries := fun _ _ _ _ _ => .inl (by rw [same.memory])
  tidy := fun tidy => same.memory.symm ▸ tidy
  initialized := same.initialized
  stats := same.stats

/-! ### One level -/

/-- How `ensure_next_table` ends at an entry of a tree of tables. -/
inductive Ensures (s : Machine source) (frame : Nat) (i : Fin 512) (flags : Nat) :
    Except MapError Nat → Machine source → Prop where
  | huge (isHuge : entryHuge (tables s.memory frame i) = true) :
      Ensures s frame i flags (.error .hugePageConflict) s
  | widen {next : Nat} (leads : child (tables s.memory frame i) = some next) :
      Ensures s frame i flags (.ok next)
        (s.store frame i (tables s.memory frame i ||| opened flags))
  | exhausted {s₁ : Machine source} (allocates : s.allocateFrame = (none, s₁)) :
      Ensures s frame i flags (.error .outOfFrames) s₁
  | reject {s₁ : Machine source} {fresh : Nat} (allocates : s.allocateFrame = (some fresh, s₁)) :
      Ensures s frame i flags (.error .physicalNotIdentityMapped) (s₁.freeFrame fresh).2
  | link {s₁ : Machine source} {fresh : Nat}
      (absent : entryPresent (tables s.memory frame i) = false) (isFrame : IsFrame fresh)
      (allocates : s.allocateFrame = (some fresh, s₁)) :
      Ensures s frame i flags (.ok fresh)
        { ((s₁.clear fresh).store frame i (fresh ||| presentBit ||| opened flags)) with
          mapper := { s₁.mapper with
            pageTableFrames := satAdd s₁.mapper.pageTableFrames 1 } }

section Level

variable {path : List (Fin 512)} {frame : Nat} {i : Fin 512} (sound : boot.Sound s)
  (short : path.length ≤ 2) (reaches : node child (tables s.memory) boot.p4 path = some frame)
  (opens : Open (tables s.memory) boot.p4 path flags) (onPath : path ++ [i] <+: target)

variable (boot) in
/-- The way is open one level further. -/
structure Descends (s : Machine source) (path : List (Fin 512)) (flags next : Nat) : Prop where
  reaches : node child (tables s.memory) boot.p4 path = some next
  opens : Open (tables s.memory) boot.p4 path flags

omit short sound opens onPath in
include reaches in
theorem widened_tables :
    tables (s.store frame i (tables s.memory frame i ||| opened flags)).memory =
      set (tables s.memory) frame i (tables s.memory frame i ||| opened flags) :=
  tables_store (isFrame_of_node reaches).aligned
    (Nat.or_lt_two_pow (tables_lt _ _ _) (opened_lt flags))

include reaches in
/-- A wider entry leads where it led. -/
theorem has_widened (f : Nat) :
    boot.Has (s.store frame i (tables s.memory frame i ||| opened flags)) f ↔ boot.Has s f := by
  simp only [Has, Reached, widened_tables reaches, node_widen]

section Link

variable {fresh : Nat} (isFresh : ¬ s.Held fresh) (isFrame : IsFrame fresh)
  (absent : entryPresent (tables s.memory frame i) = false)
  (memory : s'.memory = ((s.clear fresh).store frame i
    (fresh ||| presentBit ||| opened flags)).memory)

include reaches isFrame memory

theorem linked_tables : tables s'.memory = linked (tables s.memory) fresh frame i flags := by
  have isTable := isFrame_of_node reaches
  have word : fresh ||| presentBit ||| opened flags < 2 ^ 64 :=
    Nat.or_lt_two_pow (Nat.or_lt_two_pow isFrame.lt_word (by decide)) (opened_lt flags)
  rw [memory]
  refine (tables_store isTable.aligned word).trans ?_
  rw [linked]
  congr 1
  exact tables_clear isFrame.aligned

include sound short isFresh absent

/-- A linked table is found at the end of the path to it. -/
theorem Sound.node_linked {p : List (Fin 512)} (shortP : p.length ≤ 3) :
    node child (tables s'.memory) boot.p4 p =
      if p = path ++ [i] then some fresh else node child (tables s.memory) boot.p4 p := by
  rw [linked_tables reaches isFrame memory]
  exact sound.sheltered.node_linked short reaches (fun has => isFresh (sound.held fresh has))
    isFrame absent shortP

/-- A linked table is the only one that is new. -/
theorem Sound.has_linked (f : Nat) : boot.Has s' f ↔ boot.Has s f ∨ f = fresh := by
  have nodes := fun {p} => sound.node_linked short reaches isFresh isFrame absent memory (p := p)
  have vacant : node child (tables s.memory) boot.p4 (path ++ [i]) = none := by
    rw [Lib.Radix.node_concat, reaches, Option.bind_some, child_of_absent absent]
  constructor
  · rintro ⟨p, shortP, reachesP⟩
    rw [nodes shortP] at reachesP
    split at reachesP
    · exact .inr (Option.some.inj reachesP).symm
    · exact .inl ⟨p, shortP, reachesP⟩
  · rintro (⟨p, shortP, reachesP⟩ | rfl)
    · refine ⟨p, shortP, ?_⟩
      rw [nodes shortP, if_neg, reachesP]
      rintro rfl
      rw [vacant] at reachesP
      cases reachesP
    · have shortP : (path ++ [i]).length ≤ 3 := by
        rw [List.length_append, List.length_singleton]
        omega
      exact ⟨path ++ [i], shortP, (nodes shortP).trans (if_pos rfl)⟩

end Link

include sound short reaches opens onPath

/-- An entry on the way may be widened. -/
theorem Sound.widen {next : Nat} (leads : child (tables s.memory frame i) = some next) :
    let s' := s.store frame i (tables s.memory frame i ||| opened flags)
    boot.Sound s' ∧ boot.Evolves target flags s s' ∧ boot.SameLeaves s s' ∧
      boot.Descends s' (path ++ [i]) flags next := by
  intro s'
  have isFrame := isFrame_of_node reaches
  have small := (present_of_child leads).2.1
  have stored : tables s'.memory =
      set (tables s.memory) frame i (tables s.memory frame i ||| opened flags) :=
    widened_tables reaches
  have sameNodes : ∀ p, node child (tables s'.memory) boot.p4 p =
      node child (tables s.memory) boot.p4 p := by
    intro p
    rw [stored, node_widen]
  have sameHas : ∀ f, boot.Has s' f ↔ boot.Has s f := has_widened reaches
  refine ⟨⟨?_, fun f has => sound.held f ((sameHas f).mp has)⟩, ?_, ?_, ?_, ?_⟩
  · rw [stored]
    exact sound.sheltered.widen short reaches opens
  · refine ⟨fun _ held => held, ?_, ?_, fun f has => .inl ((sameHas f).mp has), ?_,
      fun tidy => stored ▸ tidy.widen frame flags i, rfl, rfl⟩
    · intro f a aligned held hasNot from_ below
      have different : f ≠ frame := by
        rintro rfl
        exact hasNot ⟨path, by omega, reaches⟩
      exact s.store_memory_of_outside i _
        (apart_of_ne aligned isFrame.aligned different from_ below)
    · intro p f shortP reachesP
      rwa [sameNodes]
    · intro p f j shortP reachesP
      rw [stored]
      rcases entry_widen (tables s.memory) frame flags i f j with same | ⟨rfl, rfl, widened⟩
      · exact .inl same
      · have isPath := sound.sheltered.tree p path f (by omega) (by omega) reachesP reaches
        exact .inr ⟨isPath ▸ onPath, .inr widened⟩
  · intro virt
    rw [stored]
    exact sound.sheltered.leaf_widen short reaches small virt
  · rw [sameNodes]
    exact Sheltered.node_snoc reaches leads
  · rw [stored]
    exact open_widen reaches

/-- An empty frame that nobody holds may be linked. -/
theorem Sound.link (s' : Machine source) {fresh : Nat} (isFresh : ¬ s.Held fresh)
    (isFrame : IsFrame fresh) (absent : entryPresent (tables s.memory frame i) = false)
    (held : ∀ x, s'.Held x ↔ x = fresh ∨ s.Held x)
    (memory : s'.memory = ((s.clear fresh).store frame i
      (fresh ||| presentBit ||| opened flags)).memory)
    (initialized : s'.initialized = s.initialized) (stats : s'.stats = s.stats) :
    boot.Sound s' ∧ boot.Evolves target flags s s' ∧ boot.SameLeaves s s' ∧
      boot.Descends s' (path ++ [i]) flags fresh := by
  have isTable := isFrame_of_node reaches
  have unreached : ¬ boot.Has s fresh := fun has => isFresh (sound.held fresh has)
  have stored := linked_tables reaches isFrame memory
  have nodes := fun {p} => sound.node_linked short reaches isFresh isFrame absent memory (p := p)
  have has : ∀ f, boot.Has s' f → boot.Has s f ∨ f = fresh := fun f =>
    (sound.has_linked short reaches isFresh isFrame absent memory f).mp
  have vacant : node child (tables s.memory) boot.p4 (path ++ [i]) = none := by
    rw [Lib.Radix.node_concat, reaches, Option.bind_some, child_of_absent absent]
  refine ⟨⟨?_, ?_⟩, ?_, ?_, ?_, ?_⟩
  · rw [stored]
    exact sound.sheltered.link short reaches unreached isFrame absent opens
  · intro f hasF
    rw [held]
    exact (has f hasF).symm.imp id (sound.held f)
  · refine ⟨fun x heldX => (held x).mpr (.inr heldX), ?_, ?_, ?_, ?_, ?_, initialized, stats⟩
    · intro f a aligned heldF hasNot from_ below
      have notTable : f ≠ frame := by
        rintro rfl
        exact hasNot ⟨path, by omega, reaches⟩
      have notFresh : f ≠ fresh := by
        rintro rfl
        exact isFresh heldF
      rw [memory, Machine.store_memory_of_outside _ i _
        (apart_of_ne aligned isTable.aligned notTable from_ below)]
      exact s.clear_memory_of_outside (apart_of_ne aligned isFrame.aligned notFresh from_ below)
    · intro p f shortP reachesP
      rw [nodes shortP, if_neg, reachesP]
      rintro rfl
      rw [vacant] at reachesP
      cases reachesP
    · intro f hasF
      rcases has f hasF with hasF | rfl
      · exact .inl hasF
      · exact .inr isFresh
    · intro p f j shortP reachesP
      rw [stored]
      rcases sound.sheltered.entry_linked short reaches unreached absent flags (by omega) reachesP j
        with ⟨same, -⟩ | ⟨rfl, rfl, rfl, -⟩
      · exact .inl same
      · exact .inr ⟨onPath, .inl absent⟩
    · intro tidy
      rw [stored]
      exact tidy.link sound.sheltered short reaches unreached isFrame absent
  · intro virt
    rw [stored]
    exact sound.sheltered.leaf_linked short reaches unreached isFrame absent virt
  · rw [nodes (by simp; omega), if_pos rfl]
  · rw [stored]
    exact sound.sheltered.open_linked short reaches unreached isFrame absent

omit opens onPath in
/-- `ensure_next_table` at a table of the tree. -/
theorem Sound.ensureNextTable_ends (result : Except MapError Nat)
    (ensures : s.ensureNextTable frame i flags = (result, s')) :
    Ensures s frame i flags result s' := by
  have isTable := isFrame_of_node reaches
  unfold Machine.ensureNextTable at ensures
  rw [← tables_of_aligned (m := s.memory) isTable.aligned i] at ensures
  dsimp only at ensures
  cases present : entryPresent (tables s.memory frame i) with
  | true =>
      rw [present, if_pos rfl] at ensures
      cases huge : entryHuge (tables s.memory frame i) with
      | true =>
          rw [huge, if_pos rfl] at ensures
          obtain ⟨rfl, rfl⟩ := Prod.mk.inj ensures
          exact .huge huge
      | false =>
          obtain ⟨-, leads⟩ := sound.sheltered.inner i short reaches present huge
          obtain ⟨next, leads⟩ := Option.isSome_iff_exists.mp leads
          have leads' : tableFromEntry (tables s.memory frame i ||| opened flags) = some next := by
            have moved := child_widen (tables s.memory frame i) flags
            rw [leads] at moved
            exact (present_of_child moved).2.2
          rw [huge, if_neg Bool.false_ne_true, leads'] at ensures
          obtain ⟨rfl, rfl⟩ := Prod.mk.inj ensures
          exact .widen leads
  | false =>
      rw [present, if_neg Bool.false_ne_true] at ensures
      cases allocates : s.allocateFrame with
      | mk answer s₁ =>
          rw [allocates] at ensures
          cases answer with
          | none =>
              obtain ⟨rfl, rfl⟩ := Prod.mk.inj ensures
              exact .exhausted allocates
          | some fresh =>
              obtain ⟨aligned, -⟩ := Machine.allocateFrame_some allocates
              cases reachable : identityReachable fresh with
              | false =>
                  simp only [reachable, Bool.not_false, if_true] at ensures
                  obtain ⟨rfl, rfl⟩ := Prod.mk.inj ensures
                  exact .reject allocates
              | true =>
                  have isFrame : IsFrame fresh := ⟨aligned, of_decide_eq_true reachable⟩
                  have leads := (present_of_child (child_link isFrame flags)).2.2
                  simp only [reachable, Bool.not_true, Bool.false_eq_true, if_false, leads]
                    at ensures
                  obtain ⟨rfl, rfl⟩ := Prod.mk.inj ensures
                  exact .link present isFrame allocates

/-- Whatever `ensure_next_table` does, no page notices. -/
theorem Sound.ensureNextTable {result : Except MapError Nat}
    (ensures : s.ensureNextTable frame i flags = (result, s')) :
    boot.Sound s' ∧ boot.Evolves target flags s s' ∧ boot.SameLeaves s s' ∧
      ∀ next, result = .ok next → boot.Descends s' (path ++ [i]) flags next := by
  cases sound.ensureNextTable_ends short reaches result ensures with
  | huge isHuge => exact ⟨sound, .refl s, fun _ => rfl, fun next ok => by cases ok⟩
  | widen leads =>
      obtain ⟨sound', evolves, same, descends⟩ := sound.widen short reaches opens onPath leads
      refine ⟨sound', evolves, same, fun next' ok => ?_⟩
      obtain rfl := Except.ok.inj ok
      exact descends
  | exhausted allocates =>
      obtain ⟨held, outside⟩ := Machine.allocateFrame_none allocates
      have kept : ∀ x, s.Held x → s'.Held x := fun x => (held x).mpr
      exact ⟨sound.of_sameOutside outside kept, .of_sameOutside outside kept,
        fun virt => by rw [outside.memory], fun next ok => by cases ok⟩
  | @reject s₁ fresh allocates =>
      obtain ⟨-, isFresh, held, outside⟩ := Machine.allocateFrame_some allocates
      have kept : ∀ x, s.Held x → (s₁.freeFrame fresh).2.Held x := by
        intro x heldX
        have different : x ≠ fresh := by
          rintro rfl
          exact isFresh heldX
        rw [s₁.freeFrame_held fresh different, held]
        exact .inr heldX
      have outside' : Machine.SameOutside s (s₁.freeFrame fresh).2 :=
        ⟨outside.memory, outside.initialized, outside.mapper, outside.stats⟩
      exact ⟨sound.of_sameOutside outside' kept, .of_sameOutside outside' kept,
        fun virt => by rw [outside'.memory], fun next ok => by cases ok⟩
  | @link s₁ fresh absent isFrame allocates =>
      obtain ⟨-, isFresh, held, outside⟩ := Machine.allocateFrame_some allocates
      obtain ⟨sound', evolves, same, descends⟩ :=
        sound.link short reaches opens onPath
          { ((s₁.clear fresh).store frame i (fresh ||| presentBit ||| opened flags)) with
            mapper := _ }
          isFresh isFrame absent held
          (by simp only [Machine.store, Machine.clear, outside.memory])
          outside.initialized outside.stats
      refine ⟨sound', evolves, same, fun next' ok => ?_⟩
      obtain rfl := Except.ok.inj ok
      exact descends

end Level

end BootTables

end CloudOS.Paging
