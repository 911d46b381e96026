import CloudOS.Paging.Descent
import CloudOS.Paging.Mapper

/-!
Mapping and removing a page in the boot tables: what each call does to the leaves.
-/

namespace CloudOS.Paging

open Lib.Radix (node set fill)
open CloudOS.PhysMem (FrameSource)

namespace BootTables

variable {source : FrameSource} {boot : BootTables} {target : List (Fin 512)} {flags : Nat}
  {s s' s'' : Machine source}

/-- The leaf of one page is replaced. -/
structure Replaces (boot : BootTables) (s s' : Machine source) (virt : Nat)
    (before after : Option Leaf) : Prop where
  before : leaf (tables s.memory) boot.p4 virt = before
  after : leaf (tables s'.memory) boot.p4 virt = after
  elsewhere : ∀ w, indices w ≠ indices virt →
    leaf (tables s'.memory) boot.p4 w = leaf (tables s.memory) boot.p4 w

section Page

variable {virt frame : Nat} (sound : boot.Sound s)
  (reaches : node child (tables s.memory) boot.p4 [p4Index virt, p3Index virt, p2Index virt] =
    some frame)

include sound reaches

/-- An update of the entry of a page. -/
theorem Sound.plant (target : List (Fin 512)) (flags : Nat) {value : Nat} (word : value < 2 ^ 64)
    (granted : entryPresent value = true →
      Open (tables s.memory) boot.p4 [p4Index virt, p3Index virt, p2Index virt] value)
    (s' : Machine source) (memory : s'.memory = (s.store frame (p1Index virt) value).memory)
    (frames : s'.frames = s.frames) (initialized : s'.initialized = s.initialized)
    (stats : s'.stats = s.stats) :
    boot.Sound s' ∧ boot.Evolves target flags s s' ∧
      leaf (tables s'.memory) boot.p4 virt =
        (if entryPresent value then some ⟨false, value⟩ else none) ∧
      ∀ w, indices w ≠ indices virt →
        leaf (tables s'.memory) boot.p4 w = leaf (tables s.memory) boot.p4 w := by
  have isTable := isFrame_of_node reaches
  have stored : tables s'.memory = set (tables s.memory) frame (p1Index virt) value := by
    rw [memory]
    exact tables_store isTable.aligned word
  have sameNodes : ∀ {p : List (Fin 512)}, p.length ≤ 3 →
      node child (tables s'.memory) boot.p4 p = node child (tables s.memory) boot.p4 p := by
    intro p shortP
    rw [stored]
    exact sound.sheltered.node_planted rfl reaches shortP
  have sameHas : ∀ f, boot.Has s' f → boot.Has s f := by
    rintro f ⟨p, shortP, reachesP⟩
    rw [sameNodes shortP] at reachesP
    exact ⟨p, shortP, reachesP⟩
  have sameHeld : ∀ x, s.Held x → s'.Held x := by
    intro x held
    rw [Machine.Held, frames]
    exact held
  refine ⟨⟨?_, fun f has => sameHeld f (sound.held f (sameHas f has))⟩, ?_, ?_, ?_⟩
  · rw [stored]
    exact sound.sheltered.plant rfl reaches granted
  · refine ⟨sameHeld, ?_, ?_, fun f has => .inl (sameHas f has), ?_,
      fun tidy => stored ▸ tidy.plant sound.sheltered rfl reaches, initialized, stats⟩
    · intro f a aligned _ hasNot from_ below
      have different : f ≠ frame := by
        rintro rfl
        exact hasNot ⟨_, by simp, reaches⟩
      rw [memory]
      exact s.store_memory_of_outside _ _
        (apart_of_ne aligned isTable.aligned different from_ below)
    · intro p f shortP reachesP
      rwa [sameNodes shortP]
    · intro p f j shortP reachesP
      rw [stored]
      exact .inl (sound.sheltered.entry_planted rfl reaches shortP reachesP j)
  · rw [stored]
    exact sound.sheltered.leaf_planted rfl reaches rfl
  · intro w other
    rw [stored]
    exact sound.sheltered.leaf_planted_of_ne rfl reaches other

omit sound in
/-- The leaf of a page whose table is there. -/
theorem leaf_of_table : leaf (tables s.memory) boot.p4 virt =
    if entryPresent (tables s.memory frame (p1Index virt)) then
      some ⟨false, tables s.memory frame (p1Index virt)⟩ else none := by
  have toP1 : node child (tables s.memory) boot.p4
      ([p4Index virt, p3Index virt] ++ [p2Index virt]) = some frame := reaches
  rw [Lib.Radix.node_concat] at toP1
  obtain ⟨p2, reachesP2, leads⟩ := Option.bind_eq_some_iff.mp toP1
  rw [leaf, reachesP2, Option.bind_some, leafBelow, (present_of_child leads).2.1, leads,
    Bool.and_false, if_neg Bool.false_ne_true, Option.bind_some]

end Page

/-- The frame of a leaf has no bits for the path to cover. -/
theorem open_of_isFrame {T : Nat → Fin 512 → Nat} {root phys : Nat} {path : List (Fin 512)}
    (opens : Open T root path flags) (isFrame : IsFrame phys) :
    Open T root path (phys ||| flags) := by
  intro before i frame split reaches
  exact (Covers.of_none _ isFrame.entryWritable isFrame.entryUser).or_right (opens split reaches)

/-- The checks before any table is touched. -/
structure Admissible (virt phys flags : Nat) : Prop where
  virtAligned : virt % pageSize4k = 0
  isFrame : IsFrame phys
  inRange : inMappableVirtualRange virt flags = true

/-- The entries that mapping a page may change: those on the way to it, if it may be
mapped at all. -/
def route (virt flags : Nat) : List (Fin 512) :=
  if inMappableVirtualRange virt flags then indices virt else []

/-- The tables on the way to a page are on its route. -/
theorem prefix_route {virt : Nat} {path : List (Fin 512)}
    (inRange : inMappableVirtualRange virt flags = true) (onPath : path <+: indices virt) :
    path <+: route virt flags := by
  rwa [route, if_pos inRange]

/-- What a call that maps a page did: all of it, or nothing that a page notices. -/
structure MapsOrFails (boot : BootTables) (virt phys flags : Nat) (s : Machine source)
    (result : Except MapError Unit) (s' : Machine source) : Prop where
  sound : boot.Sound s'
  evolves : boot.Evolves (route virt flags) flags s s'
  failed : ∀ error, result = .error error → boot.SameLeaves s s'
  done : result = .ok () → Admissible virt phys flags ∧
    boot.Replaces s s' virt none (some ⟨false, phys ||| flags⟩)

section MapsOrFails

variable {virt phys : Nat} {result : Except MapError Unit} {error : MapError}

/-- A call that fails its checks changes nothing. -/
theorem MapsOrFails.refuse (sound : boot.Sound s) :
    boot.MapsOrFails virt phys flags s (.error error) s :=
  ⟨sound, .refl s, fun _ _ _ => rfl, fun ok => by cases ok⟩

/-- Steps before the page is touched do not show. -/
theorem MapsOrFails.after (evolves : boot.Evolves (route virt flags) flags s s')
    (same : boot.SameLeaves s s') (rest : boot.MapsOrFails virt phys flags s' result s'') :
    boot.MapsOrFails virt phys flags s result s'' where
  sound := rest.sound
  evolves := evolves.trans rest.evolves
  failed := fun error failed w => (rest.failed error failed w).trans (same w)
  done := by
    intro ok
    obtain ⟨admissible, before, after, elsewhere⟩ := rest.done ok
    exact ⟨admissible, (same virt).symm.trans before, after,
      fun w other => (elsewhere w other).trans (same w)⟩

end MapsOrFails

/-- On the way down to a page, tables are linked and entries are opened for it. -/
theorem Sound.descent (sound : boot.Sound s) {virt table : Nat} {path : List (Fin 512)}
    (descent : Machine.Descent boot.p4 virt flags s path table s') :
    boot.Sound s' ∧ boot.Evolves (route virt flags) flags s s' ∧ boot.SameLeaves s s' ∧
      Descends boot s' path flags table := by
  induction descent with
  | root => exact ⟨sound, .refl s, fun _ => rfl, rfl, open_nil _ _ _⟩
  | level _ short inRange onPath ensures ih =>
      obtain ⟨sound₁, evolves₁, same₁, reaches, opens⟩ := ih
      obtain ⟨sound₂, evolves₂, same₂, descends⟩ :=
        sound₁.ensureNextTable short reaches opens (prefix_route inRange onPath) ensures
      exact ⟨sound₂, evolves₁.trans evolves₂, fun w => (same₂ w).trans (same₁ w),
        descends _ rfl⟩

/-- The law of `map_page_inner_with_flags`: the page is mapped, or only empty tables were
linked. -/
theorem Sound.mapPageInnerWithFlags (sound : boot.Sound s) (isFlags : IsFlags flags)
    {virt phys : Nat} {owner : PageOwner} {result : Except MapError Unit}
    (maps : s.mapPageInnerWithFlags boot virt phys flags owner = (result, s')) :
    boot.MapsOrFails virt phys flags s result s' := by
  cases Machine.mapPageInnerWithFlags_ends maps with
  | refuse descent =>
      obtain ⟨sound₁, evolves, same, -⟩ := sound.descent descent
      exact .after evolves same (.refuse sound₁)
  | stick descent short inRange onPath ensures =>
      obtain ⟨sound₁, evolves, same, reaches, opens⟩ := sound.descent descent
      obtain ⟨sound₂, evolves₂, same₂, -⟩ :=
        sound₁.ensureNextTable short reaches opens (prefix_route inRange onPath) ensures
      exact .after (evolves.trans evolves₂) (fun w => (same₂ w).trans (same w)) (.refuse sound₂)
  | @plant p1 s₁ _ virtAligned isFrame inRange descent vacant isState =>
      obtain ⟨sound₁, evolves, same, reaches, opens⟩ := sound.descent descent
      refine .after evolves same ?_
      have isTable := isFrame_of_node reaches
      rw [← tables_of_aligned (m := s₁.memory) isTable.aligned] at vacant
      have noLeaf := leaf_of_table reaches
      rw [vacant, if_neg Bool.false_ne_true] at noLeaf
      obtain ⟨sound', evolves', here, elsewhere⟩ := sound₁.plant reaches (route virt flags) flags
        (Nat.or_lt_two_pow isFrame.lt_word isFlags.word)
        (fun _ => open_of_isFrame opens isFrame) s' (by rw [isState]) (by rw [isState]; rfl)
        (by rw [isState]; rfl) (by rw [isState]; rfl)
      rw [entryPresent_or, isFlags.present, Bool.or_true, if_pos rfl] at here
      exact ⟨sound', evolves', fun _ failed => (by cases failed),
        fun _ => ⟨⟨virtAligned, isFrame, inRange⟩, noLeaf, here, elsewhere⟩⟩

/-! ### New pages -/

section NewPage

variable {phys : Nat}

/-- A frame is taken and cleared. -/
theorem Sound.take (target : List (Fin 512)) (flags : Nat) (sound : boot.Sound s)
    (allocates : s.allocateFrame = (some phys, s')) :
    boot.Sound (s'.clear phys) ∧ boot.Evolves target flags s (s'.clear phys) ∧
      boot.SameLeaves s (s'.clear phys) ∧ ¬ s.Held phys ∧ (s'.clear phys).Held phys ∧
      ¬ boot.Has (s'.clear phys) phys := by
  obtain ⟨aligned, isFresh, held, outside⟩ := Machine.allocateFrame_some allocates
  have unreached : ¬ boot.Has s phys := fun has => isFresh (sound.held phys has)
  have stored : tables (s'.clear phys).memory = fill (tables s.memory) phys 0 := by
    rw [← outside.memory]
    exact tables_clear aligned
  have sameHas : ∀ f, boot.Has (s'.clear phys) f ↔ boot.Has s f := by
    intro f
    simp only [Has, Reached, stored]
    refine exists_congr fun p => and_congr_right fun shortP => ?_
    rw [node_fill unreached (by omega)]
  have kept : ∀ x, s.Held x → (s'.clear phys).Held x := fun x heldX => (held x).mpr (.inr heldX)
  refine ⟨⟨?_, fun f has => kept f (sound.held f ((sameHas f).mp has))⟩, ?_, ?_, isFresh,
    (held phys).mpr (.inl rfl), fun has => unreached ((sameHas phys).mp has)⟩
  · rw [stored]
    exact sound.sheltered.fill unreached
  · refine ⟨kept, ?_, ?_, fun f has => .inl ((sameHas f).mp has), ?_,
      fun tidy => stored ▸ tidy.fill unreached, outside.initialized, outside.stats⟩
    · intro f a alignedF heldF _ from_ below
      have different : f ≠ phys := by
        rintro rfl
        exact isFresh heldF
      rw [s'.clear_memory_of_outside (apart_of_ne alignedF aligned different from_ below),
        outside.memory]
    · intro p f shortP reachesP
      rwa [stored, node_fill unreached (by omega)]
    · intro p f j shortP reachesP
      rw [stored]
      exact .inl (fill_reached unreached (by omega) reachesP j)
  · intro virt
    rw [stored]
    exact leaf_fill unreached virt

/-- A frame that was taken on the way is given back. -/
theorem Evolves.free (evolves : boot.Evolves target flags s s') (isFresh : ¬ s.Held phys) :
    boot.Evolves target flags s (s'.freeFrame phys).2 where
  held := by
    intro x held
    have different : x ≠ phys := by
      rintro rfl
      exact isFresh held
    rw [s'.freeFrame_held phys different]
    exact evolves.held x held
  untouched := evolves.untouched
  nodes := evolves.nodes
  fresh := evolves.fresh
  entries := evolves.entries
  tidy := evolves.tidy
  initialized := evolves.initialized
  stats := evolves.stats

/-- A frame outside the tree may be given back. -/
theorem Sound.free (sound : boot.Sound s) (hasNot : ¬ boot.Has s phys) :
    boot.Sound (s.freeFrame phys).2 := by
  refine ⟨sound.sheltered, fun f has => ?_⟩
  have different : f ≠ phys := by
    rintro rfl
    exact hasNot has
  rw [s.freeFrame_held phys different]
  exact sound.held f has

end NewPage

/-- What a call that maps a new page did. The new page is empty, and its frame was
nobody's. -/
structure NewOrFails (boot : BootTables) (virt flags : Nat) (s : Machine source)
    (result : Except MapError Nat) (s' : Machine source) : Prop where
  sound : boot.Sound s'
  evolves : boot.Evolves (route virt flags) flags s s'
  failed : ∀ error, result = .error error → boot.SameLeaves s s'
  done : ∀ phys, result = .ok phys → Admissible virt phys flags ∧
    boot.Replaces s s' virt none (some ⟨false, phys ||| flags⟩) ∧
    ¬ s.Held phys ∧ s'.Held phys ∧ ¬ boot.Has s' phys ∧
    ∀ a, phys ≤ a → a < phys + pageSize4k → s'.memory a = 0

theorem NewOrFails.refuse {virt : Nat} {error : MapError} (sound : boot.Sound s) :
    boot.NewOrFails virt flags s (.error error) s :=
  ⟨sound, .refl s, fun _ _ _ => rfl, fun _ ok => by cases ok⟩

/-- The law of `map_new_page_with_flags`: the page is mapped to a frame nobody held, or the
frame is back. -/
theorem Sound.mapNewPageWithFlags (sound : boot.Sound s) (isFlags : IsFlags flags) {virt : Nat}
    {owner : PageOwner} {result : Except MapError Nat}
    (maps : s.mapNewPageWithFlags boot virt flags owner = (result, s')) :
    boot.NewOrFails virt flags s result s' := by
  cases Machine.mapNewPageWithFlags_ends maps with
  | refuse => exact .refuse sound
  | exhausted allocates =>
      obtain ⟨held, outside⟩ := Machine.allocateFrame_none allocates
      have kept : ∀ x, s.Held x → s'.Held x := fun x => (held x).mpr
      exact ⟨sound.of_sameOutside outside kept, .of_sameOutside outside kept,
        fun _ _ virt => by rw [outside.memory], fun _ ok => by cases ok⟩
  | @reject phys s₁ allocates =>
      obtain ⟨-, isFresh, held, outside⟩ := Machine.allocateFrame_some allocates
      have outside' : Machine.SameOutside s (s₁.freeFrame phys).2 :=
        ⟨outside.memory, outside.initialized, outside.mapper, outside.stats⟩
      have kept : ∀ x, s.Held x → s₁.Held x := fun x heldX => (held x).mpr (.inr heldX)
      have evolves : boot.Evolves (route virt flags) flags s s₁ := .of_sameOutside outside kept
      have hasNot : ¬ boot.Has s₁ phys := by
        rw [Has, outside.memory]
        exact fun has => isFresh (sound.held phys has)
      exact ⟨(sound.of_sameOutside outside kept).free hasNot, evolves.free isFresh,
        fun _ _ virt => by rw [outside'.memory], fun _ ok => by cases ok⟩
  | undo allocates inner =>
      obtain ⟨sound₁, evolves₁, same₁, isFresh, held₁, hasNot₁⟩ :=
        sound.take (route virt flags) flags allocates
      have rest := sound₁.mapPageInnerWithFlags isFlags inner
      have law := MapsOrFails.after evolves₁ same₁ rest
      exact ⟨law.sound.free (rest.evolves.not_has held₁ hasNot₁), law.evolves.free isFresh,
        fun _ _ => law.failed _ rfl, fun _ ok => by cases ok⟩
  | @map phys s₁ _ allocates inner =>
      obtain ⟨sound₁, evolves₁, same₁, isFresh, held₁, hasNot₁⟩ :=
        sound.take (route virt flags) flags allocates
      have aligned := (Machine.allocateFrame_some allocates).1
      have rest := sound₁.mapPageInnerWithFlags isFlags inner
      have law := MapsOrFails.after evolves₁ same₁ rest
      obtain ⟨admissible, replaces⟩ := law.done rfl
      refine ⟨law.sound, law.evolves, fun _ failed => (by cases failed), fun phys' ok => ?_⟩
      obtain rfl := Except.ok.inj ok
      refine ⟨admissible, replaces, isFresh, rest.evolves.held phys held₁,
        rest.evolves.not_has held₁ hasNot₁, ?_⟩
      intro a from_ below
      rw [rest.evolves.untouched phys a aligned held₁ hasNot₁ from_ below]
      exact Lib.Store.zero_inside from_ below

/-! ### Removing pages -/

/-- What `unmap_page` did. -/
structure UnmapsOrFails (boot : BootTables) (virt : Nat) (s : Machine source)
    (result : Except UnmapError Nat) (s' : Machine source) : Prop where
  sound : boot.Sound s'
  evolves : boot.Evolves [] 0 s s'
  failed : ∀ error, result = .error error → s' = s
  done : ∀ phys, result = .ok phys → virt % pageSize4k = 0 ∧
    ∃ e, entryAddr e = phys ∧ boot.Replaces s s' virt (some ⟨false, e⟩) none

theorem UnmapsOrFails.refuse {virt : Nat} {error : UnmapError} (sound : boot.Sound s) :
    boot.UnmapsOrFails virt s (.error error) s :=
  ⟨sound, .refl s, fun _ _ => rfl, fun _ ok => by cases ok⟩

/-- The law of `unmap_page`: the leaf is removed and its frame answered. -/
theorem Sound.unmapPage (sound : boot.Sound s) {virt : Nat} {result : Except UnmapError Nat}
    (unmaps : s.unmapPage boot virt = (result, s')) : boot.UnmapsOrFails virt s result s' := by
  have reads4 := tables_of_aligned (m := s.memory) boot.isFrame.aligned (p4Index virt)
  unfold Machine.unmapPage at unmaps
  rw [← reads4] at unmaps
  dsimp only at unmaps
  split_ifs at unmaps with virtAligned inRange present4
  · obtain ⟨rfl, rfl⟩ := Prod.mk.inj unmaps
    exact .refuse sound
  · obtain ⟨rfl, rfl⟩ := Prod.mk.inj unmaps
    exact .refuse sound
  · obtain ⟨rfl, rfl⟩ := Prod.mk.inj unmaps
    exact .refuse sound
  · rw [Bool.not_eq_true', Bool.not_eq_false] at virtAligned present4
    have atRoot : node child (tables s.memory) boot.p4 [] = some boot.p4 := rfl
    have small4 := sound.sheltered.small (p4Index virt) (by simp) atRoot present4
    obtain ⟨-, leads4⟩ := sound.sheltered.inner (p4Index virt) (by simp) atRoot present4 small4
    obtain ⟨p3, leads4⟩ := Option.isSome_iff_exists.mp leads4
    have atP3 := Sheltered.node_snoc atRoot leads4
    have reads3 := tables_of_aligned (m := s.memory) (isFrame_of_child leads4).aligned (p3Index virt)
    rw [(present_of_child leads4).2.2] at unmaps
    dsimp only at unmaps
    rw [← reads3] at unmaps
    split_ifs at unmaps with present3
    · obtain ⟨rfl, rfl⟩ := Prod.mk.inj unmaps
      exact .refuse sound
    · rw [Bool.not_eq_true', Bool.not_eq_false] at present3
      have small3 := sound.sheltered.small (p3Index virt) (by simp) atP3 present3
      obtain ⟨-, leads3⟩ := sound.sheltered.inner (p3Index virt) (by simp) atP3 present3 small3
      obtain ⟨p2, leads3⟩ := Option.isSome_iff_exists.mp leads3
      have atP2 := Sheltered.node_snoc atP3 leads3
      have reads2 := tables_of_aligned (m := s.memory) (isFrame_of_child leads3).aligned
        (p2Index virt)
      rw [(present_of_child leads3).2.2] at unmaps
      dsimp only at unmaps
      rw [← reads2] at unmaps
      split_ifs at unmaps with huge2 present2
      · obtain ⟨rfl, rfl⟩ := Prod.mk.inj unmaps
        exact .refuse sound
      · obtain ⟨rfl, rfl⟩ := Prod.mk.inj unmaps
        exact .refuse sound
      · rw [Bool.not_eq_true', Bool.not_eq_false] at present2
        rw [Bool.not_eq_true] at huge2
        obtain ⟨-, leads2⟩ := sound.sheltered.inner (p2Index virt) (by simp) atP2 present2 huge2
        obtain ⟨p1, leads2⟩ := Option.isSome_iff_exists.mp leads2
        have atP1 : node child (tables s.memory) boot.p4
            [p4Index virt, p3Index virt, p2Index virt] = some p1 := Sheltered.node_snoc atP2 leads2
        have reads1 := tables_of_aligned (m := s.memory) (isFrame_of_child leads2).aligned
          (p1Index virt)
        rw [(present_of_child leads2).2.2] at unmaps
        dsimp only at unmaps
        rw [← reads1] at unmaps
        split_ifs at unmaps with present1
        · obtain ⟨rfl, rfl⟩ := Prod.mk.inj unmaps
          exact .refuse sound
        · rw [Bool.not_eq_true', Bool.not_eq_false] at present1
          obtain ⟨rfl, isState⟩ := Prod.mk.inj unmaps
          have before := leaf_of_table atP1
          rw [present1, if_pos rfl] at before
          obtain ⟨sound', evolves', here, elsewhere⟩ := sound.plant atP1 [] 0
            (show 0 < 2 ^ 64 by decide) (fun present => by cases present) s' (by rw [← isState])
            (by rw [← isState]; rfl) (by rw [← isState]; rfl) (by rw [← isState]; rfl)
          refine ⟨sound', evolves', fun _ failed => (by cases failed), fun phys ok => ?_⟩
          obtain rfl := Except.ok.inj ok
          exact ⟨mod_of_isPageAligned virtAligned, _, rfl, before, here, elsewhere⟩

end BootTables

end CloudOS.Paging
