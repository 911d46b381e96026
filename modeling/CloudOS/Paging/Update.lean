import CloudOS.Paging.Walk

/-!
What an update of one entry does to the leaves of a tree: widening an entry and
linking a new table leave all of them as they are, and an update at the fourth
level is felt by one page.
-/

namespace CloudOS.Paging

open Lib.Radix (node set fill Tree)

/-- The indices of the levels on the way to the page of an address. -/
def indices (virt : Nat) : List (Fin 512) :=
  [p4Index virt, p3Index virt, p2Index virt, p1Index virt]

/-- The table is one of the tree. -/
def Reached (T : Nat → Fin 512 → Nat) (root frame : Nat) : Prop :=
  ∃ path, path.length ≤ 3 ∧ node child T root path = some frame

variable {T T' : Nat → Fin 512 → Nat} {root frame fresh flags value : Nat} {i : Fin 512}
  {path : List (Fin 512)}

/-- A path is extended by one entry that leads on. -/
theorem Sheltered.node_snoc (reaches : node child T root path = some frame) {next : Nat}
    (leads : child (T frame i) = some next) : node child T root (path ++ [i]) = some next := by
  rw [Lib.Radix.node_concat, reaches, Option.bind_some, leads]

/-- A leaf is determined by what the walk reads. -/
theorem leaf_congr {virt : Nat}
    (sameNode : node child T' root [p4Index virt, p3Index virt] =
      node child T root [p4Index virt, p3Index virt])
    (sameBelow : ∀ p2, node child T root [p4Index virt, p3Index virt] = some p2 →
      leafBelow T' (T' p2 (p2Index virt)) (p1Index virt) =
        leafBelow T (T p2 (p2Index virt)) (p1Index virt)) :
    leaf T' root virt = leaf T root virt := by
  unfold leaf
  rw [sameNode]
  exact Option.bind_congr fun p2 reaches => sameBelow p2 reaches

/-- Below an entry the leaf depends on one entry of the next table. -/
theorem leafBelow_congr {e : Nat} {j : Fin 512}
    (same : ∀ p1, child e = some p1 → T' p1 j = T p1 j) : leafBelow T' e j = leafBelow T e j := by
  unfold leafBelow
  split
  · rfl
  · refine Option.bind_congr fun p1 leads => ?_
    rw [same p1 leads]

/-- An absent entry of the third level does not look like one of a large page. -/
def Tidy (T : Nat → Fin 512 → Nat) (root : Nat) : Prop :=
  ∀ path frame i, path.length = 2 → node child T root path = some frame →
    entryPresent (T frame i) = false → entryHuge (T frame i) = false

/-! ### Tables outside the tree -/

section Fill

variable (sheltered : Sheltered T root) (unreached : ¬ Reached T root fresh)

include unreached

/-- Clearing a frame outside the tree leaves every path as it is. -/
theorem node_fill (short : path.length ≤ 4) :
    node child (fill T fresh 0) root path = node child T root path :=
  Lib.Radix.node_fill_of_unreached
    (fun p (inTree : p.length ≤ 3) reaches => unreached ⟨p, inTree, reaches⟩) short

theorem fill_reached (short : path.length ≤ 3)
    (reaches : node child T root path = some frame) (j : Fin 512) :
    fill T fresh 0 frame j = T frame j := by
  apply Lib.Radix.fill_of_ne
  rintro rfl
  exact unreached ⟨path, short, reaches⟩

theorem Tidy.fill (tidy : Tidy T root) : Tidy (fill T fresh 0) root := by
  intro p f j length reachesP
  rw [node_fill unreached (by omega)] at reachesP
  rw [fill_reached unreached (by omega) reachesP]
  exact tidy p f j length reachesP

include sheltered

/-- Upper entries are no obstacle afterwards if they were none before. -/
theorem Sheltered.fill : Sheltered (Lib.Radix.fill T fresh 0) root := by
  have reads : ∀ {p : List (Fin 512)} {f : Nat}, p.length ≤ 3 →
      node child (Lib.Radix.fill T fresh 0) root p = some f → node child T root p = some f ∧
        ∀ j, Lib.Radix.fill T fresh 0 f j = T f j := by
    intro p f short reaches
    rw [node_fill unreached (by omega)] at reaches
    exact ⟨reaches, fill_reached unreached short reaches⟩
  refine ⟨?_, ?_, ?_, ?_⟩
  · intro p q f shortP shortQ reachesP reachesQ
    exact sheltered.tree p q f shortP shortQ (reads shortP reachesP).1 (reads shortQ reachesQ).1
  · intro p f j short reaches
    obtain ⟨reaches, same⟩ := reads (by omega) reaches
    rw [same]
    exact sheltered.small j short reaches
  · intro p f j short reaches
    obtain ⟨reaches, same⟩ := reads (by omega) reaches
    rw [same]
    exact sheltered.inner j short reaches
  · intro p f next j k short reaches
    obtain ⟨reaches, same⟩ := reads (by omega) reaches
    rw [same]
    intro leads
    have reachesNext := Sheltered.node_snoc reaches leads
    rw [fill_reached unreached (by simp; omega) reachesNext]
    exact sheltered.covers j k short reaches leads

omit sheltered in
/-- No page is lost or gained by clearing a frame outside the tree. -/
theorem leaf_fill (virt : Nat) : leaf (Lib.Radix.fill T fresh 0) root virt = leaf T root virt := by
  refine leaf_congr (node_fill unreached (by simp)) fun p2 reaches => ?_
  rw [fill_reached unreached (by simp) reaches]
  refine leafBelow_congr fun p1 leads => ?_
  exact fill_reached unreached (by simp) (Sheltered.node_snoc reaches leads) _

end Fill

/-! ### Widening an entry -/

section Widen

variable (sheltered : Sheltered T root) (short : path.length ≤ 2)
  (reaches : node child T root path = some frame)

/-- An entry that grants more leads where it led. -/
theorem node_widen (p : List (Fin 512)) :
    node child (set T frame i (T frame i ||| opened flags)) root p = node child T root p :=
  Lib.Radix.node_set_of_child_eq (child_widen _ _) p

variable (T frame flags i) in
/-- Only the widened entry differs, by what it grants. -/
theorem entry_widen (f : Nat) (j : Fin 512) :
    set T frame i (T frame i ||| opened flags) f j = T f j ∨
      f = frame ∧ j = i ∧
        set T frame i (T frame i ||| opened flags) f j = T f j ||| opened flags := by
  by_cases here : f = frame ∧ j = i
  · obtain ⟨rfl, rfl⟩ := here
    exact .inr ⟨rfl, rfl, Lib.Radix.set_self⟩
  · exact .inl (Lib.Radix.set_of_ne here)

variable (frame flags i) in
theorem Tidy.widen (tidy : Tidy T root) :
    Tidy (set T frame i (T frame i ||| opened flags)) root := by
  intro p f j length reachesP
  rw [node_widen] at reachesP
  have before := tidy p f j length reachesP
  rcases entry_widen T frame flags i f j with same | ⟨-, -, widened⟩
  · rw [same]
    exact before
  · rw [widened, entryPresent_or, entryPresent_opened, Bool.or_false, entryHuge_or,
      entryHuge_opened, Bool.or_false]
    exact before

include sheltered short reaches

/-- No page looks different below a widened entry, since the leaf grants what it granted. -/
theorem Sheltered.leaf_widen (small : entryHuge (T frame i) = false) (virt : Nat) :
    leaf (set T frame i (T frame i ||| opened flags)) root virt = leaf T root virt := by
  refine leaf_congr (node_widen _) fun p2 reachesP2 => ?_
  -- the fourth level is below the widened entry
  have sameLeaf : ∀ p1, child (T p2 (p2Index virt)) = some p1 →
      set T frame i (T frame i ||| opened flags) p1 (p1Index virt) = T p1 (p1Index virt) := by
    intro p1 leads
    apply Lib.Radix.set_of_ne
    rintro ⟨rfl, -⟩
    have same := sheltered.tree _ path p1 (by simp) (by omega)
      (Sheltered.node_snoc reachesP2 leads) reaches
    rw [← same] at short
    simp at short
  rcases entry_widen T frame flags i p2 (p2Index virt) with
    same | ⟨here, isIndex, widened⟩
  · rw [same]
    exact leafBelow_congr sameLeaf
  · have small' : entryHuge (T p2 (p2Index virt)) = false := by
      rw [here, isIndex]
      exact small
    rw [widened, leafBelow, leafBelow, child_widen, entryHuge_or, entryHuge_opened, small',
      Bool.or_false, Bool.and_false, Bool.and_false]
    refine Option.bind_congr fun p1 leads => ?_
    rw [sameLeaf p1 leads]

/-- The widened entry covers what it covered, and is covered itself by those above it. -/
theorem Sheltered.widen (opens : Open T root path flags) :
    Sheltered (set T frame i (T frame i ||| opened flags)) root := by
  refine ⟨?_, ?_, ?_, ?_⟩
  · intro p q f shortP shortQ
    rw [node_widen, node_widen]
    exact sheltered.tree p q f shortP shortQ
  · intro p f j shortP reachesP
    rw [node_widen] at reachesP
    have small := sheltered.small j shortP reachesP
    rcases entry_widen T frame flags i f j with
      same | ⟨-, -, widened⟩
    · rwa [same]
    · rwa [widened, entryPresent_or, entryPresent_opened, Bool.or_false, entryHuge_or,
        entryHuge_opened, Bool.or_false]
  · intro p f j shortP reachesP
    rw [node_widen] at reachesP
    have inner := sheltered.inner j shortP reachesP
    rcases entry_widen T frame flags i f j with
      same | ⟨-, -, widened⟩
    · rwa [same]
    · rwa [widened, entryPresent_or, entryPresent_opened, Bool.or_false, entryHuge_or,
        entryHuge_opened, Bool.or_false, entryNoExecute_or, entryNoExecute_opened, Bool.or_false,
        child_widen]
  · intro p f next j k shortP reachesP leads present
    rw [node_widen] at reachesP
    have leads' : child (T f j) = some next := by
      rcases entry_widen T frame flags i f j with
        same | ⟨-, -, widened⟩
      · rwa [same] at leads
      · rwa [widened, child_widen] at leads
    have upper : ∀ {below}, Covers (T f j) below →
        Covers (set T frame i (T frame i ||| opened flags) f j) below := by
      intro below covers
      rcases entry_widen T frame flags i f j with
        same | ⟨-, -, widened⟩
      · rwa [same]
      · rw [widened]
        exact covers.or_left _
    refine upper ?_
    have covers := sheltered.covers j k shortP reachesP leads'
    rcases entry_widen T frame flags i next k with
      same | ⟨here, isIndex, widened⟩
    · rw [same] at present ⊢
      exact covers present
    · rw [widened, entryPresent_or, entryPresent_opened, Bool.or_false] at present
      rw [widened]
      -- the entry above the widened one is the one that leads to its table
      have arrives := Sheltered.node_snoc reachesP leads'
      have isPath := sheltered.tree _ path next (by simp; omega) (by omega) arrives (here ▸ reaches)
      exact (covers present).or_right (opens isPath.symm reachesP).opened

omit sheltered short in
/-- The path now covers the flags one entry further. -/
theorem open_widen : Open (set T frame i (T frame i ||| opened flags)) root (path ++ [i]) flags := by
  intro before j f split reachesF
  obtain ⟨rfl, isIndex⟩ := List.append_inj' split rfl
  obtain rfl := List.singleton_inj.mp isIndex
  rw [node_widen, reaches] at reachesF
  obtain rfl := Option.some.inj reachesF
  rw [Lib.Radix.set_self]
  exact Covers.of_opened _ _

end Widen

/-! ### Linking a new table -/

section Link

variable (sheltered : Sheltered T root) (short : path.length ≤ 2)
  (reaches : node child T root path = some frame) (unreached : ¬ Reached T root fresh)
  (isFrame : IsFrame fresh) (absent : entryPresent (T frame i) = false)

/-- The tables after an empty table is linked. -/
abbrev linked (T : Nat → Fin 512 → Nat) (fresh frame : Nat) (i : Fin 512) (flags : Nat) :
    Nat → Fin 512 → Nat :=
  set (fill T fresh 0) frame i (fresh ||| presentBit ||| opened flags)

include sheltered short reaches unreached isFrame absent

/-- The new table is reached by one path, and nothing else has moved. -/
theorem Sheltered.node_linked {p : List (Fin 512)} (shortP : p.length ≤ 3) :
    node child (linked T fresh frame i flags) root p =
      if p = path ++ [i] then some fresh else node child T root p :=
  Tree.node_link sheltered.tree (by omega) reaches
    (fun q shortQ reachesQ => unreached ⟨q, shortQ, reachesQ⟩) (child_of_absent absent) child_zero
    (child_link isFrame flags) shortP

omit isFrame in
/-- The entries of the tables that were there before. -/
theorem Sheltered.entry_linked (flags : Nat) {p : List (Fin 512)} {f : Nat} (shortP : p.length ≤ 3)
    (reachesP : node child T root p = some f) (j : Fin 512) :
    linked T fresh frame i flags f j = T f j ∧ ¬ (f = frame ∧ j = i) ∨
      p = path ∧ f = frame ∧ j = i ∧
        linked T fresh frame i flags f j = fresh ||| presentBit ||| opened flags := by
  by_cases here : f = frame ∧ j = i
  · obtain ⟨rfl, rfl⟩ := here
    exact .inr ⟨sheltered.tree p path f shortP (by omega) reachesP reaches, rfl, rfl,
      Lib.Radix.set_self⟩
  · refine .inl ⟨?_, here⟩
    rw [linked, Lib.Radix.set_of_ne here]
    exact fill_reached unreached shortP reachesP j

omit sheltered isFrame absent in
/-- A new table is empty. -/
theorem fresh_linked (flags : Nat) (i j : Fin 512) : linked T fresh frame i flags fresh j = 0 := by
  rw [linked, Lib.Radix.set_of_ne, Lib.Radix.fill_self]
  rintro ⟨rfl, -⟩
  exact unreached ⟨path, by omega, reaches⟩

theorem Tidy.link (tidy : Tidy T root) : Tidy (linked T fresh frame i flags) root := by
  intro p f j length reachesP
  rw [sheltered.node_linked short reaches unreached isFrame absent (by omega)] at reachesP
  split at reachesP
  · obtain rfl := Option.some.inj reachesP
    rw [fresh_linked short reaches unreached]
    exact fun _ => rfl
  · rcases sheltered.entry_linked short reaches unreached absent flags (by omega) reachesP j
      with ⟨same, -⟩ | ⟨-, -, -, links⟩
    · rw [same]
      exact tidy p f j length reachesP
    · intro isAbsent
      rw [links, (present_of_child (child_link isFrame flags)).1] at isAbsent
      cases isAbsent

/-- An empty table adds no page. -/
theorem Sheltered.leaf_linked (virt : Nat) :
    leaf (linked T fresh frame i flags) root virt = leaf T root virt := by
  unfold leaf
  rw [sheltered.node_linked short reaches unreached isFrame absent (by simp)]
  split
  · rename_i isNew
    -- the new table has no entries, and there was no table before
    have blank := fresh_linked short reaches unreached flags i
      (p2Index virt)
    rw [isNew, Lib.Radix.node_concat, reaches, Option.bind_some, Option.bind_some,
      child_of_absent absent, blank]
    rfl
  · refine Option.bind_congr fun p2 reachesP2 => ?_
    rcases sheltered.entry_linked short reaches unreached absent flags (by simp)
      reachesP2 (p2Index virt) with ⟨same, -⟩ | ⟨-, rfl, rfl, links⟩
    · rw [same]
      refine leafBelow_congr fun p1 leads => ?_
      have reachesP1 := Sheltered.node_snoc reachesP2 leads
      rcases sheltered.entry_linked short reaches unreached absent flags
        (by simp) reachesP1 (p1Index virt) with ⟨same, -⟩ | ⟨isPath, -⟩
      · exact same
      · rw [← isPath] at short
        simp at short
    · have small : entryHuge (fresh ||| presentBit ||| opened flags) = false :=
        (present_of_child (child_link isFrame flags)).2.1
      rw [links, leafBelow, leafBelow, small, absent, child_link isFrame, child_of_absent absent,
        Bool.and_false, Bool.false_and, if_neg Bool.false_ne_true, if_neg Bool.false_ne_true,
        Option.bind_some, Option.bind_none,
        fresh_linked short reaches unreached flags (p2Index virt)
          (p1Index virt)]
      rfl

/-- The new entry covers everything below it, where there is nothing yet. -/
theorem Sheltered.link (opens : Open T root path flags) :
    Sheltered (linked T fresh frame i flags) root := by
  -- a table of the new tree is the new table, or one of the old tree
  have back : ∀ {p : List (Fin 512)} {f : Nat}, p.length ≤ 3 →
      node child (linked T fresh frame i flags) root p = some f →
      f = fresh ∨ node child T root p = some f := by
    intro p f shortP reachesP
    rw [sheltered.node_linked short reaches unreached isFrame absent shortP] at reachesP
    split at reachesP
    · exact .inl (Option.some.inj reachesP).symm
    · exact .inr reachesP
  have blank := fresh_linked short reaches unreached flags i
  obtain ⟨presentNew, smallNew, -⟩ := present_of_child (child_link isFrame flags)
  refine ⟨?_, ?_, ?_, ?_⟩
  · exact Tree.link sheltered.tree (by omega) reaches
      (fun q shortQ reachesQ => unreached ⟨q, shortQ, reachesQ⟩) (child_of_absent absent) child_zero
      (child_link isFrame flags)
  · intro p f j shortP reachesP present
    rcases back (by omega) reachesP with rfl | reachesP
    · rw [blank] at present
      cases present
    · rcases sheltered.entry_linked short reaches unreached absent flags
        (by omega) reachesP j with ⟨same, -⟩ | ⟨-, -, -, links⟩
      · rw [same] at present ⊢
        exact sheltered.small j shortP reachesP present
      · rwa [links]
  · intro p f j shortP reachesP present
    rcases back (by omega) reachesP with rfl | reachesP
    · rw [blank] at present
      cases present
    · rcases sheltered.entry_linked short reaches unreached absent flags
        (by omega) reachesP j with ⟨same, -⟩ | ⟨-, -, -, links⟩
      · rw [same] at present ⊢
        exact sheltered.inner j shortP reachesP present
      · intro _
        rw [links, child_link isFrame, entryNoExecute_or, entryNoExecute_or,
          isFrame.entryNoExecute, entryNoExecute_opened]
        exact ⟨rfl, rfl⟩
  · intro p f next j k shortP reachesP leads present
    rcases back (by omega) reachesP with rfl | reachesP
    · rw [blank] at leads
      cases leads
    · rcases sheltered.entry_linked short reaches unreached absent flags
        (by omega) reachesP j with ⟨same, -⟩ | ⟨-, -, -, links⟩
      · rw [same] at leads ⊢
        have arrives := Sheltered.node_snoc reachesP leads
        rcases sheltered.entry_linked short reaches unreached absent flags
          (by simp; omega) arrives k with ⟨same', -⟩ | ⟨isPath, -, -, links⟩
        · rw [same'] at present ⊢
          exact sheltered.covers j k shortP reachesP leads present
        · have granted := opens isPath.symm reachesP
          rw [links]
          refine (Covers.of_none _ ?_ ?_).or_right granted.opened
          · rw [entryWritable_or, isFrame.entryWritable]
            rfl
          · rw [entryUser_or, isFrame.entryUser]
            rfl
      · rw [links, child_link isFrame] at leads
        obtain rfl := Option.some.inj leads
        rw [blank] at present
        cases present

/-- The entry of the new table covers the flags it was made for. -/
theorem Sheltered.open_linked : Open (linked T fresh frame i flags) root (path ++ [i]) flags := by
  intro before j f split reachesF
  obtain ⟨rfl, isIndex⟩ := List.append_inj' split rfl
  obtain rfl := List.singleton_inj.mp isIndex
  rw [sheltered.node_linked short reaches unreached isFrame absent (by omega), if_neg (by simp),
    reaches] at reachesF
  obtain rfl := Option.some.inj reachesF
  rw [linked, Lib.Radix.set_self]
  exact Covers.of_opened _ _

end Link

/-! ### Entries of the fourth level -/

section Plant

variable (sheltered : Sheltered T root) (bottom : path.length = 3)
  (reaches : node child T root path = some frame)

include sheltered bottom reaches

/-- An entry of the last level leads nowhere. -/
theorem Sheltered.node_planted {p : List (Fin 512)} (shortP : p.length ≤ 3) :
    node child (set T frame i value) root p = node child T root p := by
  refine sheltered.tree.node_set (by omega) reaches (by omega) fun inside => ?_
  have := inside.length_le
  simp only [List.length_append, List.length_singleton] at this
  omega

/-- The upper tables are other frames than the last one. -/
theorem Sheltered.entry_planted {p : List (Fin 512)} {f : Nat} (shortP : p.length ≤ 2)
    (reachesP : node child T root p = some f) (j : Fin 512) : set T frame i value f j = T f j := by
  apply Lib.Radix.set_of_ne
  rintro ⟨rfl, -⟩
  have isPath := sheltered.tree p path f (by omega) (by omega) reachesP reaches
  rw [isPath] at shortP
  omega

/-- The third level is untouched. -/
theorem Tidy.plant (tidy : Tidy T root) : Tidy (set T frame i value) root := by
  intro p f j length reachesP
  rw [sheltered.node_planted bottom reaches (by omega)] at reachesP
  rw [sheltered.entry_planted bottom reaches (by omega) reachesP]
  exact tidy p f j length reachesP

/-- Other pages do not change. -/
theorem Sheltered.leaf_planted_of_ne {virt : Nat} (other : indices virt ≠ path ++ [i]) :
    leaf (set T frame i value) root virt = leaf T root virt := by
  refine leaf_congr (sheltered.node_planted bottom reaches (by simp)) fun p2 reachesP2 => ?_
  rw [sheltered.entry_planted bottom reaches (by simp) reachesP2]
  refine leafBelow_congr fun p1 leads => ?_
  apply Lib.Radix.set_of_ne
  rintro ⟨rfl, rfl⟩
  have isPath := sheltered.tree _ path p1 (by simp) (by omega)
    (Sheltered.node_snoc reachesP2 leads) reaches
  exact other (by rw [← isPath]; rfl)

/-- The planted entry is the leaf of its page. -/
theorem Sheltered.leaf_planted {virt : Nat} (here : indices virt = path ++ [i]) :
    leaf (set T frame i value) root virt =
      if entryPresent value then some ⟨false, value⟩ else none := by
  have split : [p4Index virt, p3Index virt, p2Index virt] ++ [p1Index virt] = path ++ [i] := here
  obtain ⟨isPath, isIndex⟩ := List.append_inj' split rfl
  obtain rfl := List.singleton_inj.mp isIndex
  have toP1 : node child T root ([p4Index virt, p3Index virt] ++ [p2Index virt]) = some frame := by
    rw [← isPath] at reaches
    exact reaches
  rw [Lib.Radix.node_concat] at toP1
  obtain ⟨p2, reachesP2, leads⟩ := Option.bind_eq_some_iff.mp toP1
  unfold leaf
  rw [sheltered.node_planted bottom reaches (by simp), reachesP2, Option.bind_some,
    sheltered.entry_planted bottom reaches (by simp) reachesP2, leafBelow,
    (present_of_child leads).2.1, leads, Bool.and_false, if_neg Bool.false_ne_true,
    Option.bind_some, Lib.Radix.set_self]

/-- A planted leaf grants no more than the path to it. -/
theorem Sheltered.plant (granted : entryPresent value = true → Open T root path value) :
    Sheltered (set T frame i value) root := by
  refine ⟨?_, ?_, ?_, ?_⟩
  · intro p q f shortP shortQ
    rw [sheltered.node_planted bottom reaches shortP, sheltered.node_planted bottom reaches shortQ]
    exact sheltered.tree p q f shortP shortQ
  · intro p f j shortP reachesP
    rw [sheltered.node_planted bottom reaches (by omega)] at reachesP
    rw [sheltered.entry_planted bottom reaches (by omega) reachesP]
    exact sheltered.small j shortP reachesP
  · intro p f j shortP reachesP
    rw [sheltered.node_planted bottom reaches (by omega)] at reachesP
    rw [sheltered.entry_planted bottom reaches shortP reachesP]
    exact sheltered.inner j shortP reachesP
  · intro p f next j k shortP reachesP leads present
    rw [sheltered.node_planted bottom reaches (by omega)] at reachesP
    rw [sheltered.entry_planted bottom reaches shortP reachesP] at leads ⊢
    by_cases here : next = frame ∧ k = i
    · obtain ⟨rfl, rfl⟩ := here
      rw [Lib.Radix.set_self] at present ⊢
      have isPath := sheltered.tree _ path next (by simp; omega) (by omega)
        (Sheltered.node_snoc reachesP leads) reaches
      exact granted present isPath.symm reachesP
    · rw [Lib.Radix.set_of_ne here] at present ⊢
      exact sheltered.covers j k shortP reachesP leads present

end Plant

end CloudOS.Paging
