import Mathlib

/-!
Trees of tables in memory.

A table is a frame with an entry for every index, and an entry may lead to
another frame. A path of indices from a root then leads to a table, if it leads
anywhere. When no table is reached twice, an update of one entry is felt only on
the paths through it. Paths have a bounded length: the frames at the bottom hold
data, not entries.
-/

namespace Lib.Radix

variable {Frame Index Entry : Type*}

section Paths

variable (child : Entry → Option Frame)

/-- The table a path leads to. -/
def node (tables : Frame → Index → Entry) : Frame → List Index → Option Frame
  | root, [] => some root
  | root, index :: path => (child (tables root index)).bind fun next => node tables next path

variable {child} {tables tables' : Frame → Index → Entry} {root : Frame}

/-- A longer path continues where the shorter one ends. -/
theorem node_append (root : Frame) (path rest : List Index) :
    node child tables root (path ++ rest) =
      (node child tables root path).bind fun frame => node child tables frame rest := by
  induction path generalizing root with
  | nil => rfl
  | cons index path ih =>
      rw [List.cons_append, node, node]
      cases child (tables root index) with
      | none => rfl
      | some next => exact ih next

theorem node_concat (root : Frame) (path : List Index) (index : Index) :
    node child tables root (path ++ [index]) =
      (node child tables root path).bind fun frame => child (tables frame index) := by
  rw [node_append]
  refine Option.bind_congr fun frame _ => ?_
  rw [node]
  cases child (tables frame index) with
  | none => rfl
  | some next => rfl

/-- A path is not affected by changes elsewhere. -/
theorem node_congr {path : List Index}
    (same : ∀ before index after frame, path = before ++ index :: after →
      node child tables root before = some frame →
      child (tables' frame index) = child (tables frame index)) :
    node child tables' root path = node child tables root path := by
  induction path using List.reverseRecOn with
  | nil => rfl
  | append_singleton path index ih =>
      have shorter : node child tables' root path = node child tables root path := by
        refine ih fun before next after frame split reaches => ?_
        exact same before next (after ++ [index]) frame (by rw [split]; simp) reaches
      rw [node_concat, node_concat, shorter]
      refine Option.bind_congr fun frame reaches => ?_
      exact same path index [] frame rfl reaches

end Paths

/-! ### Overwriting an entry -/

section Update

variable [DecidableEq Frame]

/-- Overwrite all entries of a table. -/
def fill (tables : Frame → Index → Entry) (frame : Frame) (entry : Entry) :
    Frame → Index → Entry :=
  Function.update tables frame fun _ => entry

variable {child : Entry → Option Frame} {tables : Frame → Index → Entry} {root frame : Frame}
  {index : Index} {entry : Entry}

theorem fill_self (index : Index) : fill tables frame entry frame index = entry := by
  simp [fill]

theorem fill_of_ne {frame' : Frame} (other : frame' ≠ frame) (index : Index) :
    fill tables frame entry frame' index = tables frame' index := by
  rw [fill, Function.update_of_ne other]

/-- A table that is not reached may be overwritten. -/
theorem node_fill_of_unreached {depth : Nat}
    (unreached : ∀ path, path.length ≤ depth → node child tables root path ≠ some frame)
    {path : List Index} (short : path.length ≤ depth + 1) :
    node child (fill tables frame entry) root path = node child tables root path := by
  refine node_congr fun before next after reached split reaches => ?_
  rw [fill_of_ne]
  rintro rfl
  refine unreached before ?_ reaches
  rw [split] at short
  simp only [List.length_append, List.length_cons] at short
  omega

variable [DecidableEq Index]

/-- Overwrite one entry. -/
def set (tables : Frame → Index → Entry) (frame : Frame) (index : Index) (entry : Entry) :
    Frame → Index → Entry :=
  Function.update tables frame (Function.update (tables frame) index entry)

theorem set_self : set tables frame index entry frame index = entry := by
  simp [set]

theorem set_of_ne {frame' : Frame} {index' : Index} (other : ¬ (frame' = frame ∧ index' = index)) :
    set tables frame index entry frame' index' = tables frame' index' := by
  unfold set
  by_cases here : frame' = frame
  · subst here
    rw [Function.update_self, Function.update_of_ne fun same => other ⟨rfl, same⟩]
  · rw [Function.update_of_ne here]

/-- An update that leads to the same table moves nothing. -/
theorem node_set_of_child_eq (same : child entry = child (tables frame index))
    (path : List Index) :
    node child (set tables frame index entry) root path = node child tables root path := by
  refine node_congr fun before next after reached split reaches => ?_
  by_cases here : reached = frame ∧ next = index
  · rw [here.1, here.2, set_self, same]
  · rw [set_of_ne here]

end Update

/-! ### Trees -/

/-- No table is reached by two paths of at most `depth` steps. -/
def Tree (child : Entry → Option Frame) (tables : Frame → Index → Entry) (root : Frame)
    (depth : Nat) : Prop :=
  ∀ path path' frame, path.length ≤ depth → path'.length ≤ depth →
    node child tables root path = some frame → node child tables root path' = some frame →
    path = path'

/-- A table with no children ends every path. -/
theorem node_of_childless {child : Entry → Option Frame} {tables : Frame → Index → Entry}
    {root : Frame} (childless : ∀ index, child (tables root index) = none)
    (next : Index) (rest : List Index) : node child tables root (next :: rest) = none := by
  rw [node, childless, Option.bind_none]

section Link

variable [DecidableEq Frame] [DecidableEq Index] {child : Entry → Option Frame}
  {tables : Frame → Index → Entry} {root frame fresh : Frame} {index : Index}
  {blank entry : Entry} {path : List Index} {depth : Nat}

/-- Paths that do not go through the overwritten entry. -/
theorem Tree.node_set (tree : Tree child tables root depth) (inTree : path.length ≤ depth)
    (reaches : node child tables root path = some frame) {other : List Index}
    (short : other.length ≤ depth + 1) (aside : ¬ path ++ [index] <+: other) :
    node child (set tables frame index entry) root other = node child tables root other := by
  refine node_congr fun before next after reached split reachesBefore => ?_
  rw [set_of_ne]
  rintro ⟨rfl, rfl⟩
  have inTree' : before.length ≤ depth := by
    rw [split] at short
    simp only [List.length_append, List.length_cons] at short
    omega
  have same := tree before path reached inTree' inTree reachesBefore reaches
  subst same
  exact aside ⟨after, by rw [split]; simp⟩

variable (tree : Tree child tables root depth) (inTree : path.length < depth)
  (reaches : node child tables root path = some frame)
  (unreached : ∀ path, path.length ≤ depth → node child tables root path ≠ some fresh)
  (vacant : child (tables frame index) = none) (empty : child blank = none)
  (leads : child entry = some fresh)

include tree inTree reaches unreached vacant empty leads

/-- Linking an empty table to a vacant entry adds one path. -/
theorem Tree.node_link {other : List Index} (short : other.length ≤ depth) :
    node child (set (fill tables fresh blank) frame index entry) root other =
      if other = path ++ [index] then some fresh else node child tables root other := by
  have filled : ∀ {q : List Index}, q.length ≤ depth + 1 →
      node child (fill tables fresh blank) root q = node child tables root q :=
    fun short => node_fill_of_unreached unreached short
  have tree' : Tree child (fill tables fresh blank) root depth := by
    intro p q f shortP shortQ
    rw [filled (Nat.le_succ_of_le shortP), filled (Nat.le_succ_of_le shortQ)]
    exact tree p q f shortP shortQ
  have reaches' : node child (fill tables fresh blank) root path = some frame := by
    rw [filled (by omega), reaches]
  have different : fresh ≠ frame := by
    rintro rfl
    exact unreached path inTree.le reaches
  by_cases through : path ++ [index] <+: other
  · obtain ⟨rest, rfl⟩ := through
    have aside : ¬ path ++ [index] <+: path := by
      intro inside
      have := inside.length_le
      simp at this
    have arrives : node child (set (fill tables fresh blank) frame index entry) root
        (path ++ [index]) = some fresh := by
      rw [node_concat, tree'.node_set inTree.le reaches' (by omega) aside, reaches',
        Option.bind_some, set_self, leads]
    rw [node_append, arrives, Option.bind_some]
    cases rest with
    | nil => rw [List.append_nil, if_pos rfl, node]
    | cons next rest =>
        have childless : ∀ j,
            child (set (fill tables fresh blank) frame index entry fresh j) = none := by
          intro j
          rw [set_of_ne (fun same => different same.1), fill_self, empty]
        rw [node_of_childless childless, if_neg (by simp), node_append, node_concat, reaches,
          Option.bind_some, vacant, Option.bind_none]
  · rw [tree'.node_set inTree.le reaches' (Nat.le_succ_of_le short) through,
      filled (Nat.le_succ_of_le short), if_neg]
    rintro rfl
    exact through (List.prefix_refl _)

/-- An empty table that no path reached may be linked at one place. -/
theorem Tree.link : Tree child (set (fill tables fresh blank) frame index entry) root depth := by
  intro p q f shortP shortQ
  rw [Tree.node_link tree inTree reaches unreached vacant empty leads shortP,
    Tree.node_link tree inTree reaches unreached vacant empty leads shortQ]
  split
  · rename_i isNew
    rintro ⟨⟩
    split
    · rename_i isNew'
      exact fun _ => isNew.trans isNew'.symm
    · exact fun reached => absurd reached (unreached q shortQ)
  · split
    · rintro reached ⟨⟩
      exact absurd reached (unreached p shortP)
    · exact tree p q f shortP shortQ

end Link

end Lib.Radix
