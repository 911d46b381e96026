import CloudOS.Paging.Entry

/-!
What a tree of tables translates an address to.

A walk ends in a leaf: an entry for a large page at the third level, or one for a
small page at the fourth. When every entry grants at least what the entries below
it grant, the permissions of a page are those of its leaf, and an update of the
upper levels is felt by no page.
-/

namespace CloudOS.Paging

open Lib.Radix (node set fill Tree)
open Lib.Store (Memory)
open Lib.Word (satAdd)

/-- The entry a walk ends in. -/
structure Leaf where
  huge : Bool
  entry : Nat
deriving DecidableEq

/-- The translation an entry gives by itself. -/
def Leaf.result (leaf : Leaf) (virt : Nat) : TranslateResult where
  virt := virt
  phys :=
    if leaf.huge then satAdd (hugeEntryAddr leaf.entry) (virt &&& (hugePageSize - 1))
    else satAdd (entryAddr leaf.entry) (virt &&& (pageSize4k - 1))
  mapped := true
  hugePage := leaf.huge
  userAccessible := entryUser leaf.entry
  writable := entryWritable leaf.entry
  executable := !entryNoExecute leaf.entry
  pageSize := if leaf.huge then hugePageSize else pageSize4k

/-- What `translate` answers for the leaf it finds, if any. -/
def resultOf (virt : Nat) : Option Leaf → TranslateResult
  | none => unmapped virt
  | some leaf => leaf.result virt

/-- The leaf below an entry of the third level. -/
def leafBelow (T : Nat → Fin 512 → Nat) (e : Nat) (index : Fin 512) : Option Leaf :=
  if entryPresent e && entryHuge e then some ⟨true, e⟩
  else (child e).bind fun p1 =>
    if entryPresent (T p1 index) then some ⟨false, T p1 index⟩ else none

/-- The entry at the end of the walk. -/
def leaf (T : Nat → Fin 512 → Nat) (root virt : Nat) : Option Leaf :=
  (node child T root [p4Index virt, p3Index virt]).bind fun p2 =>
    leafBelow T (T p2 (p2Index virt)) (p1Index virt)

/-- The first entry grants what the second one grants. -/
def Covers (e below : Nat) : Prop :=
  (entryWritable below = true → entryWritable e = true) ∧
    (entryUser below = true → entryUser e = true)

namespace Covers

variable {e below flags : Nat}

theorem or_left (covers : Covers e below) (bits : Nat) : Covers (e ||| bits) below := by
  simp only [Covers, entryWritable_or, entryUser_or, Bool.or_eq_true]
  exact ⟨fun h => .inl (covers.1 h), fun h => .inl (covers.2 h)⟩

/-- What covers both covers them together. -/
theorem or_right {other : Nat} (covers : Covers e below) (covers' : Covers e other) :
    Covers e (below ||| other) := by
  simp only [Covers, entryWritable_or, entryUser_or, Bool.or_eq_true]
  exact ⟨fun h => h.elim covers.1 covers'.1, fun h => h.elim covers.2 covers'.2⟩

theorem opened (covers : Covers e flags) : Covers e (Paging.opened flags) := by
  simpa only [Covers, entryWritable_opened, entryUser_opened] using covers

/-- An entry covers the flags it was opened for. -/
theorem of_opened (bits flags : Nat) : Covers (bits ||| Paging.opened flags) flags := by
  simp only [Covers, entryWritable_or, entryUser_or, entryWritable_opened, entryUser_opened,
    Bool.or_eq_true]
  exact ⟨.inr, .inr⟩

theorem of_none (e : Nat) (noWrite : entryWritable below = false) (noUser : entryUser below = false) :
    Covers e below := by
  simp [Covers, noWrite, noUser]

/-- The walk may ask the upper entry as well. -/
theorem user_and (covers : Covers e below) : (entryUser e && entryUser below) = entryUser below := by
  cases granted : entryUser below with
  | false => rw [Bool.and_false]
  | true => rw [covers.2 granted, Bool.and_self]

theorem writable_and (covers : Covers e below) :
    (entryWritable e && entryWritable below) = entryWritable below := by
  cases granted : entryWritable below with
  | false => rw [Bool.and_false]
  | true => rw [covers.1 granted, Bool.and_self]

end Covers

/-- A tree of four levels in which upper entries are no obstacle: only the third
level has large pages, and an entry that leads on covers those it leads to. -/
structure Sheltered (T : Nat → Fin 512 → Nat) (root : Nat) : Prop where
  tree : Tree child T root 3
  small : ∀ {path frame} i, path.length ≤ 1 → node child T root path = some frame →
    entryPresent (T frame i) = true → entryHuge (T frame i) = false
  inner : ∀ {path frame} i, path.length ≤ 2 → node child T root path = some frame →
    entryPresent (T frame i) = true → entryHuge (T frame i) = false →
    entryNoExecute (T frame i) = false ∧ (child (T frame i)).isSome = true
  covers : ∀ {path frame next} i j, path.length ≤ 2 → node child T root path = some frame →
    child (T frame i) = some next → entryPresent (T next j) = true →
    Covers (T frame i) (T next j)

/-- The entry that leads to a table covers the flags. -/
def Open (T : Nat → Fin 512 → Nat) (root : Nat) (path : List (Fin 512)) (flags : Nat) : Prop :=
  ∀ {before i frame}, path = before ++ [i] → node child T root before = some frame →
    Covers (T frame i) flags

/-- The root is always open. -/
theorem open_nil (T : Nat → Fin 512 → Nat) (root flags : Nat) : Open T root [] flags := by
  intro before i frame split
  simp at split

/-! ### The two walks -/

/-- The two walkers of the source are one. -/
theorem translate_eq_translateFromRoot (boot : BootTables) (m : Memory) (virt : Nat) :
    translate boot m virt = translateFromRoot m boot.p4 virt := by
  have isFrame : IsFrame boot.p4 := ⟨boot.aligned.1, boot.reachable.1⟩
  unfold translate translateFromRoot
  rw [isFrame.tableFromFrame]
  dsimp only
  simp only [Bool.and_self, Bool.and_assoc]

section Walk

variable {m : Memory} {root : Nat}

/-- Both walks, without the permissions of the upper levels. -/
theorem Sheltered.translateFromRoot (sheltered : Sheltered (tables m) root) (isFrame : IsFrame root)
    (virt : Nat) : translateFromRoot m root virt = resultOf virt (leaf (tables m) root virt) := by
  have atRoot : node child (tables m) root [] = some root := rfl
  have readsRoot := tables_of_aligned (m := m) isFrame.aligned (p4Index virt)
  unfold Paging.translateFromRoot leaf
  rw [isFrame.tableFromFrame]
  dsimp only
  rw [← readsRoot]
  cases present4 : entryPresent (tables m root (p4Index virt)) with
  | false =>
      rw [Lib.Radix.node, child_of_absent present4]
      rfl
  | true =>
      have small4 := sheltered.small (p4Index virt) (by simp) atRoot present4
      obtain ⟨execute4, leads4⟩ := sheltered.inner (p4Index virt) (by simp) atRoot present4 small4
      obtain ⟨p3, leads4⟩ := Option.isSome_iff_exists.mp leads4
      have atP3 : node child (tables m) root [p4Index virt] = some p3 := by
        rw [Lib.Radix.node, leads4]
        rfl
      have covers4 := fun j => sheltered.covers (p4Index virt) j (by simp) atRoot leads4
      have readsP3 := tables_of_aligned (m := m) (isFrame_of_child leads4).aligned (p3Index virt)
      rw [(present_of_child leads4).2.2, Lib.Radix.node, leads4, Option.bind_some]
      dsimp only
      rw [← readsP3]
      cases present3 : entryPresent (tables m p3 (p3Index virt)) with
      | false =>
          rw [Lib.Radix.node, child_of_absent present3]
          rfl
      | true =>
          have small3 := sheltered.small (p3Index virt) (by simp) atP3 present3
          obtain ⟨execute3, leads3⟩ := sheltered.inner (p3Index virt) (by simp) atP3 present3 small3
          obtain ⟨p2, leads3⟩ := Option.isSome_iff_exists.mp leads3
          have atP2 : node child (tables m) root [p4Index virt, p3Index virt] = some p2 := by
            rw [Lib.Radix.node, leads4, Option.bind_some, Lib.Radix.node, leads3]
            rfl
          have covers3 := fun j => sheltered.covers (p3Index virt) j (by simp) atP3 leads3
          have covers43 := covers4 (p3Index virt) present3
          have readsP2 := tables_of_aligned (m := m) (isFrame_of_child leads3).aligned
            (p2Index virt)
          rw [(present_of_child leads3).2.2, Lib.Radix.node, leads3, Option.bind_some,
            Lib.Radix.node, Option.bind_some, leafBelow]
          dsimp only
          rw [← readsP2]
          cases present2 : entryPresent (tables m p2 (p2Index virt)) with
          | false =>
              rw [child_of_absent present2]
              rfl
          | true =>
              have covers32 := covers3 (p2Index virt) present2
              cases huge2 : entryHuge (tables m p2 (p2Index virt)) with
              | true =>
                  simp only [Bool.not_true, Bool.false_eq_true, if_false, Bool.and_self, if_true,
                    covers43.user_and, covers43.writable_and, covers32.user_and,
                    covers32.writable_and, execute4, execute3, Bool.not_false, Bool.true_and]
                  rfl
              | false =>
                  obtain ⟨execute2, leads2⟩ :=
                    sheltered.inner (p2Index virt) (by simp) atP2 present2 huge2
                  obtain ⟨p1, leads2⟩ := Option.isSome_iff_exists.mp leads2
                  have readsP1 := tables_of_aligned (m := m) (isFrame_of_child leads2).aligned
                    (p1Index virt)
                  rw [(present_of_child leads2).2.2, leads2]
                  dsimp only
                  rw [← readsP1, Bool.true_and, if_neg Bool.false_ne_true, Option.bind_some]
                  cases present1 : entryPresent (tables m p1 (p1Index virt)) with
                  | false => rfl
                  | true =>
                      have covers21 := sheltered.covers (p2Index virt) (p1Index virt) (by simp) atP2
                        leads2 present1
                      simp only [Bool.not_true, Bool.false_eq_true, if_false, if_true,
                        covers43.user_and, covers43.writable_and, covers32.user_and,
                        covers32.writable_and, covers21.user_and, covers21.writable_and, execute4,
                        execute3, execute2, Bool.not_false, Bool.true_and]
                      rfl

/-- In a sheltered tree, `translate` reads the leaf and nothing on the way. -/
theorem Sheltered.translate {boot : BootTables} (sheltered : Sheltered (tables m) boot.p4)
    (virt : Nat) : translate boot m virt = resultOf virt (leaf (tables m) boot.p4 virt) := by
  rw [translate_eq_translateFromRoot]
  exact sheltered.translateFromRoot ⟨boot.aligned.1, boot.reachable.1⟩ virt

end Walk

end CloudOS.Paging
