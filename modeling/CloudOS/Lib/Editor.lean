import Mathlib

/-!
Bounded lists with a cursor, and lists of recent entries.

A line holds at most `capacity` elements and has a cursor between two of them. A
list of recent entries holds at most `depth` of them, oldest first, and never the
same one twice in a row. Both carry their bounds, so no operation can break them.
`after_eq` says what the recent entries are: the last ones of all that came in,
once the repetitions are left out.
-/

namespace Lib.Editor

variable {α : Type*} {capacity depth : Nat}

/-- A list of bounded length with a cursor. -/
@[ext] structure Line (α : Type*) (capacity : Nat) where
  items : List α
  cursor : Nat
  bounded : items.length ≤ capacity
  inside : cursor ≤ items.length

namespace Line

/-- The empty line. -/
def empty : Line α capacity := ⟨[], 0, Nat.zero_le _, le_rfl⟩

/-- A given list, with the cursor at its end. -/
def ofList (items : List α) (bounded : items.length ≤ capacity) : Line α capacity :=
  ⟨items, items.length, bounded, le_rfl⟩

/-- Puts an element at the cursor, if there is room. -/
def insert (line : Line α capacity) (x : α) : Line α capacity :=
  if room : line.items.length < capacity then
    { items := line.items.insertIdx line.cursor x
      cursor := line.cursor + 1
      bounded := by
        rw [List.length_insertIdx_of_le_length line.inside]
        exact room
      inside := by
        rw [List.length_insertIdx_of_le_length line.inside]
        exact Nat.succ_le_succ line.inside }
  else line

/-- Removes the element before the cursor, if there is one. -/
def backspace (line : Line α capacity) : Line α capacity :=
  if behind : 0 < line.cursor then
    { items := line.items.eraseIdx (line.cursor - 1)
      cursor := line.cursor - 1
      bounded := (List.length_eraseIdx_le _ _).trans line.bounded
      inside := by
        have inside := line.inside
        rw [List.length_eraseIdx_of_lt (by omega)]
        omega }
  else line

/-- Moves the cursor one place to the left. -/
def left (line : Line α capacity) : Line α capacity :=
  { line with
    cursor := line.cursor - 1
    inside := (Nat.sub_le _ _).trans line.inside }

/-- Moves the cursor one place to the right. -/
def right (line : Line α capacity) : Line α capacity :=
  { line with
    cursor := min (line.cursor + 1) line.items.length
    inside := Nat.min_le_right _ _ }

end Line

/-- The entries that are remembered. -/
@[ext] structure Recent (α : Type*) (depth : Nat) where
  entries : List α
  bounded : entries.length ≤ depth
  distinct : entries.IsChain (· ≠ ·)

namespace Recent

/-- Nothing is remembered yet. -/
def empty : Recent α depth := ⟨[], Nat.zero_le _, List.IsChain.nil⟩

variable [DecidableEq α]

/-- Adds an entry, unless it is the newest already; the oldest one makes room. -/
def remember (recent : Recent α depth) (x : α) : Recent α depth :=
  if again : recent.entries.getLast? = some x then recent
  else
    { entries := (recent.entries ++ [x]).rtake depth
      bounded := by
        rw [List.rtake]
        simp only [List.length_drop]
        omega
      distinct := by
        apply List.IsChain.drop
        rw [List.isChain_append]
        refine ⟨recent.distinct, List.IsChain.singleton _, fun y newest z same => ?_⟩
        rw [List.head?_singleton, Option.mem_some_iff] at same
        rintro rfl
        exact again (same ▸ newest) }

/-- What is remembered of a list of entries. -/
def after (xs : List α) : Recent α depth := xs.foldl remember empty

end Recent

/-! ### What is remembered -/

section Destutter

variable [DecidableEq α]

/-- A last element is dropped if it repeats the one before. -/
theorem destutter'_concat (first : α) (xs : List α) (x : α) :
    (xs ++ [x]).destutter' (· ≠ ·) first =
      if (xs.destutter' (· ≠ ·) first).getLast? = some x then xs.destutter' (· ≠ ·) first
      else xs.destutter' (· ≠ ·) first ++ [x] := by
  induction xs generalizing first with
  | nil =>
    by_cases same : first = x
    · simp [same]
    · simp [same]
  | cons y xs ih =>
    by_cases same : first = y
    · subst same
      simpa using ih first
    · obtain ⟨z, zs, shape⟩ := List.exists_cons_of_ne_nil
        (List.destutter'_ne_nil (R := (· ≠ ·)) xs (a := y))
      rw [List.cons_append, List.destutter'_cons_pos _ same, ih, List.destutter'_cons_pos _ same,
        shape, List.getLast?_cons_cons]
      split
      · rfl
      · rfl

/-- A last element that repeats the one before it is left out. -/
theorem destutter_concat (xs : List α) (x : α) :
    (xs ++ [x]).destutter (· ≠ ·) =
      if (xs.destutter (· ≠ ·)).getLast? = some x then xs.destutter (· ≠ ·)
      else xs.destutter (· ≠ ·) ++ [x] := by
  cases xs with
  | nil => simp
  | cons y xs => exact destutter'_concat y xs x

end Destutter

/-- Only the last elements count, so older ones may be dropped before. -/
theorem rtake_concat (xs : List α) (x : α) (n : Nat) :
    (xs.rtake n ++ [x]).rtake n = (xs ++ [x]).rtake n := by
  cases n with
  | zero => simp
  | succ n =>
    rw [List.rtake_concat_succ, List.rtake_concat_succ, List.rtake, List.rtake, List.rtake,
      List.drop_drop, List.length_drop]
    congr 2
    omega

/-- The last element is among the last ones. -/
theorem getLast?_rtake (xs : List α) {n : Nat} (pos : 0 < n) :
    (xs.rtake n).getLast? = xs.getLast? := by
  rw [List.rtake, List.getLast?_drop]
  split
  · rename_i short
    have empty : xs = [] := List.eq_nil_of_length_eq_zero (by omega)
    simp [empty]
  · rfl

variable [DecidableEq α]

/-- The recent entries are the last ones of all entries without repetitions. -/
theorem Recent.after_eq (pos : 0 < depth) (xs : List α) :
    (after xs : Recent α depth).entries = (xs.destutter (· ≠ ·)).rtake depth := by
  induction xs using List.reverseRecOn with
  | nil => simp [after, empty]
  | append_singleton xs x ih =>
    rw [destutter_concat, after, List.foldl_append, List.foldl_cons, List.foldl_nil,
      ← after, remember]
    by_cases again : (xs.destutter (· ≠ ·)).getLast? = some x
    · rw [if_pos again, dif_pos (by rw [ih, getLast?_rtake _ pos, again]), ih]
    · rw [if_neg again, dif_neg (by rw [ih, getLast?_rtake _ pos]; exact again)]
      simp only [ih, rtake_concat]

end Lib.Editor
