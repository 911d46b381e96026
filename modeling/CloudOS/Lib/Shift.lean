import Mathlib

/-!
Lists held at the front of an array.

A list with room to grow is kept as an array and a length. An element is put in
or taken out at any place by moving the elements behind it by one place, one
after the other. Every access is checked: an index that is out of range makes the
computation `none`. The lemmas say that nothing is out of range and what the
moves make of the list.
-/

namespace Lib.Shift

variable {α : Type*} {n : Nat}

/-- `v[index] = x` -/
def put (v : Vector α n) (index : Nat) (x : α) : Option (Vector α n) :=
  if inside : index < n then some (v.set index x inside) else none

/-- The list of the first `len` elements. -/
def front (v : Vector α n) (len : Nat) : List α := v.toList.take len

/-- `&v[..len]` -/
def slice (v : Vector α n) (len : Nat) : Option (List α) :=
  if len ≤ n then some (front v len) else none

/-- `v[..xs.len()].copy_from_slice(xs)` -/
def copyFrom (v : Vector α n) (xs : List α) : Option (Vector α n) :=
  if fits : xs.length ≤ n then
    some ⟨(xs ++ v.toList.drop xs.length).toArray, by simp; omega⟩
  else none

/-- `v[index] = v[index - 1]` -/
def moveUp (v : Vector α n) : Nat → Option (Vector α n)
  | 0 => none
  | index + 1 => v[index]? >>= put v (index + 1)

/-- `v[index - 1] = v[index]` -/
def moveDown (v : Vector α n) : Nat → Option (Vector α n)
  | 0 => none
  | index + 1 => v[index + 1]? >>= put v index

/-- `while index > start`, moving up and going down. -/
def shiftUp (start : Nat) : Nat → Vector α n → Option (Vector α n)
  | 0, v => some v
  | index + 1, v =>
    if start < index + 1 then moveUp v (index + 1) >>= shiftUp start index else some v

/-- `for index in start..stop`, moving down. -/
def shiftDown (v : Vector α n) (start stop : Nat) : Option (Vector α n) :=
  (List.range' start (stop - start)).foldlM moveDown v

variable {v w : Vector α n} {index start stop len : Nat} {x : α} {xs : List α}

theorem put_of_lt (inside : index < n) : put v index x = some (v.set index x inside) := by
  rw [put, dif_pos inside]

theorem slice_of_le (inside : len ≤ n) : slice v len = some (front v len) := if_pos inside

theorem getElem?_front (v : Vector α n) (len i : Nat) :
    (front v len)[i]? = if i < len then v[i]? else none := by
  rw [front, List.getElem?_take, Vector.getElem?_toList]

@[simp] theorem front_zero (v : Vector α n) : front v 0 = [] := rfl

theorem length_front (inside : len ≤ n) : (front v len).length = len := by
  simp [front, inside]

theorem moveUp_of_lt (inside : index + 1 < n) :
    moveUp v (index + 1) = some (v.set (index + 1) v[index] inside) := by
  rw [moveUp, Vector.getElem?_eq_getElem (by omega), Option.bind_eq_bind, Option.bind_some,
    put_of_lt inside]

theorem moveDown_of_lt (inside : index + 1 < n) :
    moveDown v (index + 1) = some (v.set index v[index + 1]) := by
  rw [moveDown, Vector.getElem?_eq_getElem inside, Option.bind_eq_bind, Option.bind_some,
    put_of_lt]

/-- Writing the place behind the list appends to it. -/
theorem front_set_end (v : Vector α n) (x : α) (room : len < n) :
    front (v.set len x) (len + 1) = front v len ++ [x] := by
  apply List.ext_getElem?
  intro i
  rw [getElem?_front, Vector.getElem?_set, List.getElem?_append, length_front room.le,
    getElem?_front]
  by_cases last : len = i
  · subst last
    simp
  · by_cases inside : i < len
    · simp [last, inside, Nat.lt_succ_of_lt inside]
    · rw [if_neg (by omega), if_neg inside, List.getElem?_eq_none]
      simp
      omega

theorem drop_set (v : Vector α n) (x : α) (inside : index < n) :
    (v.set index x).toList.drop index = x :: v.toList.drop (index + 1) := by
  have within : index < (v.set index x).toList.length := by
    rw [Vector.length_toList]
    exact inside
  rw [List.drop_eq_getElem_cons within]
  simp [Vector.toList_set, List.drop_set_of_lt]

/-! ### Overwriting the front -/

theorem copyFrom_of_le (v : Vector α n) (fits : xs.length ≤ n) :
    ∃ w, copyFrom v xs = some w ∧ front w xs.length = xs := by
  rw [copyFrom, dif_pos fits]
  exact ⟨_, rfl, by simp [front]⟩

/-! ### Putting an element in -/

/-- The elements from `start` on move up, the last one to `start + rounds`. -/
theorem shiftUp_spec (rounds : Nat) (v : Vector α n) (inside : start + rounds < n) :
    ∃ w, shiftUp start (start + rounds) v = some w ∧
      ∀ i, w[i]? = if start < i ∧ i ≤ start + rounds then v[i - 1]? else v[i]? := by
  induction rounds generalizing v with
  | zero =>
    refine ⟨v, ?_, fun i => ?_⟩
    · cases start with
      | zero => rfl
      | succ start => rw [Nat.add_zero, shiftUp, if_neg (lt_irrefl _)]
    · rw [if_neg]
      omega
  | succ rounds ih =>
    have last : start + rounds + 1 < n := inside
    obtain ⟨w, shifted, moved⟩ := ih (v.set (start + rounds + 1) v[start + rounds]) (by omega)
    refine ⟨w, ?_, fun i => ?_⟩
    · calc shiftUp start (start + (rounds + 1)) v
          = moveUp v (start + rounds + 1) >>= shiftUp start (start + rounds) :=
            if_pos (show start < start + rounds + 1 by omega)
        _ = shiftUp start (start + rounds) (v.set (start + rounds + 1) v[start + rounds]) := by
            rw [moveUp_of_lt last]
            rfl
        _ = some w := shifted
    · rw [moved]
      by_cases between : start < i ∧ i ≤ start + rounds
      · rw [if_pos between, if_pos (by omega), Vector.getElem?_set, if_neg (by omega)]
      · rw [if_neg between, Vector.getElem?_set]
        by_cases top : start + rounds + 1 = i
        · subst top
          rw [if_pos rfl, if_pos (by omega), Nat.add_sub_cancel, Vector.getElem?_eq_getElem]
        · rw [if_neg top, if_neg (by omega)]

/-- Moving the elements behind a place up makes room for one element there. -/
theorem shiftUp_put (v : Vector α n) (x : α) (within : start ≤ len) (room : len < n) :
    ∃ w, (shiftUp start len v >>= fun v => put v start x) = some w ∧
      front w (len + 1) = (front v len).insertIdx start x := by
  obtain ⟨rounds, rfl⟩ := Nat.exists_eq_add_of_le within
  obtain ⟨w, shifted, moved⟩ := shiftUp_spec rounds v room
  refine ⟨w.set start x, ?_, ?_⟩
  · rw [shifted, Option.bind_eq_bind, Option.bind_some, put_of_lt]
  · apply List.ext_getElem?
    intro i
    rw [getElem?_front, Vector.getElem?_set, moved, List.getElem?_insertIdx, getElem?_front,
      getElem?_front, length_front room.le]
    by_cases before : i < start
    · rw [if_pos (by omega), if_neg (by omega), if_neg (by omega), if_pos before, if_pos (by omega)]
    · rw [if_neg before]
      by_cases here : i = start
      · rw [if_pos (by omega), if_pos here.symm, if_pos here, if_pos (by omega)]
      · rw [if_neg (Ne.symm here), if_neg here]
        by_cases inside : i < start + rounds + 1
        · rw [if_pos inside, if_pos (by omega), if_pos (by omega)]
        · rw [if_neg inside, if_neg (by omega)]

/-! ### Taking an element out -/

/-- The elements behind `start` move down, the first one to `start`. -/
theorem shiftDown_spec (start rounds : Nat) (v : Vector α n) (inside : start + rounds < n) :
    ∃ w, (List.range' (start + 1) rounds).foldlM moveDown v = some w ∧
      ∀ i, w[i]? = if start ≤ i ∧ i < start + rounds then v[i + 1]? else v[i]? := by
  induction rounds generalizing v start with
  | zero =>
    refine ⟨v, rfl, fun i => ?_⟩
    rw [if_neg]
    omega
  | succ rounds ih =>
    obtain ⟨w, shifted, moved⟩ := ih (start + 1) (v.set start v[start + 1]) (by omega)
    refine ⟨w, ?_, fun i => ?_⟩
    · rw [List.range'_succ, List.foldlM_cons, moveDown_of_lt (by omega)]
      exact shifted
    · rw [moved]
      by_cases between : start + 1 ≤ i ∧ i < start + 1 + rounds
      · rw [if_pos between, if_pos (by omega), Vector.getElem?_set, if_neg (by omega)]
      · rw [if_neg between, Vector.getElem?_set]
        by_cases first : start = i
        · subst first
          rw [if_pos rfl, if_pos (by omega), Vector.getElem?_eq_getElem]
        · rw [if_neg first, if_neg (by omega)]

/-- Moving the elements behind a place down takes the element there out. -/
theorem shiftDown_front (v : Vector α n) (within : start < len) (inside : len ≤ n) :
    ∃ w, shiftDown v (start + 1) len = some w ∧
      front w (len - 1) = (front v len).eraseIdx start := by
  obtain ⟨w, shifted, moved⟩ := shiftDown_spec start (len - (start + 1)) v (by omega)
  refine ⟨w, shifted, ?_⟩
  apply List.ext_getElem?
  intro i
  rw [getElem?_front, moved, List.getElem?_eraseIdx, getElem?_front, getElem?_front]
  by_cases before : i < start
  · rw [if_pos (by omega), if_neg (by omega), if_pos before, if_pos (by omega)]
  · rw [if_neg before]
    by_cases below : i + 1 < len
    · rw [if_pos (by omega), if_pos (by omega), if_pos below]
    · rw [if_neg (by omega), if_neg below]

end Lib.Shift
