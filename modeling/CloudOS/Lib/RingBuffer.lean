import Mathlib

/-!
Ring buffers of a fixed positive capacity.

A ring is a cell array, a head index and a length; position `k` of the queue
lives in cell `(head + k) % n`. `contents` reads the queue as a list, oldest
element first, and the lemmas say what a write at the tail, a removal at the
head, an in-place edit and a removal from the middle do to that list.
-/

namespace Lib.RingBuffer

variable {α β : Type*} {n : Nat} [NeZero n]

/-- The cell that holds queue position `k` of a ring that starts at `head`. -/
def cell (n : Nat) [NeZero n] (k : Nat) : Fin n := Fin.ofNat n k

/-- The queued elements, oldest first. -/
def contents (buffer : Fin n → α) (head len : Nat) : List α :=
  (List.range len).map fun k => buffer (cell n (head + k))

@[simp] theorem length_contents (buffer : Fin n → α) (head len : Nat) :
    (contents buffer head len).length = len := by
  simp [contents]

theorem mem_contents {buffer : Fin n → α} {head len : Nat} {x : α} :
    x ∈ contents buffer head len ↔ ∃ k < len, buffer (cell n (head + k)) = x := by
  simp [contents]

/-- Two positions less than a full turn apart share no cell. -/
theorem cell_add_inj {head j k : Nat} (hj : j < n) (hk : k < n) :
    cell n (head + j) = cell n (head + k) ↔ j = k := by
  constructor
  · intro same
    have modEq : (head + j) % n = (head + k) % n := congrArg Fin.val same
    have : j % n = k % n := Nat.ModEq.add_left_cancel' head modEq
    rwa [Nat.mod_eq_of_lt hj, Nat.mod_eq_of_lt hk] at this
  · rintro rfl
    rfl

/-- Writing the cell after the last element appends to the queue. -/
theorem contents_push (buffer : Fin n → α) (head : Nat) {len : Nat} (space : len < n) (x : α) :
    contents (Function.update buffer (cell n (head + len)) x) head (len + 1) =
      contents buffer head len ++ [x] := by
  unfold contents
  rw [List.range_succ, List.map_append]
  congr 1
  · apply List.map_congr_left
    intro k hk
    have below : k < len := List.mem_range.mp hk
    rw [Function.update_apply, if_neg]
    rw [cell_add_inj (below.trans space) space]
    exact below.ne
  · simp

/-- The cell at the head is the oldest element; advancing the head past it
leaves the rest of the queue, whatever is written into the vacated cell. -/
theorem contents_pop (buffer : Fin n → α) (head : Nat) {len : Nat} (bound : len < n) (x : α) :
    contents buffer head (len + 1) = buffer (cell n head) ::
      contents (Function.update buffer (cell n head) x) ((head + 1) % n) len := by
  unfold contents
  rw [List.range_succ_eq_map, List.map_cons, List.map_map]
  congr 1
  apply List.map_congr_left
  intro k hk
  have below : k < len := List.mem_range.mp hk
  have shifted : cell n ((head + 1) % n + k) = cell n (head + (k + 1)) := by
    apply Fin.ext
    simp only [cell, Fin.ofNat, Nat.mod_add_mod]
    congr 1
    omega
  have apart : cell n (head + (k + 1)) ≠ cell n head := by
    have same : cell n (head + (k + 1)) = cell n (head + 0) ↔ k + 1 = 0 :=
      cell_add_inj (by omega) (by omega)
    rw [Nat.add_zero] at same
    exact fun eq => absurd (same.mp eq) (Nat.succ_ne_zero k)
  simp only [Function.comp_apply, shifted, Function.update_apply, if_neg apart, Nat.succ_eq_add_one]

/-- An in-place edit that applies `f` to every queued cell maps the queue. -/
theorem contents_map {buffer : Fin n → α} {buffer' : Fin n → β} {head len : Nat} {f : α → β}
    (edit : ∀ k < len, buffer' (cell n (head + k)) = f (buffer (cell n (head + k)))) :
    contents buffer' head len = (contents buffer head len).map f := by
  unfold contents
  rw [List.map_map]
  exact List.map_congr_left fun k hk => edit k (List.mem_range.mp hk)

/-- The loop that closes a gap: position `offset` and the `count - 1` after it
each take the element of the next position. -/
def shiftDown (buffer : Fin n → α) (head offset count : Nat) : Fin n → α :=
  (List.range' offset count).foldl
    (fun b k => Function.update b (cell n (head + k)) (b (cell n (head + k + 1)))) buffer

/-- The last round moves the last of the elements. -/
theorem shiftDown_succ (buffer : Fin n → α) (head offset count : Nat) :
    shiftDown buffer head offset (count + 1) =
      Function.update (shiftDown buffer head offset count) (cell n (head + (offset + count)))
        (shiftDown buffer head offset count (cell n (head + (offset + count) + 1))) := by
  unfold shiftDown
  rw [List.range'_concat, List.foldl_append, Nat.one_mul]
  rfl

/-- What stands in a cell after the shift. -/
theorem shiftDown_cell (buffer : Fin n → α) (head offset : Nat) {count k : Nat}
    (bound : offset + count < n) (hk : k < n) :
    shiftDown buffer head offset count (cell n (head + k)) =
      if offset ≤ k ∧ k < offset + count then buffer (cell n (head + (k + 1)))
      else buffer (cell n (head + k)) := by
  induction count generalizing k with
  | zero =>
      rw [if_neg (by omega)]
      rfl
  | succ count ih =>
      have apart : cell n (head + k) = cell n (head + (offset + count)) ↔ k = offset + count :=
        cell_add_inj hk (by omega)
      rw [shiftDown_succ, Function.update_apply]
      by_cases last : k = offset + count
      · -- the source of the last move has not been written yet
        have untouched := ih (k := k + 1) (by omega) (by omega)
        rw [if_neg (by omega)] at untouched
        rw [if_pos (apart.mpr last), if_pos (by omega), ← last, Nat.add_assoc, untouched]
      · rw [if_neg (fun same => last (apart.mp same)), ih (by omega) hk]
        by_cases moved : offset ≤ k ∧ k < offset + count
        · rw [if_pos moved, if_pos (by omega)]
        · rw [if_neg moved, if_neg (by omega)]

/-- Closing the gap at `offset` and clearing the last cell removes the element
at that position. -/
theorem contents_remove (buffer : Fin n → α) (head : Nat) {len offset : Nat} (bound : len < n)
    (inside : offset ≤ len) (x : α) :
    contents (Function.update (shiftDown buffer head offset (len - offset))
      (cell n (head + len)) x) head len = (contents buffer head (len + 1)).eraseIdx offset := by
  apply List.ext_getElem
  · rw [length_contents, List.length_eraseIdx_of_lt (by rw [length_contents]; omega),
      length_contents, Nat.add_sub_cancel]
  · intro k hk hk'
    rw [length_contents] at hk
    rw [List.getElem_eraseIdx]
    simp only [contents, List.getElem_map, List.getElem_range]
    have apart : cell n (head + k) ≠ cell n (head + len) := fun same =>
      hk.ne ((cell_add_inj (hk.trans bound) bound).mp same)
    rw [Function.update_of_ne apart, shiftDown_cell _ _ _ (by omega) (by omega)]
    by_cases before : k < offset
    · rw [if_neg (by omega), dif_pos before]
    · rw [if_pos (by omega), dif_neg before]

/-! ### Overwriting -/

/-- The last `n` elements of `xs` lie in the cells on which their positions fall. -/
def Keeps (buffer : Fin n → α) (xs : List α) : Prop :=
  ∀ j (inside : j < xs.length), xs.length ≤ j + n → buffer (cell n j) = xs[j]

theorem Keeps.nil (buffer : Fin n → α) : Keeps buffer [] :=
  fun j inside => absurd inside (Nat.not_lt_zero j)

/-- A new element replaces the one that is too old to keep. -/
theorem Keeps.push {buffer : Fin n → α} {xs : List α} (keeps : Keeps buffer xs) (x : α) :
    Keeps (Function.update buffer (cell n xs.length) x) (xs ++ [x]) := by
  intro j inside near
  rw [List.length_append, List.length_singleton] at inside near
  by_cases last : j = xs.length
  · subst last
    simp
  · -- an older element that is still kept lies less than a turn behind
    have apart : cell n j ≠ cell n xs.length := by
      intro same
      have step : cell n (j + (xs.length - j)) = cell n (j + 0) ↔ xs.length - j = 0 :=
        cell_add_inj (by omega) (NeZero.pos n)
      rw [Nat.add_zero, Nat.add_sub_of_le (by omega)] at step
      have := step.mp same.symm
      omega
    rw [Function.update_of_ne apart, keeps j (by omega) (by omega),
      List.getElem_append_left (by omega)]

/-- The oldest element that is kept lies in the first cell until the ring is full, and
then in the cell that is written next. -/
theorem cell_oldest (len i : Nat) :
    cell n ((if len < n then 0 else (cell n len : Nat)) + i) = cell n (len - n + i) := by
  split
  · rename_i room
    rw [Nat.sub_eq_zero_of_le room.le]
  · rename_i full
    apply Fin.ext
    have turn : (len - n + n) % n = (len - n) % n := Nat.add_mod_right _ _
    rw [Nat.sub_add_cancel (Nat.not_lt.mp full)] at turn
    simp only [cell, Fin.ofNat, turn, Nat.mod_add_mod]

/-- Read from the oldest element on, the ring is the end of the list. -/
theorem Keeps.recent {buffer : Fin n → α} {xs : List α} (keeps : Keeps buffer xs) {i : Nat}
    (inside : i < min xs.length n) :
    some (buffer (cell n ((if xs.length < n then 0 else (cell n xs.length : Nat)) + i))) =
      xs[xs.length - n + i]? := by
  have position : xs.length - n + i < xs.length := by omega
  rw [cell_oldest, keeps _ position (by omega), List.getElem?_eq_getElem position]

/-- A ring into which every element of `xs` was written at the next cell, over the
oldest one: it keeps the last `n` of them, and `blank` where none was written. -/
structure Logs (buffer : Fin n → α) (blank : α) (xs : List α) : Prop where
  recent : ∀ j (inside : j < xs.length), xs.length ≤ j + n → buffer (cell n j) = xs[j]
  blank : ∀ k : Fin n, xs.length ≤ k → buffer k = blank

theorem Logs.nil (blank : α) : Logs (fun _ : Fin n => blank) blank [] where
  recent := fun j inside => absurd inside (Nat.not_lt_zero j)
  blank := fun _ _ => rfl

/-- As long as there is room, every element stays. -/
theorem Logs.push {buffer : Fin n → α} {blank : α} {xs : List α} (logs : Logs buffer blank xs)
    (x : α) : Logs (Function.update buffer (cell n xs.length) x) blank (xs ++ [x]) := by
  constructor
  · exact Keeps.push logs.recent x
  · intro k short
    rw [List.length_append, List.length_singleton] at short
    have apart : k ≠ cell n xs.length := by
      rintro rfl
      have value : (cell n xs.length : Fin n).val ≤ xs.length := Nat.mod_le _ _
      omega
    rw [Function.update_of_ne apart]
    exact logs.blank k (by omega)

/-- What the ring holds, the blanks apart, are the last `n` elements written. -/
theorem Logs.mem_iff {buffer : Fin n → α} {blank x : α} {xs : List α} (logs : Logs buffer blank xs)
    (proper : x ≠ blank) : (∃ k, buffer k = x) ↔ x ∈ xs.drop (xs.length - n) := by
  rw [List.mem_drop_iff_getElem]
  constructor
  · rintro ⟨k, rfl⟩
    have written : k.val < xs.length := by
      by_contra untouched
      exact proper (logs.blank k (Nat.not_lt.mp untouched))
    -- the latest position that fell on the cell
    let turns := (xs.length - 1 - k) / n
    have bounds := Nat.div_add_mod (xs.length - 1 - k) n
    have below := Nat.mod_lt (xs.length - 1 - k) (NeZero.pos n)
    have here : cell n (k + n * turns) = k := by
      apply Fin.ext
      simp only [cell, Fin.ofNat, Nat.add_mul_mod_self_left]
      exact Nat.mod_eq_of_lt k.isLt
    have inside : k + n * turns < xs.length := by
      change n * turns + _ = _ at bounds
      omega
    have near : xs.length ≤ k + n * turns + n := by
      change n * turns + _ = _ at bounds
      omega
    refine ⟨k + n * turns - (xs.length - n), by omega, ?_⟩
    have kept := logs.recent (k + n * turns) inside near
    rw [here] at kept
    rw [kept]
    congr 1
    omega
  · rintro ⟨j, inside, rfl⟩
    exact ⟨_, logs.recent (xs.length - n + j) (by omega) (by omega)⟩

end Lib.RingBuffer
