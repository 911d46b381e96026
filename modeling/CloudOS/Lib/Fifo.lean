import Mathlib

/-!
First in, first out.

A queue is a list, oldest element first. An element may be pushed at the end,
popped from the front, or deleted from wherever it is. Under any mixture of the
three, an element is overtaken by nobody: the one at position `k` is popped by
the `k + 1`-th pop at the latest, unless it is deleted first.
-/

namespace Lib.Fifo

variable {α : Type*} [DecidableEq α]

inductive Event (α : Type*) where
  | push (x : α)
  | pop (x : α)
  | delete (x : α)

/-- `Run q events q'`: the events lead from the queue `q` to the queue `q'`. -/
inductive Run : List α → List (Event α) → List α → Prop where
  | done {q : List α} : Run q [] q
  | push {q q' : List α} {x : α} {events : List (Event α)} :
      Run (q ++ [x]) events q' → Run q (.push x :: events) q'
  | pop {q q' : List α} {x : α} {events : List (Event α)} :
      Run q events q' → Run (x :: q) (.pop x :: events) q'
  | delete {q q' : List α} {x : α} {events : List (Event α)} :
      Run (q.erase x) events q' → Run q (.delete x :: events) q'

/-- Runs follow one another. -/
theorem Run.append {q q' q'' : List α} {events events' : List (Event α)} (run : Run q events q')
    (run' : Run q' events' q'') : Run q (events ++ events') q'' := by
  induction run with
  | done => exact run'
  | push _ ih => exact .push (ih run')
  | pop _ ih => exact .pop (ih run')
  | delete _ ih => exact .delete (ih run')

/-- Deleting everything empties the queue. -/
theorem Run.clear (q : List α) : Run q (q.map Event.delete) [] := by
  induction q with
  | nil => exact .done
  | cons x q ih =>
      refine .delete ?_
      rw [List.erase_cons_head]
      exact ih

/-- The popped elements, in order. -/
def popped : List (Event α) → List α
  | [] => []
  | .pop x :: events => x :: popped events
  | .push _ :: events => popped events
  | .delete _ :: events => popped events

omit [DecidableEq α] in
theorem popped_append (events events' : List (Event α)) :
    popped (events ++ events') = popped events ++ popped events' := by
  induction events with
  | nil => rfl
  | cons event events ih =>
      cases event with
      | push => exact ih
      | pop => exact congrArg (_ :: ·) ih
      | delete => exact ih

omit [DecidableEq α] in
theorem popped_map_delete (q : List α) : popped (q.map Event.delete) = [] := by
  induction q with
  | nil => rfl
  | cons x q ih => exact ih

/-- Deleting another element moves an element up by one place at most. -/
theorem getElem?_erase {q : List α} {x y : α} {k : Nat} (here : q[k]? = some x) (other : y ≠ x) :
    ∃ j ≤ k, (q.erase y)[j]? = some x := by
  rw [List.erase_eq_eraseIdx]
  cases found : q.idxOf? y with
  | none => exact ⟨k, le_rfl, here⟩
  | some i =>
      dsimp only
      have different : i ≠ k := by
        rintro rfl
        obtain ⟨inside, isY, -⟩ := List.idxOf?_eq_some_iff.mp found
        rw [List.getElem?_eq_getElem inside, isY] at here
        exact other (Option.some.inj here)
      rcases lt_or_gt_of_ne different with before | after
      · refine ⟨k - 1, Nat.sub_le _ _, ?_⟩
        rw [List.getElem?_eraseIdx_of_ge (by omega), Nat.sub_add_cancel (by omega)]
        exact here
      · exact ⟨k, le_rfl, by rw [List.getElem?_eraseIdx_of_lt after]; exact here⟩

/-- The element at position `k` is popped by the `k + 1`-th pop at the latest. -/
theorem Run.popped_of_getElem? {q q' : List α} {events : List (Event α)} (run : Run q events q')
    {x : α} {k : Nat} (here : q[k]? = some x) (kept : Event.delete x ∉ events)
    (enough : k < (popped events).length) : ∃ j ≤ k, (popped events)[j]? = some x := by
  induction run generalizing k with
  | done => exact absurd enough (Nat.not_lt_zero k)
  | push _ ih =>
      refine ih ?_ (fun mem => kept (List.mem_cons_of_mem _ mem)) enough
      rw [List.getElem?_append_left (List.getElem?_eq_some_iff.mp here).1]
      exact here
  | pop _ ih =>
      cases k with
      | zero => exact ⟨0, le_rfl, here⟩
      | succ k =>
          obtain ⟨j, le, at_⟩ := ih here (fun mem => kept (List.mem_cons_of_mem _ mem))
            (Nat.lt_of_succ_lt_succ enough)
          exact ⟨j + 1, Nat.succ_le_succ le, at_⟩
  | @delete _ _ y _ _ ih =>
      have other : y ≠ x := by
        rintro rfl
        exact kept List.mem_cons_self
      obtain ⟨i, le, here'⟩ := getElem?_erase here other
      obtain ⟨j, le', at_⟩ := ih here' (fun mem => kept (List.mem_cons_of_mem _ mem))
        (Nat.lt_of_le_of_lt le enough)
      exact ⟨j, le'.trans le, at_⟩

end Lib.Fifo
