import Mathlib

/-!
Rosters: a table with a fixed number of slots that lists some items.

Every item has a slot of its own, found by its key, and every used slot has an item.
As long as the items fit, an item that is put in or taken out of the table is one put
on or taken off the list.
-/

namespace Lib.Roster

variable {α κ : Type*} {n : Nat} {key : α → κ} {table : Fin n → Option α} {items : List α}
  {item : α} {i : Fin n}

/-- The table lists the items, which have different keys. -/
structure Lists (key : α → κ) (table : Fin n → Option α) (items : List α) : Prop where
  placed : ∀ item ∈ items, ∃ i, table i = some item
  used : ∀ i item, table i = some item → item ∈ items
  once : ∀ i j item, table i = some item → table j = some item → i = j
  distinct : (items.map key).Nodup

theorem lists_empty : Lists key (fun _ : Fin n => none) [] where
  placed := fun _ mem => absurd mem List.not_mem_nil
  used := fun _ _ isSome => by cases isSome
  once := fun _ _ _ isSome => by cases isSome
  distinct := List.nodup_nil

namespace Lists

variable (lists : Lists key table items)

include lists

/-- The key determines the item. -/
theorem eq_of_key {other : α} (mem : item ∈ items) (mem' : other ∈ items)
    (same : key item = key other) : item = other :=
  List.inj_on_of_nodup_map lists.distinct mem mem' same

/-- A table that is not full has an empty slot. -/
theorem vacancy (room : items.length < n) : ∃ i, table i = none := by
  by_contra full
  push Not at full
  choose item isItem using fun i => Option.ne_none_iff_exists'.mp (full i)
  have inj : Function.Injective item := by
    intro i j same
    exact lists.once i j (item i) (isItem i) (same ▸ isItem j)
  have sub : List.ofFn item ⊆ items := by
    intro x mem
    obtain ⟨i, rfl⟩ := List.mem_ofFn.mp mem
    exact lists.used i _ (isItem i)
  have counted := ((List.nodup_ofFn.mpr inj).subperm sub).length_le
  rw [List.length_ofFn] at counted
  omega

/-- An item with a new key goes into an empty slot. -/
theorem put (empty : table i = none) (isNew : key item ∉ items.map key) :
    Lists key (Function.update table i (some item)) (item :: items) := by
  have other : ∀ x ∈ items, x ≠ item := by
    rintro x mem rfl
    exact isNew (List.mem_map_of_mem mem)
  refine ⟨?_, ?_, ?_, List.nodup_cons.mpr ⟨isNew, lists.distinct⟩⟩
  · intro x mem
    rcases List.mem_cons.mp mem with rfl | mem
    · exact ⟨i, Function.update_self _ _ _⟩
    · obtain ⟨j, isItem⟩ := lists.placed x mem
      refine ⟨j, (Function.update_of_ne ?_ _ _).trans isItem⟩
      rintro rfl
      rw [empty] at isItem
      cases isItem
  · intro j x isItem
    by_cases here : j = i
    · subst here
      rw [Function.update_self] at isItem
      obtain rfl := Option.some.inj isItem
      exact List.mem_cons_self
    · rw [Function.update_of_ne here] at isItem
      exact List.mem_cons_of_mem _ (lists.used j x isItem)
  · intro j k x isItem isItem'
    by_cases here : j = i
    · by_cases here' : k = i
      · exact here.trans here'.symm
      · subst here
        rw [Function.update_self] at isItem
        rw [Function.update_of_ne here'] at isItem'
        obtain rfl := Option.some.inj isItem
        exact absurd rfl (other _ (lists.used k _ isItem'))
    · rw [Function.update_of_ne here] at isItem
      by_cases here' : k = i
      · subst here'
        rw [Function.update_self] at isItem'
        obtain rfl := Option.some.inj isItem'
        exact absurd rfl (other _ (lists.used j _ isItem))
      · rw [Function.update_of_ne here'] at isItem'
        exact lists.once j k x isItem isItem'

/-- An item is dropped under its key. -/
theorem drop [DecidableEq κ] (isItem : table i = some item) :
    Lists key (Function.update table i none) (items.filter fun x => key x ≠ key item) := by
  have mem := lists.used i item isItem
  refine ⟨?_, ?_, ?_, ?_⟩
  · intro x memX
    rw [List.mem_filter, decide_eq_true_iff] at memX
    obtain ⟨j, isX⟩ := lists.placed x memX.1
    refine ⟨j, (Function.update_of_ne ?_ _ _).trans isX⟩
    rintro rfl
    rw [isItem] at isX
    exact memX.2 (congrArg key (Option.some.inj isX).symm)
  · intro j x isX
    by_cases here : j = i
    · subst here
      rw [Function.update_self] at isX
      cases isX
    · rw [Function.update_of_ne here] at isX
      have memX := lists.used j x isX
      rw [List.mem_filter, decide_eq_true_iff]
      refine ⟨memX, fun same => here ?_⟩
      obtain rfl := lists.eq_of_key memX mem same
      exact lists.once j i x isX isItem
  · intro j k x isX isX'
    by_cases here : j = i
    · subst here
      rw [Function.update_self] at isX
      cases isX
    · by_cases here' : k = i
      · subst here'
        rw [Function.update_self] at isX'
        cases isX'
      · rw [Function.update_of_ne here] at isX
        rw [Function.update_of_ne here'] at isX'
        exact lists.once j k x isX isX'
  · exact lists.distinct.sublist (List.filter_sublist.map key)

end Lists

end Lib.Roster
