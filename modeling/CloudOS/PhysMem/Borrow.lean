import CloudOS.PhysMem.Source

/-!
Frames that are taken to be kept and frames that are taken on trial.

A caller that gives back what it took on trial is never refused, as long as it took
fewer frames on trial than there is room for freed ones: a frame leaves the room that
it is put back into.
-/

namespace CloudOS.PhysMem.FrameSource

variable {source : FrameSource} {before s s' : source.State} {kept trial taken : List Nat}
  {frame : Nat}

/-- Since the state `before`, some frames were taken to be kept and others on trial. -/
structure Borrowed (source : FrameSource) (before s : source.State) (kept trial : List Nat) :
    Prop where
  outstanding : ∀ x, source.Outstanding s x ↔
    source.Outstanding before x ∨ x ∈ kept ∨ x ∈ trial
  nodup : (kept ++ trial).Nodup
  fresh : ∀ x, x ∈ kept ∨ x ∈ trial → source.Usable x ∧ ¬ source.Outstanding before x
  room : source.recycled s + trial.length ≤ maxRecycledFrames

theorem Borrowed.refl (s : source.State) : Borrowed source s s [] [] where
  outstanding := fun x => by simp
  nodup := List.nodup_nil
  fresh := fun x either => by simp at either
  room := source.bounded s

namespace Borrowed

variable (borrowed : Borrowed source before s kept trial)

include borrowed

/-- A frame that is issued now is new, in whichever of the two lists it goes. -/
theorem take {kept' trial' : List Nat} (allocates : source.allocateFrame s = (some frame, s'))
    (perm : (kept' ++ trial').Perm (frame :: (kept ++ trial)))
    (room : source.recycled s' + trial'.length ≤ maxRecycledFrames) :
    Borrowed source before s' kept' trial' := by
  obtain ⟨usable, -, isFresh, outstanding⟩ := source.issues allocates
  rw [borrowed.outstanding] at isFresh
  have members : ∀ x, x ∈ kept' ∨ x ∈ trial' ↔ x = frame ∨ x ∈ kept ∨ x ∈ trial := by
    intro x
    rw [← List.mem_append, perm.mem_iff, List.mem_cons, List.mem_append]
  refine ⟨fun x => ?_, ?_, ?_, room⟩
  · rw [outstanding, borrowed.outstanding, members]
    exact or_left_comm
  · refine perm.nodup_iff.mpr (List.nodup_cons.mpr ⟨fun mem => ?_, borrowed.nodup⟩)
    exact isFresh (.inr (List.mem_append.mp mem))
  · intro x either
    rcases (members x).mp either with rfl | old
    · exact ⟨usable, fun old => isFresh (.inl old)⟩
    · exact borrowed.fresh x old

/-- A frame that will be kept. -/
theorem keep (allocates : source.allocateFrame s = (some frame, s')) :
    Borrowed source before s' (kept ++ [frame]) trial := by
  have drawn := source.draws allocates
  have room := borrowed.room
  refine borrowed.take allocates ?_ (by omega)
  rw [List.append_assoc]
  exact List.perm_middle

/-- A frame that will be given back, as long as there is room for it. -/
theorem borrow (allocates : source.allocateFrame s = (some frame, s'))
    (few : trial.length < maxRecycledFrames) :
    Borrowed source before s' kept (trial ++ [frame]) := by
  have drawn := source.draws allocates
  have room := borrowed.room
  refine borrowed.take allocates ?_ ?_
  · rw [← List.append_assoc]
    exact List.perm_append_singleton _ _
  · rw [List.length_append, List.length_singleton]
    omega

theorem miss (exhausted : source.allocateFrame s = (none, s')) :
    Borrowed source before s' kept trial := by
  have drawn := source.draws exhausted
  have room := borrowed.room
  refine ⟨fun x => ?_, borrowed.nodup, borrowed.fresh, by omega⟩
  rw [source.exhausts exhausted, borrowed.outstanding]

/-- A frame that is refused at once leaves no trace. -/
theorem reject (allocates : source.allocateFrame s = (some frame, s'))
    (few : trial.length < maxRecycledFrames) :
    Borrowed source before (source.freeFrame s' frame).2 kept trial := by
  obtain ⟨outstanding, recycled⟩ := Draws.rejected allocates
  have room := borrowed.room
  refine ⟨fun x => ?_, borrowed.nodup, borrowed.fresh, by omega⟩
  rw [outstanding, borrowed.outstanding]

/-- Tables are taken one after the other. -/
theorem draws (draws : Draws source s taken s') (few : trial.length < maxRecycledFrames) :
    Borrowed source before s' (kept ++ taken) trial := by
  induction draws generalizing kept with
  | done s =>
      rw [List.append_nil]
      exact borrowed
  | take allocates _ ih =>
      have rest := ih (borrowed.keep allocates)
      rwa [List.append_assoc, List.singleton_append] at rest
  | miss exhausted _ ih => exact ih (borrowed.miss exhausted)
  | reject allocates _ ih => exact ih (borrowed.reject allocates few)

end Borrowed

/-- The frame that was last taken on trial is accepted back. -/
theorem Borrowed.giveBack (borrowed : Borrowed source before s kept (trial ++ [frame])) :
    (source.freeFrame s frame).1 = true ∧
      Borrowed source before (source.freeFrame s frame).2 kept trial := by
  have room := borrowed.room
  rw [List.length_append, List.length_singleton] at room
  have held : source.Outstanding s frame := by
    rw [borrowed.outstanding]
    simp
  obtain ⟨accepted, recycled⟩ :=
    source.accepts (Prod.mk.eta (p := source.freeFrame s frame)).symm
  have freed : (source.freeFrame s frame).1 = true := accepted.mpr ⟨held, by omega⟩
  rw [freed, if_pos rfl] at recycled
  have nodup := borrowed.nodup
  rw [← List.append_assoc, List.nodup_append] at nodup
  have others : ∀ x, x ∈ kept ∨ x ∈ trial → x ≠ frame := by
    intro x either
    exact nodup.2.2 x (List.mem_append.mpr either) frame (List.mem_singleton_self _)
  refine ⟨freed, fun x => ?_, nodup.1, ?_, by omega⟩
  · rw [source.frees (Prod.ext freed rfl), borrowed.outstanding, List.mem_append,
      List.mem_singleton]
    constructor
    · rintro ⟨other, old | mem | mem | same⟩
      · exact .inl old
      · exact .inr (.inl mem)
      · exact .inr (.inr mem)
      · exact absurd same other
    · rintro (old | either)
      · refine ⟨?_, .inl old⟩
        rintro rfl
        exact (borrowed.fresh x (.inr (by simp))).2 old
      · exact ⟨others x either, .inr (either.imp id .inl)⟩
  · intro x either
    refine borrowed.fresh x (either.imp id fun mem => ?_)
    exact List.mem_append_left _ mem

end CloudOS.PhysMem.FrameSource
