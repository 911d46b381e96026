import CloudOS.Paging.Release
import CloudOS.Paging.UserRegion

/-!
Spaces that are made on their own and then join the others.

Such a space is in frames that nobody had. So it disturbs none of the spaces in use, and
once it is one of them they are all closed as before.
-/

namespace CloudOS.Paging

open Lib.Store (Memory)
open CloudOS.PhysMem (FrameSource)

variable {source : FrameSource} {boot : BootTables} {s s' s'' : Machine source}
  {space : AddressSpace} {w w' : World source}

/-- A space that was made since `s`, with copies of the boot tables on top. -/
structure Made (boot : BootTables) (s : Machine source) (space : AddressSpace)
    (s' : Machine source) : Prop where
  apart : Apart s s'
  active : space.active = true
  positive : space.rootFrame ≠ 0
  fresh : ∀ frame ∈ space.frames, ¬ s.Held frame
  draws : ∃ taken, source.Draws s.frames taken s'.frames ∧ space.frames.Perm taken
  owns : ∃ lowP3 userP2 p1s, Owns s' space lowP3 userP2 p1s ∧
    (∀ i, i ≠ 0 → tables s'.memory space.rootFrame i = tables s.memory boot.p4 i) ∧
    ∀ j, j ≠ 1 → tables s'.memory lowP3 j = tables s.memory boot.p3 j

namespace Made

theorem usable (made : Made boot s space s') : ∀ frame ∈ space.frames, source.Usable frame := by
  obtain ⟨taken, draws, perm⟩ := made.draws
  exact fun frame mem => draws_usable draws frame (perm.mem_iff.mp mem)

/-- Bytes of its pages may be stored before it joins. -/
theorem write (made : Made boot s space s') {memory : Memory}
    (only : ∀ a, memory a ≠ s'.memory a →
      ∃ page ∈ space.pages, page.frame ≤ a ∧ a < page.frame + pageSize4k) :
    Made boot s space { s' with memory } := by
  obtain ⟨lowP3, userP2, p1s, owns, root, low⟩ := made.owns
  have laid := owns.laid
  -- a frame that is no page of the space is not touched
  have untouched : ∀ frame, frame % pageSize4k = 0 → (∀ page ∈ space.pages, page.frame ≠ frame) →
      ∀ a, frame ≤ a → a < frame + pageSize4k → memory a = s'.memory a := by
    intro frame aligned other a from_ below
    by_contra changed
    obtain ⟨page, mem, from', below'⟩ := only a changed
    have isFrame := laid.isFrame _ (Laid.mem_frames_of_page mem)
    have apart := apart_of_ne isFrame.aligned aligned (other page mem) from' below'
    omega
  have same : ∀ frame ∈ space.tableFrames, ∀ i, tables memory frame i = tables s'.memory frame i := by
    intro frame mem
    refine tables_congr (untouched frame (laid.isTable mem).aligned fun page memP isFrame => ?_)
    exact (List.nodup_append.mp laid.nodup).2.2 frame mem page.frame (List.mem_map_of_mem memP)
      isFrame.symm
  refine ⟨⟨fun x held _ => made.apart.held held, ?_, made.apart.initialized⟩, made.active, made.positive, made.fresh,
    made.draws, lowP3, userP2, p1s, ⟨laid.congr same, owns.held⟩, fun i other => ?_,
    fun j other => ?_⟩
  · intro frame a aligned held other from_ below
    dsimp only
    rw [untouched frame aligned (fun page mem isFrame => made.fresh _
      (Laid.mem_frames_of_page mem) (isFrame ▸ held)) a from_ below]
    exact made.apart.untouched frame a aligned held other from_ below
  · exact (same _ laid.root_mem i).trans (root i other)
  · exact (same _ laid.lowP3_mem j).trans (low j other)

/-- A new space is laid out and secluded like those in use. -/
theorem housed (made : Made boot s space s')
    (secluded : Secluded (tables s.memory) boot.p4 boot.p3) :
    ∃ lowP3 userP2 p1s, Housed s' space lowP3 userP2 p1s := by
  obtain ⟨lowP3, userP2, p1s, owns, root, low⟩ := made.owns
  refine ⟨lowP3, userP2, p1s, made.active, made.positive, owns, fun i other => ?_,
    fun j other => ?_⟩
  · rw [root i other]
    exact secluded.root i other
  · rw [low j other]
    exact secluded.low j other

end Made

namespace World

/-- Frames outside `own` are still held and not touched. In `w'` some spaces of `w` are
in use still, and perhaps one that was made since. -/
theorem Closed.changes (closed : Closed boot w) {own : Nat → Prop}
    (confined : Confined own w.machine w'.machine)
    (offBoot : ∀ frame, boot.Has w.machine frame → ¬ own frame) {n : Nat}
    (spaces : ∀ k space, w'.Active k space →
      (w.Active k space ∧ ∀ frame ∈ space.frames, ¬ own frame) ∨
        k = n ∧ Made boot w.machine space w'.machine) :
    Closed boot w' := by
  have coherent := closed.coherent
  obtain ⟨sound', sameHas, -, sameTables⟩ := coherent.sound.confined confined offBoot
  have hasLow : boot.Has w.machine boot.p3 := by
    refine ⟨[0], by simp, ?_⟩
    rw [Lib.Radix.node, coherent.low]
    rfl
  have sameRoot := sameTables boot.p4 (BootTables.has_root _)
  have sameLow := sameTables boot.p3 hasLow
  refine ⟨⟨sound', ?_, fun k space active => ?_, fun k space active frame mem => ?_,
    fun i j A B ne activeA activeB frame mem mem' => ?_⟩, closed.upper.congr sameRoot sameLow,
    closed.boot.congr sameRoot sameLow, fun k space active => ?_⟩
  · rw [sameRoot]
    exact coherent.low
  · rcases spaces k space active with ⟨old, off⟩ | ⟨-, made⟩
    · exact coherent.others confined old off
    · obtain ⟨lowP3, userP2, p1s, owns, -⟩ := made.owns
      exact ⟨made.positive, lowP3, userP2, p1s, owns⟩
  · rw [sameHas]
    rcases spaces k space active with ⟨old, off⟩ | ⟨-, made⟩
    · exact coherent.offBoot k space old frame mem
    · exact fun has => made.fresh frame mem (coherent.sound.held frame has)
  · have held : ∀ {k space}, w.Active k space → ∀ x ∈ space.frames, w.machine.Held x := by
      intro k space old
      obtain ⟨-, lowP3, userP2, p1s, owns⟩ := coherent.owns k space old
      exact owns.held
    rcases spaces i A activeA with ⟨oldA, -⟩ | ⟨isNewA, madeA⟩
    · rcases spaces j B activeB with ⟨oldB, -⟩ | ⟨-, madeB⟩
      · exact coherent.apart i j A B ne oldA oldB frame mem mem'
      · exact madeB.fresh frame mem' (held oldA frame mem)
    · rcases spaces j B activeB with ⟨oldB, -⟩ | ⟨isNewB, -⟩
      · exact madeA.fresh frame mem (held oldB frame mem')
      · exact ne (isNewA.trans isNewB.symm)
  · rcases spaces k space active with ⟨old, off⟩ | ⟨-, made⟩
    · obtain ⟨lowP3, userP2, p1s, owns, secluded⟩ := closed.spaces k space old
      obtain ⟨⟨p1s', owns'⟩, keepsRoot, keepsLow⟩ :=
        (KeepsUpper.of_confined confined off).tables owns
      exact ⟨lowP3, userP2, p1s', owns', secluded.congr keepsRoot keepsLow⟩
    · obtain ⟨lowP3, userP2, p1s, owns, root, low⟩ := made.owns
      refine ⟨lowP3, userP2, p1s, owns, fun i other => ?_, fun j other => ?_⟩
      · rw [root i other]
        exact closed.boot.root i other
      · rw [low j other]
        exact closed.boot.low j other

/-- Bytes of the pages of a space in use may be stored at any time. -/
theorem Closed.writePages (closed : Closed boot w) {n : Nat} (active : w.Active n space)
    {memory : Memory} (only : ∀ a, memory a ≠ w.machine.memory a →
      ∃ page ∈ space.pages, page.frame ≤ a ∧ a < page.frame + pageSize4k) :
    Closed boot ⟨{ w.machine with memory }, w.spaces⟩ := by
  refine closed.write ?_
  rintro a ⟨frame, isTable, from_, below⟩
  by_contra changed
  obtain ⟨page, mem, from', below'⟩ := only a changed
  have coherent := closed.coherent
  obtain ⟨-, lowP3, userP2, p1s, owns⟩ := coherent.owns n space active
  have inFrames := Laid.mem_frames_of_page mem
  have isFrame := owns.laid.isFrame _ inFrames
  have apart : frame % pageSize4k = 0 ∧ page.frame ≠ frame := by
    rcases isTable with has | ⟨j, other, activeJ, memT⟩
    · obtain ⟨path, -, reaches⟩ := id has
      refine ⟨(BootTables.isFrame_of_node reaches).aligned, ?_⟩
      rintro rfl
      exact coherent.offBoot n space active _ inFrames has
    · obtain ⟨-, lowP3', userP2', p1s', owns'⟩ := coherent.owns j other activeJ
      refine ⟨(owns'.laid.isTable memT).aligned, ?_⟩
      rintro rfl
      by_cases same : n = j
      · subst same
        obtain rfl := Option.some.inj (active.1.symm.trans activeJ.1)
        exact (List.nodup_append.mp owns.laid.nodup).2.2 _ memT _ (List.mem_map_of_mem mem) rfl
      · exact coherent.apart n j space other same active activeJ _ inFrames
          (Laid.mem_frames_of_table memT)
  have := apart_of_ne isFrame.aligned apart.1 apart.2 from' below'
  omega

end World

end CloudOS.Paging
