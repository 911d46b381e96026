import CloudOS.Paging.Pages

/-!
The tables that `_start` of `src/main.rs` builds.
-/

namespace CloudOS.Paging

open Lib.Radix (node set fill Tree)
open Lib.Store (Memory)
open CloudOS.PhysMem (FrameSource)

namespace BootTables

variable (boot : BootTables)

/-- The tables are in `.bss`, which is zero when `_start` runs. -/
def loaded (m : Memory) : Memory := zeroFrame (zeroFrame (zeroFrame m boot.p4) boot.p3) boot.p2

/-- Large pages for the first gibibyte, then the entries that lead to them. -/
def start (m : Memory) : Memory :=
  let m := (List.finRange 512).foldl
    (fun m i => setEntry m boot.p2 i (i.val <<< 21 ||| 0x83)) (boot.loaded m)
  let m := setEntry m boot.p3 0 (boot.p2 ||| 0x03)
  setEntry m boot.p4 0 (boot.p3 ||| 0x03)

/-- The entries of the tables that `_start` builds. -/
structure Started (T : Nat → Fin 512 → Nat) : Prop where
  p4 : ∀ i, T boot.p4 i = if i = 0 then boot.p3 ||| 0x03 else 0
  p3 : ∀ i, T boot.p3 i = if i = 0 then boot.p2 ||| 0x03 else 0
  p2 : ∀ i : Fin 512, T boot.p2 i = i.val <<< 21 ||| 0x83

theorem isFrame_p3 : IsFrame boot.p3 := ⟨boot.aligned.2.1, boot.reachable.2.1⟩
theorem isFrame_p2 : IsFrame boot.p2 := ⟨boot.aligned.2.2, boot.reachable.2.2⟩

theorem word_of_index (i : Fin 512) : i.val <<< 21 ||| 0x83 < 2 ^ 64 := by
  refine Nat.or_lt_two_pow ?_ (by decide)
  have := i.isLt
  rw [Nat.shiftLeft_eq]
  omega

theorem tables_foldl (l : List (Fin 512)) (m : Memory) (frame : Nat) (j : Fin 512) :
    tables (l.foldl (fun m i => setEntry m boot.p2 i (i.val <<< 21 ||| 0x83)) m) frame j =
      if frame = boot.p2 ∧ j ∈ l then j.val <<< 21 ||| 0x83 else tables m frame j := by
  induction l generalizing m with
  | nil => simp
  | cons i l ih =>
      rw [List.foldl_cons, ih, tables_store boot.isFrame_p2.aligned (word_of_index i)]
      by_cases later : frame = boot.p2 ∧ j ∈ l
      · rw [if_pos later, if_pos ⟨later.1, List.mem_cons_of_mem i later.2⟩]
      · rw [if_neg later]
        by_cases here : frame = boot.p2 ∧ j = i
        · obtain ⟨rfl, rfl⟩ := here
          rw [Lib.Radix.set_self, if_pos ⟨rfl, List.mem_cons_self⟩]
        · rw [Lib.Radix.set_of_ne here, if_neg]
          rintro ⟨isP2, mem⟩
          rcases List.mem_cons.mp mem with rfl | mem
          · exact here ⟨isP2, rfl⟩
          · exact later ⟨isP2, mem⟩

/-- The tables that the boot code leaves behind. -/
theorem start_started (m : Memory) : boot.Started (tables (boot.start m)) := by
  obtain ⟨ne43, ne42, ne32⟩ := boot.distinct
  have word3 : boot.p2 ||| 0x03 < 2 ^ 64 := Nat.or_lt_two_pow boot.isFrame_p2.lt_word (by decide)
  have word4 : boot.p3 ||| 0x03 < 2 ^ 64 := Nat.or_lt_two_pow boot.isFrame_p3.lt_word (by decide)
  have stored : tables (boot.start m) = _ := tables_store boot.isFrame.aligned word4
  have stored3 : ∀ m, tables (setEntry m boot.p3 0 (boot.p2 ||| 0x03)) = _ :=
    fun m => tables_store boot.isFrame_p3.aligned word3
  have cleared : tables (boot.loaded m) =
      fill (fill (fill (tables m) boot.p4 0) boot.p3 0) boot.p2 0 := by
    rw [loaded, tables_clear boot.isFrame_p2.aligned, tables_clear boot.isFrame_p3.aligned,
      tables_clear boot.isFrame.aligned]
  rw [stored3] at stored
  refine ⟨?_, ?_, ?_⟩
  · intro i
    rw [stored]
    by_cases zero : i = 0
    · rw [zero, Lib.Radix.set_self, if_pos rfl]
    · rw [Lib.Radix.set_of_ne fun same => zero same.2, Lib.Radix.set_of_ne fun same => ne43 same.1,
        boot.tables_foldl, if_neg fun same => ne42 same.1, cleared, Lib.Radix.fill_of_ne ne42,
        Lib.Radix.fill_of_ne ne43, Lib.Radix.fill_self, if_neg zero]
  · intro i
    rw [stored, Lib.Radix.set_of_ne fun same => ne43 same.1.symm]
    by_cases zero : i = 0
    · rw [zero, Lib.Radix.set_self, if_pos rfl]
    · rw [Lib.Radix.set_of_ne fun same => zero same.2, boot.tables_foldl,
        if_neg fun same => ne32 same.1, cleared, Lib.Radix.fill_of_ne ne32, Lib.Radix.fill_self,
        if_neg zero]
  · intro i
    rw [stored, Lib.Radix.set_of_ne fun same => ne42 same.1.symm,
      Lib.Radix.set_of_ne fun same => ne32 same.1.symm, boot.tables_foldl,
      if_pos ⟨rfl, List.mem_finRange i⟩]

variable {boot} {T : Nat → Fin 512 → Nat}

namespace Started

variable (started : boot.Started T)

/-- An entry of the boot code leads to its frame. -/
theorem child_or {frame : Nat} (isFrame : IsFrame frame) : child (frame ||| 0x03) = some frame := by
  rw [child_of_present, isFrame.tableFromEntry_or (by decide)]
  · rw [entryPresent_or, isFrame.entryPresent]
    rfl
  · rw [entryHuge_or, isFrame.entryHuge]
    rfl

theorem covers_or {below : Nat} (frame : Nat) (noUser : entryUser below = false) :
    Covers (frame ||| 0x03) below := by
  refine ⟨fun _ => ?_, fun user => ?_⟩
  · rw [entryWritable_or]
    exact Bool.or_true _
  · rw [noUser] at user
    cases user

include started

/-- The root has one entry. -/
theorem child_p4 (i : Fin 512) : child (T boot.p4 i) = if i = 0 then some boot.p3 else none := by
  rw [started.p4]
  split
  · exact child_or boot.isFrame_p3
  · rfl

theorem child_p3 (i : Fin 512) : child (T boot.p3 i) = if i = 0 then some boot.p2 else none := by
  rw [started.p3]
  split
  · exact child_or boot.isFrame_p2
  · rfl

/-- The identity map consists of large pages, so the third level leads nowhere. -/
theorem child_p2 (i : Fin 512) : child (T boot.p2 i) = none := by
  apply child_of_huge
  rw [started.p2, entryHuge_or]
  exact Bool.or_true _

/-- The three tables are all there is. -/
theorem node_cases {path : List (Fin 512)} {frame : Nat}
    (reaches : node child T boot.p4 path = some frame) :
    path = [] ∧ frame = boot.p4 ∨ path = [0] ∧ frame = boot.p3 ∨ path = [0, 0] ∧ frame = boot.p2 := by
  cases path with
  | nil => exact .inl ⟨rfl, (Option.some.inj reaches).symm⟩
  | cons i4 path =>
      rw [Lib.Radix.node, started.child_p4] at reaches
      split at reaches
      · rename_i zero4
        subst zero4
        rw [Option.bind_some] at reaches
        cases path with
        | nil => exact .inr (.inl ⟨rfl, (Option.some.inj reaches).symm⟩)
        | cons i3 path =>
            rw [Lib.Radix.node, started.child_p3] at reaches
            split at reaches
            · rename_i zero3
              subst zero3
              rw [Option.bind_some] at reaches
              cases path with
              | nil => exact .inr (.inr ⟨rfl, (Option.some.inj reaches).symm⟩)
              | cons i2 path =>
                  rw [Lib.Radix.node, started.child_p2] at reaches
                  cases reaches
            · cases reaches
      · cases reaches

/-- Three tables on one path: upper entries are no obstacle. -/
theorem sheltered : Sheltered T boot.p4 := by
  obtain ⟨ne43, ne42, ne32⟩ := boot.distinct
  refine ⟨?_, ?_, ?_, ?_⟩
  · intro p q f _ _ reachesP reachesQ
    rcases started.node_cases reachesP with ⟨rfl, rfl⟩ | ⟨rfl, rfl⟩ | ⟨rfl, rfl⟩ <;>
    rcases started.node_cases reachesQ with ⟨rfl, isF⟩ | ⟨rfl, isF⟩ | ⟨rfl, isF⟩
    all_goals first | rfl | exact absurd isF ‹_› | exact absurd isF.symm ‹_›
  · intro p f i short reaches present
    rcases started.node_cases reaches with ⟨rfl, rfl⟩ | ⟨rfl, rfl⟩ | ⟨rfl, rfl⟩
    · rw [started.p4] at present ⊢
      split
      · rw [entryHuge_or, boot.isFrame_p3.entryHuge]
        rfl
      · rfl
    · rw [started.p3] at present ⊢
      split
      · rw [entryHuge_or, boot.isFrame_p2.entryHuge]
        rfl
      · rfl
    · simp at short
  · intro p f i short reaches present small
    rcases started.node_cases reaches with ⟨rfl, rfl⟩ | ⟨rfl, rfl⟩ | ⟨rfl, rfl⟩
    · rw [started.child_p4]
      rw [started.p4] at present ⊢
      split at present
      · rename_i zero
        rw [if_pos zero, if_pos zero, entryNoExecute_or, boot.isFrame_p3.entryNoExecute]
        exact ⟨rfl, rfl⟩
      · cases present
    · rw [started.child_p3]
      rw [started.p3] at present ⊢
      split at present
      · rename_i zero
        rw [if_pos zero, if_pos zero, entryNoExecute_or, boot.isFrame_p2.entryNoExecute]
        exact ⟨rfl, rfl⟩
      · cases present
    · rw [started.p2, entryHuge_or] at small
      rw [show entryHuge 0x83 = true from rfl, Bool.or_true] at small
      cases small
  · intro p f next i j short reaches leads present
    rcases started.node_cases reaches with ⟨rfl, rfl⟩ | ⟨rfl, rfl⟩ | ⟨rfl, rfl⟩
    · rw [started.child_p4] at leads
      split at leads
      · rename_i zero
        obtain rfl := Option.some.inj leads
        rw [started.p3] at present ⊢
        split at present
        · rename_i zero'
          rw [started.p4, if_pos zero, if_pos zero']
          refine covers_or _ ?_
          rw [entryUser_or, boot.isFrame_p2.entryUser]
          rfl
        · cases present
      · cases leads
    · rw [started.child_p3] at leads
      split at leads
      · rename_i zero
        obtain rfl := Option.some.inj leads
        rw [started.p3, started.p2, if_pos zero]
        refine covers_or _ ?_
        rw [entryUser_or, entryUser_eq, Nat.testBit_shiftLeft]
        rfl
      · cases leads
    · rw [started.child_p2] at leads
      cases leads

end Started

/-! ### The first state -/

variable (boot) in
/-- The allocator keeps off the frames of the boot tables, which are part of the
kernel image. -/
def Reserved (source : FrameSource) : Prop :=
  ∀ frame, source.Usable frame → frame ≠ boot.p4 ∧ frame ≠ boot.p3 ∧ frame ≠ boot.p2

variable {source : FrameSource}

variable (boot) in
/-- `_start` builds the tables. -/
def enter (s : Machine source) : Machine source := { s with memory := boot.start s.memory }

/-- The boot tree is sound when the paging code takes over. -/
theorem enter_sound (reserved : boot.Reserved source) (s : Machine source) :
    boot.Sound (boot.enter s) := by
  have started := boot.start_started s.memory
  refine ⟨started.sheltered, ?_⟩
  rintro frame ⟨path, -, reaches⟩ usable
  obtain ⟨ne4, ne3, ne2⟩ := reserved frame usable
  rcases started.node_cases reaches with ⟨-, isP4⟩ | ⟨-, isP3⟩ | ⟨-, isP2⟩
  · exact absurd isP4 ne4
  · exact absurd isP3 ne3
  · exact absurd isP2 ne2

/-- Nothing outside the identity map is mapped. -/
theorem enter_leaf (s : Machine source) {virt : Nat} (outside : p4Index virt ≠ 0) :
    leaf (tables (boot.enter s).memory) boot.p4 virt = none := by
  have started := boot.start_started s.memory
  have vacant : child (tables (boot.enter s).memory boot.p4 (p4Index virt)) = none := by
    refine (started.child_p4 _).trans (if_neg outside)
  rw [leaf, Lib.Radix.node, vacant]
  rfl

end BootTables

end CloudOS.Paging
