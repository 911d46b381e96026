import CloudOS.Paging.UserRegion
import CloudOS.Process.System
import CloudOS.Process.UserBuffer

/-!
The copies from and to user buffers move every byte or none.

The check goes from page to page and the copies from the rest of one page to the next;
both come down to what the address space grants byte by byte.
-/

namespace CloudOS.Process

open Lib.Scatter (gather overwrite Scattered)
open Lib.Store (Memory writeBytes)
open Lib.Word (satAdd satAdd_of_le checkedAdd checkedAdd_eq_some maxWord and_not_low_mask)
open CloudOS.Paging
open CloudOS.PhysMem (SoundAllocator)

/-! ### The loop over the pages -/

section Pages

variable {space : AddressSpace} {m : Memory} {writable : Bool} {finalPage page : Nat}

theorem pageStep_refused (checked : Nat) (refused : ¬ space.Grants m writable page) :
    pageStep space m writable finalPage (page, checked) =
      .inl ⟨false, satAdd checked 1, writable⟩ := by
  have isRefused : refuses (space.translate m page) writable = true :=
    Bool.not_eq_false _ |>.mp fun granted => refused (refuses_eq_false.mp granted)
  rw [pageStep]
  rw [if_pos isRefused]

theorem pageStep_last (checked : Nat) (grants : space.Grants m writable finalPage) :
    pageStep space m writable finalPage (finalPage, checked) =
      .inl ⟨true, satAdd checked 1, writable⟩ := by
  rw [pageStep]
  rw [refuses_eq_false.mpr grants, if_neg Bool.false_ne_true, if_pos rfl]

theorem pageStep_next (checked : Nat) (grants : space.Grants m writable page)
    (before : page < finalPage) (fits : page + pageSize4k ≤ maxWord) :
    pageStep space m writable finalPage (page, checked) =
      .inr (page + pageSize4k, satAdd checked 1) := by
  have next : checkedAdd maxWord page pageSize4k = some (page + pageSize4k) :=
    checkedAdd_eq_some.mpr ⟨rfl, fits⟩
  rw [pageStep]
  rw [refuses_eq_false.mpr grants, if_neg Bool.false_ne_true, if_neg (Nat.ne_of_lt before), next]

/-- From `k` pages below the last one, the loop accepts if every page is granted. -/
theorem pageLoop_valid (word : finalPage ≤ maxWord) :
    ∀ (k page checked : Nat), page + pageSize4k * k = finalPage →
      ((Lib.Loop.value (pageStep_decreases space m writable finalPage) (page, checked)).valid = true
        ↔ ∀ j ≤ k, space.Grants m writable (page + pageSize4k * j)) := by
  intro k
  induction k with
  | zero =>
      rintro page checked rfl
      simp only [Nat.mul_zero, Nat.add_zero, Nat.le_zero, forall_eq]
      by_cases grants : space.Grants m writable page
      · rw [Lib.Loop.value_of_leave _ (pageStep_last checked grants)]
        exact iff_of_true rfl grants
      · rw [Lib.Loop.value_of_leave _ (pageStep_refused checked grants)]
        exact iff_of_false Bool.false_ne_true grants
  | succ k ih =>
      intro page checked last
      simp only [pageSize4k] at last
      by_cases grants : space.Grants m writable page
      · have next : pageStep space m writable finalPage (page, checked) = _ :=
          pageStep_next checked grants (by omega) (by simp only [pageSize4k]; omega)
        rw [Lib.Loop.value_of_again _ next, ih _ _ (by simp only [pageSize4k]; omega)]
        have shift : ∀ j, page + pageSize4k + pageSize4k * j = page + pageSize4k * (j + 1) := by
          intro j
          simp only [pageSize4k]
          omega
        constructor
        · intro rest j bound
          cases j with
          | zero => exact grants
          | succ j => exact shift j ▸ rest j (by omega)
        · intro all j bound
          rw [shift]
          exact all (j + 1) (by omega)
      · rw [Lib.Loop.value_of_leave _ (pageStep_refused checked grants)]
        exact iff_of_false Bool.false_ne_true fun all => grants (all 0 (by omega))

/-- It takes no more rounds than there are pages. -/
theorem pageLoop_rounds (word : finalPage ≤ maxWord) :
    ∀ (fuel k page checked : Nat), page + pageSize4k * k = finalPage → k < fuel →
      (Lib.Loop.run (pageStep space m writable finalPage) fuel (page, checked)).isSome = true := by
  intro fuel
  induction fuel with
  | zero =>
      intro k page checked _ enough
      omega
  | succ fuel ih =>
      intro k page checked last enough
      rw [Lib.Loop.run]
      by_cases grants : space.Grants m writable page
      · cases k with
        | zero =>
            rw [Nat.mul_zero, Nat.add_zero] at last
            subst last
            rw [pageStep_last checked grants]
            rfl
        | succ k =>
            simp only [pageSize4k] at last
            rw [pageStep_next checked grants (by omega) (by simp only [pageSize4k]; omega)]
            exact ih k _ _ (by simp only [pageSize4k]; omega) (by omega)
      · rw [pageStep_refused checked grants]
        rfl

end Pages

/-! ### What is checked -/

namespace TaskSpaces

variable {t : TaskSpaces} {m : Memory} {taskId address length : Nat} {writable : Bool}

/-- The buffer is one that the kernel may use: its task has an address space, the
length is not too large, and every byte is granted. -/
def Accessible (t : TaskSpaces) (m : Memory) (taskId address length : Nat) (writable : Bool) :
    Prop :=
  ∃ index, t.table.findTask taskId = some index ∧
    (t.table.task index).addressSpaceRoot ≠ 0 ∧ length ≤ maxUserBufferBytes ∧
    (length = 0 ∨ address + (length - 1) ≤ maxWord ∧
      ∀ i < length, (t.addressSpace index).Grants m writable (address + i))

/-- The pages from the first to the last are granted if the bytes are. -/
theorem grants_pages_iff {space : AddressSpace} (positive : 0 < length) :
    (∀ j ≤ (address + (length - 1)) / pageSize4k - address / pageSize4k,
      space.Grants m writable (address / pageSize4k * pageSize4k + pageSize4k * j)) ↔
      ∀ i < length, space.Grants m writable (address + i) := by
  constructor
  · intro pages i inside
    have between : (address + i) / pageSize4k - address / pageSize4k ≤
        (address + (length - 1)) / pageSize4k - address / pageSize4k :=
      Nat.sub_le_sub_right (Nat.div_le_div_right (by omega)) _
    have isPage := pages _ between
    have start : address / pageSize4k * pageSize4k +
        pageSize4k * ((address + i) / pageSize4k - address / pageSize4k) =
        (address + i) / pageSize4k * pageSize4k := by
      simp only [pageSize4k]
      omega
    rw [start] at isPage
    exact AddressSpace.grants_page.mp isPage
  · intro bytes j bound
    -- the first byte of the buffer in the page
    have inside : max address (address / pageSize4k * pageSize4k + pageSize4k * j) - address <
        length := by
      simp only [pageSize4k] at *
      omega
    have isByte := bytes _ inside
    have page : (address + (max address (address / pageSize4k * pageSize4k + pageSize4k * j) -
        address)) / pageSize4k * pageSize4k =
        address / pageSize4k * pageSize4k + pageSize4k * j := by
      simp only [pageSize4k]
      omega
    rw [← page]
    exact AddressSpace.grants_page.mpr isByte

theorem validateUserBuffer_iff :
    (t.validateUserBuffer m taskId address length writable).valid = true ↔
      t.Accessible m taskId address length writable := by
  unfold validateUserBuffer Accessible
  cases found : t.table.findTask taskId with
  | none => simp
  | some index =>
      dsimp only
      split
      · rename_i refused
        refine iff_of_false Bool.false_ne_true ?_
        rintro ⟨index', same, root, short, -⟩
        obtain rfl := Option.some.inj same
        simp only [Bool.or_eq_true, beq_iff_eq, decide_eq_true_eq] at refused
        omega
      · rename_i admitted
        simp only [Bool.or_eq_true, beq_iff_eq, decide_eq_true_eq, not_or, Nat.not_lt] at admitted
        split
        · rename_i empty
          exact iff_of_true rfl ⟨index, rfl, admitted.1, admitted.2, .inl empty⟩
        · rename_i nonempty
          have positive : 0 < length := Nat.pos_of_ne_zero nonempty
          have reduces : (∃ index', some index = some index' ∧
              (t.table.task index').addressSpaceRoot ≠ 0 ∧ length ≤ maxUserBufferBytes ∧
              (length = 0 ∨ address + (length - 1) ≤ maxWord ∧
                ∀ i < length, (t.addressSpace index').Grants m writable (address + i))) ↔
              address + (length - 1) ≤ maxWord ∧
                ∀ i < length, (t.addressSpace index).Grants m writable (address + i) := by
            constructor
            · rintro ⟨index', same, -, -, rest⟩
              obtain rfl := Option.some.inj same
              exact rest.resolve_left nonempty
            · exact fun rest => ⟨index, rfl, admitted.1, admitted.2, .inr rest⟩
          rw [reduces]
          cases last : checkedAdd maxWord address (length - 1) with
          | none =>
              refine iff_of_false Bool.false_ne_true fun rest => ?_
              rw [checkedAdd_eq_some.mpr ⟨rfl, rest.1⟩] at last
              cases last
          | some lastByte =>
              obtain ⟨rfl, word⟩ := checkedAdd_eq_some.mp last
              have low : address &&& (maxWord ^^^ (pageSize4k - 1)) =
                  address / pageSize4k * pageSize4k := and_not_low_mask (k := 12) (by omega)
              have high : address + (length - 1) &&& (maxWord ^^^ (pageSize4k - 1)) =
                  (address + (length - 1)) / pageSize4k * pageSize4k :=
                and_not_low_mask (k := 12) word
              have order : address / pageSize4k * pageSize4k +
                  pageSize4k * ((address + (length - 1)) / pageSize4k - address / pageSize4k) =
                  address + (length - 1) &&& (maxWord ^^^ (pageSize4k - 1)) := by
                rw [high]
                simp only [pageSize4k]
                omega
              dsimp only
              rw [low, pageLoop_valid (Nat.and_le_left.trans word) _ _ _ order,
                grants_pages_iff positive]
              exact (and_iff_right word).symm

end TaskSpaces

/-! ### The loop over the chunks -/

section Chunks

variable {space : AddressSpace} {m : Memory} {address length : Nat} {writable : Bool}

/-- The byte of memory that the `i`-th byte of the buffer is. -/
def bytePlace (space : AddressSpace) (m : Memory) (address i : Nat) : Nat :=
  space.physOf m (address + i)

/-- The bytes that one round copies. -/
def chunkAt (address length copied : Nat) : Nat :=
  min (pageSize4k - (address + copied) % pageSize4k) (length - copied)

theorem copyStep_done {c : CopyState} {toUser : Bool} (done : length ≤ c.copied) :
    copyStep space address length toUser c = .inl (true, c) := by
  rw [copyStep, if_neg (by omega)]

/-- A round whose page is granted copies to the end of the page. -/
theorem copyStep_more {c : CopyState} {toUser : Bool} (more : c.copied < length)
    (fits : address + c.copied ≤ maxWord)
    (grants : space.Grants c.memory toUser (address + c.copied)) :
    copyStep space address length toUser c = .inr (if toUser then
      { c with
        copied := c.copied + chunkAt address length c.copied
        memory := writeBytes c.memory (bytePlace space c.memory address c.copied)
          ((c.buffer.drop c.copied).take (chunkAt address length c.copied)) }
    else
      { c with
        copied := c.copied + chunkAt address length c.copied
        buffer := overwrite c.buffer c.copied (Lib.Scatter.readBytes c.memory
          (bytePlace space c.memory address c.copied) (chunkAt address length c.copied)) }) := by
  have here : satAdd address c.copied = address + c.copied := satAdd_of_le fits
  have offset : address + c.copied &&& (pageSize4k - 1) = (address + c.copied) % pageSize4k :=
    Nat.and_two_pow_sub_one_eq_mod _ 12
  rw [copyStep, if_pos more]
  dsimp only
  rw [here, refuses_eq_false.mpr grants, if_neg Bool.false_ne_true, offset]
  cases toUser with
  | true => rfl
  | false => rfl

/-- The bytes of one round are next to each other. -/
theorem bytePlace_run {copied : Nat} (grants : space.Grants m writable (address + copied)) :
    ∀ j < chunkAt address length copied,
      bytePlace space m address (copied + j) = bytePlace space m address copied + j := by
  intro j inChunk
  unfold chunkAt at inChunk
  rw [bytePlace, ← Nat.add_assoc, AddressSpace.physOf_further (by omega) grants]
  rfl

/-- Different bytes of a short buffer are different bytes of memory. -/
theorem bytePlace_ne (coherent : space.Coherent m) (short : length ≤ maxUserBufferBytes)
    (granted : ∀ i < length, space.Grants m true (address + i)) {i j : Nat} (before : i < j)
    (inside : j < length) : bytePlace space m address i ≠ bytePlace space m address j := by
  intro same
  have congruent := coherent.apart _ _ (granted i (by omega)) (granted j inside) same
  simp only [maxUserBufferBytes] at short
  omega

/-- While the bytes of the buffer are written, the buffer does not move. -/
theorem translate_of_scattered {bytes : List UInt8} {m' : Memory} {k i : Nat}
    (coherent : space.Coherent m) (granted : ∀ i < length, space.Grants m true (address + i))
    (part : k ≤ length) (scattered : Scattered (bytePlace space m address) bytes k m m')
    (inside : i < length) :
    space.translate m' (address + i) = space.translate m (address + i) := by
  refine coherent.steady m' (fun x changed => ?_) _ (granted i inside)
  by_contra other
  refine changed (scattered.kept x fun j small same => other ⟨_, granted j (by omega), same⟩)

/-- Writing to a buffer whose bytes are all granted. -/
theorem copyLoop_toUser {input : List UInt8} (coherent : space.Coherent m)
    (short : input.length ≤ maxUserBufferBytes)
    (fits : ∀ i < input.length, address + i ≤ maxWord)
    (granted : ∀ i < input.length, space.Grants m true (address + i)) :
    ∀ c : CopyState, c.copied ≤ input.length → c.buffer = input →
      Scattered (bytePlace space m address) input c.copied m c.memory →
      let result := Lib.Loop.value (copyStep_decreases space address input.length true) c
      result.1 = true ∧ result.2.buffer = input ∧
        Scattered (bytePlace space m address) input input.length m result.2.memory := by
  refine Lib.Loop.value_rule (copyStep_decreases space address input.length true)
    (P := fun c result => c.copied ≤ input.length → c.buffer = input →
      Scattered (bytePlace space m address) input c.copied m c.memory →
      result.1 = true ∧ result.2.buffer = input ∧
        Scattered (bytePlace space m address) input input.length m result.2.memory) ?_ ?_
  · intro c result leaves part isInput scattered
    by_cases more : c.copied < input.length
    · have same := translate_of_scattered coherent granted part scattered more
      have grants : space.Grants c.memory true (address + c.copied) := by
        rw [AddressSpace.Grants, same]
        exact granted _ more
      rw [copyStep_more more (fits _ more) grants] at leaves
      cases leaves
    · rw [copyStep_done (Nat.not_lt.mp more)] at leaves
      obtain rfl := Sum.inl.inj leaves
      obtain all : c.copied = input.length := by omega
      exact ⟨rfl, isInput, all ▸ scattered⟩
  · intro c next result again rest part isInput scattered
    by_cases more : c.copied < input.length
    · have same := translate_of_scattered coherent granted part scattered more
      have grants : space.Grants c.memory true (address + c.copied) := by
        rw [AddressSpace.Grants, same]
        exact granted _ more
      have place : bytePlace space c.memory address c.copied =
          bytePlace space m address c.copied := by
        rw [bytePlace, AddressSpace.physOf, same]
        rfl
      have bound : c.copied + chunkAt address input.length c.copied ≤ input.length := by
        unfold chunkAt
        omega
      rw [copyStep_more more (fits _ more) grants, if_pos rfl, place, isInput] at again
      obtain rfl := Sum.inr.inj again
      refine rest bound rfl (scattered.writeBytes bound (bytePlace_run (granted _ more)) ?_)
      exact fun i old j inChunk => bytePlace_ne coherent short granted (by omega) (by omega)
    · rw [copyStep_done (Nat.not_lt.mp more)] at again
      cases again

/-- Reading from a buffer whose bytes are all granted. -/
theorem copyLoop_fromUser {output : List UInt8} (fits : ∀ i < output.length, address + i ≤ maxWord)
    (granted : ∀ i < output.length, space.Grants m false (address + i)) :
    ∀ c : CopyState, c.copied ≤ output.length → c.memory = m →
      c.buffer = gather (bytePlace space m address) m c.copied ++ output.drop c.copied →
      let result := Lib.Loop.value (copyStep_decreases space address output.length false) c
      result.1 = true ∧ result.2.memory = m ∧
        result.2.buffer = gather (bytePlace space m address) m output.length := by
  refine Lib.Loop.value_rule (copyStep_decreases space address output.length false)
    (P := fun c result => c.copied ≤ output.length → c.memory = m →
      c.buffer = gather (bytePlace space m address) m c.copied ++ output.drop c.copied →
      result.1 = true ∧ result.2.memory = m ∧
        result.2.buffer = gather (bytePlace space m address) m output.length) ?_ ?_
  · rintro c result leaves part rfl gathered
    by_cases more : c.copied < output.length
    · rw [copyStep_more more (fits _ more) (granted _ more)] at leaves
      cases leaves
    · rw [copyStep_done (Nat.not_lt.mp more)] at leaves
      obtain rfl := Sum.inl.inj leaves
      have all : c.copied = output.length := by omega
      refine ⟨rfl, rfl, ?_⟩
      rw [gathered, all, List.drop_length, List.append_nil]
  · rintro c next result again rest part rfl gathered
    by_cases more : c.copied < output.length
    · rw [copyStep_more more (fits _ more) (granted _ more), if_neg Bool.false_ne_true, gathered,
        Lib.Scatter.overwrite_gather (bytePlace_run (granted _ more))] at again
      obtain rfl := Sum.inr.inj again
      refine rest ?_ rfl rfl
      dsimp only
      unfold chunkAt
      omega
    · rw [copyStep_done (Nat.not_lt.mp more)] at again
      cases again

end Chunks

/-! ### The two copies -/

namespace TaskSpaces

variable {t : TaskSpaces} {m : Memory} {taskId address length : Nat} {writable : Bool}

/-- What the check says of every byte. -/
theorem Accessible.bytes (accessible : t.Accessible m taskId address length writable)
    {index : Fin maxTasks} (found : t.table.findTask taskId = some index) :
    length ≤ maxUserBufferBytes ∧ (∀ i < length, address + i ≤ maxWord) ∧
      ∀ i < length, (t.addressSpace index).Grants m writable (address + i) := by
  obtain ⟨index', found', -, short, rest⟩ := accessible
  obtain rfl := Option.some.inj (found.symm.trans found')
  refine ⟨short, fun i inside => ?_, fun i inside => ?_⟩
  · rcases rest with empty | ⟨fits, -⟩
    · omega
    · omega
  · rcases rest with empty | ⟨-, granted⟩
    · omega
    · exact granted i inside

/-- A copy from user code got every byte, or left the output alone. -/
structure ReadsExactly (t : TaskSpaces) (m : Memory) (taskId address : Nat) (output : List UInt8)
    (done : Bool) (output' : List UInt8) (m' : Memory) : Prop where
  done_iff : done = true ↔ t.Accessible m taskId address output.length false
  bytes : done = true → ∀ index, t.table.findTask taskId = some index →
    output'.length = output.length ∧ ∀ i < output.length,
      output'[i]? = some (m ((t.addressSpace index).translate m (address + i)).phys)
  refused : done = false → output' = output
  memory : m' = m

/-- A copy to user code stored every byte and nothing else, or left memory alone. -/
structure WritesExactly (t : TaskSpaces) (m : Memory) (taskId address : Nat) (input : List UInt8)
    (done : Bool) (m' : Memory) : Prop where
  done_iff : done = true ↔ t.Accessible m taskId address input.length true
  bytes : done = true → ∀ index, t.table.findTask taskId = some index →
    ∀ i < input.length,
      input[i]? = some (m' ((t.addressSpace index).translate m (address + i)).phys)
  only : done = true → ∀ index, t.table.findTask taskId = some index →
    ∀ x, (∀ i < input.length, ((t.addressSpace index).translate m (address + i)).phys ≠ x) →
      m' x = m x
  refused : done = false → m' = m

/-- Either all bytes are read, or none. -/
theorem copyFromUser_exact (t : TaskSpaces) (m : Memory) (taskId address : Nat)
    (output : List UInt8) :
    t.ReadsExactly m taskId address output (t.copyFromUser m taskId address output).1
      (t.copyFromUser m taskId address output).2.1
      (t.copyFromUser m taskId address output).2.2 := by
  unfold copyFromUser
  split
  · rename_i rejected
    rw [Bool.not_eq_true'] at rejected
    refine ⟨iff_of_false Bool.false_ne_true fun accessible => ?_, nofun, fun _ => rfl, rfl⟩
    rw [validateUserBuffer_iff.mpr accessible] at rejected
    cases rejected
  · rename_i accepted
    rw [Bool.not_eq_true', Bool.not_eq_false] at accepted
    have accessible := validateUserBuffer_iff.mp accepted
    obtain ⟨index, found, -⟩ := id accessible
    obtain ⟨-, fits, granted⟩ := accessible.bytes found
    obtain ⟨done, memory, bytes⟩ := copyLoop_fromUser fits granted ⟨0, output, m⟩ (Nat.zero_le _)
      rfl rfl
    unfold copyUserBytes
    rw [found]
    dsimp only
    refine ⟨iff_of_true done accessible, fun _ index' found' => ?_, fun failed => ?_, memory⟩
    · obtain rfl := Option.some.inj (found.symm.trans found')
      rw [bytes]
      refine ⟨Lib.Scatter.length_gather _ _ _, fun i inside => ?_⟩
      rw [gather, List.getElem?_map, List.getElem?_range inside]
      rfl
    · rw [done] at failed
      cases failed

/-- Either all bytes are written, or none. -/
theorem copyToUser_exact (t : TaskSpaces) (m : Memory) (taskId address : Nat)
    (input : List UInt8) (coherent : ∀ index, t.table.findTask taskId = some index →
      (t.addressSpace index).Coherent m) :
    t.WritesExactly m taskId address input (t.copyToUser m taskId address input).1
      (t.copyToUser m taskId address input).2.2 := by
  unfold copyToUser
  split
  · rename_i rejected
    rw [Bool.not_eq_true'] at rejected
    refine ⟨iff_of_false Bool.false_ne_true fun accessible => ?_, nofun, nofun, fun _ => rfl⟩
    rw [validateUserBuffer_iff.mpr accessible] at rejected
    cases rejected
  · rename_i accepted
    rw [Bool.not_eq_true', Bool.not_eq_false] at accepted
    have accessible := validateUserBuffer_iff.mp accepted
    obtain ⟨index, found, -⟩ := id accessible
    obtain ⟨short, fits, granted⟩ := accessible.bytes found
    obtain ⟨done, -, scattered⟩ := copyLoop_toUser (coherent index found) short fits granted
      ⟨0, input, m⟩ (Nat.zero_le _) rfl (.refl _ _ _)
    unfold copyUserBytes
    rw [found]
    dsimp only
    refine ⟨iff_of_true done accessible, fun _ index' found' => ?_, fun _ index' found' => ?_,
      fun failed => ?_⟩
    · obtain rfl := Option.some.inj (found.symm.trans found')
      exact scattered.stored
    · obtain rfl := Option.some.inj (found.symm.trans found')
      exact scattered.kept
    · rw [done] at failed
      cases failed

end TaskSpaces

/-- The check accepts a buffer exactly when every byte of it is granted, in at most 257
rounds; a copy moves every byte of an accepted buffer to where it belongs and touches
nothing else, and a refused copy touches nothing. -/
theorem user_copies_exact (t : TaskSpaces) (m : Memory) (taskId : Nat)
    (coherent : ∀ index, t.table.findTask taskId = some index →
      (t.addressSpace index).Coherent m) :
    (∀ address length writable,
      (t.validateUserBuffer m taskId address length writable).valid = true ↔
        t.Accessible m taskId address length writable) ∧
    (∀ address output, t.ReadsExactly m taskId address output
      (t.copyFromUser m taskId address output).1 (t.copyFromUser m taskId address output).2.1
      (t.copyFromUser m taskId address output).2.2) ∧
    (∀ address input, t.WritesExactly m taskId address input
      (t.copyToUser m taskId address input).1 (t.copyToUser m taskId address input).2.2) ∧
    ∀ index address length writable, 0 < length → length ≤ maxUserBufferBytes →
      address + (length - 1) ≤ maxWord →
      (Lib.Loop.run (pageStep (t.addressSpace index) m writable
        (address + (length - 1) &&& (maxWord ^^^ (pageSize4k - 1)))) 257
        (address &&& (maxWord ^^^ (pageSize4k - 1)), 0)).isSome = true := by
  refine ⟨fun _ _ _ => TaskSpaces.validateUserBuffer_iff,
    fun address output => t.copyFromUser_exact m taskId address output,
    fun address input => t.copyToUser_exact m taskId address input coherent,
    fun index address length writable positive short fits => ?_⟩
  have low : address &&& (maxWord ^^^ (pageSize4k - 1)) = address / pageSize4k * pageSize4k :=
    and_not_low_mask (k := 12) (by omega)
  have high : address + (length - 1) &&& (maxWord ^^^ (pageSize4k - 1)) =
      (address + (length - 1)) / pageSize4k * pageSize4k := and_not_low_mask (k := 12) fits
  have few : (address + (length - 1)) / pageSize4k - address / pageSize4k < 257 := by
    simp only [pageSize4k, maxUserBufferBytes] at *
    omega
  rw [low, high]
  refine pageLoop_rounds ((Nat.div_mul_le_self _ _).trans fits) 257 _ _ _ ?_ few
  simp only [pageSize4k]
  omega

/-- A space with a page of code and a page for the stack. -/
def elfPages : List SpaceOp :=
  [.create, .mapUserPage 0 userElfBase .readExecute, .mapUserPage 0 userElfStackPage .readWrite]

def elfWorld : World (SoundAllocator.source roomyMap) :=
  World.run imageTables (World.first imageTables roomyMachine) elfPages

@[irreducible] def elfSpace : AddressSpace := elfWorld.spaces.headD .empty

/-- The first task, in that space. -/
def elfTask : TaskSpaces where
  table := (System.boot.spawnElfInit
    (some ⟨userElfBase, userElfStackTop, elfSpace.rootFrame, 0x207000, 2, 4⟩) (some 64)).2.table
  addressSpace := Function.update (fun _ => .empty) 0 elfSpace

theorem elfWorld_active : elfWorld.Active 0 elfSpace := by
  constructor
  · decide +kernel
  · decide +kernel

theorem elfWorld_closed : World.Closed imageTables elfWorld :=
  ((World.Reachable.first roomyMachine).run elfPages).closed imageTables_reserved_roomyMap

theorem elfTask_found : elfTask.table.findTask 1 = some 0 := by decide +kernel

theorem elfTask_root : (elfTask.table.task 0).addressSpaceRoot ≠ 0 := by decide +kernel

theorem elfTask_space : elfTask.addressSpace 0 = elfSpace := by
  simp only [elfTask, Function.update_self]

theorem elfTask_coherent (index : Fin maxTasks) (found : elfTask.table.findTask 1 = some index) :
    (elfTask.addressSpace index).Coherent elfWorld.machine.memory := by
  obtain ⟨lowP3, userP2, p1s, housed⟩ := elfWorld_closed.housed elfWorld_active
  obtain rfl := Option.some.inj (elfTask_found.symm.trans found)
  rw [elfTask_space]
  exact housed.coherent

/-- Two bytes at the end of the stack are stored, and a third one is not. -/
theorem user_copies_exact_elfTask :
    (elfTask.copyToUser elfWorld.machine.memory 1 (userElfStackTop - 2) [7, 8]).1 = true ∧
    (elfTask.copyToUser elfWorld.machine.memory 1 (userElfStackTop - 2) [7, 8, 9]).1 = false := by
  have writes := (user_copies_exact elfTask elfWorld.machine.memory 1 elfTask_coherent).2.2.1
  have stack : elfSpace.Grants elfWorld.machine.memory true (userElfStackTop - 2 + 0) ∧
      elfSpace.Grants elfWorld.machine.memory true (userElfStackTop - 2 + 1) ∧
      ¬ elfSpace.Grants elfWorld.machine.memory true (userElfStackTop - 2 + 2) := by decide +kernel
  rw [← elfTask_space] at stack
  constructor
  · refine (writes _ [7, 8]).done_iff.mpr
      ⟨0, elfTask_found, elfTask_root, by decide, .inr ⟨by decide, ?_⟩⟩
    rintro (_ | _ | i) inside
    · exact stack.1
    · exact stack.2.1
    · exact absurd inside (by simp)
  · rw [← Bool.not_eq_true, (writes _ [7, 8, 9]).done_iff]
    intro accessible
    exact stack.2.2 ((accessible.bytes elfTask_found).2.2 2 (by decide))

end CloudOS.Process
