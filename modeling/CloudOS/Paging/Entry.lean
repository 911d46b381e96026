import CloudOS.Lib.Radix
import CloudOS.Paging.State

/-!
The bits of an entry, and physical memory as a family of tables.
-/

namespace CloudOS.Paging

open Lib.Radix (set fill)
open Lib.Store (Memory readU64 writeU64)

/-! ### Bits -/

/-- A flag is tested by masking its bit. -/
theorem and_shift_ne_zero (e k : Nat) : (e &&& 1 <<< k != 0) = e.testBit k := by
  rw [Nat.one_shiftLeft, Nat.and_two_pow]
  cases e.testBit k with
  | false => simp
  | true => simp

theorem entryPresent_eq (e : Nat) : entryPresent e = e.testBit 0 := and_shift_ne_zero e 0
theorem entryWritable_eq (e : Nat) : entryWritable e = e.testBit 1 := and_shift_ne_zero e 1
theorem entryUser_eq (e : Nat) : entryUser e = e.testBit 2 := and_shift_ne_zero e 2
theorem entryHuge_eq (e : Nat) : entryHuge e = e.testBit 7 := and_shift_ne_zero e 7
theorem entryNoExecute_eq (e : Nat) : entryNoExecute e = e.testBit 63 := and_shift_ne_zero e 63

section Or

variable (a b : Nat)

@[simp] theorem entryPresent_or : entryPresent (a ||| b) = (entryPresent a || entryPresent b) := by
  simp only [entryPresent_eq, Nat.testBit_or]

@[simp] theorem entryWritable_or :
    entryWritable (a ||| b) = (entryWritable a || entryWritable b) := by
  simp only [entryWritable_eq, Nat.testBit_or]

@[simp] theorem entryUser_or : entryUser (a ||| b) = (entryUser a || entryUser b) := by
  simp only [entryUser_eq, Nat.testBit_or]

@[simp] theorem entryHuge_or : entryHuge (a ||| b) = (entryHuge a || entryHuge b) := by
  simp only [entryHuge_eq, Nat.testBit_or]

@[simp] theorem entryNoExecute_or :
    entryNoExecute (a ||| b) = (entryNoExecute a || entryNoExecute b) := by
  simp only [entryNoExecute_eq, Nat.testBit_or]

/-- Addresses of combined entries combine. -/
theorem entryAddr_or : entryAddr (a ||| b) = entryAddr a ||| entryAddr b :=
  Nat.and_or_distrib_right a b entryAddrMask

end Or

/-- Whatever an entry says, its address is that of a page. -/
theorem entryAddr_aligned (e : Nat) : entryAddr e % pageSize4k = 0 := by
  have masks : entryAddrMask &&& (2 ^ 12 - 1) = 0 := by decide
  have low := Nat.and_two_pow_sub_one_eq_mod (entryAddr e) 12
  rw [entryAddr, Nat.and_assoc, masks, Nat.and_zero] at low
  exact low.symm

/-- A frame address: aligned, and within reach of the identity map. -/
structure IsFrame (frame : Nat) : Prop where
  aligned : frame % pageSize4k = 0
  reachable : frame < bootIdentityMapBytes

section IsFrame

variable {frame : Nat} (isFrame : IsFrame frame)

include isFrame

/-- Below the page size a frame has no bits, so none of the low flags. -/
theorem IsFrame.low_bit {k : Nat} (low : k < 12) : frame.testBit k = false := by
  obtain ⟨n, rfl⟩ := Nat.dvd_of_mod_eq_zero isFrame.aligned
  have shifted : pageSize4k * n = n * 2 ^ 12 := Nat.mul_comm pageSize4k n
  rw [shifted, Nat.testBit_mul_two_pow, decide_eq_false (by omega), Bool.false_and]

theorem IsFrame.high_bit {k : Nat} (high : 30 ≤ k) : frame.testBit k = false := by
  apply Nat.testBit_lt_two_pow
  calc frame < 2 ^ 30 := isFrame.reachable
    _ ≤ 2 ^ k := Nat.pow_le_pow_right (by omega) high

@[simp] theorem IsFrame.entryPresent : entryPresent frame = false := by
  rw [entryPresent_eq, isFrame.low_bit (by omega)]

@[simp] theorem IsFrame.entryWritable : entryWritable frame = false := by
  rw [entryWritable_eq, isFrame.low_bit (by omega)]

@[simp] theorem IsFrame.entryUser : entryUser frame = false := by
  rw [entryUser_eq, isFrame.low_bit (by omega)]

@[simp] theorem IsFrame.entryHuge : entryHuge frame = false := by
  rw [entryHuge_eq, isFrame.low_bit (by omega)]

@[simp] theorem IsFrame.entryNoExecute : entryNoExecute frame = false := by
  rw [entryNoExecute_eq, isFrame.high_bit (by omega)]

/-- The address mask keeps every frame as it is. -/
theorem IsFrame.entryAddr : entryAddr frame = frame := by
  have mask : entryAddrMask = (2 ^ 40 - 1) <<< 12 := by decide
  obtain ⟨n, rfl⟩ := Nat.dvd_of_mod_eq_zero isFrame.aligned
  have bound := isFrame.reachable
  have shifted : pageSize4k * n = n <<< 12 := by
    rw [Nat.shiftLeft_eq, Nat.mul_comm]
  rw [Paging.entryAddr, shifted, mask, ← Nat.shiftLeft_and_distrib, Nat.and_two_pow_sub_one_eq_mod,
    Nat.mod_eq_of_lt (by simp only [pageSize4k, bootIdentityMapBytes] at bound; omega)]

theorem IsFrame.isPageAligned : isPageAligned frame = true := by
  have low := Nat.and_two_pow_sub_one_eq_mod frame 12
  rw [Paging.isPageAligned, show pageSize4k - 1 = 2 ^ 12 - 1 from rfl, low]
  simpa using isFrame.aligned

theorem IsFrame.identityReachable : identityReachable frame = true :=
  decide_eq_true isFrame.reachable

/-- A frame can serve as a table. -/
theorem IsFrame.tableFromFrame : tableFromFrame frame = some frame := by
  rw [Paging.tableFromFrame, isFrame.isPageAligned, isFrame.identityReachable]
  rfl

/-- The frame an entry was made from. -/
theorem IsFrame.entryAddr_or {flags : Nat} (bare : Paging.entryAddr flags = 0) :
    Paging.entryAddr (frame ||| flags) = frame := by
  rw [Paging.entryAddr_or, isFrame.entryAddr, bare, Nat.or_zero]

/-- Flags without address bits do not hide the frame they are set on. -/
theorem IsFrame.tableFromEntry_or {flags : Nat} (bare : Paging.entryAddr flags = 0) :
    tableFromEntry (frame ||| flags) = some frame := by
  rw [tableFromEntry, isFrame.entryAddr_or bare, if_pos isFrame.identityReachable]

end IsFrame

/-- `table_from_entry` checks what makes a frame. -/
theorem isFrame_of_tableFromEntry {e frame : Nat} (leads : tableFromEntry e = some frame) :
    IsFrame frame := by
  unfold tableFromEntry at leads
  split at leads
  · rename_i reachable
    obtain rfl := Option.some.inj leads
    exact ⟨entryAddr_aligned e, of_decide_eq_true reachable⟩
  · cases leads

theorem isPageAligned_of_mod {value : Nat} (aligned : value % pageSize4k = 0) :
    isPageAligned value = true := by
  have low := Nat.and_two_pow_sub_one_eq_mod value 12
  rw [isPageAligned, show pageSize4k - 1 = 2 ^ 12 - 1 from rfl, low]
  simpa using aligned

theorem mod_of_isPageAligned {value : Nat} (aligned : isPageAligned value = true) :
    value % pageSize4k = 0 := by
  have low := Nat.and_two_pow_sub_one_eq_mod value 12
  rw [isPageAligned, beq_iff_eq, show pageSize4k - 1 = 2 ^ 12 - 1 from rfl, low] at aligned
  exact aligned

/-! ### Flags -/

/-- Flags for a page: a present, small entry without an address. -/
structure IsFlags (flags : Nat) : Prop where
  word : flags < 2 ^ 64
  bare : entryAddr flags = 0
  present : entryPresent flags = true
  small : entryHuge flags = false

/-- The flags of a user page are flags only. -/
theorem UserPagePermissions.isFlags (permissions : UserPagePermissions) :
    IsFlags permissions.flags := by
  obtain ⟨writable, executable⟩ := permissions
  constructor <;> cases writable <;> cases executable <;> decide

section Flags

variable (permissions : UserPagePermissions)

/-- Every user page is open to the user, whatever it permits. -/
theorem UserPagePermissions.entryUser_flags : entryUser permissions.flags = true := by
  obtain ⟨writable, executable⟩ := permissions
  cases writable <;> cases executable <;> decide

theorem UserPagePermissions.entryWritable_flags :
    entryWritable permissions.flags = permissions.writable := by
  obtain ⟨writable, executable⟩ := permissions
  cases writable <;> cases executable <;> decide

/-- Execution is granted by leaving the last bit clear. -/
theorem UserPagePermissions.entryNoExecute_flags :
    entryNoExecute permissions.flags = !permissions.executable := by
  obtain ⟨writable, executable⟩ := permissions
  cases writable <;> cases executable <;> decide

end Flags

theorem PageOwner.isFlags (owner : PageOwner) : IsFlags owner.defaultFlags := by
  constructor <;> cases owner <;> decide

/-- The part of the flags that intermediate entries take over. -/
abbrev opened (flags : Nat) : Nat := flags &&& (writableBit ||| userBit)

section Opened

variable (flags : Nat)

/-- Of the flags only write and user access are passed up. -/
theorem testBit_opened (k : Nat) : (opened flags).testBit k =
    (flags.testBit k && (decide (1 = k) || decide (2 = k))) := by
  have bits : (writableBit ||| userBit).testBit k = (decide (1 = k) || decide (2 = k)) := by
    rw [Nat.testBit_or, writableBit, userBit, Nat.one_shiftLeft, Nat.one_shiftLeft,
      Nat.testBit_two_pow, Nat.testBit_two_pow]
  rw [opened, Nat.testBit_and, bits]

@[simp] theorem entryPresent_opened : entryPresent (opened flags) = false := by
  rw [entryPresent_eq, testBit_opened]
  simp

@[simp] theorem entryWritable_opened : entryWritable (opened flags) = entryWritable flags := by
  rw [entryWritable_eq, testBit_opened, entryWritable_eq]
  simp

@[simp] theorem entryUser_opened : entryUser (opened flags) = entryUser flags := by
  rw [entryUser_eq, testBit_opened, entryUser_eq]
  simp

@[simp] theorem entryHuge_opened : entryHuge (opened flags) = false := by
  rw [entryHuge_eq, testBit_opened]
  simp

@[simp] theorem entryNoExecute_opened : entryNoExecute (opened flags) = false := by
  rw [entryNoExecute_eq, testBit_opened]
  simp

@[simp] theorem entryAddr_opened : entryAddr (opened flags) = 0 := by
  have masks : (writableBit ||| userBit) &&& entryAddrMask = 0 := by decide
  rw [entryAddr, opened, Nat.and_assoc, masks, Nat.and_zero]

theorem opened_lt : opened flags < 2 ^ 64 := by
  calc opened flags ≤ writableBit ||| userBit := Nat.and_le_right
    _ < 2 ^ 64 := by decide

end Opened

theorem IsFrame.lt_word {frame : Nat} (isFrame : IsFrame frame) : frame < 2 ^ 64 := by
  have bound := isFrame.reachable
  simp only [bootIdentityMapBytes] at bound
  omega

/-! ### Children -/

/-- The table an entry of an upper level leads to. -/
def child (e : Nat) : Option Nat :=
  if entryPresent e && !entryHuge e then tableFromEntry e else none

theorem child_zero : child 0 = none := rfl

theorem child_of_absent {e : Nat} (absent : entryPresent e = false) : child e = none := by
  rw [child, absent]
  rfl

theorem child_of_huge {e : Nat} (huge : entryHuge e = true) : child e = none := by
  rw [child, huge, Bool.not_true, Bool.and_false]
  rfl

theorem child_of_present {e : Nat} (present : entryPresent e = true) (small : entryHuge e = false) :
    child e = tableFromEntry e := by
  rw [child, present, small]
  rfl

/-- What an entry looks like that leads on. -/
theorem present_of_child {e next : Nat} (leads : child e = some next) :
    entryPresent e = true ∧ entryHuge e = false ∧ tableFromEntry e = some next := by
  unfold child at leads
  split at leads
  · rename_i both
    rw [Bool.and_eq_true, Bool.not_eq_true'] at both
    exact ⟨both.1, both.2, leads⟩
  · cases leads

theorem isFrame_of_child {e next : Nat} (leads : child e = some next) : IsFrame next :=
  isFrame_of_tableFromEntry (present_of_child leads).2.2

/-- Widening an entry does not move it. -/
theorem child_widen (e flags : Nat) : child (e ||| opened flags) = child e := by
  simp [child, tableFromEntry, entryAddr_or]

/-- An entry linked to a new table leads to it, whatever it opens. -/
theorem child_link {frame : Nat} (isFrame : IsFrame frame) (flags : Nat) :
    child (frame ||| presentBit ||| opened flags) = some frame := by
  have bare : entryAddr (presentBit ||| opened flags) = 0 := by
    rw [entryAddr_or, entryAddr_opened]
    decide
  rw [child_of_present, Nat.or_assoc, isFrame.tableFromEntry_or bare]
  · rw [entryPresent_or, entryPresent_or, show entryPresent presentBit = true from rfl]
    simp
  · rw [entryHuge_or, entryHuge_or, isFrame.entryHuge, entryHuge_opened]
    rfl

/-! ### Tables -/

/-- The tables in memory. What is not at the start of a frame is no table. -/
def tables (m : Memory) (frame : Nat) (index : Fin 512) : Nat :=
  if frame % pageSize4k = 0 then entry m frame index else 0

theorem tables_of_aligned {m : Memory} {frame : Nat} (aligned : frame % pageSize4k = 0)
    (index : Fin 512) : tables m frame index = entry m frame index := if_pos aligned

theorem tables_lt (m : Memory) (frame : Nat) (index : Fin 512) : tables m frame index < 2 ^ 64 := by
  unfold tables
  split
  · exact Lib.Store.readU64_lt m _
  · decide

/-- A table is determined by the bytes of its frame. -/
theorem tables_congr {m m' : Memory} {frame : Nat}
    (same : ∀ a, frame ≤ a → a < frame + pageSize4k → m' a = m a) (index : Fin 512) :
    tables m' frame index = tables m frame index := by
  unfold tables
  split
  · refine Lib.Store.readU64_congr fun k small => same _ (by omega) ?_
    have := index.isLt
    simp only [pageSize4k]
    omega
  · rfl

/-- Storing an entry changes that entry and no other, in any table. -/
theorem tables_store {m : Memory} {frame value : Nat} {index : Fin 512}
    (aligned : frame % pageSize4k = 0) (word : value < 2 ^ 64) :
    tables (setEntry m frame index value) = set (tables m) frame index value := by
  funext frame' index'
  by_cases here : frame' = frame ∧ index' = index
  · obtain ⟨rfl, rfl⟩ := here
    rw [Lib.Radix.set_self, tables_of_aligned aligned]
    exact Lib.Store.readU64_writeU64 word
  · rw [Lib.Radix.set_of_ne here]
    unfold tables
    split
    · rename_i aligned'
      refine Lib.Store.readU64_writeU64_of_apart ?_
      have := index.isLt
      have := index'.isLt
      by_cases same : frame' = frame
      · have : index'.val ≠ index.val := fun eq => here ⟨same, Fin.ext eq⟩
        omega
      · simp only [pageSize4k] at aligned aligned'
        omega
    · rfl

/-- Clearing a frame empties the table it holds. -/
theorem tables_clear {m : Memory} {frame : Nat} (aligned : frame % pageSize4k = 0) :
    tables (zeroFrame m frame) = fill (tables m) frame 0 := by
  funext frame' index'
  have := index'.isLt
  by_cases here : frame' = frame
  · subst here
    rw [Lib.Radix.fill_self, tables_of_aligned aligned]
    refine Lib.Store.readU64_zero ⟨by omega, ?_⟩
    simp only [pageSize4k]
    omega
  · rw [Lib.Radix.fill_of_ne here]
    unfold tables
    split
    · rename_i aligned'
      refine Lib.Store.readU64_zero_of_apart ?_
      simp only [pageSize4k] at aligned aligned' ⊢
      omega
    · rfl

/-- A copied table has the entries of the other one. -/
theorem tables_copy {m : Memory} {target frame : Nat} (alignedTarget : target % pageSize4k = 0)
    (aligned : frame % pageSize4k = 0) :
    tables (copyTable m target frame) = Function.update (tables m) target (tables m frame) := by
  funext frame' index'
  have := index'.isLt
  by_cases here : frame' = target
  · subst here
    rw [Function.update_self, tables_of_aligned alignedTarget, tables_of_aligned aligned]
    refine Lib.Store.readU64_copy ?_
    simp only [pageSize4k]
    omega
  · rw [Function.update_of_ne here]
    unfold tables
    split
    · rename_i aligned'
      refine Lib.Store.readU64_copy_of_apart ?_
      simp only [pageSize4k] at alignedTarget aligned' ⊢
      omega
    · rfl

end CloudOS.Paging
