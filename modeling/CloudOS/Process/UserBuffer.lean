import CloudOS.Lib.Loop
import CloudOS.Lib.Scatter
import CloudOS.Paging.UserBytes
import CloudOS.Process.Table

/-!
How `src/process.rs` checks and copies the buffers of user code.

The two loops are values of `Lib.Loop`: every round of the first one goes to a higher
page, and every round of the second one copies a byte at least. A buffer of the kernel
is a list beside the memory that the page tables lead to.
-/

namespace CloudOS.Process

open Lib.Loop (Decreases)
open Lib.Scatter (readBytes overwrite)
open Lib.Store (Memory writeBytes)
open Lib.Word (satAdd checkedAdd checkedAdd_eq_some maxWord)
open CloudOS.Paging (AddressSpace TranslateResult pageSize4k)

abbrev maxUserBufferBytes : Nat := 1024 * 1024

structure UserBufferValidation where
  valid : Bool
  pagesChecked : Nat
  writable : Bool
deriving DecidableEq, Repr

/-- The process table with the address space of every slot. -/
structure TaskSpaces where
  table : ProcessTable
  addressSpace : Fin maxTasks → AddressSpace

/-- The test that both loops make of a page. -/
def refuses (translation : TranslateResult) (writable : Bool) : Bool :=
  !translation.mapped || !translation.userAccessible || (writable && !translation.writable)

theorem refuses_eq_false {space : AddressSpace} {m : Memory} {virt : Nat} {writable : Bool} :
    refuses (space.translate m virt) writable = false ↔ space.Grants m writable virt := by
  simp only [refuses, Bool.or_eq_false_iff, Bool.not_eq_false', Bool.and_eq_false_imp,
    AddressSpace.Grants, and_assoc]

/-! ### Checking -/

/-- A round of the loop over the pages, with `page` and `pages_checked`. -/
def pageStep (space : AddressSpace) (m : Memory) (writable : Bool) (finalPage : Nat) :
    Nat × Nat → UserBufferValidation ⊕ (Nat × Nat)
  | (page, pagesChecked) =>
      let translation := space.translate m page
      let pagesChecked := satAdd pagesChecked 1
      if refuses translation writable then .inl ⟨false, pagesChecked, writable⟩
      else if page = finalPage then .inl ⟨true, pagesChecked, writable⟩
      else
        match checkedAdd maxWord page pageSize4k with
        | none => .inl ⟨false, pagesChecked, writable⟩
        | some next => .inr (next, pagesChecked)

/-- Every round checks one page less. -/
theorem pageStep_decreases (space : AddressSpace) (m : Memory) (writable : Bool)
    (finalPage : Nat) :
    Decreases (pageStep space m writable finalPage) fun now => maxWord - now.1 := by
  rintro ⟨page, pagesChecked⟩ next round
  unfold pageStep at round
  dsimp only at round
  split at round
  · cases round
  split at round
  · cases round
  split at round
  · cases round
  · rename_i higher fits
    obtain rfl := Sum.inr.inj round
    obtain ⟨isNext, small⟩ := checkedAdd_eq_some.mp fits
    simp only [pageSize4k] at isNext
    dsimp only
    omega

namespace TaskSpaces

def validateUserBuffer (t : TaskSpaces) (m : Memory) (taskId address length : Nat)
    (writable : Bool) : UserBufferValidation :=
  let invalid := ⟨false, 0, writable⟩
  match t.table.findTask taskId with
  | none => invalid
  | some index =>
      if (t.table.task index).addressSpaceRoot == 0 || decide (length > maxUserBufferBytes) then
        invalid
      else if length = 0 then ⟨true, 0, writable⟩
      else
        match checkedAdd maxWord address (length - 1) with
        | none => invalid
        | some lastByte =>
            let pageMask := maxWord ^^^ (pageSize4k - 1)
            Lib.Loop.value
              (pageStep_decreases (t.addressSpace index) m writable (lastByte &&& pageMask))
              (address &&& pageMask, 0)

end TaskSpaces

/-! ### Copying -/

/-- What the loop of `copy_user_bytes` changes. -/
structure CopyState where
  copied : Nat
  buffer : List UInt8
  memory : Memory

/-- A round of that loop. -/
def copyStep (space : AddressSpace) (address length : Nat) (toUser : Bool) (c : CopyState) :
    (Bool × CopyState) ⊕ CopyState :=
  if c.copied < length then
    let virtualAddress := satAdd address c.copied
    let translation := space.translate c.memory virtualAddress
    if refuses translation toUser then .inl (false, c)
    else
      let pageOffset := virtualAddress &&& (pageSize4k - 1)
      let chunk := min (pageSize4k - pageOffset) (length - c.copied)
      if toUser then
        .inr { c with
          copied := c.copied + chunk
          memory := writeBytes c.memory translation.phys ((c.buffer.drop c.copied).take chunk) }
      else
        .inr { c with
          copied := c.copied + chunk
          buffer := overwrite c.buffer c.copied (readBytes c.memory translation.phys chunk) }
  else .inl (true, c)

/-- Every round copies at least one byte. -/
theorem copyStep_decreases (space : AddressSpace) (address length : Nat) (toUser : Bool) :
    Decreases (copyStep space address length toUser) fun c => length - c.copied := by
  intro c next round
  have offset : satAdd address c.copied &&& (pageSize4k - 1) < pageSize4k :=
    Nat.lt_succ_of_le Nat.and_le_right
  unfold copyStep at round
  dsimp only at round
  split at round
  · rename_i more
    split at round
    · cases round
    · split at round
      all_goals
        obtain rfl := Sum.inr.inj round
        dsimp only
        omega
  · cases round

namespace TaskSpaces

def copyUserBytes (t : TaskSpaces) (m : Memory) (taskId address : Nat) (buffer : List UInt8)
    (length : Nat) (toUser : Bool) : Bool × List UInt8 × Memory :=
  match t.table.findTask taskId with
  | none => (false, buffer, m)
  | some index =>
      match Lib.Loop.value (copyStep_decreases (t.addressSpace index) address length toUser)
        ⟨0, buffer, m⟩ with
      | (done, c) => (done, c.buffer, c.memory)

/-- The result, the output buffer and the memory after the call. -/
def copyFromUser (t : TaskSpaces) (m : Memory) (taskId address : Nat) (output : List UInt8) :
    Bool × List UInt8 × Memory :=
  if !(t.validateUserBuffer m taskId address output.length false).valid then (false, output, m)
  else t.copyUserBytes m taskId address output output.length false

def copyToUser (t : TaskSpaces) (m : Memory) (taskId address : Nat) (input : List UInt8) :
    Bool × List UInt8 × Memory :=
  if !(t.validateUserBuffer m taskId address input.length true).valid then (false, input, m)
  else t.copyUserBytes m taskId address input input.length true

end TaskSpaces

end CloudOS.Process
