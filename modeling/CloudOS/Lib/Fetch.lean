import CloudOS.Lib.Slice

/-!
Reading bytes of a memory that is not all there.

A memory gives a byte at some addresses and faults at all others. Bytes that it
holds from an address on can be read one after the other, and little-endian
numbers with them: no read inside the bytes faults, and what is read depends on
nothing else.
-/

namespace Lib.Fetch

open Lib.Slice (slice)

/-- The bytes at the addresses that can be read. -/
abbrev Memory : Type := Nat → Option UInt8

/-- The bytes from an address on. -/
def fetch (memory : Memory) (address : Nat) : Nat → Option (List UInt8)
  | 0 => some []
  | count + 1 => do
    let byte ← memory address
    let bytes ← fetch memory (address + 1) count
    return byte :: bytes

/-- A little-endian number. -/
def number (bytes : List UInt8) : Nat := Nat.ofDigits 256 (bytes.map UInt8.toNat)

/-- The little-endian number of some bytes of a list. -/
def field (bytes : List UInt8) (offset width : Nat) : Nat :=
  number (slice bytes offset (offset + width))

/-- The memory has these bytes from an address on. -/
def Holds (memory : Memory) (address : Nat) (bytes : List UInt8) : Prop :=
  ∀ (k : Nat) (byte : UInt8), bytes[k]? = some byte → memory (address + k) = some byte

variable {memory : Memory} {address offset width : Nat} {bytes : List UInt8}

theorem number_lt (bytes : List UInt8) : number bytes < 256 ^ bytes.length := by
  have digits : ∀ digit ∈ bytes.map UInt8.toNat, digit < 256 := by
    intro digit mem
    obtain ⟨byte, -, rfl⟩ := List.mem_map.mp mem
    exact UInt8.toNat_lt byte
  simpa [number] using Nat.ofDigits_lt_base_pow_length (by decide) digits

theorem field_lt (bytes : List UInt8) (offset width : Nat) :
    field bytes offset width < 256 ^ width := by
  apply (number_lt _).trans_le
  apply Nat.pow_le_pow_right (by decide)
  simp [slice]

theorem Holds.byte (holds : Holds memory address bytes) (inside : offset < bytes.length) :
    memory (address + offset) = some bytes[offset] :=
  holds offset _ (List.getElem?_eq_getElem inside)

/-- Bytes that the memory holds can be read. -/
theorem Holds.fetch (holds : Holds memory address bytes) :
    ∀ {count offset : Nat}, offset + count ≤ bytes.length →
      fetch memory (address + offset) count = some (slice bytes offset (offset + count)) := by
  intro count
  induction count with
  | zero =>
    intro offset inside
    simp [Lib.Fetch.fetch, slice]
  | succ count ih =>
    intro offset inside
    have rest := ih (show offset + 1 + count ≤ bytes.length by omega)
    rw [Lib.Fetch.fetch, holds.byte (by omega), Nat.add_assoc address, rest]
    have first : bytes.drop offset = bytes[offset] :: bytes.drop (offset + 1) :=
      List.drop_eq_getElem_cons (by omega)
    simp only [slice, first, Nat.add_sub_cancel_left, List.take_succ_cons]
    rfl

/-- Two lists of bytes that the memory holds begin alike. -/
theorem Holds.slice_eq {bytes' : List UInt8} (holds : Holds memory address bytes)
    (holds' : Holds memory address bytes') {count : Nat} (inside : offset + count ≤ bytes.length)
    (inside' : offset + count ≤ bytes'.length) :
    slice bytes offset (offset + count) = slice bytes' offset (offset + count) :=
  Option.some.inj ((holds.fetch inside).symm.trans (holds'.fetch inside'))

/-- A memory that holds a list of bytes and nothing else. -/
def only (address : Nat) (bytes : List UInt8) : Memory :=
  fun a => if address ≤ a then bytes[a - address]? else none

theorem holds_only (address : Nat) (bytes : List UInt8) :
    Holds (only address bytes) address bytes := by
  intro k byte there
  rw [only, if_pos (Nat.le_add_right _ _), Nat.add_sub_cancel_left, there]

end Lib.Fetch
