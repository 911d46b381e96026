import Mathlib

/-!
Byte-addressed memory: little-endian words, and blocks that are filled or copied.
-/

namespace Lib.Store

/-- The byte at every address. -/
abbrev Memory : Type := Nat → UInt8

/-- A little-endian store of eight bytes. -/
def writeU64 (m : Memory) (address value : Nat) : Memory := fun a =>
  if address ≤ a ∧ a < address + 8 then UInt8.ofNat (value / 256 ^ (a - address)) else m a

def readU64 (m : Memory) (address : Nat) : Nat :=
  Nat.ofDigits 256 ((List.range 8).map fun k => (m (address + k)).toNat)

/-- Set a block of bytes to zero. -/
def zero (m : Memory) (address length : Nat) : Memory := fun a =>
  if address ≤ a ∧ a < address + length then 0 else m a

/-- Copy a block of bytes from elsewhere in memory. -/
def copy (m : Memory) (target source length : Nat) : Memory := fun a =>
  if target ≤ a ∧ a < target + length then m (source + (a - target)) else m a

/-- Store a list of bytes. -/
def writeBytes (m : Memory) (address : Nat) (bytes : List UInt8) : Memory := fun a =>
  if address ≤ a ∧ a < address + bytes.length then bytes.getD (a - address) 0 else m a

variable {m m' : Memory} {address value : Nat}

theorem readU64_congr (same : ∀ k < 8, m (address + k) = m' (address + k)) :
    readU64 m address = readU64 m' address := by
  unfold readU64
  congr 1
  refine List.map_congr_left fun k mem => ?_
  rw [same k (List.mem_range.mp mem)]

theorem readU64_lt (m : Memory) (address : Nat) : readU64 m address < 2 ^ 64 := by
  have digits : ∀ d ∈ (List.range 8).map fun k => (m (address + k)).toNat, d < 256 := by
    intro d mem
    obtain ⟨k, -, rfl⟩ := List.mem_map.mp mem
    exact UInt8.toNat_lt _
  have bound := Nat.ofDigits_lt_base_pow_length (by omega) digits
  rw [List.length_map, List.length_range] at bound
  exact bound

theorem writeU64_of_outside {a : Nat} (outside : a < address ∨ address + 8 ≤ a) :
    writeU64 m address value a = m a := by
  unfold writeU64
  rw [if_neg]
  omega

/-- A word that fits is read back. -/
theorem readU64_writeU64 (word : value < 2 ^ 64) :
    readU64 (writeU64 m address value) address = value := by
  have digit : ∀ k < 8, (writeU64 m address value (address + k)).toNat = value / 256 ^ k % 256 := by
    intro k small
    unfold writeU64
    rw [if_pos (by omega), Nat.add_sub_cancel_left]
    exact UInt8.toNat_ofNat'
  have digits : (List.range 8).map (fun k => (writeU64 m address value (address + k)).toNat) =
      (List.range 8).map fun k => value / 256 ^ k % 256 :=
    List.map_congr_left fun k mem => digit k (List.mem_range.mp mem)
  unfold readU64
  rw [digits]
  simp only [List.range_succ, List.range_zero, List.nil_append, List.cons_append, List.map_cons,
    List.map_nil, Nat.ofDigits_cons, Nat.ofDigits_nil]
  omega

theorem readU64_writeU64_of_apart {other : Nat}
    (apart : address + 8 ≤ other ∨ other + 8 ≤ address) :
    readU64 (writeU64 m other value) address = readU64 m address :=
  readU64_congr fun k small => writeU64_of_outside (by omega)

theorem zero_inside {block length a : Nat} (from_ : block ≤ a) (below : a < block + length) :
    zero m block length a = 0 := if_pos ⟨from_, below⟩

/-- Cleared memory reads as zero. -/
theorem readU64_zero {block length : Nat} (inside : block ≤ address ∧ address + 8 ≤ block + length) :
    readU64 (zero m block length) address = 0 := by
  have bytes : ∀ k < 8, zero m block length (address + k) = 0 := by
    intro k small
    unfold zero
    rw [if_pos (by omega)]
  unfold readU64
  rw [List.map_congr_left (g := fun _ => 0) fun k mem => by
    rw [bytes k (List.mem_range.mp mem)]
    rfl]
  decide

theorem zero_of_outside {block length a : Nat} (outside : a < block ∨ block + length ≤ a) :
    zero m block length a = m a := by
  unfold zero
  rw [if_neg]
  omega

theorem readU64_zero_of_apart {block length : Nat}
    (apart : address + 8 ≤ block ∨ block + length ≤ address) :
    readU64 (zero m block length) address = readU64 m address :=
  readU64_congr fun k small => zero_of_outside (by omega)

theorem copy_of_outside {target source length a : Nat}
    (outside : a < target ∨ target + length ≤ a) : copy m target source length a = m a := by
  unfold copy
  rw [if_neg]
  omega

/-- A word is copied with its block. -/
theorem readU64_copy {target source length offset : Nat} (inside : offset + 8 ≤ length) :
    readU64 (copy m target source length) (target + offset) = readU64 m (source + offset) := by
  have bytes : ∀ k < 8, copy m target source length (target + offset + k) =
      m (source + offset + k) := by
    intro k small
    unfold copy
    rw [if_pos (by omega)]
    congr 1
    omega
  unfold readU64
  congr 1
  exact List.map_congr_left fun k mem => by rw [bytes k (List.mem_range.mp mem)]

theorem readU64_copy_of_apart {target source length : Nat}
    (apart : address + 8 ≤ target ∨ target + length ≤ address) :
    readU64 (copy m target source length) address = readU64 m address :=
  readU64_congr fun k small => copy_of_outside (by omega)

end Lib.Store
