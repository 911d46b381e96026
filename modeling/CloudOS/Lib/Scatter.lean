import CloudOS.Lib.Store

/-!
Bytes of a buffer that lie at scattered places of memory, read and written in runs of
bytes that are next to each other.
-/

namespace Lib.Scatter

open Lib.Store (Memory writeBytes)

/-- The block of bytes at an address. -/
def readBytes (m : Memory) (address length : Nat) : List UInt8 :=
  (List.range length).map fun k => m (address + k)

/-- A list with some elements replaced by others. -/
def overwrite (buffer : List UInt8) (start : Nat) (bytes : List UInt8) : List UInt8 :=
  buffer.take start ++ bytes ++ buffer.drop (start + bytes.length)

/-- The bytes at the first `k` places. -/
def gather (place : Nat → Nat) (m : Memory) (k : Nat) : List UInt8 :=
  (List.range k).map fun i => m (place i)

/-- The second memory has the first `k` of the bytes at their places, and is the first
memory elsewhere. -/
structure Scattered (place : Nat → Nat) (bytes : List UInt8) (k : Nat) (m m' : Memory) : Prop where
  stored : ∀ i < k, bytes[i]? = some (m' (place i))
  kept : ∀ x, (∀ i < k, place i ≠ x) → m' x = m x

variable {place : Nat → Nat} {bytes buffer : List UInt8} {m m' : Memory} {k chunk : Nat}

theorem length_readBytes (m : Memory) (address length : Nat) :
    (readBytes m address length).length = length := by
  rw [readBytes, List.length_map, List.length_range]

theorem length_gather (place : Nat → Nat) (m : Memory) (k : Nat) :
    (gather place m k).length = k := by
  rw [gather, List.length_map, List.length_range]

/-- A chunk whose bytes stand next to each other is read at once. -/
theorem gather_add (run : ∀ j < chunk, place (k + j) = place k + j) :
    gather place m (k + chunk) = gather place m k ++ readBytes m (place k) chunk := by
  have later : ((List.range chunk).map (k + ·)).map (fun i => m (place i)) =
      readBytes m (place k) chunk := by
    rw [List.map_map]
    refine List.map_congr_left fun j mem => ?_
    rw [Function.comp_apply, run j (List.mem_range.mp mem)]
  rw [gather, List.range_add, List.map_append, later]
  rfl

/-- A further run of bytes is gathered. -/
theorem overwrite_gather (run : ∀ j < chunk, place (k + j) = place k + j) :
    overwrite (gather place m k ++ buffer.drop k) k (readBytes m (place k) chunk) =
      gather place m (k + chunk) ++ buffer.drop (k + chunk) := by
  have upTo : (gather place m k ++ buffer.drop k).take k = gather place m k := by
    rw [List.take_append_of_le_length (length_gather place m k).ge,
      List.take_of_length_le (length_gather place m k).le]
  have from_ : (gather place m k ++ buffer.drop k).drop (k + chunk) = buffer.drop (k + chunk) := by
    rw [List.drop_append, List.drop_of_length_le ((length_gather place m k).le.trans (by omega)),
      List.nil_append, length_gather, List.drop_drop]
    congr 1
    omega
  rw [overwrite, length_readBytes, upTo, from_, gather_add run]

theorem Scattered.refl (place : Nat → Nat) (bytes : List UInt8) (m : Memory) :
    Scattered place bytes 0 m m :=
  ⟨fun i small => absurd small (by omega), fun _ _ => rfl⟩

/-- A further run of bytes is stored. -/
theorem Scattered.writeBytes (scattered : Scattered place bytes k m m')
    (inside : k + chunk ≤ bytes.length) (run : ∀ j < chunk, place (k + j) = place k + j)
    (apart : ∀ i < k, ∀ j < chunk, place i ≠ place (k + j)) :
    Scattered place bytes (k + chunk) m
      (writeBytes m' (place k) ((bytes.drop k).take chunk)) := by
  have length : ((bytes.drop k).take chunk).length = chunk := by
    rw [List.length_take, List.length_drop]
    omega
  have outside : ∀ {x}, (∀ j < chunk, place k + j ≠ x) →
      Lib.Store.writeBytes m' (place k) ((bytes.drop k).take chunk) x = m' x := by
    intro x other
    rw [Lib.Store.writeBytes, if_neg]
    rw [length]
    rintro ⟨from_, below⟩
    exact other (x - place k) (by omega) (by omega)
  refine ⟨fun i small => ?_, fun x other => ?_⟩
  · by_cases old : i < k
    · rw [outside fun j inChunk => run j inChunk ▸ (apart i old j inChunk).symm]
      exact scattered.stored i old
    · obtain ⟨j, rfl⟩ := Nat.exists_eq_add_of_le (Nat.not_lt.mp old)
      have inChunk : j < chunk := by omega
      rw [run j inChunk, Lib.Store.writeBytes, length, if_pos (by omega), Nat.add_sub_cancel_left,
        List.getD_eq_getElem?_getD, List.getElem?_take_of_lt inChunk, List.getElem?_drop,
        List.getElem?_eq_getElem (by omega), Option.getD_some]
  · rw [outside fun j inChunk => run j inChunk ▸ other (k + j) (by omega)]
    exact scattered.kept x fun i small => other i (by omega)

end Lib.Scatter
