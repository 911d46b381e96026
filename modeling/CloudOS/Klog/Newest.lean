import CloudOS.Klog.State

/-!
The log is the end of the list of everything that was appended.

Entry by entry, what is read from the oldest one on are the last 128 records since
`init`, whatever the ring held before.
-/

namespace CloudOS.Klog

open Lib.RingBuffer (cell Keeps)
open Lib.Shift (front slice front_set_end slice_of_le)
open Lib.Word (maxWord satAdd satAdd_of_le)

/-! ### Bytes -/

/-- The induction is on what is left to copy; the front of the destination grows by what still
fits. -/
theorem copySanitizedFrom_spec {n : Nat} (source : List UInt8) :
    ∀ {len : Nat} (destination : Vector UInt8 n), len ≤ n →
      (copySanitizedFrom len source destination).1 ≤ n ∧
      front (copySanitizedFrom len source destination).2
          (copySanitizedFrom len source destination).1 =
        front destination len ++ sanitized (n - len) source := by
  induction source with
  | nil =>
      intro len destination within
      simp [copySanitizedFrom, sanitized, within]
  | cons byte source ih =>
      intro len destination within
      rw [copySanitizedFrom]
      split
      · rename_i room
        obtain ⟨fits, holds⟩ := ih (destination.set len (sanitizeByte byte)) room
        have left : n - len = n - (len + 1) + 1 := by omega
        refine ⟨fits, ?_⟩
        rw [holds, front_set_end _ _ room, left]
        simp [sanitized]
      · rename_i full
        have left : n - len = 0 := by omega
        simp [sanitized, left, within]

/-- The destination begins with the sanitized text. -/
theorem copySanitized_spec {n : Nat} (source : List UInt8) (destination : Vector UInt8 n) :
    (copySanitized source destination).1 ≤ n ∧
      front (copySanitized source destination).2 (copySanitized source destination).1 =
        sanitized n source := by
  simpa [copySanitized] using copySanitizedFrom_spec source destination (Nat.zero_le n)

/-! ### Entries -/

/-- What a caller appends, and when. -/
structure Record where
  ticks : Nat
  tag : List UInt8
  message : List UInt8
deriving DecidableEq, Repr

/-- The entry holds the record, as far as there is room for it. -/
structure Entry.Holds (entry : Entry) (sequence : Nat) (record : Record) : Prop where
  sequence : entry.sequence = sequence
  tick : entry.tick = record.ticks
  tag : entry.tag = some (sanitized tagCapacity record.tag)
  message : entry.message = some (sanitized messageCapacity record.message)

/-- The lengths are small enough for a byte. -/
theorem slice_copySanitized {n : Nat} (small : n < 256) (source : List UInt8)
    (destination : Vector UInt8 n) :
    slice (copySanitized source destination).2
        (UInt8.ofNat (copySanitized source destination).1).toNat =
      some (sanitized n source) := by
  obtain ⟨fits, holds⟩ := copySanitized_spec source destination
  have length : (UInt8.ofNat (copySanitized source destination).1).toNat =
      (copySanitized source destination).1 := by
    rw [UInt8.toNat_ofNat', Nat.mod_eq_of_lt]
    exact fits.trans_lt small
  rw [length, slice_of_le fits, holds]

/-- `append` writes the record it is given. -/
theorem LogRing.newEntry_holds (ring : LogRing) (record : Record) :
    (ring.newEntry record.ticks record.tag record.message).Holds ring.nextSequence record := by
  constructor
  · rfl
  · rfl
  · exact slice_copySanitized (by decide) record.tag Entry.empty.tagBytes
  · exact slice_copySanitized (by decide) record.message Entry.empty.messageBytes

/-! ### The ring -/

namespace LogRing

/-- One call of `append` after the other. -/
def appendAll (ring : LogRing) (records : List Record) : LogRing :=
  records.foldl (fun ring record => ring.append record.ticks record.tag record.message) ring

theorem appendAll_concat (ring : LogRing) (records : List Record) (record : Record) :
    ring.appendAll (records ++ [record]) =
      (ring.appendAll records).append record.ticks record.tag record.message := by
  simp [appendAll]

/-- The entries that `records` became. -/
structure Logged (ring : LogRing) (records : List Record) (entries : List Entry) : Prop where
  length : entries.length = records.length
  holds : ∀ (i : Nat) (entry : Entry) (record : Record), entries[i]? = some entry →
    records[i]? = some record → entry.Holds i record
  keeps : Keeps ring.entries entries
  writeIndex : ring.writeIndex = cell entryCount records.length
  count : ring.count = min records.length entryCount
  dropped : ring.dropped = records.length - entryCount
  nextSequence : ring.nextSequence = records.length

theorem Logged.init (ring : LogRing) : ring.init.Logged [] [] where
  length := rfl
  holds := by simp
  keeps := Keeps.nil _
  writeIndex := rfl
  count := rfl
  dropped := rfl
  nextSequence := rfl

/-- One more record, in the cell behind the last one. -/
theorem Logged.append {ring : LogRing} {records : List Record} {entries : List Entry}
    (logged : ring.Logged records entries) (record : Record) (few : records.length < maxWord) :
    (ring.append record.ticks record.tag record.message).Logged (records ++ [record])
      (entries ++ [ring.newEntry record.ticks record.tag record.message]) := by
  have written : ring.writeIndex = cell entryCount entries.length := by
    rw [logged.length]
    exact logged.writeIndex
  constructor
  · simp [logged.length]
  · intro i entry record' inEntries inRecords
    rw [List.getElem?_append] at inEntries inRecords
    rw [logged.length] at inEntries
    by_cases old : i < records.length
    · rw [if_pos old] at inEntries inRecords
      exact logged.holds i entry record' inEntries inRecords
    · rw [if_neg old, List.getElem?_singleton] at inEntries inRecords
      split at inEntries
      · rename_i last
        have position : i = ring.nextSequence := by
          rw [logged.nextSequence]
          omega
        rw [if_pos last] at inRecords
        cases inEntries
        cases inRecords
        rw [position]
        exact ring.newEntry_holds record
      · cases inEntries
  · have pushed := logged.keeps.push (ring.newEntry record.ticks record.tag record.message)
    rw [← written] at pushed
    exact pushed
  · rw [List.length_append]
    simp only [LogRing.append, written, logged.length]
    apply Fin.ext
    simp [cell, Fin.ofNat]
  · simp only [LogRing.append, logged.count, List.length_append, List.length_singleton]
    split <;> omega
  · simp only [LogRing.append, logged.count, logged.dropped, List.length_append,
      List.length_singleton]
    split
    · omega
    · rw [satAdd_of_le (by omega)]
      omega
  · simp only [LogRing.append, logged.nextSequence, List.length_append, List.length_singleton]
    exact satAdd_of_le few

/-- What holds after every call of `append` holds after all of them. -/
theorem appendAll_logged (ring : LogRing) {records : List Record}
    (few : records.length < maxWord) :
    ∃ entries, (ring.init.appendAll records).Logged records entries := by
  induction records using List.reverseRecOn with
  | nil => exact ⟨[], Logged.init ring⟩
  | append_singleton records record ih =>
      rw [List.length_append, List.length_singleton] at few
      obtain ⟨entries, logged⟩ := ih (by omega)
      rw [appendAll_concat]
      exact ⟨_, logged.append record (by omega)⟩

/-- Read from the oldest one on, the ring is the end of the list of entries. -/
theorem Logged.entry {ring : LogRing} {records : List Record} {entries : List Entry}
    (logged : ring.Logged records entries) {i : Nat} (inside : i < ring.count) :
    ring.entry i = entries[ring.dropped + i]? := by
  have within := inside
  rw [logged.count, ← logged.length] at within
  have oldest : (if ring.count < entryCount then 0 else (ring.writeIndex : Nat)) =
      if entries.length < entryCount then 0 else (cell entryCount entries.length : Nat) := by
    rw [logged.count, logged.writeIndex, logged.length]
    by_cases room : records.length < entryCount
    · rw [if_pos room, if_pos (by omega)]
    · rw [if_neg room, if_neg (by omega)]
  unfold LogRing.entry
  rw [if_neg (Nat.not_le.mpr inside), oldest, logged.dropped, ← logged.length]
  exact logged.keeps.recent within

end LogRing

/-- After `init`, the log holds the last 128 records in order, and every byte of them
is printable. -/
theorem log_keeps_newest (ring : LogRing) (records : List Record)
    (few : records.length < maxWord) :
    let log := ring.init.appendAll records
    log.count = min records.length entryCount ∧
    log.dropped = records.length - log.count ∧
    (∀ i, log.count ≤ i → log.entry i = none) ∧
    (∀ i < log.count, ∃ entry record, log.entry i = some entry ∧
      records[log.dropped + i]? = some record ∧
      entry.Holds (log.nextSequence - log.count + i) record) ∧
    ∀ byte, 0x20 ≤ sanitizeByte byte ∧ sanitizeByte byte ≤ 0x7e := by
  intro log
  obtain ⟨entries, logged⟩ := ring.appendAll_logged few
  have count : log.count = min records.length entryCount := logged.count
  have dropped : log.dropped = records.length - entryCount := logged.dropped
  refine ⟨count, ?_, ?_, ?_, sanitizeByte_printable⟩
  · omega
  · intro i outside
    exact if_pos outside
  · intro i inside
    have position : log.dropped + i < records.length := by omega
    have sequence : log.nextSequence - log.count + i = log.dropped + i := by
      have next : log.nextSequence = records.length := logged.nextSequence
      omega
    have inEntries : log.dropped + i < entries.length := by
      rw [logged.length]
      exact position
    refine ⟨entries[log.dropped + i], records[log.dropped + i], ?_, ?_, ?_⟩
    · exact (logged.entry inside).trans (List.getElem?_eq_getElem inEntries)
    · exact List.getElem?_eq_getElem position
    · rw [sequence]
      exact logged.holds _ _ _ (List.getElem?_eq_getElem inEntries)
        (List.getElem?_eq_getElem position)

/-- More records than the ring has room for. -/
def manyRecords : List Record := (List.range 130).map fun k => ⟨k, [0x74], [0x0a, 0x41]⟩

theorem log_keeps_newest_manyRecords :
    (LogRing.new.init.appendAll manyRecords).count = 128 ∧
      (LogRing.new.init.appendAll manyRecords).dropped = 2 ∧
      (LogRing.new.init.appendAll manyRecords).entry 128 = none := by
  have length : manyRecords.length = 130 := by simp [manyRecords]
  obtain ⟨count, dropped, outside, -⟩ := log_keeps_newest LogRing.new manyRecords
    (by rw [length]; decide)
  rw [length] at count
  refine ⟨count, ?_, outside 128 count.le⟩
  rw [dropped, count, length]
  rfl

end CloudOS.Klog
