import CloudOS.Lib.RingBuffer
import CloudOS.Lib.Shift
import CloudOS.Lib.Word

/-!
The kernel log of `src/klog.rs`: a ring of entries with a tag and a message of bounded
length.

An array of bytes with its length is a list held at the front of a vector. The time of
an entry is read from the timer and comes in as an argument.
-/

namespace CloudOS.Klog

open Lib.RingBuffer (cell)
open Lib.Shift (slice)
open Lib.Word (satAdd)

abbrev entryCount : Nat := 128
abbrev tagCapacity : Nat := 12
abbrev messageCapacity : Nat := 80

/-! ### Bytes -/

/-- Line ends and tabs become spaces, what cannot be printed a dot. -/
def sanitizeByte (byte : UInt8) : UInt8 :=
  if byte == '\r'.toUInt8 || byte == '\n'.toUInt8 || byte == '\t'.toUInt8 then ' '.toUInt8
  else if 0x20 ≤ byte && byte ≤ 0x7e then byte
  else '.'.toUInt8

/-- Every byte of the log can be printed. -/
theorem sanitizeByte_printable : ∀ byte : UInt8,
    0x20 ≤ sanitizeByte byte ∧ sanitizeByte byte ≤ 0x7e := by
  decide +kernel

theorem sanitizeByte_of_printable :
    ∀ byte : UInt8, 0x20 ≤ byte ∧ byte ≤ 0x7e → sanitizeByte byte = byte := by
  decide +kernel

/-- The bytes that are kept of a text. -/
def sanitized (capacity : Nat) (text : List UInt8) : List UInt8 :=
  (text.take capacity).map sanitizeByte

/-- A printable text that fits loses nothing. -/
theorem sanitized_of_printable {capacity : Nat} {text : List UInt8}
    (printable : ∀ byte ∈ text, 0x20 ≤ byte ∧ byte ≤ 0x7e) (fits : text.length ≤ capacity) :
    sanitized capacity text = text := by
  rw [sanitized, List.take_of_length_le fits]
  calc text.map sanitizeByte = text.map id :=
        List.map_congr_left fun byte mem => sanitizeByte_of_printable byte (printable byte mem)
    _ = text := List.map_id text

/-- The loop of `copy_sanitized`, with `len` bytes copied. -/
def copySanitizedFrom {n : Nat} (len : Nat) :
    List UInt8 → Vector UInt8 n → Nat × Vector UInt8 n
  | [], destination => (len, destination)
  | byte :: source, destination =>
      if room : len < n then
        copySanitizedFrom (len + 1) source (destination.set len (sanitizeByte byte))
      else (len, destination)

def copySanitized {n : Nat} (source : List UInt8) (destination : Vector UInt8 n) :
    Nat × Vector UInt8 n :=
  copySanitizedFrom 0 source destination

/-! ### Entries -/

structure Entry where
  sequence : Nat
  tick : Nat
  tagBytes : Vector UInt8 tagCapacity
  tagLen : UInt8
  messageBytes : Vector UInt8 messageCapacity
  messageLen : UInt8

namespace Entry

def empty : Entry where
  sequence := 0
  tick := 0
  tagBytes := .replicate _ 0
  tagLen := 0
  messageBytes := .replicate _ 0
  messageLen := 0

/-- `tag`, which stops the kernel if the length is out of range. -/
def tag (self : Entry) : Option (List UInt8) := slice self.tagBytes self.tagLen.toNat

def message (self : Entry) : Option (List UInt8) := slice self.messageBytes self.messageLen.toNat

end Entry

/-! ### The ring -/

structure LogRing where
  initialized : Bool
  entries : Fin entryCount → Entry
  writeIndex : Fin entryCount
  count : Nat
  dropped : Nat
  nextSequence : Nat

namespace LogRing

def new : LogRing where
  initialized := false
  entries := fun _ => Entry.empty
  writeIndex := 0
  count := 0
  dropped := 0
  nextSequence := 0

/-- The entries stay where they are. -/
def init (self : LogRing) : LogRing :=
  { self with
    writeIndex := 0
    count := 0
    dropped := 0
    nextSequence := 0
    initialized := true }

/-- The entry that `append` writes. -/
def newEntry (self : LogRing) (ticks : Nat) (tag message : List UInt8) : Entry :=
  let (tagLen, tagBytes) := copySanitized tag Entry.empty.tagBytes
  let (messageLen, messageBytes) := copySanitized message Entry.empty.messageBytes
  { sequence := self.nextSequence
    tick := ticks
    tagBytes
    tagLen := UInt8.ofNat tagLen
    messageBytes
    messageLen := UInt8.ofNat messageLen }

def append (self : LogRing) (ticks : Nat) (tag message : List UInt8) : LogRing where
  initialized := true
  entries := Function.update self.entries self.writeIndex (self.newEntry ticks tag message)
  writeIndex := cell entryCount (self.writeIndex + 1)
  nextSequence := satAdd self.nextSequence 1
  count := if self.count < entryCount then self.count + 1 else self.count
  dropped := if self.count < entryCount then self.dropped else satAdd self.dropped 1

def entry (self : LogRing) (indexFromOldest : Nat) : Option Entry :=
  if indexFromOldest ≥ self.count then none
  else
    let oldest := if self.count < entryCount then 0 else (self.writeIndex : Nat)
    some (self.entries (cell entryCount (oldest + indexFromOldest)))

end LogRing

end CloudOS.Klog
