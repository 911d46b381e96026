import CloudOS.Initramfs.Archive
import CloudOS.Lib.Fetch
import CloudOS.Lib.Loop
import CloudOS.PhysMem.State

/-!
The parser of the Multiboot2 boot information.

The block lies in memory and says itself how long it is. Memory is partial: a
read at an address that is not there faults, and then the parser has no result.
Addresses stay far below `2 ^ 64`, so the sums of addresses and offsets do not
wrap. Of a text only the bytes in use are kept, of the table of modules the used
entries.
-/

namespace CloudOS.Multiboot

open Lib.Fetch (Memory fetch number number_lt)
open Lib.Loop (Decreases faulting faulting_again)
open Lib.Word (maxWord maxU32 satAdd)
open Initramfs (BootModule maxBootInfoAddress)
open PhysMem (MemoryRegion)

abbrev multiboot2BootloaderMagic : Nat := 0x36d76289
abbrev maxBootInfoSize : Nat := 1024 * 1024
abbrev maxTextLen : Nat := 96
abbrev maxModules : Nat := 4

abbrev tagEnd : Nat := 0
abbrev tagCommandLine : Nat := 1
abbrev tagBootloaderName : Nat := 2
abbrev tagModule : Nat := 3
abbrev tagBasicMemory : Nat := 4
abbrev tagMemoryMap : Nat := 6

/-- `MemorySummary`: what the memory map adds up to, and where it comes from. -/
structure MemorySummary extends PhysMem.MemorySummary where
  hasBasicMemory : Bool := false
  hasMemoryMap : Bool := false
  memLowerKib : Nat := 0
  memUpperKib : Nat := 0
  entrySize : Nat := 0
  entryVersion : Nat := 0

structure BootInfoSummary where
  magic : Nat := 0
  address : Nat := 0
  validMagic : Bool := false
  parsed : Bool := false
  totalSize : Nat := 0
  reserved : Nat := 0
  tagCount : Nat := 0
  hasEndTag : Bool := false
  bootloaderName : List UInt8 := []
  commandLine : List UInt8 := []
  moduleCount : Nat := 0
  highestModuleEnd : Nat := 0
  modules : List BootModule := []
  memory : MemorySummary := {}

/-- `add_module` -/
def BootInfoSummary.addModule (summary : BootInfoSummary) (found : BootModule) : BootInfoSummary :=
  if !found.isValid then summary
  else
    { summary with
      moduleCount := min (summary.moduleCount + 1) maxU32
      highestModuleEnd := max summary.highestModuleEnd found.stop
      modules :=
        if summary.modules.length < maxModules then summary.modules ++ [found]
        else summary.modules }

/-! ### Reading -/

/-- `read_u32` -/
def readU32 (memory : Memory) (address : Nat) : Option (Fin (2 ^ 32)) := do
  let bytes ← fetch memory address 4
  return Fin.ofNat (2 ^ 32) (number bytes)

/-- `read_u64` -/
def readU64 (memory : Memory) (address : Nat) : Option Nat := do
  let bytes ← fetch memory address 8
  return number bytes

/-- A byte as it is kept in a text. -/
def printable (byte : UInt8) : UInt8 := if 0x20 ≤ byte ∧ byte ≤ 0x7e then byte else 0x3f

/-- The loop of `set_from_c_string`, with the number of bytes that it may still read. -/
def copyText (memory : Memory) (address : Nat) : Nat → Option (List UInt8)
  | 0 => some []
  | count + 1 => do
    let byte ← memory address
    if byte = 0 then return []
    else
      let text ← copyText memory (address + 1) count
      return printable byte :: text

/-- `set_from_c_string`: the text that is set. -/
def setFromCString (memory : Memory) (address maxLen : Nat) : Option (List UInt8) :=
  copyText memory address (min maxLen maxTextLen)

/-! ### Tags -/

def parseModule (memory : Memory) (summary : BootInfoSummary) (tagAddress : Nat)
    (tagSize : Fin (2 ^ 32)) : Option BootInfoSummary :=
  if tagSize.val < 17 then some summary
  else do
    let last ← memory (tagAddress + tagSize.val - 1)
    if last ≠ 0 then return summary
    else
      let start ← readU32 memory (tagAddress + 8)
      let stop ← readU32 memory (tagAddress + 12)
      let commandLine ← setFromCString memory (tagAddress + 16) (tagSize.val - 16)
      return summary.addModule ⟨start.val, stop.val, commandLine⟩

def parseBasicMemory (memory : Memory) (summary : BootInfoSummary) (tagAddress : Nat)
    (tagSize : Fin (2 ^ 32)) : Option BootInfoSummary :=
  if tagSize.val < 16 then some summary
  else do
    let lower ← readU32 memory (tagAddress + 8)
    let upper ← readU32 memory (tagAddress + 12)
    return { summary with memory := { summary.memory with
      hasBasicMemory := true, memLowerKib := lower.val, memUpperKib := upper.val } }

/-- One round of the loop of `parse_memory_map`, at an offset into the entries. -/
def mapRound (memory : Memory) (entriesStart entriesLen entrySize : Nat)
    (s : Nat × PhysMem.MemorySummary) :
    Option (PhysMem.MemorySummary ⊕ (Nat × PhysMem.MemorySummary)) :=
  if s.1 + 24 ≤ entriesLen then do
    let entryAddress := entriesStart + s.1
    let baseAddr ← readU64 memory entryAddress
    let length ← readU64 memory (entryAddress + 8)
    let regionType ← readU32 memory (entryAddress + 16)
    return .inr (satAdd s.1 entrySize, s.2.addRegion ⟨baseAddr, length, regionType.val⟩)
  else return .inl s.2

/-- The entries go forward, by at least 24 bytes each. -/
theorem mapRound_decreases (memory : Memory) (entriesStart : Nat) {entriesLen entrySize : Nat}
    (wide : 24 ≤ entrySize) (word : entriesLen ≤ maxWord) :
    Decreases (faulting (mapRound memory entriesStart entriesLen entrySize))
      fun s => entriesLen - s.1 := by
  intro s next again
  rw [faulting_again, mapRound] at again
  split at again
  · rename_i more
    simp only [Option.bind_eq_bind, Option.bind_eq_some_iff] at again
    obtain ⟨baseAddr, -, length, -, regionType, -, eq⟩ := again
    cases eq
    simp only [satAdd, maxWord] at word ⊢
    omega
  · cases again

/-- The loop of `parse_memory_map`. -/
def mapLoop (memory : Memory) (entriesStart entriesLen entrySize : Nat) (wide : 24 ≤ entrySize)
    (word : entriesLen ≤ maxWord) (summary : PhysMem.MemorySummary) :
    Option PhysMem.MemorySummary :=
  Lib.Loop.value (mapRound_decreases memory entriesStart wide word) (0, summary)

def parseMemoryMap (memory : Memory) (summary : BootInfoSummary) (tagAddress : Nat)
    (tagSize : Fin (2 ^ 32)) : Option BootInfoSummary :=
  if tagSize.val < 16 then some summary
  else do
    let entrySize ← readU32 memory (tagAddress + 8)
    let entryVersion ← readU32 memory (tagAddress + 12)
    if narrow : entrySize.val < 24 then return summary
    else
      let regions ← mapLoop memory (tagAddress + 16) (tagSize.val - 16) entrySize.val
        (not_lt.mp narrow) (by simp only [maxWord]; omega) summary.memory.toMemorySummary
      return { summary with memory := { summary.memory with
        toMemorySummary := regions
        hasMemoryMap := true
        entrySize := entrySize.val
        entryVersion := entryVersion.val } }

/-- The `match` of `parse` on the type of a tag that is not the end tag. -/
def parseTag (memory : Memory) (summary : BootInfoSummary) (tagAddress : Nat)
    (tagType tagSize : Fin (2 ^ 32)) : Option BootInfoSummary :=
  if tagType.val = tagCommandLine then do
    let text ← setFromCString memory (tagAddress + 8) (tagSize.val - 8)
    return { summary with commandLine := text }
  else if tagType.val = tagBootloaderName then do
    let text ← setFromCString memory (tagAddress + 8) (tagSize.val - 8)
    return { summary with bootloaderName := text }
  else if tagType.val = tagModule then parseModule memory summary tagAddress tagSize
  else if tagType.val = tagBasicMemory then parseBasicMemory memory summary tagAddress tagSize
  else if tagType.val = tagMemoryMap then parseMemoryMap memory summary tagAddress tagSize
  else some summary

/-- `align_up` -/
def alignUp (value alignment : Nat) : Nat :=
  (value + alignment - 1) &&& (maxWord ^^^ (alignment - 1))

/-- One round of the loop of `parse`, at an offset into the block. -/
def tagRound (memory : Memory) (address totalSize : Nat) (s : Nat × BootInfoSummary) :
    Option (BootInfoSummary ⊕ (Nat × BootInfoSummary)) :=
  if s.1 + 8 ≤ totalSize then do
    let tagAddress := address + s.1
    let tagType ← readU32 memory tagAddress
    let tagSize ← readU32 memory (tagAddress + 4)
    if tagSize.val < 8 then return .inl s.2
    else if satAdd s.1 tagSize.val > totalSize ∨ satAdd s.1 tagSize.val < s.1 then return .inl s.2
    else
      let summary := { s.2 with tagCount := s.2.tagCount + 1 }
      if tagType.val = tagEnd then return .inl { summary with hasEndTag := tagSize.val == 8 }
      else
        let summary ← parseTag memory summary tagAddress tagType tagSize
        let nextOffset := alignUp (satAdd s.1 tagSize.val) 8
        if nextOffset ≤ s.1 then return .inl summary else return .inr (nextOffset, summary)
  else return .inl s.2

/-- Every round leaves less of the block. -/
theorem tagRound_decreases (memory : Memory) (address totalSize : Nat) :
    Decreases (faulting (tagRound memory address totalSize)) fun s => totalSize - s.1 := by
  intro s next again
  rw [faulting_again, tagRound] at again
  split at again
  · rename_i more
    simp only [Option.bind_eq_bind, Option.bind_eq_some_iff] at again
    obtain ⟨tagType, -, tagSize, -, again⟩ := again
    split at again
    · cases again
    split at again
    · cases again
    split at again
    · cases again
    obtain ⟨summary, -, again⟩ := Option.bind_eq_some_iff.mp again
    split at again
    · cases again
    · rename_i forward
      cases again
      simp only at forward ⊢
      omega
  · cases again

/-- The loop of `parse`. -/
def tagLoop (memory : Memory) (address totalSize : Nat) (summary : BootInfoSummary) :
    Option BootInfoSummary :=
  Lib.Loop.value (tagRound_decreases memory address totalSize) (8, summary)

def parse (memory : Memory) (magic address : Nat) : Option BootInfoSummary :=
  let summary : BootInfoSummary :=
    { magic, address, validMagic := magic == multiboot2BootloaderMagic }
  if summary.validMagic = false ∨ address = 0 ∨ address ≥ maxBootInfoAddress then some summary
  else do
    let totalSize ← readU32 memory address
    let reserved ← readU32 memory (address + 4)
    let summary := { summary with totalSize := totalSize.val, reserved := reserved.val }
    if ¬ (16 ≤ totalSize.val ∧ totalSize.val ≤ maxBootInfoSize) then return summary
    else if satAdd address totalSize.val ≥ maxBootInfoAddress then return summary
    else
      let summary ← tagLoop memory address totalSize.val summary
      return { summary with parsed := summary.hasEndTag }

end CloudOS.Multiboot
