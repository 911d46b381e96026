import CloudOS.Multiboot.Parse

/-!
The tags of a boot information block.

A block is a list of bytes. Its tags follow each other at multiples of eight, up
to the first one that does not fit or that ends the list (`walk`). What the parser
reads from memory is what the tags of the block say (`parse_of_accepted`), as long
as the memory holds the block: no other byte is read.
-/

namespace CloudOS.Multiboot

open Lib.Fetch (Memory Holds field field_lt)
open Lib.Loop (faulting faulting_leave faulting_again value_of_leave value_of_again)
open Lib.Slice (slice)
open Lib.Word (maxWord satAdd satAdd_of_le)
open Initramfs (BootModule maxBootInfoAddress)
open PhysMem (MemoryRegion)

/-! ### What a block says -/

/-- A tag of a block. -/
structure Tag where
  start : Nat
  kind : Nat
  size : Nat
  deriving DecidableEq, Repr

/-- The next multiple of eight. -/
def roundUp (offset : Nat) : Nat := (offset + 7) / 8 * 8

theorem le_roundUp (offset : Nat) : offset ≤ roundUp offset := by
  simp only [roundUp]
  omega

/-- The tag with its header at an offset. -/
def tagAt (block : List UInt8) (offset : Nat) : Tag :=
  ⟨offset, field block offset 4, field block (offset + 4) 4⟩

/-- The tag has room for its header and lies within the block. -/
def Tag.Fits (block : List UInt8) (tag : Tag) : Prop :=
  8 ≤ tag.size ∧ tag.start + tag.size ≤ block.length

instance (block : List UInt8) (tag : Tag) : Decidable (tag.Fits block) :=
  inferInstanceAs (Decidable (_ ∧ _))

/-- The tags of a block from an offset on. -/
def walk (block : List UInt8) (offset : Nat) : List Tag :=
  if (tagAt block offset).Fits block then
    tagAt block offset ::
      if (tagAt block offset).kind = tagEnd then []
      else walk block (roundUp (offset + (tagAt block offset).size))
  else []
termination_by block.length - offset
decreasing_by
  rename_i fits _
  have wide := fits.1
  have inside := fits.2
  have forward := le_roundUp (offset + (tagAt block offset).size)
  simp only [tagAt] at wide inside forward ⊢
  omega

/-- The text of a field of the block. -/
def text (block : List UInt8) (offset maxLen : Nat) : List UInt8 :=
  ((slice block offset (offset + min maxLen maxTextLen)).takeWhile (· != 0)).map printable

/-- The memory region that an entry describes. -/
def regionAt (block : List UInt8) (offset : Nat) : MemoryRegion :=
  ⟨field block offset 8, field block (offset + 8) 8, field block (offset + 16) 4⟩

/-- How many entries begin 24 bytes or more before the end. -/
def entriesIn (length entrySize : Nat) : Nat := (length + entrySize - 24) / entrySize

namespace Tag

variable (block : List UInt8) (tag : Tag)

/-- The size of the entries of a memory map. -/
def entrySize : Nat := field block (tag.start + 8) 4

/-- The tag is a memory map with entries of 24 bytes or more. -/
def IsMap : Prop := tag.kind = tagMemoryMap ∧ 16 ≤ tag.size ∧ 24 ≤ tag.entrySize block

instance : Decidable (tag.IsMap block) := inferInstanceAs (Decidable (_ ∧ _ ∧ _))

/-- The regions that a memory map lists. -/
def regions : List MemoryRegion :=
  if tag.IsMap block then
    (List.range (entriesIn (tag.size - 16) (tag.entrySize block))).map fun k =>
      regionAt block (tag.start + 16 + k * tag.entrySize block)
  else []

/-- The module that a tag describes, if its text is ended by a zero. -/
def bootModule : Option BootModule :=
  if tag.kind = tagModule ∧ 17 ≤ tag.size ∧ block[tag.start + tag.size - 1]? = some 0 then
    some ⟨field block (tag.start + 8) 4, field block (tag.start + 12) 4,
      text block (tag.start + 16) (tag.size - 16)⟩
  else none

/-- What a tag adds to the summary. -/
def content (summary : BootInfoSummary) : BootInfoSummary :=
  if tag.kind = tagCommandLine then
    { summary with commandLine := text block (tag.start + 8) (tag.size - 8) }
  else if tag.kind = tagBootloaderName then
    { summary with bootloaderName := text block (tag.start + 8) (tag.size - 8) }
  else if tag.kind = tagModule then (tag.bootModule block).elim summary summary.addModule
  else if tag.kind = tagBasicMemory then
    if tag.size < 16 then summary
    else { summary with memory := { summary.memory with
      hasBasicMemory := true
      memLowerKib := field block (tag.start + 8) 4
      memUpperKib := field block (tag.start + 12) 4 } }
  else if tag.IsMap block then
    { summary with memory := { summary.memory with
      toMemorySummary := (tag.regions block).foldl PhysMem.MemorySummary.addRegion
        summary.memory.toMemorySummary
      hasMemoryMap := true
      entrySize := tag.entrySize block
      entryVersion := field block (tag.start + 12) 4 } }
  else summary

/-- What a tag does to the summary. -/
def apply (summary : BootInfoSummary) : BootInfoSummary :=
  if tag.kind = tagEnd then
    { summary with tagCount := summary.tagCount + 1, hasEndTag := tag.size == 8 }
  else tag.content block { summary with tagCount := summary.tagCount + 1 }

end Tag

/-! ### Reading a block -/

section Reading

variable {memory : Memory} {address offset : Nat} {block : List UInt8}

theorem readU32_eq (holds : Holds memory address block) (inside : offset + 4 ≤ block.length) :
    readU32 memory (address + offset) = some ⟨field block offset 4, field_lt block offset 4⟩ := by
  rw [readU32, holds.fetch inside]
  simp only [Option.bind_eq_bind, Option.bind_some, Option.pure_def, Option.some.injEq]
  exact Fin.ext (Nat.mod_eq_of_lt (field_lt block offset 4))

theorem readU64_eq (holds : Holds memory address block) (inside : offset + 8 ≤ block.length) :
    readU64 memory (address + offset) = some (field block offset 8) := by
  rw [readU64, holds.fetch inside]
  rfl

/-- By induction over the bytes: the text ends at a zero or with the tag. -/
theorem copyText_eq (holds : Holds memory address block) :
    ∀ {count offset : Nat}, offset + count ≤ block.length →
      copyText memory (address + offset) count =
        some (((slice block offset (offset + count)).takeWhile (· != 0)).map printable) := by
  intro count
  induction count with
  | zero =>
    intro offset inside
    simp [copyText, slice]
  | succ count ih =>
    intro offset inside
    have rest := ih (show offset + 1 + count ≤ block.length by omega)
    have first : block.drop offset = block[offset] :: block.drop (offset + 1) :=
      List.drop_eq_getElem_cons (by omega)
    rw [copyText, holds.byte (by omega), Nat.add_assoc address, rest]
    simp only [slice, first, Nat.add_sub_cancel_left, List.take_succ_cons, List.takeWhile_cons,
      Option.bind_eq_bind, Option.bind_some]
    by_cases ends : block[offset] = 0
    · simp [ends]
    · simp [ends]

theorem setFromCString_eq (holds : Holds memory address block) {maxLen : Nat}
    (inside : offset + maxLen ≤ block.length) :
    setFromCString memory (address + offset) maxLen = some (text block offset maxLen) :=
  copyText_eq holds (by omega)

theorem entriesIn_spec {length entrySize k : Nat} (wide : 24 ≤ entrySize) :
    k < entriesIn length entrySize ↔ k * entrySize + 24 ≤ length := by
  rw [entriesIn, ← Nat.succ_le_iff, Nat.le_div_iff_mul_le (by omega), Nat.succ_mul]
  omega

/-- The loop reads the entries that lie within the tag. -/
theorem mapLoop_eq (holds : Holds memory address block) {start length entrySize : Nat}
    (inside : start + length ≤ block.length) (wide : 24 ≤ entrySize) (word : length ≤ maxWord)
    (small : length + entrySize ≤ maxWord) (summary : PhysMem.MemorySummary) :
    mapLoop memory (address + start) length entrySize wide word summary =
      some (((List.range (entriesIn length entrySize)).map fun k =>
        regionAt block (start + k * entrySize)).foldl PhysMem.MemorySummary.addRegion summary) := by
  suffices loop : ∀ rounds k summary, k + rounds = entriesIn length entrySize →
      Lib.Loop.value (mapRound_decreases memory (address + start) wide word)
          (k * entrySize, summary) =
        some (((List.range' k rounds).map fun k => regionAt block (start + k * entrySize)).foldl
          PhysMem.MemorySummary.addRegion summary) by
    rw [List.range_eq_range', ← loop _ 0 summary (Nat.zero_add _), Nat.zero_mul]
    rfl
  intro rounds
  induction rounds with
  | zero =>
    intro k summary all
    have done : ¬ k * entrySize + 24 ≤ length := by
      rw [← entriesIn_spec wide]
      omega
    exact value_of_leave _ (faulting_leave (if_neg done))
  | succ rounds ih =>
    intro k summary all
    have more : k * entrySize + 24 ≤ length := (entriesIn_spec wide).mp (by omega)
    have goes : mapRound memory (address + start) length entrySize (k * entrySize, summary) =
        some (.inr ((k + 1) * entrySize,
          summary.addRegion (regionAt block (start + k * entrySize)))) := by
      have forward : satAdd (k * entrySize) entrySize = (k + 1) * entrySize := by
        rw [satAdd_of_le (by omega), Nat.succ_mul]
      rw [mapRound, if_pos more]
      simp only [Nat.add_assoc address, forward]
      rw [readU64_eq holds (by omega), readU64_eq holds (by omega), readU32_eq holds (by omega)]
      rfl
    rw [value_of_again _ (faulting_again.mpr goes), ih (k + 1) _ (by omega), List.range'_succ]
    rfl

/-! ### The loops -/

variable {tag : Tag}

/-- A module tag adds the module it describes. -/
theorem parseModule_eq (holds : Holds memory address block) (fits : tag.Fits block)
    (kind : tag.kind = tagModule) (summary : BootInfoSummary) (size : Fin (2 ^ 32))
    (same : size.val = tag.size) :
    parseModule memory summary (address + tag.start) size =
      some ((tag.bootModule block).elim summary summary.addModule) := by
  have inside := fits.2
  rw [parseModule, Tag.bootModule, same]
  by_cases short : tag.size < 17
  · rw [if_pos short, if_neg (by omega)]
    rfl
  · have last : memory (address + tag.start + tag.size - 1) =
        some block[tag.start + tag.size - 1] := by
      rw [Nat.add_assoc, Nat.add_sub_assoc (by omega)]
      exact holds.byte (by omega)
    rw [if_neg short, last, List.getElem?_eq_getElem (by omega), Option.bind_eq_bind,
      Option.bind_some]
    by_cases ended : block[tag.start + tag.size - 1] = 0
    · rw [if_neg (not_not.mpr ended), if_pos ⟨kind, by omega, by rw [ended]⟩]
      simp only [Nat.add_assoc address]
      rw [readU32_eq holds (by omega), readU32_eq holds (by omega),
        setFromCString_eq holds (by omega)]
      rfl
    · rw [if_pos ended, if_neg fun all => ended (Option.some.inj all.2.2)]
      rfl

theorem parseBasicMemory_eq (holds : Holds memory address block) (fits : tag.Fits block)
    (summary : BootInfoSummary) (size : Fin (2 ^ 32)) (same : size.val = tag.size) :
    parseBasicMemory memory summary (address + tag.start) size =
      some (if tag.size < 16 then summary
        else { summary with memory := { summary.memory with
          hasBasicMemory := true
          memLowerKib := field block (tag.start + 8) 4
          memUpperKib := field block (tag.start + 12) 4 } }) := by
  have inside := fits.2
  rw [parseBasicMemory, same]
  by_cases short : tag.size < 16
  · rw [if_pos short, if_pos short]
  · rw [if_neg short, if_neg short]
    simp only [Nat.add_assoc address]
    rw [readU32_eq holds (by omega), readU32_eq holds (by omega)]
    rfl

/-- A memory map adds the regions of its entries. -/
theorem parseMemoryMap_eq (holds : Holds memory address block) (fits : tag.Fits block)
    (kind : tag.kind = tagMemoryMap) (summary : BootInfoSummary) (size : Fin (2 ^ 32))
    (same : size.val = tag.size) :
    parseMemoryMap memory summary (address + tag.start) size =
      some (if tag.IsMap block then
        { summary with memory := { summary.memory with
          toMemorySummary := (tag.regions block).foldl PhysMem.MemorySummary.addRegion
            summary.memory.toMemorySummary
          hasMemoryMap := true
          entrySize := tag.entrySize block
          entryVersion := field block (tag.start + 12) 4 } }
      else summary) := by
  have inside := fits.2
  have bound := size.isLt
  have small : tag.entrySize block < 2 ^ 32 := field_lt block (tag.start + 8) 4
  rw [parseMemoryMap]
  by_cases short : tag.size < 16
  · rw [if_pos (same ▸ short), if_neg fun map : tag.IsMap block => by
      have long := map.2.1
      omega]
  · rw [if_neg (same ▸ short)]
    simp only [Nat.add_assoc address]
    rw [readU32_eq holds (by omega), readU32_eq holds (by omega)]
    simp only [Option.bind_eq_bind, Option.bind_some]
    by_cases narrow : field block (tag.start + 8) 4 < 24
    · rw [dif_pos narrow, if_neg fun map : tag.IsMap block => by
        have wide : 24 ≤ field block (tag.start + 8) 4 := map.2.2
        omega]
      rfl
    · have map : tag.IsMap block := ⟨kind, by omega, not_lt.mp narrow⟩
      rw [dif_neg narrow, mapLoop_eq holds (by omega) _ _
        (by simp only [Tag.entrySize] at small; simp only [maxWord]; omega), if_pos map,
        Tag.regions, if_pos map]
      simp only [Option.bind_some, same]
      rfl

/-- Each kind of tag adds its content. -/
theorem parseTag_eq (holds : Holds memory address block) (fits : tag.Fits block)
    (summary : BootInfoSummary) (kind size : Fin (2 ^ 32)) (type : kind.val = tag.kind)
    (same : size.val = tag.size) :
    parseTag memory summary (address + tag.start) kind size = some (tag.content block summary) := by
  have wide := fits.1
  have inside := fits.2
  rw [parseTag, Tag.content, type, same]
  by_cases commandLine : tag.kind = tagCommandLine
  · rw [if_pos commandLine, if_pos commandLine, Nat.add_assoc, setFromCString_eq holds (by omega)]
    rfl
  rw [if_neg commandLine, if_neg commandLine]
  by_cases bootloaderName : tag.kind = tagBootloaderName
  · rw [if_pos bootloaderName, if_pos bootloaderName, Nat.add_assoc,
      setFromCString_eq holds (by omega)]
    rfl
  rw [if_neg bootloaderName, if_neg bootloaderName]
  by_cases isModule : tag.kind = tagModule
  · rw [if_pos isModule, if_pos isModule, parseModule_eq holds fits isModule summary size same]
  rw [if_neg isModule, if_neg isModule]
  by_cases basicMemory : tag.kind = tagBasicMemory
  · rw [if_pos basicMemory, if_pos basicMemory, parseBasicMemory_eq holds fits summary size same]
  rw [if_neg basicMemory, if_neg basicMemory]
  by_cases memoryMap : tag.kind = tagMemoryMap
  · rw [if_pos memoryMap, parseMemoryMap_eq holds fits memoryMap summary size same]
  · rw [if_neg memoryMap, if_neg fun map : tag.IsMap block => memoryMap map.1]

/-- `align_up` to eight. -/
theorem alignUp_eight {offset : Nat} (fits : offset + 7 ≤ maxWord) :
    alignUp offset 8 = roundUp offset :=
  Lib.Word.and_not_low_mask (k := 3) fits

/-- One tag. -/
theorem tagRound_eq (holds : Holds memory address block) (short : block.length ≤ maxBootInfoSize)
    (offset : Nat) (summary : BootInfoSummary) :
    tagRound memory address block.length (offset, summary) =
      some (if (tagAt block offset).Fits block then
        if (tagAt block offset).kind = tagEnd then .inl ((tagAt block offset).apply block summary)
        else .inr (roundUp (offset + (tagAt block offset).size),
          (tagAt block offset).apply block summary)
      else .inl summary) := by
  have limit : maxBootInfoSize < 2 ^ 32 := by decide
  have bound : (tagAt block offset).size < 2 ^ 32 := field_lt block (offset + 4) 4
  rw [tagRound]
  by_cases header : offset + 8 ≤ block.length
  · have stays : satAdd offset (tagAt block offset).size = offset + (tagAt block offset).size :=
      satAdd_of_le (by simp only [maxWord]; omega)
    rw [if_pos header]
    simp only [Nat.add_assoc address]
    rw [readU32_eq holds (by omega), readU32_eq holds (by omega)]
    change (if (tagAt block offset).size < 8 then _
      else if satAdd offset (tagAt block offset).size > block.length ∨
        satAdd offset (tagAt block offset).size < offset then _
      else if (tagAt block offset).kind = tagEnd then _ else _) = _
    rw [stays]
    by_cases fits : (tagAt block offset).Fits block
    · have wide := fits.1
      have inside : offset + (tagAt block offset).size ≤ block.length := fits.2
      rw [if_pos fits, if_neg (by omega), if_neg (by omega), Tag.apply]
      by_cases ends : (tagAt block offset).kind = tagEnd
      · rw [if_pos ends, if_pos ends, if_pos ends]
        rfl
      · have forward := le_roundUp (offset + (tagAt block offset).size)
        have parses := parseTag_eq holds fits { summary with tagCount := summary.tagCount + 1 }
          ⟨_, field_lt block offset 4⟩ ⟨_, field_lt block (offset + 4) 4⟩ rfl rfl
        have next : alignUp (satAdd offset (tagAt block offset).size) 8 =
            roundUp (offset + (tagAt block offset).size) := by
          rw [stays, alignUp_eight (by simp only [maxWord]; omega)]
        rw [if_neg ends, if_neg ends, if_neg ends]
        change (parseTag memory _ (address + (tagAt block offset).start) _ _ >>= fun summary =>
          if alignUp (satAdd offset (tagAt block offset).size) 8 ≤ offset then
            some (Sum.inl summary)
          else some (Sum.inr (alignUp (satAdd offset (tagAt block offset).size) 8, summary))) = _
        rw [parses, next, Option.bind_eq_bind, Option.bind_some, if_neg (by omega)]
    · rw [if_neg fits]
      by_cases narrow : (tagAt block offset).size < 8
      · rw [if_pos narrow]
        rfl
      · have long : offset + (tagAt block offset).size > block.length :=
          not_le.mp fun inside => fits ⟨not_lt.mp narrow, inside⟩
        rw [if_neg narrow, if_pos (Or.inl long)]
        rfl
  · rw [if_neg header, if_neg fun fits : (tagAt block offset).Fits block => by
      have wide := fits.1
      have inside : offset + (tagAt block offset).size ≤ block.length := fits.2
      omega]
    rfl

/-- All tags. -/
theorem tagLoop_eq (holds : Holds memory address block) (short : block.length ≤ maxBootInfoSize)
    (summary : BootInfoSummary) :
    tagLoop memory address block.length summary =
      some ((walk block 8).foldl (fun summary tag => tag.apply block summary) summary) := by
  suffices loop : ∀ offset summary,
      Lib.Loop.value (tagRound_decreases memory address block.length) (offset, summary) =
        some ((walk block offset).foldl (fun summary tag => tag.apply block summary) summary) from
    loop 8 summary
  intro offset
  induction offset using walk.induct block with
  | case1 offset fits ih =>
    intro summary
    have goes := tagRound_eq holds short offset summary
    rw [if_pos fits] at goes
    rw [walk, if_pos fits]
    by_cases ends : (tagAt block offset).kind = tagEnd
    · rw [if_pos ends] at goes
      rw [if_pos ends, value_of_leave _ (faulting_leave goes)]
      rfl
    · rw [if_neg ends] at goes
      rw [if_neg ends, value_of_again _ (faulting_again.mpr goes), ih]
      rfl
  | case2 offset unfit =>
    intro summary
    have goes := tagRound_eq holds short offset summary
    rw [if_neg unfit] at goes
    rw [walk, if_neg unfit, value_of_leave _ (faulting_leave goes)]
    rfl

end Reading

/-! ### The whole block -/

/-- The size of the block is one that the parser accepts. -/
def Accepts (address totalSize : Nat) : Prop :=
  16 ≤ totalSize ∧ totalSize ≤ maxBootInfoSize ∧ address + totalSize < maxBootInfoAddress

/-- What the parser knows once it has read the header. -/
def headed (address : Nat) (header : List UInt8) : BootInfoSummary :=
  { magic := multiboot2BootloaderMagic, address, validMagic := true,
    totalSize := field header 0 4, reserved := field header 4 4 }

variable {memory : Memory} {address : Nat} {header block : List UInt8}

/-- A block of a bad size is not read. -/
theorem parse_of_refused (positive : 0 < address) (below : address < maxBootInfoAddress)
    (eight : header.length = 8) (held : Holds memory address header)
    (refused : ¬ Accepts address (field header 0 4)) :
    parse memory multiboot2BootloaderMagic address = some (headed address header) := by
  have total : readU32 memory address = some ⟨field header 0 4, field_lt header 0 4⟩ :=
    readU32_eq held (show 0 + 4 ≤ header.length by omega)
  have reserved := readU32_eq held (show 4 + 4 ≤ header.length by omega)
  rw [parse, if_neg (by simp; omega), total, reserved]
  change (if ¬ (16 ≤ field header 0 4 ∧ field header 0 4 ≤ maxBootInfoSize) then
      some (headed address header)
    else if satAdd address (field header 0 4) ≥ maxBootInfoAddress then
      some (headed address header) else _) = _
  by_cases sized : 16 ≤ field header 0 4 ∧ field header 0 4 ≤ maxBootInfoSize
  · have far : satAdd address (field header 0 4) ≥ maxBootInfoAddress := by
      rw [satAdd_of_le (by simp only [maxWord, maxBootInfoSize, maxBootInfoAddress] at *; omega)]
      exact not_lt.mp fun near => refused ⟨sized.1, sized.2, near⟩
    rw [if_neg (not_not.mpr sized), if_pos far]
  · rw [if_pos sized]

/-- A block of a good size is what its tags say. -/
theorem parse_of_accepted (positive : 0 < address) (held : Holds memory address block)
    (size : block.length = field block 0 4) (accepted : Accepts address block.length) :
    parse memory multiboot2BootloaderMagic address =
      some ((fun summary => { summary with parsed := summary.hasEndTag })
        ((walk block 8).foldl (fun summary tag => tag.apply block summary)
          (headed address block))) := by
  obtain ⟨least, short, near⟩ := accepted
  have total : readU32 memory address = some ⟨field block 0 4, field_lt block 0 4⟩ :=
    readU32_eq held (show 0 + 4 ≤ block.length by omega)
  have reserved := readU32_eq held (show 4 + 4 ≤ block.length by omega)
  have stays : satAdd address block.length = address + block.length :=
    satAdd_of_le (by simp only [maxWord, maxBootInfoAddress] at *; omega)
  rw [parse, if_neg (by simp; omega), total, reserved]
  change (if ¬ (16 ≤ field block 0 4 ∧ field block 0 4 ≤ maxBootInfoSize) then
      some (headed address block)
    else if satAdd address (field block 0 4) ≥ maxBootInfoAddress then
      some (headed address block)
    else tagLoop memory address (field block 0 4) (headed address block) >>= fun summary =>
      some { summary with parsed := summary.hasEndTag }) = _
  rw [← size, if_neg (not_not.mpr ⟨least, short⟩), stays, if_neg (not_le.mpr near),
    tagLoop_eq held short]
  rfl

end CloudOS.Multiboot
