import CloudOS.Multiboot.Tags

/-!
The summary says what the block says.

`foldl_apply` follows the summary through the tags of a block: it stores the first
regions and modules, counts all of them and adds up their bytes, and knows whether
the end tag was reached. The sums are 64-bit words that saturate, so they fall
short of the totals once these do not fit (`usable_bytes_saturate`).
-/

namespace CloudOS.Multiboot

open Lib.Fetch (Memory Holds field field_lt only holds_only)
open Lib.Word (maxWord maxU32 satAdd)
open Initramfs (BootModule maxBootInfoAddress)
open PhysMem (MemoryRegion maxRegions)

/-! ### Regions -/

/-- The types of memory that `add_region` tells apart. -/
inductive Category where
  | usable
  | acpi
  | bad
  | reserved
  deriving DecidableEq, Repr

/-- The category of a region. -/
def category (region : MemoryRegion) : Category :=
  if region.regionType = PhysMem.memoryAvailable then .usable
  else if region.regionType = PhysMem.memoryAcpiReclaimable ∨
      region.regionType = PhysMem.memoryAcpiNvs then .acpi
  else if region.regionType = PhysMem.memoryBad then .bad
  else .reserved

/-- The number of regions of a category. -/
def countOf (summary : PhysMem.MemorySummary) : Category → Nat
  | .usable => summary.usableRegionCount
  | .acpi => summary.acpiRegionCount
  | .bad => summary.badRegionCount
  | .reserved => summary.reservedRegionCount

/-- The number of bytes of a category. -/
def bytesOf (summary : PhysMem.MemorySummary) : Category → Nat
  | .usable => summary.usableBytes
  | .acpi => summary.acpiBytes
  | .bad => summary.badBytes
  | .reserved => summary.reservedBytes

/-- The bytes of all regions of a category. -/
def totalOf (regions : List MemoryRegion) (c : Category) : Nat :=
  ((regions.filter (category · = c)).map MemoryRegion.length).sum

/-- The summary of a list of regions. -/
structure Tallied (regions : List MemoryRegion) (summary : PhysMem.MemorySummary) : Prop where
  stored : summary.regions = regions.take maxRegions
  regionCount : summary.regionCount = regions.length
  count : ∀ c, countOf summary c = regions.countP (category · = c)
  bytes : ∀ c, bytesOf summary c = min (totalOf regions c) maxWord

variable {regions : List MemoryRegion} {summary : PhysMem.MemorySummary}

/-- The two tests that `add_region` makes of a usable region change neither sums nor regions. -/
theorem countRegion_usable (summary : PhysMem.MemorySummary) {region : MemoryRegion}
    (available : region.regionType = PhysMem.memoryAvailable) :
    ∃ firstBase firstLength largestBase largestLength,
      summary.countRegion region = { summary with
        usableRegionCount := summary.usableRegionCount + 1
        usableBytes := satAdd summary.usableBytes region.length
        firstUsableBase := firstBase, firstUsableLength := firstLength
        largestUsableBase := largestBase, largestUsableLength := largestLength } := by
  rw [PhysMem.MemorySummary.countRegion, if_pos available]
  by_cases first : summary.usableRegionCount = 0
  · simp only [if_pos first]
    split
    · exact ⟨_, _, _, _, rfl⟩
    · exact ⟨_, _, _, _, rfl⟩
  · simp only [if_neg first]
    split
    · exact ⟨_, _, _, _, rfl⟩
    · exact ⟨_, _, _, _, rfl⟩

/-- One region more in its category. -/
theorem countRegion_spec (summary : PhysMem.MemorySummary) (region : MemoryRegion) :
    (summary.countRegion region).regions = summary.regions ∧
      (summary.countRegion region).regionCount = summary.regionCount ∧
      ∀ c, countOf (summary.countRegion region) c =
          countOf summary c + (if category region = c then 1 else 0) ∧
        bytesOf (summary.countRegion region) c =
          if category region = c then satAdd (bytesOf summary c) region.length
          else bytesOf summary c := by
  by_cases available : region.regionType = PhysMem.memoryAvailable
  · obtain ⟨_, _, _, _, eq⟩ := countRegion_usable summary available
    rw [eq, category, if_pos available]
    refine ⟨rfl, rfl, fun c => ?_⟩
    cases c <;> simp [countOf, bytesOf]
  rw [PhysMem.MemorySummary.countRegion, if_neg available, category, if_neg available]
  by_cases acpi : region.regionType = PhysMem.memoryAcpiReclaimable ∨
      region.regionType = PhysMem.memoryAcpiNvs
  · rw [if_pos acpi, if_pos acpi]
    refine ⟨rfl, rfl, fun c => ?_⟩
    cases c <;> simp [countOf, bytesOf]
  rw [if_neg acpi, if_neg acpi]
  by_cases bad : region.regionType = PhysMem.memoryBad
  · rw [if_pos bad, if_pos bad]
    refine ⟨rfl, rfl, fun c => ?_⟩
    cases c <;> simp [countOf, bytesOf]
  · rw [if_neg bad, if_neg bad]
    refine ⟨rfl, rfl, fun c => ?_⟩
    cases c <;> simp [countOf, bytesOf]

/-- The first entries of a longer list. -/
theorem take_concat {α : Type} (xs : List α) (x : α) (n : Nat) :
    (xs ++ [x]).take n = if xs.length < n then xs ++ [x] else xs.take n := by
  split
  · rename_i room
    exact List.take_of_length_le (by simpa using room)
  · rename_i full
    rw [List.take_append_of_le_length (by omega)]

/-- `add_region` stores a region, if there is room, and counts it. -/
theorem addRegion_eq (tallied : Tallied regions summary) {region : MemoryRegion}
    (some : region.length ≠ 0) :
    ∃ stored : PhysMem.MemorySummary, summary.addRegion region = stored.countRegion region ∧
      stored.regions = (regions ++ [region]).take maxRegions ∧
      stored.regionCount = regions.length + 1 ∧
      ∀ c, countOf stored c = countOf summary c ∧ bytesOf stored c = bytesOf summary c := by
  have length : summary.regions.length = min maxRegions regions.length := by
    rw [tallied.stored, List.length_take]
  rw [PhysMem.MemorySummary.addRegion, if_neg some, take_concat]
  by_cases space : summary.regions.length < maxRegions
  · have few : regions.length < maxRegions := by omega
    have all : summary.regions = regions := by
      rw [tallied.stored, List.take_of_length_le few.le]
    refine ⟨_, rfl, ?_⟩
    rw [dif_pos space, if_pos few]
    refine ⟨congrArg (· ++ [region]) all, congrArg (· + 1) tallied.regionCount, fun c => ?_⟩
    cases c <;> exact ⟨rfl, rfl⟩
  · refine ⟨_, rfl, ?_⟩
    rw [dif_neg space, if_neg (by omega)]
    refine ⟨tallied.stored, congrArg (· + 1) tallied.regionCount, fun c => ?_⟩
    cases c <;> exact ⟨rfl, rfl⟩

theorem totalOf_concat (regions : List MemoryRegion) (region : MemoryRegion) (c : Category) :
    totalOf (regions ++ [region]) c =
      totalOf regions c + if category region = c then region.length else 0 := by
  by_cases same : category region = c
  · simp [totalOf, same]
  · simp [totalOf, same]

/-- A region is tallied if it has a length. -/
theorem Tallied.add (tallied : Tallied regions summary) (region : MemoryRegion) :
    Tallied (regions ++ if region.length ≠ 0 then [region] else []) (summary.addRegion region) := by
  by_cases empty : region.length = 0
  · rw [PhysMem.MemorySummary.addRegion, if_pos empty, if_neg (not_not.mpr empty), List.append_nil]
    exact tallied
  · obtain ⟨stored, eq, regions', regionCount, same⟩ := addRegion_eq tallied empty
    obtain ⟨kept, counted, spec⟩ := countRegion_spec stored region
    rw [if_pos empty, eq]
    constructor
    · rw [kept, regions']
    · rw [counted, regionCount, List.length_append, List.length_singleton]
    · intro c
      rw [(spec c).1, (same c).1, tallied.count c, List.countP_append, List.countP_singleton]
      by_cases here : category region = c
      · simp [here]
      · simp [here]
    · intro c
      rw [(spec c).2, (same c).2, tallied.bytes c, totalOf_concat]
      by_cases here : category region = c
      · rw [if_pos here, if_pos here, satAdd]
        omega
      · rw [if_neg here, if_neg here, Nat.add_zero]

theorem tallied_empty : Tallied [] {} where
  stored := rfl
  regionCount := rfl
  count := by
    intro c
    cases c <;> rfl
  bytes := by
    intro c
    cases c <;> rfl

/-- Any number of regions; those of length zero are passed over. -/
theorem Tallied.addAll (tallied : Tallied regions summary) (more : List MemoryRegion) :
    Tallied (regions ++ more.filter (·.length ≠ 0))
      (more.foldl PhysMem.MemorySummary.addRegion summary) := by
  induction more generalizing regions summary with
  | nil =>
    rw [List.filter_nil, List.append_nil]
    exact tallied
  | cons region more ih =>
    have rest := ih (tallied.add region)
    rw [List.append_assoc] at rest
    by_cases empty : region.length = 0
    · simpa [empty] using rest
    · simpa [empty] using rest

/-! ### Modules -/

/-- The modules of a summary are these. -/
structure Lists (modules : List BootModule) (summary : BootInfoSummary) : Prop where
  stored : summary.modules = modules.take maxModules
  highest : summary.highestModuleEnd = (modules.map BootModule.stop).foldl max 0
  count : summary.moduleCount = min modules.length maxU32

/-- A module is listed if it is valid. -/
theorem Lists.add {modules : List BootModule} {summary : BootInfoSummary}
    (lists : Lists modules summary) (found : BootModule) :
    Lists (modules ++ if found.isValid then [found] else []) (summary.addModule found) := by
  rw [BootInfoSummary.addModule]
  by_cases valid : found.isValid = true
  · rw [if_pos valid, if_neg (by simpa using valid)]
    have length : summary.modules.length = min maxModules modules.length := by
      rw [lists.stored, List.length_take]
    constructor
    · change (if summary.modules.length < maxModules then _ else _) = _
      rw [take_concat]
      by_cases space : summary.modules.length < maxModules
      · have few : modules.length < maxModules := by omega
        rw [if_pos space, if_pos few, lists.stored, List.take_of_length_le few.le]
      · rw [if_neg space, if_neg (by omega), lists.stored]
    · simp [lists.highest]
    · change min (summary.moduleCount + 1) maxU32 = _
      rw [lists.count, List.length_append, List.length_singleton]
      omega
  · rw [if_neg valid, if_pos (by simpa using valid), List.append_nil]
    exact lists

/-! ### Tags -/

section Tags

variable (block : List UInt8)

/-- The regions of some length that the memory maps among some tags list. -/
def listed (tags : List Tag) : List MemoryRegion :=
  (tags.flatMap (Tag.regions block)).filter (·.length ≠ 0)

/-- The valid modules that some tags describe. -/
def validModules (tags : List Tag) : List BootModule :=
  (tags.filterMap (Tag.bootModule block)).filter (·.isValid)

/-- The summary after some tags. -/
structure Sums (tags : List Tag) (summary : BootInfoSummary) : Prop where
  regions : Tallied (listed block tags) summary.memory.toMemorySummary
  modules : Lists (validModules block tags) summary
  tagCount : summary.tagCount = tags.length

variable {block} {tags : List Tag} {summary : BootInfoSummary} {tag : Tag}

theorem regions_of_kind (other : tag.kind ≠ tagMemoryMap) : tag.regions block = [] :=
  if_neg fun map : tag.IsMap block => other map.1

theorem bootModule_of_kind (other : tag.kind ≠ tagModule) : tag.bootModule block = none :=
  if_neg fun all => other all.1

theorem listed_concat (tags : List Tag) (tag : Tag) :
    listed block (tags ++ [tag]) =
      listed block tags ++ (tag.regions block).filter (·.length ≠ 0) := by
  simp [listed]

theorem validModules_concat (tags : List Tag) (tag : Tag) :
    validModules block (tags ++ [tag]) =
      validModules block tags ++ (tag.bootModule block).toList.filter (·.isValid) := by
  cases found : tag.bootModule block <;> simp [validModules, found]

/-- What the parser counts is not changed. -/
structure SameSums (summary summary' : BootInfoSummary) : Prop where
  modules : summary'.modules = summary.modules
  highestModuleEnd : summary'.highestModuleEnd = summary.highestModuleEnd
  moduleCount : summary'.moduleCount = summary.moduleCount
  tagCount : summary'.tagCount = summary.tagCount
  hasEndTag : summary'.hasEndTag = summary.hasEndTag

/-- A memory map adds its regions and nothing else. -/
theorem content_of_map (block : List UInt8) (isMap : tag.kind = tagMemoryMap)
    (summary : BootInfoSummary) :
    (tag.content block summary).memory.toMemorySummary =
        (tag.regions block).foldl PhysMem.MemorySummary.addRegion summary.memory.toMemorySummary ∧
      SameSums summary (tag.content block summary) := by
  rw [Tag.content, if_neg (by rw [isMap]; decide), if_neg (by rw [isMap]; decide),
    if_neg (by rw [isMap]; decide), if_neg (by rw [isMap]; decide)]
  by_cases readable : tag.IsMap block
  · rw [if_pos readable]
    exact ⟨rfl, rfl, rfl, rfl, rfl, rfl⟩
  · rw [if_neg readable, Tag.regions, if_neg readable]
    exact ⟨rfl, rfl, rfl, rfl, rfl, rfl⟩

theorem content_of_module (isModule : tag.kind = tagModule) (summary : BootInfoSummary) :
    tag.content block summary = (tag.bootModule block).elim summary summary.addModule := by
  rw [Tag.content, if_neg (by rw [isModule]; decide), if_neg (by rw [isModule]; decide),
    if_pos isModule]

/-- Other tags leave the sums alone. -/
theorem content_of_other (block : List UInt8) (noMap : tag.kind ≠ tagMemoryMap)
    (noModule : tag.kind ≠ tagModule) (summary : BootInfoSummary) :
    (tag.content block summary).memory.toMemorySummary = summary.memory.toMemorySummary ∧
      SameSums summary (tag.content block summary) := by
  unfold Tag.content
  split_ifs with commandLine bootloaderName basicMemory short isMap
  · exact ⟨rfl, rfl, rfl, rfl, rfl, rfl⟩
  · exact ⟨rfl, rfl, rfl, rfl, rfl, rfl⟩
  · exact ⟨rfl, rfl, rfl, rfl, rfl, rfl⟩
  · exact ⟨rfl, rfl, rfl, rfl, rfl, rfl⟩
  · exact absurd isMap.1 noMap
  · exact ⟨rfl, rfl, rfl, rfl, rfl, rfl⟩

theorem addModule_hasEndTag (summary : BootInfoSummary) (found : BootModule) :
    (summary.addModule found).hasEndTag = summary.hasEndTag ∧
      (summary.addModule found).tagCount = summary.tagCount ∧
      (summary.addModule found).memory = summary.memory := by
  unfold BootInfoSummary.addModule
  split
  · exact ⟨rfl, rfl, rfl⟩
  · exact ⟨rfl, rfl, rfl⟩

theorem Lists.same {modules : List BootModule} {summary summary' : BootInfoSummary}
    (lists : Lists modules summary) (same : SameSums summary summary') :
    Lists modules summary' where
  stored := same.modules.trans lists.stored
  highest := same.highestModuleEnd.trans lists.highest
  count := same.moduleCount.trans lists.count

theorem content_hasEndTag (block : List UInt8) (tag : Tag) (summary : BootInfoSummary) :
    (tag.content block summary).hasEndTag = summary.hasEndTag := by
  by_cases isMap : tag.kind = tagMemoryMap
  · exact (content_of_map block isMap summary).2.hasEndTag
  by_cases isModule : tag.kind = tagModule
  · rw [content_of_module isModule]
    cases tag.bootModule block with
    | none => rfl
    | some described => exact (addModule_hasEndTag summary described).1
  · exact (content_of_other block isMap isModule summary).2.hasEndTag

/-- One tag more. -/
theorem Sums.apply (sums : Sums block tags summary) (tag : Tag) :
    Sums block (tags ++ [tag]) (tag.apply block summary) := by
  have longer : summary.tagCount + 1 = (tags ++ [tag]).length := by
    rw [sums.tagCount, List.length_append, List.length_singleton]
  have counted : Lists (validModules block tags)
      { summary with tagCount := summary.tagCount + 1 } :=
    ⟨sums.modules.stored, sums.modules.highest, sums.modules.count⟩
  by_cases isMap : tag.kind = tagMemoryMap
  · obtain ⟨regions, same⟩ :=
      content_of_map block isMap { summary with tagCount := summary.tagCount + 1 }
    rw [Tag.apply, if_neg (by rw [isMap]; decide)]
    constructor
    · rw [regions, listed_concat]
      exact sums.regions.addAll _
    · rw [validModules_concat, bootModule_of_kind (by rw [isMap]; decide), Option.toList_none,
        List.filter_nil, List.append_nil]
      exact counted.same same
    · exact same.tagCount.trans longer
  have noRegions : listed block (tags ++ [tag]) = listed block tags := by
    rw [listed_concat, regions_of_kind isMap, List.filter_nil, List.append_nil]
  by_cases isModule : tag.kind = tagModule
  · rw [Tag.apply, if_neg (by rw [isModule]; decide), content_of_module isModule]
    cases found : tag.bootModule block with
    | none =>
      constructor
      · rw [noRegions]
        exact sums.regions
      · rw [validModules_concat, found, Option.toList_none, List.filter_nil, List.append_nil]
        exact counted
      · exact longer
    | some described =>
      obtain ⟨-, tagCount, memory⟩ :=
        addModule_hasEndTag { summary with tagCount := summary.tagCount + 1 } described
      constructor
      · rw [noRegions, Option.elim_some, memory]
        exact sums.regions
      · rw [validModules_concat, found, Option.toList_some]
        have added := counted.add described
        by_cases valid : described.isValid = true
        · simpa [valid] using added
        · simpa [valid] using added
      · exact tagCount.trans longer
  · have noModules : validModules block (tags ++ [tag]) = validModules block tags := by
      rw [validModules_concat, bootModule_of_kind isModule, Option.toList_none, List.filter_nil,
        List.append_nil]
    rw [Tag.apply]
    split
    · constructor
      · rw [noRegions]
        exact sums.regions
      · rw [noModules]
        exact ⟨counted.stored, counted.highest, counted.count⟩
      · exact longer
    · obtain ⟨memory, same⟩ := content_of_other block isMap isModule
        { summary with tagCount := summary.tagCount + 1 }
      constructor
      · rw [noRegions, memory]
        exact sums.regions
      · rw [noModules]
        exact counted.same same
      · exact same.tagCount.trans longer

/-- Any number of tags. -/
theorem Sums.applyAll (sums : Sums block tags summary) (more : List Tag) :
    Sums block (tags ++ more)
      (more.foldl (fun summary tag => tag.apply block summary) summary) := by
  induction more generalizing tags summary with
  | nil =>
    rw [List.append_nil]
    exact sums
  | cons tag more ih =>
    have rest := ih (sums.apply tag)
    rw [List.append_assoc] at rest
    exact rest

/-! ### The walk -/

/-- Only an end tag sets the mark, and the walk ends there. -/
theorem walk_hasEndTag (block : List UInt8) (offset : Nat) :
    ∀ summary : BootInfoSummary, summary.hasEndTag = false →
      (((walk block offset).foldl (fun summary tag => tag.apply block summary) summary).hasEndTag =
          true ↔
        ∃ tag ∈ walk block offset, tag.kind = tagEnd ∧ tag.size = 8) := by
  induction offset using walk.induct block with
  | case1 offset fits ih =>
    intro summary unmarked
    rw [walk, if_pos fits]
    by_cases ends : (tagAt block offset).kind = tagEnd
    · rw [if_pos ends]
      simp [Tag.apply, ends]
    · rw [if_neg ends, List.foldl_cons, ih]
      · simp [ends]
      · rw [Tag.apply, if_neg ends, content_hasEndTag]
        exact unmarked
  | case2 offset unfit =>
    intro summary unmarked
    rw [walk, if_neg unfit]
    simp [unmarked]

/-- The tags of the walk fit, and do not overlap. -/
theorem walk_sizes (block : List UInt8) (offset : Nat) :
    (∀ tag ∈ walk block offset, tag.Fits block) ∧
      ((walk block offset).map Tag.size).sum ≤ block.length - offset := by
  induction offset using walk.induct block with
  | case1 offset fits ih =>
    have wide := fits.1
    have inside : offset + (tagAt block offset).size ≤ block.length := fits.2
    have forward := le_roundUp (offset + (tagAt block offset).size)
    rw [walk, if_pos fits]
    by_cases ends : (tagAt block offset).kind = tagEnd
    · rw [if_pos ends]
      constructor
      · simpa using fits
      · simp only [List.map_cons, List.map_nil, List.sum_cons, List.sum_nil]
        omega
    · rw [if_neg ends]
      constructor
      · simpa using ⟨fits, ih.1⟩
      · have rest := ih.2
        simp only [List.map_cons, List.sum_cons]
        omega
  | case2 offset unfit =>
    rw [walk, if_neg unfit]
    simp

/-- A region takes 24 bytes of its tag. -/
theorem length_regions_le (block : List UInt8) (tag : Tag) :
    24 * (tag.regions block).length ≤ tag.size := by
  rw [Tag.regions]
  split
  · rename_i map
    have long := map.2.1
    have wide := map.2.2
    rw [List.length_map, List.length_range]
    cases count : entriesIn (tag.size - 16) (tag.entrySize block) with
    | zero => omega
    | succ last =>
      have inside : last * tag.entrySize block + 24 ≤ tag.size - 16 :=
        (entriesIn_spec wide).mp (by omega)
      have spread : last * 24 ≤ last * tag.entrySize block := Nat.mul_le_mul_left last wide
      omega
  · simp

theorem length_listed_le (block : List UInt8) (tags : List Tag) :
    24 * (listed block tags).length ≤ (tags.map Tag.size).sum := by
  induction tags with
  | nil => simp [listed]
  | cons tag tags ih =>
    have first := length_regions_le block tag
    have kept := List.length_filter_le (·.length ≠ 0) (tag.regions block)
    have split : listed block (tag :: tags) =
        (tag.regions block).filter (·.length ≠ 0) ++ listed block tags := by
      simp [listed]
    rw [split, List.length_append, List.map_cons, List.sum_cons]
    omega

/-- A tag takes 8 bytes at least. -/
theorem length_walk_le (block : List UInt8) (offset : Nat) :
    8 * (walk block offset).length ≤ ((walk block offset).map Tag.size).sum := by
  have wide : ∀ size ∈ (walk block offset).map Tag.size, 8 ≤ size := by
    intro size mem
    obtain ⟨tag, walked, rfl⟩ := List.mem_map.mp mem
    exact ((walk_sizes block offset).1 tag walked).1
  have least := List.card_nsmul_le_sum _ 8 wide
  rw [List.length_map, smul_eq_mul] at least
  omega

end Tags

/-! ### The result -/

/-- The summary says what the tags of the block say. -/
structure Faithful (block : List UInt8) (summary : BootInfoSummary) : Prop where
  /-- The first sixteen regions are stored. -/
  regions : summary.memory.regions = (listed block (walk block 8)).take maxRegions
  regionCount : summary.memory.regionCount = (listed block (walk block 8)).length
  counts : ∀ c, countOf summary.memory.toMemorySummary c =
    (listed block (walk block 8)).countP (category · = c)
  /-- The sums saturate. -/
  bytes : ∀ c, bytesOf summary.memory.toMemorySummary c =
    min (totalOf (listed block (walk block 8)) c) maxWord
  /-- The first four modules are stored. -/
  modules : summary.modules = (validModules block (walk block 8)).take maxModules
  highestModuleEnd : summary.highestModuleEnd =
    ((validModules block (walk block 8)).map BootModule.stop).foldl max 0
  parsed : summary.parsed = true ↔ ∃ tag ∈ walk block 8, tag.kind = tagEnd ∧ tag.size = 8
  /-- No counter of 32 bits overflows. -/
  counters : summary.memory.regionCount ≤ maxU32 ∧ summary.tagCount ≤ maxU32

variable {memory : Memory} {address : Nat} {block : List UInt8}

/-- A block that is accepted is reported as it is. -/
theorem faithful_of_accepted (positive : 0 < address) (held : Holds memory address block)
    (size : block.length = field block 0 4) (accepted : Accepts address block.length) :
    ∃ summary, parse memory multiboot2BootloaderMagic address = some summary ∧
      Faithful block summary := by
  have none : Sums block [] (headed address block) := ⟨tallied_empty, ⟨rfl, rfl, rfl⟩, rfl⟩
  have sums := none.applyAll (walk block 8)
  rw [List.nil_append] at sums
  have short := accepted.2.1
  have room := (walk_sizes block 8).2
  have regions := length_listed_le block (walk block 8)
  have tags := length_walk_le block 8
  refine ⟨_, parse_of_accepted positive held size accepted, ?_⟩
  constructor
  · exact sums.regions.stored
  · exact sums.regions.regionCount
  · exact sums.regions.count
  · exact sums.regions.bytes
  · exact sums.modules.stored
  · exact sums.modules.highest
  · exact walk_hasEndTag block 8 _ rfl
  · have regionCount := sums.regions.regionCount
    have tagCount := sums.tagCount
    simp only [maxBootInfoSize, maxU32] at *
    omega

/-- Whatever the header and the block contain, the parser comes to an end. It reads the
header, and then only bytes of a block of an acceptable size: at all other addresses the
memory may fault. The summary says what the tags of the block say. -/
theorem parse_faithful (memory : Memory) (address : Nat) (positive : 0 < address)
    (below : address < maxBootInfoAddress) (header : List UInt8) (eight : header.length = 8)
    (held : Holds memory address header) :
    (¬ Accepts address (field header 0 4) →
      parse memory multiboot2BootloaderMagic address = some (headed address header)) ∧
    (Accepts address (field header 0 4) →
      ∀ block : List UInt8, block.length = field header 0 4 → Holds memory address block →
        ∃ summary, parse memory multiboot2BootloaderMagic address = some summary ∧
          Faithful block summary) := by
  constructor
  · intro refused
    exact parse_of_refused positive below eight held refused
  · intro accepted block size held'
    have least := accepted.1
    have same : field block 0 4 = field header 0 4 := by
      rw [field, field, held'.slice_eq held (by omega) (by omega)]
    exact faithful_of_accepted positive held' (size.trans same.symm) (size ▸ accepted)

/-- The bytes of a little-endian number. -/
def bytesOfNumber (width value : Nat) : List UInt8 :=
  (List.range width).map fun k => UInt8.ofNat (value / 256 ^ k)

/-- A block with a module and a memory map of two regions of `2 ^ 63` bytes each. -/
def halves : List UInt8 :=
  bytesOfNumber 4 104 ++ bytesOfNumber 4 0 ++
    (bytesOfNumber 4 3 ++ bytesOfNumber 4 18 ++ bytesOfNumber 4 0x200000 ++
      bytesOfNumber 4 0x201000 ++ [0x6d, 0] ++ bytesOfNumber 6 0) ++
    (bytesOfNumber 4 6 ++ bytesOfNumber 4 64 ++ bytesOfNumber 4 24 ++ bytesOfNumber 4 0 ++
      (bytesOfNumber 8 0 ++ bytesOfNumber 8 (2 ^ 63) ++ bytesOfNumber 4 1 ++ bytesOfNumber 4 0) ++
      (bytesOfNumber 8 (2 ^ 63) ++ bytesOfNumber 8 (2 ^ 63) ++ bytesOfNumber 4 1 ++
        bytesOfNumber 4 0)) ++
    (bytesOfNumber 4 0 ++ bytesOfNumber 4 8)

theorem accepts_halves : Accepts 0x10000 (field (halves.take 8) 0 4) := by
  have size : field (halves.take 8) 0 4 = 104 := by decide +kernel
  rw [size]
  exact ⟨by decide, by decide, by decide⟩

theorem holds_halves : Holds (only 0x10000 halves) 0x10000 (halves.take 8) := by
  intro k byte there
  have low : k < 8 := by
    have below := (List.getElem?_eq_some_iff.mp there).1
    exact below.trans_le (List.length_take_le 8 halves)
  rw [List.getElem?_take_of_lt low] at there
  exact holds_only 0x10000 halves k byte there

/-- A block that is read. -/
theorem parse_faithful_halves :
    ∃ summary, parse (only 0x10000 halves) multiboot2BootloaderMagic 0x10000 = some summary ∧
      Faithful halves summary :=
  (parse_faithful (only 0x10000 halves) 0x10000 (by decide) (by decide) (halves.take 8)
    (by decide +kernel) holds_halves).2 accepts_halves halves (by decide +kernel)
    (holds_only 0x10000 halves)

theorem walk_halves : walk halves 8 = [⟨8, 3, 18⟩, ⟨32, 6, 64⟩, ⟨96, 0, 8⟩] := by
  have first : tagAt halves 8 = ⟨8, 3, 18⟩ := by decide +kernel
  have second : tagAt halves 32 = ⟨32, 6, 64⟩ := by decide +kernel
  have third : tagAt halves 96 = ⟨96, 0, 8⟩ := by decide +kernel
  rw [walk, first, if_pos (by decide +kernel), if_neg (by decide),
    show roundUp (8 + (⟨8, 3, 18⟩ : Tag).size) = 32 from rfl,
    walk, second, if_pos (by decide +kernel), if_neg (by decide),
    show roundUp (32 + (⟨32, 6, 64⟩ : Tag).size) = 96 from rfl,
    walk, third, if_pos (by decide +kernel), if_pos rfl]

/-- The two regions have `2 ^ 64` bytes together, and the sum is one byte short of that. -/
theorem usable_bytes_saturate :
    ¬ ∀ (memory : Memory) (address : Nat) (block : List UInt8), 0 < address →
      block.length = field block 0 4 → Accepts address block.length → Holds memory address block →
      ∃ summary, parse memory multiboot2BootloaderMagic address = some summary ∧
        ∀ c, bytesOf summary.memory.toMemorySummary c =
          totalOf (listed block (walk block 8)) c := by
  intro adds
  have total : totalOf (listed halves (walk halves 8)) .usable = 2 ^ 64 := by
    rw [walk_halves]
    decide +kernel
  have accepted : Accepts 0x10000 halves.length := by
    have size : halves.length = 104 := by decide +kernel
    rw [size]
    exact ⟨by decide, by decide, by decide⟩
  obtain ⟨summary, parsed, sums⟩ := adds (only 0x10000 halves) 0x10000 halves (by decide)
    (by decide +kernel) accepted (holds_only 0x10000 halves)
  obtain ⟨summary', parsed', faithful⟩ := faithful_of_accepted (by decide)
    (holds_only 0x10000 halves) (by decide +kernel) accepted
  rw [parsed] at parsed'
  cases parsed'
  have saturated := faithful.bytes .usable
  rw [sums, total] at saturated
  exact absurd saturated (by decide)

end CloudOS.Multiboot
