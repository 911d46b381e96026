import CloudOS.Initramfs.Build

/-!
What the writer appends, the reader finds: an archive of the writer is accepted, and
both walks over it see the entries that went in.
-/

namespace CloudOS.Initramfs

open Lib.Slice (slice)
open Lib.Word (maxWord maxU32 satAdd satAdd_of_le asBytes)

/-- Padding fills up to a multiple of four. -/
theorem padToFour_eq (bytes : List UInt8) :
    ∃ fill, padToFour bytes = bytes ++ fill ∧ bytes.length + fill.length = roundUp bytes.length := by
  refine Lib.Loop.value_rule padStep_decreases (P := fun bytes result =>
    ∃ fill, result = bytes ++ fill ∧ bytes.length + fill.length = roundUp bytes.length) ?_ ?_ bytes
  · intro bytes result leaves
    unfold padStep at leaves
    split at leaves
    · cases leaves
    · cases leaves
      refine ⟨[], (List.append_nil _).symm, ?_⟩
      simp only [List.length_nil, roundUp]
      omega
  · rintro bytes next result again ⟨fill, rfl, size⟩
    unfold padStep at again
    split at again
    · cases again
      rename_i odd
      refine ⟨0 :: fill, by simp, ?_⟩
      simp only [List.length_append, List.length_cons, List.length_nil, roundUp] at size ⊢
      omega
    · cases again

namespace SourceEntry

/-- What the reader makes of an entry that was written at an offset. -/
def parsed (entry : SourceEntry) (offset : Nat) : ParsedEntry where
  name := asBytes entry.name
  data := entry.data
  mode := entry.mode.toNat
  nextOffset := roundUp (dataStart offset entry.nameSize + entry.data.length)
  trailer := asBytes entry.name == cpioTrailer

variable {entry : SourceEntry}

/-- An entry is a file or the end of the archive. -/
structure Wellformed (entry : SourceEntry) : Prop extends entry.Fits where
  valid : asBytes entry.name ≠ cpioTrailer → validPath (asBytes entry.name) = true
  noData : asBytes entry.name = cpioTrailer → entry.data = []

/-- What is appended to an archive: header, name and data, filled up to multiples of
four. -/
theorem Fits.appendEntry_eq (fits : entry.Fits) (archive : List UInt8) :
    ∃ fill fill' : List UInt8,
      appendEntry archive entry = some
        (archive ++ entry.header ++ (asBytes entry.name ++ [0]) ++ fill ++ entry.data ++ fill') ∧
      (archive ++ entry.header ++ (asBytes entry.name ++ [0]) ++ fill).length =
        dataStart archive.length entry.nameSize ∧
      (archive ++ entry.header ++ (asBytes entry.name ++ [0]) ++ fill ++ entry.data ++
        fill').length = (entry.parsed archive.length).nextOffset := by
  obtain ⟨fill, padded, size⟩ :=
    padToFour_eq (archive ++ entry.header ++ asBytes entry.name ++ [0])
  obtain ⟨fill', padded', size'⟩ :=
    padToFour_eq (archive ++ entry.header ++ asBytes entry.name ++ [0] ++ fill ++ entry.data)
  have named : (archive ++ entry.header ++ asBytes entry.name ++ [0]).length =
      archive.length + cpioHeaderSize + entry.nameSize := by
    simp only [List.length_append, fits.length_header, List.length_singleton, nameSize]
    omega
  rw [named, ← dataStart] at size
  rw [List.length_append, List.length_append, named, size] at size'
  refine ⟨fill, fill', ?_, ?_, ?_⟩
  · rw [Initramfs.appendEntry, if_pos fits.length_header]
    dsimp only
    rw [padded, padded']
    simp only [List.append_assoc]
  · rw [← List.append_assoc, List.length_append, named, size]
  · rw [← List.append_assoc (archive ++ entry.header), List.length_append, List.length_append,
      List.length_append, named, size, size']
    rfl

/-- Reading back what was appended. -/
theorem Wellformed.entryAt (wellformed : entry.Wellformed) {archive extended : List UInt8}
    (appended : Initramfs.appendEntry archive entry = some extended) (rest : List UInt8)
    (word : extended.length + 3 ≤ maxWord) :
    EntryAt (extended ++ rest) archive.length (entry.parsed archive.length) := by
  obtain ⟨fill, fill', eq, before, total⟩ := wellformed.appendEntry_eq archive
  rw [appended] at eq
  cases eq
  have header := wellformed.length_header
  have size : (asBytes entry.name ++ [0]).length = entry.nameSize := by
    rw [List.length_append, List.length_singleton, nameSize]
  rw [total] at word
  generalize whole : archive ++ entry.header ++ (asBytes entry.name ++ [0]) ++ fill ++ entry.data ++
    fill' ++ rest = bytes
  have longer : (entry.parsed archive.length).nextOffset ≤ bytes.length := by
    rw [← whole, List.length_append, total]
    exact Nat.le_add_right _ _
  have isHeader : headerAt bytes archive.length = entry.header :=
    Lib.Slice.slice_of_eq archive ((asBytes entry.name ++ [0]) ++ fill ++ entry.data ++ fill' ++ rest)
      (by rw [← whole]; simp only [List.append_assoc]) rfl (by rw [header])
  have isName : Lib.Slice.get bytes (archive.length + cpioHeaderSize)
      (archive.length + cpioHeaderSize + entry.nameSize) = some (asBytes entry.name ++ [0]) :=
    Lib.Slice.get_of_eq (archive ++ entry.header) (fill ++ entry.data ++ fill' ++ rest)
      (by rw [← whole]; simp only [List.append_assoc]) (by rw [List.length_append, header])
      (by rw [size])
  have isData : Lib.Slice.get bytes (dataStart archive.length entry.nameSize)
      (dataStart archive.length entry.nameSize + entry.data.length) = some entry.data :=
    Lib.Slice.get_of_eq (archive ++ entry.header ++ (asBytes entry.name ++ [0]) ++ fill)
      (fill' ++ rest) (by rw [← whole]; simp only [List.append_assoc]) before rfl
  have upTo := le_roundUp (dataStart archive.length entry.nameSize + entry.data.length)
  exact
    { headerFits := by
        have := Lib.Slice.get_eq_some.mp isName
        omega
      magic := by
        rw [isHeader]
        rfl
      fields := by rw [isHeader, wellformed.checkFields]
      mode := by rw [isHeader, wellformed.parse_field 1 rfl rfl rfl]; rfl
      fileSize := by rw [isHeader, wellformed.parse_field 6 rfl rfl rfl]; rfl
      nameSize := by rw [isHeader, wellformed.parse_field 11 rfl rfl rfl]; rfl
      checksum := by rw [isHeader, wellformed.parse_field 12 rfl rfl rfl]
      nameShort := wellformed.short
      name := isName
      data := isData
      nextOffset := rfl
      nextFits := longer
      word := (Nat.add_le_add_right upTo 3).trans word
      trailer := rfl
      noData := fun trailer => wellformed.noData (beq_iff_eq.mp trailer)
      valid := fun noTrailer => wellformed.valid (by simpa [parsed] using noTrailer) }

/-- Appending moves the end of the archive to where the reader goes on. -/
theorem Fits.length_appendEntry (fits : entry.Fits) {archive extended : List UInt8}
    (appended : Initramfs.appendEntry archive entry = some extended) :
    archive <+: extended ∧ extended.length = (entry.parsed archive.length).nextOffset := by
  obtain ⟨fill, fill', eq, -, total⟩ := fits.appendEntry_eq archive
  rw [appended] at eq
  cases eq
  exact ⟨⟨_, by simp only [List.append_assoc]; rfl⟩, total⟩

/-- No entry takes more than this. -/
theorem Fits.nextOffset_le (fits : entry.Fits) (offset : Nat) :
    (entry.parsed offset).nextOffset ≤ offset + 2 ^ 33 := by
  have short := fits.short
  have small := fits.small
  simp only [maxPathLen] at short
  simp only [maxU32] at small
  simp only [parsed, dataStart, roundUp, nameSize, cpioHeaderSize]
  omega

end SourceEntry

/-! ### Whole archives -/

theorem appendEntries_cons {archive final : List UInt8} {entry : SourceEntry}
    {rest : List SourceEntry} :
    appendEntries archive (entry :: rest) = some final ↔
      ∃ next, appendEntry archive entry = some next ∧ appendEntries next rest = some final := by
  rw [appendEntries, List.foldlM_cons]
  exact Option.bind_eq_some_iff

/-- The writer does not fail. -/
theorem appendEntries_isSome {entries : List SourceEntry} (fits : ∀ entry ∈ entries, entry.Fits) :
    ∀ archive, ∃ final, appendEntries archive entries = some final ∧
      final.length ≤ archive.length + entries.length * 2 ^ 33 := by
  induction entries with
  | nil => exact fun archive => ⟨archive, rfl, by simp⟩
  | cons entry rest ih =>
    intro archive
    have fitsHead := fits entry (by simp)
    obtain ⟨fill, fill', appended, -, -⟩ := fitsHead.appendEntry_eq archive
    have size := (fitsHead.length_appendEntry appended).2
    have bound := fitsHead.nextOffset_le archive.length
    obtain ⟨final, more, total⟩ := ih (fun other mem => fits other (List.mem_cons_of_mem _ mem)) _
    refine ⟨final, appendEntries_cons.mpr ⟨_, appended, more⟩, ?_⟩
    rw [List.length_cons]
    omega

/-- Entries are only ever appended. -/
theorem appendEntries_prefix {entries : List SourceEntry} (fits : ∀ entry ∈ entries, entry.Fits) :
    ∀ {archive final : List UInt8}, appendEntries archive entries = some final →
      archive <+: final := by
  induction entries with
  | nil =>
    intro archive final appended
    cases appended
    exact List.prefix_rfl
  | cons entry rest ih =>
    intro archive final appended
    obtain ⟨next, first, more⟩ := appendEntries_cons.mp appended
    exact ((fits entry (by simp)).length_appendEntry first).1.trans
      (ih (fun other mem => fits other (List.mem_cons_of_mem _ mem)) more)

/-- The reader reads an entry as it was written. -/
structure Reads (read : ParsedEntry) (written : SourceEntry) : Prop where
  name : read.name = asBytes written.name
  data : read.data = written.data
  mode : read.mode = written.mode.toNat

/-- The entries of an archive, read back. -/
theorem walk_appendEntries {trailer : SourceEntry} (named : asBytes trailer.name = cpioTrailer)
    (wellformedTrailer : trailer.Wellformed) {entries : List SourceEntry}
    (wellformed : ∀ entry ∈ entries, entry.Wellformed)
    (noTrailer : ∀ entry ∈ entries, asBytes entry.name ≠ cpioTrailer) (rest : List UInt8) :
    ∀ {archive final : List UInt8}, appendEntries archive (entries ++ [trailer]) = some final →
      final.length + 3 ≤ maxWord →
      ∃ walked, Walk (final ++ rest) archive.length walked final.length ∧
        List.Forall₂ Reads walked entries := by
  induction entries with
  | nil =>
    intro archive final appended word
    obtain ⟨next, first, more⟩ := appendEntries_cons.mp appended
    cases more
    have parses := parseEntry_eq_ok.mpr (wellformedTrailer.entryAt first rest word)
    have isTrailer : (trailer.parsed archive.length).trailer = true := by
      simp [SourceEntry.parsed, named]
    rw [(wellformedTrailer.length_appendEntry first).2]
    exact ⟨[], .trailer parses isTrailer, .nil⟩
  | cons entry more ih =>
    intro archive final appended word
    obtain ⟨next, first, later⟩ := appendEntries_cons.mp appended
    have wellformedHead := wellformed entry (by simp)
    have fitsLater : ∀ other ∈ more ++ [trailer], other.Fits := by
      intro other mem
      rcases List.mem_append.mp mem with mem | mem
      · exact (wellformed other (List.mem_cons_of_mem _ mem)).toFits
      · rw [List.mem_singleton.mp mem]
        exact wellformedTrailer.toFits
    obtain ⟨tail, rfl⟩ := appendEntries_prefix fitsLater later
    obtain ⟨walked, walk, reads⟩ :=
      ih (fun other mem => wellformed other (List.mem_cons_of_mem _ mem))
        (fun other mem => noTrailer other (List.mem_cons_of_mem _ mem)) later word
    have parses := parseEntry_eq_ok.mpr (wellformedHead.entryAt first (tail ++ rest)
      (by rw [List.length_append] at word; omega))
    rw [← List.append_assoc] at parses
    have isFile : (entry.parsed archive.length).trailer = false := by
      simpa [SourceEntry.parsed] using noTrailer entry (by simp)
    rw [(wellformedHead.length_appendEntry first).2] at walk
    exact ⟨_, .entry parses isFile walk, .cons ⟨rfl, rfl, rfl⟩ reads⟩

theorem asBytes_injective : Function.Injective asBytes := by
  intro text text' eq
  apply String.toByteArray_inj.mp
  apply ByteArray.ext
  exact Array.toList_inj.mp eq

/-- The index has an entry as it was written. -/
structure Indexes (info : EntryInfo) (written : SourceEntry) : Prop where
  path : info.path.bytes = asBytes written.name
  size : info.size = written.data.length
  mode : info.mode = written.mode.toNat
  regular : info.regular = isRegular written.mode.toNat
  directory : info.directory = isDirectory written.mode.toNat

theorem Reads.indexes {info : EntryInfo} {read : ParsedEntry} {written : SourceEntry}
    (reads : Reads read written) (describes : info.Describes read) : Indexes info written where
  path := describes.path.trans reads.name
  size := by rw [describes.size, reads.data]
  mode := by rw [describes.mode, reads.mode]
  regular := by rw [describes.regular, reads.mode]
  directory := by rw [describes.directory, reads.mode]

theorem Reads.table {infos : List EntryInfo} {read : List ParsedEntry} {written : List SourceEntry}
    (describes : List.Forall₂ EntryInfo.Describes infos read)
    (reads : List.Forall₂ Reads read written) :
    List.Forall₂ Indexes infos written := by
  induction describes generalizing written with
  | nil =>
    cases reads
    exact .nil
  | cons head _ ih =>
    cases reads with
    | cons head' tail' => exact .cons (head'.indexes head) (ih tail')

namespace SourceEntry

def isRegular (entry : SourceEntry) : Bool := Initramfs.isRegular entry.mode.toNat

def isDirectory (entry : SourceEntry) : Bool := Initramfs.isDirectory entry.mode.toNat

/-- The bytes that an entry adds to the size of all files. -/
def fileBytes (entry : SourceEntry) : Nat := if entry.isRegular then entry.data.length else 0

end SourceEntry

/-- Sums and counts over what was read are those over what was written. -/
theorem Reads.sums {read : List ParsedEntry} {written : List SourceEntry}
    (reads : List.Forall₂ Reads read written) :
    read.countP (fun entry => isRegular entry.mode) = written.countP SourceEntry.isRegular ∧
      read.countP (fun entry => isDirectory entry.mode) = written.countP SourceEntry.isDirectory ∧
      (read.map ParsedEntry.fileBytes).sum = (written.map SourceEntry.fileBytes).sum := by
  induction reads with
  | nil => exact ⟨rfl, rfl, rfl⟩
  | cons head _ ih =>
    obtain ⟨regular, directory, bytes⟩ := ih
    simp only [List.countP_cons, List.map_cons, List.sum_cons, regular, directory, bytes,
      ParsedEntry.fileBytes, SourceEntry.fileBytes, SourceEntry.isRegular, SourceEntry.isDirectory,
      head.mode, head.data]
    exact ⟨rfl, rfl, rfl⟩

/-- A list of entries that the kernel can take as its initramfs. -/
structure Bootable (entries : List SourceEntry) : Prop where
  few : entries.length ≤ maxEntries
  valid : ∀ entry ∈ entries, validPath (asBytes entry.name) = true
  short : ∀ entry ∈ entries, (asBytes entry.name).length ≤ maxPathLen
  small : ∀ entry ∈ entries, entry.data.length < 2 ^ 32
  hasInit : ∃ entry ∈ entries, entry.name = "bin/init"
  initRegular : ∀ entry ∈ entries, entry.name = "bin/init" → entry.isRegular = true

namespace Bootable

variable {entries : List SourceEntry}

theorem not_trailer (bootable : Bootable entries) :
    ∀ entry ∈ entries, asBytes entry.name ≠ cpioTrailer := by
  intro entry mem eq
  have valid := bootable.valid entry mem
  rw [eq, trailer_not_validPath] at valid
  cases valid

theorem wellformed (bootable : Bootable entries) : ∀ entry ∈ entries, entry.Wellformed :=
  fun entry mem =>
    { short := bootable.short entry mem
      small := Nat.le_pred_of_lt (bootable.small entry mem)
      valid := fun _ => bootable.valid entry mem
      noData := fun eq => absurd eq (bootable.not_trailer entry mem) }

/-- What was read back is recorded. -/
theorem records (bootable : Bootable entries) {walked : List ParsedEntry}
    (reads : List.Forall₂ Reads walked entries) :
    ∃ last, walked.foldlM ArchiveState.record .empty = .ok last ∧
      Records .empty walked last ∧ last.initFound = true := by
  have source : ∀ read ∈ walked, ∃ written ∈ entries, Reads read written := by
    intro read mem
    obtain ⟨index, inside, rfl⟩ := List.getElem_of_mem mem
    have inside' : index < entries.length := reads.length_eq ▸ inside
    exact ⟨entries[index], List.getElem_mem inside', reads.get inside inside'⟩
  have words : ArchiveState.empty.Words := ⟨by decide, by decide, by decide⟩
  have room : ArchiveState.empty.entries.list.length + walked.length ≤ maxEntries := by
    simpa [ArchiveState.empty, reads.length_eq] using bootable.few
  have initRegular : ∀ read ∈ walked, read.name = initPath → isRegular read.mode = true := by
    intro read mem isInit
    obtain ⟨written, mem', same⟩ := source read mem
    rw [same.mode]
    exact bootable.initRegular written mem' (asBytes_injective (by rw [← same.name, isInit]))
  have short : ∀ read ∈ walked, read.name.length ≤ maxPathLen := by
    intro read mem
    obtain ⟨written, mem', same⟩ := source read mem
    rw [same.name]
    exact bootable.short written mem'
  have valid : ∀ read ∈ walked, validPath read.name = true := by
    intro read mem
    obtain ⟨written, mem', same⟩ := source read mem
    rw [same.name]
    exact bootable.valid written mem'
  obtain ⟨last, recorded⟩ := foldlM_record_isOk initRegular short valid words room
  have records := records_of_foldlM words recorded
  refine ⟨last, recorded, records, ?_⟩
  obtain ⟨written, mem, named⟩ := bootable.hasInit
  obtain ⟨index, inside, rfl⟩ := List.getElem_of_mem mem
  have inside' : index < walked.length := reads.length_eq ▸ inside
  have isInit : walked[index].name = initPath :=
    (reads.get inside' inside).name.trans (congrArg asBytes named)
  rw [records.initFound]
  simp only [ArchiveState.empty, Bool.false_or, List.any_eq_true, beq_iff_eq]
  exact ⟨walked[index], List.getElem_mem inside', isInit⟩

/-- No counter saturates. -/
theorem fileBytes_le (bootable : Bootable entries) :
    (entries.map SourceEntry.fileBytes).sum ≤ maxWord := by
  have each : ∀ size ∈ entries.map SourceEntry.fileBytes, size ≤ 2 ^ 32 := by
    intro size mem
    obtain ⟨entry, inList, rfl⟩ := List.mem_map.mp mem
    have small := bootable.small entry inList
    rw [SourceEntry.fileBytes]
    split <;> omega
  have total := List.sum_le_card_nsmul _ _ each
  have few := bootable.few
  simp only [List.length_map, smul_eq_mul, maxEntries] at total few
  simp only [maxWord]
  omega

end Bootable

/-- An archive of the writer is accepted with the entries that went in, whatever number of
zeros follows it, and so does every walk over it. -/
theorem archive_roundTrip {entries : List SourceEntry} (bootable : Bootable entries)
    {trailer : SourceEntry} (named : trailer.name = "TRAILER!!!") (noData : trailer.data = [])
    (zeros : Nat) :
    ∃ archive last walked stop,
      appendEntries [] (entries ++ [trailer]) = some archive ∧
      parseArchive (archive ++ List.replicate zeros 0) .empty = (.ok (), last) ∧
      List.Forall₂ Indexes last.entries.list entries ∧
      last.totalFileBytes = (entries.map SourceEntry.fileBytes).sum ∧
      last.regularFiles = entries.countP SourceEntry.isRegular ∧
      last.directories = entries.countP SourceEntry.isDirectory ∧
      Walk (archive ++ List.replicate zeros 0) 0 walked stop ∧
      List.Forall₂ Reads walked entries := by
  have wellformedTrailer : trailer.Wellformed :=
    { short := by rw [named]; decide
      small := by rw [noData]; decide
      valid := fun other => absurd (congrArg asBytes named) other
      noData := fun _ => noData }
  have fits : ∀ entry ∈ entries ++ [trailer], entry.Fits := by
    intro entry mem
    rcases List.mem_append.mp mem with mem | mem
    · exact (bootable.wellformed entry mem).toFits
    · rw [List.mem_singleton.mp mem]
      exact wellformedTrailer.toFits
  obtain ⟨archive, written, size⟩ := appendEntries_isSome fits []
  have few := bootable.few
  simp only [maxEntries] at few
  have word : archive.length + 3 ≤ maxWord := by
    simp only [List.length_nil, List.length_append, List.length_singleton] at size
    simp only [maxWord]
    omega
  obtain ⟨walked, walk, reads⟩ := walk_appendEntries (congrArg asBytes named) wellformedTrailer
    bootable.wellformed bootable.not_trailer (List.replicate zeros 0) written word
  obtain ⟨last, recorded, records, initFound⟩ := bootable.records reads
  obtain ⟨regular, directory, bytes⟩ := Reads.sums reads
  have accepted : parseArchive (archive ++ List.replicate zeros 0) .empty = (.ok (), last) := by
    refine parseArchive_eq_ok.mpr ⟨walked, archive.length, walk, recorded, ?_, initFound⟩
    intro byte mem
    rw [List.drop_left] at mem
    exact List.eq_of_mem_replicate mem
  have table : List.Forall₂ Indexes last.entries.list entries := by
    obtain ⟨infos, eq, describes⟩ := records.table
    have eq : last.entries.list = infos := by simpa [ArchiveState.empty] using eq
    rw [eq]
    exact Reads.table describes reads
  refine ⟨archive, last, walked, archive.length, written, accepted, table, ?_, ?_, ?_, walk, reads⟩
  · rw [records.totalFileBytes, bytes, satAdd_of_le]
    · exact Nat.zero_add _
    · simpa [ArchiveState.empty] using bootable.fileBytes_le
  · have counted := List.countP_le_length (p := SourceEntry.isRegular) (l := entries)
    rw [records.regularFiles, regular, satAdd_of_le]
    · exact Nat.zero_add _
    · simp only [ArchiveState.empty, maxWord]
      omega
  · have counted := List.countP_le_length (p := SourceEntry.isDirectory) (l := entries)
    rw [records.directories, directory, satAdd_of_le]
    · exact Nat.zero_add _
    · simp only [ArchiveState.empty, maxWord]
      omega

/-- The archive of a build whose `bin/init` is the ELF magic. -/
theorem archive_roundTrip_build :
    ∃ archive last walked stop,
      buildInitramfs [0x7f, 0x45, 0x4c, 0x46] = some archive ∧
      parseArchive (archive ++ List.replicate 7 0) .empty = (.ok (), last) ∧
      last.totalFileBytes = 4 ∧ last.regularFiles = 1 ∧ last.directories = 1 ∧
      Walk (archive ++ List.replicate 7 0) 0 walked stop ∧ walked.length = 2 := by
  have bootable : Bootable [⟨1, "bin", 0o040755, 2, []⟩,
      ⟨2, "bin/init", 0o100755, 1, [0x7f, 0x45, 0x4c, 0x46]⟩] :=
    { few := by decide
      valid := by simp only [List.forall_mem_cons]; decide +kernel
      short := by simp only [List.forall_mem_cons]; decide +kernel
      small := by simp
      hasInit := ⟨_, List.mem_cons_of_mem _ List.mem_cons_self, rfl⟩
      initRegular := by simp only [List.forall_mem_cons]; decide +kernel }
  let trailer : SourceEntry := ⟨3, "TRAILER!!!", 0, 1, []⟩
  have isTrailer : trailer.name = "TRAILER!!!" := rfl
  obtain ⟨archive, last, walked, stop, built, accepted, -, total, regular, directories, walk,
    reads⟩ := archive_roundTrip bootable isTrailer rfl 7
  exact ⟨archive, last, walked, stop, built, accepted, by rw [total]; decide +kernel,
    by rw [regular]; decide +kernel, by rw [directories]; decide +kernel, walk,
    reads.length_eq⟩

end CloudOS.Initramfs
