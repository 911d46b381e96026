import CloudOS.Initramfs.Lookup

/-!
The grammar of an archive.

An entry is a sequence of bytes that carries its mode, name and data; an archive
is a sequence of entries, one trailer and zeros. The grammar says so by
concatenation and mentions neither offsets nor the reader. `parse_archive`
accepts exactly the archives of the grammar: what it reads at an aligned offset
is an entry there, and the walk over the bytes is their division into entries.
-/

namespace CloudOS.Initramfs

open Lib.Word (maxWord maxU32 checkedAdd checkedAdd_eq_some)
open Lib.Slice (slice get_eq_some get_of_eq slice_of_eq)
open Lib.Check (bind_eq_ok orFail orFail_eq_ok forM_eq_ok)

/-! ### Hexadecimal numbers -/

/-- The value of hexadecimal digits, the most significant first. -/
def hexValue (digits : List UInt8) : Nat :=
  digits.foldl (fun value byte => value * 16 + (hexDigit byte).getD 0) 0

def Hexadecimal (digits : List UInt8) : Prop := ∀ byte ∈ digits, (hexDigit byte).isSome = true

theorem hexDigit_lt : ∀ byte : UInt8, (hexDigit byte).getD 0 < 16 := by decide +kernel

/-- The loop of `parse_hex_u32` never overflows on so few digits. -/
theorem foldlM_parseHexDigit {digits : List UInt8} {value result : Nat}
    (small : (value + 1) * 16 ^ digits.length ≤ 2 ^ 32) :
    digits.foldlM parseHexDigit value = .ok result ↔ Hexadecimal digits ∧
      digits.foldl (fun value byte => value * 16 + (hexDigit byte).getD 0) value = result := by
  induction digits generalizing value with
  | nil =>
    refine ⟨fun eq => ⟨by simp [Hexadecimal], by cases eq; rfl⟩, ?_⟩
    rintro ⟨-, rfl⟩
    rfl
  | cons byte rest ih =>
    have bound := hexDigit_lt byte
    rw [List.length_cons, Nat.pow_succ] at small
    have positive : 0 < 16 ^ rest.length := Nat.pow_pos (by decide)
    rw [List.foldlM_cons, bind_eq_ok]
    cases digit : hexDigit byte with
    | none =>
      refine iff_of_false ?_ ?_
      · rintro ⟨next, parses, -⟩
        rw [parseHexDigit, digit] at parses
        cases parses
      · rintro ⟨hex, -⟩
        have isDigit := hex byte List.mem_cons_self
        rw [digit] at isDigit
        cases isDigit
    | some d =>
      rw [digit, Option.getD_some] at bound
      have fits : (value * 16 + d + 1) * 16 ^ rest.length ≤ 2 ^ 32 := by
        calc (value * 16 + d + 1) * 16 ^ rest.length
            ≤ ((value + 1) * 16) * 16 ^ rest.length := Nat.mul_le_mul_right _ (by omega)
          _ = (value + 1) * (16 ^ rest.length * 16) := by ring
          _ ≤ 2 ^ 32 := small
      have word : value * 16 + d + 1 ≤ 2 ^ 32 :=
        (Nat.le_mul_of_pos_right _ positive).trans fits
      have parses : parseHexDigit value byte = .ok (value * 16 + d) := by
        have added : checkedAdd maxU32 (value * 16) d = some (value * 16 + d) :=
          checkedAdd_eq_some.mpr ⟨rfl, by simp only [maxU32]; omega⟩
        rw [parseHexDigit, digit]
        dsimp only
        rw [if_pos (by simp only [maxU32]; omega), added, orFail]
      have hex : Hexadecimal (byte :: rest) ↔ Hexadecimal rest := by
        simp [Hexadecimal, digit]
      rw [hex, List.foldl_cons, digit, Option.getD_some, ← ih fits, parses]
      constructor
      · rintro ⟨_, ⟨⟩, rounds⟩
        exact rounds
      · exact fun rounds => ⟨_, rfl, rounds⟩

/-- A field is parsed exactly when it consists of eight digits. -/
theorem parseHexU32_eq_ok {digits : List UInt8} {value : Nat} :
    parseHexU32 digits = .ok value ↔
      digits.length = 8 ∧ Hexadecimal digits ∧ hexValue digits = value := by
  unfold parseHexU32
  split
  · rename_i size
    exact iff_of_false (fun eq => by cases eq) fun holds => size holds.1
  · rename_i size
    have eight : digits.length = 8 := not_not.mp size
    rw [foldlM_parseHexDigit (by rw [eight]; decide), hexValue]
    simp [eight]

/-- The number in a field of a header without its magic. -/
def hexField (digits : List UInt8) (k : Nat) : Nat := hexValue (slice digits (8 * k) (8 * k + 8))

theorem parse_hexField {digits : List UInt8} (size : digits.length = 13 * 8) {k : Nat}
    (inside : k < 13) {value : Nat} :
    parseHexU32 (slice (cpioNewcMagic ++ digits) (6 + 8 * k) (6 + 8 * k + 8)) = .ok value ↔
      Hexadecimal (slice digits (8 * k) (8 * k + 8)) ∧ hexField digits k = value := by
  have cut : slice (cpioNewcMagic ++ digits) (6 + 8 * k) (6 + 8 * k + 8) =
      slice digits (8 * k) (8 * k + 8) := by
    have magic : cpioNewcMagic.length = 6 := by decide +kernel
    unfold slice
    rw [← magic, ← List.drop_drop, List.drop_left]
    congr 1
    omega
  rw [cut, parseHexU32_eq_ok, hexField, Lib.Slice.length_slice (by omega) (by omega)]
  simp

/-- The digits of a header are the digits of its fields. -/
theorem hexadecimal_iff {digits : List UInt8} (size : digits.length = 13 * 8) :
    Hexadecimal digits ↔ ∀ k < 13, Hexadecimal (slice digits (8 * k) (8 * k + 8)) := by
  constructor
  · intro hex k _ byte mem
    exact hex byte (List.mem_of_mem_drop (List.mem_of_mem_take mem))
  · intro fields byte mem
    obtain ⟨i, inside, rfl⟩ := List.getElem_of_mem mem
    refine fields (i / 8) (by omega) _ ?_
    rw [slice, List.mem_take_iff_getElem]
    refine ⟨i % 8, ?_, ?_⟩
    · rw [List.length_drop]
      omega
    · rw [List.getElem_drop]
      congr 1
      omega

/-- The check of the header looks at all thirteen fields. -/
theorem checkFields_eq_ok {digits : List UInt8} (size : digits.length = 13 * 8) :
    checkFields (cpioNewcMagic ++ digits) = .ok () ↔ Hexadecimal digits := by
  rw [hexadecimal_iff size, checkFields]
  constructor
  · intro checked k inside
    have field := forM_eq_ok.mp checked (6 + 8 * k) (List.mem_range'.mpr ⟨k, inside, rfl⟩)
    obtain ⟨value, parses, -⟩ := bind_eq_ok.mp field
    exact ((parse_hexField size inside).mp parses).1
  · intro fields
    refine forM_eq_ok.mpr fun offset mem => ?_
    obtain ⟨k, inside, rfl⟩ := List.mem_range'.mp mem
    exact bind_eq_ok.mpr ⟨_, (parse_hexField size inside).mpr ⟨fields k inside, rfl⟩, rfl⟩

/-! ### The grammar -/

/-- What an entry carries. -/
structure ArchiveEntry where
  mode : Nat
  name : List UInt8
  data : List UInt8
deriving DecidableEq, Repr

/-- The bytes of an entry: the magic, thirteen fields of eight hexadecimal digits,
the terminated name and the data, both padded to a multiple of four. -/
inductive EntryBytes : List UInt8 → ArchiveEntry → Prop where
  | mk {digits namePad dataPad : List UInt8} {entry : ArchiveEntry}
      (size : digits.length = 13 * 8) (hex : Hexadecimal digits)
      (mode : hexField digits 1 = entry.mode)
      (fileSize : hexField digits 6 = entry.data.length)
      (nameSize : hexField digits 11 = entry.name.length + 1)
      (checksum : hexField digits 12 = 0)
      (short : entry.name.length + 1 ≤ maxPathLen + 1)
      (namePadShort : namePad.length < 4)
      (nameAligned : (cpioHeaderSize + (entry.name.length + 1) + namePad.length) % 4 = 0)
      (dataPadShort : dataPad.length < 4)
      (dataAligned : (entry.data.length + dataPad.length) % 4 = 0) :
      EntryBytes (cpioNewcMagic ++ digits ++ (entry.name ++ [0]) ++ namePad ++ entry.data ++ dataPad)
        entry

/-- An archive: at most 32 entries with valid paths, the trailer, and zeros. Every
`bin/init` is a regular file, and there is one. -/
inductive ArchiveBytes : List UInt8 → List ArchiveEntry → Prop where
  | mk {chunks : List (List UInt8)} {entries : List ArchiveEntry} {last zeros : List UInt8}
      {mode : Nat} (laidOut : List.Forall₂ EntryBytes chunks entries)
      (valid : ∀ entry ∈ entries, validPath entry.name = true)
      (few : entries.length ≤ maxEntries)
      (trailer : EntryBytes last ⟨mode, cpioTrailer, []⟩)
      (blank : ∀ byte ∈ zeros, byte = 0)
      (initRegular : ∀ entry ∈ entries, entry.name = initPath → isRegular entry.mode = true)
      (initFound : ∃ entry ∈ entries, entry.name = initPath) :
      ArchiveBytes (chunks.flatten ++ last ++ zeros) entries

def ParsedEntry.content (entry : ParsedEntry) : ArchiveEntry := ⟨entry.mode, entry.name, entry.data⟩

theorem slice_append_slice (bytes : List UInt8) {start middle stop : Nat} (low : start ≤ middle)
    (high : middle ≤ stop) :
    slice bytes start middle ++ slice bytes middle stop = slice bytes start stop := by
  unfold slice
  rw [show stop - start = (middle - start) + (stop - middle) by omega, List.take_add,
    List.drop_drop, Nat.add_sub_of_le low]

/-- The header that is read consists of the magic and its digits. -/
theorem EntryAt.digits {bytes : List UInt8} {offset : Nat} {entry : ParsedEntry}
    (at' : EntryAt bytes offset entry) :
    ∃ digits : List UInt8, digits.length = 13 * 8 ∧
      headerAt bytes offset = cpioNewcMagic ++ digits := by
  have size : (headerAt bytes offset).length = cpioHeaderSize := by
    have length := Lib.Slice.length_slice (Nat.le_add_right offset cpioHeaderSize) at'.headerFits
    rw [headerAt, length]
    omega
  refine ⟨slice (headerAt bytes offset) 6 cpioHeaderSize, ?_, ?_⟩
  · exact Lib.Slice.length_slice (by decide) size.ge
  · rw [← at'.magic, slice_append_slice _ (Nat.zero_le 6) (by decide)]
    unfold slice
    rw [List.drop_zero, Nat.sub_zero, List.take_of_length_le size.le]

/-- The fields of a header that an entry depends on. -/
structure HeaderFor (digits : List UInt8) (entry : ArchiveEntry) : Prop where
  hex : Hexadecimal digits
  mode : hexField digits 1 = entry.mode
  fileSize : hexField digits 6 = entry.data.length
  nameSize : hexField digits 11 = entry.name.length + 1
  checksum : hexField digits 12 = 0

/-- The fields are parsed as the digits say. -/
theorem headerFor_iff {digits : List UInt8} (size : digits.length = 13 * 8)
    (entry : ArchiveEntry) :
    HeaderFor digits entry ↔ checkFields (cpioNewcMagic ++ digits) = .ok () ∧
      parseHexU32 (slice (cpioNewcMagic ++ digits) 14 22) = .ok entry.mode ∧
      parseHexU32 (slice (cpioNewcMagic ++ digits) 54 62) = .ok entry.data.length ∧
      parseHexU32 (slice (cpioNewcMagic ++ digits) 94 102) = .ok (entry.name.length + 1) ∧
      parseHexU32 (slice (cpioNewcMagic ++ digits) 102 110) = .ok 0 := by
  have field : ∀ k < 13, ∀ value, Hexadecimal digits →
      (parseHexU32 (slice (cpioNewcMagic ++ digits) (6 + 8 * k) (6 + 8 * k + 8)) = .ok value ↔
        hexField digits k = value) := fun k inside value hex =>
    (parse_hexField size inside).trans (and_iff_right ((hexadecimal_iff size).mp hex k inside))
  constructor
  · rintro ⟨hex, mode, fileSize, nameSize, checksum⟩
    exact ⟨(checkFields_eq_ok size).mpr hex, (field 1 (by decide) _ hex).mpr mode,
      (field 6 (by decide) _ hex).mpr fileSize, (field 11 (by decide) _ hex).mpr nameSize,
      (field 12 (by decide) _ hex).mpr checksum⟩
  · rintro ⟨fields, mode, fileSize, nameSize, checksum⟩
    have hex := (checkFields_eq_ok size).mp fields
    exact ⟨hex, (field 1 (by decide) _ hex).mp mode, (field 6 (by decide) _ hex).mp fileSize,
      (field 11 (by decide) _ hex).mp nameSize, (field 12 (by decide) _ hex).mp checksum⟩

/-- A short padding up to a multiple of four rounds up. -/
theorem roundUp_eq {value padding : Nat} (short : padding < 4)
    (aligned : (value + padding) % 4 = 0) : roundUp value = value + padding := by
  unfold roundUp
  omega

/-- Where the parts of an entry are among the bytes around it. -/
theorem parts_of_chunk {bytes front digits name namePad data dataPad rest : List UInt8}
    (size : digits.length = 13 * 8)
    (whole : bytes = front ++
      (cpioNewcMagic ++ digits ++ (name ++ [0]) ++ namePad ++ data ++ dataPad ++ rest)) :
    headerAt bytes front.length = cpioNewcMagic ++ digits ∧
      Lib.Slice.get bytes (front.length + cpioHeaderSize)
        (front.length + cpioHeaderSize + (name.length + 1)) = some (name ++ [0]) ∧
      Lib.Slice.get bytes (front.length + cpioHeaderSize + (name.length + 1) + namePad.length)
        (front.length + cpioHeaderSize + (name.length + 1) + namePad.length + data.length) =
          some data := by
  have magic : cpioNewcMagic.length = 6 := by decide +kernel
  refine ⟨?_, ?_, ?_⟩
  · refine slice_of_eq front ((name ++ [0]) ++ namePad ++ data ++ dataPad ++ rest) ?_ rfl ?_
    · rw [whole]
      simp only [List.append_assoc]
    · rw [List.length_append, magic, size]
  · refine get_of_eq (front ++ (cpioNewcMagic ++ digits)) (namePad ++ data ++ dataPad ++ rest) ?_ ?_ ?_
    · rw [whole]
      simp only [List.append_assoc]
    · rw [List.length_append, List.length_append, magic, size]
    · simp
  · refine get_of_eq (front ++ (cpioNewcMagic ++ digits) ++ (name ++ [0]) ++ namePad)
      (dataPad ++ rest) ?_ ?_ rfl
    · rw [whole]
      simp only [List.append_assoc]
    · simp only [List.length_append, List.length_singleton, magic, size, cpioHeaderSize]

/-- The bytes that are read at an offset, part by part. -/
theorem EntryAt.parts {bytes : List UInt8} {offset : Nat} {entry : ParsedEntry}
    (at' : EntryAt bytes offset entry) {digits : List UInt8}
    (header : headerAt bytes offset = cpioNewcMagic ++ digits) :
    ∃ namePad dataPad : List UInt8,
      dataStart offset (entry.name.length + 1) =
        offset + cpioHeaderSize + (entry.name.length + 1) + namePad.length ∧
      entry.nextOffset =
        dataStart offset (entry.name.length + 1) + entry.data.length + dataPad.length ∧
      slice bytes offset entry.nextOffset =
        cpioNewcMagic ++ digits ++ (entry.name ++ [0]) ++ namePad ++ entry.data ++ dataPad := by
  obtain ⟨-, nameFits, name⟩ := get_eq_some.mp at'.name
  obtain ⟨-, dataFits, data⟩ := get_eq_some.mp at'.data
  have inside := at'.nextFits
  have afterName : offset + cpioHeaderSize + (entry.name.length + 1) ≤
      dataStart offset (entry.name.length + 1) := le_roundUp _
  have afterData : dataStart offset (entry.name.length + 1) + entry.data.length ≤
      entry.nextOffset := at'.nextOffset ▸ le_roundUp _
  refine ⟨slice bytes (offset + cpioHeaderSize + (entry.name.length + 1))
      (dataStart offset (entry.name.length + 1)),
    slice bytes (dataStart offset (entry.name.length + 1) + entry.data.length) entry.nextOffset,
    ?_, ?_, ?_⟩
  · rw [Lib.Slice.length_slice afterName (by omega)]
    omega
  · rw [Lib.Slice.length_slice afterData inside]
    omega
  · have joined : headerAt bytes offset ++
        slice bytes (offset + cpioHeaderSize)
          (offset + cpioHeaderSize + (entry.name.length + 1)) ++
        slice bytes (offset + cpioHeaderSize + (entry.name.length + 1))
          (dataStart offset (entry.name.length + 1)) ++
        slice bytes (dataStart offset (entry.name.length + 1))
          (dataStart offset (entry.name.length + 1) + entry.data.length) ++
        slice bytes (dataStart offset (entry.name.length + 1) + entry.data.length)
          entry.nextOffset = slice bytes offset entry.nextOffset := by
      rw [headerAt, slice_append_slice _ (by omega) (by omega),
        slice_append_slice _ (by omega) (by omega), slice_append_slice _ (by omega) (by omega),
        slice_append_slice _ (by omega) (by omega)]
    rw [← joined, header, name, data]

/-- What is read at an aligned offset are the bytes of an entry. -/
theorem EntryAt.entryBytes {bytes : List UInt8} {offset : Nat} (aligned : offset % 4 = 0)
    {entry : ParsedEntry} (at' : EntryAt bytes offset entry) :
    EntryBytes (slice bytes offset entry.nextOffset) entry.content := by
  obtain ⟨digits, size, header⟩ := at'.digits
  obtain ⟨namePad, dataPad, dataAt, nextAt, parts⟩ := at'.parts header
  have fields := at'.fields
  have mode := at'.mode
  have fileSize := at'.fileSize
  have nameSize := at'.nameSize
  have checksum := at'.checksum
  rw [header] at fields mode fileSize nameSize checksum
  have fits := (headerFor_iff size entry.content).mpr
    ⟨fields, mode, fileSize, nameSize, checksum⟩
  have nameUp : dataStart offset (entry.name.length + 1) =
    (offset + cpioHeaderSize + (entry.name.length + 1) + 3) / 4 * 4 := rfl
  have dataUp := at'.nextOffset
  rw [roundUp] at dataUp
  rw [parts]
  refine @EntryBytes.mk digits namePad dataPad entry.content size fits.hex fits.mode fits.fileSize
    fits.nameSize fits.checksum (Nat.succ_le_succ at'.nameShort) ?_ ?_ ?_ ?_
  · omega
  · simp only [ParsedEntry.content, cpioHeaderSize] at *
    omega
  · omega
  · simp only [ParsedEntry.content, cpioHeaderSize] at *
    omega

/-- The bytes of an entry at an aligned offset are read as that entry. -/
theorem entryAt_of_entryBytes {bytes chunk rest : List UInt8} {offset : Nat}
    (aligned : offset % 4 = 0) (word : bytes.length + 3 ≤ maxWord) {entry : ParsedEntry}
    (entryBytes : EntryBytes chunk entry.content) (split : bytes.drop offset = chunk ++ rest)
    (next : entry.nextOffset = offset + chunk.length) (inside : entry.nextOffset ≤ bytes.length)
    (trailer : entry.trailer = (entry.name == cpioTrailer))
    (noData : entry.trailer = true → entry.data = [])
    (valid : entry.trailer = false → validPath entry.name = true) : EntryAt bytes offset entry := by
  cases entryBytes with
  | @mk digits namePad dataPad _ size hex mode fileSize nameSize checksum short namePadShort
      nameAligned dataPadShort dataAligned =>
    simp only [ParsedEntry.content] at *
    have magic : cpioNewcMagic.length = 6 := by decide +kernel
    have before : (bytes.take offset).length = offset := by
      rw [List.length_take]
      omega
    have whole := (List.take_append_drop offset bytes).symm
    rw [split] at whole
    obtain ⟨header, name, data⟩ := parts_of_chunk size whole
    rw [before] at header name data
    simp only [List.length_append, List.length_singleton, magic, size] at next
    have dataAt : dataStart offset (entry.name.length + 1) =
        offset + cpioHeaderSize + (entry.name.length + 1) + namePad.length :=
      roundUp_eq namePadShort (by simp only [cpioHeaderSize] at *; omega)
    have nextAt : roundUp (dataStart offset (entry.name.length + 1) + entry.data.length) =
        dataStart offset (entry.name.length + 1) + entry.data.length + dataPad.length :=
      roundUp_eq dataPadShort (by simp only [dataAt, cpioHeaderSize] at *; omega)
    obtain ⟨fields, mode, fileSize, nameSize, checksum⟩ :=
      (headerFor_iff size entry.content).mp ⟨hex, mode, fileSize, nameSize, checksum⟩
    rw [← header] at fields mode fileSize nameSize checksum
    simp only [cpioHeaderSize] at dataAt
    exact
      { headerFits := by simp only [cpioHeaderSize]; omega
        magic := by rw [header]; exact slice_of_eq [] digits rfl rfl (by rw [magic])
        fields, mode, fileSize, nameSize, checksum
        nameShort := Nat.succ_le_succ_iff.mp short
        name
        data := by simp only [dataAt]; exact data
        nextOffset := by rw [nextAt, dataAt]; omega
        nextFits := inside
        word := by omega
        trailer, noData, valid }

/-- What is read at an aligned offset are the bytes of an entry there. -/
theorem entryAt_iff {bytes : List UInt8} {offset : Nat} (aligned : offset % 4 = 0)
    (word : bytes.length + 3 ≤ maxWord) {entry : ParsedEntry} :
    EntryAt bytes offset entry ↔ ∃ chunk, EntryBytes chunk entry.content ∧
      bytes.drop offset = chunk ++ bytes.drop entry.nextOffset ∧
      entry.nextOffset = offset + chunk.length ∧ entry.nextOffset ≤ bytes.length ∧
      entry.trailer = (entry.name == cpioTrailer) ∧ (entry.trailer = true → entry.data = []) ∧
      (entry.trailer = false → validPath entry.name = true) := by
  constructor
  · intro at'
    have onward := at'.offset_lt
    refine ⟨_, at'.entryBytes aligned, drop_eq_slice_append bytes onward.le, ?_, at'.nextFits,
      at'.trailer, at'.noData, at'.valid⟩
    rw [Lib.Slice.length_slice onward.le at'.nextFits]
    omega
  · rintro ⟨chunk, entryBytes, split, next, inside, trailer, noData, valid⟩
    exact entryAt_of_entryBytes aligned word entryBytes split next inside trailer noData valid

theorem EntryBytes.length_mod {chunk : List UInt8} {entry : ArchiveEntry}
    (entryBytes : EntryBytes chunk entry) : chunk.length % 4 = 0 ∧ 0 < chunk.length := by
  cases entryBytes with
  | mk size hex mode fileSize nameSize checksum short namePadShort nameAligned dataPadShort
      dataAligned =>
    have magic : cpioNewcMagic.length = 6 := by decide +kernel
    simp only [List.length_append, List.length_singleton, magic, size, cpioHeaderSize] at *
    omega

/-! ### The walk -/

/-- The entries of a walk follow one another in the bytes, and then comes the trailer. -/
theorem Walk.bytes {bytes : List UInt8} {offset stop : Nat} {entries : List ParsedEntry}
    (walk : Walk bytes offset entries stop) (aligned : offset % 4 = 0)
    (word : bytes.length + 3 ≤ maxWord) :
    ∃ chunks last mode, List.Forall₂ EntryBytes chunks (entries.map ParsedEntry.content) ∧
      EntryBytes last ⟨mode, cpioTrailer, []⟩ ∧
      bytes.drop offset = chunks.flatten ++ last ++ bytes.drop stop := by
  induction walk with
  | @trailer offset entry parses isTrailer =>
    obtain ⟨chunk, entryBytes, split, -, -, named, noData, -⟩ :=
      (entryAt_iff aligned word).mp (parseEntry_eq_ok.mp parses)
    rw [isTrailer, eq_comm, beq_iff_eq] at named
    have content : entry.content = ⟨entry.mode, cpioTrailer, []⟩ := by
      rw [ParsedEntry.content, named, noData isTrailer]
    rw [content] at entryBytes
    exact ⟨[], chunk, entry.mode, .nil, entryBytes, split⟩
  | @entry offset entry rest stop parses noTrailer walk ih =>
    obtain ⟨chunk, entryBytes, split, next, -, -, -, -⟩ :=
      (entryAt_iff aligned word).mp (parseEntry_eq_ok.mp parses)
    have size := entryBytes.length_mod.1
    obtain ⟨chunks, last, mode, laidOut, trailer, more⟩ := ih (by omega)
    refine ⟨chunk :: chunks, last, mode, .cons entryBytes laidOut, trailer, ?_⟩
    rw [split, more, List.flatten_cons, List.append_assoc, List.append_assoc, List.append_assoc]

/-- The bytes of an entry are read as that entry. -/
theorem parseEntry_of_bytes {bytes : List UInt8} (word : bytes.length + 3 ≤ maxWord)
    {chunk rest : List UInt8} {entry : ArchiveEntry} (entryBytes : EntryBytes chunk entry)
    {offset : Nat} (aligned : offset % 4 = 0) (split : bytes.drop offset = chunk ++ rest)
    (noData : entry.name = cpioTrailer → entry.data = [])
    (valid : entry.name ≠ cpioTrailer → validPath entry.name = true) :
    ∃ parsed, parseEntry bytes offset = .ok parsed ∧ parsed.content = entry ∧
      parsed.trailer = (entry.name == cpioTrailer) ∧ bytes.drop parsed.nextOffset = rest ∧
      parsed.nextOffset % 4 = 0 := by
  obtain ⟨chunkAligned, nonempty⟩ := entryBytes.length_mod
  have size := congrArg List.length split
  rw [List.length_drop, List.length_append] at size
  have after : bytes.drop (offset + chunk.length) = rest := by
    rw [← List.drop_drop, split, List.drop_left]
  refine ⟨⟨entry.name, entry.data, entry.mode, offset + chunk.length, entry.name == cpioTrailer⟩,
    ?_, rfl, rfl, after, ?_⟩
  · rw [parseEntry_eq_ok, entryAt_iff aligned word]
    refine ⟨chunk, entryBytes, ?_, rfl, ?_, rfl, ?_, ?_⟩
    · rw [split, after]
    · dsimp only
      omega
    · exact fun isTrailer => noData (beq_iff_eq.mp isTrailer)
    · exact fun noTrailer => valid (by simpa using noTrailer)
  · dsimp only
    omega

/-- Bytes that are laid out as entries and a trailer are walked entry by entry. -/
theorem walk_of_bytes {bytes : List UInt8} (word : bytes.length + 3 ≤ maxWord)
    {chunks : List (List UInt8)} {entries : List ArchiveEntry} {last rest : List UInt8} {mode : Nat}
    (laidOut : List.Forall₂ EntryBytes chunks entries)
    (valid : ∀ entry ∈ entries, validPath entry.name = true)
    (trailer : EntryBytes last ⟨mode, cpioTrailer, []⟩) {offset : Nat} (aligned : offset % 4 = 0)
    (split : bytes.drop offset = chunks.flatten ++ last ++ rest) :
    ∃ parsed stop, Walk bytes offset parsed stop ∧ parsed.map ParsedEntry.content = entries ∧
      bytes.drop stop = rest := by
  induction laidOut generalizing offset with
  | nil =>
    rw [List.flatten_nil, List.nil_append] at split
    obtain ⟨parsed, parses, content, isTrailer, after, -⟩ :=
      parseEntry_of_bytes word trailer aligned split (fun _ => rfl) (fun other => absurd rfl other)
    exact ⟨[], parsed.nextOffset, .trailer parses (isTrailer.trans (beq_self_eq_true _)), rfl, after⟩
  | @cons chunk entry chunks entries entryBytes laidOut ih =>
    have validEntry := valid entry List.mem_cons_self
    have other : entry.name ≠ cpioTrailer := by
      intro same
      rw [same, trailer_not_validPath] at validEntry
      cases validEntry
    rw [List.flatten_cons, List.append_assoc, List.append_assoc, ← List.append_assoc _ last] at split
    obtain ⟨parsed, parses, content, noTrailer, after, alignedNext⟩ :=
      parseEntry_of_bytes word entryBytes aligned split (fun same => absurd same other)
        (fun _ => validEntry)
    obtain ⟨rest', stop, walk, contents, ends⟩ :=
      ih (fun e mem => valid e (List.mem_cons_of_mem _ mem)) alignedNext after
    refine ⟨parsed :: rest', stop, .entry parses ?_ walk, ?_, ends⟩
    · rw [noTrailer, beq_eq_false_iff_ne]
      exact other
    · rw [List.map_cons, content, contents]

/-- Entries with longer paths end the walk. -/
theorem Walk.short {bytes : List UInt8} {offset stop : Nat} {entries : List ParsedEntry}
    (walk : Walk bytes offset entries stop) :
    ∀ entry ∈ entries, entry.name.length ≤ maxPathLen := by
  induction walk with
  | trailer _ _ => exact fun _ mem => absurd mem List.not_mem_nil
  | entry parses _ _ ih =>
    intro entry mem
    rcases List.mem_cons.mp mem with rfl | mem
    · exact (parseEntry_eq_ok.mp parses).nameShort
    · exact ih entry mem

/-! ### Acceptance -/

theorem regular_of_foldlM {entries : List ParsedEntry} {state last : ArchiveState}
    (recorded : entries.foldlM ArchiveState.record state = .ok last) :
    ∀ entry ∈ entries, entry.name = initPath → isRegular entry.mode = true := by
  induction entries generalizing state with
  | nil => exact fun _ mem => absurd mem List.not_mem_nil
  | cons first rest ih =>
    rw [List.foldlM_cons, bind_eq_ok] at recorded
    obtain ⟨next, one, more⟩ := recorded
    intro entry mem
    rcases List.mem_cons.mp mem with rfl | mem
    · exact (record_eq_ok one).1
    · exact ih more entry mem

/-- The most bytes that a slice has, `isize::MAX`. -/
abbrev maxSlice : Nat := 2 ^ 63 - 1

/-- A state without entries, as `init` prepares it. -/
structure ArchiveState.Blank (state : ArchiveState) : Prop extends state.Fresh where
  noInit : state.initFound = false

theorem empty_blank : ArchiveState.empty.Blank := ⟨empty_fresh, rfl⟩

/-- What an accepted archive is walked through is what the grammar says it holds. -/
theorem archiveBytes_of_accepted {bytes : List UInt8} (word : bytes.length + 3 ≤ maxWord)
    {start last : ArchiveState} (blank : start.Blank)
    (accepted : parseArchive bytes start = (.ok (), last)) :
    ∃ parsed stop, Walk bytes 0 parsed stop ∧
      ArchiveBytes bytes (parsed.map ParsedEntry.content) := by
  obtain ⟨parsed, stop, walk, recorded, zeros, found⟩ := parseArchive_eq_ok.mp accepted
  obtain ⟨chunks, trailer, mode, laidOut, trailerBytes, split⟩ := walk.bytes rfl word
  have records := records_of_foldlM blank.toWords recorded
  obtain ⟨infos, table, describes⟩ := records.table
  have regular := regular_of_foldlM recorded
  refine ⟨parsed, stop, walk, ?_⟩
  rw [List.drop_zero] at split
  rw [split]
  refine .mk laidOut ?_ ?_ trailerBytes zeros ?_ ?_
  · intro entry mem
    obtain ⟨original, within, rfl⟩ := List.mem_map.mp mem
    exact walk.valid original within
  · have fits := last.entries.fits
    rw [table, blank.noEntries, List.nil_append, describes.length_eq] at fits
    rwa [List.length_map]
  · intro entry mem isInit
    obtain ⟨original, within, rfl⟩ := List.mem_map.mp mem
    exact regular original within isInit
  · rw [records.initFound, blank.noInit, Bool.false_or, List.any_eq_true] at found
    obtain ⟨entry, mem, named⟩ := found
    exact ⟨entry.content, List.mem_map_of_mem mem, beq_iff_eq.mp named⟩

/-- The archives of the grammar are accepted. -/
theorem accepted_of_archiveBytes {bytes : List UInt8} (word : bytes.length + 3 ≤ maxWord)
    {start : ArchiveState} (blank : start.Blank) {entries : List ArchiveEntry}
    (archive : ArchiveBytes bytes entries) :
    ∃ last, parseArchive bytes start = (.ok (), last) := by
  cases archive with
  | mk laidOut valid few trailer zeros initRegular initFound =>
    obtain ⟨parsed, stop, walk, rfl, ends⟩ := walk_of_bytes word laidOut valid trailer
      (Nat.zero_mod 4) (List.drop_zero ..)
    have inEntries : ∀ entry ∈ parsed, entry.content ∈ parsed.map ParsedEntry.content :=
      fun entry mem => List.mem_map_of_mem mem
    rw [List.length_map] at few
    obtain ⟨last, recorded⟩ := foldlM_record_isOk
      (fun entry mem isInit => initRegular _ (inEntries entry mem) isInit)
      walk.short (fun entry mem => valid _ (inEntries entry mem)) blank.toWords
      (by rw [blank.noEntries, List.length_nil, Nat.zero_add]; exact few)
    have records := records_of_foldlM blank.toWords recorded
    refine ⟨last, parseArchive_eq_ok.mpr ⟨parsed, stop, walk, recorded, ?_, ?_⟩⟩
    · rw [ends]
      exact zeros
    · rw [records.initFound, blank.noInit, Bool.false_or, List.any_eq_true]
      obtain ⟨entry, mem, named⟩ := initFound
      obtain ⟨original, within, rfl⟩ := List.mem_map.mp mem
      exact ⟨original, within, beq_iff_eq.mpr named⟩

end CloudOS.Initramfs
