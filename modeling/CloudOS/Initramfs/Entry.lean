import CloudOS.Initramfs.Paths

/-!
Which entries `parse_entry` accepts, and what it reads from them.
-/

namespace CloudOS.Initramfs

open Lib.Word (maxWord checkedAdd checkedAdd_eq_some and_not_low_mask)
open Lib.Slice (slice get_eq_some)
open Lib.Check (require orFail bind_eq_ok require_eq_ok orFail_eq_ok)

/-- The next multiple of four. -/
def roundUp (value : Nat) : Nat := (value + 3) / 4 * 4

theorem le_roundUp (value : Nat) : value ≤ roundUp value := by
  rw [roundUp]
  omega

/-- Rounding up fails only at the end of the address space. -/
theorem alignUp_eq_some {value aligned : Nat} :
    alignUp value 4 = some aligned ↔ value + 3 ≤ maxWord ∧ aligned = roundUp value := by
  rw [alignUp, Option.map_eq_some_iff]
  constructor
  · rintro ⟨sum, added, rfl⟩
    obtain ⟨rfl, word⟩ := checkedAdd_eq_some.mp added
    exact ⟨word, and_not_low_mask (k := 2) word⟩
  · rintro ⟨word, rfl⟩
    exact ⟨value + 3, checkedAdd_eq_some.mpr ⟨rfl, word⟩, and_not_low_mask (k := 2) word⟩

/-- The header of the entry at an offset. -/
def headerAt (bytes : List UInt8) (offset : Nat) : List UInt8 :=
  slice bytes offset (offset + cpioHeaderSize)

/-- Where the data of an entry at an offset starts. -/
def dataStart (offset nameSize : Nat) : Nat := roundUp (offset + cpioHeaderSize + nameSize)

/-- The entry that the bytes hold at an offset. -/
structure EntryAt (bytes : List UInt8) (offset : Nat) (entry : ParsedEntry) : Prop where
  headerFits : offset + cpioHeaderSize ≤ bytes.length
  magic : slice (headerAt bytes offset) 0 6 = cpioNewcMagic
  fields : checkFields (headerAt bytes offset) = .ok ()
  mode : parseHexU32 (slice (headerAt bytes offset) 14 22) = .ok entry.mode
  fileSize : parseHexU32 (slice (headerAt bytes offset) 54 62) = .ok entry.data.length
  nameSize : parseHexU32 (slice (headerAt bytes offset) 94 102) = .ok (entry.name.length + 1)
  checksum : parseHexU32 (slice (headerAt bytes offset) 102 110) = .ok 0
  nameShort : entry.name.length ≤ maxPathLen
  name : Lib.Slice.get bytes (offset + cpioHeaderSize)
    (offset + cpioHeaderSize + (entry.name.length + 1)) = some (entry.name ++ [0])
  data : Lib.Slice.get bytes (dataStart offset (entry.name.length + 1))
    (dataStart offset (entry.name.length + 1) + entry.data.length) = some entry.data
  nextOffset : entry.nextOffset =
    roundUp (dataStart offset (entry.name.length + 1) + entry.data.length)
  nextFits : entry.nextOffset ≤ bytes.length
  word : dataStart offset (entry.name.length + 1) + entry.data.length + 3 ≤ maxWord
  trailer : entry.trailer = (entry.name == cpioTrailer)
  noData : entry.trailer = true → entry.data = []
  valid : entry.trailer = false → validPath entry.name = true

namespace EntryAt

variable {bytes : List UInt8} {offset : Nat} {entry : ParsedEntry}

theorem offset_lt (at' : EntryAt bytes offset entry) : offset < entry.nextOffset := by
  have start := le_roundUp (offset + cpioHeaderSize + (entry.name.length + 1))
  have next := le_roundUp (dataStart offset (entry.name.length + 1) + entry.data.length)
  have eq := at'.nextOffset
  rw [dataStart] at next
  rw [dataStart] at eq
  simp only [cpioHeaderSize] at start next eq
  omega

end EntryAt

/-- A terminated name is its bytes and the terminator. -/
theorem eq_append_nul {nameWithNul : List UInt8} (terminated : nameWithNul.getLast? = some 0) :
    nameWithNul = slice nameWithNul 0 (nameWithNul.length - 1) ++ [0] := by
  obtain ⟨name, rfl⟩ := List.getLast?_eq_some_iff.mp terminated
  simp [slice]

/-- An entry is parsed exactly when there is one. -/
theorem parseEntry_eq_ok {bytes : List UInt8} {offset : Nat} {entry : ParsedEntry} :
    parseEntry bytes offset = .ok entry ↔ EntryAt bytes offset entry := by
  simp only [parseEntry, bind_eq_ok, orFail_eq_ok, require_eq_ok, checkedAdd_eq_some, get_eq_some]
  constructor
  · rintro ⟨headerEnd, ⟨rfl, -⟩, header, ⟨-, headerFits, rfl⟩, -, magic, ⟨⟩, fields, mode, isMode,
      fileSize, isFileSize, nameSize, isNameSize, checksum, isChecksum, -, noChecksum, -, named,
      -, short, nameEnd, ⟨rfl, -⟩, nameWithNul, ⟨-, nameFits, rfl⟩, -, terminated, start, aligned,
      dataEnd, ⟨rfl, -⟩, data, ⟨-, dataFits, rfl⟩, nextOffset, alignedNext, -, nextFits, -, noData,
      -, valid, eq⟩
    obtain ⟨-, rfl⟩ := alignUp_eq_some.mp aligned
    obtain ⟨word, rfl⟩ := alignUp_eq_some.mp alignedNext
    simp only [beq_iff_eq, bne_iff_ne, ne_eq, decide_eq_true_eq]
      at magic noChecksum named short terminated nextFits
    have nameLength := Lib.Slice.length_slice (Nat.le_add_right _ nameSize) nameFits
    have dataLength := Lib.Slice.length_slice (Nat.le_add_right _ fileSize) dataFits
    rw [Nat.add_sub_cancel_left] at nameLength dataLength
    have split := eq_append_nul terminated
    rw [nameLength] at split
    have strip : (slice (slice bytes (offset + cpioHeaderSize)
        (offset + cpioHeaderSize + nameSize)) 0 (nameSize - 1)).length + 1 = nameSize := by
      have lengths := congrArg List.length split
      rw [List.length_append, List.length_singleton, nameLength] at lengths
      exact lengths.symm
    cases eq
    exact
      { headerFits
        magic
        fields
        mode := isMode
        fileSize := by rw [dataLength]; exact isFileSize
        nameSize := by rw [strip]; exact isNameSize
        checksum := by rw [← noChecksum]; exact isChecksum
        nameShort := by dsimp only; omega
        name := by rw [strip, ← split]; exact get_eq_some.mpr ⟨by omega, nameFits, rfl⟩
        data := by rw [strip, dataLength]; exact get_eq_some.mpr ⟨by omega, dataFits, rfl⟩
        nextOffset := by rw [strip, dataLength]; rfl
        nextFits
        word := by rw [strip, dataLength]; exact word
        trailer := rfl
        noData := by simpa [← imp_iff_not_or] using noData
        valid := by simpa [or_iff_not_imp_left] using valid }
  · intro at'
    have terminated : (entry.name ++ [0]).getLast? = some 0 := List.getLast?_concat
    have stripped : slice (entry.name ++ [0]) 0 (entry.name.length + 1 - 1) = entry.name := by
      simp [slice]
    obtain ⟨-, nameFits, nameEq⟩ := get_eq_some.mp at'.name
    obtain ⟨-, dataFits, dataEq⟩ := get_eq_some.mp at'.data
    have word := at'.word
    have start := le_roundUp (offset + cpioHeaderSize + (entry.name.length + 1))
    have aligned : alignUp (offset + cpioHeaderSize + (entry.name.length + 1)) 4 =
        some (dataStart offset (entry.name.length + 1)) := by
      refine alignUp_eq_some.mpr ⟨?_, rfl⟩
      have up : dataStart offset (entry.name.length + 1) =
        (offset + cpioHeaderSize + (entry.name.length + 1) + 3) / 4 * 4 := rfl
      omega
    rw [← dataStart] at start
    refine ⟨_, ⟨rfl, by omega⟩, _, ⟨by omega, at'.headerFits, rfl⟩, ⟨⟩, beq_iff_eq.mpr at'.magic,
      ⟨⟩, at'.fields, _, at'.mode, _, at'.fileSize, _, at'.nameSize, _, at'.checksum, ⟨⟩, by simp,
      ⟨⟩, by simp, ⟨⟩, by simpa using at'.nameShort, _, ⟨rfl, by omega⟩, _, ⟨by omega, nameFits, rfl⟩,
      ⟨⟩, by rw [nameEq, terminated]; rfl, _, aligned, _, ⟨rfl, by omega⟩, _,
      ⟨by omega, dataFits, rfl⟩, _, alignUp_eq_some.mpr ⟨word, rfl⟩, ⟨⟩, ?_, ⟨⟩, ?_, ⟨⟩, ?_, ?_⟩
    · rw [← at'.nextOffset]
      exact decide_eq_true at'.nextFits
    · rw [nameEq, dataEq, stripped, ← at'.trailer]
      cases trailer : entry.trailer with
      | false => rfl
      | true => simp [at'.noData trailer]
    · rw [nameEq, stripped, ← at'.trailer]
      simpa [or_iff_not_imp_left] using at'.valid
    · rw [nameEq, dataEq, stripped, ← at'.trailer, ← at'.nextOffset]
      rfl

end CloudOS.Initramfs
