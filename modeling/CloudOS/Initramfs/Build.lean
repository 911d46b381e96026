import CloudOS.Initramfs.Walk

/-!
The writer of archives, `src/tools/mkinitramfs.rs`, and the entries that the reader
finds in what it wrote.
-/

namespace CloudOS.Initramfs

open Lib.Loop (Decreases)
open Lib.Slice (slice)
open Lib.Word (maxWord maxU32 asBytes)

/-- `{:08x}` -/
def hex08 (value : Nat) : List UInt8 :=
  (List.leftpad 8 '0' (Nat.toDigits 16 value)).map Char.toUInt8

/-- The arguments of `append_entry`. -/
structure SourceEntry where
  inode : UInt32
  name : String
  mode : UInt32
  links : UInt32
  data : List UInt8

namespace SourceEntry

def nameSize (entry : SourceEntry) : Nat := (asBytes entry.name).length + 1

/-- The numbers of the header, in order. -/
def fields (entry : SourceEntry) : List Nat :=
  let uid := 0
  let gid := 0
  let mtime := 0
  let fileSize := entry.data.length
  let devMajor := 0
  let devMinor := 0
  let rdevMajor := 0
  let rdevMinor := 0
  let check := 0
  [entry.inode.toNat, entry.mode.toNat, uid, gid, entry.links.toNat, mtime, fileSize, devMajor,
    devMinor, rdevMajor, rdevMinor, entry.nameSize, check]

def header (entry : SourceEntry) : List UInt8 :=
  asBytes "070701" ++ entry.fields.flatMap hex08

end SourceEntry

def padStep (bytes : List UInt8) : List UInt8 ⊕ List UInt8 :=
  if bytes.length % 4 ≠ 0 then .inr (bytes ++ [0]) else .inl bytes

theorem padStep_decreases : Decreases padStep fun bytes => roundUp bytes.length - bytes.length := by
  intro bytes next again
  unfold padStep at again
  split at again
  · cases again
    simp only [List.length_append, List.length_singleton, roundUp]
    omega
  · cases again

def padToFour (bytes : List UInt8) : List UInt8 := Lib.Loop.value padStep_decreases bytes

/-- `none` is the failed assertion on the length of the header. -/
def appendEntry (archive : List UInt8) (entry : SourceEntry) : Option (List UInt8) :=
  if entry.header.length = cpioHeaderSize then
    let archive := padToFour (archive ++ entry.header ++ asBytes entry.name ++ [0])
    some (padToFour (archive ++ entry.data))
  else none

/-- `append_entry` for each entry in order. -/
def appendEntries (archive : List UInt8) (entries : List SourceEntry) : Option (List UInt8) :=
  entries.foldlM appendEntry archive

def buildInitramfs (initElf : List UInt8) : Option (List UInt8) :=
  appendEntries [] [⟨1, "bin", 0o040755, 2, []⟩, ⟨2, "bin/init", 0o100755, 1, initElf⟩,
    ⟨3, "TRAILER!!!", 0, 1, []⟩]

/-! ### Hexadecimal fields -/

theorem hexDigit_digitChar :
    ∀ digit < 16, hexDigit (Nat.digitChar digit).toUInt8 = some digit := by
  decide +kernel

theorem parseHexDigit_digitChar {value digit : Nat} (small : digit < 16)
    (fits : value * 16 + digit ≤ maxU32) :
    parseHexDigit value (Nat.digitChar digit).toUInt8 = .ok (value * 16 + digit) := by
  rw [parseHexDigit, hexDigit_digitChar digit small]
  dsimp only
  rw [if_pos (by omega), Lib.Check.orFail_eq_ok, Lib.Word.checkedAdd_eq_some]
  exact ⟨rfl, fits⟩

/-- Reading the digits of a number. -/
theorem parseHexDigit_toDigits (value : Nat) : value ≤ maxU32 →
    ((Nat.toDigits 16 value).map Char.toUInt8).foldlM parseHexDigit 0 = .ok value := by
  induction value using Nat.strongRecOn with
  | ind value ih =>
    intro fits
    rw [Nat.toDigits_eq_if (by decide)]
    split
    · rename_i small
      have only : parseHexDigit 0 (Nat.digitChar value).toUInt8 = .ok (0 * 16 + value) :=
        parseHexDigit_digitChar small (by omega)
      simpa using only
    · rename_i large
      rw [List.map_append, List.foldlM_append, ih (value / 16) (by omega) (by omega)]
      have last : parseHexDigit (value / 16) (Nat.digitChar (value % 16)).toUInt8 =
          .ok (value / 16 * 16 + value % 16) :=
        parseHexDigit_digitChar (Nat.mod_lt value (by decide)) (by omega)
      have split : value / 16 * 16 + value % 16 = value := by omega
      rw [split] at last
      exact Lib.Check.bind_eq_ok.mpr ⟨value / 16, rfl, by simpa using last⟩

/-- Leading zeros change nothing. -/
theorem parseHexDigit_zeros (count : Nat) :
    ((List.replicate count '0').map Char.toUInt8).foldlM parseHexDigit 0 = .ok 0 := by
  induction count with
  | zero => rfl
  | succ count ih =>
    rw [List.replicate_succ, List.map_cons, List.foldlM_cons]
    exact ih

theorem length_hex08 {value : Nat} (fits : value ≤ maxU32) : (hex08 value).length = 8 := by
  have short := Nat.toDigits_length 16 value 8 (by decide) (Nat.lt_succ_of_le fits)
  rw [hex08, List.length_map, List.leftpad, List.length_append, List.length_replicate]
  omega

theorem parseHexU32_hex08 {value : Nat} (fits : value ≤ maxU32) :
    parseHexU32 (hex08 value) = .ok value := by
  rw [parseHexU32, if_neg (by simpa using length_hex08 fits), hex08, List.leftpad, List.map_append,
    List.foldlM_append, parseHexDigit_zeros]
  exact parseHexDigit_toDigits value fits

/-! ### The header -/

namespace SourceEntry

variable {entry : SourceEntry}

/-- The entry fits into the fields of a header. -/
structure Fits (entry : SourceEntry) : Prop where
  short : (asBytes entry.name).length ≤ maxPathLen
  small : entry.data.length ≤ maxU32

/-- Every field of a header fits eight digits. -/
theorem Fits.field_le (fits : entry.Fits) : ∀ value ∈ entry.fields, value ≤ maxU32 := by
  have inode := entry.inode.toNat_lt
  have mode := entry.mode.toNat_lt
  have links := entry.links.toNat_lt
  have short := fits.short
  have small := fits.small
  simp only [maxPathLen] at short
  simp only [maxU32] at small
  simp only [fields, nameSize, maxU32, List.mem_cons, List.not_mem_nil, or_false]
  rintro value (rfl | rfl | rfl | rfl | rfl | rfl | rfl | rfl | rfl | rfl | rfl | rfl | rfl)
  all_goals omega

end SourceEntry

theorem length_flatMap_hex08 {fields : List Nat} (fits : ∀ value ∈ fields, value ≤ maxU32) :
    (fields.flatMap hex08).length = 8 * fields.length := by
  induction fields with
  | nil => rfl
  | cons value rest ih =>
    rw [List.flatMap_cons, List.length_append, length_hex08 (fits value (by simp)),
      ih fun other mem => fits other (List.mem_cons_of_mem _ mem), List.length_cons]
    omega

/-- Field by field, the header gives the numbers back. -/
theorem slice_flatMap_hex08 {before : List UInt8} {fields : List Nat}
    (fits : ∀ value ∈ fields, value ≤ maxU32) {index value start stop : Nat}
    (here : fields[index]? = some value) (isStart : start = before.length + 8 * index)
    (isStop : stop = start + 8) :
    slice (before ++ fields.flatMap hex08) start stop = hex08 value := by
  obtain ⟨inside, eq⟩ := List.getElem?_eq_some_iff.mp here
  have split : before ++ fields.flatMap hex08 =
      before ++ (fields.take index).flatMap hex08 ++ hex08 value ++
        (fields.drop (index + 1)).flatMap hex08 := by
    conv_lhs => rw [← List.take_append_drop index fields, List.drop_eq_getElem_cons inside, eq]
    simp only [List.flatMap_append, List.flatMap_cons, List.append_assoc]
  have size : ((fields.take index).flatMap hex08).length = 8 * index := by
    rw [length_flatMap_hex08 fun other mem => fits other (List.mem_of_mem_take mem),
      List.length_take]
    omega
  have mem : value ∈ fields := List.mem_of_getElem? here
  refine Lib.Slice.slice_of_eq _ _ split ?_ ?_
  · rw [List.length_append, size, isStart]
  · rw [length_hex08 (fits value mem), isStop]

namespace SourceEntry

variable {entry : SourceEntry}

theorem Fits.length_header (fits : entry.Fits) : entry.header.length = cpioHeaderSize := by
  rw [header, List.length_append, length_flatMap_hex08 fits.field_le]
  rfl

/-- The field at an offset of the header. -/
theorem Fits.parse_field (fits : entry.Fits) (index : Nat) {value start stop : Nat}
    (here : entry.fields[index]? = some value) (isStart : start = 6 + 8 * index)
    (isStop : stop = start + 8) :
    parseHexU32 (slice entry.header start stop) = .ok value := by
  rw [header, slice_flatMap_hex08 fits.field_le here isStart isStop]
  exact parseHexU32_hex08 (fits.field_le value (List.mem_of_getElem? here))

/-- A written header has digits in all of its fields. -/
theorem Fits.checkFields (fits : entry.Fits) : checkFields entry.header = .ok () := by
  have parses : ∀ index < 13, ∃ value,
      parseHexU32 (slice entry.header (6 + 8 * index) (6 + 8 * index + 8)) = .ok value := by
    intro index inside
    obtain ⟨value, here⟩ : ∃ value, entry.fields[index]? = some value :=
      ⟨_, List.getElem?_eq_getElem (h := inside)⟩
    exact ⟨value, fits.parse_field index here rfl rfl⟩
  refine Lib.Check.forM_eq_ok.mpr fun start mem => ?_
  obtain ⟨index, inside, rfl⟩ := List.mem_range'.mp mem
  obtain ⟨value, parsed⟩ := parses index inside
  exact Lib.Check.bind_eq_ok.mpr ⟨value, parsed, rfl⟩

end SourceEntry

end CloudOS.Initramfs
