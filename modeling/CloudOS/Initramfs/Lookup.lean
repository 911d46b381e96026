import CloudOS.Initramfs.RoundTrip

/-!
Lookup agrees with the index: `find` reads the bytes again, and returns the first
entry that the index built at boot has under the requested path.
-/

namespace CloudOS.Initramfs

open Lib.Word (asBytes)

/-! ### Text -/

/-- The characters of a path. -/
def isPathChar (char : Char) : Bool :=
  char.isAlphanum || char == '.' || char == '_' || char == '-' || char == '/'

theorem ascii_of_isPathByte : ∀ byte : UInt8, isPathByte byte = true ∨ byte = slash → byte < 128 := by
  decide +kernel

theorem utf8EncodeChar_ofUInt8 :
    ∀ byte : UInt8, byte < 128 → String.utf8EncodeChar (Char.ofUInt8 byte) = [byte] := by
  decide +kernel

theorem isPathByte_char : ∀ byte : UInt8, isPathByte byte = true ∨ byte = slash →
    isPathChar (Char.ofUInt8 byte) = true := by
  decide +kernel

theorem asBytes_eq (text : String) : asBytes text = text.toList.flatMap String.utf8EncodeChar := by
  rw [asBytes, ← String.utf8Encode_toList, List.utf8Encode, List.data_toByteArray]

/-- ASCII text is its bytes. -/
theorem fromUtf8_of_ascii {bytes : List UInt8} (ascii : ∀ byte ∈ bytes, byte < 128) :
    ∃ text, fromUtf8 bytes = some text ∧ asBytes text = bytes := by
  have encodes : ((bytes.map Char.ofUInt8).flatMap String.utf8EncodeChar) = bytes := by
    induction bytes with
    | nil => rfl
    | cons byte rest ih =>
      rw [List.map_cons, List.flatMap_cons, utf8EncodeChar_ofUInt8 byte (ascii byte (by simp)),
        ih fun other mem => ascii other (List.mem_cons_of_mem _ mem)]
      rfl
  have valid : bytes.toByteArray.IsValidUTF8 :=
    ⟨bytes.map Char.ofUInt8, by rw [List.utf8Encode, encodes]⟩
  refine ⟨String.fromUTF8 _ valid, dif_pos valid, ?_⟩
  simp [asBytes, String.fromUTF8]

theorem not_ascii_of_le {n : Nat} (high : 128 ≤ n) (byte : n < 256) :
    ¬ (isPathByte (UInt8.ofNat n) = true ∨ UInt8.ofNat n = slash) := by
  intro good
  have ascii := UInt8.lt_iff_toNat_lt.mp (ascii_of_isPathByte _ good)
  rw [UInt8.toNat_ofNat', Nat.mod_eq_of_lt byte] at ascii
  exact absurd ascii (by simpa using high)

/-- A character that no path has puts a byte that no path has into the text. -/
theorem exists_bad_byte {char : Char} (bad : isPathChar char = false) :
    ∃ byte ∈ String.utf8EncodeChar char, ¬ (isPathByte byte = true ∨ byte = slash) := by
  by_cases ascii : char.val.toNat ≤ 127
  · have below : UInt8.ofNat char.val.toNat < 128 := by
      rw [UInt8.lt_iff_toNat_lt, UInt8.toNat_ofNat', Nat.mod_eq_of_lt (by omega)]
      exact Nat.lt_succ_of_le ascii
    have eq : char = Char.ofUInt8 (UInt8.ofNat char.val.toNat) := by
      apply Char.ext
      apply UInt32.toNat_inj.mp
      rw [Char.ofUInt8, UInt8.toNat_toUInt32, UInt8.toNat_ofNat', Nat.mod_eq_of_lt (by omega)]
    rw [eq, utf8EncodeChar_ofUInt8 _ below]
    refine ⟨_, List.mem_singleton_self _, fun good => ?_⟩
    have char' := isPathByte_char _ good
    rw [← eq, bad] at char'
    cases char'
  · -- The first byte of a longer sequence has its high bit set.
    unfold String.utf8EncodeChar
    dsimp only
    rw [if_neg ascii]
    split
    · exact ⟨_, List.mem_cons_self, not_ascii_of_le (by omega) (by omega)⟩
    · split
      · exact ⟨_, List.mem_cons_self, not_ascii_of_le (by omega) (by omega)⟩
      · exact ⟨_, List.mem_cons_self, not_ascii_of_le (by omega) (by omega)⟩

theorem validPath_ascii {path : List UInt8} (valid : validPath path = true) :
    ∀ byte ∈ path, byte < 128 :=
  fun byte mem => ascii_of_isPathByte byte (pathByte_of_validPath valid mem)

/-- The file of an entry with a valid path. -/
theorem ParsedEntry.file_of_valid {entry : ParsedEntry} (valid : validPath entry.name = true) :
    ∃ file, entry.file = some file ∧ asBytes file.path = entry.name ∧ file.data = entry.data ∧
      file.mode = entry.mode := by
  obtain ⟨text, decodes, bytes⟩ := fromUtf8_of_ascii (validPath_ascii valid)
  exact ⟨⟨text, entry.data, entry.mode⟩, by rw [ParsedEntry.file, decodes]; rfl, bytes, rfl, rfl⟩

/-! ### Paths that are never found -/

/-- A component that leads nowhere or out of the directory. -/
def BadComponent (component : List UInt8) : Prop :=
  component = [] ∨ component = asBytes "." ∨ component = asBytes ".."

theorem not_good_of_bad {component : List UInt8} (bad : BadComponent component) :
    ¬ GoodComponent component := by
  rintro ⟨valid, -⟩
  rcases bad with rfl | rfl | rfl
  all_goals
    revert valid
    decide +kernel

/-- A path as it is asked for, which is no path of an archive. -/
def Unsafe (path : String) : Prop :=
  path = "" ∨ (∃ component ∈ components (stripSlash (asBytes path)), BadComponent component) ∨
    ∃ char ∈ path.toList, isPathChar char = false

theorem mem_stripSlash {path : List UInt8} {byte : UInt8} (mem : byte ∈ path)
    (other : byte ≠ slash) : byte ∈ stripSlash path := by
  unfold stripSlash
  split
  · rename_i leading
    obtain ⟨rest, rfl⟩ := List.head?_eq_some_iff.mp (beq_iff_eq.mp leading)
    rcases List.mem_cons.mp mem with rfl | mem
    · exact absurd rfl other
    · exact mem
  · exact mem

/-- An unsafe path is refused before the search. -/
theorem not_validPath_of_unsafe {path : String} (bad : Unsafe path) :
    validPath (stripSlash (asBytes path)) = false := by
  rw [Bool.eq_false_iff]
  intro valid
  rcases bad with rfl | ⟨component, mem, badComponent⟩ | ⟨char, mem, badChar⟩
  · exact ne_nil_of_validPath valid rfl
  · exact not_good_of_bad badComponent (validPath_iff.mp valid component mem)
  · obtain ⟨byte, within, badByte⟩ := exists_bad_byte badChar
    have inText : byte ∈ asBytes path := by
      rw [asBytes_eq]
      exact List.mem_flatMap.mpr ⟨char, mem, within⟩
    have other : byte ≠ slash := fun eq => badByte (.inr eq)
    exact badByte (pathByte_of_validPath valid (mem_stripSlash inText other))

/-! ### Lookup -/

/-- The first recorded entry with a path. -/
structure FirstAt (infos : List EntryInfo) (path : List UInt8) (index : Nat) (info : EntryInfo) :
    Prop where
  here : infos[index]? = some info
  named : info.path.bytes = path
  first : ∀ i < index, ∀ other, infos[i]? = some other → other.path.bytes ≠ path

/-- The first entry of the archive with a name is the first of the index. -/
theorem firstAt_of_find? {infos : List EntryInfo} {entries : List ParsedEntry}
    (describes : List.Forall₂ EntryInfo.Describes infos entries) {path : List UInt8}
    {entry : ParsedEntry} (found : entries.find? (·.name == path) = some entry) :
    ∃ index info, entries[index]? = some entry ∧ info.Describes entry ∧
      FirstAt infos path index info := by
  induction describes with
  | nil => cases found
  | @cons info head infos rest same _ ih =>
    rw [List.find?_cons] at found
    cases named : head.name == path with
    | true =>
      rw [named] at found
      cases found
      refine ⟨0, info, rfl, same, rfl, same.path.trans (by simpa using named), ?_⟩
      intro i before
      omega
    | false =>
      rw [named] at found
      obtain ⟨index, info', here, same', firstAt⟩ := ih found
      refine ⟨index + 1, info', here, same', firstAt.here, firstAt.named, ?_⟩
      intro i before info'' here'
      cases i with
      | zero =>
        cases here'
        rw [same.path]
        simpa using named
      | succ i => exact firstAt.first i (by omega) info'' here'

theorem find?_isSome_iff {infos : List EntryInfo} {entries : List ParsedEntry}
    (describes : List.Forall₂ EntryInfo.Describes infos entries) (path : List UInt8) :
    (∃ entry, entries.find? (·.name == path) = some entry) ↔
      ∃ info ∈ infos, info.path.bytes = path := by
  induction describes with
  | nil => simp
  | @cons info head infos rest same _ ih =>
    rw [List.find?_cons]
    by_cases named : head.name = path
    · simp [named, same.path]
    · have other : (head.name == path) = false := by simpa using named
      simp [other, named, same.path, ih]

/-- A lookup is a search through the entries of the archive. -/
theorem find_eq {memory : Nat → UInt8} {state : ArchiveState} {bytes : List UInt8}
    (stored : archiveBytes memory state = some bytes) {entries : List ParsedEntry} {stop : Nat}
    (walk : Walk bytes 0 entries stop) (path : String) :
    find memory state path =
      (entries.find? (·.name == stripSlash (asBytes path))).bind ParsedEntry.file := by
  rw [find, normalizeRequestedPath]
  split
  · rw [stored]
    exact findWalk_eq _ walk
  · rename_i invalid
    refine (Option.bind_eq_none_iff.mpr fun entry found => ?_).symm
    have named := List.find?_some found
    have valid := walk.valid entry (List.mem_of_find?_eq_some found)
    rw [beq_iff_eq.mp named] at valid
    exact absurd valid invalid

/-- What a lookup does on an archive, against the index. -/
structure AgreesAt (memory : Nat → UInt8) (state : ArchiveState) (bytes : List UInt8)
    (infos : List EntryInfo) (entries : List ParsedEntry) (path : String) : Prop where
  /-- The second walk ends. -/
  terminates : ∃ fuel result,
    Lib.Loop.run (findStep bytes (stripSlash (asBytes path))) fuel 0 = some result
  /-- Every entry it reads is there. -/
  parses : ∀ offset, Lib.Loop.Visits (findStep bytes (stripSlash (asBytes path))) 0 offset →
    ∃ entry, parseEntry bytes offset = .ok entry
  found_iff : (∃ file, find memory state path = some file) ↔
    ∃ info ∈ infos, info.path.bytes = stripSlash (asBytes path)
  first : ∀ file, find memory state path = some file →
    ∃ index info entry, FirstAt infos (stripSlash (asBytes path)) index info ∧
      entries[index]? = some entry ∧ asBytes file.path = info.path.bytes ∧
      file.mode = info.mode ∧ file.data = entry.data ∧ file.data.length = info.size
  safe : Unsafe path → find memory state path = none

/-- The search walks over the same entries as the parser did. -/
theorem agreesAt_of_walk {memory : Nat → UInt8} {state : ArchiveState} {bytes : List UInt8}
    (stored : archiveBytes memory state = some bytes) {infos : List EntryInfo}
    {entries : List ParsedEntry} {stop : Nat} (walk : Walk bytes 0 entries stop)
    (describes : List.Forall₂ EntryInfo.Describes infos entries) (path : String) :
    AgreesAt memory state bytes infos entries path := by
  have eq := find_eq stored walk path
  have file : ∀ entry, entries.find? (·.name == stripSlash (asBytes path)) = some entry →
      ∃ file, entry.file = some file ∧ asBytes file.path = entry.name ∧ file.data = entry.data ∧
        file.mode = entry.mode := fun entry found =>
    entry.file_of_valid (walk.valid entry (List.mem_of_find?_eq_some found))
  exact
    { terminates := ⟨_, _, Lib.Loop.run_eq_value (findStep_decreases bytes _)
        (Nat.lt_succ_self (bytes.length - 0))⟩
      parses := fun offset visits => parses_of_visits walk visits
      found_iff := by
        rw [← find?_isSome_iff describes, eq]
        constructor
        · rintro ⟨result, found⟩
          obtain ⟨entry, found, -⟩ := Option.bind_eq_some_iff.mp found
          exact ⟨entry, found⟩
        · rintro ⟨entry, found⟩
          obtain ⟨result, holds, -⟩ := file entry found
          exact ⟨result, by rw [found, Option.bind_some, holds]⟩
      first := by
        intro result found
        rw [eq] at found
        obtain ⟨entry, found, holds⟩ := Option.bind_eq_some_iff.mp found
        obtain ⟨result', holds', path', data, mode⟩ := file entry found
        rw [holds] at holds'
        cases holds'
        obtain ⟨index, info, here, same, firstAt⟩ := firstAt_of_find? describes found
        exact ⟨index, info, entry, firstAt, here, by rw [path', same.path],
          by rw [mode, same.mode], data, by rw [data, same.size]⟩
      safe := by
        intro bad
        rw [find, normalizeRequestedPath, not_validPath_of_unsafe bad]
        rfl }

/-- A state in which nothing is recorded. -/
structure ArchiveState.Fresh (state : ArchiveState) : Prop extends state.Words where
  noEntries : state.entries.list = []

theorem empty_fresh : ArchiveState.empty.Fresh where
  regularFiles := by decide
  directories := by decide
  totalFileBytes := by decide
  noEntries := rfl

/-- The table of an accepted archive describes its entries. -/
theorem describes_of_accepted {start parsed : ArchiveState} {bytes : List UInt8}
    (fresh : start.Fresh) (accepted : parseArchive bytes start = (.ok (), parsed)) :
    ∃ entries stop, Walk bytes 0 entries stop ∧ Records start entries parsed ∧
      List.Forall₂ EntryInfo.Describes parsed.entries.list entries := by
  obtain ⟨entries, stop, walk, recorded, -, -⟩ := parseArchive_eq_ok.mp accepted
  have records := records_of_foldlM fresh.toWords recorded
  obtain ⟨infos, table, describes⟩ := records.table
  rw [fresh.noEntries, List.nil_append] at table
  exact ⟨entries, stop, walk, records, table ▸ describes⟩

/-- Every lookup in an accepted archive agrees with the index that was built from it. -/
theorem find_agrees {memory : Nat → UInt8} {state start parsed : ArchiveState}
    {bytes : List UInt8} (stored : archiveBytes memory state = some bytes) (fresh : start.Fresh)
    (accepted : parseArchive bytes start = (.ok (), parsed)) :
    ∃ entries stop, Walk bytes 0 entries stop ∧
      List.Forall₂ EntryInfo.Describes parsed.entries.list entries ∧
      ∀ path, AgreesAt memory state bytes parsed.entries.list entries path := by
  obtain ⟨entries, stop, walk, -, describes⟩ := describes_of_accepted fresh accepted
  exact ⟨entries, stop, walk, describes, agreesAt_of_walk stored walk describes⟩

/-- An archive with a directory and two files of one name. -/
def sampleArchive : List UInt8 :=
  (appendEntries [] [⟨1, "bin", 0o040755, 2, []⟩, ⟨2, "bin/init", 0o100755, 1, [1, 2, 3]⟩,
    ⟨3, "bin/init", 0o100755, 1, [4, 5, 6, 7, 8]⟩, ⟨4, "TRAILER!!!", 0, 1, []⟩]).getD []

/-- Memory that holds the archive at address `0x1000`. -/
def sampleMemory (address : Nat) : UInt8 := sampleArchive.getD (address - 0x1000) 0

def sampleState : ArchiveState :=
  { ArchiveState.empty with
    valid := true, moduleStart := 0x1000, moduleEnd := 0x1000 + sampleArchive.length }

theorem sample_stored : archiveBytes sampleMemory sampleState = some sampleArchive := by
  have positive : 0 < sampleArchive.length := by decide +kernel
  have bytes : fromRawParts sampleMemory 0x1000 sampleArchive.length = sampleArchive := by
    refine List.ext_getElem (by simp [fromRawParts]) fun offset inside inside' => ?_
    simp [fromRawParts, sampleMemory, inside']
  rw [archiveBytes, if_neg (by simpa [sampleState] using List.length_pos_iff.mp positive)]
  simp only [sampleState, Nat.add_sub_cancel_left]
  rw [bytes]

/-- Paths and sizes in the index of the archive. -/
def sampleIndex : List (List UInt8 × Nat) :=
  [(asBytes "bin", 0), (asBytes "bin/init", 3), (asBytes "bin/init", 5)]

theorem sample_accepted : ∃ parsed, parseArchive sampleArchive .empty = (.ok (), parsed) ∧
    parsed.entries.list.map (fun info => (info.path.bytes, info.size)) = sampleIndex := by
  have indexed : (match parseArchive sampleArchive .empty with
      | (.ok (), parsed) =>
        parsed.entries.list.map (fun info => (info.path.bytes, info.size)) == sampleIndex
      | _ => false) = true := by decide +kernel
  split at indexed
  · rename_i parsed accepted
    exact ⟨parsed, accepted, beq_iff_eq.mp indexed⟩
  · cases indexed

/-- A path in the archive is found, and a path above the root is not. -/
theorem find_agrees_sample : ∃ (parsed : ArchiveState) (entries : List ParsedEntry),
    parsed.entries.list.map (fun info => (info.path.bytes, info.size)) = sampleIndex ∧
    (∀ path, AgreesAt sampleMemory sampleState sampleArchive parsed.entries.list entries path) ∧
    (∃ file, find sampleMemory sampleState "/bin/init" = some file) ∧
    find sampleMemory sampleState "../bin/init" = none := by
  obtain ⟨parsed, accepted, indexed⟩ := sample_accepted
  obtain ⟨entries, stop, -, -, agrees⟩ := find_agrees sample_stored empty_fresh accepted
  have here : stripSlash (asBytes "/bin/init") ∈
      parsed.entries.list.map fun info => info.path.bytes := by
    have paths := congrArg (List.map Prod.fst) indexed
    rw [List.map_map] at paths
    exact paths ▸ by decide +kernel
  obtain ⟨info, mem, named⟩ := List.mem_map.mp here
  exact ⟨parsed, entries, indexed, agrees, (agrees "/bin/init").found_iff.mpr ⟨info, mem, named⟩,
    (agrees "../bin/init").safe (.inr (.inl ⟨asBytes "..", by decide +kernel, .inr (.inr rfl)⟩))⟩

end CloudOS.Initramfs
