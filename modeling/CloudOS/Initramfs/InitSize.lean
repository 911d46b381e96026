import CloudOS.Initramfs.Bounds

/-!
The recorded size of the initial program.

`parse_archive` overwrites `init_size` at every entry named `bin/init`, so the
last one decides; `find` returns the first. The two agree exactly on the archives
whose first and last `bin/init` have data of one length.
-/

namespace CloudOS.Initramfs

open Lib.Check (bind_eq_ok)
open Lib.Word (maxWord asBytes)

/-- The entries named `bin/init`. -/
def ParsedEntry.isInit (entry : ParsedEntry) : Bool := entry.name == initPath

theorem initSize_of_record {state next : ArchiveState} {entry : ParsedEntry}
    (recorded : state.record entry = .ok next) :
    next.initSize = if entry.isInit then entry.data.length else state.initSize := by
  obtain ⟨-, room, path, -, rfl⟩ := record_eq_ok recorded
  rfl

/-- The last `bin/init` decides. -/
theorem initSize_of_foldlM {entries : List ParsedEntry} {state last : ArchiveState}
    (recorded : entries.foldlM ArchiveState.record state = .ok last) :
    last.initSize =
      ((entries.filter ParsedEntry.isInit).getLast?.map (·.data.length)).getD state.initSize := by
  induction entries generalizing state with
  | nil =>
    cases recorded
    rfl
  | cons entry rest ih =>
    rw [List.foldlM_cons, bind_eq_ok] at recorded
    obtain ⟨next, first, more⟩ := recorded
    rw [ih more, initSize_of_record first, List.filter_cons]
    cases entry.isInit with
    | false => rfl
    | true =>
      rw [if_pos rfl, if_pos rfl, List.getLast?_cons]
      cases (rest.filter ParsedEntry.isInit).getLast? with
      | none => rfl
      | some other => rfl

/-- The entries of an archive that are named `bin/init`. -/
def inits (entries : List ArchiveEntry) : List ArchiveEntry :=
  entries.filter fun entry => entry.name == initPath

/-- The first and the last `bin/init` have data of one length. -/
def InitSizesAgree (entries : List ArchiveEntry) : Prop :=
  ∀ first ∈ (inits entries).head?, ∀ last ∈ (inits entries).getLast?,
    first.data.length = last.data.length

theorem inits_content (entries : List ParsedEntry) :
    inits (entries.map ParsedEntry.content) =
      (entries.filter ParsedEntry.isInit).map ParsedEntry.content := by
  rw [inits, List.filter_map]
  rfl

/-- The summary gives the size of the initial program that a lookup returns exactly
when the first and the last `bin/init` of the archive have data of one length. -/
theorem init_size_iff {memory : Nat → UInt8} {state start parsed : ArchiveState}
    {bytes : List UInt8} (slice : bytes.length ≤ maxSlice)
    (stored : archiveBytes memory state = some bytes) (blank : start.Blank)
    (accepted : parseArchive bytes start = (.ok (), parsed)) :
    ∃ entries, ArchiveBytes bytes entries ∧
      ((∃ file, find memory state "/bin/init" = some file ∧
        parsed.initSize = file.data.length) ↔ InitSizesAgree entries) := by
  have word : bytes.length + 3 ≤ maxWord := by
    simp only [maxSlice, maxWord] at *
    omega
  obtain ⟨entries, stop, walk, archive⟩ := archiveBytes_of_accepted word blank accepted
  obtain ⟨entries', stop', walk', recorded, -, found⟩ := parseArchive_eq_ok.mp accepted
  obtain ⟨rfl, rfl⟩ := walk'.unique walk
  refine ⟨_, archive, ?_⟩
  have size := initSize_of_foldlM recorded
  have lookup := find_eq stored walk "/bin/init"
  have requested : stripSlash (asBytes "/bin/init") = initPath := by decide +kernel
  rw [requested] at lookup
  change _ = (entries.find? ParsedEntry.isInit).bind _ at lookup
  rw [← List.head?_filter] at lookup
  have valid : ∀ entry ∈ entries.filter ParsedEntry.isInit, validPath entry.name = true :=
    fun entry mem => walk.valid entry (List.mem_of_mem_filter mem)
  have records := records_of_foldlM blank.toWords recorded
  rw [records.initFound, blank.noInit, Bool.false_or, List.any_eq_true] at found
  obtain ⟨some', mem, isInit⟩ := found
  have there : some' ∈ entries.filter ParsedEntry.isInit := List.mem_filter.mpr ⟨mem, isInit⟩
  rw [InitSizesAgree, inits_content, List.head?_map, List.getLast?_map]
  generalize entries.filter ParsedEntry.isInit = named at *
  cases named with
  | nil => exact absurd there List.not_mem_nil
  | cons first rest =>
    obtain ⟨file, decodes, -, data, -⟩ := first.file_of_valid (valid first List.mem_cons_self)
    rw [List.head?_cons, Option.bind_some, decodes] at lookup
    rw [List.getLast?_cons, Option.map_some, Option.getD_some] at size
    rw [lookup, size, List.head?_cons, List.getLast?_cons, Option.map_some, Option.map_some]
    constructor
    · rintro ⟨_, ⟨⟩, same⟩ _ ⟨⟩ _ ⟨⟩
      exact (congrArg List.length data).symm.trans same.symm
    · intro agree
      exact ⟨file, rfl, by rw [data]; exact (agree _ rfl _ rfl).symm⟩

/-- The two files of the archive have data of different length. -/
theorem init_size_iff_sample : ∃ parsed entries,
    parseArchive sampleArchive .empty = (.ok (), parsed) ∧ ArchiveBytes sampleArchive entries ∧
    ((∃ file, find sampleMemory sampleState "/bin/init" = some file ∧
      parsed.initSize = file.data.length) ↔ InitSizesAgree entries) := by
  obtain ⟨parsed, accepted, -⟩ := sample_accepted
  obtain ⟨entries, archive, iff⟩ := init_size_iff sample_slice sample_stored empty_blank accepted
  exact ⟨parsed, entries, accepted, archive, iff⟩

/-! ### A repeated name -/

/-- Two files named `bin/init`, of no byte and of four. -/
def repeatedArchive : List UInt8 :=
  (appendEntries [] [⟨1, "bin/init", 0o100755, 1, []⟩, ⟨2, "bin/init", 0o100755, 1, [1, 2, 3, 4]⟩,
    ⟨3, "TRAILER!!!", 0, 1, []⟩]).getD []

def repeatedMemory (address : Nat) : UInt8 := repeatedArchive.getD (address - 0x1000) 0

def repeatedModules : List BootModule := [⟨0x1000, 0x1000 + 368, asBytes "initramfs"⟩]

/-- The summary reports four bytes, the lookup returns none. -/
theorem repeated_init_size :
    (init repeatedModules repeatedMemory).valid = true ∧
      (init repeatedModules repeatedMemory).initSize = 4 ∧
      (find repeatedMemory (init repeatedModules repeatedMemory) "/bin/init").map
        (·.data.length) = some 0 := by
  decide +kernel

end CloudOS.Initramfs
