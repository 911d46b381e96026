import CloudOS.Initramfs.Entry
import CloudOS.Lib.Loop

/-!
The archive of `src/initramfs.rs`: `parse_archive`, `init` and `find`.

The table of entries and its counter are one list of at most 32 entries. Both walks
over the archive are loops that move on by at least a header in every round.
-/

namespace CloudOS.Initramfs

open Lib.Word (maxWord satAdd asBytes)
open Lib.Loop (Decreases)

/-! ### The index -/

/-- A path of the index: at most 96 bytes that make a valid path. -/
structure PathField where
  bytes : List UInt8
  short : bytes.length ≤ maxPathLen
  valid : validPath bytes = true
deriving DecidableEq

def PathField.fromBytes (bytes : List UInt8) : Except ArchiveError PathField :=
  if short : bytes.length ≤ maxPathLen then
    if valid : validPath bytes = true then .ok ⟨bytes, short, valid⟩ else .error .invalidPath
  else .error .nameTooLong

theorem PathField.fromBytes_eq_ok {bytes : List UInt8} {path : PathField} :
    PathField.fromBytes bytes = .ok path ↔ path.bytes = bytes := by
  unfold PathField.fromBytes
  split
  · rename_i short
    split
    · rename_i valid
      constructor
      · rintro ⟨⟩
        rfl
      · rintro rfl
        rfl
    · rename_i invalid
      refine iff_of_false (fun eq => by cases eq) ?_
      rintro rfl
      exact invalid path.valid
  · rename_i long
    refine iff_of_false (fun eq => by cases eq) ?_
    rintro rfl
    exact long path.short

structure EntryInfo where
  path : PathField
  size : Nat
  mode : Nat
  regular : Bool
  directory : Bool
deriving DecidableEq

/-- The used part of the table of entries. -/
structure EntryTable where
  list : List EntryInfo := []
  fits : list.length ≤ maxEntries := by simp
deriving DecidableEq

def EntryTable.push (table : EntryTable) (info : EntryInfo)
    (room : table.list.length < maxEntries) : EntryTable where
  list := table.list ++ [info]
  fits := by simpa using room

structure ArchiveState where
  initialized : Bool := false
  moduleFound : Bool := false
  valid : Bool := false
  moduleStart : Nat := 0
  moduleEnd : Nat := 0
  regularFiles : Nat := 0
  directories : Nat := 0
  totalFileBytes : Nat := 0
  initFound : Bool := false
  initSize : Nat := 0
  entries : EntryTable := {}
  lastError : Option ArchiveError := none
deriving DecidableEq

def ArchiveState.empty : ArchiveState := {}

def isRegular (mode : Nat) : Bool := mode &&& modeTypeMask == modeRegular

def isDirectory (mode : Nat) : Bool := mode &&& modeTypeMask == modeDirectory

/-- What the loop of `parse_archive` does with an entry before the trailer. -/
def ArchiveState.record (state : ArchiveState) (parsed : ParsedEntry) :
    Except ArchiveError ArchiveState :=
  if room : state.entries.list.length < maxEntries then
    let regular := isRegular parsed.mode
    let directory := isDirectory parsed.mode
    if parsed.name == initPath && !regular then .error .initNotRegular
    else
      match PathField.fromBytes parsed.name with
      | .error error => .error error
      | .ok path =>
        let size := parsed.data.length
        .ok { state with
          entries := state.entries.push ⟨path, size, parsed.mode, regular, directory⟩ room
          regularFiles := if regular then satAdd state.regularFiles 1 else state.regularFiles
          totalFileBytes :=
            if regular then satAdd state.totalFileBytes size else state.totalFileBytes
          directories := if directory then satAdd state.directories 1 else state.directories
          initFound := if parsed.name == initPath then true else state.initFound
          initSize := if parsed.name == initPath then size else state.initSize }
  else .error .tooManyEntries

/-! ### The walk at boot -/

/-- How the loop of `parse_archive` ends: with an error, or with the last offset and
whether there was a trailer; and the state it leaves. -/
abbrev WalkEnd : Type := Except ArchiveError (Nat × Bool) × ArchiveState

def archiveStep (bytes : List UInt8) (round : Nat × ArchiveState) :
    WalkEnd ⊕ (Nat × ArchiveState) :=
  let (offset, state) := round
  if offset < bytes.length then
    match parseEntry bytes offset with
    | .error error => .inl (.error error, state)
    | .ok parsed =>
      if parsed.trailer then .inl (.ok (parsed.nextOffset, true), state)
      else
        match state.record parsed with
        | .error error => .inl (.error error, state)
        | .ok next => .inr (parsed.nextOffset, next)
  else .inl (.ok (offset, false), state)

/-- Every entry moves the offset on. -/
theorem archiveStep_decreases (bytes : List UInt8) :
    Decreases (archiveStep bytes) fun round => bytes.length - round.1 := by
  rintro ⟨offset, state⟩ next again
  rw [archiveStep] at again
  split at again
  · rename_i inside
    split at again
    · cases again
    · rename_i parsed parses
      have onward := (parseEntry_eq_ok.mp parses).offset_lt
      split at again
      · cases again
      · split at again
        · cases again
        · cases again
          dsimp only
          omega
  · cases again

def parseArchive (bytes : List UInt8) (state : ArchiveState) :
    Except ArchiveError Unit × ArchiveState :=
  match Lib.Loop.value (archiveStep_decreases bytes) (0, state) with
  | (.error error, state) => (.error error, state)
  | (.ok (offset, trailerFound), state) =>
    if !trailerFound then (.error .missingTrailer, state)
    else if (bytes.drop offset).any (· != 0) then (.error .trailingGarbage, state)
    else if !state.initFound then (.error .missingInit, state)
    else (.ok (), state)

abbrev maxBootInfoAddress : Nat := 1024 * 1024 * 1024

/-- A module of `src/multiboot.rs`. -/
structure BootModule where
  start : Nat
  stop : Nat
  commandLine : List UInt8
deriving DecidableEq, Repr

def BootModule.size (m : BootModule) : Nat := m.stop - m.start

def BootModule.isValid (m : BootModule) : Bool :=
  m.start != 0 && m.stop > m.start && m.stop ≤ maxBootInfoAddress && m.size ≤ maxBootInfoAddress

def findModule (modules : List BootModule) (commandLine : List UInt8) : Option BootModule :=
  modules.find? (·.commandLine == commandLine)

/-- `from_raw_parts` -/
def fromRawParts (memory : Nat → UInt8) (start size : Nat) : List UInt8 :=
  (List.range size).map fun index => memory (start + index)

/-- The result of `init`, and the state it belongs to. -/
def parseModule (modules : List BootModule) (memory : Nat → UInt8) (state : ArchiveState) :
    Except ArchiveError Unit × ArchiveState :=
  match findModule modules (asBytes "initramfs") with
  | none => (.error .missingModule, state)
  | some found =>
    let state := { state with
      moduleFound := true, moduleStart := found.start, moduleEnd := found.stop }
    if !found.isValid then (.error .invalidModule, state)
    else if found.size > maxArchiveSize then (.error .archiveTooLarge, state)
    else parseArchive (fromRawParts memory found.start found.size) state

/-- The archive that `init` stores. -/
def init (modules : List BootModule) (memory : Nat → UInt8) : ArchiveState :=
  match parseModule modules memory { ArchiveState.empty with initialized := true } with
  | (.ok (), state) => { state with valid := true }
  | (.error error, state) => { state with lastError := some error }

/-! ### Lookup -/

structure File where
  path : String
  data : List UInt8
  mode : Nat

def archiveBytes (memory : Nat → UInt8) (state : ArchiveState) : Option (List UInt8) :=
  if !state.valid || state.moduleEnd ≤ state.moduleStart then none
  else some (fromRawParts memory state.moduleStart (state.moduleEnd - state.moduleStart))

/-- `core::str::from_utf8` -/
def fromUtf8 (bytes : List UInt8) : Option String := String.fromUTF8? bytes.toByteArray

def findStep (bytes requested : List UInt8) (offset : Nat) : Option File ⊕ Nat :=
  if offset < bytes.length then
    match parseEntry bytes offset with
    | .error _ => .inl none
    | .ok parsed =>
      if parsed.trailer then .inl none
      else if parsed.name == requested then
        match fromUtf8 parsed.name with
        | none => .inl none
        | some path => .inl (some { path, data := parsed.data, mode := parsed.mode })
      else .inr parsed.nextOffset
  else .inl none

/-- Every entry that the search passes moves the offset on. -/
theorem findStep_decreases (bytes requested : List UInt8) :
    Decreases (findStep bytes requested) fun offset => bytes.length - offset := by
  intro offset next again
  rw [findStep] at again
  split at again
  · rename_i inside
    split at again
    · cases again
    · rename_i parsed parses
      have onward := (parseEntry_eq_ok.mp parses).offset_lt
      split at again
      · cases again
      · split at again
        · split at again <;> cases again
        · cases again
          dsimp only
          omega
  · cases again

def find (memory : Nat → UInt8) (state : ArchiveState) (path : String) : Option File := do
  let requested ← normalizeRequestedPath (asBytes path)
  let bytes ← archiveBytes memory state
  Lib.Loop.value (findStep_decreases bytes requested) 0

end CloudOS.Initramfs
