import CloudOS.Initramfs.Grammar

/-!
No index of the archive parser is out of range.

The slices of the model are total. Here the parser is written once more with
every direct index of the source checked, so that a bad one is a `none` where
the source would stop with a panic. The two versions agree on all bytes: the
constant ranges lie within the header, a name is never empty of its terminator,
a component never starts behind its end, and the bytes after the trailer start
inside the slice.
-/

namespace CloudOS.Initramfs

open Lib.Word (maxWord checkedAdd)
open Lib.Slice (slice get_eq_some)
open Lib.Check (require orFail bind_eq_ok require_eq_ok orFail_eq_ok)
open Lib.Loop (Decreases)

/-! ### Checked computations -/

/-- A computation that may stop at a bad index, or else return an error or a value. -/
abbrev Indexed (α : Type) : Type := ExceptT ArchiveError Option α

/-- A step without an index. -/
def returned {α : Type} (x : Except ArchiveError α) : Indexed α := ExceptT.mk (some x)

/-- A step that stops at a bad index. -/
def inRange {α : Type} (x : Option α) : Indexed α := ExceptT.mk (x.map Except.ok)

/-- `&xs[start..stop]` -/
def index (xs : List UInt8) (start stop : Nat) : Indexed (List UInt8) :=
  inRange (Lib.Slice.get xs start stop)

variable {α β : Type}

theorem returned_bind {x : Except ArchiveError α} {f : α → Except ArchiveError β}
    {g : α → Indexed β} (same : ∀ a, x = .ok a → g a = returned (f a)) :
    (returned x >>= g) = returned (x >>= f) := by
  cases x with
  | error e => rfl
  | ok a => exact same a rfl

theorem inRange_bind {x : Option α} {a : α} (there : x = some a) (g : α → Indexed β) :
    (inRange x >>= g) = g a := by
  rw [there]
  rfl

theorem index_bind {xs : List UInt8} {start stop : Nat} (ordered : start ≤ stop)
    (inside : stop ≤ xs.length) (g : List UInt8 → Indexed β) :
    (index xs start stop >>= g) = g (slice xs start stop) :=
  inRange_bind (get_eq_some.mpr ⟨ordered, inside, rfl⟩) g

theorem returned_forM {xs : List α} {f : α → Except ArchiveError Unit} {g : α → Indexed Unit}
    (same : ∀ x ∈ xs, g x = returned (f x)) : xs.forM g = returned (xs.forM f) := by
  induction xs with
  | nil => rfl
  | cons x rest ih =>
    have more := ih fun y mem => same y (List.mem_cons_of_mem _ mem)
    change (g x >>= fun _ => rest.forM g) = returned (f x >>= fun _ => rest.forM f)
    rw [same x List.mem_cons_self, returned_bind fun _ _ => more]

/-! ### Paths -/

/-- One round of the loop of `valid_path`, with `path[index]` and
`&path[component_start..index]` checked. -/
def validPathStepIndexed (path : List UInt8) (componentStart index : Nat) :
    Option (Option Nat) := do
  let ends ← if index = path.length then some true else path[index]?.map (· == slash)
  if ends then
    let component ← Lib.Slice.get path componentStart index
    return if validComponent component then some (index + 1) else none
  else
    let byte ← path[index]?
    return if isPathByte byte then some componentStart else none

/-- The loop of `valid_path`, left at the first bad component or byte. -/
def validPathLoop (path : List UInt8) : List Nat → Nat → Option Bool
  | [], _ => some true
  | index :: rest, componentStart => do
    match ← validPathStepIndexed path componentStart index with
    | none => return false
    | some next => validPathLoop path rest next

def validPathIndexed (path : List UInt8) : Option Bool :=
  if path.isEmpty then some false
  else do
    let first ← path[0]?
    if first == slash || path.getLast? == some slash then return false
    else validPathLoop path (List.range' 0 (path.length + 1)) 0

/-- No index of the loop over a path is out of range. -/
theorem validPathStepIndexed_eq {path : List UInt8} {componentStart index : Nat}
    (ordered : componentStart ≤ index) (inside : index ≤ path.length) :
    validPathStepIndexed path componentStart index =
      some (validPathStep path componentStart index) := by
  have component : Lib.Slice.get path componentStart index =
      some (slice path componentStart index) := get_eq_some.mpr ⟨ordered, inside, rfl⟩
  unfold validPathStepIndexed validPathStep
  by_cases atEnd : index = path.length
  · have none : path[index]? = none := List.getElem?_eq_none_iff.mpr atEnd.ge
    rw [none, component, if_pos atEnd]
    rfl
  · obtain ⟨byte, here⟩ : ∃ byte, path[index]? = some byte :=
      ⟨_, List.getElem?_eq_getElem (by omega)⟩
    rw [here, component, if_neg atEnd]
    by_cases isSlash : byte = slash
    · simp [isSlash]
    · simp [isSlash]

theorem validPathStep_ordered {path : List UInt8} {componentStart index next : Nat}
    (ordered : componentStart ≤ index)
    (step : validPathStep path componentStart index = some next) : next ≤ index + 1 := by
  unfold validPathStep at step
  split at step
  · split at step
    · cases step
      exact le_rfl
    · cases step
  · split at step
    · split at step
      · cases step
        exact le_rfl
      · cases step
    · split at step
      · cases step
        omega
      · cases step

/-- A component never starts behind the place that the loop has reached. -/
theorem validPathLoop_eq {path : List UInt8} {rounds componentStart index : Nat}
    (ordered : componentStart ≤ index) (inside : index + rounds ≤ path.length + 1) :
    validPathLoop path (List.range' index rounds) componentStart =
      some ((List.range' index rounds).foldlM (validPathStep path) componentStart).isSome := by
  induction rounds generalizing componentStart index with
  | zero => rfl
  | succ rounds ih =>
    rw [List.range'_succ, List.foldlM_cons, validPathLoop,
      validPathStepIndexed_eq ordered (by omega)]
    cases step : validPathStep path componentStart index with
    | none => rfl
    | some next => exact ih (validPathStep_ordered ordered step) (by omega)

theorem validPathIndexed_eq (path : List UInt8) : validPathIndexed path = some (validPath path) := by
  unfold validPathIndexed validPath
  cases path with
  | nil => rfl
  | cons first rest =>
    have loop := @validPathLoop_eq (first :: rest) ((first :: rest).length + 1) 0 0 le_rfl (by omega)
    by_cases ends : first = slash ∨ (first :: rest).getLast? = some slash
    · simp [ends]
    · simpa [ends] using loop

/-! ### Entries -/

def checkFieldsIndexed (header : List UInt8) : Indexed Unit :=
  (List.range' 6 13 8).forM fun fieldOffset => do
    let field ← index header fieldOffset (fieldOffset + 8)
    let _ ← returned (parseHexU32 field)

/-- `parse_entry` with every index checked. -/
def parseEntryIndexed (bytes : List UInt8) (offset : Nat) : Indexed ParsedEntry := do
  let headerEnd ← returned (orFail (checkedAdd maxWord offset cpioHeaderSize) .entryOutsideArchive)
  let header ← returned (orFail (Lib.Slice.get bytes offset headerEnd) .truncatedHeader)
  let magic ← index header 0 6
  returned (require (magic == cpioNewcMagic) ArchiveError.invalidMagic)
  checkFieldsIndexed header
  let mode ← returned (parseHexU32 (← index header 14 22))
  let fileSize ← returned (parseHexU32 (← index header 54 62))
  let nameSize ← returned (parseHexU32 (← index header 94 102))
  let checksum ← returned (parseHexU32 (← index header 102 110))
  returned (require (checksum == 0) ArchiveError.checksumUnsupported)
  returned (require (nameSize != 0) ArchiveError.invalidNameSize)
  returned (require (nameSize ≤ maxPathLen + 1) ArchiveError.nameTooLong)
  let nameEnd ← returned (orFail (checkedAdd maxWord headerEnd nameSize) .entryOutsideArchive)
  let nameWithNul ←
    returned (orFail (Lib.Slice.get bytes headerEnd nameEnd) .entryOutsideArchive)
  returned (require (nameWithNul.getLast? == some 0) ArchiveError.nameMissingTerminator)
  let name ← index nameWithNul 0 (nameSize - 1)
  let dataStart ← returned (orFail (alignUp nameEnd 4) .entryOutsideArchive)
  let dataEnd ← returned (orFail (checkedAdd maxWord dataStart fileSize) .entryOutsideArchive)
  let data ← returned (orFail (Lib.Slice.get bytes dataStart dataEnd) .entryOutsideArchive)
  let nextOffset ← returned (orFail (alignUp dataEnd 4) .entryOutsideArchive)
  returned (require (nextOffset ≤ bytes.length) ArchiveError.entryOutsideArchive)
  let trailer := name == cpioTrailer
  returned (require (!(trailer && !data.isEmpty)) ArchiveError.invalidTrailer)
  let valid ← if trailer then pure true else inRange (validPathIndexed name)
  returned (require valid ArchiveError.invalidPath)
  return { name, data, mode, nextOffset, trailer }

theorem checkFieldsIndexed_eq {header : List UInt8} (size : header.length = cpioHeaderSize) :
    checkFieldsIndexed header = returned (checkFields header) := by
  refine returned_forM fun offset mem => ?_
  obtain ⟨k, below, rfl⟩ := List.mem_range'.mp mem
  rw [index_bind (Nat.le_add_right _ _) (by rw [size, cpioHeaderSize]; omega)]
  exact returned_bind fun _ _ => rfl

/-- No index into an entry is out of range. -/
theorem parseEntryIndexed_eq (bytes : List UInt8) (offset : Nat) :
    parseEntryIndexed bytes offset = returned (parseEntry bytes offset) := by
  unfold parseEntryIndexed parseEntry
  refine returned_bind fun headerEnd ends => ?_
  refine returned_bind fun header read => ?_
  have size : header.length = cpioHeaderSize := by
    obtain ⟨rfl, -⟩ := Lib.Word.checkedAdd_eq_some.mp (orFail_eq_ok.mp ends)
    obtain ⟨ordered, inside, rfl⟩ := get_eq_some.mp (orFail_eq_ok.mp read)
    rw [Lib.Slice.length_slice ordered inside]
    omega
  rw [index_bind (by decide) (by rw [size]; decide)]
  refine returned_bind fun _ _ => ?_
  rw [checkFieldsIndexed_eq size]
  refine returned_bind fun _ _ => ?_
  rw [index_bind (by decide) (by rw [size]; decide)]
  refine returned_bind fun mode _ => ?_
  rw [index_bind (by decide) (by rw [size]; decide)]
  refine returned_bind fun fileSize _ => ?_
  rw [index_bind (by decide) (by rw [size]; decide)]
  refine returned_bind fun nameSize _ => ?_
  rw [index_bind (by decide) (by rw [size])]
  refine returned_bind fun checksum _ => ?_
  refine returned_bind fun _ _ => ?_
  refine returned_bind fun _ _ => ?_
  refine returned_bind fun _ _ => ?_
  refine returned_bind fun nameEnd ends => ?_
  refine returned_bind fun nameWithNul read => ?_
  refine returned_bind fun _ _ => ?_
  have nameLength : nameSize ≤ nameWithNul.length := by
    obtain ⟨rfl, -⟩ := Lib.Word.checkedAdd_eq_some.mp (orFail_eq_ok.mp ends)
    obtain ⟨ordered, inside, rfl⟩ := get_eq_some.mp (orFail_eq_ok.mp read)
    rw [Lib.Slice.length_slice ordered inside]
    omega
  rw [index_bind (Nat.zero_le _) ((Nat.sub_le _ _).trans nameLength)]
  refine returned_bind fun dataStart _ => ?_
  refine returned_bind fun dataEnd _ => ?_
  refine returned_bind fun data _ => ?_
  refine returned_bind fun nextOffset _ => ?_
  refine returned_bind fun _ _ => ?_
  refine returned_bind fun _ _ => ?_
  -- the path is checked only where the entry is not the trailer
  cases isTrailer : slice nameWithNul 0 (nameSize - 1) == cpioTrailer with
  | true => rfl
  | false =>
    rw [if_neg Bool.false_ne_true, inRange_bind (validPathIndexed_eq _)]
    cases validPath (slice nameWithNul 0 (nameSize - 1)) with
    | true => rfl
    | false => rfl

/-! ### The archive -/

/-- The loop of `parse_archive` with its indexes checked; it may end without a result. -/
def archiveStepIndexed (bytes : List UInt8) (round : Nat × ArchiveState) :
    Option WalkEnd ⊕ (Nat × ArchiveState) :=
  let (offset, state) := round
  if offset < bytes.length then
    match (parseEntryIndexed bytes offset).run with
    | none => .inl none
    | some (.error error) => .inl (some (.error error, state))
    | some (.ok parsed) =>
      if parsed.trailer then .inl (some (.ok (parsed.nextOffset, true), state))
      else
        match state.record parsed with
        | .error error => .inl (some (.error error, state))
        | .ok next => .inr (parsed.nextOffset, next)
  else .inl (some (.ok (offset, false), state))

theorem archiveStepIndexed_eq (bytes : List UInt8) (round : Nat × ArchiveState) :
    archiveStepIndexed bytes round = (archiveStep bytes round).map some id := by
  obtain ⟨offset, state⟩ := round
  simp only [archiveStepIndexed, archiveStep, parseEntryIndexed_eq, returned, ExceptT.run_mk]
  split
  · cases parseEntry bytes offset with
    | error error => rfl
    | ok parsed =>
      dsimp only
      cases parsed.trailer with
      | true => rfl
      | false =>
        cases state.record parsed with
        | error error => rfl
        | ok next => rfl
  · rfl

theorem archiveStepIndexed_decreases (bytes : List UInt8) :
    Decreases (archiveStepIndexed bytes) fun round => bytes.length - round.1 := by
  intro round next again
  rw [archiveStepIndexed_eq] at again
  cases step : archiveStep bytes round with
  | inl result =>
    rw [step] at again
    cases again
  | inr next' =>
    rw [step] at again
    cases again
    exact archiveStep_decreases bytes round next' step

/-- `parse_archive` with every index checked, the one behind the trailer included. -/
def parseArchiveIndexed (bytes : List UInt8) (state : ArchiveState) :
    Option (Except ArchiveError Unit × ArchiveState) := do
  match ← Lib.Loop.value (archiveStepIndexed_decreases bytes) (0, state) with
  | (.error error, state) => return (.error error, state)
  | (.ok (offset, trailerFound), state) =>
    if !trailerFound then return (.error .missingTrailer, state)
    else
      let rest ← Lib.Slice.get bytes offset bytes.length
      if rest.any (· != 0) then return (.error .trailingGarbage, state)
      else if !state.initFound then return (.error .missingInit, state)
      else return (.ok (), state)

/-- The walk stops inside the bytes. -/
theorem Walk.stop_le {bytes : List UInt8} {offset stop : Nat} {entries : List ParsedEntry}
    (walk : Walk bytes offset entries stop) : stop ≤ bytes.length := by
  induction walk with
  | trailer parses _ => exact (parseEntry_eq_ok.mp parses).nextFits
  | entry _ _ _ ih => exact ih

/-- The walk over the archive reads no byte outside it. -/
theorem parseArchiveIndexed_eq (bytes : List UInt8) (state : ArchiveState) :
    parseArchiveIndexed bytes state = some (parseArchive bytes state) := by
  unfold parseArchiveIndexed parseArchive
  rw [Lib.Loop.value_map (archiveStep_decreases bytes) (archiveStepIndexed_decreases bytes)
    (archiveStepIndexed_eq bytes)]
  cases ends : Lib.Loop.value (archiveStep_decreases bytes) (0, state) with
  | mk result last =>
    cases result with
    | error error => rfl
    | ok found =>
      obtain ⟨offset, trailerFound⟩ := found
      cases trailerFound with
      | false => rfl
      | true =>
        obtain ⟨entries, walk, -⟩ := archiveWalk_eq.mp ends
        have inside := walk.stop_le
        have rest : Lib.Slice.get bytes offset bytes.length = some (bytes.drop offset) := by
          rw [get_eq_some]
          refine ⟨inside, le_rfl, ?_⟩
          rw [slice, List.take_of_length_le (by rw [List.length_drop])]
        simp only [Option.bind_eq_bind, Option.bind_some, rest, Bool.not_true,
          Bool.false_eq_true, if_false]
        split
        · rfl
        · split
          · rfl
          · rfl

/-- `parse_archive` accepts exactly the archives of the grammar. From a state without
entries it ends, no index is out of range, and the answer is `Ok` if and only if
the bytes are an archive. -/
theorem parse_archive_grammar {bytes : List UInt8} (slice : bytes.length ≤ maxSlice)
    {state : ArchiveState} (blank : state.Blank) :
    (∃ fuel, (Lib.Loop.run (archiveStepIndexed bytes) fuel (0, state)).isSome = true) ∧
    parseArchiveIndexed bytes state = some (parseArchive bytes state) ∧
    ((parseArchive bytes state).1 = .ok () ↔ ∃ entries, ArchiveBytes bytes entries) := by
  have word : bytes.length + 3 ≤ maxWord := by
    simp only [maxSlice, maxWord] at *
    omega
  refine ⟨?_, parseArchiveIndexed_eq bytes state, ?_⟩
  · exact ⟨_, Decreases.run_isSome (archiveStepIndexed_decreases bytes) (Nat.lt_succ_self _)⟩
  · constructor
    · intro accepted
      obtain ⟨parsed, stop, -, archive⟩ :=
        archiveBytes_of_accepted word blank (Prod.ext accepted rfl)
      exact ⟨_, archive⟩
    · rintro ⟨entries, archive⟩
      obtain ⟨last, accepted⟩ := accepted_of_archiveBytes word blank archive
      rw [accepted]

theorem sample_slice : sampleArchive.length ≤ maxSlice := by decide +kernel

/-- An archive with a directory and a repeated name is one of the grammar. -/
theorem parse_archive_grammar_sample : ∃ entries, ArchiveBytes sampleArchive entries := by
  obtain ⟨parsed, accepted, -⟩ := sample_accepted
  exact (parse_archive_grammar sample_slice empty_blank).2.2.mp (by rw [accepted])

end CloudOS.Initramfs
