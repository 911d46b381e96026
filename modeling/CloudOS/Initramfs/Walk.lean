import CloudOS.Initramfs.Archive

/-!
The entries of an archive. `parse_archive` and `find` read the bytes on their own;
both go through the entries that `Walk` describes.
-/

namespace CloudOS.Initramfs

open Lib.Word (maxWord satAdd satAdd_zero satAdd_satAdd satAdd_le)
open Lib.Check (bind_eq_ok)

/-- Reading on from an offset gives these entries and then the trailer, which ends at
`stop`. -/
inductive Walk (bytes : List UInt8) : Nat → List ParsedEntry → Nat → Prop where
  | trailer {offset : Nat} {entry : ParsedEntry} (parses : parseEntry bytes offset = .ok entry)
      (isTrailer : entry.trailer = true) : Walk bytes offset [] entry.nextOffset
  | entry {offset : Nat} {entry : ParsedEntry} {rest : List ParsedEntry} {stop : Nat}
      (parses : parseEntry bytes offset = .ok entry) (noTrailer : entry.trailer = false)
      (walk : Walk bytes entry.nextOffset rest stop) : Walk bytes offset (entry :: rest) stop

theorem offset_lt_of_parseEntry {bytes : List UInt8} {offset : Nat} {entry : ParsedEntry}
    (parses : parseEntry bytes offset = .ok entry) : offset < bytes.length := by
  have fits := (parseEntry_eq_ok.mp parses).headerFits
  simp only [cpioHeaderSize] at fits
  omega

namespace Walk

variable {bytes : List UInt8} {offset stop : Nat} {entries : List ParsedEntry}

theorem valid (walk : Walk bytes offset entries stop) :
    ∀ entry ∈ entries, validPath entry.name = true := by
  induction walk with
  | trailer _ _ => exact fun entry mem => by cases mem
  | entry parses noTrailer _ ih =>
    intro entry mem
    rcases List.mem_cons.mp mem with rfl | mem
    · exact (parseEntry_eq_ok.mp parses).valid noTrailer
    · exact ih entry mem

/-- There is one walk. -/
theorem unique (walk : Walk bytes offset entries stop) :
    ∀ {entries' : List ParsedEntry} {stop' : Nat}, Walk bytes offset entries' stop' →
      entries' = entries ∧ stop' = stop := by
  induction walk with
  | trailer parses isTrailer =>
    rintro entries' stop' (⟨parses', -⟩ | ⟨parses', noTrailer', -⟩)
    all_goals
      rw [parses] at parses'
      cases parses'
    · exact ⟨rfl, rfl⟩
    · rw [isTrailer] at noTrailer'
      cases noTrailer'
  | entry parses noTrailer _ ih =>
    rintro entries' stop' (⟨parses', isTrailer'⟩ | ⟨parses', -, walk'⟩)
    all_goals
      rw [parses] at parses'
      cases parses'
    · rw [noTrailer] at isTrailer'
      cases isTrailer'
    · obtain ⟨rfl, rfl⟩ := ih walk'
      exact ⟨rfl, rfl⟩

end Walk

/-! ### The index -/

/-- What the index says about an entry. -/
structure EntryInfo.Describes (info : EntryInfo) (entry : ParsedEntry) : Prop where
  path : info.path.bytes = entry.name
  size : info.size = entry.data.length
  mode : info.mode = entry.mode
  regular : info.regular = isRegular entry.mode
  directory : info.directory = isDirectory entry.mode

/-- The entry as a file of the sums: its size, if it is regular. -/
def ParsedEntry.fileBytes (entry : ParsedEntry) : Nat :=
  if isRegular entry.mode then entry.data.length else 0

/-- The counters are words. -/
structure ArchiveState.Words (state : ArchiveState) : Prop where
  regularFiles : state.regularFiles ≤ maxWord
  directories : state.directories ≤ maxWord
  totalFileBytes : state.totalFileBytes ≤ maxWord

/-- What recording entries changes. -/
structure Records (state : ArchiveState) (entries : List ParsedEntry) (last : ArchiveState) :
    Prop where
  table : ∃ infos, last.entries.list = state.entries.list ++ infos ∧
    List.Forall₂ EntryInfo.Describes infos entries
  regularFiles : last.regularFiles =
    satAdd state.regularFiles (entries.countP fun entry => isRegular entry.mode)
  directories : last.directories =
    satAdd state.directories (entries.countP fun entry => isDirectory entry.mode)
  totalFileBytes : last.totalFileBytes =
    satAdd state.totalFileBytes (entries.map ParsedEntry.fileBytes).sum
  initFound : last.initFound = (state.initFound || entries.any (·.name == initPath))
  range : last.moduleStart = state.moduleStart ∧ last.moduleEnd = state.moduleEnd

namespace Records

variable {state next last : ArchiveState} {entries more : List ParsedEntry}

theorem refl (words : state.Words) : Records state [] state where
  table := ⟨[], by simp, .nil⟩
  regularFiles := (satAdd_zero words.regularFiles).symm
  directories := (satAdd_zero words.directories).symm
  totalFileBytes := (satAdd_zero words.totalFileBytes).symm
  initFound := by simp
  range := ⟨rfl, rfl⟩

theorem trans (first : Records state entries next) (second : Records next more last) :
    Records state (entries ++ more) last where
  table := by
    obtain ⟨infos, eq, describes⟩ := first.table
    obtain ⟨infos', eq', describes'⟩ := second.table
    exact ⟨infos ++ infos', by rw [eq', eq, List.append_assoc], List.rel_append describes describes'⟩
  regularFiles := by
    rw [second.regularFiles, first.regularFiles, satAdd_satAdd, List.countP_append]
  directories := by
    rw [second.directories, first.directories, satAdd_satAdd, List.countP_append]
  totalFileBytes := by
    rw [second.totalFileBytes, first.totalFileBytes, satAdd_satAdd, List.map_append,
      List.sum_append]
  initFound := by rw [second.initFound, first.initFound, List.any_append, Bool.or_assoc]
  range := ⟨second.range.1.trans first.range.1, second.range.2.trans first.range.2⟩

theorem words (records : Records state entries last) : last.Words where
  regularFiles := records.regularFiles ▸ satAdd_le _ _
  directories := records.directories ▸ satAdd_le _ _
  totalFileBytes := records.totalFileBytes ▸ satAdd_le _ _

end Records

/-- A counter that moves only for some entries. -/
theorem ite_satAdd {count : Nat} (fits : count ≤ maxWord) (moves : Bool) (by' : Nat) :
    (if moves then satAdd count by' else count) = satAdd count (if moves then by' else 0) := by
  cases moves with
  | true => rfl
  | false => exact (satAdd_zero fits).symm

/-- An entry is recorded if there is room, its path fits and the initial program is a
regular file. -/
theorem record_eq_ok {state next : ArchiveState} {entry : ParsedEntry}
    (recorded : state.record entry = .ok next) :
    (entry.name = initPath → isRegular entry.mode = true) ∧
    ∃ (room : state.entries.list.length < maxEntries) (path : PathField),
      PathField.fromBytes entry.name = .ok path ∧
      next = { state with
        entries := state.entries.push ⟨path, entry.data.length, entry.mode, isRegular entry.mode,
          isDirectory entry.mode⟩ room
        regularFiles :=
          if isRegular entry.mode then satAdd state.regularFiles 1 else state.regularFiles
        totalFileBytes :=
          if isRegular entry.mode then satAdd state.totalFileBytes entry.data.length
          else state.totalFileBytes
        directories :=
          if isDirectory entry.mode then satAdd state.directories 1 else state.directories
        initFound := if entry.name == initPath then true else state.initFound
        initSize := if entry.name == initPath then entry.data.length else state.initSize } := by
  unfold ArchiveState.record at recorded
  split at recorded
  · rename_i room
    dsimp only at recorded
    split at recorded
    · cases recorded
    · rename_i regular
      split at recorded
      · cases recorded
      · rename_i path found
        exact ⟨fun isInit => by simpa [isInit] using regular, room, path, found,
          (Except.ok.inj recorded).symm⟩
  · cases recorded

theorem records_of_record {state next : ArchiveState} {entry : ParsedEntry} (words : state.Words)
    (recorded : state.record entry = .ok next) : Records state [entry] next := by
  obtain ⟨-, room, path, found, rfl⟩ := record_eq_ok recorded
  have bytes := PathField.fromBytes_eq_ok.mp found
  exact
    { table := ⟨[_], rfl, .cons ⟨bytes, rfl, rfl, rfl, rfl⟩ .nil⟩
      regularFiles := by
        rw [ite_satAdd words.regularFiles]
        simp [List.countP_cons]
      directories := by
        rw [ite_satAdd words.directories]
        simp [List.countP_cons]
      totalFileBytes := by
        rw [ite_satAdd words.totalFileBytes]
        simp [ParsedEntry.fileBytes]
      initFound := by
        by_cases isInit : entry.name = initPath
        · simp [isInit]
        · simp [isInit]
      range := ⟨rfl, rfl⟩ }

/-- By induction over the entries of the walk. -/
theorem records_of_foldlM {entries : List ParsedEntry} :
    ∀ {state last : ArchiveState}, state.Words →
      entries.foldlM ArchiveState.record state = .ok last → Records state entries last := by
  induction entries with
  | nil =>
    intro state last words recorded
    cases recorded
    exact .refl words
  | cons entry rest ih =>
    intro state last words recorded
    rw [List.foldlM_cons, bind_eq_ok] at recorded
    obtain ⟨next, first, more⟩ := recorded
    have head := records_of_record words first
    exact head.trans (ih head.words more)

/-- When an entry is recorded. -/
theorem record_isOk {state : ArchiveState} {entry : ParsedEntry}
    (room : state.entries.list.length < maxEntries)
    (initRegular : entry.name = initPath → isRegular entry.mode = true)
    (short : entry.name.length ≤ maxPathLen) (valid : validPath entry.name = true) :
    ∃ next, state.record entry = .ok next := by
  have found : PathField.fromBytes entry.name = .ok ⟨entry.name, short, valid⟩ :=
    PathField.fromBytes_eq_ok.mpr rfl
  have noError : (entry.name == initPath && !isRegular entry.mode) = false := by
    by_cases isInit : entry.name = initPath
    · simp [isInit, initRegular isInit]
    · simp [isInit]
  unfold ArchiveState.record
  rw [dif_pos room]
  dsimp only
  rw [noError, found]
  exact ⟨_, rfl⟩

/-- When all of them are recorded. -/
theorem foldlM_record_isOk {entries : List ParsedEntry}
    (initRegular : ∀ entry ∈ entries, entry.name = initPath → isRegular entry.mode = true)
    (short : ∀ entry ∈ entries, entry.name.length ≤ maxPathLen)
    (valid : ∀ entry ∈ entries, validPath entry.name = true) :
    ∀ {state : ArchiveState}, state.Words →
      state.entries.list.length + entries.length ≤ maxEntries →
      ∃ last, entries.foldlM ArchiveState.record state = .ok last := by
  induction entries with
  | nil => exact fun _ _ => ⟨_, rfl⟩
  | cons entry rest ih =>
    intro state words room
    rw [List.length_cons] at room
    have notFull : state.entries.list.length < maxEntries := by omega
    obtain ⟨next, first⟩ := record_isOk notFull (initRegular entry (by simp))
      (short entry (by simp)) (valid entry (by simp))
    have records := records_of_record words first
    obtain ⟨infos, table, describes⟩ := records.table
    have size : next.entries.list.length = state.entries.list.length + 1 := by
      rw [table, List.length_append, describes.length_eq, List.length_singleton]
    obtain ⟨last, more⟩ := ih (fun other mem => initRegular other (List.mem_cons_of_mem _ mem))
      (fun other mem => short other (List.mem_cons_of_mem _ mem))
      (fun other mem => valid other (List.mem_cons_of_mem _ mem)) records.words (by omega)
    exact ⟨last, bind_eq_ok.mpr ⟨next, first, more⟩⟩

/-! ### The two loops -/

/-- The walk at boot finds the trailer after the entries that it records. -/
theorem archiveWalk_eq {bytes : List UInt8} {offset stop : Nat} {state last : ArchiveState} :
    Lib.Loop.value (archiveStep_decreases bytes) (offset, state) = (.ok (stop, true), last) ↔
      ∃ entries, Walk bytes offset entries stop ∧
        entries.foldlM ArchiveState.record state = .ok last := by
  constructor
  · refine Lib.Loop.value_rule (archiveStep_decreases bytes)
      (P := fun round result => result = (.ok (stop, true), last) → ∃ entries,
        Walk bytes round.1 entries stop ∧ entries.foldlM ArchiveState.record round.2 = .ok last)
      ?_ ?_ (offset, state)
    · rintro ⟨offset, state⟩ result leaves rfl
      rw [archiveStep] at leaves
      split at leaves
      · split at leaves
        · cases leaves
        · rename_i parsed parses
          split at leaves
          · rename_i isTrailer
            cases leaves
            exact ⟨[], .trailer parses isTrailer, rfl⟩
          · split at leaves <;> cases leaves
      · cases leaves
    · rintro ⟨offset, state⟩ next result again ih eq
      obtain ⟨entries, walk, recorded⟩ := ih eq
      rw [archiveStep] at again
      split at again
      · split at again
        · cases again
        · rename_i parsed parses
          split at again
          · cases again
          · rename_i noTrailer
            split at again
            · cases again
            · rename_i state' first
              cases again
              refine ⟨parsed :: entries, .entry parses (by simpa using noTrailer) walk, ?_⟩
              rw [List.foldlM_cons, first]
              exact recorded
      · cases again
  · rintro ⟨entries, walk, recorded⟩
    induction walk generalizing state with
    | trailer parses isTrailer =>
      cases recorded
      apply Lib.Loop.value_of_leave
      rw [archiveStep, if_pos (offset_lt_of_parseEntry parses), parses]
      simp [isTrailer]
    | entry parses noTrailer _ ih =>
      rw [List.foldlM_cons, bind_eq_ok] at recorded
      obtain ⟨next, first, more⟩ := recorded
      rw [← ih more]
      apply Lib.Loop.value_of_again
      rw [archiveStep, if_pos (offset_lt_of_parseEntry parses), parses]
      simp [noTrailer, first]

/-- Which archives are accepted. -/
theorem parseArchive_eq_ok {bytes : List UInt8} {state last : ArchiveState} :
    parseArchive bytes state = (.ok (), last) ↔
      ∃ entries stop, Walk bytes 0 entries stop ∧
        entries.foldlM ArchiveState.record state = .ok last ∧
        (∀ byte ∈ bytes.drop stop, byte = 0) ∧ last.initFound = true := by
  unfold parseArchive
  constructor
  · intro accepted
    split at accepted
    · cases accepted
    · rename_i offset trailerFound state' ends
      split at accepted
      · cases accepted
      · rename_i found
        split at accepted
        · cases accepted
        · rename_i zeros
          split at accepted
          · cases accepted
          · rename_i initFound
            cases accepted
            have found : trailerFound = true := by simpa using found
            rw [found] at ends
            obtain ⟨entries, walk, recorded⟩ := archiveWalk_eq.mp ends
            exact ⟨entries, offset, walk, recorded, by simpa using zeros, by simpa using initFound⟩
  · rintro ⟨entries, stop, walk, recorded, zeros, initFound⟩
    rw [archiveWalk_eq.mpr ⟨entries, walk, recorded⟩]
    have noGarbage : (bytes.drop stop).any (· != 0) = false := by
      simpa [List.any_eq_false] using zeros
    simp [noGarbage, initFound]

/-- The file that an entry holds. -/
def ParsedEntry.file (entry : ParsedEntry) : Option File :=
  (fromUtf8 entry.name).map fun path => { path, data := entry.data, mode := entry.mode }

/-- The walk of a lookup takes the first entry with the name. -/
theorem findWalk_eq {bytes : List UInt8} (requested : List UInt8) {offset stop : Nat}
    {entries : List ParsedEntry} (walk : Walk bytes offset entries stop) :
    Lib.Loop.value (findStep_decreases bytes requested) offset =
      (entries.find? (·.name == requested)).bind ParsedEntry.file := by
  induction walk with
  | trailer parses isTrailer =>
    apply Lib.Loop.value_of_leave
    rw [findStep, if_pos (offset_lt_of_parseEntry parses), parses]
    simp [isTrailer]
  | @entry offset entry rest stop parses noTrailer _ ih =>
    by_cases here : (entry.name == requested) = true
    · rw [List.find?_cons, here, Option.bind_some]
      apply Lib.Loop.value_of_leave
      rw [findStep, if_pos (offset_lt_of_parseEntry parses), parses]
      simp only [noTrailer, Bool.false_eq_true, if_false, here, if_true, ParsedEntry.file]
      cases fromUtf8 entry.name <;> rfl
    · have other : (entry.name == requested) = false := by simpa using here
      rw [List.find?_cons, other, ← ih]
      apply Lib.Loop.value_of_again
      rw [findStep, if_pos (offset_lt_of_parseEntry parses), parses]
      simp [noTrailer, other]

/-- Every entry that the walk of a lookup reads is there. -/
theorem parses_of_visits {bytes : List UInt8} {requested : List UInt8} {offset stop : Nat}
    {entries : List ParsedEntry} (walk : Walk bytes offset entries stop) {visited : Nat}
    (visits : Lib.Loop.Visits (findStep bytes requested) offset visited) :
    ∃ entry, parseEntry bytes visited = .ok entry := by
  induction walk with
  | @trailer offset entry parses isTrailer =>
    rcases Relation.ReflTransGen.cases_head visits with rfl | ⟨next, again, -⟩
    · exact ⟨entry, parses⟩
    · rw [findStep, if_pos (offset_lt_of_parseEntry parses), parses] at again
      simp [isTrailer] at again
  | @entry offset entry rest stop parses noTrailer _ ih =>
    rcases Relation.ReflTransGen.cases_head visits with rfl | ⟨next, again, onward⟩
    · exact ⟨entry, parses⟩
    · rw [findStep, if_pos (offset_lt_of_parseEntry parses), parses] at again
      simp only [noTrailer, Bool.false_eq_true, if_false] at again
      split at again
      · split at again <;> cases again
      · cases again
        exact ih onward

end CloudOS.Initramfs
