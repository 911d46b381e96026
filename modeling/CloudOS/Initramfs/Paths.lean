import CloudOS.Initramfs.Format

/-!
What `valid_path` accepts: paths of allowed bytes, no component of which is empty,
`.` or `..`.
-/

namespace CloudOS.Initramfs

open Lib.Word (asBytes)
open Lib.Slice (slice)

/-- The components of a path. -/
def components (path : List UInt8) : List (List UInt8) := path.splitOnP (· == slash)

/-- A component that is not empty, `.` or `..`, of allowed bytes. -/
def GoodComponent (component : List UInt8) : Prop :=
  validComponent component = true ∧ ∀ byte ∈ component, isPathByte byte = true

theorem slash_not_pathByte : isPathByte slash = false := by decide

theorem slice_succ {path : List UInt8} {start index : Nat} {byte : UInt8} (ordered : start ≤ index)
    (here : path[index]? = some byte) :
    slice path start (index + 1) = slice path start index ++ [byte] := by
  have inside : index - start < (path.drop start).length := by
    have := (List.getElem?_eq_some_iff.mp here).1
    rw [List.length_drop]
    omega
  have found : (path.drop start)[index - start]? = some byte := by
    rw [List.getElem?_drop, Nat.add_sub_cancel' ordered, here]
  rw [slice, slice, Nat.sub_add_comm ordered, List.take_add_one, found, Option.toList_some]

theorem drop_eq_slice_append (path : List UInt8) {start index : Nat} (ordered : start ≤ index) :
    path.drop start = slice path start index ++ path.drop index := by
  conv_lhs => rw [← List.take_append_drop (index - start) (path.drop start)]
  rw [slice, List.drop_drop, Nat.add_sub_cancel' ordered]

/-- Splitting loses nothing but the slashes. -/
theorem mem_components {path : List UInt8} {byte : UInt8} (mem : byte ∈ path)
    (other : byte ≠ slash) : ∃ component ∈ components path, byte ∈ component := by
  induction path with
  | nil => cases mem
  | cons head rest ih =>
    rw [components, List.splitOnP_cons_eq_if_modifyHead]
    obtain ⟨first, more, split⟩ :=
      List.exists_cons_of_ne_nil (List.splitOnP_ne_nil (· == slash) rest)
    rcases List.mem_cons.mp mem with rfl | mem
    · rw [if_neg (by simpa using other), split]
      exact ⟨byte :: first, by simp, by simp⟩
    · obtain ⟨component, found, within⟩ := ih mem
      rw [components, split] at found
      rw [split]
      split
      · exact ⟨component, List.mem_cons_of_mem _ found, within⟩
      · rcases List.mem_cons.mp found with rfl | found
        · exact ⟨head :: component, by simp, List.mem_cons_of_mem _ within⟩
        · exact ⟨component, by simp [found], within⟩

/-- The loop from `index` on, in a component that is good so far. -/
theorem validPathStep_foldlM (path : List UInt8) :
    ∀ (rounds start index : Nat), start ≤ index → index + rounds = path.length + 1 → 0 < rounds →
      (∀ byte ∈ slice path start index, isPathByte byte = true) →
      (((List.range' index rounds).foldlM (validPathStep path) start).isSome ↔
        ∀ component ∈ components (path.drop start), GoodComponent component) := by
  intro rounds
  induction rounds with
  | zero =>
    intro start index _ _ positive
    omega
  | succ rounds ih =>
    intro start index ordered size _ good
    have noSlash : ∀ byte ∈ slice path start index, (byte == slash) = false := by
      intro byte mem
      by_contra isSlash
      have eq : byte = slash := by simpa using isSlash
      have := good byte mem
      rw [eq, slash_not_pathByte] at this
      cases this
    rw [List.range'_succ, List.foldlM_cons, validPathStep]
    cases here : path[index]? with
    | none =>
      have atEnd : path.length ≤ index := List.getElem?_eq_none_iff.mp here
      have rest : path.drop start = slice path start index := by
        rw [drop_eq_slice_append path ordered, List.drop_eq_nil_of_le atEnd, List.append_nil]
      have noRounds : rounds = 0 := by omega
      subst noRounds
      rw [rest, components, List.splitOnP_eq_singleton noSlash]
      by_cases valid : validComponent (slice path start index) = true
      · simpa [valid, GoodComponent] using good
      · simp [valid, GoodComponent]
    | some byte =>
      have inside := (List.getElem?_eq_some_iff.mp here).1
      have rest : path.drop index = byte :: path.drop (index + 1) := by
        rw [List.drop_eq_getElem_cons inside, (List.getElem?_eq_some_iff.mp here).2]
      by_cases isSlash : (byte == slash) = true
      · have split : components (path.drop start) =
            slice path start index :: components (path.drop (index + 1)) := by
          rw [drop_eq_slice_append path ordered, rest, components,
            List.splitOnP_append_cons_of_forall_mem noSlash byte isSlash, components]
        have next := ih (index + 1) (index + 1) le_rfl (by omega) (by omega) (by simp [slice])
        rw [split]
        by_cases valid : validComponent (slice path start index) = true
        · have head : GoodComponent (slice path start index) := ⟨valid, good⟩
          simpa [isSlash, valid, head] using next
        · simp [isSlash, valid, GoodComponent]
      · by_cases allowed : isPathByte byte = true
        · have next := ih start (index + 1) (by omega) (by omega) (by omega) (by
            rw [slice_succ ordered here]
            intro other mem
            rcases List.mem_append.mp mem with mem | mem
            · exact good other mem
            · rwa [List.mem_singleton.mp mem])
          simpa [isSlash, allowed] using next
        · -- The byte lies in the first component.
          have first : ∃ component ∈ components (path.drop start), byte ∈ component := by
            refine mem_components ?_ (by simpa using isSlash)
            rw [drop_eq_slice_append path ordered, rest]
            simp
          obtain ⟨component, mem, within⟩ := first
          have bad : ¬ ∀ component ∈ components (path.drop start), GoodComponent component :=
            fun all => allowed ((all component mem).2 byte within)
          simpa [isSlash, allowed] using bad

theorem nil_not_good : ¬ GoodComponent [] := fun good => by cases good.1

/-- A path is valid when all of its components are. -/
theorem validPath_iff {path : List UInt8} :
    validPath path = true ↔ ∀ component ∈ components path, GoodComponent component := by
  have loop := validPathStep_foldlM path (path.length + 1) 0 0 le_rfl (by omega) (by omega)
    (by simp [slice])
  rw [List.drop_zero] at loop
  rw [validPath]
  split
  · rename_i rejected
    refine iff_of_false (by simp) fun good => nil_not_good (good [] ?_)
    simp only [Bool.or_eq_true, beq_iff_eq, List.isEmpty_iff] at rejected
    rcases rejected with (rfl | leading) | trailing
    · exact List.mem_singleton_self _
    · obtain ⟨rest, rfl⟩ := List.head?_eq_some_iff.mp leading
      have split : List.splitOnP (· == slash) ([] ++ slash :: rest) =
          [] :: List.splitOnP (· == slash) rest :=
        List.splitOnP_append_cons_of_forall_mem (by simp) slash (by simp) rest
      rw [components, ← List.nil_append (slash :: rest), split]
      exact List.mem_cons_self
    · obtain ⟨first, rfl⟩ := List.getLast?_eq_some_iff.mp trailing
      rw [components, List.splitOnP_append_cons first [] (by simp)]
      exact List.mem_append_right _ (List.mem_singleton_self _)
  · exact loop

/-- A valid path has only allowed bytes and slashes. -/
theorem pathByte_of_validPath {path : List UInt8} (valid : validPath path = true) {byte : UInt8}
    (mem : byte ∈ path) : isPathByte byte = true ∨ byte = slash := by
  by_cases isSlash : byte = slash
  · exact .inr isSlash
  · obtain ⟨component, found, within⟩ := mem_components mem isSlash
    exact .inl ((validPath_iff.mp valid component found).2 byte within)

theorem ne_nil_of_validPath {path : List UInt8} (valid : validPath path = true) : path ≠ [] := by
  rintro rfl
  cases valid

/-- The name of the trailer is no path. -/
theorem trailer_not_validPath : validPath cpioTrailer = false := by decide +kernel

/-! ### The grammar -/

/-- The bytes that the name of a file may have. -/
abbrev nameAlphabet : List UInt8 :=
  asBytes "ABCDEFGHIJKLMNOPQRSTUVWXYZabcdefghijklmnopqrstuvwxyz0123456789._-"

/-- The name of a file or a directory. -/
structure IsName (name : List UInt8) : Prop where
  nonempty : name ≠ []
  notHere : name ≠ asBytes "."
  notParent : name ≠ asBytes ".."
  letters : ∀ byte ∈ name, byte ∈ nameAlphabet

/-- Names joined by single slashes. -/
def IsPath (path : List UInt8) : Prop :=
  ∃ names : List (List UInt8), names ≠ [] ∧ (∀ name ∈ names, IsName name) ∧
    path = [slash].intercalate names

theorem isPathByte_iff : ∀ byte : UInt8, isPathByte byte = true ↔ byte ∈ nameAlphabet := by
  decide +kernel

/-- A good component is a name. -/
theorem goodComponent_iff {component : List UInt8} :
    GoodComponent component ↔ IsName component := by
  unfold GoodComponent validComponent
  simp only [Bool.not_eq_true', Bool.or_eq_false_iff, List.isEmpty_eq_false_iff,
    beq_eq_false_iff_ne, isPathByte_iff]
  constructor
  · rintro ⟨⟨⟨nonempty, notHere⟩, notParent⟩, letters⟩
    exact ⟨nonempty, notHere, notParent, letters⟩
  · rintro ⟨nonempty, notHere, notParent, letters⟩
    exact ⟨⟨⟨nonempty, notHere⟩, notParent⟩, letters⟩

theorem IsName.slash_notMem {name : List UInt8} (isName : IsName name) : slash ∉ name := by
  intro mem
  have allowed := (isPathByte_iff slash).mpr (isName.letters slash mem)
  rw [slash_not_pathByte] at allowed
  cases allowed

theorem validPath_iff_isPath {path : List UInt8} : validPath path = true ↔ IsPath path := by
  rw [validPath_iff]
  constructor
  · intro good
    refine ⟨components path, List.splitOnP_ne_nil _ path, ?_, ?_⟩
    · intro component mem
      exact goodComponent_iff.mp (good component mem)
    · exact (List.intercalate_splitOn slash).symm
  · rintro ⟨names, nonempty, areNames, rfl⟩ component mem
    have split : components ([slash].intercalate names) = names :=
      List.splitOn_intercalate slash (fun name mem => (areNames name mem).slash_notMem) nonempty
    rw [split] at mem
    exact goodComponent_iff.mpr (areNames component mem)

/-- No path that is valid begins with a slash. -/
theorem stripSlash_of_validPath {path : List UInt8} (valid : validPath path = true) :
    stripSlash path = path := by
  unfold stripSlash
  split
  · rename_i leading
    simp [validPath, leading] at valid
  · rfl

/-- One leading slash may be left out. -/
theorem normalizeRequestedPath_eq_some {requested path : List UInt8} :
    normalizeRequestedPath requested = some path ↔
      validPath path = true ∧ (requested = path ∨ requested = slash :: path) := by
  unfold normalizeRequestedPath
  constructor
  · intro normalized
    split at normalized
    · rename_i valid
      cases normalized
      refine ⟨valid, ?_⟩
      unfold stripSlash
      split
      · rename_i leading
        obtain ⟨rest, rfl⟩ := List.head?_eq_some_iff.mp (beq_iff_eq.mp leading)
        exact .inr rfl
      · exact .inl rfl
    · cases normalized
  · rintro ⟨valid, rfl | rfl⟩
    · rw [stripSlash_of_validPath valid, if_pos valid]
    · have stripped : stripSlash (slash :: path) = path := rfl
      rw [stripped, if_pos valid]

/-- `valid_path` accepts exactly the names joined by single slashes, and
`normalize_requested_path` takes them with or without one slash in front. -/
theorem valid_path_grammar (path : List UInt8) :
    (validPath path = true ↔ IsPath path) ∧
    ∀ normalized, normalizeRequestedPath path = some normalized ↔
      IsPath normalized ∧ (path = normalized ∨ path = slash :: normalized) := by
  constructor
  · exact validPath_iff_isPath
  · intro normalized
    rw [normalizeRequestedPath_eq_some, validPath_iff_isPath]

end CloudOS.Initramfs
