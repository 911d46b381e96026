import CloudOS.Shell.Editor

/-!
The arrays of the shell are the editor.

`Mirrors` connects the variables of the loop with the bounded line, the commands
and the selection. Every event keeps it, and no event uses an index that is out
of range (`handle_mirrors`). So the arrays follow the editor through every
sequence of events (`line_editor_refines`).
-/

namespace CloudOS.Shell

open Lib.Editor (Line Recent)
open Lib.Shift

/-! ### Trimming -/

/-- The loop over leading blanks drops them. -/
theorem trimFirst_eq (bytes : List UInt8) : trimFirst bytes = bytes.dropWhile isBlank := by
  induction bytes with
  | nil => rfl
  | cons first rest ih => rw [trimFirst, List.dropWhile_cons, ih]

theorem trimAscii_eq (bytes : List UInt8) : trimAscii bytes = trim bytes := by
  rw [trimAscii, trimLast, trimFirst_eq, trimFirst_eq]
  rfl

theorem command_eq_some {line : List UInt8} {c : Command} (eq : command line = some c) :
    c.bytes = trim line := by
  unfold command at eq
  split at eq
  · cases eq
    rfl
  · cases eq

/-! ### The line -/

/-- The arrays hold a line. -/
structure Input.Holds (input : Input) (line : Line UInt8 inputBufferSize) : Prop where
  held : input.held = line.items
  inputLen : input.inputLen = line.items.length
  cursor : input.cursor = line.cursor

/-- The slice that is rendered and executed is the line. -/
theorem Input.Holds.slice {input : Input} {line : Line UInt8 inputBufferSize}
    (holds : input.Holds line) : slice input.input input.inputLen = some line.items := by
  rw [slice_of_le (holds.inputLen ▸ line.bounded), ← holds.held]
  rfl

/-- A byte goes in at the cursor, and the rest moves up. -/
theorem insertInputByte_holds {input : Input} {line : Line UInt8 inputBufferSize}
    (holds : input.Holds line) (byte : UInt8) (room : line.items.length < inputBufferSize) :
    ∃ input', insertInputByte input byte = some (true, input') ∧
      input'.Holds (line.insert byte) := by
  have inside := line.inside
  obtain ⟨bytes, shifted, moved⟩ := shiftUp_put input.input byte
    (show line.cursor ≤ line.items.length from inside) room
  refine ⟨⟨bytes, line.items.length + 1, line.cursor + 1⟩, ?_, ?_⟩
  · rw [insertInputByte, if_neg (by rw [holds.inputLen]; omega), holds.inputLen, holds.cursor,
      if_neg (by omega)]
    simp only [shifted]
    rfl
  · have items : front input.input line.items.length = line.items := by
      rw [← holds.inputLen]
      exact holds.held
    rw [Line.insert, dif_pos room]
    exact ⟨moved.trans (by rw [items]),
      (List.length_insertIdx_of_le_length inside byte).symm, rfl⟩

theorem insertInputByte_full {input : Input} {line : Line UInt8 inputBufferSize}
    (holds : input.Holds line) (byte : UInt8) (full : ¬ line.items.length < inputBufferSize) :
    insertInputByte input byte = some (false, input) := by
  rw [insertInputByte, if_pos (by rw [holds.inputLen]; omega)]

/-- The byte before the cursor goes, and the rest moves down. -/
theorem deletePreviousInputByte_holds {input : Input} {line : Line UInt8 inputBufferSize}
    (holds : input.Holds line) (behind : 0 < line.cursor) :
    ∃ input', deletePreviousInputByte input = some (true, input') ∧
      input'.Holds line.backspace := by
  have inside := line.inside
  obtain ⟨bytes, shifted, moved⟩ := shiftDown_front input.input
    (show line.cursor - 1 < line.items.length by omega) line.bounded
  rw [Nat.sub_add_cancel behind] at shifted
  refine ⟨⟨bytes, line.items.length - 1, line.cursor - 1⟩, ?_, ?_⟩
  · rw [deletePreviousInputByte, holds.inputLen, holds.cursor, if_neg (by omega),
      if_neg (by omega)]
    simp only [shifted]
    rfl
  · have items : front input.input line.items.length = line.items := by
      rw [← holds.inputLen]
      exact holds.held
    rw [Line.backspace, dif_pos behind]
    exact ⟨moved.trans (by rw [items]), (List.length_eraseIdx_of_lt (by omega)).symm, rfl⟩

theorem deletePreviousInputByte_first {input : Input} {line : Line UInt8 inputBufferSize}
    (holds : input.Holds line) (first : ¬ 0 < line.cursor) :
    deletePreviousInputByte input = some (false, input) := by
  rw [deletePreviousInputByte, if_pos (by rw [holds.cursor]; omega)]

/-! ### The history -/

/-- The arrays hold these lines, oldest first. -/
structure CommandHistory.Holds (history : CommandHistory) (lines : List (List UInt8)) : Prop where
  len : history.len = lines.length
  within : lines.length ≤ historySize
  fits : ∀ line ∈ lines, line.length ≤ inputBufferSize
  entry : ∀ (index : Nat) (line : List UInt8), lines[index]? = some line →
    ∃ bytes, history.entries[index]? = some bytes ∧ history.lengths[index]? = some line.length ∧
      front bytes line.length = line

namespace CommandHistory

variable {history : CommandHistory} {lines : List (List UInt8)}

/-- A line is compared with the newest one only. -/
theorem Holds.isSameAsLatest (holds : history.Holds lines) (input : List UInt8) :
    history.isSameAsLatest input = some (lines.getLast? == some input) := by
  cases lines using List.reverseRecOn with
  | nil =>
    rw [CommandHistory.isSameAsLatest, if_pos (show history.len = 0 from holds.len)]
    rfl
  | append_singleton older latest =>
    have len : history.len = older.length + 1 := by simpa using holds.len
    obtain ⟨bytes, entry, length, held⟩ := holds.entry older.length latest (by simp)
    have short : latest.length ≤ inputBufferSize := holds.fits latest (by simp)
    rw [CommandHistory.isSameAsLatest, if_neg (by omega), len, Nat.add_sub_cancel, entry, length,
      List.getLast?_concat]
    simp only [Option.bind_eq_bind, Option.bind_some, Option.some_beq_some]
    by_cases size : latest.length = input.length
    · rw [if_pos size, ← size, slice_of_le short, held]
      rfl
    · rw [if_neg size]
      have other : (latest == input) = false := by
        rw [beq_eq_false_iff_ne]
        rintro rfl
        exact size rfl
      rw [other]
      rfl

/-- The loop of `push` moves the two arrays alike. -/
theorem foldlM_moveEntry (indices : List Nat) (history : CommandHistory)
    {entries : Vector (Vector UInt8 inputBufferSize) historySize} {lengths : Vector Nat historySize}
    (moved : indices.foldlM moveDown history.entries = some entries)
    (alike : indices.foldlM moveDown history.lengths = some lengths) :
    indices.foldlM moveEntry history = some { history with entries, lengths } := by
  induction indices generalizing history with
  | nil =>
    cases moved
    cases alike
    rfl
  | cons index rest ih =>
    obtain ⟨first, step, moved⟩ := Option.bind_eq_some_iff.mp moved
    obtain ⟨second, step', alike⟩ := Option.bind_eq_some_iff.mp alike
    have round : moveEntry history index =
        some { history with entries := first, lengths := second } := by
      rw [moveEntry, step, step']
      rfl
    rw [List.foldlM_cons, round]
    exact ih { history with entries := first, lengths := second } moved alike

/-- The oldest line of a full history makes room. -/
theorem Holds.makeRoom (holds : history.Holds lines) :
    ∃ history', history.makeRoom = some history' ∧
      history'.Holds (lines.drop (lines.length + 1 - historySize)) := by
  have within := holds.within
  by_cases full : lines.length = historySize
  · obtain ⟨entries, moved, entry⟩ :=
      shiftDown_spec 0 (historySize - 1) history.entries (by decide)
    obtain ⟨lengths, alike, length⟩ :=
      shiftDown_spec 0 (historySize - 1) history.lengths (by decide)
    refine ⟨⟨entries, lengths, history.len - 1⟩, ?_, ?_⟩
    · rw [CommandHistory.makeRoom, if_pos (holds.len.trans full),
        foldlM_moveEntry _ history moved alike]
      rfl
    · rw [full, Nat.add_sub_cancel_left]
      constructor
      · rw [List.length_drop, holds.len]
      · rw [List.length_drop]
        omega
      · intro line mem
        exact holds.fits line (List.mem_of_mem_drop mem)
      · intro index line at'
        rw [List.getElem?_drop, Nat.add_comm] at at'
        have below : index + 1 < lines.length := (List.getElem?_eq_some_iff.mp at').1
        rw [entry, length, if_pos (by omega), if_pos (by omega)]
        exact holds.entry (index + 1) line at'
  · refine ⟨history, ?_, ?_⟩
    · rw [CommandHistory.makeRoom, if_neg (by rw [holds.len]; exact full)]
    · rw [show lines.length + 1 - historySize = 0 by omega, List.drop_zero]
      exact holds

/-- A line is written behind the newest one. -/
theorem Holds.append (holds : history.Holds lines) (room : lines.length < historySize)
    {input : List UInt8} (short : input.length ≤ inputBufferSize) :
    ∃ history', history.append input = some history' ∧ history'.Holds (lines ++ [input]) := by
  have len := holds.len
  have free : history.len < historySize := by omega
  obtain ⟨bytes, copied, held⟩ := copyFrom_of_le history.entries[history.len] short
  refine ⟨⟨history.entries.set history.len bytes, history.lengths.set history.len input.length,
    history.len + 1⟩, ?_, ?_⟩
  · rw [CommandHistory.append, Vector.getElem?_eq_getElem free]
    simp only [Option.bind_eq_bind, Option.bind_some, copied, put_of_lt free]
    rfl
  · constructor
    · simp [len]
    · simp only [List.length_append, List.length_singleton]
      omega
    · intro line mem
      rcases List.mem_append.mp mem with mem | mem
      · exact holds.fits line mem
      · rw [List.mem_singleton.mp mem]
        exact short
    · intro index line at'
      rw [Vector.getElem?_set, Vector.getElem?_set]
      rcases Nat.lt_trichotomy index lines.length with below | here | above
      · rw [List.getElem?_append_left below] at at'
        rw [if_neg (by omega), if_neg (by omega)]
        exact holds.entry index line at'
      · rw [here, List.getElem?_concat_length] at at'
        cases at'
        rw [if_pos (by omega), if_pos (by omega)]
        exact ⟨bytes, rfl, rfl, held⟩
      · have none : (lines ++ [input])[index]? = none := by
          rw [List.getElem?_eq_none_iff]
          simp only [List.length_append, List.length_singleton]
          omega
        rw [none] at at'
        cases at'

/-- A line of the history is copied over the input, with the cursor behind it. -/
theorem Holds.load (holds : history.Holds lines) {index : Nat} {line : List UInt8}
    (there : lines[index]? = some line) (input : Input) :
    ∃ input', history.load index input = some (true, input') ∧ input'.held = line ∧
      input'.inputLen = line.length ∧ input'.cursor = line.length := by
  obtain ⟨bytes, entry, length, held⟩ := holds.entry index line there
  have below : index < lines.length := (List.getElem?_eq_some_iff.mp there).1
  have short : line.length ≤ inputBufferSize := holds.fits line (List.mem_of_getElem? there)
  obtain ⟨copy, copied, same⟩ := copyFrom_of_le input.input short
  refine ⟨⟨copy, line.length, line.length⟩, ?_, same, rfl, rfl⟩
  rw [CommandHistory.load, if_neg (by rw [holds.len]; omega), entry, length]
  simp only [Option.bind_eq_bind, Option.bind_some, slice_of_le short, held, copied]
  rfl

/-- What is remembered of an entered line. -/
theorem Holds.push {recent : Recent Command historySize}
    (holds : history.Holds (recent.entries.map Command.bytes)) {input : List UInt8}
    (short : input.length ≤ inputBufferSize) :
    ∃ history', history.push input = some history' ∧
      history'.Holds (((command input).toList.foldl Recent.remember recent).entries.map
        Command.bytes) := by
  have fits : (trim input).length ≤ inputBufferSize := (length_trim_le input).trans short
  rw [CommandHistory.push, trimAscii_eq]
  by_cases blank : trim input = []
  · have none : command input = none := dif_neg fun worth => worth.1 blank
    refine ⟨history, ?_, ?_⟩
    · simp [blank]
    · rw [none]
      exact holds
  · obtain ⟨c, worth, bytes⟩ : ∃ c, command input = some c ∧ c.bytes = trim input :=
      ⟨_, dif_pos ⟨blank, fits⟩, rfl⟩
    rw [if_neg (by simpa using blank), holds.isSameAsLatest, worth, ← bytes, List.getLast?_map]
    have newest : (recent.entries.getLast?.map Command.bytes == some c.bytes) =
        decide (recent.entries.getLast? = some c) := by
      rw [Bool.eq_iff_iff, beq_iff_eq, decide_eq_true_iff, Option.map_eq_some_iff]
      constructor
      · rintro ⟨other, last, same⟩
        cases other
        cases c
        cases same
        exact last
      · intro last
        exact ⟨c, last, rfl⟩
    simp only [newest, Option.bind_eq_bind, Option.bind_some, Option.toList_some, List.foldl_cons,
      List.foldl_nil]
    by_cases again : recent.entries.getLast? = some c
    · refine ⟨history, ?_, ?_⟩
      · simp [again]
      · rw [Recent.remember, dif_pos again]
        exact holds
    · obtain ⟨roomy, made, kept⟩ := holds.makeRoom
      have within := holds.within
      rw [List.length_map] at kept within
      have room : ((recent.entries.map Command.bytes).drop
          (recent.entries.length + 1 - historySize)).length < historySize := by
        rw [List.length_drop, List.length_map]
        have some : 0 < historySize := by decide
        omega
      obtain ⟨longer, written, held⟩ := kept.append room c.fits
      refine ⟨longer, ?_, ?_⟩
      · simp [again, made, written]
      · rw [Recent.remember, dif_neg again]
        simp only [List.rtake, List.length_append, List.length_singleton, List.map_drop,
          List.map_append, List.map_singleton]
        rw [List.drop_append_of_le_length (by rw [List.length_map]; omega)]
        exact held

end CommandHistory

/-! ### The loop -/

/-- The variables of the loop are those of the editor. -/
structure Mirrors (session : Session) (editor : Editor) : Prop where
  line : session.line.Holds editor.line
  history : session.history.Holds (editor.recent.entries.map Command.bytes)
  selected : session.historySelected = editor.selected

/-- The lines that are handed to `execute`. -/
def executed (effects : List Effect) : List (List UInt8) :=
  effects.filterMap fun
    | .execute input => some input
    | _ => none

/-- What is shown is the new line, what is executed the old one, and what is recalled
one of the commands that are remembered. -/
def Shows (editor next : Editor) : Effect → Prop
  | .renderInputWithCursor input cursor => input = next.line.items ∧ cursor = next.line.cursor
  | .execute input => input = editor.line.items
  | .incShellHistoryRecall => ∃ c ∈ editor.recent.entries, next.line.items = c.bytes
  | _ => True

/-- An event is handled as the specification says. -/
def Handled (editor next : Editor) (outcome : Option (List Effect × Session)) : Prop :=
  ∃ effects session, outcome = some (effects, session) ∧ Mirrors session next ∧
    (∀ effect ∈ effects, Shows editor next effect) ∧
    next.recent = ((executed effects).filterMap command).foldl Recent.remember editor.recent

variable {session : Session} {editor : Editor}

/-- Nothing changed, and what was said about it are log lines. -/
theorem Handled.unchanged (mirrors : Mirrors session editor) {effects : List Effect}
    (quiet : ∀ effect ∈ effects, ∃ text message value, effect = .logBool text message value) :
    Handled editor editor (some (effects, session)) := by
  refine ⟨effects, session, rfl, mirrors, ?_, ?_⟩
  · intro effect mem
    obtain ⟨text, message, value, rfl⟩ := quiet effect mem
    trivial
  · have none : executed effects = [] := by
      rw [executed, List.filterMap_eq_nil_iff]
      intro effect mem
      obtain ⟨text, message, value, rfl⟩ := quiet effect mem
      rfl
    rw [none]
    rfl

/-- A new line that is shown at once. -/
theorem Handled.render (editor : Editor) {next : Editor} (mirrors : Mirrors session next)
    (same : next.recent = editor.recent) {before : List Effect}
    (shows : ∀ effect ∈ before, Shows editor next effect) (still : executed before = []) :
    Handled editor next (render session before) := by
  refine ⟨before ++ [.renderInputWithCursor next.line.items session.line.cursor], session, ?_,
    mirrors, ?_, ?_⟩
  · rw [Shell.render, mirrors.line.slice]
    rfl
  · intro effect mem
    rcases List.mem_append.mp mem with mem | mem
    · exact shows effect mem
    · rw [List.mem_singleton.mp mem]
      exact ⟨rfl, mirrors.line.cursor⟩
  · rw [executed, List.filterMap_append, ← executed, still, same]
    rfl

/-- A byte is typed. -/
theorem Handled.insert (mirrors : Mirrors session editor) (byte : UInt8) :
    Handled editor (editor.insert byte) (typeByte session byte) := by
  by_cases room : editor.line.items.length < inputBufferSize
  · obtain ⟨line, inserted, holds⟩ := insertInputByte_holds mirrors.line byte room
    have typed : Mirrors ⟨line, session.history, none⟩ (editor.edit (editor.line.insert byte)) :=
      ⟨holds, mirrors.history, rfl⟩
    rw [Editor.insert, if_pos room, typeByte, inserted]
    exact Handled.render editor typed rfl (List.forall_mem_nil _) rfl
  · rw [Editor.insert, if_neg room, typeByte, insertInputByte_full mirrors.line byte room]
    exact Handled.unchanged mirrors (List.forall_mem_nil _)

/-- Backspace, which does nothing at the start of the line. -/
theorem Handled.delete (mirrors : Mirrors session editor) :
    Handled editor (editor.press .backspace) (handle session .backspace) := by
  by_cases behind : 0 < editor.line.cursor
  · obtain ⟨line, deleted, holds⟩ := deletePreviousInputByte_holds mirrors.line behind
    have edited : Mirrors ⟨line, session.history, none⟩ (editor.edit editor.line.backspace) :=
      ⟨holds, mirrors.history, rfl⟩
    rw [Editor.press, if_pos behind, handle, deleted]
    exact Handled.render editor edited rfl (List.forall_mem_nil _) rfl
  · rw [Editor.press, if_neg behind, handle, deletePreviousInputByte_first mirrors.line behind]
    exact Handled.unchanged mirrors (List.forall_mem_nil _)

/-- A line that is cleared. -/
theorem Input.Holds.empty (input : Vector UInt8 inputBufferSize) :
    Input.Holds ⟨input, 0, 0⟩ Line.empty where
  held := front_zero input
  inputLen := rfl
  cursor := rfl

/-- Escape, and the arrow down behind the newest command, leave an empty line. -/
theorem Handled.clear (mirrors : Mirrors session editor) {before : List Effect}
    (logged : ∀ effect ∈ before, ∃ origin message, effect = .log origin message) :
    Handled editor (editor.edit .empty)
      (Shell.render ⟨{ session.line with inputLen := 0, cursor := 0 }, session.history, none⟩
        before) := by
  have cleared : Mirrors ⟨{ session.line with inputLen := 0, cursor := 0 }, session.history, none⟩
      (editor.edit .empty) := ⟨.empty session.line.input, mirrors.history, rfl⟩
  apply Handled.render editor cleared rfl
  · intro effect mem
    obtain ⟨origin, message, rfl⟩ := logged effect mem
    trivial
  · rw [executed, List.filterMap_eq_nil_iff]
    intro effect mem
    obtain ⟨origin, message, rfl⟩ := logged effect mem
    rfl

/-- A command is recalled. -/
theorem Handled.retrieve (mirrors : Mirrors session editor) {index : Nat}
    (valid : index < editor.recent.entries.length) :
    Handled editor (editor.retrieve index valid) (select session index) := by
  have there : (editor.recent.entries.map Command.bytes)[index]? =
      some editor.recent.entries[index].bytes := by
    rw [List.getElem?_map, List.getElem?_eq_getElem valid]
    rfl
  obtain ⟨line, loaded, held, inputLen, cursor⟩ := mirrors.history.load there session.line
  have recalled : Mirrors ⟨line, session.history, some index⟩ (editor.retrieve index valid) :=
    ⟨⟨held, inputLen, cursor⟩, mirrors.history, rfl⟩
  rw [select, loaded]
  apply Handled.render editor recalled rfl
  · intro effect mem
    rw [List.mem_singleton.mp mem]
    exact ⟨_, List.getElem_mem valid, rfl⟩
  · rfl

theorem Handled.enter (mirrors : Mirrors session editor) :
    Handled editor editor.enter (handle session .enter) := by
  obtain ⟨history, pushed, holds⟩ := mirrors.history.push editor.line.bounded
  have recent : editor.enter.recent =
      (command editor.line.items).toList.foldl Recent.remember editor.recent := by
    change ((command editor.line.items).map editor.recent.remember).getD editor.recent = _
    cases command editor.line.items with
    | none => rfl
    | some c => rfl
  refine ⟨[.serialPrintln "", .writeByte 0x0a, .execute editor.line.items, .prompt],
    ⟨{ session.line with inputLen := 0, cursor := 0 }, history, none⟩, ?_, ?_, ?_, ?_⟩
  · rw [handle, mirrors.line.slice]
    simp only [Option.bind_eq_bind, Option.bind_some, pushed]
    rfl
  · rw [← recent] at holds
    exact ⟨.empty session.line.input, holds, rfl⟩
  · simp [Shows]
  · rw [recent]
    cases worth : command editor.line.items with
    | none => simp [executed, worth]
    | some c => simp [executed, worth]

/-- The history is as long as the list of commands. -/
theorem Mirrors.len (mirrors : Mirrors session editor) :
    session.history.len = editor.recent.entries.length := by
  rw [mirrors.history.len, List.length_map]

/-- The arrow up stops at the oldest command. -/
theorem Handled.older (mirrors : Mirrors session editor) :
    Handled editor editor.older (handle session .arrowUp) := by
  rw [handle, mirrors.selected, Editor.older]
  split
  · rename_i index selection
    have goes : session.history.previousIndex editor.selected = some (index - 1) := by
      rw [selection, CommandHistory.previousIndex]
      cases index with
      | zero => rfl
      | succ index => rfl
    rw [goes]
    exact Handled.retrieve mirrors _
  · rename_i selection
    rw [selection, CommandHistory.previousIndex, CommandHistory.latestIndex, mirrors.len]
    by_cases some : 0 < editor.recent.entries.length
    · rw [if_neg (by omega), dif_pos some]
      exact Handled.retrieve mirrors _
    · rw [if_pos (by omega), dif_neg some]
      exact Handled.unchanged mirrors (List.forall_mem_nil _)

/-- The arrow down ends with an empty line. -/
theorem Handled.newer (mirrors : Mirrors session editor) :
    Handled editor editor.newer (handle session .arrowDown) := by
  rw [handle, mirrors.selected, Editor.newer]
  cases selection : editor.selected with
  | none => exact Handled.unchanged mirrors (List.forall_mem_nil _)
  | some index =>
    rw [CommandHistory.nextIndex, mirrors.len]
    by_cases valid : index + 1 < editor.recent.entries.length
    · rw [if_pos valid]
      simp only [dif_pos valid]
      exact Handled.retrieve mirrors valid
    · rw [if_neg valid]
      simp only [dif_neg valid]
      exact Handled.clear mirrors (List.forall_mem_nil _)

theorem Handled.left (mirrors : Mirrors session editor) :
    Handled editor (editor.press .arrowLeft) (handle session .arrowLeft) := by
  have cursor := mirrors.line.cursor
  have moved : Mirrors
      { session with line := { session.line with cursor := session.line.cursor - 1 } }
      (editor.press .arrowLeft) :=
    ⟨⟨mirrors.line.held, mirrors.line.inputLen, congrArg (· - 1) cursor⟩,
      mirrors.history, mirrors.selected⟩
  rw [handle]
  split
  · exact Handled.render editor moved rfl (List.forall_mem_nil _) rfl
  · rename_i first
    have still : session.line.cursor - 1 = session.line.cursor := by omega
    rw [still] at moved
    exact ⟨[], session, rfl, moved, List.forall_mem_nil _, rfl⟩

theorem Handled.right (mirrors : Mirrors session editor) :
    Handled editor (editor.press .arrowRight) (handle session .arrowRight) := by
  have cursor := mirrors.line.cursor
  have inputLen := mirrors.line.inputLen
  have inside := editor.line.inside
  have moved : Mirrors
      { session with line :=
        { session.line with cursor := min (session.line.cursor + 1) session.line.inputLen } }
      (editor.press .arrowRight) :=
    ⟨⟨mirrors.line.held, inputLen, by rw [cursor, inputLen]; rfl⟩,
      mirrors.history, mirrors.selected⟩
  rw [handle]
  split
  · rename_i room
    rw [Nat.min_eq_left (by omega)] at moved
    exact Handled.render editor moved rfl (List.forall_mem_nil _) rfl
  · rename_i last
    have still : min (session.line.cursor + 1) session.line.inputLen = session.line.cursor := by
      omega
    rw [still] at moved
    exact ⟨[], session, rfl, moved, List.forall_mem_nil _, rfl⟩

/-- Every event is handled as the specification says, without a bad index. -/
theorem handle_mirrors (mirrors : Mirrors session editor) (event : KeyEvent) :
    Handled editor (editor.press event) (handle session event) := by
  cases event with
  | char byte =>
    rw [handle, Editor.press]
    split
    · exact Handled.insert mirrors byte
    · exact Handled.unchanged mirrors (List.forall_mem_nil _)
  | enter => exact Handled.enter mirrors
  | backspace => exact Handled.delete mirrors
  | tab => exact Handled.insert mirrors 0x20
  | escape =>
    apply Handled.clear mirrors
    intro effect mem
    exact ⟨_, _, List.mem_singleton.mp mem⟩
  | arrowUp => exact Handled.older mirrors
  | arrowDown => exact Handled.newer mirrors
  | arrowLeft => exact Handled.left mirrors
  | arrowRight => exact Handled.right mirrors
  | shiftPressed => exact Handled.unchanged mirrors (List.forall_mem_nil _)
  | shiftReleased => exact Handled.unchanged mirrors (List.forall_mem_nil _)
  | capsLockToggled enabled =>
    apply Handled.unchanged mirrors
    intro effect mem
    exact ⟨_, _, _, List.mem_singleton.mp mem⟩

/-! ### Runs -/

theorem executed_append (effects more : List Effect) :
    executed (effects ++ more) = executed effects ++ executed more := List.filterMap_append

/-- Any sequence of events. -/
theorem run_mirrors (events : List KeyEvent) (mirrors : Mirrors session editor) :
    ∃ effects session', run session events = some (effects, session') ∧
      Mirrors session' (events.foldl Editor.press editor) ∧
      (events.foldl Editor.press editor).recent =
        ((executed effects).filterMap command).foldl Recent.remember editor.recent := by
  induction events generalizing session editor with
  | nil => exact ⟨[], session, rfl, mirrors, rfl⟩
  | cons event events ih =>
    obtain ⟨effects, next, handled, follows, -, recent⟩ := handle_mirrors mirrors event
    obtain ⟨more, last, ran, mirrors', recent'⟩ := ih follows
    refine ⟨effects ++ more, last, ?_, mirrors', ?_⟩
    · rw [run, handled]
      simp only [Option.bind_eq_bind, Option.bind_some, ran]
      rfl
    · rw [executed_append, List.filterMap_append, List.foldl_append, ← recent]
      exact recent'

/-- The loop begins with empty arrays. -/
theorem start_mirrors : Mirrors .start .start where
  line := .empty _
  history :=
    { len := rfl
      within := Nat.zero_le _
      fits := List.forall_mem_nil _
      entry := by
        intro index line none
        cases none }
  selected := rfl

/-- The array, its length and the cursor are a bounded line with a cursor, and the history
is that of the last commands that were entered, without repetitions. What the history
puts into the line was entered before, byte for byte up to trimming. -/
theorem line_editor_refines (events : List KeyEvent) :
    ∃ effects session, run .start events = some (effects, session) ∧
      session.line.held = (editorAfter events).line.items ∧
      session.line.cursor = (editorAfter events).line.cursor ∧
      session.line.cursor ≤ session.line.inputLen ∧
      session.line.inputLen ≤ inputBufferSize ∧
      session.history.Holds ((editorAfter events).recent.entries.map Command.bytes) ∧
      session.historySelected = (editorAfter events).selected ∧
      (editorAfter events).recent.entries =
        (((executed effects).filterMap command).destutter (· ≠ ·)).rtake historySize ∧
      ∀ event recalled session', handle session event = some (recalled, session') →
        .incShellHistoryRecall ∈ recalled →
          ∃ line ∈ executed effects, session'.line.held = trimAscii line := by
  obtain ⟨effects, session, ran, mirrors, recent⟩ := run_mirrors events start_mirrors
  change Mirrors session (editorAfter events) at mirrors
  change (editorAfter events).recent = Recent.after _ at recent
  have entries := congrArg Recent.entries recent
  rw [Recent.after_eq (by decide)] at entries
  have line := mirrors.line
  refine ⟨effects, session, ran, line.held, line.cursor, ?_, ?_, mirrors.history, mirrors.selected,
    entries, ?_⟩
  · rw [line.cursor, line.inputLen]
    exact (editorAfter events).line.inside
  · rw [line.inputLen]
    exact (editorAfter events).line.bounded
  · intro event recalled session' handled mem
    obtain ⟨effects', next, handled', follows, shows, -⟩ := handle_mirrors mirrors event
    rw [handled] at handled'
    cases handled'
    obtain ⟨c, known, loaded⟩ := shows _ mem
    rw [entries] at known
    obtain ⟨entered, mem, worth⟩ := List.mem_filterMap.mp
      ((List.destutter_sublist _ _).mem (List.mem_of_mem_drop known))
    refine ⟨entered, mem, ?_⟩
    rw [follows.line.held, loaded, command_eq_some worth, trimAscii_eq]

/-- A line that is entered, recalled and edited in the middle. -/
example : (run .start [.char 104, .char 105, .enter, .arrowUp, .arrowLeft, .backspace]).map
    (fun outcome => (outcome.2.line.held, outcome.2.line.cursor)) = some ([105], 0) := by
  decide +kernel

end CloudOS.Shell
