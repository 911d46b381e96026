import CloudOS.Vga.Cursor

/-!
Where the writer draws.

Once the splash screen is shown, the position stays within the console, and so does
every cell that is written. The row of the input line is within it from the first
prompt on; an input of at most 512 bytes then fits below the row it is moved to.
-/

namespace CloudOS.Vga

open Lib.Word (asBytes)

abbrev maxInput : Nat := 512

/-- The offset of a cell within the console. -/
def InConsole (offset : Nat) : Prop :=
  ∃ row column, consoleTop ≤ row ∧ row ≤ consoleBottom ∧ consoleLeft ≤ column ∧
    column ≤ consoleRight ∧ offset = row * vgaWidth + column

/-- Every cell that is written from the one state to the other is in the console. -/
def WritesInConsole (s s' : Writer) : Prop :=
  ∃ offsets, s'.buffer.written = offsets ++ s.buffer.written ∧
    ∀ offset ∈ offsets, InConsole offset

/-- Nothing is written. -/
theorem WritesInConsole.refl (s : Writer) : WritesInConsole s s := ⟨[], rfl, by simp⟩

/-- What is written later comes before what was written first. -/
theorem WritesInConsole.trans {s s' s'' : Writer} (first : WritesInConsole s s')
    (second : WritesInConsole s' s'') : WritesInConsole s s'' := by
  obtain ⟨offsets, eq, inside⟩ := first
  obtain ⟨offsets', eq', inside'⟩ := second
  refine ⟨offsets' ++ offsets, ?_, ?_⟩
  · rw [eq', eq, List.append_assoc]
  · intro offset mem
    rcases List.mem_append.mp mem with mem | mem
    · exact inside' offset mem
    · exact inside offset mem

/-! ### Drawing -/

/-- The writer draws in the console and stays where it is. -/
structure Draws (s s' : Writer) : Prop where
  writes : WritesInConsole s s'
  row : s'.row = s.row
  column : s'.column = s.column
  inputRow : s'.inputRow = s.inputRow

namespace Draws

variable {s s' s'' : Writer}

/-- Nothing is drawn. -/
theorem refl (s : Writer) : Draws s s := ⟨.refl s, rfl, rfl, rfl⟩

/-- Drawing twice, still at the same place. -/
theorem trans (first : Draws s s') (second : Draws s' s'') : Draws s s'' where
  writes := first.writes.trans second.writes
  row := second.row.trans first.row
  column := second.column.trans first.column
  inputRow := second.inputRow.trans first.inputRow

/-- A loop whose rounds draw. -/
theorem foldl {α : Type} {round : Writer → α → Writer} (xs : List α) (s : Writer)
    (draws : ∀ x ∈ xs, ∀ s', s'.inputRow = s.inputRow → Draws s' (round s' x)) :
    Draws s (xs.foldl round s) := by
  induction xs generalizing s with
  | nil => exact .refl s
  | cons x xs ih =>
      have first := draws x List.mem_cons_self s rfl
      refine first.trans (ih (round s x) ?_)
      intro y mem s' same
      exact draws y (List.mem_cons_of_mem x mem) s' (same.trans first.inputRow)

/-- A cell within the bounds of the console. -/
theorem writeCell (s : Writer) {row column : Nat} (top : consoleTop ≤ row)
    (bottom : row ≤ consoleBottom) (left : consoleLeft ≤ column) (right : column ≤ consoleRight)
    (byte colorCode : UInt8) : Draws s (s.writeCell (row * vgaWidth + column) byte colorCode) where
  writes := by
    refine ⟨[row * vgaWidth + column], rfl, ?_⟩
    intro offset mem
    rw [List.mem_singleton.mp mem]
    exact ⟨row, column, top, bottom, left, right, rfl⟩
  row := rfl
  column := rfl
  inputRow := rfl

/-- A run of cells that ends within the row. -/
theorem writeRun {row : Nat} (top : consoleTop ≤ row) (bottom : row ≤ consoleBottom)
    (colorCode : UInt8) (run : List UInt8) : ∀ (s : Writer) (column : Nat),
      consoleLeft ≤ column → column + run.length ≤ consoleRight + 1 →
      Draws s (s.writeRun (row * vgaWidth + column) colorCode run) := by
  induction run with
  | nil =>
      intro s column _ _
      exact .refl s
  | cons byte rest ih =>
      intro s column left right
      rw [List.length_cons] at right
      have first := writeCell s top bottom left (by omega) byte colorCode
      exact first.trans (ih _ (column + 1) (by omega) (by omega))

end Draws

theorem console_size : consoleTop = 8 ∧ consoleBottom = 23 ∧ consoleLeft = 3 ∧ consoleRight = 76 ∧
    vgaWidth = 80 ∧ vgaHeight = 25 :=
  ⟨rfl, rfl, rfl, rfl, rfl, rfl⟩

theorem mem_inclusive {first last x : Nat} : x ∈ inclusive first last ↔ first ≤ x ∧ x ≤ last := by
  rw [inclusive, List.mem_range'_1]
  omega

/-- Clearing a row of the console writes its columns and no others. -/
theorem clearConsoleRow_draws (s : Writer) {row : Nat} (top : consoleTop ≤ row)
    (bottom : row ≤ consoleBottom) : Draws s (s.clearConsoleRow row) := by
  apply Draws.foldl
  intro column mem s' _
  obtain ⟨left, right⟩ := mem_inclusive.mp mem
  exact Draws.writeCell s' top bottom left right _ _

/-- A row below the first one is copied to the row above, within the console. -/
theorem moveRowUp_draws (s : Writer) {row : Nat} (top : consoleTop + 1 ≤ row)
    (bottom : row ≤ consoleBottom) : Draws s (s.moveRowUp row) := by
  apply Draws.foldl
  intro column mem s' _
  obtain ⟨left, right⟩ := mem_inclusive.mp mem
  exact Draws.writeCell s' (by omega) (by omega) left right _ _

/-! ### Moving -/

/-- The position is in the console. -/
structure Placed (s : Writer) : Prop where
  top : consoleTop ≤ s.row
  bottom : s.row ≤ consoleBottom
  left : consoleLeft ≤ s.column
  right : s.column ≤ consoleRight

/-- The writer draws in the console, ends up in it and leaves the input line alone. -/
structure Keeps (s s' : Writer) : Prop where
  writes : WritesInConsole s s'
  placed : Placed s'
  inputRow : s'.inputRow = s.inputRow

namespace Keeps

variable {s s' s'' : Writer}

/-- A writer that does nothing keeps its place. -/
theorem refl (placed : Placed s) : Keeps s s := ⟨.refl s, placed, rfl⟩

/-- The second part begins where the first one left the position. -/
theorem trans (first : Keeps s s') (second : Keeps s' s'') : Keeps s s'' where
  writes := first.writes.trans second.writes
  placed := second.placed
  inputRow := second.inputRow.trans first.inputRow

/-- A writer that only draws has kept its place. -/
theorem of_draws (draws : Draws s s') (placed : Placed s) : Keeps s s' where
  writes := draws.writes
  placed := by
    obtain ⟨top, bottom, left, right⟩ := placed
    rw [← draws.row] at top bottom
    rw [← draws.column] at left right
    exact ⟨top, bottom, left, right⟩
  inputRow := draws.inputRow

/-- After drawing, the writer may move within the console. -/
theorem moveTo (draws : Draws s s') (row column : Nat) (top : consoleTop ≤ row)
    (bottom : row ≤ consoleBottom) (left : consoleLeft ≤ column) (right : column ≤ consoleRight) :
    Keeps s (s'.moveTo row column) where
  writes := draws.writes
  placed := ⟨top, bottom, left, right⟩
  inputRow := draws.inputRow

/-- A loop whose rounds keep the position in the console. -/
theorem foldl {α : Type} {round : Writer → α → Writer} (placed : Placed s) (xs : List α)
    (keeps : ∀ (x : α) (s : Writer), Placed s → Keeps s (round s x)) :
    Keeps s (xs.foldl round s) := by
  induction xs generalizing s with
  | nil => exact .refl placed
  | cons x xs ih =>
      have first := keeps x s placed
      exact first.trans (ih first.placed)

end Keeps

namespace Placed

variable {s : Writer}

/-- Writing where the cursor is. -/
theorem writeHere (placed : Placed s) (byte colorCode : UInt8) :
    Draws s (s.writeCell (s.row * vgaWidth + s.column) byte colorCode) :=
  Draws.writeCell s placed.top placed.bottom placed.left placed.right byte colorCode

/-- The cell that is put back is the one at the position. -/
theorem hideCursor_draws (placed : Placed s) : Draws s s.hideCursor := by
  unfold Writer.hideCursor
  split
  · exact .refl s
  · have written := placed.writeHere s.cursorSaved.asciiCharacter s.cursorSaved.colorCode
    exact ⟨written.writes, rfl, rfl, rfl⟩

theorem hideCursor (placed : Placed s) : Keeps s s.hideCursor :=
  .of_draws placed.hideCursor_draws placed

/-- The cursor is drawn at the position, so in the console. -/
theorem showCursor (placed : Placed s) : Keeps s s.showCursor := by
  unfold Writer.showCursor
  split
  · exact .refl placed
  · have written := placed.writeHere '_'.toUInt8 cursorColor
    exact .of_draws ⟨written.writes, rfl, rfl, rfl⟩ placed

theorem toggleCursor (placed : Placed s) : Keeps s s.toggleCursor := by
  unfold Writer.toggleCursor
  split
  · exact placed.hideCursor
  · exact placed.showCursor

/-- Scrolling writes the rows of the console and ends on the last one. -/
theorem scrollConsoleUp (placed : Placed s) : Keeps s s.scrollConsoleUp := by
  have hidden := placed.hideCursor_draws
  have moved : Draws s.hideCursor
      ((inclusive (consoleTop + 1) consoleBottom).foldl Writer.moveRowUp s.hideCursor) := by
    apply Draws.foldl
    intro row mem s' _
    obtain ⟨top, bottom⟩ := mem_inclusive.mp mem
    exact moveRowUp_draws s' top bottom
  have cleared := clearConsoleRow_draws ((inclusive (consoleTop + 1) consoleBottom).foldl
    Writer.moveRowUp s.hideCursor) (show consoleTop ≤ consoleBottom by decide) le_rfl
  exact .moveTo ((hidden.trans moved).trans cleared) _ _ (by decide) le_rfl le_rfl (by decide)

/-- The clamp of `set_cursor` has no effect on a position in the console. -/
theorem setCursor (placed : Placed s) {row column : Nat} (top : consoleTop ≤ row)
    (bottom : row ≤ consoleBottom) (left : consoleLeft ≤ column) (right : column ≤ consoleRight) :
    Keeps s (s.setCursor row column) := by
  have size := console_size
  apply Keeps.moveTo placed.hideCursor_draws
  · omega
  · omega
  · omega
  · omega

/-! ### Writing -/

/-- A new line may be started behind the last column. -/
theorem newLine (top : consoleTop ≤ s.row) (bottom : s.row ≤ consoleBottom) :
    Keeps s s.newLine := by
  have left : consoleLeft ≤ consoleRight := by decide
  have atLeft : Keeps s (s.moveTo s.row consoleLeft) :=
    .moveTo (.refl s) _ _ top bottom le_rfl left
  have next : Keeps s (s.moveTo s.row consoleLeft).nextRow := by
    unfold Writer.nextRow
    split
    · exact atLeft.trans atLeft.placed.scrollConsoleUp
    · rename_i above
      have room : s.row + 1 ≤ consoleBottom := Nat.not_le.mp above
      exact Keeps.moveTo (.refl s) (s.row + 1) consoleLeft (Nat.le_succ_of_le top) room le_rfl
        left
  unfold Writer.newLine Writer.belowTop
  rw [if_neg (Nat.not_lt.mpr next.placed.top)]
  exact next

theorem blankHere (placed : Placed s) : Keeps s s.blankHere :=
  .of_draws (placed.writeHere _ _) placed

/-- Going back stops at the first column of the first row. -/
theorem backspace (placed : Placed s) : Keeps s s.backspace := by
  obtain ⟨top, bottom, left, right⟩ := placed
  unfold Writer.backspace
  split
  · have back : Keeps s (s.moveTo s.row (s.column - 1)) :=
      .moveTo (.refl s) _ _ top bottom (by omega) (by omega)
    exact back.trans back.placed.blankHere
  split
  · have up : Keeps s (s.moveTo (s.row - 1) consoleRight) :=
      .moveTo (.refl s) _ _ (by omega) (by omega) (by decide) le_rfl
    exact up.trans up.placed.blankHere
  · exact .refl ⟨top, bottom, left, right⟩

/-- A character is written before the last column is left, so in the console. -/
theorem writeCharacter (placed : Placed s) (byte : UInt8) : Keeps s (s.writeCharacter byte) := by
  have within : s.behindMargin.wrap = s := by
    unfold Writer.behindMargin Writer.wrap
    rw [if_neg (Nat.not_lt.mpr placed.left), if_neg (Nat.not_lt.mpr placed.right)]
  have written := placed.writeHere (vgaByte byte) s.colorCode
  unfold Writer.writeCharacter
  rw [within]
  unfold Writer.wrap
  split
  · have wrapped := newLine (s := s.putByte byte) placed.top placed.bottom
    exact ⟨written.writes.trans wrapped.writes, wrapped.placed, wrapped.inputRow⟩
  · rename_i room
    exact .moveTo written _ _ placed.top placed.bottom (Nat.le_succ_of_le placed.left)
      (Nat.not_lt.mp room)

/-- Every byte keeps the position in the console, line ends and backspaces included. -/
theorem writeByte (byte : UInt8) (s : Writer) (placed : Placed s) : Keeps s (s.writeByte byte) := by
  unfold Writer.writeByte
  split
  · exact newLine placed.top placed.bottom
  split
  · exact placed.backspace
  · exact placed.writeCharacter byte

/-- Byte by byte, once the cursor is hidden. -/
theorem writeString (placed : Placed s) (text : List UInt8) : Keeps s (s.writeString text) :=
  placed.hideCursor.trans (.foldl placed.hideCursor.placed text writeByte)

theorem writeLine (placed : Placed s) (text : List UInt8) : Keeps s (s.writeLine text) := by
  have written := placed.writeString text
  exact written.trans (writeByte _ _ written.placed)

end Placed

/-! ### The input line -/

/-- The row of the input line is in the console. -/
def Prompted (s : Writer) : Prop := consoleTop ≤ s.inputRow ∧ s.inputRow ≤ consoleBottom

/-- All rows of the input line fit into the console. -/
def RoomFor (s : Writer) (rowsNeeded : Nat) : Prop :=
  consoleTop ≤ s.inputRow ∧ s.inputRow + rowsNeeded ≤ consoleBottom + 1

/-- Scrolling makes room for a line of at most eight rows. -/
theorem scrollForRows_keeps {s : Writer} (placed : Placed s) (prompted : Prompted s)
    {rowsNeeded : Nat} (positive : 0 < rowsNeeded) (few : rowsNeeded ≤ 8) :
    WritesInConsole s (s.scrollForRows rowsNeeded) ∧ Placed (s.scrollForRows rowsNeeded) ∧
      RoomFor (s.scrollForRows rowsNeeded) rowsNeeded := by
  obtain ⟨top, bottom⟩ := prompted
  unfold Writer.scrollForRows
  split
  · rename_i short
    have scrolled : Keeps s
        ((List.range (s.inputRow + rowsNeeded - 1 - consoleBottom)).foldl
          (fun self _ => self.scrollConsoleUp) s) :=
      .foldl placed _ fun _ _ placed => placed.scrollConsoleUp
    dsimp only
    rw [scrolled.inputRow]
    refine ⟨scrolled.writes, ⟨scrolled.placed.top, scrolled.placed.bottom, scrolled.placed.left,
      scrolled.placed.right⟩, ?_⟩
    constructor
    · exact Nat.le_max_right _ _
    · change max (s.inputRow - (s.inputRow + rowsNeeded - 1 - consoleBottom)) consoleTop +
        rowsNeeded ≤ consoleBottom + 1
      have size := console_size
      omega
  · rename_i room
    exact ⟨.refl s, placed, top, by omega⟩

/-- A row of the input line ends at the margin. -/
theorem renderRow_draws {s : Writer} {rowsNeeded visualRow : Nat} (room : RoomFor s rowsNeeded)
    (within : visualRow < rowsNeeded) (input : List UInt8) :
    Draws s (s.renderRow input visualRow) := by
  obtain ⟨top, bottom⟩ := room
  have rowTop : consoleTop ≤ s.inputRow + visualRow := by omega
  have rowBottom : s.inputRow + visualRow ≤ consoleBottom := by omega
  have prompted : Draws s (s.writePromptAt (s.inputRow + visualRow)) :=
    .writeRun rowTop rowBottom accentOnLight prompt s consoleLeft le_rfl (by decide)
  unfold Writer.renderRow
  dsimp only
  split
  · refine prompted.trans ?_
    rw [Nat.add_assoc]
    apply Draws.writeRun rowTop rowBottom
    · exact Nat.le_add_right _ _
    · have width : consoleLeft + prompt.length + inputColumnsPerRow = consoleRight + 1 := by
        decide
      rw [List.length_map, Lib.Slice.slice, List.length_take]
      omega
  · exact prompted

/-- The rows are cleared to the bottom before they are drawn. -/
theorem renderRows_draws {s : Writer} {rowsNeeded : Nat} (room : RoomFor s rowsNeeded)
    (input : List UInt8) : Draws s (s.renderRows input rowsNeeded) := by
  have cleared : Draws s
      ((inclusive s.inputRow consoleBottom).foldl Writer.clearConsoleRow s) := by
    apply Draws.foldl
    intro row mem s' _
    obtain ⟨from_, bottom⟩ := mem_inclusive.mp mem
    exact clearConsoleRow_draws s' (room.1.trans from_) bottom
  refine cleared.trans ?_
  apply Draws.foldl
  intro visualRow mem s' same
  refine renderRow_draws ?_ (List.mem_range.mp mem) input
  rw [RoomFor, same, cleared.inputRow]
  exact room

/-- An input of at most 512 bytes takes eight rows at most, and its cursor stays among them. -/
theorem renderInputWithCursor_keeps {s : Writer} (placed : Placed s) (prompted : Prompted s)
    {input : List UInt8} (short : input.length ≤ maxInput) (cursorIndex : Nat) :
    WritesInConsole s (s.renderInputWithCursor input cursorIndex) ∧
      Placed (s.renderInputWithCursor input cursorIndex) ∧
      Prompted (s.renderInputWithCursor input cursorIndex) := by
  have size := console_size
  have perRow : inputColumnsPerRow = 72 := rfl
  have promptLength : prompt.length = 2 := by decide
  have few : input.length / inputColumnsPerRow + 1 ≤ 8 := by
    rw [perRow]
    change input.length ≤ 512 at short
    omega
  have hidden := placed.hideCursor
  have hiddenPrompted : Prompted s.hideCursor := by
    rw [Prompted, hidden.inputRow]
    exact prompted
  have positive : 0 < input.length / inputColumnsPerRow + 1 := Nat.succ_pos _
  obtain ⟨scrolled, scrolledPlaced, room⟩ :=
    scrollForRows_keeps hidden.placed hiddenPrompted positive few
  have rendered := Keeps.of_draws (renderRows_draws room input) scrolledPlaced
  obtain ⟨roomTop, roomBottom⟩ := room
  rw [← rendered.inputRow] at roomTop roomBottom
  have earlier : min cursorIndex input.length / inputColumnsPerRow ≤
      input.length / inputColumnsPerRow :=
    Nat.div_le_div_right (Nat.min_le_right _ _)
  have column := Nat.mod_lt (min cursorIndex input.length) (show 0 < inputColumnsPerRow by decide)
  have set : Keeps _ (s.renderInputWithCursor input cursorIndex) :=
    rendered.placed.setCursor (roomTop.trans (Nat.le_add_right _ _)) (by omega) (by omega)
      (by omega)
  refine ⟨((hidden.writes.trans scrolled).trans rendered.writes).trans set.writes, set.placed, ?_⟩
  rw [Prompted, set.inputRow]
  omega

/-- A new row is begun if text stands on this one. -/
theorem freshRow_keeps {s : Writer} (placed : Placed s) : Keeps s s.freshRow := by
  unfold Writer.freshRow
  split
  · exact Placed.newLine placed.top placed.bottom
  · exact .refl placed

/-- A prompt may be drawn anywhere in the console, and leaves the writer prompted. -/
theorem startPrompt_keeps {s : Writer} (placed : Placed s) :
    WritesInConsole s s.startPrompt ∧ Placed s.startPrompt ∧ Prompted s.startPrompt := by
  have hidden := placed.hideCursor
  have fresh := hidden.trans (freshRow_keeps hidden.placed)
  obtain ⟨top, bottom, left, right⟩ := fresh.placed
  have moved : Placed (s.hideCursor.freshRow.setInputRow s.hideCursor.freshRow.row) :=
    ⟨top, bottom, left, right⟩
  have empty : ([] : List UInt8).length ≤ maxInput := by decide
  obtain ⟨writes, placed', prompted⟩ := renderInputWithCursor_keeps moved ⟨top, bottom⟩ empty 0
  exact ⟨fresh.writes.trans writes, placed', prompted⟩

/-! ### Runs -/

/-- The input line is drawn only after a prompt on the present screen, and it fits the
buffer of the shell. -/
def Op.Allowed (prompted : Bool) : Op → Prop
  | renderInputWithCursor input _ => prompted = true ∧ input.length ≤ maxInput
  | _ => True

/-- Whether there was a prompt since the screen was set up. -/
def Op.prompts (prompted : Bool) : Op → Bool
  | showSplash => false
  | startPrompt => true
  | _ => prompted

/-- Every call of the run is allowed where it is made. -/
def Legal : Bool → List Op → Prop
  | _, [] => True
  | prompted, op :: ops => op.Allowed prompted ∧ Legal (op.prompts prompted) ops

instance (prompted : Bool) : (op : Op) → Decidable (op.Allowed prompted)
  | .renderInputWithCursor input _ =>
      inferInstanceAs (Decidable (prompted = true ∧ input.length ≤ maxInput))
  | .showSplash | .writeString _ | .writeLine _ | .writeByte _ | .startPrompt | .toggleCursor =>
      inferInstanceAs (Decidable True)

instance decidableLegal : (prompted : Bool) → (ops : List Op) → Decidable (Legal prompted ops)
  | _, [] => inferInstanceAs (Decidable True)
  | prompted, op :: ops =>
      have := decidableLegal (op.prompts prompted) ops
      inferInstanceAs (Decidable (op.Allowed prompted ∧ Legal (op.prompts prompted) ops))

/-- The invariant of a run after the splash screen. -/
structure OnConsole (prompted : Bool) (s : Writer) : Prop where
  placed : Placed s
  prompted : prompted = true → Prompted s

/-- The splash screen ends at the top left of the console, without a prompt. -/
theorem showSplash_onConsole (s : Writer) : OnConsole false s.showSplash where
  placed := by
    have row : s.showSplash.row = consoleTop := rfl
    have column : s.showSplash.column = consoleLeft := rfl
    have size := console_size
    constructor
    all_goals omega
  prompted := nofun

/-- What keeps the input line keeps the prompt as well. -/
theorem Keeps.onConsole {prompted : Bool} {s s' : Writer} (keeps : Keeps s s')
    (onConsole : OnConsole prompted s) : OnConsole prompted s' := by
  refine ⟨keeps.placed, fun started => ?_⟩
  rw [Prompted, keeps.inputRow]
  exact onConsole.prompted started

/-- What one call preserves; only the splash screen is drawn around the console. -/
theorem step_onConsole {prompted : Bool} {s : Writer} (onConsole : OnConsole prompted s) {op : Op}
    (allowed : op.Allowed prompted) : OnConsole (op.prompts prompted) (step s op) ∧
      (op ≠ .showSplash → WritesInConsole s (step s op)) := by
  have placed := onConsole.placed
  cases op with
  | showSplash => exact ⟨showSplash_onConsole s, fun other => absurd rfl other⟩
  | writeString text =>
      have keeps := placed.writeString text
      exact ⟨keeps.onConsole onConsole, fun _ => keeps.writes⟩
  | writeLine text =>
      have keeps := placed.writeLine text
      exact ⟨keeps.onConsole onConsole, fun _ => keeps.writes⟩
  | writeByte byte =>
      have keeps := placed.hideCursor.trans (placed.hideCursor.placed.writeByte byte _)
      exact ⟨keeps.onConsole onConsole, fun _ => keeps.writes⟩
  | startPrompt =>
      obtain ⟨writes, placed', started⟩ := startPrompt_keeps placed
      exact ⟨⟨placed', fun _ => started⟩, fun _ => writes⟩
  | renderInputWithCursor input cursorIndex =>
      obtain ⟨started, short⟩ := allowed
      obtain ⟨writes, placed', started'⟩ :=
        renderInputWithCursor_keeps placed (onConsole.prompted started) short cursorIndex
      exact ⟨⟨placed', fun _ => started'⟩, fun _ => writes⟩
  | toggleCursor =>
      have keeps := placed.toggleCursor
      exact ⟨keeps.onConsole onConsole, fun _ => keeps.writes⟩

/-- From the splash screen on, no call writes outside the console, unless it is the splash
screen again. -/
theorem run_writesInConsole {prompted : Bool} {s : Writer} (onConsole : OnConsole prompted s)
    {before after : List Op} {op : Op} (legal : Legal prompted (before ++ op :: after))
    (other : op ≠ .showSplash) :
    WritesInConsole (run s before) (step (run s before) op) := by
  induction before generalizing prompted s with
  | nil => exact (step_onConsole onConsole legal.1).2 other
  | cons first before ih => exact ih (step_onConsole onConsole legal.1).1 legal.2

/-- After the splash screen, every cell that a call writes is in the console, also when
the cursor blinks; and the run without the calls of the timer ends in the same place,
with the same cells once the cursor is hidden. -/
theorem blinking_harmless (s : Writer) (ops : List Op) (legal : Legal false ops) :
    (∀ before op after, ops = before ++ op :: after → op ≠ .showSplash →
      WritesInConsole (run s.showSplash before) (step (run s.showSplash before) op)) ∧
    let blinking := run s.showSplash ops
    let steady := run s.showSplash (ops.filter (· ≠ .toggleCursor))
    blinking.row = steady.row ∧ blinking.column = steady.column ∧
      blinking.inputRow = steady.inputRow ∧
      blinking.hideCursor.buffer.cells = steady.hideCursor.buffer.cells := by
  constructor
  · rintro before op after rfl other
    exact run_writesInConsole (showSplash_onConsole s) legal other
  · intro blinking steady
    have kept : Lib.Stutter.kept Op.blinks ops = ops.filter (· ≠ .toggleCursor) := by
      apply List.filter_congr
      intro op _
      simp only [Op.blinks, ne_eq, decide_not]
      rfl
    have shadows : Shadows steady blinking := by
      have shadows := blinking_invisible.run ops s.shadows_showSplash
      rw [kept] at shadows
      exact shadows
    rw [Writer.hideCursor_of_hidden shadows.hiddenLeft]
    obtain ⟨row, column, inputRow⟩ := blinking.hideCursor_place
    refine ⟨?_, ?_, ?_, shadows.cells⟩
    · exact row.symm.trans shadows.row
    · exact column.symm.trans shadows.column
    · exact inputRow.symm.trans shadows.inputRow

/-- Text, a prompt and a long input, with a cursor that blinks in between. -/
def typedOps : List Op :=
  [.writeString (asBytes "ok"), .toggleCursor, .startPrompt, .toggleCursor,
    .renderInputWithCursor (List.replicate 80 0x61) 91, .toggleCursor, .writeByte 8,
    .toggleCursor]

theorem blinking_harmless_typedOps :
    WritesInConsole (run (Writer.new fun _ => ⟨0, 0⟩).showSplash [.writeString (asBytes "ok")])
        (step (run (Writer.new fun _ => ⟨0, 0⟩).showSplash [.writeString (asBytes "ok")])
          .toggleCursor) ∧
      (run (Writer.new fun _ => ⟨0, 0⟩).showSplash typedOps).column =
        (run (Writer.new fun _ => ⟨0, 0⟩).showSplash
          (typedOps.filter (· ≠ .toggleCursor))).column := by
  obtain ⟨writes, -, column, -⟩ := blinking_harmless (Writer.new fun _ => ⟨0, 0⟩) typedOps
    (by decide)
  exact ⟨writes [.writeString (asBytes "ok")] .toggleCursor _ rfl (by decide), column⟩

end CloudOS.Vga
