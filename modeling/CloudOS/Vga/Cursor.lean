import CloudOS.Lib.Stutter
import CloudOS.Vga.Writer

/-!
The blinking cursor leaves no trace.

While it is hidden, what the writer does depends on nothing that blinking changes: on
the position and the cells, not on the cell saved last. Every call hides the cursor
before it moves or draws, so it finds the same screen with and without blinking.
-/

namespace CloudOS.Vga

open Lib.Word (asBytes)

/-- Two writers without a visible cursor that agree in all but the cell saved last. -/
structure Alike (s t : Writer) : Prop where
  row : t.row = s.row
  column : t.column = s.column
  inputRow : t.inputRow = s.inputRow
  colorCode : t.colorCode = s.colorCode
  cells : t.buffer.cells = s.buffer.cells
  hiddenLeft : s.cursorVisible = false
  hiddenRight : t.cursorVisible = false

namespace Writer

variable {s t : Writer}

/-- A hidden cursor is left alone. -/
theorem hideCursor_of_hidden (hidden : s.cursorVisible = false) : s.hideCursor = s := by
  simp [hideCursor, hidden]

/-- After `hide_cursor` there is no cursor on the screen. -/
theorem cursorVisible_hideCursor (s : Writer) : s.hideCursor.cursorVisible = false := by
  unfold hideCursor
  split
  · simp_all
  · rfl

theorem cursorVisible_setCursor (s : Writer) (row column : Nat) :
    (s.setCursor row column).cursorVisible = false :=
  s.cursorVisible_hideCursor

/-- Hiding the cursor does not move it. -/
theorem hideCursor_place (s : Writer) : s.hideCursor.row = s.row ∧
    s.hideCursor.column = s.column ∧ s.hideCursor.inputRow = s.inputRow := by
  unfold hideCursor
  split
  · exact ⟨rfl, rfl, rfl⟩
  · exact ⟨rfl, rfl, rfl⟩

/-- Showing the cursor does not move it. -/
theorem showCursor_place (s : Writer) : s.showCursor.row = s.row ∧
    s.showCursor.column = s.column ∧ s.showCursor.inputRow = s.inputRow := by
  unfold showCursor
  split
  · exact ⟨rfl, rfl, rfl⟩
  · exact ⟨rfl, rfl, rfl⟩

@[simp] theorem hideCursor_hideCursor (s : Writer) : s.hideCursor.hideCursor = s.hideCursor :=
  hideCursor_of_hidden s.cursorVisible_hideCursor

end Writer

namespace Alike

variable {s t : Writer}

/-- A writer with a hidden cursor is like itself. -/
theorem refl (hidden : s.cursorVisible = false) : Alike s s :=
  ⟨rfl, rfl, rfl, rfl, rfl, hidden, hidden⟩

/-- A loop whose rounds keep writers alike. -/
theorem foldl {α : Type} {s t : Writer} (alike : Alike s t) (xs : List α)
    {round : Writer → α → Writer}
    (keeps : ∀ {s t : Writer} (x : α), Alike s t → Alike (round s x) (round t x)) :
    Alike (xs.foldl round s) (xs.foldl round t) := by
  induction xs generalizing s t with
  | nil => exact alike
  | cons x xs ih => exact ih (keeps x alike)

/-! ### Cells -/

/-- Writers that are alike read the same cells. -/
theorem readCell (alike : Alike s t) (offset : Nat) : t.readCell offset = s.readCell offset :=
  congrFun alike.cells offset

/-- A cell written by both is the same in both. -/
theorem writeCell (alike : Alike s t) (offset : Nat) (byte colorCode : UInt8) :
    Alike (s.writeCell offset byte colorCode) (t.writeCell offset byte colorCode) :=
  { alike with cells := congrArg (Function.update · offset _) alike.cells }

/-- The induction is on the run, cell by cell. -/
theorem writeRun (colorCode : UInt8) (run : List UInt8) : ∀ {s t : Writer} (offset : Nat),
    Alike s t → Alike (s.writeRun offset colorCode run) (t.writeRun offset colorCode run) := by
  induction run with
  | nil =>
      intro s t offset alike
      exact alike
  | cons byte rest ih =>
      intro s t offset alike
      exact ih (offset + 1) (alike.writeCell offset byte colorCode)

/-! ### Moving -/

theorem moveTo (alike : Alike s t) (row column : Nat) :
    Alike (s.moveTo row column) (t.moveTo row column) :=
  { alike with row := rfl, column := rfl }

theorem setInputRow (alike : Alike s t) (inputRow : Nat) :
    Alike (s.setInputRow inputRow) (t.setInputRow inputRow) :=
  { alike with inputRow := rfl }

/-- Neither cursor is shown, so there is nothing to put back. -/
theorem hideCursor (alike : Alike s t) : Alike s.hideCursor t.hideCursor := by
  rw [Writer.hideCursor_of_hidden alike.hiddenLeft, Writer.hideCursor_of_hidden alike.hiddenRight]
  exact alike

theorem setCursor (alike : Alike s t) (row column : Nat) :
    Alike (s.setCursor row column) (t.setCursor row column) :=
  alike.hideCursor.moveTo _ _

/-! ### Rows -/

theorem clearCell (row column : Nat) (alike : Alike s t) :
    Alike (s.clearCell row column) (t.clearCell row column) := by
  unfold Writer.clearCell
  rw [alike.colorCode]
  exact alike.writeCell _ _ _

theorem clearConsoleRow (row : Nat) (alike : Alike s t) :
    Alike (s.clearConsoleRow row) (t.clearConsoleRow row) :=
  alike.foldl _ (clearCell row)

theorem moveCellUp (row column : Nat) (alike : Alike s t) :
    Alike (s.moveCellUp row column) (t.moveCellUp row column) := by
  unfold Writer.moveCellUp
  rw [alike.readCell]
  exact alike.writeCell _ _ _

theorem moveRowUp (row : Nat) (alike : Alike s t) : Alike (s.moveRowUp row) (t.moveRowUp row) :=
  alike.foldl _ (moveCellUp row)

/-- Each row is copied from the one below it, in both. -/
theorem scrollConsoleUp (alike : Alike s t) : Alike s.scrollConsoleUp t.scrollConsoleUp := by
  have moved := alike.hideCursor.foldl (inclusive (consoleTop + 1) consoleBottom) moveRowUp
  exact (moved.clearConsoleRow consoleBottom).moveTo _ _

/-! ### Writing -/

theorem nextRow (alike : Alike s t) : Alike s.nextRow t.nextRow := by
  unfold Writer.nextRow
  rw [alike.row, alike.column]
  split
  · exact alike.scrollConsoleUp
  · exact alike.moveTo _ _

theorem belowTop (alike : Alike s t) : Alike s.belowTop t.belowTop := by
  unfold Writer.belowTop
  rw [alike.row, alike.column]
  split
  · exact alike.moveTo _ _
  · exact alike

/-- Whether a new line scrolls depends on the position alone. -/
theorem newLine (alike : Alike s t) : Alike s.newLine t.newLine := by
  unfold Writer.newLine
  rw [alike.row]
  exact (alike.moveTo _ _).nextRow.belowTop

theorem blankHere (alike : Alike s t) : Alike s.blankHere t.blankHere := by
  unfold Writer.blankHere
  rw [alike.row, alike.column, alike.colorCode]
  exact alike.writeCell _ _ _

/-- The cell that `backspace` blanks is the same in both. -/
theorem backspace (alike : Alike s t) : Alike s.backspace t.backspace := by
  unfold Writer.backspace
  rw [alike.row, alike.column]
  split
  · exact (alike.moveTo _ _).blankHere
  split
  · exact (alike.moveTo _ _).blankHere
  · exact alike

theorem behindMargin (alike : Alike s t) : Alike s.behindMargin t.behindMargin := by
  unfold Writer.behindMargin
  rw [alike.row, alike.column]
  split
  · exact alike.moveTo _ _
  · exact alike

/-- Both writers run out of the row together. -/
theorem wrap (alike : Alike s t) : Alike s.wrap t.wrap := by
  unfold Writer.wrap
  rw [alike.column]
  split
  · exact alike.newLine
  · exact alike

theorem putByte (byte : UInt8) (alike : Alike s t) : Alike (s.putByte byte) (t.putByte byte) := by
  unfold Writer.putByte
  rw [alike.row, alike.column, alike.colorCode]
  exact (alike.writeCell _ _ _).moveTo _ _

/-- A character goes to the same cell and moves both positions alike. -/
theorem writeCharacter (byte : UInt8) (alike : Alike s t) :
    Alike (s.writeCharacter byte) (t.writeCharacter byte) :=
  (alike.behindMargin.wrap.putByte byte).wrap

/-- Which arm handles a byte depends on the byte alone. -/
theorem writeByte (byte : UInt8) (alike : Alike s t) :
    Alike (s.writeByte byte) (t.writeByte byte) := by
  unfold Writer.writeByte
  split
  · exact alike.newLine
  split
  · exact alike.backspace
  · exact alike.writeCharacter byte

theorem writeString (alike : Alike s t) (text : List UInt8) :
    Alike (s.writeString text) (t.writeString text) :=
  alike.hideCursor.foldl text writeByte

theorem writeLine (alike : Alike s t) (text : List UInt8) :
    Alike (s.writeLine text) (t.writeLine text) :=
  (alike.writeString text).writeByte _

/-! ### The input line -/

/-- What a row of the input line shows depends on the input and on `input_row`. -/
theorem renderRow (input : List UInt8) (visualRow : Nat) (alike : Alike s t) :
    Alike (s.renderRow input visualRow) (t.renderRow input visualRow) := by
  have prompted := alike.writeRun accentOnLight prompt
    ((s.inputRow + visualRow) * vgaWidth + consoleLeft)
  unfold Writer.renderRow Writer.writePromptAt
  rw [alike.inputRow]
  dsimp only
  split
  · rw [prompted.colorCode]
    exact prompted.writeRun _ _ _
  · exact prompted

theorem renderRows (alike : Alike s t) (input : List UInt8) (rowsNeeded : Nat) :
    Alike (s.renderRows input rowsNeeded) (t.renderRows input rowsNeeded) := by
  unfold Writer.renderRows
  rw [alike.inputRow]
  exact (alike.foldl _ clearConsoleRow).foldl _ (renderRow input)

/-- Both scroll the same number of times. -/
theorem scrollForRows (alike : Alike s t) (rowsNeeded : Nat) :
    Alike (s.scrollForRows rowsNeeded) (t.scrollForRows rowsNeeded) := by
  unfold Writer.scrollForRows
  rw [alike.inputRow]
  split
  · have scrolled : Alike
        ((List.range (s.inputRow + rowsNeeded - 1 - consoleBottom)).foldl
          (fun self _ => self.scrollConsoleUp) s)
        ((List.range (s.inputRow + rowsNeeded - 1 - consoleBottom)).foldl
          (fun self _ => self.scrollConsoleUp) t) :=
      alike.foldl _ fun _ alike => alike.scrollConsoleUp
    dsimp only
    rw [scrolled.inputRow]
    exact scrolled.setInputRow _
  · exact alike

/-- Drawing the input line, which ends with the cursor hidden in both. -/
theorem renderInputWithCursor (alike : Alike s t) (input : List UInt8) (cursorIndex : Nat) :
    Alike (s.renderInputWithCursor input cursorIndex)
      (t.renderInputWithCursor input cursorIndex) := by
  have rendered := (alike.hideCursor.scrollForRows
    (input.length / inputColumnsPerRow + 1)).renderRows input
      (input.length / inputColumnsPerRow + 1)
  unfold Writer.renderInputWithCursor
  dsimp only
  rw [rendered.inputRow]
  exact rendered.setCursor _ _

theorem freshRow (alike : Alike s t) : Alike s.freshRow t.freshRow := by
  unfold Writer.freshRow
  rw [alike.column]
  split
  · exact alike.newLine
  · exact alike

/-- A new prompt begins on the same row. -/
theorem startPrompt (alike : Alike s t) : Alike s.startPrompt t.startPrompt := by
  have fresh := alike.hideCursor.freshRow
  unfold Writer.startPrompt Writer.renderInput
  dsimp only
  rw [fresh.row]
  exact (fresh.setInputRow _).renderInputWithCursor [] _

/-! ### The splash screen -/

theorem clearOffset (offset : Nat) (alike : Alike s t) :
    Alike (s.clearOffset offset) (t.clearOffset offset) := by
  unfold Writer.clearOffset
  rw [alike.colorCode]
  exact alike.writeCell _ _ _

/-- A cleared screen is the same one whatever stood there. -/
theorem clearScreen (alike : Alike s t) : Alike s.clearScreen t.clearScreen :=
  ((alike.hideCursor.foldl _ clearOffset).moveTo 0 0).setInputRow 0

/-- A string that begins outside the screen is dropped by both. -/
theorem writeStringAtColor (alike : Alike s t) (row column : Nat) (text : List UInt8)
    (colorCode : UInt8) : Alike (s.writeStringAtColor row column text colorCode)
      (t.writeStringAtColor row column text colorCode) := by
  unfold Writer.writeStringAtColor
  split
  · exact alike
  · exact alike.writeRun colorCode _ _

theorem writeCenteredColor (alike : Alike s t) (row : Nat) (text : List UInt8)
    (colorCode : UInt8) : Alike (s.writeCenteredColor row text colorCode)
      (t.writeCenteredColor row text colorCode) :=
  alike.writeStringAtColor _ _ _ _

theorem drawStatusBar (alike : Alike s t) : Alike s.drawStatusBar t.drawStatusBar := by
  have cleared : Alike (s.clearRowWithColor 0 barColor) (t.clearRowWithColor 0 barColor) :=
    alike.foldl _ fun _ alike => alike.writeCell _ _ _
  exact ((cleared.writeStringAtColor _ _ _ _).writeCenteredColor _ _ _).writeStringAtColor _ _ _ _

theorem drawPanel (alike : Alike s t) : Alike s.drawPanel t.drawPanel := by
  have edges : Alike ((inclusive panelLeft panelRight).foldl Writer.drawEdges s)
      ((inclusive panelLeft panelRight).foldl Writer.drawEdges t) :=
    alike.foldl _ fun _ alike => (alike.writeCell _ _ _).writeCell _ _ _
  have corners := (((edges.writeCell (7 * vgaWidth + panelLeft) '+'.toUInt8 mutedOnLight).writeCell
    (7 * vgaWidth + panelRight) '+'.toUInt8 mutedOnLight).writeCell
    (24 * vgaWidth + panelLeft) '+'.toUInt8 mutedOnLight).writeCell
    (24 * vgaWidth + panelRight) '+'.toUInt8 mutedOnLight
  exact corners.foldl _ fun row alike =>
    ((alike.writeCell _ _ _).writeCell _ _ _).clearConsoleRow row

/-- The splash screen, drawn over writers that are alike. -/
theorem showSplash (alike : Alike s t) : Alike s.showSplash t.showSplash := by
  have titles := ((alike.clearScreen.drawStatusBar.writeCenteredColor 2 (asBytes "Tobacco")
    accentOnLight).writeCenteredColor 3 (asBytes "Kernel v0.0.5 - Booted")
    textOnLight).writeCenteredColor 5
    (asBytes "Type help for commands  |  Up/Down history  |  Esc clears input") mutedOnLight
  exact titles.drawPanel.setCursor _ _

/-- Being alike is transitive: the cell saved last is the only thing left open. -/
theorem trans {u : Writer} (first : Alike s t) (second : Alike t u) : Alike s u where
  row := second.row.trans first.row
  column := second.column.trans first.column
  inputRow := second.inputRow.trans first.inputRow
  colorCode := second.colorCode.trans first.colorCode
  cells := second.cells.trans first.cells
  hiddenLeft := first.hiddenLeft
  hiddenRight := second.hiddenRight

/-- Every call but the one of the timer keeps writers alike. -/
theorem step {op : Op} (steady : op ≠ .toggleCursor) (alike : Alike s t) :
    Alike (step s op) (step t op) := by
  cases op with
  | showSplash => exact alike.showSplash
  | writeString text => exact alike.writeString text
  | writeLine text => exact alike.writeLine text
  | writeByte byte => exact alike.hideCursor.writeByte byte
  | startPrompt => exact alike.startPrompt
  | renderInputWithCursor input cursorIndex =>
      exact alike.renderInputWithCursor input cursorIndex
  | toggleCursor => exact absurd rfl steady

end Alike

/-! ### Blinking -/

/-- Hiding the cursor puts back what was there before it was shown. -/
theorem Writer.hideCursor_showCursor {s : Writer} (hidden : s.cursorVisible = false) :
    Alike s s.showCursor.hideCursor := by
  have back : s.showCursor.hideCursor.buffer.cells = s.buffer.cells := by
    simp [showCursor, hideCursor, hidden, writeCell, readCell]
  have color : s.showCursor.hideCursor.colorCode = s.colorCode := by
    simp [showCursor, hideCursor, hidden, writeCell]
  obtain ⟨row, column, inputRow⟩ := s.showCursor.hideCursor_place
  obtain ⟨row', column', inputRow'⟩ := s.showCursor_place
  constructor
  · exact row.trans row'
  · exact column.trans column'
  · exact inputRow.trans inputRow'
  · exact color
  · exact back
  · exact hidden
  · exact s.showCursor.cursorVisible_hideCursor

/-- Every other call begins by hiding the cursor. -/
theorem step_hideCursor {op : Op} (steady : op ≠ .toggleCursor) (s : Writer) :
    step s.hideCursor op = step s op := by
  cases op with
  | toggleCursor => exact absurd rfl steady
  | showSplash => simp only [step, Writer.showSplash, Writer.clearScreen, Writer.hideCursor_hideCursor]
  | writeString text => simp only [step, Writer.writeString, Writer.hideCursor_hideCursor]
  | writeLine text =>
      simp only [step, Writer.writeLine, Writer.writeString, Writer.hideCursor_hideCursor]
  | writeByte byte => simp only [step, Writer.hideCursor_hideCursor]
  | startPrompt => simp only [step, Writer.startPrompt, Writer.hideCursor_hideCursor]
  | renderInputWithCursor input cursorIndex =>
      simp only [step, Writer.renderInputWithCursor, Writer.hideCursor_hideCursor]

/-- The second writer is the first one, with a cursor that may be shown. -/
def Shadows (s t : Writer) : Prop := Alike s t.hideCursor

/-- The splash screen ends with a hidden cursor. -/
theorem Writer.shadows_showSplash (s : Writer) : Shadows s.showSplash s.showSplash := by
  have hidden : s.showSplash.cursorVisible = false := by
    unfold Writer.showSplash
    exact Writer.cursorVisible_setCursor _ _ _
  unfold Shadows
  rw [Writer.hideCursor_of_hidden hidden]
  exact .refl hidden

/-- Blinking changes what is on the screen, but not what is under the cursor. -/
theorem toggleCursor_shadows {s t : Writer} (shadows : Shadows s t) :
    Shadows s t.toggleCursor := by
  unfold Writer.toggleCursor
  split
  · unfold Shadows
    rw [Writer.hideCursor_hideCursor]
    exact shadows
  · rename_i hidden
    rw [Bool.not_eq_true] at hidden
    unfold Shadows at shadows
    rw [Writer.hideCursor_of_hidden hidden] at shadows
    exact shadows.trans (Writer.hideCursor_showCursor hidden)

/-- A call finds the cursor hidden in the end, so the two writers stay a writer and its shadow.
-/
theorem step_shadows {op : Op} (steady : op ≠ .toggleCursor) {s t : Writer}
    (shadows : Shadows s t) : Shadows (step s op) (step t op) := by
  have stepped := shadows.step steady
  rw [step_hideCursor steady] at stepped
  unfold Shadows
  rw [Writer.hideCursor_of_hidden stepped.hiddenRight]
  exact stepped

/-- Whether the timer makes the call. -/
def Op.blinks (op : Op) : Bool := op == .toggleCursor

/-- Blinking is a stutter: alone it changes nothing, and every other call keeps pace. -/
theorem blinking_invisible : Lib.Stutter.Invisible step Op.blinks Shadows where
  alone := by
    intro s t op blinks shadows
    rw [beq_iff_eq.mp blinks]
    exact toggleCursor_shadows shadows
  together := by
    intro s t op steady shadows
    exact step_shadows (by simpa [Op.blinks] using steady) shadows

end CloudOS.Vga
