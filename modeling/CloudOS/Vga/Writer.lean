import CloudOS.Lib.Slice
import CloudOS.Lib.Word

/-!
The text screen of `src/vga.rs`.

The writer keeps a position and draws into the text buffer of the display. The buffer
is a function from offsets to cells, together with the offsets that were written to,
the latest first. A string is the list of its bytes. Counters of the statistics are
left out: nothing here reads them.
-/

namespace CloudOS.Vga

open Lib.Word (asBytes)

abbrev textOnLight : UInt8 := 0x70
abbrev mutedOnLight : UInt8 := 0x78
abbrev accentOnLight : UInt8 := 0x71
abbrev barColor : UInt8 := 0x17
abbrev cursorColor : UInt8 := 0x07
abbrev vgaWidth : Nat := 80
abbrev vgaHeight : Nat := 25
abbrev consoleTop : Nat := 8
abbrev consoleBottom : Nat := 23
abbrev panelLeft : Nat := 1
abbrev panelRight : Nat := 78
abbrev consoleLeft : Nat := 3
abbrev consoleRight : Nat := 76
abbrev consoleWidth : Nat := consoleRight - consoleLeft + 1
abbrev inputColumnsPerRow : Nat := consoleWidth - 2

abbrev prompt : List UInt8 := asBytes "> "

/-- `first..=last` -/
def inclusive (first last : Nat) : List Nat := List.range' first (last + 1 - first)

/-- What is shown for a byte: itself if it can be printed or moves the position, else `?`. -/
def vgaByte (byte : UInt8) : UInt8 :=
  if 0x20 ≤ byte && byte ≤ 0x7e then byte
  else if byte == '\n'.toUInt8 then byte
  else if byte == 8 then byte
  else '?'.toUInt8

/-- A cell of the text buffer. -/
structure ScreenChar where
  asciiCharacter : UInt8
  colorCode : UInt8
deriving DecidableEq, Repr

/-- The text buffer, with the offsets that were written to. -/
structure Screen where
  cells : Nat → ScreenChar
  written : List Nat

/-- The writer of the screen, with the cell that the cursor covers. -/
structure Writer where
  row : Nat
  column : Nat
  inputRow : Nat
  colorCode : UInt8
  cursorVisible : Bool
  cursorSaved : ScreenChar
  buffer : Screen

namespace Writer

/-- `new`, with what the display shows at first. -/
def new (cells : Nat → ScreenChar) : Writer where
  row := 0
  column := 0
  inputRow := 0
  colorCode := textOnLight
  cursorVisible := false
  cursorSaved := ⟨' '.toUInt8, textOnLight⟩
  buffer := ⟨cells, []⟩

/-! ### Cells -/

def readCell (self : Writer) (offset : Nat) : ScreenChar := self.buffer.cells offset

def writeCell (self : Writer) (offset : Nat) (byte colorCode : UInt8) : Writer :=
  { self with buffer := {
      cells := Function.update self.buffer.cells offset ⟨byte, colorCode⟩
      written := offset :: self.buffer.written } }

/-- A loop that writes one byte after the other, at the offset and behind it. -/
def writeRun (self : Writer) (offset : Nat) (colorCode : UInt8) : List UInt8 → Writer
  | [] => self
  | byte :: rest => (self.writeCell offset byte colorCode).writeRun (offset + 1) colorCode rest

def moveTo (self : Writer) (row column : Nat) : Writer := { self with row, column }

def setInputRow (self : Writer) (inputRow : Nat) : Writer := { self with inputRow }

/-! ### The cursor -/

/-- The cell under the cursor is saved before the cursor is drawn over it. -/
def showCursor (self : Writer) : Writer :=
  if self.cursorVisible then self
  else
    let offset := self.row * vgaWidth + self.column
    let self := { self with cursorSaved := self.readCell offset }
    let self := self.writeCell offset '_'.toUInt8 cursorColor
    { self with cursorVisible := true }

/-- The saved cell is put back. -/
def hideCursor (self : Writer) : Writer :=
  if !self.cursorVisible then self
  else
    let offset := self.row * vgaWidth + self.column
    let self := self.writeCell offset self.cursorSaved.asciiCharacter self.cursorSaved.colorCode
    { self with cursorVisible := false }

def toggleCursor (self : Writer) : Writer :=
  if self.cursorVisible then self.hideCursor else self.showCursor

def setCursor (self : Writer) (row column : Nat) : Writer :=
  self.hideCursor.moveTo (min row (vgaHeight - 1)) (min column (vgaWidth - 1))

/-! ### Rows -/

/-- One round of the loop of `clear_row_with_color`. -/
def clearCellWithColor (row : Nat) (colorCode : UInt8) (self : Writer) (column : Nat) : Writer :=
  self.writeCell (row * vgaWidth + column) ' '.toUInt8 colorCode

def clearRowWithColor (self : Writer) (row : Nat) (colorCode : UInt8) : Writer :=
  (List.range vgaWidth).foldl (clearCellWithColor row colorCode) self

/-- One round of the loop of `clear_console_row`. -/
def clearCell (row : Nat) (self : Writer) (column : Nat) : Writer :=
  self.writeCell (row * vgaWidth + column) ' '.toUInt8 self.colorCode

def clearConsoleRow (self : Writer) (row : Nat) : Writer :=
  (inclusive consoleLeft consoleRight).foldl (clearCell row) self

/-- One round of the inner loop of `scroll_console_up`. -/
def moveCellUp (row : Nat) (self : Writer) (column : Nat) : Writer :=
  let character := self.readCell (row * vgaWidth + column)
  self.writeCell ((row - 1) * vgaWidth + column) character.asciiCharacter character.colorCode

/-- One round of the outer loop of `scroll_console_up`. -/
def moveRowUp (self : Writer) (row : Nat) : Writer :=
  (inclusive consoleLeft consoleRight).foldl (moveCellUp row) self

/-- Only the rows of the console move; the frame around it stays. -/
def scrollConsoleUp (self : Writer) : Writer :=
  let self := self.hideCursor
  let self := (inclusive (consoleTop + 1) consoleBottom).foldl moveRowUp self
  let self := self.clearConsoleRow consoleBottom
  self.moveTo consoleBottom consoleLeft

/-! ### Writing -/

/-- Below the last row of the console is a new last row. -/
def nextRow (self : Writer) : Writer :=
  if self.row ≥ consoleBottom then self.scrollConsoleUp
  else self.moveTo (self.row + 1) self.column

/-- The first row of the console at least. -/
def belowTop (self : Writer) : Writer :=
  if self.row < consoleTop then self.moveTo consoleTop self.column else self

def newLine (self : Writer) : Writer := (self.moveTo self.row consoleLeft).nextRow.belowTop

/-- The space that `backspace` leaves behind. -/
def blankHere (self : Writer) : Writer :=
  self.writeCell (self.row * vgaWidth + self.column) ' '.toUInt8 self.colorCode

def backspace (self : Writer) : Writer :=
  if self.column > consoleLeft then (self.moveTo self.row (self.column - 1)).blankHere
  else if self.row > consoleTop then (self.moveTo (self.row - 1) consoleRight).blankHere
  else self

/-- The first column of the console at least. -/
def behindMargin (self : Writer) : Writer :=
  if self.column < consoleLeft then self.moveTo self.row consoleLeft else self

/-- Behind the last column of the console is the next row. -/
def wrap (self : Writer) : Writer := if self.column > consoleRight then self.newLine else self

def putByte (self : Writer) (byte : UInt8) : Writer :=
  (self.writeCell (self.row * vgaWidth + self.column) (vgaByte byte) self.colorCode).moveTo
    self.row (self.column + 1)

/-- The last arm of `write_byte`. -/
def writeCharacter (self : Writer) (byte : UInt8) : Writer :=
  (self.behindMargin.wrap.putByte byte).wrap

def writeByte (self : Writer) (byte : UInt8) : Writer :=
  if byte == '\n'.toUInt8 then self.newLine
  else if byte == 8 then self.backspace
  else self.writeCharacter byte

def writeString (self : Writer) (text : List UInt8) : Writer :=
  text.foldl writeByte self.hideCursor

def writeLine (self : Writer) (text : List UInt8) : Writer :=
  (self.writeString text).writeByte '\n'.toUInt8

/-! ### The input line -/

def writePromptAt (self : Writer) (row : Nat) : Writer :=
  self.writeRun (row * vgaWidth + consoleLeft) accentOnLight prompt

/-- One round of the loop over the rows of the input. -/
def renderRow (input : List UInt8) (self : Writer) (visualRow : Nat) : Writer :=
  let row := self.inputRow + visualRow
  let start := visualRow * inputColumnsPerRow
  let stop := min (start + inputColumnsPerRow) input.length
  let self := self.writePromptAt row
  if start < input.length then
    self.writeRun (row * vgaWidth + consoleLeft + prompt.length) self.colorCode
      ((Lib.Slice.slice input start stop).map vgaByte)
  else self

/-- The rows of the input, below rows that were cleared. -/
def renderRows (self : Writer) (input : List UInt8) (rowsNeeded : Nat) : Writer :=
  let self := (inclusive self.inputRow consoleBottom).foldl clearConsoleRow self
  (List.range rowsNeeded).foldl (renderRow input) self

/-- The part of `render_input_with_cursor` that makes room for the rows. -/
def scrollForRows (self : Writer) (rowsNeeded : Nat) : Writer :=
  if self.inputRow + rowsNeeded - 1 > consoleBottom then
    let scrollCount := self.inputRow + rowsNeeded - 1 - consoleBottom
    let self := (List.range scrollCount).foldl (fun self _ => self.scrollConsoleUp) self
    self.setInputRow (max (self.inputRow - scrollCount) consoleTop)
  else self

/-- The whole input line is drawn anew, on as many rows as it takes. -/
def renderInputWithCursor (self : Writer) (input : List UInt8) (cursorIndex : Nat) : Writer :=
  let rowsNeeded := input.length / inputColumnsPerRow + 1
  let self := (self.hideCursor.scrollForRows rowsNeeded).renderRows input rowsNeeded
  let cursorIndex := min cursorIndex input.length
  let cursorRow := self.inputRow + cursorIndex / inputColumnsPerRow
  let cursorColumn := consoleLeft + prompt.length + cursorIndex % inputColumnsPerRow
  self.setCursor cursorRow cursorColumn

def renderInput (self : Writer) (input : List UInt8) : Writer :=
  self.renderInputWithCursor input input.length

/-- The beginning of a row. -/
def freshRow (self : Writer) : Writer := if self.column ≠ consoleLeft then self.newLine else self

def startPrompt (self : Writer) : Writer :=
  let self := self.hideCursor.freshRow
  (self.setInputRow self.row).renderInput []

/-! ### The splash screen -/

/-- One round of the loop of `clear_screen`. -/
def clearOffset (self : Writer) (offset : Nat) : Writer :=
  self.writeCell offset ' '.toUInt8 self.colorCode

def clearScreen (self : Writer) : Writer :=
  let self := self.hideCursor
  let self := (List.range (vgaWidth * vgaHeight)).foldl clearOffset self
  (self.moveTo 0 0).setInputRow 0

def writeStringAtColor (self : Writer) (row column : Nat) (text : List UInt8)
    (colorCode : UInt8) : Writer :=
  if row ≥ vgaHeight ∨ column ≥ vgaWidth then self
  else
    self.writeRun (row * vgaWidth + column) colorCode
      ((text.take (vgaWidth - column)).map vgaByte)

def writeCenteredColor (self : Writer) (row : Nat) (text : List UInt8) (colorCode : UInt8) :
    Writer :=
  let width := min text.length vgaWidth
  self.writeStringAtColor row ((vgaWidth - width) / 2) text colorCode

def drawStatusBar (self : Writer) : Writer :=
  let self := self.clearRowWithColor 0 barColor
  let self := self.writeStringAtColor 0 2 (asBytes "Tobacco Terminal") barColor
  let self := self.writeCenteredColor 0 (asBytes "Phase 1 Console") barColor
  self.writeStringAtColor 0 68 (asBytes "v0.0.5") barColor

/-- One round of the first loop of `draw_panel`. -/
def drawEdges (self : Writer) (column : Nat) : Writer :=
  let self := self.writeCell (7 * vgaWidth + column) '-'.toUInt8 mutedOnLight
  self.writeCell (24 * vgaWidth + column) '-'.toUInt8 mutedOnLight

/-- One round of the second loop of `draw_panel`. -/
def drawSides (self : Writer) (row : Nat) : Writer :=
  let self := self.writeCell (row * vgaWidth + panelLeft) '|'.toUInt8 mutedOnLight
  let self := self.writeCell (row * vgaWidth + panelRight) '|'.toUInt8 mutedOnLight
  self.clearConsoleRow row

def drawPanel (self : Writer) : Writer :=
  let self := (inclusive panelLeft panelRight).foldl drawEdges self
  let self := self.writeCell (7 * vgaWidth + panelLeft) '+'.toUInt8 mutedOnLight
  let self := self.writeCell (7 * vgaWidth + panelRight) '+'.toUInt8 mutedOnLight
  let self := self.writeCell (24 * vgaWidth + panelLeft) '+'.toUInt8 mutedOnLight
  let self := self.writeCell (24 * vgaWidth + panelRight) '+'.toUInt8 mutedOnLight
  (inclusive consoleTop consoleBottom).foldl drawSides self

def showSplash (self : Writer) : Writer :=
  let self := self.clearScreen
  let self := self.drawStatusBar
  let self := self.writeCenteredColor 2 (asBytes "Tobacco") accentOnLight
  let self := self.writeCenteredColor 3 (asBytes "Kernel v0.0.5 - Booted") textOnLight
  let self := self.writeCenteredColor 5
    (asBytes "Type help for commands  |  Up/Down history  |  Esc clears input") mutedOnLight
  let self := self.drawPanel
  self.setCursor consoleTop consoleLeft

end Writer

/-! ### What the kernel calls -/

/-- The calls while the shell runs, each of them without interrupts in between.
`toggleCursor` is the call of the timer. -/
inductive Op where
  | showSplash
  | writeString (text : List UInt8)
  | writeLine (text : List UInt8)
  | writeByte (byte : UInt8)
  | startPrompt
  | renderInputWithCursor (input : List UInt8) (cursorIndex : Nat)
  | toggleCursor
deriving DecidableEq, Repr

def step (self : Writer) : Op → Writer
  | .showSplash => self.showSplash
  | .writeString text => self.writeString text
  | .writeLine text => self.writeLine text
  | .writeByte byte => self.hideCursor.writeByte byte
  | .startPrompt => self.startPrompt
  | .renderInputWithCursor input cursorIndex => self.renderInputWithCursor input cursorIndex
  | .toggleCursor => self.toggleCursor

def run (self : Writer) (ops : List Op) : Writer := ops.foldl step self

end CloudOS.Vga
