import CloudOS.Lib.Shift

/-!
The input line of the shell.

The loop of `run` keeps a line in an array, with its length and a cursor, and the
lines that were entered in a history of arrays. Key events change them one at a
time. An index or a slice that is out of range stops the kernel: then the
computation is `none`. What an event makes the shell do to the outside comes out
as a list of effects. Rounds of the loop without an event change nothing and are
left out.
-/

namespace CloudOS.Shell

open Lib.Shift (front slice put copyFrom moveDown shiftUp shiftDown)

abbrev inputBufferSize : Nat := 512

abbrev historySize : Nat := 16

/-- `KeyEvent` -/
inductive KeyEvent where
  | char (byte : UInt8)
  | enter
  | backspace
  | tab
  | escape
  | arrowUp
  | arrowDown
  | arrowLeft
  | arrowRight
  | shiftPressed
  | shiftReleased
  | capsLockToggled (enabled : Bool)
  deriving DecidableEq, Repr

/-- What the shell does while it handles an event. -/
inductive Effect where
  | serialPrintln (text : String)
  | writeByte (byte : UInt8)
  | execute (input : List UInt8)
  | prompt
  | log (origin message : String)
  | logBool (origin message : String) (value : Bool)
  | incShellHistoryRecall
  | renderInputWithCursor (input : List UInt8) (cursor : Nat)
  deriving DecidableEq, Repr

/-! ### The line -/

/-- The variables `input`, `input_len` and `cursor`. -/
structure Input where
  input : Vector UInt8 inputBufferSize
  inputLen : Nat
  cursor : Nat

/-- The bytes `input[..input_len]`. -/
def Input.held (line : Input) : List UInt8 := front line.input line.inputLen

/-- An array of zeros and no byte in use. -/
def Input.new : Input := ⟨Vector.replicate inputBufferSize 0, 0, 0⟩

/-- `insert_input_byte`: whether there was room, and the line after it. -/
def insertInputByte (line : Input) (byte : UInt8) : Option (Bool × Input) :=
  if line.inputLen ≥ inputBufferSize then some (false, line)
  else do
    let cursor := if line.cursor > line.inputLen then line.inputLen else line.cursor
    let input ← shiftUp cursor line.inputLen line.input >>= fun input => put input cursor byte
    return (true, ⟨input, line.inputLen + 1, cursor + 1⟩)

/-- `delete_previous_input_byte`: whether there was a byte, and the line after it. -/
def deletePreviousInputByte (line : Input) : Option (Bool × Input) :=
  if line.cursor = 0 ∨ line.inputLen = 0 then some (false, line)
  else do
    let cursor := if line.cursor > line.inputLen then line.inputLen else line.cursor
    let input ← shiftDown line.input cursor line.inputLen
    return (true, ⟨input, line.inputLen - 1, cursor - 1⟩)

/-! ### Trimming -/

def isBlank (byte : UInt8) : Bool := byte == 0x20 || byte == 0x09

/-- The first loop of `trim_ascii`. -/
def trimFirst : List UInt8 → List UInt8
  | first :: rest => if isBlank first then trimFirst rest else first :: rest
  | [] => []

/-- The second loop of `trim_ascii`, on the bytes from the last to the first. -/
def trimLast (input : List UInt8) : List UInt8 := (trimFirst input.reverse).reverse

def trimAscii (input : List UInt8) : List UInt8 := trimLast (trimFirst input)

/-! ### The history -/

structure CommandHistory where
  entries : Vector (Vector UInt8 inputBufferSize) historySize
  lengths : Vector Nat historySize
  len : Nat

namespace CommandHistory

def new : CommandHistory :=
  ⟨Vector.replicate historySize (Vector.replicate inputBufferSize 0),
    Vector.replicate historySize 0, 0⟩

def isSameAsLatest (history : CommandHistory) (input : List UInt8) : Option Bool :=
  if history.len = 0 then some false
  else do
    let length ← history.lengths[history.len - 1]?
    if length = input.length then
      let entry ← history.entries[history.len - 1]?
      let latest ← slice entry input.length
      return latest == input
    else return false

/-- One round of the loop of `push`. -/
def moveEntry (history : CommandHistory) (index : Nat) : Option CommandHistory := do
  let entries ← moveDown history.entries index
  let lengths ← moveDown history.lengths index
  return { history with entries, lengths }

/-- The part of `push` that drops the oldest entry of a full history. -/
def makeRoom (history : CommandHistory) : Option CommandHistory :=
  if history.len = historySize then do
    let history ← (List.range' 1 (historySize - 1)).foldlM moveEntry history
    return { history with len := history.len - 1 }
  else some history

/-- The part of `push` that writes the new entry. -/
def append (history : CommandHistory) (input : List UInt8) : Option CommandHistory := do
  let entry ← history.entries[history.len]?
  let entry ← copyFrom entry input
  let entries ← put history.entries history.len entry
  let lengths ← put history.lengths history.len input.length
  return ⟨entries, lengths, history.len + 1⟩

def push (history : CommandHistory) (input : List UInt8) : Option CommandHistory :=
  if (trimAscii input).isEmpty then some history
  else do
    let same ← history.isSameAsLatest (trimAscii input)
    if same then return history
    else
      let history ← history.makeRoom
      history.append (trimAscii input)

def latestIndex (history : CommandHistory) : Option Nat :=
  if history.len = 0 then none else some (history.len - 1)

def previousIndex (history : CommandHistory) : Option Nat → Option Nat
  | some index => if index > 0 then some (index - 1) else some index
  | none => history.latestIndex

def nextIndex (history : CommandHistory) : Option Nat → Option Nat
  | some index => if index + 1 < history.len then some (index + 1) else none
  | none => none

/-- `load`: whether there is such an entry, and the line after it. -/
def load (history : CommandHistory) (index : Nat) (line : Input) : Option (Bool × Input) :=
  if index ≥ history.len then some (false, line)
  else do
    let len ← history.lengths[index]?
    let entry ← history.entries[index]?
    let bytes ← slice entry len
    let input ← copyFrom line.input bytes
    return (true, ⟨input, len, len⟩)

end CommandHistory

/-! ### The loop -/

/-- The variables of `run`. -/
structure Session where
  line : Input
  history : CommandHistory
  historySelected : Option Nat

def Session.start : Session := ⟨.new, .new, none⟩

/-- An event that leaves the line on the screen as it is now. -/
def render (session : Session) (before : List Effect) : Option (List Effect × Session) := do
  let input ← slice session.line.input session.line.inputLen
  return (before ++ [.renderInputWithCursor input session.line.cursor], session)

/-- A byte that is typed. -/
def typeByte (session : Session) (byte : UInt8) : Option (List Effect × Session) := do
  let (inserted, line) ← insertInputByte session.line byte
  if inserted then render { session with line, historySelected := none } []
  else return ([], { session with line })

/-- A line of the history that is selected. -/
def select (session : Session) (index : Nat) : Option (List Effect × Session) := do
  let (loaded, line) ← session.history.load index session.line
  let session := { session with line, historySelected := some index }
  if loaded then render session [.incShellHistoryRecall] else return ([], session)

/-- The `match` of `run`. -/
def handle (session : Session) : KeyEvent → Option (List Effect × Session)
  | .enter => do
    let input ← slice session.line.input session.line.inputLen
    let history ← session.history.push input
    return ([.serialPrintln "", .writeByte 0x0a, .execute input, .prompt],
      ⟨{ session.line with inputLen := 0, cursor := 0 }, history, none⟩)
  | .backspace => do
    let (deleted, line) ← deletePreviousInputByte session.line
    if deleted then render { session with line, historySelected := none } []
    else return ([], { session with line })
  | .escape =>
    render ⟨{ session.line with inputLen := 0, cursor := 0 }, session.history, none⟩
      [.log "shell" "input cleared by escape"]
  | .tab => typeByte session 0x20
  | .char byte =>
    if 0x20 ≤ byte ∧ byte ≤ 0x7e then typeByte session byte else some ([], session)
  | .arrowLeft =>
    if session.line.cursor > 0 then
      render { session with line := { session.line with cursor := session.line.cursor - 1 } } []
    else some ([], session)
  | .arrowRight =>
    if session.line.cursor < session.line.inputLen then
      render { session with line := { session.line with cursor := session.line.cursor + 1 } } []
    else some ([], session)
  | .arrowUp =>
    match session.history.previousIndex session.historySelected with
    | some index => select session index
    | none => some ([], session)
  | .arrowDown =>
    match session.history.nextIndex session.historySelected with
    | some index => select session index
    | none =>
      if session.historySelected.isSome then
        render ⟨{ session.line with inputLen := 0, cursor := 0 }, session.history, none⟩ []
      else some ([], session)
  | .shiftPressed => some ([], session)
  | .shiftReleased => some ([], session)
  | .capsLockToggled enabled => some ([.logBool "keyboard" "caps lock" enabled], session)

/-- The loop of `run` over the events it gets. -/
def run (session : Session) : List KeyEvent → Option (List Effect × Session)
  | [] => some ([], session)
  | event :: events => do
    let (effects, session) ← handle session event
    let (more, session) ← run session events
    return (effects ++ more, session)

end CloudOS.Shell
