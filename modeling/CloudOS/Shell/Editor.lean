import CloudOS.Lib.Editor
import CloudOS.Shell.Input

/-!
What the line editor is for.

The user edits a bounded list with a cursor. The lines that are entered are
remembered as commands, and the arrows walk through these. Each part carries its
bounds: the line its capacity and the place of its cursor, a command that it is
trimmed, not empty and short, the selection that there is such a command.
-/

namespace CloudOS.Shell

open Lib.Editor (Line Recent)

/-- The bytes without blanks at both ends. -/
def trim (bytes : List UInt8) : List UInt8 := (bytes.dropWhile isBlank).rdropWhile isBlank

/-- A line worth remembering: trimmed, not empty and short enough to be recalled. -/
structure Command where
  bytes : List UInt8
  trimmed : trim bytes = bytes
  nonempty : bytes ≠ []
  fits : bytes.length ≤ inputBufferSize
  deriving DecidableEq

theorem trim_trim (bytes : List UInt8) : trim (trim bytes) = trim bytes := by
  have kept : (trim bytes).dropWhile isBlank = trim bytes := by
    rw [List.dropWhile_eq_self_iff]
    intro some
    have shorter := List.rdropWhile_prefix isBlank (bytes.dropWhile isBlank)
    have longer : 0 < (bytes.dropWhile isBlank).length := some.trans_le shorter.length_le
    have first : (trim bytes)[0] = (bytes.dropWhile isBlank)[0] := shorter.getElem some
    have stays := List.dropWhile_eq_self_iff.mp (List.dropWhile_idempotent isBlank bytes)
      longer
    simpa only [first] using stays
  calc trim (trim bytes) = (trim bytes).rdropWhile isBlank := congrArg _ kept
    _ = trim bytes := List.rdropWhile_idempotent isBlank _

theorem length_trim_le (bytes : List UInt8) : (trim bytes).length ≤ bytes.length :=
  (List.rdropWhile_prefix isBlank _).length_le.trans (List.dropWhile_suffix isBlank).length_le

/-- The command of an entered line, if there is one. -/
def command (line : List UInt8) : Option Command :=
  if worth : trim line ≠ [] ∧ (trim line).length ≤ inputBufferSize then
    some ⟨trim line, trim_trim line, worth.1, worth.2⟩
  else none

/-- What the user edits. -/
structure Editor where
  line : Line UInt8 inputBufferSize
  recent : Recent Command historySize
  selected : Option Nat
  valid : ∀ index ∈ selected, index < recent.entries.length

namespace Editor

def start : Editor := ⟨.empty, .empty, none, by simp⟩

/-- Another line, and nothing selected. -/
def edit (editor : Editor) (line : Line UInt8 inputBufferSize) : Editor :=
  { editor with line, selected := none, valid := by simp }

/-- A byte that is typed, if there is room. -/
def insert (editor : Editor) (byte : UInt8) : Editor :=
  if editor.line.items.length < inputBufferSize then editor.edit (editor.line.insert byte)
  else editor

/-- A remembered command, with the cursor at its end. -/
def retrieve (editor : Editor) (index : Nat) (valid : index < editor.recent.entries.length) :
    Editor :=
  { editor with
    line := .ofList editor.recent.entries[index].bytes editor.recent.entries[index].fits
    selected := some index
    valid := by
      rintro _ ⟨⟩
      exact valid }

/-- One command further back, down to the oldest. -/
def older (editor : Editor) : Editor :=
  match selection : editor.selected with
  | some index => editor.retrieve (index - 1)
      ((Nat.sub_le _ _).trans_lt (editor.valid index selection))
  | none =>
    if some : 0 < editor.recent.entries.length then
      editor.retrieve (editor.recent.entries.length - 1) (Nat.sub_one_lt_of_lt some)
    else editor

/-- One command nearer, and an empty line behind the newest. -/
def newer (editor : Editor) : Editor :=
  match editor.selected with
  | some index =>
    if valid : index + 1 < editor.recent.entries.length then editor.retrieve (index + 1) valid
    else editor.edit .empty
  | none => editor

/-- The line is entered. -/
def enter (editor : Editor) : Editor :=
  { line := .empty
    recent := ((command editor.line.items).map editor.recent.remember).getD editor.recent
    selected := none
    valid := by simp }

/-- What an event does to the editor. -/
def press (editor : Editor) : KeyEvent → Editor
  | .char byte => if 0x20 ≤ byte ∧ byte ≤ 0x7e then editor.insert byte else editor
  | .tab => editor.insert 0x20
  | .backspace => if 0 < editor.line.cursor then editor.edit editor.line.backspace else editor
  | .escape => editor.edit .empty
  | .enter => editor.enter
  | .arrowLeft => { editor with line := editor.line.left }
  | .arrowRight => { editor with line := editor.line.right }
  | .arrowUp => editor.older
  | .arrowDown => editor.newer
  | .shiftPressed | .shiftReleased | .capsLockToggled _ => editor

end Editor

/-- The editor after some events. -/
def editorAfter (events : List KeyEvent) : Editor := events.foldl Editor.press .start

end CloudOS.Shell
