import IntelligentTerminal.Editor.Attachments
import IntelligentTerminal.Editor.WrapInput

/-!
# The prompt editor

`TabSession` holds the prompt of a tab: its text, the cursor, the images that are attached, the
edits that can be undone, and the prompts that have been sent. Each function that would panic at a
position inside a character has no result there. The functions are those that a replacement of the
prompt needs.

The popup for commands is computed from the text and read by none of these functions, and is left
out.

Source: `tools/wta/src/app/input_edit.rs`, lines 96-460.
-/

namespace IntelligentTerminal.Editor

open Data

/-! ### The history of edits -/

structure InputEditState where
  cursorPos : ℕ
  selected : Bool
  attachments : PendingAttachments

structure InputEdit where
  start : ℕ
  removed : List Char
  inserted : List Char
  before : InputEditState
  after : InputEditState

inductive InputEditKind
  | typing
  | other
deriving DecidableEq

/-- `struct InputEditHistory`, with the last edit first. -/
structure InputEditHistory where
  undo : List InputEdit := []
  redo : List InputEdit := []
  typingOpen : Bool := false

namespace InputEditHistory

def Merges (h : InputEditHistory) (edit previous : InputEdit) (kind : InputEditKind) : Prop :=
  kind = .typing ∧ h.typingOpen ∧ edit.removed = [] ∧
    previous.start + len previous.inserted = edit.start ∧
    previous.after.cursorPos = edit.before.cursorPos ∧ edit.before.selected = false

instance (h : InputEditHistory) (edit previous : InputEdit) (kind : InputEditKind) :
    Decidable (h.Merges edit previous kind) :=
  inferInstanceAs (Decidable (_ ∧ _))

/-- An edit that is not merged. -/
def push (h : InputEditHistory) (edit : InputEdit) (kind : InputEditKind) : InputEditHistory where
  undo := edit :: h.undo
  redo := []
  typingOpen := kind = .typing

def record (h : InputEditHistory) (edit : InputEdit) (kind : InputEditKind) : InputEditHistory :=
  match h.undo with
  | previous :: undo =>
    if h.Merges edit previous kind then
      { h with
        undo := { previous with
          inserted := previous.inserted ++ edit.inserted
          after := edit.after } :: undo
        redo := [] }
    else h.push edit kind
  | [] => h.push edit kind

end InputEditHistory

structure InputHistoryDraft where
  input : List Char := []
  cursorPos : ℕ := 0
  attachments : PendingAttachments := {}
  edits : InputEditHistory := {}

structure InputHistory where
  entries : List (List Char) := []
  selected : Option ℕ := none
  draft : Option InputHistoryDraft := none

/-- The part of `struct TabSession` for the prompt. -/
structure TabSession where
  input : List Char := []
  cursorPos : ℕ := 0
  inputHistory : InputHistory := {}
  inputEdits : InputEditHistory := {}
  inputAllSelected : Bool := false
  inputVerticalGoal : Option (ℕ × ℕ) := none
  attachments : PendingAttachments := {}

namespace TabSession

def breakInputUndoGroup (t : TabSession) : TabSession :=
  { t with inputEdits := { t.inputEdits with typingOpen := false } }

def resetInputUndoHistory (t : TabSession) : TabSession := { t with inputEdits := {} }

def resetInputHistoryNavigation (t : TabSession) : TabSession :=
  { t with
    inputVerticalGoal := none
    inputAllSelected := false
    inputHistory := { t.inputHistory with selected := none, draft := none } }

def inputEditState (t : TabSession) : InputEditState where
  cursorPos := clampCursorToBoundary t.input t.cursorPos
  selected := t.inputAllSelected
  attachments := t.attachments

/-- What `replace_input_range` and `insert_image_attachment` do before they insert anything. -/
def deleteInputRange (t : TabSession) (range : Range) : Option TabSession := do
  let t := { t.resetInputHistoryNavigation with cursorPos := range.start }
  let (editor, deleted) ← (TextEditor.new t.input t.cursorPos).deleteRange range
  let t := { t with input := editor.text, cursorPos := editor.cursorPos }
  some <| match deleted with
    | some deleted => { t with attachments := t.attachments.onTextDeleted deleted }
    | none => t

def replaceInputRange (t : TabSession) (range : Range) (text : List Char) (kind : InputEditKind) :
    Option TabSession :=
  if range.IsEmpty ∧ text = [] then some t
  else do
    let before := t.inputEditState
    let removed ← get t.input range
    let t ← t.deleteInputRange range
    let (editor, inserted) ← (TextEditor.new t.input t.cursorPos).insertStr text
    let t := { t with input := editor.text, cursorPos := editor.cursorPos }
    let t := match inserted with
      | some inserted =>
        { t with
          attachments :=
            t.attachments.onTextInserted inserted.start (inserted.stop - inserted.start) }
      | none => t
    let after := t.inputEditState
    let edit := { start := range.start, removed, inserted := text, before, after }
    some { t with inputEdits := t.inputEdits.record edit kind }

/-! ### Edits -/

def clearInput (t : TabSession) : Option TabSession :=
  let t := t.breakInputUndoGroup
  if t.input = [] then
    some { t.resetInputHistoryNavigation with
      cursorPos := 0
      attachments := t.attachments.clear }
  else t.replaceInputRange ⟨0, len t.input⟩ [] .other

end TabSession

end IntelligentTerminal.Editor
