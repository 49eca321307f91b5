import IntelligentTerminal.Data.Consecutive
import IntelligentTerminal.Buffer.SerializeRow

/-!
# The shell-integration marks of a text buffer

A shell marks its text as prompt, command or output, and the row on which a prompt starts carries
scrollbar data. `GetMarkExtents` finds the extent of each mark: it scans the runs from the row of
the mark to the row of the next one, which is included. `Commands` finds the text of each command by a
scan over the same rows.

A run of prompt text after a command or an output belongs to a new prompt. It ends the scan of its
row only.

Source: `src/buffer/out/textBuffer.cpp`, lines 3147-3197, 3223-3326 and 3328-3430;
`src/buffer/out/Marks.hpp`, lines 49-83.
-/

namespace IntelligentTerminal.Buffer

/-- `struct MarkExtents`. The ends are exclusive. -/
structure MarkExtents where
  data : ScrollbarData
  start : Point := {}
  end_ : Point := {}
  commandEnd : Option Point := none
  outputEnd : Option Point := none
deriving DecidableEq

def MarkExtents.getExtent (m : MarkExtents) : Point × Point :=
  (m.start, (m.outputEnd.or m.commandEnd).getD m.end_)

def ROW.runs (r : ROW) : List (Run TextAttribute) := Run.encode r.attr

/-! ### The extent of a mark -/

/-- The variables of `TextBuffer::_scrollMarkExtentForRow`. -/
structure MarkScan where
  mark : MarkExtents
  startedPrompt : Bool := false
  startedCommand : Bool := false
  startedOutput : Bool := false
  lastMarkedText : Point

namespace MarkScan

def endThisMark (s : MarkScan) (p : Point) : MarkScan :=
  { s with
    mark := { s.mark with
      outputEnd := if s.startedOutput then some p else s.mark.outputEnd
      commandEnd := if !s.startedOutput && s.startedCommand then some p else s.mark.commandEnd
      end_ := if !s.startedCommand then p else s.mark.end_ } }

/-- A run from `p` to `next` that does not end the scan of its row. -/
def visit (s : MarkScan) (markKind : MarkKind) (p next : Point) : MarkScan :=
  match markKind with
  | .none => s
  | .prompt =>
    let s := { s with lastMarkedText := next }
    let s := if !s.startedPrompt then
        { s with startedPrompt := true, mark := { s.mark with start := p } }
      else s
    s.endThisMark next
  | .command =>
    let s := { s with lastMarkedText := next }
    if s.startedPrompt then { s with startedCommand := true }.endThisMark next else s
  | .output =>
    let s := { s with lastMarkedText := next }
    if s.startedPrompt then
      let s := { s with startedOutput := true }
      let s := if s.mark.commandEnd.isNone then
          { s with mark := { s.mark with commandEnd := some s.mark.end_ }, startedCommand := true }
        else s
      s.endThisMark next
    else s

/-- The runs of the row at `y`, from the column `x` on. -/
def scanRow (y : ℤ) : ℤ → List (Run TextAttribute) → MarkScan → MarkScan
  | _, [], s => s
  | x, run :: runs, s =>
    let nextX := x + run.length
    let markKind := run.value.markKind
    if markKind = .prompt && (s.startedCommand || s.startedOutput) then
      -- a new prompt: the `break` leaves the loop over the runs, not the one over the rows
      { s with lastMarkedText := ⟨nextX, y⟩ }
    else scanRow y nextX runs (s.visit markKind ⟨x, y⟩ ⟨nextX, y⟩)

/-- What is returned at the bottom. -/
def finish (s : MarkScan) : MarkExtents :=
  if !s.startedCommand then (s.endThisMark s.lastMarkedText).mark else s.mark

end MarkScan

namespace TextBuffer

/-- `count` rows from `y` on. -/
def scanRows (b : TextBuffer) : ℕ → ℤ → MarkScan → MarkScan
  | 0, _, s => s
  | count + 1, y, s => b.scanRows count (y + 1) (MarkScan.scanRow y 0 (b.row y).runs s)

/-- What `_scrollMarkExtentForRow` starts with. -/
def markScan (b : TextBuffer) (rowOffset : ℕ) : MarkScan where
  mark := { data := (b.row rowOffset).promptData.getD {} }
  lastMarkedText := ⟨0, rowOffset⟩

def scrollMarkExtentForRow (b : TextBuffer) (rowOffset bottomInclusive : ℕ) : MarkExtents :=
  (b.scanRows (bottomInclusive + 1 - rowOffset) rowOffset (b.markScan rowOffset)).finish

/-- The row at `y` has a mark that did not come from the UI. -/
def isMarkRow (b : TextBuffer) (y : ℕ) : Bool :=
  (b.row y).promptData.any fun data => data.category ≠ .default

/-- The loop of `TextBuffer::GetMarkExtents`, over the `count` uppermost rows from below. -/
def markExtentsLoop (b : TextBuffer) (limit : ℕ) : ℕ → ℕ → List MarkExtents → List MarkExtents
  | 0, _, marks => marks
  | promptY + 1, lastPromptY, marks =>
    if b.isMarkRow promptY then
      let marks := marks ++ [b.scrollMarkExtentForRow promptY lastPromptY]
      if marks.length ≥ limit then marks else b.markExtentsLoop limit promptY promptY marks
    else b.markExtentsLoop limit promptY lastPromptY marks

def getMarkExtents (b : TextBuffer) (limit : ℕ) : List MarkExtents :=
  if limit = 0 then []
  else
    let bottom := b.estimateOffsetOfLastCommittedRow
    (b.markExtentsLoop limit (bottom + 1) bottom []).reverse

/-! ### The text of a command -/

/-- The runs of a row in `TextBuffer::_commandForRow`, from the column `x` on: what was collected,
the kind of the last run, and whether the scan is over. `read` is what is collected for the columns
of a command; on the row of the cursor, `cursorX` is its column. -/
def commandRow {β : Type} (read : ℤ → ℤ → List β) (cursorX : Option ℤ) :
    ℤ → List (Run TextAttribute) → MarkKind → List β → List β × MarkKind × Bool
  | _, [], lastMarkKind, commandBuilder => (commandBuilder, lastMarkKind, false)
  | x, run :: runs, lastMarkKind, commandBuilder =>
    let nextX := cursorX.elim (x + run.length) (min (x + run.length))
    let markKind := run.value.markKind
    if markKind ≠ lastMarkKind && lastMarkKind = .command then (commandBuilder, lastMarkKind, true)
    else
      let commandBuilder := if markKind = .command then commandBuilder ++ read x nextX
        else commandBuilder
      if cursorX = some nextX then (commandBuilder, markKind, true)
      else commandRow read cursorX nextX runs markKind commandBuilder

/-- The rows of `TextBuffer::_commandForRow`: `count` rows from `y` on. -/
def commandRows {β : Type} (b : TextBuffer) (read : ℤ → ℤ → ℤ → List β) (clipAtCursor : Bool) :
    ℕ → ℤ → MarkKind → List β → List β
  | 0, _, _, commandBuilder => commandBuilder
  | count + 1, y, lastMarkKind, commandBuilder =>
    let cursorX := if clipAtCursor && y = b.cursor.position.y then some b.cursor.position.x
      else none
    let (commandBuilder, lastMarkKind, done) :=
      commandRow (read y) cursorX 0 (b.row y).runs lastMarkKind commandBuilder
    if done then commandBuilder
    else b.commandRows read clipAtCursor count (y + 1) lastMarkKind commandBuilder

def commandForRow (b : TextBuffer) (rowOffset bottomInclusive : ℕ) (clipAtCursor : Bool := false) :
    List WChar :=
  b.commandRows (fun y x nextX => (b.row y).getTextBetween x nextX) clipAtCursor
    (bottomInclusive + 1 - rowOffset) rowOffset .prompt []

/-- The loop of `TextBuffer::Commands`, over the `count` uppermost rows from below. -/
def commandsLoop (b : TextBuffer) : ℕ → ℕ → List (List WChar) → List (List WChar)
  | 0, _, commands => commands
  | promptY + 1, lastPromptY, commands =>
    if (b.row promptY).promptData.isSome then
      let foundCommand := b.commandForRow promptY lastPromptY
      let commands := if foundCommand.isEmpty then commands else commands ++ [foundCommand]
      b.commandsLoop promptY promptY commands
    else b.commandsLoop promptY lastPromptY commands

def commands (b : TextBuffer) : List (List WChar) :=
  let bottom := b.estimateOffsetOfLastCommittedRow
  (b.commandsLoop (bottom + 1) bottom []).reverse

end TextBuffer

end IntelligentTerminal.Buffer
