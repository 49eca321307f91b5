import IntelligentTerminal.Buffer.Row
import IntelligentTerminal.Pages.PageManager

/-!
# The cursor and the lines under it

The handlers of control sequences that move the cursor, or the rows under it. Of a row only its
line rendition is kept, on which its width depends. The cells are left out: what is printed is the
list of the columns at which the writes of the rows end.

Source: `src/terminal/adapter/adaptDispatch.cpp`, lines 100-181, 203-517, 549-710, 1355-1369,
1542-1582, 1610-1672, 1794-1798 and 2136-2860; `src/terminal/adapter/adaptDispatch.hpp`, lines
221-240; `src/buffer/out/textBuffer.cpp`, lines 806-868, 914-971 and 1038-1072;
`src/buffer/out/cursor.cpp`, lines 96-117 and 190-203.
-/

namespace IntelligentTerminal.Adapter

open Buffer (LineRendition TextAttribute clampInt)
open Pages

/-- `til::inclusive_rect` of `_scrollMargins`. -/
structure ScrollMargins where
  left : ℕ := 0
  top : ℕ := 0
  right : ℕ := 0
  bottom : ℕ := 0

/-- `class TerminalOutput`, with its translation tables as any type. -/
structure TerminalOutput (τ : Type*) where
  tables : τ
  grTranslationEnabled : Bool

def TerminalOutput.restoreFrom {τ : Type*} (output savedState : TerminalOutput τ) :
    TerminalOutput τ :=
  { savedState with grTranslationEnabled := output.grTranslationEnabled }

structure CursorState (τ : Type*) where
  row : ℤ := 1
  column : ℤ := 1
  page : ℤ := 1
  isDelayedEOLWrap : Bool := false
  isOriginModeRelative : Bool := false
  attributes : TextAttribute := {}
  termOutput : TerminalOutput τ

structure Offset where
  value : ℤ
  isAbsolute : Bool

namespace Offset

def absolute (value : ℤ) : Offset := ⟨value - 1, true⟩
def forward (value : ℤ) : Offset := ⟨value, false⟩
def backward (value : ℤ) : Offset := ⟨-value, false⟩
def unchanged : Offset := forward 0

end Offset

/-! ### Line renditions as the rows of a page -/

/-- `TextBuffer::ResizeTraditional`. -/
def resizeTraditional (b : PageBuffer LineRendition) (newSize : Size) : PageBuffer LineRendition :=
  let newSize : Size := ⟨max newSize.width 1, max newSize.height 1⟩
  let copyableRows := min b.size.height newSize.height
  let srcRow :=
    if b.cursor.position.y ≥ newSize.height then
      (b.cursor.position.y - newSize.height + 1).toNat
    else 0
  { b with
    size := newSize
    rows := fun y => if y < copyableRows then b.row (srcRow + y) else .singleWidth }

def renditions : RowOps LineRendition where
  blank _ := .singleWidth
  copyFrom _ src := src
  resizeTraditional := resizeTraditional

/-! ### The state -/

/-- `class AdaptDispatch`. The active page is kept beside the page manager, to which it is written
back before the manager moves to another page. -/
structure AdaptDispatch (τ : Type*) where
  pages : PageState LineRendition
  page : Page LineRendition
  scrollMargins : ScrollMargins := {}
  originMode : Bool := false
  autoWrap : Bool := true
  lineFeedMode : Bool := false
  allowDECSLRM : Bool := false
  pageCursorCoupling : Bool := true
  savedCursorState : CursorState τ
  termOutput : TerminalOutput τ
  tabStopColumns : List Bool := []
  initDefaultTabStops : Bool := true

/-- The bounds of the margins, inclusive, in coordinates of the buffer. -/
structure Margins where
  top : ℤ
  bottom : ℤ
  left : ℤ
  right : ℤ

namespace AdaptDispatch

variable {τ : Type*} (d : AdaptDispatch τ)

def width : ℤ := d.page.buffer.size.width
def height : ℤ := d.pages.pageSize.height
def top : ℤ := d.page.top
def bottom : ℤ := d.top + d.height
def bufferHeight : ℤ := d.page.buffer.size.height
def position : Point := d.page.buffer.cursor.position
def delayEOLWrap? : Option Point := d.page.buffer.cursor.coordDelayedAt
def attributes : TextAttribute := d.page.buffer.currentAttributes

/-- `TextBuffer::GetLineRendition`. -/
def lineRendition (y : ℤ) : LineRendition := d.page.buffer.rows y.toNat

/-- `TextBuffer::GetLineWidth`. -/
def lineWidth (y : ℤ) : ℤ :=
  if d.lineRendition y = .singleWidth then d.width else d.width / 2

/-- `TextBuffer::ClampPositionWithinLine`. -/
def clampPositionWithinLine (position : Point) : Point :=
  ⟨min position.x (d.lineWidth position.y - 1), position.y⟩

/-- `Cursor::SetPosition`, which resets the delayed wrap. -/
def setPosition (position : Point) : AdaptDispatch τ :=
  { d with page.buffer.cursor := d.page.buffer.cursor.setPosition position }

/-- `Cursor::SetXPosition`. -/
def setXPosition (x : ℤ) : AdaptDispatch τ := d.setPosition ⟨x, d.position.y⟩

/-- `Cursor::DelayEOLWrap`. -/
def delayEOLWrap : AdaptDispatch τ :=
  { d with page.buffer.cursor.coordDelayedAt := some d.position }

/-- `Cursor::ResetDelayEOLWrap`. -/
def resetDelayEOLWrap : AdaptDispatch τ :=
  { d with page.buffer.cursor.coordDelayedAt := none }

/-- New line renditions of the rows of the buffer. -/
def setLineRenditions (rendition : ℤ → LineRendition) : AdaptDispatch τ :=
  { d with page.buffer.rows := fun y => rendition y }

/-- `TextBuffer::ResetLineRenditionRange`. -/
def resetLineRenditionRange (startRow endRow : ℤ) : AdaptDispatch τ :=
  d.setLineRenditions fun y =>
    if startRow ≤ y ∧ y < endRow then .singleWidth else d.lineRendition y

/-- `TextBuffer::ScrollRows`: a row takes its line rendition along. -/
def scrollRows (firstRow size delta : ℤ) : AdaptDispatch τ :=
  d.setLineRenditions fun y =>
    d.lineRendition (if firstRow + delta ≤ y ∧ y < firstRow + size + delta then y - delta else y)

/-- `TextBuffer::IncrementCircularBuffer`. -/
def incrementCircularBuffer : AdaptDispatch τ :=
  d.setLineRenditions fun y =>
    if y = d.bufferHeight - 1 then .singleWidth else d.lineRendition (y + 1)

/-! ### Margins -/

end AdaptDispatch

/-- The margins that DECSTBM or DECSLRM stores, if they are valid. -/
def requestedMargins (low high size : ℕ) : Option (ℕ × ℕ) :=
  let actualLow := if low = 0 then 1 else low
  let actualHigh := if high = 0 then size else high
  if actualLow < actualHigh ∧ actualHigh ≤ size then
    some (if actualLow = 1 ∧ actualHigh = size then (0, 0) else (actualLow - 1, actualHigh - 1))
  else none

/-- The margins in one direction, and what is stored of them: `_GetVerticalMargins` and
`_GetHorizontalMargins`. -/
def clampMargins (low high : ℕ) (last : ℤ) : (ℤ × ℤ) × (ℕ × ℕ) :=
  -- If the low margin is out of range, the margins are reset completely.
  let (low, high) := if last ≤ low then (0, 0) else (low, high)
  let marginsSet := low < high
  ((if marginsSet then low else 0, min (if marginsSet then high else last) last), (low, high))

namespace AdaptDispatch

variable {τ : Type*} (d : AdaptDispatch τ)

/-- `_GetVerticalMargins`, relative to the page. -/
def getVerticalMargins : (ℤ × ℤ) × AdaptDispatch τ :=
  let (margins, stored) := clampMargins d.scrollMargins.top d.scrollMargins.bottom (d.height - 1)
  (margins, { d with scrollMargins.top := stored.1, scrollMargins.bottom := stored.2 })

def getHorizontalMargins (pageWidth : ℤ) : (ℤ × ℤ) × AdaptDispatch τ :=
  let (margins, stored) := clampMargins d.scrollMargins.left d.scrollMargins.right (pageWidth - 1)
  (margins, { d with scrollMargins.left := stored.1, scrollMargins.right := stored.2 })

/-- Both margins, as most handlers read them. -/
def getMargins : Margins × AdaptDispatch τ :=
  let ((topMargin, bottomMargin), d) := d.getVerticalMargins
  let ((leftMargin, rightMargin), d) := d.getHorizontalMargins d.width
  (⟨topMargin + d.top, bottomMargin + d.top, leftMargin, rightMargin⟩, d)

/-! ### Cursor movement -/

def cursorMovePosition (rowOffset colOffset : Offset) (clampInMargins : Bool) : AdaptDispatch τ :=
  let (m, d) := d.getMargins
  let position := d.position
  let row := if rowOffset.isAbsolute then (if d.originMode then m.top else d.top) else position.y
  let col := if colOffset.isAbsolute then (if d.originMode then m.left else 0) else position.x
  let row := clampInt (row + rowOffset.value) d.top (d.bottom - 1)
  let col := clampInt (col + colOffset.value) 0 (d.width - 1)
  let clamped := clampInMargins || d.originMode
  let inColumns := m.left ≤ position.x ∧ position.x ≤ m.right
  let row := if clamped ∧ inColumns ∧ m.top ≤ position.y then max row m.top else row
  let row := if clamped ∧ inColumns ∧ position.y ≤ m.bottom then min row m.bottom else row
  let inRows := m.top ≤ row ∧ row ≤ m.bottom
  let col := if clamped ∧ inRows ∧ m.left ≤ position.x then max col m.left else col
  let col := if clamped ∧ inRows ∧ position.x ≤ m.right then min col m.right else col
  d.setPosition (d.clampPositionWithinLine ⟨col, row⟩)

end AdaptDispatch

/-- The control sequences that only move the cursor. -/
inductive Movement
  | cursorUp (distance : ℤ)
  | cursorDown (distance : ℤ)
  | cursorForward (distance : ℤ)
  | cursorBackward (distance : ℤ)
  | cursorNextLine (distance : ℤ)
  | cursorPrevLine (distance : ℤ)
  | cursorHorizontalPositionAbsolute (column : ℤ)
  | verticalLinePositionAbsolute (line : ℤ)
  | horizontalPositionRelative (distance : ℤ)
  | verticalPositionRelative (distance : ℤ)
  | cursorPosition (line column : ℤ)
  | carriageReturn

inductive LineFeedType
  | withReturn
  | withoutReturn
  | dependsOnMode

namespace AdaptDispatch

variable {τ : Type*} (d : AdaptDispatch τ)

def cursorPosition (line column : ℤ) : AdaptDispatch τ :=
  d.cursorMovePosition (.absolute line) (.absolute column) false

/-- The handlers that only call `_CursorMovePosition`. -/
def move : Movement → AdaptDispatch τ
  | .cursorUp distance => d.cursorMovePosition (.backward distance) .unchanged true
  | .cursorDown distance => d.cursorMovePosition (.forward distance) .unchanged true
  | .cursorForward distance => d.cursorMovePosition .unchanged (.forward distance) true
  | .cursorBackward distance => d.cursorMovePosition .unchanged (.backward distance) true
  | .cursorNextLine distance => d.cursorMovePosition (.forward distance) (.absolute 1) true
  | .cursorPrevLine distance => d.cursorMovePosition (.backward distance) (.absolute 1) true
  | .cursorHorizontalPositionAbsolute column =>
    d.cursorMovePosition .unchanged (.absolute column) false
  | .verticalLinePositionAbsolute line => d.cursorMovePosition (.absolute line) .unchanged false
  | .horizontalPositionRelative distance =>
    d.cursorMovePosition .unchanged (.forward distance) false
  | .verticalPositionRelative distance =>
    d.cursorMovePosition (.forward distance) .unchanged false
  | .cursorPosition line column => d.cursorPosition line column
  | .carriageReturn => d.cursorMovePosition .unchanged (.absolute 1) true

/-- `_CursorPositionReport`: the row and the column. -/
def cursorPositionReport : ℤ × ℤ :=
  let (m, d) := d.getMargins
  if d.originMode then (d.position.y + 1 - m.top, d.position.x + 1 - m.left)
  else (d.position.y - d.top + 1, d.position.x + 1)

/-! ### Scrolling -/

/-- `_ScrollRectVertically`: only rows of the full width are moved with their line rendition. -/
def scrollRectVertically (left top right bottom delta : ℤ) : AdaptDispatch τ :=
  let height := bottom - top
  let absoluteDelta := min |delta| height
  let d :=
    if absoluteDelta < height ∧ right - left = d.width then
      d.scrollRows (if delta > 0 then top else top + absoluteDelta) (height - absoluteDelta)
        (if delta > 0 then absoluteDelta else -absoluteDelta)
    else d
  let eraseTop := if delta > 0 then top else bottom - absoluteDelta
  d.resetLineRenditionRange eraseTop (eraseTop + absoluteDelta)

def scrollMovement (delta : ℤ) : AdaptDispatch τ :=
  let (m, d) := d.getMargins
  d.scrollRectVertically m.left m.top (m.right + 1) (m.bottom + 1) delta

def insertDeleteLineHelper (delta : ℤ) : AdaptDispatch τ :=
  let (m, d) := d.getMargins
  let ⟨col, row⟩ := d.position
  if m.top ≤ row ∧ row ≤ m.bottom ∧ m.left ≤ col ∧ col ≤ m.right then
    (d.scrollRectVertically m.left row (m.right + 1) (m.bottom + 1) delta).setXPosition m.left
  else d

/-- `_InsertDeleteCharacterHelper`: cells of a row are moved. -/
def insertDeleteCharacterHelper : AdaptDispatch τ :=
  let ⟨col, row⟩ := d.position
  let lineWidth := d.lineWidth row
  let ((topMargin, bottomMargin), d) := d.getVerticalMargins
  let ((leftMargin, rightMargin), d) :=
    if topMargin + d.top ≤ row ∧ row ≤ bottomMargin + d.top then d.getHorizontalMargins lineWidth
    else ((0, lineWidth - 1), d)
  if leftMargin ≤ col ∧ col ≤ rightMargin then d.resetDelayEOLWrap else d

/-- `_InsertDeleteColumnHelper`: cells of the rows are moved. -/
def insertDeleteColumnHelper : AdaptDispatch τ := d.getMargins.2

/-- `_DoSetTopBottomScrollingMargins`, with the cursor moved to the home position. -/
def doSetTopBottomScrollingMargins (topMargin bottomMargin : ℕ) : AdaptDispatch τ :=
  match requestedMargins topMargin bottomMargin d.pages.pageSize.height with
  | some (top, bottom) =>
    { d with scrollMargins.top := top, scrollMargins.bottom := bottom }.cursorPosition 1 1
  | none => d

/-- `_DoSetLeftRightScrollingMargins`, with the cursor moved to the home position. -/
def doSetLeftRightScrollingMargins (leftMargin rightMargin : ℕ) : AdaptDispatch τ :=
  match requestedMargins leftMargin rightMargin d.page.buffer.size.width with
  | some (left, right) =>
    { d with scrollMargins.left := left, scrollMargins.right := right }.cursorPosition 1 1
  | none => d

/-! ### Line feeds -/

/-- `_DoLineFeed` behind its carriage return, with the column that the cursor goes to. -/
def feedLine (m : Margins) (x : ℤ) : AdaptDispatch τ :=
  let y := d.position.y
  if y ≠ m.bottom ∨ x < m.left ∨ m.right < x then
    d.setPosition (d.clampPositionWithinLine ⟨x, min (y + 1) (d.bottom - 1)⟩)
  else if d.top < m.top ∨ 0 < m.left ∨ m.right < d.width - 1 then
    (d.scrollRectVertically m.left m.top (m.right + 1) (m.bottom + 1) (-1)).setPosition ⟨x, y⟩
  else if d.bottom < d.bufferHeight then
    -- The viewport pans down; the part of the page below the margins stays where it is.
    let panned := { d with page.top := d.page.top + 1 }
    let panned :=
      if m.bottom < d.bottom - 1 then
        panned.scrollRectVertically 0 (m.bottom + 1) d.width (d.bottom + 1) 1
      else panned.resetLineRenditionRange (y + 1) (y + 2)
    panned.setPosition ⟨x, y + 1⟩
  else
    let rotated := d.incrementCircularBuffer
    let rotated :=
      if m.bottom < d.bottom - 1 then
        rotated.scrollRectVertically 0 m.bottom d.width d.bufferHeight 1
      else rotated
    rotated.setPosition ⟨x, y⟩

def doLineFeed (withReturn : Bool) : AdaptDispatch τ :=
  let (m, d) := d.getMargins
  let ⟨x, y⟩ := d.position
  d.feedLine m <|
    if withReturn then (if m.top ≤ y ∧ y ≤ m.bottom ∧ m.left ≤ x then m.left else 0) else x

def lineFeed : LineFeedType → AdaptDispatch τ
  | .dependsOnMode => d.doLineFeed d.lineFeedMode
  | .withoutReturn => d.doLineFeed false
  | .withReturn => d.doLineFeed true

def reverseLineFeed : AdaptDispatch τ :=
  let (m, d) := d.getMargins
  let ⟨x, y⟩ := d.position
  if y = m.top ∧ m.left ≤ x ∧ x ≤ m.right then
    d.scrollRectVertically m.left m.top (m.right + 1) (m.bottom + 1) 1
  else if d.top < y then d.setPosition (d.clampPositionWithinLine ⟨x, y - 1⟩)
  else d

/-- DECBI; the cells of the margin area may be shifted. -/
def backIndex : AdaptDispatch τ :=
  let (m, d) := d.getMargins
  let ⟨x, y⟩ := d.position
  if x = m.left ∧ m.top ≤ y ∧ y ≤ m.bottom then d
  else if 0 < x then d.setXPosition (x - 1)
  else d

/-- DECFI; the cells of the margin area may be shifted. -/
def forwardIndex : AdaptDispatch τ :=
  let (m, d) := d.getMargins
  let ⟨x, y⟩ := d.position
  if x = m.right ∧ m.top ≤ y ∧ y ≤ m.bottom then d
  else if x < d.lineWidth y - 1 then d.setXPosition (x + 1)
  else d

/-! ### Printing -/

/-- The column that a line ends at for what is printed on it. -/
def lineLimit (inColumns : Prop) [Decidable inColumns] (m : Margins) : ℤ :=
  let y := d.position.y
  if inColumns ∧ m.top ≤ y ∧ y ≤ m.bottom then min (d.lineWidth y) (m.right + 1)
  else d.lineWidth y

/-- The first part of the loop of `_WriteToBuffer`: a delayed wrap is acted on. -/
def wrapLine (columnLimit : ℤ) : AdaptDispatch τ × ℤ :=
  match d.delayEOLWrap? with
  | none => (d, columnLimit)
  | some delayedCursorPosition =>
    if d.autoWrap then
      let position := d.position
      let d := d.resetDelayEOLWrap
      -- Nothing is done if the cursor has been moved since.
      if delayedCursorPosition = position then
        let (m, d) := (d.doLineFeed true).getMargins
        (d, d.lineLimit True m)
      else (d, columnLimit)
    else (d, columnLimit)

/-- The loop of `_WriteToBuffer`. -/
def writeLoop : AdaptDispatch τ → ℤ → List ℕ → AdaptDispatch τ
  | d, _, [] => d
  | d, columnLimit, columnEnd :: columnEnds =>
    let (d, columnLimit) := d.wrapLine columnLimit
    let isWrapping := decide (columnLimit ≤ columnEnd)
    let d := d.setXPosition (if isWrapping then columnLimit - 1 else columnEnd)
    let d := if isWrapping && d.autoWrap then d.delayEOLWrap else d
    d.writeLoop columnLimit columnEnds

def writeToBuffer (columnEnds : List ℕ) : AdaptDispatch τ :=
  let (m, d) := d.getMargins
  d.writeLoop (d.lineLimit (d.position.x ≤ m.right) m) columnEnds

/-! ### Tabs -/

def initTabStopsForWidth (width : ℤ) : AdaptDispatch τ :=
  let initialWidth := d.tabStopColumns.length
  if width > initialWidth then
    { d with
      tabStopColumns := d.tabStopColumns ++
        (List.range' initialWidth (width.toNat - initialWidth)).map fun column =>
          d.initDefaultTabStops && decide (8 ≤ column ∧ column % 8 = 0) }
  else d

/-- The loops of `ForwardTab` and `BackwardsTab`, over at most `steps` columns. -/
def tabLoop (direction : ℤ) : ℕ → ℤ → ℤ → ℤ
  | 0, column, _ => column
  | steps + 1, column, numTabs =>
    if 0 < numTabs then
      let column := column + direction
      tabLoop direction steps column
        (if d.tabStopColumns.getD column.toNat false then numTabs - 1 else numTabs)
    else column

def forwardTab (numTabs : ℤ) : AdaptDispatch τ :=
  let ⟨column, row⟩ := d.position
  let width := d.lineWidth row
  let ((topMargin, bottomMargin), d) := d.getVerticalMargins
  let ((_, rightMargin), d) := d.getHorizontalMargins width
  let clampToMargin := topMargin + d.top ≤ row ∧ row ≤ bottomMargin + d.top ∧ column ≤ rightMargin
  let maxColumn := if clampToMargin then rightMargin else width - 1
  let d := d.initTabStopsForWidth width
  let column := d.tabLoop 1 (maxColumn - column).toNat column numTabs
  -- The delayed wrap is kept.
  let moved := d.setXPosition column
  if d.delayEOLWrap?.isSome then moved.delayEOLWrap else moved

def backwardsTab (numTabs : ℤ) : AdaptDispatch τ :=
  let ⟨column, row⟩ := d.position
  let width := d.lineWidth row
  let ((topMargin, bottomMargin), d) := d.getVerticalMargins
  let ((leftMargin, _), d) := d.getHorizontalMargins width
  let clampToMargin := topMargin + d.top ≤ row ∧ row ≤ bottomMargin + d.top ∧ leftMargin ≤ column
  let minColumn := if clampToMargin then leftMargin else 0
  let d := d.initTabStopsForWidth width
  d.setXPosition (d.tabLoop (-1) (column - minColumn).toNat column numTabs)

/-! ### Line renditions, pages and the saved cursor -/

/-- `AdaptDispatch::SetLineRendition` and `TextBuffer::SetCurrentLineRendition`. -/
def setLineRendition (rendition : LineRendition) : AdaptDispatch τ :=
  if d.allowDECSLRM then d
  else
    let position := d.position
    let d :=
      if d.lineRendition position.y ≠ rendition then
        let d := d.setLineRenditions fun y =>
          if y = position.y then rendition else d.lineRendition y
        if rendition ≠ .singleWidth then d.setPosition (d.clampPositionWithinLine position) else d
      else d
    d.resetDelayEOLWrap

/-- The page manager with the active page written back. -/
def storedPages : PageState LineRendition :=
  if d.pages.isMainBuffer ∧ d.pages.activePageNumber ≠ d.pages.visiblePageNumber then
    d.pages.setBacking d.pages.activePageNumber d.page.buffer
  else { d.pages with visibleBuffer := d.page.buffer, visibleTop := d.page.top }

def pagePositionAbsolute (page : ℤ) : AdaptDispatch τ :=
  let pages := d.storedPages.moveTo renditions page d.pageCursorCoupling
  { d with pages, page := (pages.activePage renditions).1 }

/-- DECSC. -/
def cursorSaveState : AdaptDispatch τ :=
  let (row, column) := d.cursorPositionReport
  let d := if d.originMode then d.getMargins.2 else d
  { d with savedCursorState :=
    { row
      column
      page := d.page.number.val
      isDelayedEOLWrap := d.delayEOLWrap?.isSome
      isOriginModeRelative := d.originMode
      attributes := d.attributes
      termOutput := d.termOutput } }

/-- DECRC. -/
def cursorRestoreState : AdaptDispatch τ :=
  let saved := d.savedCursorState
  let d := { d with originMode := saved.isOriginModeRelative }
  let d := (d.pagePositionAbsolute saved.page).cursorPosition saved.row saved.column
  let d := if saved.isDelayedEOLWrap then d.delayEOLWrap else d
  { d with
    page.buffer.currentAttributes := saved.attributes
    termOutput := d.termOutput.restoreFrom saved.termOutput }

/-- DECSLRM, or the ANSI form of DECSC where the margins are not allowed. -/
def setLeftRightScrollingMargins (leftMargin rightMargin : ℕ) : AdaptDispatch τ :=
  if d.allowDECSLRM then d.doSetLeftRightScrollingMargins leftMargin rightMargin
  else d.cursorSaveState

end AdaptDispatch

/-! ### Control sequences -/

/-- A control sequence, or text that is printed. -/
inductive Op (τ : Type*)
  | move (movement : Movement)
  | lineFeed (lineFeedType : LineFeedType)
  | reverseLineFeed
  | backIndex
  | forwardIndex
  | forwardTab (numTabs : ℤ)
  | backwardsTab (numTabs : ℤ)
  | insertCharacter (count : ℤ)
  | deleteCharacter (count : ℤ)
  | insertLine (distance : ℤ)
  | deleteLine (distance : ℤ)
  | insertColumn (distance : ℤ)
  | deleteColumn (distance : ℤ)
  | scrollUp (distance : ℤ)
  | scrollDown (distance : ℤ)
  | setTopBottomScrollingMargins (topMargin bottomMargin : ℕ)
  | setLeftRightScrollingMargins (leftMargin rightMargin : ℕ)
  | setLineRendition (rendition : LineRendition)
  | cursorSaveState
  | cursorRestoreState
  | print (columnEnds : List ℕ)
  | setOriginMode (enable : Bool)
  | setGraphicsRendition (attributes : TextAttribute)
  | designateCharset (termOutput : TerminalOutput τ)

namespace AdaptDispatch

variable {τ : Type*} (d : AdaptDispatch τ)

def step : Op τ → AdaptDispatch τ
  | .move movement => d.move movement
  | .lineFeed lineFeedType => d.lineFeed lineFeedType
  | .reverseLineFeed => d.reverseLineFeed
  | .backIndex => d.backIndex
  | .forwardIndex => d.forwardIndex
  | .forwardTab numTabs => d.forwardTab numTabs
  | .backwardsTab numTabs => d.backwardsTab numTabs
  | .insertCharacter _ | .deleteCharacter _ => d.insertDeleteCharacterHelper
  | .insertLine distance => d.insertDeleteLineHelper distance
  | .deleteLine distance => d.insertDeleteLineHelper (-distance)
  | .insertColumn _ | .deleteColumn _ => d.insertDeleteColumnHelper
  | .scrollUp distance => d.scrollMovement (-distance)
  | .scrollDown distance => d.scrollMovement distance
  | .setTopBottomScrollingMargins topMargin bottomMargin =>
    d.doSetTopBottomScrollingMargins topMargin bottomMargin
  | .setLeftRightScrollingMargins leftMargin rightMargin =>
    d.setLeftRightScrollingMargins leftMargin rightMargin
  | .setLineRendition rendition => d.setLineRendition rendition
  | .cursorSaveState => d.cursorSaveState
  | .cursorRestoreState => d.cursorRestoreState
  | .print columnEnds => d.writeToBuffer columnEnds
  | .setOriginMode enable => { d with originMode := enable }.cursorPosition 1 1
  | .setGraphicsRendition attributes => { d with page.buffer.currentAttributes := attributes }
  | .designateCharset termOutput => { d with termOutput }

/-- A terminal of a size without scrollback. -/
def new (size : Size) (tables : τ) : AdaptDispatch τ where
  pages := .new (.create renditions size) 0 size
  page := ⟨.create renditions size, 0, .first⟩
  savedCursorState := { termOutput := ⟨tables, false⟩ }
  termOutput := ⟨tables, false⟩

end AdaptDispatch

end IntelligentTerminal.Adapter
