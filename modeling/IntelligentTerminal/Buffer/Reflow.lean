import IntelligentTerminal.Buffer.TextBuffer

/-!
# Reflowing a text buffer

`TextBuffer::Reflow` copies the rows of a buffer into a buffer of another size. The text of a row
that was wrapped continues the text of the row before; a row that becomes full is wrapped when
there is more to write.

The loop that copies a row need not end in general (a wide glyph and a new width of one column),
so it runs on fuel.

Source: `src/buffer/out/textBuffer.cpp`, lines 2718-2957.
-/

namespace IntelligentTerminal.Buffer

structure PositionInformation where
  mutableViewportTop : ℤ
  visibleViewportTop : ℤ
deriving DecidableEq

/-- Why `TextBuffer::Reflow` does not return. -/
inductive ReflowError
  | threw
  | outOfFuel
deriving DecidableEq

/-- The buffers and the local variables of `TextBuffer::Reflow`. -/
structure ReflowState where
  oldBuffer : TextBuffer
  newBuffer : TextBuffer
  oldY : ℤ := 0
  oldX : ℤ := 0
  newY : ℤ := 0
  newX : ℤ := 0
  newYLimit : ℤ := coordTypeMax
  newCursorPos : Point := {}
  mutableViewportTop : ℤ := coordTypeMax
  visibleViewportTop : ℤ := coordTypeMax
  positionInfo : Option PositionInformation := none

namespace ReflowState

/-- Stores into the row at `newY`. -/
def setNewRow (s : ReflowState) (r : ROW) : ReflowState :=
  { s with newBuffer := (s.newBuffer.getRow s.newY).2.setRow s.newY r }

/-- The row at `newY`. -/
def newRow (s : ReflowState) : ROW := (s.newBuffer.getRow s.newY).1

/-- Notes where the rows that the caller asked for have gone. -/
def notePosition (s : ReflowState) : ReflowState :=
  let s :=
    if s.oldY ≥ s.mutableViewportTop then
      { s with
        positionInfo := s.positionInfo.map fun p => { p with mutableViewportTop := s.newY }
        mutableViewportTop := coordTypeMax }
    else s
  if s.oldY ≥ s.visibleViewportTop then
    { s with
      positionInfo := s.positionInfo.map fun p => { p with visibleViewportTop := s.newY }
      visibleViewportTop := coordTypeMax }
  else s

/-- A new line. -/
def newline (s : ReflowState) : ReflowState := { s with newX := 0, newY := s.newY + 1 }

/-! ### A row with a rendition of its own -/

/-- Copies a row that is not of single width: it is truncated. -/
def copyWholeRow (s : ReflowState) (oldRow : ROW) (oldCursorPos : Point) :
    Except ReflowError ReflowState :=
  let s := if s.newX ≠ 0 then s.newline else s
  let newRow :=
    if s.newY ≥ s.newBuffer.height then s.newRow.reset s.newBuffer.initialAttributes else s.newRow
  match newRow.copyFrom oldRow false with
  | .error _ => .error .threw
  | .ok newRow =>
    let s := s.setNewRow (newRow.setWrapForced false)
    let s :=
      if s.oldY = oldCursorPos.y then
        { s with newCursorPos := { x := newRow.adjustToGlyphStart oldCursorPos.x, y := s.newY } }
      else s
    let s := s.notePosition
    .ok { s with newY := s.newY + 1 }

/-! ### A row of single width -/

/-- Wraps the new row when it is full. -/
def wrap (s : ReflowState) : ReflowState :=
  if s.newX ≥ s.newBuffer.width then (s.setNewRow (s.newRow.setWrapForced true)).newline else s

def copyAttributes (s : ReflowState) (oldRow newRow : ROW) : Option RowAttributes :=
  let attributes := oldRow.attr.slice (narrow16 s.oldX) oldRow.attr.length
  (newRow.attr.replace (narrow16 s.newX) newRow.attr.length attributes).map fun attr =>
    attr.resizeTrailingExtent (narrow16 s.newBuffer.width)

/-- Puts the cursor where its cell has gone. No row may be written a second time that comes
`_height` rows behind it. -/
def noteCursor (s : ReflowState) (newRow : ROW) (oldCursorPos : Point) : ReflowState :=
  if s.oldY = oldCursorPos.y ∧ oldCursorPos.x ≥ s.oldX then
    { s with
      newCursorPos :=
        { x := newRow.adjustToGlyphStart (oldCursorPos.x - s.oldX + s.newX), y := s.newY }
      newYLimit := s.newY + s.newBuffer.height }
  else s

/-- Copies text, images and attributes of `oldRow` into the new row. -/
def copyText (s : ReflowState) (oldRow : ROW) (oldRowLimit : ℤ) (oldCursorPos : Point) :
    Except ReflowError ReflowState :=
  match s.newRow.copyTextFrom oldRow false
      { columnBegin := s.newX, sourceColumnBegin := s.oldX, sourceColumnLimit := oldRowLimit } with
  | .error _ => .error .threw
  | .ok (newRow, state) =>
    let newRow := if s.oldX = 0 then { newRow with imageSlice := oldRow.imageSlice } else newRow
    match s.copyAttributes oldRow newRow with
    | none => .error .threw
    | some attr =>
      let newRow := { newRow with attr }
      let s := ((s.setNewRow newRow).noteCursor newRow oldCursorPos).notePosition
      .ok { s with oldX := state.sourceColumnEnd, newX := state.columnEnd }

def copyLoop (oldRow : ROW) (oldRowLimit : ℤ) (oldCursorPos : Point) :
    ℕ → ReflowState → Except ReflowError ReflowState
  | 0, _ => .error .outOfFuel
  | fuel + 1, s =>
    let s := s.wrap
    if s.newY ≥ s.newBuffer.height ∧ s.newX = 0 ∧ s.newY ≥ s.newYLimit then .ok s
    else
      let s :=
        if s.newY ≥ s.newBuffer.height ∧ s.newX = 0 then
          s.setNewRow (s.newRow.reset s.newBuffer.initialAttributes)
        else s
      (s.copyText oldRow oldRowLimit oldCursorPos).bind fun s =>
        if s.oldX < oldRowLimit then copyLoop oldRow oldRowLimit oldCursorPos fuel s else .ok s

/-- How much of `oldRow` is copied: the text, and what is in front of the cursor. -/
def oldRowLimit (s : ReflowState) (oldRow : ROW) (oldCursorPos : Point) : ℤ :=
  if s.oldY = oldCursorPos.y then max oldRow.measureRight (oldCursorPos.x + 1)
  else oldRow.measureRight

/-- Moves the mark of `oldRow` to the new row. -/
def copyMark (s : ReflowState) (oldRow : ROW) : ReflowState :=
  if oldRow.promptData.isSome then s.setNewRow (s.newRow.setScrollbarData oldRow.promptData) else s

/-- Copies a row of single width. -/
def copyLine (fuel : ℕ) (s : ReflowState) (oldRow : ROW) (oldCursorPos : Point) :
    Except ReflowError ReflowState :=
  (copyLoop oldRow (s.oldRowLimit oldRow oldCursorPos) oldCursorPos fuel
      { s.copyMark oldRow with oldX := 0 }).map fun s =>
    if oldRow.wrapForced then s else s.newline

/-- The body of the loop over the old rows. -/
def copyRow (fuel : ℕ) (s : ReflowState) (oldCursorPos : Point) : Except ReflowError ReflowState :=
  let (oldRow, oldBuffer) := s.oldBuffer.getRow s.oldY
  let s := { s with oldBuffer }
  (if oldRow.lineRendition = .singleWidth then copyLine fuel s oldRow oldCursorPos
    else s.copyWholeRow oldRow oldCursorPos).map fun s => { s with oldY := s.oldY + 1 }

/-- The loop over the old rows; at most `count` are left. -/
def copyRows (fuel : ℕ) (oldCursorPos : Point) :
    ℕ → ReflowState → Except ReflowError ReflowState
  | 0, s => .ok s
  | count + 1, s =>
    if s.newY < s.newYLimit then
      (s.copyRow fuel oldCursorPos).bind fun s => copyRows fuel oldCursorPos count s
    else .ok s

/-! ### The rest -/

/-- Copies the attributes of an old row to the row at `newY`. -/
def copyRestRow (s : ReflowState) : ReflowState :=
  let attr := (s.oldBuffer.getRow s.oldY).1.attr.resizeTrailingExtent (narrow16 s.newBuffer.width)
  { s with
    oldBuffer := (s.oldBuffer.getRow s.oldY).2
    newBuffer := (s.newBuffer.getRow s.newY).2.setRow s.newY { s.newRow with attr }
    oldY := s.oldY + 1
    newY := s.newY + 1 }

/-- The loop that copies attributes below the last text; at most `count` rows are left. -/
def copyRest : ℕ → ReflowState → ReflowState
  | 0, s => s
  | count + 1, s => if s.newY < s.newBuffer.height then copyRest count s.copyRestRow else s

/-- The first row of a new buffer that was written to more than once, and its cursor. -/
def rotate (s : ReflowState) : ReflowState :=
  if s.newY > s.newBuffer.height then
    let firstRow := s.newY.tmod s.newBuffer.height
    { s with
      newBuffer := { s.newBuffer with firstRow }
      newCursorPos := { s.newCursorPos with
        y := (s.newCursorPos.y - firstRow + s.newBuffer.height).tmod s.newBuffer.height } }
  else s

end ReflowState

/-- `TextBuffer::Reflow`: the old buffer, with the rows committed that it has looked at, the new
buffer and the positions. -/
def TextBuffer.reflow (fuel : ℕ) (oldBuffer newBuffer : TextBuffer)
    (lastCharacterViewport : Option Viewport) (positionInfo : Option PositionInformation) :
    Except ReflowError (TextBuffer × TextBuffer × Option PositionInformation) :=
  let oldCursorPos : Point :=
    { x := clampInt oldBuffer.cursor.position.x 0 (oldBuffer.width - 1)
      y := clampInt oldBuffer.cursor.position.y 0 (oldBuffer.height - 1) }
  let (lastCharacter, oldBuffer) := oldBuffer.getLastNonSpaceCharacter lastCharacterViewport
  let oldHeight := max lastCharacter.y oldCursorPos.y + 1
  (ReflowState.copyRows fuel oldCursorPos oldHeight.toNat
    { oldBuffer, newBuffer, positionInfo
      mutableViewportTop := (positionInfo.map (·.mutableViewportTop)).getD coordTypeMax
      visibleViewportTop := (positionInfo.map (·.visibleViewportTop)).getD coordTypeMax }).map
    fun s =>
      let s := if s.newX ≠ 0 then s.newline else s
      let initializedRowsEnd : ℤ := s.oldBuffer.estimateOffsetOfLastCommittedRow + 1
      let s := (ReflowState.copyRest (initializedRowsEnd - s.oldY).toNat s).rotate
      (s.oldBuffer,
        { s.newBuffer with
          cursor := { position := s.newCursorPos, size := s.oldBuffer.cursor.size } },
        s.positionInfo)

end IntelligentTerminal.Buffer
