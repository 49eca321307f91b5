import IntelligentTerminal.Buffer.Grapheme
import IntelligentTerminal.Data.ListSegment
import Mathlib.Data.Int.Init
import Mathlib.Data.Nat.Bitwise

/-!
# Rows of the text buffer

`ROW` stores the text of a line and, for each column, the offset of the text of its glyph. The
offset and the flag that marks the trailing half of a wide glyph share one 16-bit word. The
writers (`ReplaceCharacters`, `ReplaceText`, `CopyTextFrom`) first write the words of the new
glyphs, then move the text behind them and shift the words of the columns to the right, and
only then store the new text (`WriteHelper::Finish`, `ROW::_resizeChars`).

A `uint16_t` is a natural number, narrowed where the source narrows it. `chars` is
`ROW::_chars`, whose size is a capacity: the length of the text is the last word. Storage that
`make_unique_for_overwrite` leaves uninitialised is zero here and is never read. A function
that may throw returns `Except ROW`, the error being the row that the exception leaves behind.

Source: `src/buffer/out/Row.hpp`; `src/buffer/out/Row.cpp`, lines 157-570 (construction,
`Reset`, `CopyFrom`, `WriteCells`, `WriteHelper`), 572-943 (the writers), 1002-1234 (queries).
-/

namespace IntelligentTerminal.Buffer

/-- `gsl::narrow_cast<uint16_t>`. -/
def narrow16 (v : ℤ) : ℕ := (v % 0x10000).toNat

def uint16Max : ℕ := 0xffff

/-- `ROW::CharOffsetsTrailer`. -/
def charOffsetsTrailer : ℕ := 0x8000

/-- `ROW::CharOffsetsMask`. -/
def charOffsetsMask : ℕ := 0x7fff

/-- `til::CoordTypeMax`. -/
def coordTypeMax : ℤ := 0x7fffffff

/-- The offset in a word of `_charOffsets`. -/
def offsetOf (word : ℕ) : ℕ := word &&& charOffsetsMask

/-- `WI_IsFlagSet(word, CharOffsetsTrailer)`. -/
def isTrailer (word : ℕ) : Bool := word &&& charOffsetsTrailer != 0

def clampInt (value lo hi : ℤ) : ℤ := if value < lo then lo else if value ≤ hi then value else hi

/-- `iota_n` on `uint16_t`: `count` successive values from `val` on. -/
def iotaN (count val : ℕ) : List ℕ := (List.range' val count).map fun (v : ℕ) => narrow16 v

structure ROW where
  chars : List WChar
  charOffsets : List ℕ
  attr : RowAttributes
  columnCount : ℕ
  lineRendition : LineRendition := .singleWidth
  wrapForced : Bool := false
  doubleBytePadded : Bool := false
  promptData : Option ScrollbarData := none
  imageSlice : Option ImageSlice := none
deriving DecidableEq

namespace ROW

/-! ### Construction -/

/-- `ROW::ROW`, with `ROW::_init`. -/
def construct (rowWidth : ℕ) (fillAttribute : TextAttribute) : ROW where
  chars := List.replicate rowWidth space
  charOffsets := iotaN (rowWidth + 1) 0
  attr := List.replicate rowWidth fillAttribute
  columnCount := rowWidth

def reset (r : ROW) (attr : TextAttribute) : ROW := construct r.columnCount attr

/-! ### Columns and offsets -/

def clampedColumn (r : ROW) (v : ℤ) : ℕ := (clampInt v 0 (r.columnCount - 1)).toNat

def clampedColumnInclusive (r : ROW) (v : ℤ) : ℕ := (clampInt v 0 r.columnCount).toNat

def word (r : ROW) (col : ℕ) : ℕ := r.charOffsets.getD col 0

/-- `ROW::_charSize`: the last word, flag included. -/
def charSize (r : ROW) : ℕ := r.word r.columnCount

def uncheckedCharOffset (r : ROW) (col : ℕ) : ℕ := offsetOf (r.word col)

def uncheckedIsTrailer (r : ROW) (col : ℕ) : Bool := isTrailer (r.word col)

end ROW

/-- The loop of `ROW::_adjustBackward` on the words `offsets`. -/
def stepBackward (offsets : List ℕ) (column : ℕ) : ℕ :=
  column - ((offsets.take (column + 1)).reverse.takeWhile isTrailer).length

/-- The loop of `ROW::_adjustForward` on the words `offsets`. -/
def stepForward (offsets : List ℕ) (column : ℕ) : ℕ :=
  column + ((offsets.drop column).takeWhile isTrailer).length

namespace ROW

def adjustBackward (r : ROW) (column : ℕ) : ℕ := stepBackward r.charOffsets column

def adjustForward (r : ROW) (column : ℕ) : ℕ := stepForward r.charOffsets column

def adjustToGlyphStart (r : ROW) (column : ℤ) : ℕ := r.adjustBackward (r.clampedColumn column)

def getReadableColumnCount (r : ROW) : ℤ :=
  if r.lineRendition = .singleWidth then r.columnCount - r.doubleBytePadded.toNat
  else (r.columnCount - 2 * r.doubleBytePadded.toNat) / 2

def glyphAt (r : ROW) (column : ℤ) : List WChar :=
  let col := r.clampedColumn column
  let beg := r.uncheckedCharOffset col
  let end' := r.uncheckedCharOffset (r.adjustForward (col + 1))
  (r.chars.drop beg).take (end' - beg)

def dbcsAttrAt (r : ROW) (column : ℤ) : DbcsAttribute :=
  let col := r.clampedColumn column
  if r.uncheckedIsTrailer col then .trailing
  else if r.uncheckedIsTrailer (col + 1) then .leading
  else .single

def getAttrByColumn (r : ROW) (column : ℤ) : TextAttribute :=
  r.attr.getD (r.clampedColumn column) {}

def getText (r : ROW) : List WChar :=
  r.chars.take (r.uncheckedCharOffset r.getReadableColumnCount.toNat)

/-- `ROW::GetLastNonSpaceColumn`: the trailing spaces are counted in units of text. -/
def getLastNonSpaceColumn (r : ROW) : ℤ :=
  r.getReadableColumnCount - (r.getText.reverse.takeWhile (· == space)).length

def measureRight (r : ROW) : ℤ :=
  if r.wrapForced then r.columnCount - r.doubleBytePadded.toNat
  else r.getLastNonSpaceColumn

end ROW

/-! ### The write helper -/

/-- `ROW::WriteHelper`, without the reference to the row. -/
structure WriteHelper where
  chars : List WChar
  colBeg : ℕ
  colLimit : ℕ
  colEnd : ℕ
  colBegDirty : ℕ
  colEndDirty : ℕ := 0
  chBeg : ℕ
  chBegDirty : ℕ
  leadingSpaces : ℕ
  charsConsumed : ℕ := 0

namespace WriteHelper

/-- `ROW::WriteHelper::WriteHelper`. -/
def new (r : ROW) (columnBegin columnLimit : ℤ) (chars : List WChar) : WriteHelper :=
  let colBeg := r.clampedColumnInclusive columnBegin
  let chBegDirty := r.uncheckedCharOffset colBeg
  let colBegDirty := r.adjustBackward colBeg
  let leadingSpaces := colBeg - colBegDirty
  { chars, colBeg, colLimit := r.clampedColumnInclusive columnLimit, colEnd := colBeg,
    colBegDirty, chBeg := narrow16 (chBegDirty + leadingSpaces), chBegDirty, leadingSpaces }

/-- `ROW::WriteHelper::IsValid`. -/
def isValid (h : WriteHelper) : Bool := h.colBeg < h.colLimit && !h.chars.isEmpty

end WriteHelper

/-- The words of a glyph of `width` columns whose text starts at `ch`. -/
def glyphWords (ch width : ℕ) : List ℕ :=
  narrow16 ch :: List.replicate (width - 1) (narrow16 (ch ||| charOffsetsTrailer : ℕ))

/-- The column that the loops which store the words of a glyph at `colEnd` stop at. -/
def glyphEnd (colEnd colEndNew : ℕ) : ℕ := max (colEnd + 1) colEndNew

namespace ROW

/-- `ROW::_resizeChars`: make room for `chEndDirty - chEndDirtyOld` more units and shift the
words from `colEndDirty` on. `none` is the exception of `gsl::narrow`. -/
def resizeChars (r : ROW) (colEndDirty chBegDirty chEndDirty chEndDirtyOld : ℕ) : Option ROW :=
  let diff : ℤ := chEndDirty - chEndDirtyOld
  let currentLength := r.charSize
  let newLength := currentLength + chEndDirty - chEndDirtyOld
  let moved := (r.chars.take currentLength).drop chEndDirtyOld
  let charOffsets :=
    r.charOffsets.take colEndDirty ++
      (r.charOffsets.drop colEndDirty).map fun (word : ℕ) => narrow16 (word + diff)
  if newLength ≤ r.chars.length then
    some { r with chars := r.chars.overwrite chEndDirty moved, charOffsets }
  else
    let minCapacity := min uint16Max (r.chars.length + r.chars.length / 2)
    let newCapacity := max newLength minCapacity
    if newCapacity > uint16Max then none
    else
      let chars := (List.replicate newCapacity 0).overwrite 0 (r.chars.take chBegDirty)
      some { r with chars := chars.overwrite chEndDirty moved, charOffsets }

end ROW

namespace WriteHelper

/-- `ROW::WriteHelper::Finish`, on the row whose words have been written. -/
def finish (h : WriteHelper) (r : ROW) : Option (ROW × WriteHelper) :=
  let colEndDirty := r.adjustForward h.colEndDirty
  let trailingSpaces := colEndDirty - h.colEnd
  let chEndDirtyOld := r.uncheckedCharOffset colEndDirty
  let chEndDirty := h.chBegDirty + h.charsConsumed + h.leadingSpaces + trailingSpaces
  let resized :=
    if chEndDirty ≠ chEndDirtyOld then
      r.resizeChars colEndDirty h.chBegDirty chEndDirty chEndDirtyOld
    else some r
  resized.map fun r =>
    let chars := r.chars.overwrite h.chBeg (h.chars.take h.charsConsumed)
    let chars := chars.overwrite h.chBegDirty (List.replicate h.leadingSpaces space)
    let chars := chars.overwrite (h.chBeg + h.charsConsumed) (List.replicate trailingSpaces space)
    let charOffsets :=
      r.charOffsets.overwrite h.colBegDirty (iotaN h.leadingSpaces h.chBegDirty)
    let charOffsets :=
      charOffsets.overwrite h.colEnd (iotaN trailingSpaces (narrow16 (h.chBeg + h.charsConsumed)))
    let doubleBytePadded :=
      if colEndDirty = r.columnCount then decide (h.colEnd < r.columnCount) else r.doubleBytePadded
    ({ r with chars, charOffsets, doubleBytePadded }, { h with colEndDirty })

/-! ### The writers -/

/-- `ROW::WriteHelper::ReplaceCharacters`. -/
def replaceCharacters (h : WriteHelper) (r : ROW) (width : ℕ) : ROW × WriteHelper :=
  let colEndNew := narrow16 (h.colEnd + width)
  if colEndNew > h.colLimit then (r, { h with colEndDirty := h.colLimit })
  else
    let colEnd := glyphEnd h.colEnd colEndNew
    ({ r with
        charOffsets := r.charOffsets.overwrite h.colEnd (glyphWords h.chBeg (colEnd - h.colEnd)) },
      { h with colEnd, colEndDirty := colEnd, charsConsumed := h.chars.length })

/-- The words that the loop over clusters of `_replaceTextUnicode` writes for the text `it`,
with the column and the offset it stops at and whether it ran into the limit. -/
def clusterLoop (cwd : CodepointWidthDetector) (colLimit : ℕ) :
    ℕ → List WChar → List ℕ → ℕ → ℕ → List ℕ × ℕ × ℕ × Bool
  | 0, _, charOffsets, colEnd, ch => (charOffsets, colEnd, ch, false)
  | fuel + 1, it, charOffsets, colEnd, ch =>
    if it = [] then (charOffsets, colEnd, ch, false)
    else
      let state := cwd.next it
      let width := max 1 state.2
      let colEndNew := narrow16 (colEnd + width)
      if colEndNew > colLimit then (charOffsets, colEnd, ch, true)
      else
        let colNext := glyphEnd colEnd colEndNew
        clusterLoop cwd colLimit fuel (it.drop state.1)
          (charOffsets.overwrite colEnd (glyphWords ch (colNext - colEnd))) colNext (ch + state.1)

/-- The end of `_replaceTextUnicode`: the loop over the clusters of `it`, and its result. -/
def replaceClusters (cwd : CodepointWidthDetector) (h : WriteHelper) (r : ROW)
    (it : List WChar) (colEnd ch : ℕ) : ROW × WriteHelper :=
  match clusterLoop cwd h.colLimit it.length it r.charOffsets colEnd ch with
  | (charOffsets, colEnd, ch, limited) =>
    ({ r with charOffsets },
      { h with
        colEnd
        colEndDirty := if limited then h.colLimit else colEnd
        charsConsumed := ch - h.chBeg })

/-- `ROW::WriteHelper::_replaceTextUnicode`, called after `ascii` units of ASCII. The first
branch checks whether the text joins the glyph before it. The second backs up one unit, which
may be the start of a cluster with the unit that follows. -/
def replaceTextUnicode (cwd : CodepointWidthDetector) (h : WriteHelper) (r : ROW) (ascii : ℕ) :
    ROW × WriteHelper :=
  if ascii = 0 then
    let colPrev := if h.colBeg = 0 then 0 else r.adjustBackward (h.colBeg - 1)
    let chPrev := r.uncheckedCharOffset colPrev
    let charsPrev := (r.chars.drop chPrev).take (h.chBeg - chPrev)
    let state := cwd.join charsPrev h.chars
    if 0 < state.1 then
      let width := max 1 state.2
      let colEndNew := narrow16 (colPrev + width)
      let h := { h with colBegDirty := colPrev, colEnd := colPrev }
      if colEndNew > h.colLimit then (r, { h with colEndDirty := h.colLimit, charsConsumed := 0 })
      else
        let colNext := glyphEnd colPrev colEndNew
        replaceClusters cwd h
          { r with
            charOffsets := r.charOffsets.overwrite colPrev (glyphWords chPrev (colNext - colPrev)) }
          (h.chars.drop state.1) colNext (h.chBeg + state.1)
    else replaceClusters cwd h r h.chars h.colEnd h.chBeg
  else
    replaceClusters cwd h r (h.chars.drop (ascii - 1)) (h.colEnd + (ascii - 1))
      (h.chBeg + (ascii - 1))

/-- The number of units that the ASCII loop of `ReplaceText` passes over: those before the
first one that is not ASCII, and at most one for each column. -/
def asciiCount (columns : ℕ) (chars : List WChar) : ℕ :=
  ((chars.take columns).takeWhile isAscii).length

/-- `ROW::WriteHelper::ReplaceText`. -/
def replaceText (cwd : CodepointWidthDetector) (h : WriteHelper) (r : ROW) : ROW × WriteHelper :=
  let ascii := asciiCount (h.colLimit - h.colBeg) h.chars
  let r := { r with
    charOffsets := r.charOffsets.overwrite h.colEnd (iotaN ascii h.chBeg) }
  if ascii < min h.chars.length (h.colLimit - h.colBeg) then h.replaceTextUnicode cwd r ascii
  else
    (r, { h with
      colEnd := h.colEnd + ascii, colEndDirty := h.colEnd + ascii, charsConsumed := ascii })

/-- A word of `_copyOffsets`. -/
def copyOffset (offset ch : ℕ) : ℕ :=
  narrow16 (offsetOf ch + offset) ||| (ch &&& charOffsetsTrailer)

/-- `ROW::WriteHelper::CopyTextFrom`. -/
def copyTextFrom (h : WriteHelper) (r : ROW) (charOffsets : List ℕ) : ROW × WriteHelper :=
  let colEndDirtyInput := min (narrow16 (h.colLimit - h.colBeg)) (charOffsets.length - 1)
  let colEndInput := stepBackward charOffsets colEndDirtyInput
  let baseOffset := charOffsets.getD 0 0
  let endOffset := charOffsets.getD colEndInput 0
  let inToOutOffset := narrow16 (h.chBeg - baseOffset)
  let words := (charOffsets.take colEndInput).map (copyOffset inToOutOffset)
  ({ r with charOffsets := r.charOffsets.overwrite h.colEnd words },
    { h with
      colEnd := h.colEnd + colEndInput
      colEndDirty := narrow16 (h.colBeg + colEndDirtyInput)
      charsConsumed := endOffset - baseOffset })

end WriteHelper

structure RowWriteState where
  text : List WChar
  columnBegin : ℤ := 0
  columnLimit : ℤ := coordTypeMax
  columnEnd : ℕ := 0
  columnBeginDirty : ℕ := 0
  columnEndDirty : ℕ := 0
deriving DecidableEq

/-- `struct RowCopyTextFromState`, without the reference to the source. -/
structure RowCopyTextFromState where
  columnBegin : ℤ := 0
  columnLimit : ℤ := coordTypeMax
  sourceColumnBegin : ℤ := 0
  sourceColumnLimit : ℤ := coordTypeMax
  columnEnd : ℕ := 0
  columnBeginDirty : ℕ := 0
  columnEndDirty : ℕ := 0
  sourceColumnEnd : ℕ := 0
deriving DecidableEq

namespace ROW

/-- What a writer leaves behind when it throws: the row it was called on, reset. -/
def thrown (r : ROW) : ROW := r.reset {}

def replaceCharacters (r : ROW) (columnBegin : ℤ) (width : ℕ) (chars : List WChar) :
    Except ROW ROW :=
  let h := WriteHelper.new r columnBegin r.columnCount chars
  if !h.isValid then .ok r
  else
    let (r', h) := h.replaceCharacters r width
    match h.finish r' with
    | none => .error r.thrown
    | some (r', _) => .ok r'

def replaceText (r : ROW) (cwd : CodepointWidthDetector) (state : RowWriteState) :
    Except ROW (ROW × RowWriteState) :=
  let h := WriteHelper.new r state.columnBegin state.columnLimit state.text
  if !h.isValid then
    .ok (r, { state with
      columnEnd := h.colBeg, columnBeginDirty := h.colBeg, columnEndDirty := h.colBeg })
  else
    let (r', h) := h.replaceText cwd r
    match h.finish r' with
    | none => .error r.thrown
    | some (r', h) =>
      let text := state.text.drop h.charsConsumed
      .ok (r', { state with
        text
        columnEnd := if text.isEmpty then h.colEnd else h.colLimit
        columnBeginDirty := h.colBegDirty
        columnEndDirty := h.colEndDirty })

/-- `ROW::CopyTextFrom`; `isSelf` is `this == &state.source`. -/
def copyTextFrom (r source : ROW) (isSelf : Bool) (state : RowCopyTextFromState) :
    Except ROW (ROW × RowCopyTextFromState) :=
  let sourceColBeg := source.clampedColumnInclusive state.sourceColumnBegin
  let sourceColLimit := source.clampedColumnInclusive state.sourceColumnLimit
  let charOffsets :=
    if sourceColBeg < sourceColLimit then
      (source.charOffsets.drop sourceColBeg).take (sourceColLimit - sourceColBeg + 1)
    else []
  let beg := offsetOf (charOffsets.headD 0)
  let end' := offsetOf (charOffsets.getLastD 0)
  let chars := (source.chars.drop beg).take (end' - beg)
  let h := WriteHelper.new r state.columnBegin state.columnLimit chars
  if !h.isValid || isSelf || charOffsets.length < 2 || isTrailer (charOffsets.headD 0) then
    .ok (r, { state with
      columnEnd := h.colBeg, columnBeginDirty := h.colBeg, columnEndDirty := h.colBeg
      sourceColumnEnd := source.columnCount })
  else
    let (r', h) := h.copyTextFrom r charOffsets
    match h.finish r' with
    | none => .error r.thrown
    | some (r', h) =>
      .ok (r', { state with
        columnEnd := if h.charsConsumed = chars.length then h.colEnd else h.colLimit
        columnBeginDirty := h.colBegDirty
        columnEndDirty := h.colEndDirty
        sourceColumnEnd := sourceColBeg + h.colEnd - h.colBeg })

def copyFrom (r source : ROW) (isSelf : Bool := false) : Except ROW ROW :=
  (ROW.copyTextFrom
    { r with lineRendition := source.lineRendition, wrapForced := source.wrapForced } source isSelf
    { sourceColumnLimit := source.getReadableColumnCount }).map fun (r, _) =>
      { r with attr := source.attr.resizeTrailingExtent r.columnCount }

def clearCell (r : ROW) (column : ℤ) : Except ROW ROW := r.replaceCharacters column 1 [space]

def setWrapForced (r : ROW) (wrap : Bool) : ROW := { r with wrapForced := wrap }

def setDoubleBytePadded (r : ROW) (padded : Bool) : ROW := { r with doubleBytePadded := padded }

def setScrollbarData (r : ROW) (data : Option ScrollbarData) : ROW := { r with promptData := data }

end ROW

/-! ### Writing cells -/

structure OutputCellView where
  chars : List WChar
  dbcsAttr : DbcsAttribute
  textAttr : TextAttribute
  textAttrBehavior : TextAttributeBehavior

/-- `class OutputCellIterator`, as `WriteCells` uses it: what it shows after `distance`
increments. -/
structure OutputCellIterator where
  view : ℕ → OutputCellView
  valid : ℕ → Bool
  position : ℕ → ℕ
  distance : ℕ := 0

namespace OutputCellIterator

/-- `OutputCellIterator::operator*`. -/
def cell (it : OutputCellIterator) : OutputCellView := it.view it.distance

/-- `OutputCellIterator::operator bool`. -/
def isValid (it : OutputCellIterator) : Bool := it.valid it.distance

/-- `OutputCellIterator::operator++`. -/
def next (it : OutputCellIterator) : OutputCellIterator := { it with distance := it.distance + 1 }

end OutputCellIterator

/-- The local variables of `ROW::WriteCells`. -/
structure WriteCellsState where
  row : ROW
  it : OutputCellIterator
  currentColor : TextAttribute
  colorUses : ℕ := 0
  colorStarts : ℕ
  currentIndex : ℕ

namespace WriteCellsState

/-- The first part of the loop body of `ROW::WriteCells`: the color of the cell. -/
def fillColor (s : WriteCellsState) : Except ROW WriteCellsState :=
  if s.it.cell.textAttrBehavior = .current then .ok s
  else if s.currentColor = s.it.cell.textAttr then
    .ok { s with colorUses := narrow16 (s.colorUses + 1) }
  else
    match s.row.attr.replaceValue s.colorStarts s.currentIndex s.currentColor with
    | none => .error s.row
    | some attr =>
      .ok { s with
        row := { s.row with attr }
        currentColor := s.it.cell.textAttr
        colorUses := 1
        colorStarts := s.currentIndex }

/-- The part of the loop body of `ROW::WriteCells` that writes the text of the cell. -/
def writeText (finalColumnInRow : ℕ) (s : WriteCellsState) : Except ROW WriteCellsState :=
  match s.it.cell.dbcsAttr with
  | .leading =>
    if s.currentIndex = finalColumnInRow then
      (s.row.clearCell s.currentIndex).map fun row => { s with row := row.setDoubleBytePadded true }
    else
      (s.row.replaceCharacters s.currentIndex 2 s.it.cell.chars).map fun row =>
        { s with row, it := s.it.next }
  | .trailing =>
    if s.currentIndex = 0 then
      (s.row.clearCell s.currentIndex).map fun row => { s with row, it := s.it.next }
    else if s.it.position s.it.distance = 0 then
      (s.row.replaceCharacters (s.currentIndex - 1) 2 s.it.cell.chars).map fun row =>
        { s with row, it := s.it.next }
    else .ok { s with it := s.it.next }
  | .single =>
    (s.row.replaceCharacters s.currentIndex 1 s.it.cell.chars).map fun row =>
      { s with row, it := s.it.next }

/-- The second part of the loop body of `ROW::WriteCells`: the text of the cell, and the wrap of
the row at its last column. -/
def fillText (wrap : Option Bool) (finalColumnInRow : ℕ) (s : WriteCellsState) :
    Except ROW WriteCellsState :=
  if s.it.cell.textAttrBehavior = .storedOnly then .ok { s with it := s.it.next }
  else
    (s.writeText finalColumnInRow).map fun s =>
      match wrap with
      | some w =>
        if s.currentIndex = finalColumnInRow then { s with row := s.row.setWrapForced w } else s
      | none => s

/-- The loop of `ROW::WriteCells`, for at most `fuel` cells. -/
def loop (wrap : Option Bool) (finalColumnInRow : ℕ) :
    ℕ → WriteCellsState → Except ROW WriteCellsState
  | 0, s => .ok s
  | fuel + 1, s =>
    if s.it.isValid ∧ s.currentIndex ≤ finalColumnInRow then do
      let s ← s.fillColor
      let s ← s.fillText wrap finalColumnInRow
      loop wrap finalColumnInRow fuel { s with currentIndex := narrow16 (s.currentIndex + 1) }
    else .ok s

end WriteCellsState

/-- `ROW::WriteCells`. The loop visits each column at most once, so `size()` many rounds are
enough unless `limitRight` is negative, which the checks at the start let pass. -/
def ROW.writeCells (r : ROW) (fuel : ℕ) (it : OutputCellIterator) (columnBegin : ℤ)
    (wrap : Option Bool) (limitRight : Option ℤ) : Except ROW (ROW × OutputCellIterator) := do
  if columnBegin ≥ r.columnCount ∨ limitRight.getD 0 ≥ r.columnCount then throw r
  let finalColumnInRow := narrow16 (limitRight.getD (r.columnCount - 1))
  let colorStarts := narrow16 columnBegin
  let s ← WriteCellsState.loop wrap finalColumnInRow fuel
    { row := r, it, currentColor := it.cell.textAttr, colorStarts, currentIndex := colorStarts }
  if s.colorUses = 0 then pure (s.row, s.it)
  else
    match s.row.attr.replaceValue s.colorStarts s.currentIndex s.currentColor with
    | none => throw s.row
    | some attr => pure ({ s.row with attr }, s.it)

end IntelligentTerminal.Buffer
