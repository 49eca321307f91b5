import IntelligentTerminal.Buffer.TextBuffer
import IntelligentTerminal.Data.RunLength
import IntelligentTerminal.Data.Table

/-!
# Hyperlinks

A cell has a hyperlink through the id in its attribute, and the buffer keeps the URI of each id. When
the first row is recycled, the ids that no other row has are dropped. Which attribute is the current
one is not considered.

`til::hash` of a URI is the parameter `hash`. Rows are read by `TextBuffer.row`, committed or not.

Source: `src/buffer/out/textBuffer.cpp`, lines 539-546, 728-746, 1427-1471 and 2963-3032;
`src/buffer/out/textBuffer.hpp`, lines 346-348; `src/buffer/out/Row.cpp`, lines 547-550 and 960-971;
`src/terminal/adapter/adaptDispatch.cpp`, lines 3532-3550.
-/

namespace IntelligentTerminal.Buffer

/-! ### The attributes of a row -/

namespace ROW

def getHyperlinks (r : ROW) : List UInt16 :=
  ((Run.encode r.attr).map fun run => run.value.hyperlinkId).filter fun id => id ≠ 0

/-- The columns of `ROW::ReplaceAttributes`. -/
def attributeColumns (r : ROW) (beginIndex endIndex : ℤ) : ℕ × ℕ :=
  (r.clampedColumnInclusive beginIndex, r.clampedColumnInclusive endIndex)

/-- `ROW::ReplaceAttributes`; `none` is the exception of `til::basic_rle::replace`. -/
def replaceAttributes (r : ROW) (beginIndex endIndex : ℤ) (newAttr : TextAttribute) : Option ROW :=
  let columns := r.attributeColumns beginIndex endIndex
  (r.attr.replaceValue columns.1 columns.2 newAttr).map fun attr => { r with attr }

end ROW

/-- `_firstRow++` in `TextBuffer::IncrementCircularBuffer`: behind the last row comes the first. -/
def TextBuffer.incrementFirstRow (b : TextBuffer) : TextBuffer :=
  { b with firstRow := if b.firstRow + 1 ≥ b.height then 0 else b.firstRow + 1 }

/-! ### The buffer -/

/-- A text buffer with its hyperlinks: `_currentAttributes`, `_hyperlinkMap`,
`_hyperlinkCustomIdMap` and `_currentHyperlinkId`. -/
structure LinkedBuffer where
  buffer : TextBuffer
  currentAttributes : TextAttribute := {}
  hyperlinkMap : Table UInt16 (List WChar) := ∅
  hyperlinkCustomIdMap : Table (List WChar) UInt16 := ∅
  currentHyperlinkId : UInt16 := 1

namespace LinkedBuffer

/-- `TextBuffer::TextBuffer`. -/
def new (width height : ℕ) (defaultAttributes : TextAttribute) (cursorSize : ℕ) : LinkedBuffer where
  buffer := .new width height defaultAttributes cursorSize
  currentAttributes := defaultAttributes

/-- `TextBuffer::AddHyperlinkToMap`. -/
def addHyperlinkToMap (s : LinkedBuffer) (uri : List WChar) (id : UInt16) : LinkedBuffer :=
  { s with hyperlinkMap := s.hyperlinkMap.insert id uri }

/-- `TextBuffer::GetHyperlinkUriFromId`; `none` is the exception of `std::unordered_map::at`. -/
def getHyperlinkUriFromId (s : LinkedBuffer) (id : UInt16) : Option (List WChar) :=
  s.hyperlinkMap.lookup id

/-- The key of a custom id: the hash of the URI follows it, behind a `%`. -/
def customKey (hash : List WChar → ℕ) (uri id : List WChar) : List WChar :=
  id ++ 0x25 :: (Nat.toDigits 10 (hash uri)).map fun c => c.toNat.toUInt16

/-- `TextBuffer::GetHyperlinkId`. -/
def getHyperlinkId (hash : List WChar → ℕ) (s : LinkedBuffer) (uri id : List WChar) :
    UInt16 × LinkedBuffer :=
  let (numericId, s) :=
    if id.isEmpty then
      (s.currentHyperlinkId, { s with currentHyperlinkId := s.currentHyperlinkId + 1 })
    else
      let newId := customKey hash uri id
      match s.hyperlinkCustomIdMap.lookup newId with
      | some numericId => (numericId, s)
      | none =>
        (s.currentHyperlinkId,
          { s with
            hyperlinkCustomIdMap := s.hyperlinkCustomIdMap.insert newId s.currentHyperlinkId
            currentHyperlinkId := s.currentHyperlinkId + 1 })
  (numericId,
    if s.currentHyperlinkId = 0 then { s with currentHyperlinkId := s.currentHyperlinkId + 1 }
    else s)

/-- `TextBuffer::RemoveHyperlinkFromMap`. -/
def removeHyperlinkFromMap (s : LinkedBuffer) (id : UInt16) : LinkedBuffer :=
  { s with
    hyperlinkMap := s.hyperlinkMap.erase id
    hyperlinkCustomIdMap :=
      match s.hyperlinkCustomIdMap.entries.find? fun customIdPair => customIdPair.2 = id with
      | some customIdPair => s.hyperlinkCustomIdMap.erase customIdPair.1
      | none => s.hyperlinkCustomIdMap }

/-- The ids of the first row that no other row has: what `_PruneHyperlinks` removes. -/
def obsoleteHyperlinks (b : TextBuffer) : List UInt16 :=
  let nextRowRefs := (List.range (b.height - 1)).flatMap fun (i : ℕ) => (b.row (i + 1)).getHyperlinks
  (b.row 0).getHyperlinks.dedup.filter fun id => id ∉ nextRowRefs

/-- `TextBuffer::_PruneHyperlinks`. -/
def pruneHyperlinks (s : LinkedBuffer) : LinkedBuffer :=
  (obsoleteHyperlinks s.buffer).foldl removeHyperlinkFromMap s

/-- `TextBuffer::IncrementCircularBuffer`. -/
def incrementCircularBuffer (s : LinkedBuffer) (fillAttributes : TextAttribute) : LinkedBuffer :=
  let s := s.pruneHyperlinks
  let firstRow := s.buffer.getRow 0
  { s with
    buffer := (firstRow.2.setRow 0 (firstRow.1.reset fillAttributes)).incrementFirstRow }

/-- `TextBuffer::Replace`: the columns that have been given the attribute, or `none` where the row
has been reset by an exception. What `ImageSlice::EraseCells` does to the row is left out. -/
def replace (cwd : CodepointWidthDetector) (s : LinkedBuffer) (y : ℤ) (attributes : TextAttribute)
    (state : RowWriteState) : Option (ℕ × ℕ) × LinkedBuffer :=
  let (r, b) := s.buffer.getRow y
  match r.replaceText cwd state with
  | .error r => (none, { s with buffer := b.setRow y r })
  | .ok (r, state) =>
    match r.replaceAttributes state.columnBegin state.columnEnd attributes with
    | none => (some (0, 0), { s with buffer := b.setRow y r })
    | some r' =>
      (some (r.attributeColumns state.columnBegin state.columnEnd),
        { s with buffer := b.setRow y r' })

/-- `AdaptDispatch::AddHyperlink`. -/
def startHyperlink (hash : List WChar → ℕ) (s : LinkedBuffer) (uri params : List WChar) :
    LinkedBuffer :=
  let (id, s) := s.getHyperlinkId hash uri params
  let s := { s with currentAttributes := { s.currentAttributes with hyperlinkId := id } }
  s.addHyperlinkToMap uri id

/-- `AdaptDispatch::EndHyperlink`. -/
def endHyperlink (s : LinkedBuffer) : LinkedBuffer :=
  { s with currentAttributes := { s.currentAttributes with hyperlinkId := 0 } }

end LinkedBuffer

/-! ### What the cells were written with -/

/-- The URI that each cell was written with, and the one that is started; and how many hyperlinks
have been started. The rows are those of the buffer, from its origin on. -/
structure LinkPage where
  cells : ℤ → ℕ → Option (List WChar) := fun _ _ => none
  current : Option (List WChar) := none
  starts : ℕ := 0

/-- An operation on the buffer. The row that is recycled is filled with the current attributes, or
with others, which have no hyperlink. -/
inductive LinkOp
  | startHyperlink (uri params : List WChar)
  | endHyperlink
  | write (y : ℤ) (state : RowWriteState)
  | incrementCircularBuffer (fillAttributes : Option TextAttribute)

/-- The buffer, and what its cells were written with. -/
structure LinkState where
  linked : LinkedBuffer
  page : LinkPage := {}

namespace LinkState

/-- The row of the page that is written at `y`. -/
def pageRow (s : LinkState) (y : ℤ) : ℤ := y % s.linked.buffer.height

/-- What the cells of the page are after a call to `Replace` at `y`. -/
def writtenCells (s : LinkState) (y : ℤ) (columns : Option (ℕ × ℕ)) : ℤ → ℕ → Option (List WChar) :=
  fun z column =>
    if z = s.pageRow y then
      match columns with
      | none => none
      | some (columnBegin, columnEnd) =>
        if columnBegin ≤ column ∧ column < columnEnd then s.page.current
        else s.page.cells z column
    else s.page.cells z column

/-- The attributes that a recycled row is filled with. -/
def fillWith (s : LinkState) : Option TextAttribute → TextAttribute
  | none => s.linked.currentAttributes
  | some attributes => { attributes with hyperlinkId := 0 }

def step (cwd : CodepointWidthDetector) (hash : List WChar → ℕ) (s : LinkState) : LinkOp → LinkState
  | .startHyperlink uri params =>
    { linked := s.linked.startHyperlink hash uri params
      page := { s.page with current := some uri, starts := s.page.starts + 1 } }
  | .endHyperlink =>
    { linked := s.linked.endHyperlink, page := { s.page with current := none } }
  | .write y state =>
    let written := s.linked.replace cwd y s.linked.currentAttributes state
    { linked := written.2, page := { s.page with cells := s.writtenCells y written.1 } }
  | .incrementCircularBuffer fillAttributes =>
    { linked := s.linked.incrementCircularBuffer (s.fillWith fillAttributes)
      page := { s.page with
        cells := fun z column =>
          if z + 1 = s.linked.buffer.height then
            if fillAttributes.isSome then none else s.page.current
          else s.page.cells (z + 1) column } }

/-- Each id in a cell has an entry, which is the URI that the cell was written with. -/
def NoDangling (s : LinkState) : Prop :=
  ∀ y : ℤ, 0 ≤ y → y < s.linked.buffer.height → ∀ (column : ℕ) (a : TextAttribute),
    (s.linked.buffer.row y).attr[column]? = some a → a.hyperlinkId ≠ 0 →
    ∃ uri, s.linked.getHyperlinkUriFromId a.hyperlinkId = some uri ∧
      s.page.cells y column = some uri

/-- No operation reaches what pruning has removed: cells are not written with an id that has lost its
entry, a row is not filled with the current attributes when that prunes their id, and a start whose
custom id is known does not change the URI of cells that have been written. -/
def KeepsLinks (cwd : CodepointWidthDetector) (hash : List WChar → ℕ) (s : LinkState) : LinkOp → Prop
  | .startHyperlink uri params =>
    params ≠ [] →
    ∀ id, s.linked.hyperlinkCustomIdMap.lookup (LinkedBuffer.customKey hash uri params) = some id →
    ∀ y : ℤ, 0 ≤ y → y < s.linked.buffer.height →
    ∀ a ∈ (s.linked.buffer.row y).attr, a.hyperlinkId = id → id ≠ 0 →
    s.linked.hyperlinkMap.lookup id = some uri
  | .endHyperlink => True
  | .write y state =>
    ∀ columnBegin columnEnd,
    (s.linked.replace cwd y s.linked.currentAttributes state).1 = some (columnBegin, columnEnd) →
    columnBegin < columnEnd → s.linked.currentAttributes.hyperlinkId ≠ 0 →
    s.linked.hyperlinkMap.lookup s.linked.currentAttributes.hyperlinkId ≠ none
  | .incrementCircularBuffer (some _) => True
  | .incrementCircularBuffer none =>
    s.linked.currentAttributes.hyperlinkId ≠ 0 →
    s.linked.hyperlinkMap.lookup s.linked.currentAttributes.hyperlinkId ≠ none ∧
    s.linked.currentAttributes.hyperlinkId ∉ LinkedBuffer.obsoleteHyperlinks s.linked.buffer

end LinkState

end IntelligentTerminal.Buffer
