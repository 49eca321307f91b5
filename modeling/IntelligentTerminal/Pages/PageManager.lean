import IntelligentTerminal.Buffer.Attributes
import Mathlib

/-!
# Pages of the terminal

The page manager keeps the visible page in the main buffer and every other page in a backing
buffer of its own. To make another page visible it copies the rows of the visible page into its
backing buffer and those of the other page into the main buffer; the cursor and the attributes
follow the active page, which may be a different one.

A row is of any type, with the operations of `ROW` that the pages use as parameters. A copy is
taken to be faithful in what is observed of a row.

Source: `src/terminal/adapter/PageManager.cpp`; `src/terminal/adapter/PageManager.hpp`;
`src/buffer/out/cursor.cpp`, lines 96-107 and 179-188; `src/buffer/out/textBuffer.cpp`,
lines 191-207, 275-278 and 870-882.
-/

namespace IntelligentTerminal.Pages

open IntelligentTerminal.Buffer (TextAttribute)

variable {ρ γ : Type*}

/-! ### Buffers -/

/-- `til::point`. -/
structure Point where
  x : ℤ := 0
  y : ℤ := 0
deriving DecidableEq

/-- `til::size`. -/
structure Size where
  width : ℕ
  height : ℕ
deriving DecidableEq

inductive CursorType
  | legacy
  | verticalBar
  | underscore
  | emptyBox
  | fullBox
  | doubleUnderscore
deriving DecidableEq

structure Cursor where
  position : Point := {}
  coordDelayedAt : Option Point := none
  size : ℕ := 0
  cursorType : CursorType := .legacy
  isVisible : Bool := true
  isBlinking : Bool := true
  isDouble : Bool := false
deriving DecidableEq

def Cursor.copyProperties (cursor other : Cursor) : Cursor :=
  { cursor with
    position := other.position
    coordDelayedAt := other.coordDelayedAt
    size := other.size
    cursorType := other.cursorType
    isVisible := other.isVisible
    isBlinking := other.isBlinking
    isDouble := other.isDouble }

/-- `Cursor::SetPosition`, which resets the delayed wrap. -/
def Cursor.setPosition (cursor : Cursor) (position : Point) : Cursor :=
  { cursor with coordDelayedAt := none, position }

/-- `class TextBuffer`, with its rows in logical order. -/
structure PageBuffer (ρ : Type*) where
  size : Size
  rows : ℕ → ρ
  currentAttributes : TextAttribute := {}
  cursor : Cursor := {}

namespace PageBuffer

/-- `TextBuffer::_getRow`: the row at an offset, which wraps at the height. -/
def row (b : PageBuffer ρ) (y : ℕ) : ρ := b.rows (y % b.size.height)

/-- Writes through `TextBuffer::_getRow`. -/
def setRow (b : PageBuffer ρ) (y : ℕ) (row : ρ) : PageBuffer ρ :=
  { b with rows := Function.update b.rows (y % b.size.height) row }

end PageBuffer

/-- What the pages use of a row, and of a buffer that is resized. -/
structure RowOps (ρ : Type*) where
  /-- A row of a new buffer of a width. -/
  blank : ℕ → ρ
  /-- `ROW::CopyFrom` with `ImageSlice::CopyRow`: the destination first. -/
  copyFrom : ρ → ρ → ρ
  /-- `TextBuffer::ResizeTraditional`, which a page of a fixed size does not reach. -/
  resizeTraditional : PageBuffer ρ → Size → PageBuffer ρ

/-- A copied row shows what its source shows. -/
structure RowOps.Faithful (ops : RowOps ρ) (contents : ρ → γ) : Prop where
  copyFrom : ∀ dst src, contents (ops.copyFrom dst src) = contents src

namespace PageBuffer

variable (ops : RowOps ρ)

/-- `TextBuffer::CopyRow`. -/
def copyRow (src : PageBuffer ρ) (srcRow dstRow : ℕ) (dst : PageBuffer ρ) : PageBuffer ρ :=
  dst.setRow dstRow (ops.copyFrom (dst.row dstRow) (src.row srcRow))

/-- The loops of `MoveTo` that copy a page, from the first row on. -/
def copyRows (src : PageBuffer ρ) (srcTop dstTop : ℕ) (dst : PageBuffer ρ) : ℕ → PageBuffer ρ
  | 0 => dst
  | i + 1 => src.copyRow ops (srcTop + i) (dstTop + i) (copyRows src srcTop dstTop dst i)

/-- A buffer as `_getBuffer` creates it: without scrollback, and with a cursor of size 0. -/
def create (size : Size) : PageBuffer ρ := { size, rows := fun _ => ops.blank size.width }

end PageBuffer

/-! ### The page manager -/

/-- A number of a page: from 1 to `MAX_PAGES`. -/
abbrev PageNumber : Type := {number : ℤ // 1 ≤ number ∧ number ≤ 6}

namespace PageNumber

def first : PageNumber := ⟨1, by decide⟩

/-- `std::min(std::max(pageNumber, 1), MAX_PAGES)`. -/
def clamp (number : ℤ) : PageNumber :=
  ⟨min (max number 1) 6, le_min (le_max_right _ _) (by decide), min_le_right _ _⟩

theorem clamp_val (n : PageNumber) : clamp n.val = n := by
  obtain ⟨number, hlower, hupper⟩ := n
  exact Subtype.ext (by simp only [clamp]; omega)

end PageNumber

/-- `class PageManager` with what `ITerminalApi::GetBufferAndViewport` gives it. -/
structure PageState (ρ : Type*) where
  visibleBuffer : PageBuffer ρ
  visibleTop : ℕ
  pageSize : Size
  isMainBuffer : Bool
  activePageNumber : PageNumber
  visiblePageNumber : PageNumber
  buffers : PageNumber → Option (PageBuffer ρ)

/-- `class Page`; the viewport has the size of the page. -/
structure Page (ρ : Type*) where
  buffer : PageBuffer ρ
  top : ℕ
  number : PageNumber

namespace Page

def row (p : Page ρ) (i : ℕ) : ρ := p.buffer.row (p.top + i)

/-- The position of the cursor relative to the page. -/
def cursorPosition (p : Page ρ) : Point :=
  ⟨p.buffer.cursor.position.x, p.buffer.cursor.position.y - p.top⟩

end Page

/-- The two places of a page: the main buffer and the backing buffer of its number. -/
inductive BufferRef
  | visible
  | backing (number : PageNumber)
deriving DecidableEq

namespace PageState

variable (ops : RowOps ρ)

/-- What `PageManager::_getBuffer` returns. -/
def backingBuffer (s : PageState ρ) (number : PageNumber) : PageBuffer ρ :=
  match s.buffers number with
  | none => .create ops s.pageSize
  | some buffer =>
    if buffer.size ≠ s.pageSize then ops.resizeTraditional buffer s.pageSize else buffer

/-- Stores a backing buffer. -/
def setBacking (s : PageState ρ) (number : PageNumber) (buffer : PageBuffer ρ) : PageState ρ :=
  { s with buffers := Function.update s.buffers number (some buffer) }

/-- `PageManager::_getBuffer`, which stores the buffer that it returns. -/
def getBuffer (s : PageState ρ) (number : PageNumber) : PageBuffer ρ × PageState ρ :=
  (s.backingBuffer ops number, s.setBacking number (s.backingBuffer ops number))

/-- `PageManager::Get`. -/
def get (s : PageState ρ) (pageNumber : ℤ) : Page ρ × PageState ρ :=
  let requestedPageNumber := PageNumber.clamp pageNumber
  if !s.isMainBuffer then (⟨s.visibleBuffer, s.visibleTop, .first⟩, s)
  else if requestedPageNumber = s.visiblePageNumber then
    (⟨s.visibleBuffer, s.visibleTop, s.visiblePageNumber⟩, s)
  else
    let (pageBuffer, s) := s.getBuffer ops requestedPageNumber
    (⟨pageBuffer, 0, requestedPageNumber⟩, s)

/-- `PageManager::ActivePage`. -/
def activePage (s : PageState ρ) : Page ρ × PageState ρ := s.get ops s.activePageNumber.val

/-- The buffer at a place, as `MoveTo` takes a reference to it. -/
def deref (s : PageState ρ) : BufferRef → PageBuffer ρ × PageState ρ
  | .visible => (s.visibleBuffer, s)
  | .backing number => s.getBuffer ops number

/-- Writes through a reference. -/
def assign (s : PageState ρ) (buffer : PageBuffer ρ) : BufferRef → PageState ρ
  | .visible => { s with visibleBuffer := buffer }
  | .backing number => s.setBacking number buffer

/-- The first part of `MoveTo`: the visible page is swapped out and the new one is swapped in. -/
def swapVisible (s : PageState ρ) (newPageNumber : PageNumber) : PageState ρ :=
  let (newBuffer, s) := s.getBuffer ops newPageNumber
  let (saveBuffer, s) := s.getBuffer ops s.visiblePageNumber
  let saveBuffer := s.visibleBuffer.copyRows ops s.visibleTop 0 saveBuffer s.pageSize.height
  let s := s.setBacking s.visiblePageNumber saveBuffer
  let visibleBuffer := newBuffer.copyRows ops 0 s.visibleTop s.visibleBuffer s.pageSize.height
  { s with visibleBuffer, visiblePageNumber := newPageNumber }

/-- The first row of the page at a place: `oldTop` and `newTop` of `MoveTo`. -/
def refTop (s : PageState ρ) : BufferRef → ℕ
  | .visible => s.visibleTop
  | .backing _ => 0

/-- The place of a page; that of the new page is `newBuffer` of `MoveTo`. -/
def place (s : PageState ρ) (number : PageNumber) : BufferRef :=
  if number = s.visiblePageNumber then .visible else .backing number

/-- `oldBuffer` of `MoveTo`. -/
def oldRef (s : PageState ρ) (wasVisible : Bool) : BufferRef :=
  if wasVisible then .visible else .backing s.activePageNumber

/-- `MoveTo` copies the cursor and the attributes between two places, if they are not one. -/
def copyProperties (s : PageState ρ) (oldRef newRef : BufferRef) : PageState ρ :=
  let (oldBuffer, s) := s.deref ops oldRef
  let (newBuffer, s) := s.deref ops newRef
  if oldRef ≠ newRef then
    let position := oldBuffer.cursor.position
    let position := { position with y := position.y - s.refTop oldRef + s.refTop newRef }
    s.assign
      { newBuffer with
        currentAttributes := oldBuffer.currentAttributes
        cursor := (newBuffer.cursor.copyProperties oldBuffer.cursor).setPosition position }
      newRef
  else s

/-- Hides the cursor of the main buffer. -/
def hideVisibleCursor (s : PageState ρ) : PageState ρ :=
  { s with visibleBuffer := { s.visibleBuffer with
      cursor := { s.visibleBuffer.cursor with isVisible := false } } }

/-- The second part of `MoveTo`: the cursor and the attributes follow to the new page. -/
def moveProperties (s : PageState ρ) (wasVisible : Bool) (newPageNumber : PageNumber) : PageState ρ :=
  let isVisible := decide (newPageNumber = s.visiblePageNumber)
  if !wasVisible || !isVisible then
    let s := s.copyProperties ops (s.oldRef wasVisible) (s.place newPageNumber)
    if wasVisible && !isVisible then s.hideVisibleCursor else s
  else s

/-- `PageManager::MoveTo`. -/
def moveTo (s : PageState ρ) (pageNumber : ℤ) (makeVisible : Bool) : PageState ρ :=
  if !s.isMainBuffer then s
  else
    let wasVisible := decide (s.activePageNumber = s.visiblePageNumber)
    let newPageNumber := PageNumber.clamp pageNumber
    let s :=
      if makeVisible ∧ s.visiblePageNumber ≠ newPageNumber then s.swapVisible ops newPageNumber
      else s
    let s := s.moveProperties ops wasVisible newPageNumber
    { s with activePageNumber := newPageNumber }

/-- `PageManager::MoveRelative`. -/
def moveRelative (s : PageState ρ) (pageCount : ℤ) (makeVisible : Bool) : PageState ρ :=
  s.moveTo ops (s.activePageNumber.val + pageCount) makeVisible

/-- `PageManager::MakeActivePageVisible`. -/
def makeActivePageVisible (s : PageState ρ) : PageState ρ :=
  if s.activePageNumber ≠ s.visiblePageNumber then s.moveTo ops s.activePageNumber.val true else s

end PageState

/-- What a write leaves in the buffer of the active page. -/
structure Write (ρ : Type*) where
  rows : ℕ → ρ
  currentAttributes : TextAttribute
  cursor : Cursor
  visibleTop : ℕ

def Write.apply (w : Write ρ) (buffer : PageBuffer ρ) : PageBuffer ρ :=
  { buffer with rows := w.rows, currentAttributes := w.currentAttributes, cursor := w.cursor }

/-- A write to the active page. One to the visible page may scroll it: the viewport moves within
the main buffer. -/
def PageState.write (ops : RowOps ρ) (s : PageState ρ) (w : Write ρ) : PageState ρ :=
  let (page, s) := s.activePage ops
  if page.number = s.visiblePageNumber then
    { s with
      visibleBuffer := w.apply page.buffer
      visibleTop := min w.visibleTop (s.visibleBuffer.size.height - s.pageSize.height) }
  else s.setBacking page.number (w.apply page.buffer)

inductive PageOp (ρ : Type*)
  | moveTo (pageNumber : ℤ) (makeVisible : Bool)
  | moveRelative (pageCount : ℤ) (makeVisible : Bool)
  | makeActivePageVisible
  | write (w : Write ρ)

def PageState.step (ops : RowOps ρ) (s : PageState ρ) : PageOp ρ → PageState ρ
  | .moveTo pageNumber makeVisible => s.moveTo ops pageNumber makeVisible
  | .moveRelative pageCount makeVisible => s.moveRelative ops pageCount makeVisible
  | .makeActivePageVisible => s.makeActivePageVisible ops
  | .write w => s.write ops w

/-! ### The pages as an application sees them -/

/-- Each page with what was last written to it, and the active page with the position of the
cursor on it and the current attributes. -/
structure PageSet (γ : Type*) where
  contents : PageNumber → ℕ → γ
  active : PageNumber
  cursorPosition : Point
  attributes : TextAttribute

/-- A move only changes which page is active. A write changes the active page, to what the buffer
`s'` after the write has there. -/
def PageSet.step (ops : RowOps ρ) (contents : ρ → γ) (p : PageSet γ) (s' : PageState ρ) :
    PageOp ρ → PageSet γ
  | .moveTo pageNumber _ => { p with active := .clamp pageNumber }
  | .moveRelative pageCount _ => { p with active := .clamp (p.active.val + pageCount) }
  | .makeActivePageVisible => p
  | .write _ =>
    let page := (s'.activePage ops).1
    { p with
      contents := Function.update p.contents p.active fun i => contents (page.row i)
      cursorPosition := page.cursorPosition
      attributes := page.buffer.currentAttributes }

/-- Operations on the buffers and on the pages side by side. -/
def run (ops : RowOps ρ) (contents : ρ → γ) :
    List (PageOp ρ) → PageState ρ × PageSet γ → PageState ρ × PageSet γ
  | [], sp => sp
  | op :: rest, (s, p) => run ops contents rest (s.step ops op, p.step ops contents (s.step ops op) op)

/-! ### Copying rows -/

namespace PageBuffer

variable {ops : RowOps ρ} {contents : ρ → γ}

@[simp] theorem size_setRow (b : PageBuffer ρ) (y : ℕ) (row : ρ) : (b.setRow y row).size = b.size :=
  rfl

theorem row_setRow (b : PageBuffer ρ) {y i : ℕ} (hy : y < b.size.height) (hi : i < b.size.height)
    (row : ρ) : (b.setRow y row).row i = if i = y then row else b.row i := by
  simp only [PageBuffer.row, setRow, Nat.mod_eq_of_lt hy, Nat.mod_eq_of_lt hi,
    Function.update_apply]

theorem copyRows_eq (ops : RowOps ρ) (src dst : PageBuffer ρ) (srcTop dstTop n : ℕ) :
    ∃ rows, copyRows ops src srcTop dstTop dst n = { dst with rows } := by
  induction n with
  | zero => exact ⟨dst.rows, rfl⟩
  | succ n ih =>
    obtain ⟨rows, hrows⟩ := ih
    refine ⟨Function.update rows ((dstTop + n) % dst.size.height)
      (ops.copyFrom (rows ((dstTop + n) % dst.size.height)) (src.row (srcTop + n))), ?_⟩
    rw [copyRows, hrows]
    rfl

@[simp] theorem size_copyRows (src dst : PageBuffer ρ) (srcTop dstTop n : ℕ) :
    (copyRows ops src srcTop dstTop dst n).size = dst.size := by
  obtain ⟨rows, hrows⟩ := copyRows_eq ops src dst srcTop dstTop n
  rw [hrows]

@[simp] theorem cursor_copyRows (src dst : PageBuffer ρ) (srcTop dstTop n : ℕ) :
    (copyRows ops src srcTop dstTop dst n).cursor = dst.cursor := by
  obtain ⟨rows, hrows⟩ := copyRows_eq ops src dst srcTop dstTop n
  rw [hrows]

@[simp] theorem currentAttributes_copyRows (src dst : PageBuffer ρ) (srcTop dstTop n : ℕ) :
    (copyRows ops src srcTop dstTop dst n).currentAttributes = dst.currentAttributes := by
  obtain ⟨rows, hrows⟩ := copyRows_eq ops src dst srcTop dstTop n
  rw [hrows]

theorem contents_copyRows (hcopy : ops.Faithful contents) (src dst : PageBuffer ρ)
    (srcTop dstTop : ℕ) {n i : ℕ} (hi : i < n) (hn : dstTop + n ≤ dst.size.height) :
    contents ((copyRows ops src srcTop dstTop dst n).row (dstTop + i)) =
      contents (src.row (srcTop + i)) := by
  induction n with
  | zero => omega
  | succ n ih =>
    rw [copyRows, copyRow, row_setRow _ (by rw [size_copyRows]; omega) (by rw [size_copyRows]; omega)]
    by_cases hlast : i = n
    · rw [if_pos (by omega), hcopy.copyFrom, hlast]
    · rw [if_neg (by omega)]
      exact ih (by omega) (by omega)

end PageBuffer

/-! ### The places of the pages -/

namespace PageState

variable {ops : RowOps ρ} {contents : ρ → γ} {s s' : PageState ρ}
  {oldRef newRef : BufferRef} {buffer : PageBuffer ρ} {number : PageNumber}

def page (ops : RowOps ρ) (s : PageState ρ) (number : PageNumber) : Page ρ := (s.get ops number.val).1

/-- The main buffer is in use, the viewport is inside of it, and the backing buffers have the size
of a page. -/
structure Valid (s : PageState ρ) : Prop where
  isMainBuffer : s.isMainBuffer = true
  viewport : s.visibleTop + s.pageSize.height ≤ s.visibleBuffer.size.height
  backing : ∀ number buffer, s.buffers number = some buffer → buffer.size = s.pageSize

theorem Valid.page_eq (h : s.Valid) (number : PageNumber) :
    s.page ops number = if number = s.visiblePageNumber then
      ⟨s.visibleBuffer, s.visibleTop, number⟩ else ⟨s.backingBuffer ops number, 0, number⟩ := by
  unfold page get
  simp only [PageNumber.clamp_val, h.isMainBuffer, Bool.not_true, Bool.false_eq_true, if_false]
  by_cases hnumber : number = s.visiblePageNumber
  · rw [if_pos hnumber, if_pos hnumber, hnumber]
  · rw [if_neg hnumber, if_neg hnumber]
    rfl

theorem Valid.size_backingBuffer (ops : RowOps ρ) (h : s.Valid) (number : PageNumber) :
    (s.backingBuffer ops number).size = s.pageSize := by
  unfold backingBuffer
  cases hbuffer : s.buffers number with
  | none => rfl
  | some buffer => simp [h.backing number buffer hbuffer]

theorem backingBuffer_setBacking
    (hsize : buffer.size = s.pageSize) (other : PageNumber) :
    (s.setBacking number buffer).backingBuffer ops other =
      if other = number then buffer else s.backingBuffer ops other := by
  unfold backingBuffer setBacking
  by_cases hother : other = number
  · subst hother
    simp [hsize]
  · simp [hother]

theorem Valid.setBacking (h : s.Valid)
    (hsize : buffer.size = s.pageSize) : (s.setBacking number buffer).Valid where
  isMainBuffer := h.isMainBuffer
  viewport := h.viewport
  backing other stored hstored := by
    by_cases hother : other = number
    · subst hother
      have hbuffer : buffer = stored := by simpa [PageState.setBacking] using hstored
      rw [← hbuffer]
      exact hsize
    · exact h.backing other stored (by simpa [PageState.setBacking, hother] using hstored)

/-- Two states with the same pages in the same places, as far as rows, cursors and attributes go. -/
structure SameBacking (ops : RowOps ρ) (s s' : PageState ρ) : Prop where
  visibleTop : s'.visibleTop = s.visibleTop
  pageSize : s'.pageSize = s.pageSize
  activePageNumber : s'.activePageNumber = s.activePageNumber
  visiblePageNumber : s'.visiblePageNumber = s.visiblePageNumber
  visibleBuffer : s'.visibleBuffer = s.visibleBuffer
  backingBuffer : ∀ number, s'.backingBuffer ops number = s.backingBuffer ops number

theorem Valid.getBuffer (ops : RowOps ρ) (h : s.Valid) (number : PageNumber) :
    (s.getBuffer ops number).2.Valid ∧ SameBacking ops s (s.getBuffer ops number).2 := by
  have hsize := h.size_backingBuffer ops number
  refine ⟨h.setBacking hsize, rfl, rfl, rfl, rfl, rfl, fun other => ?_⟩
  rw [PageState.getBuffer, backingBuffer_setBacking hsize]
  by_cases hother : other = number
  · rw [if_pos hother, hother]
  · rw [if_neg hother]

theorem Valid.deref (ops : RowOps ρ) (h : s.Valid) (ref : BufferRef) :
    (s.deref ops ref).2.Valid ∧ SameBacking ops s (s.deref ops ref).2 := by
  cases ref with
  | visible => exact ⟨h, rfl, rfl, rfl, rfl, rfl, fun _ => rfl⟩
  | backing number => exact h.getBuffer ops number

/-- What is swapped: the rows of each page stay the same, and so do the cursor and the attributes
of each buffer. -/
structure Swapped (ops : RowOps ρ) (contents : ρ → γ) (s s' : PageState ρ) : Prop where
  valid : s'.Valid
  pageSize : s'.pageSize = s.pageSize
  visibleTop : s'.visibleTop = s.visibleTop
  activePageNumber : s'.activePageNumber = s.activePageNumber
  contents : ∀ number i, i < s.pageSize.height →
    contents ((s'.page ops number).row i) = contents ((s.page ops number).row i)
  visibleCursor : s'.visibleBuffer.cursor = s.visibleBuffer.cursor
  visibleAttributes :
    s'.visibleBuffer.currentAttributes = s.visibleBuffer.currentAttributes
  backingCursor : ∀ number,
    (s'.backingBuffer ops number).cursor = (s.backingBuffer ops number).cursor
  backingAttributes : ∀ number, (s'.backingBuffer ops number).currentAttributes =
    (s.backingBuffer ops number).currentAttributes

theorem Valid.swapVisible (h : s.Valid) (hcopy : ops.Faithful contents) {newPageNumber : PageNumber}
    (hnew : s.visiblePageNumber ≠ newPageNumber) :
    Swapped ops contents s (s.swapVisible ops newPageNumber) ∧
      (s.swapVisible ops newPageNumber).visiblePageNumber = newPageNumber := by
  obtain ⟨hvalid₁, hsame₁⟩ := h.getBuffer ops newPageNumber
  obtain ⟨hvalid₂, hsame₂⟩ := hvalid₁.getBuffer ops s.visiblePageNumber
  set s₁ := (s.getBuffer ops newPageNumber).2 with hs₁
  set s₂ := (s₁.getBuffer ops s.visiblePageNumber).2 with hs₂
  set saved := s.visibleBuffer.copyRows ops s.visibleTop 0
    (s₁.backingBuffer ops s.visiblePageNumber) s.pageSize.height with hsaved
  set swapped := (s.backingBuffer ops newPageNumber).copyRows ops 0 s.visibleTop s.visibleBuffer
    s.pageSize.height with hswapped
  have heq : s.swapVisible ops newPageNumber =
      { s₂.setBacking s.visiblePageNumber saved with
        visibleBuffer := swapped, visiblePageNumber := newPageNumber } := rfl
  have hsavedSize : saved.size = s₂.pageSize := by
    rw [hsaved, PageBuffer.size_copyRows, hsame₁.backingBuffer, h.size_backingBuffer]
    rfl
  have hvalid : (s.swapVisible ops newPageNumber).Valid := by
    have hset : (s₂.setBacking s.visiblePageNumber saved).Valid := hvalid₂.setBacking hsavedSize
    refine ⟨hset.isMainBuffer, ?_, hset.backing⟩
    rw [heq]
    simp only [hswapped, PageBuffer.size_copyRows]
    exact h.viewport
  have hbacking (number : PageNumber) :
      (s.swapVisible ops newPageNumber).backingBuffer ops number =
        if number = s.visiblePageNumber then saved else s.backingBuffer ops number := by
    have hset : (s₂.setBacking s.visiblePageNumber saved).backingBuffer ops number = _ :=
      backingBuffer_setBacking hsavedSize number
    rw [hsame₂.backingBuffer, hsame₁.backingBuffer] at hset
    exact hset
  refine ⟨⟨hvalid, rfl, rfl, rfl, fun number i hi => ?_, ?_, ?_, fun number => ?_, fun number => ?_⟩,
    rfl⟩
  · have hnewVisible : (s.swapVisible ops newPageNumber).visiblePageNumber = newPageNumber := rfl
    rw [hvalid.page_eq, h.page_eq, hbacking, hnewVisible]
    by_cases hvisible : number = newPageNumber
    · -- the page that was swapped in
      have hother : number ≠ s.visiblePageNumber := fun hsame => hnew (hsame.symm.trans hvisible)
      rw [if_pos hvisible, if_neg hother, hvisible]
      exact PageBuffer.contents_copyRows hcopy _ _ _ _ hi h.viewport
    · rw [if_neg hvisible]
      by_cases hsavedPage : number = s.visiblePageNumber
      · -- the page that was swapped out
        rw [if_pos hsavedPage, if_pos hsavedPage]
        refine PageBuffer.contents_copyRows hcopy _ _ _ _ hi ?_
        rw [hsame₁.backingBuffer, h.size_backingBuffer]
        omega
      · rw [if_neg hsavedPage, if_neg hsavedPage]
  · exact PageBuffer.cursor_copyRows _ _ _ _ _
  · exact PageBuffer.currentAttributes_copyRows _ _ _ _ _
  · rw [hbacking]
    by_cases hsavedPage : number = s.visiblePageNumber
    · rw [if_pos hsavedPage, hsaved, PageBuffer.cursor_copyRows, hsame₁.backingBuffer, hsavedPage]
    · rw [if_neg hsavedPage]
  · rw [hbacking]
    by_cases hsavedPage : number = s.visiblePageNumber
    · rw [if_pos hsavedPage, hsaved, PageBuffer.currentAttributes_copyRows, hsame₁.backingBuffer,
        hsavedPage]
    · rw [if_neg hsavedPage]

/-- The buffer at a place. -/
def refBuffer (ops : RowOps ρ) (s : PageState ρ) : BufferRef → PageBuffer ρ
  | .visible => s.visibleBuffer
  | .backing number => s.backingBuffer ops number

theorem Valid.page_eq_place (ops : RowOps ρ) (h : s.Valid) (number : PageNumber) :
    s.page ops number =
      ⟨s.refBuffer ops (s.place number), s.refTop (s.place number), number⟩ := by
  rw [h.page_eq, place]
  split_ifs <;> rfl

theorem SameBacking.refBuffer (h : SameBacking ops s s') (ref : BufferRef) :
    s'.refBuffer ops ref = s.refBuffer ops ref := by
  cases ref with
  | visible => exact h.visibleBuffer
  | backing number => exact h.backingBuffer number

theorem deref_fst (ops : RowOps ρ) (s : PageState ρ) (ref : BufferRef) :
    (s.deref ops ref).1 = s.refBuffer ops ref := by
  cases ref <;> rfl

theorem Valid.assign (h : s.Valid) {ref : BufferRef}
    (hsize : buffer.size = (s.refBuffer ops ref).size) :
    (s.assign buffer ref).Valid ∧ ∀ other, (s.assign buffer ref).refBuffer ops other =
      if other = ref then buffer else s.refBuffer ops other := by
  cases ref with
  | visible =>
    refine ⟨⟨h.isMainBuffer, ?_, h.backing⟩, fun other => ?_⟩
    · have hheight : buffer.size.height = s.visibleBuffer.size.height := congrArg Size.height hsize
      have hviewport := h.viewport
      simp only [PageState.assign]
      omega
    · cases other with
      | visible => rfl
      | backing number => rfl
  | backing number =>
    have hpage : buffer.size = s.pageSize := hsize.trans (h.size_backingBuffer ops number)
    refine ⟨h.setBacking hpage, fun other => ?_⟩
    cases other with
    | visible => simp [PageState.refBuffer, PageState.assign, PageState.setBacking]
    | backing other =>
      simp only [PageState.refBuffer, PageState.assign, backingBuffer_setBacking hpage,
        BufferRef.backing.injEq]

/-- The cursor and the attributes have moved from one place to another; all rows have stayed. -/
structure PropertiesMoved (ops : RowOps ρ) (s s' : PageState ρ) (oldRef newRef : BufferRef) : Prop where
  valid : s'.Valid
  pageSize : s'.pageSize = s.pageSize
  visibleTop : s'.visibleTop = s.visibleTop
  visiblePageNumber : s'.visiblePageNumber = s.visiblePageNumber
  size : ∀ ref, (s'.refBuffer ops ref).size = (s.refBuffer ops ref).size
  rows : ∀ ref, (s'.refBuffer ops ref).rows = (s.refBuffer ops ref).rows
  attributes : (s'.refBuffer ops newRef).currentAttributes =
    (s.refBuffer ops oldRef).currentAttributes
  position : (s'.refBuffer ops newRef).cursor.position =
    ⟨(s.refBuffer ops oldRef).cursor.position.x,
      (s.refBuffer ops oldRef).cursor.position.y - s.refTop oldRef + s.refTop newRef⟩

theorem PropertiesMoved.same (hvalid : s'.Valid) (hsame : SameBacking ops s s') (ref : BufferRef) :
    PropertiesMoved ops s s' ref ref where
  valid := hvalid
  pageSize := hsame.pageSize
  visibleTop := hsame.visibleTop
  visiblePageNumber := hsame.visiblePageNumber
  size other := by rw [hsame.refBuffer]
  rows other := by rw [hsame.refBuffer]
  attributes := by rw [hsame.refBuffer]
  position := by
    rw [hsame.refBuffer, sub_add_cancel]

theorem SameBacking.trans {s'' : PageState ρ} (h : SameBacking ops s s') (h' : SameBacking ops s' s'') :
    SameBacking ops s s'' where
  visibleTop := h'.visibleTop.trans h.visibleTop
  pageSize := h'.pageSize.trans h.pageSize
  activePageNumber := h'.activePageNumber.trans h.activePageNumber
  visiblePageNumber := h'.visiblePageNumber.trans h.visiblePageNumber
  visibleBuffer := h'.visibleBuffer.trans h.visibleBuffer
  backingBuffer number := (h'.backingBuffer number).trans (h.backingBuffer number)

theorem Valid.copyProperties (ops : RowOps ρ) (h : s.Valid) (oldRef newRef : BufferRef) :
    PropertiesMoved ops s (s.copyProperties ops oldRef newRef) oldRef newRef := by
  obtain ⟨hvalid₁, hsame₁⟩ := h.deref ops oldRef
  obtain ⟨hvalid₂, hsame₂⟩ := hvalid₁.deref ops newRef
  have hsame := hsame₁.trans hsame₂
  by_cases hrefs : oldRef = newRef
  · have heq : s.copyProperties ops oldRef newRef =
        ((s.deref ops oldRef).2.deref ops newRef).2 := by
      simp [PageState.copyProperties, hrefs]
    rw [heq, hrefs]
    rw [hrefs] at hvalid₂ hsame
    exact .same hvalid₂ hsame newRef
  · set s₂ := ((s.deref ops oldRef).2.deref ops newRef).2
    have htop (ref : BufferRef) : s₂.refTop ref = s.refTop ref := by
      cases ref with
      | visible => exact hsame.visibleTop
      | backing number => rfl
    set buffer : PageBuffer ρ := { s.refBuffer ops newRef with
      currentAttributes := (s.refBuffer ops oldRef).currentAttributes
      cursor := ((s.refBuffer ops newRef).cursor.copyProperties
        (s.refBuffer ops oldRef).cursor).setPosition
          ⟨(s.refBuffer ops oldRef).cursor.position.x,
            (s.refBuffer ops oldRef).cursor.position.y - s.refTop oldRef + s.refTop newRef⟩ }
    have heq : s.copyProperties ops oldRef newRef = s₂.assign buffer newRef := by
      have hold := deref_fst ops s oldRef
      have hnew : ((s.deref ops oldRef).2.deref ops newRef).1 = s.refBuffer ops newRef := by
        rw [deref_fst, hsame₁.refBuffer]
      simp only [PageState.copyProperties, if_pos (show oldRef ≠ newRef from hrefs)]
      rw [hold, hnew]
      simp only [s₂, buffer, ← htop]
    have hsize : buffer.size = (s₂.refBuffer ops newRef).size := by rw [hsame.refBuffer]
    obtain ⟨hassigned, hbuffers⟩ := hvalid₂.assign hsize
    have hkeeps (ref : BufferRef) :
        ((s₂.assign buffer newRef).refBuffer ops ref).size = (s.refBuffer ops ref).size ∧
          ((s₂.assign buffer newRef).refBuffer ops ref).rows = (s.refBuffer ops ref).rows := by
      rw [hbuffers, hsame.refBuffer]
      by_cases href : ref = newRef
      · rw [if_pos href, href]
        exact ⟨rfl, rfl⟩
      · rw [if_neg href]
        exact ⟨rfl, rfl⟩
    rw [heq]
    refine ⟨hassigned, ?_, ?_, ?_, fun ref => (hkeeps ref).1, fun ref => (hkeeps ref).2, ?_, ?_⟩
    · cases newRef <;> exact hsame.pageSize
    · cases newRef <;> exact hsame.visibleTop
    · cases newRef <;> exact hsame.visiblePageNumber
    · rw [hbuffers, if_pos rfl]
    · rw [hbuffers, if_pos rfl]
      rfl

theorem PropertiesMoved.hideVisibleCursor
    (h : PropertiesMoved ops s s' oldRef newRef) :
    PropertiesMoved ops s s'.hideVisibleCursor oldRef newRef := by
  have hbuffer (ref : BufferRef) :
      (s'.hideVisibleCursor.refBuffer ops ref).size = (s'.refBuffer ops ref).size ∧
      (s'.hideVisibleCursor.refBuffer ops ref).rows = (s'.refBuffer ops ref).rows ∧
      (s'.hideVisibleCursor.refBuffer ops ref).currentAttributes =
        (s'.refBuffer ops ref).currentAttributes ∧
      (s'.hideVisibleCursor.refBuffer ops ref).cursor.position =
        (s'.refBuffer ops ref).cursor.position := by
    cases ref <;> exact ⟨rfl, rfl, rfl, rfl⟩
  refine ⟨⟨h.valid.isMainBuffer, h.valid.viewport, h.valid.backing⟩, h.pageSize, h.visibleTop,
    h.visiblePageNumber, fun ref => ?_, fun ref => ?_, ?_, ?_⟩
  · rw [(hbuffer ref).1, h.size]
  · rw [(hbuffer ref).2.1, h.rows]
  · rw [(hbuffer newRef).2.2.1, h.attributes]
  · rw [(hbuffer newRef).2.2.2, h.position]

theorem Valid.moveProperties (ops : RowOps ρ) (h : s.Valid) (wasVisible : Bool) (newPageNumber : PageNumber) :
    PropertiesMoved ops s (s.moveProperties ops wasVisible newPageNumber)
      (s.oldRef wasVisible) (s.place newPageNumber) := by
  have hcopied := h.copyProperties ops (s.oldRef wasVisible) (s.place newPageNumber)
  by_cases hvisible : newPageNumber = s.visiblePageNumber
  · cases wasVisible with
    | false => simpa [PageState.moveProperties, hvisible] using hcopied
    | true =>
      -- the main buffer before and after: nothing is to be done
      have hnew : s.place newPageNumber = .visible := by rw [place, if_pos hvisible]
      have heq : s.moveProperties ops true newPageNumber = s := by
        simp [PageState.moveProperties, hvisible]
      rw [heq, hnew]
      exact .same h ⟨rfl, rfl, rfl, rfl, rfl, fun _ => rfl⟩ .visible
  · cases wasVisible with
    | false => simpa [PageState.moveProperties, hvisible] using hcopied
    | true => simpa [PageState.moveProperties, hvisible] using hcopied.hideVisibleCursor

theorem Valid.get (ops : RowOps ρ) (h : s.Valid) (pageNumber : ℤ) :
    (s.get ops pageNumber).2.Valid ∧ SameBacking ops s (s.get ops pageNumber).2 := by
  unfold PageState.get
  simp only [h.isMainBuffer, Bool.not_true, Bool.false_eq_true, if_false]
  by_cases hvisible : PageNumber.clamp pageNumber = s.visiblePageNumber
  · rw [if_pos hvisible]
    exact ⟨h, rfl, rfl, rfl, rfl, rfl, fun _ => rfl⟩
  · rw [if_neg hvisible]
    exact h.getBuffer ops _

theorem Swapped.refl (h : s.Valid) : Swapped ops contents s s :=
  ⟨h, rfl, rfl, rfl, fun _ _ _ => rfl, rfl, rfl, fun _ => rfl, fun _ => rfl⟩

theorem Swapped.cursor (h : Swapped ops contents s s') (ref : BufferRef) :
    (s'.refBuffer ops ref).cursor = (s.refBuffer ops ref).cursor := by
  cases ref with
  | visible => exact h.visibleCursor
  | backing number => exact h.backingCursor number

theorem Swapped.attributes (h : Swapped ops contents s s') (ref : BufferRef) :
    (s'.refBuffer ops ref).currentAttributes = (s.refBuffer ops ref).currentAttributes := by
  cases ref with
  | visible => exact h.visibleAttributes
  | backing number => exact h.backingAttributes number

theorem PropertiesMoved.refTop
    (h : PropertiesMoved ops s s' oldRef newRef) (ref : BufferRef) :
    s'.refTop ref = s.refTop ref := by
  cases ref with
  | visible => exact h.visibleTop
  | backing number => rfl

theorem PropertiesMoved.place
    (h : PropertiesMoved ops s s' oldRef newRef) (number : PageNumber) :
    s'.place number = s.place number := by
  rw [PageState.place, PageState.place, h.visiblePageNumber]

theorem PropertiesMoved.row
    (h : PropertiesMoved ops s s' oldRef newRef) (hvalid : s.Valid) (number : PageNumber) (i : ℕ) :
    (s'.page ops number).row i = (s.page ops number).row i := by
  rw [h.valid.page_eq_place, hvalid.page_eq_place, h.place, h.refTop]
  simp only [Page.row, PageBuffer.row, h.size, h.rows]

end PageState

/-! ### The buffers hold the pages -/

open PageState

/-- Each page shows what was last written to it, and the cursor and the attributes are those of the
active page. -/
structure Represents (ops : RowOps ρ) (contents : ρ → γ) (s : PageState ρ) (p : PageSet γ) : Prop where
  valid : s.Valid
  active : s.activePageNumber = p.active
  contents : ∀ number i, i < s.pageSize.height →
    contents ((s.page ops number).row i) = p.contents number i
  cursorPosition : (s.page ops p.active).cursorPosition = p.cursorPosition
  attributes : (s.page ops p.active).buffer.currentAttributes = p.attributes

section Steps

variable {ops : RowOps ρ} {contents : ρ → γ} {s : PageState ρ} {p : PageSet γ}

theorem Represents.moveTo (h : Represents ops contents s p) (hcopy : ops.Faithful contents)
    (pageNumber : ℤ) (makeVisible : Bool) :
    Represents ops contents (s.moveTo ops pageNumber makeVisible)
      { p with active := .clamp pageNumber } ∧
    (s.moveTo ops pageNumber makeVisible).pageSize = s.pageSize := by
  set new := PageNumber.clamp pageNumber
  obtain ⟨s₁, hs₁, hswapped⟩ : ∃ s₁,
      (if makeVisible ∧ s.visiblePageNumber ≠ new then s.swapVisible ops new else s) = s₁ ∧
        Swapped ops contents s s₁ := by
    refine ⟨_, rfl, ?_⟩
    by_cases hswap : makeVisible ∧ s.visiblePageNumber ≠ new
    · rw [if_pos hswap]
      exact (h.valid.swapVisible hcopy hswap.2).1
    · rw [if_neg hswap]
      exact .refl h.valid
  set wasVisible := decide (s.activePageNumber = s.visiblePageNumber) with hwasVisible
  have hmoved := hswapped.valid.moveProperties ops wasVisible new
  set s₂ := s₁.moveProperties ops wasVisible new
  have heq : s.moveTo ops pageNumber makeVisible = { s₂ with activePageNumber := new } := by
    simp only [PageState.moveTo, h.valid.isMainBuffer, Bool.not_true, Bool.false_eq_true, if_false]
    rw [hs₁]
  have hplace : s₁.oldRef wasVisible = s.place p.active := by
    rw [PageState.oldRef, PageState.place, hswapped.activePageNumber, h.active, hwasVisible, h.active]
    simp only [decide_eq_true_eq]
  have htop : s₁.refTop (s.place p.active) = s.refTop (s.place p.active) := by
    cases s.place p.active with
    | visible => exact hswapped.visibleTop
    | backing number => rfl
  have hvalid : PageState.Valid { s₂ with activePageNumber := new } :=
    ⟨hmoved.valid.isMainBuffer, hmoved.valid.viewport, hmoved.valid.backing⟩
  have hpage (number : PageNumber) :
      PageState.page ops { s₂ with activePageNumber := new } number = s₂.page ops number := by
    rw [hvalid.page_eq_place, hmoved.valid.page_eq_place]
    rfl
  have hnew := hmoved.valid.page_eq_place ops new
  have hold := h.valid.page_eq_place ops p.active
  rw [heq]
  refine ⟨⟨hvalid, rfl, fun number i hi => ?_, ?_, ?_⟩, hmoved.pageSize.trans hswapped.pageSize⟩
  · have hheight : i < s.pageSize.height := by
      rw [← hswapped.pageSize, ← hmoved.pageSize]
      exact hi
    rw [hpage, hmoved.row hswapped.valid, hswapped.contents number i hheight]
    exact h.contents number i hheight
  · have hcursor := h.cursorPosition
    rw [hold] at hcursor
    rw [hpage, hnew, ← hcursor]
    simp only [Page.cursorPosition, hmoved.place, hmoved.refTop, hmoved.position, hplace, htop,
      hswapped.cursor]
    rw [add_sub_cancel_right]
  · have hattributes := h.attributes
    rw [hold] at hattributes
    rw [hpage, hnew, ← hattributes]
    simp only [hmoved.place, hmoved.attributes, hplace, hswapped.attributes]

theorem Represents.write (h : Represents ops contents s p) (w : Write ρ) :
    Represents ops contents (s.write ops w) (p.step ops contents (s.write ops w) (.write w)) ∧
    (s.write ops w).pageSize = s.pageSize := by
  obtain ⟨hvalid, hsame⟩ := h.valid.get ops s.activePageNumber.val
  have hpage : (s.get ops s.activePageNumber.val).1 = s.page ops s.activePageNumber := rfl
  set s₁ := (s.get ops s.activePageNumber.val).2
  have hpages (number : PageNumber) : s₁.page ops number = s.page ops number := by
    rw [hvalid.page_eq_place, h.valid.page_eq_place, hsame.refBuffer, PageState.place, PageState.place,
      hsame.visiblePageNumber]
    split_ifs
    · simp only [PageState.refTop, hsame.visibleTop]
    · rfl
  obtain ⟨s₂, hs₂, hvalid₂, hactive, hsize, hothers⟩ : ∃ s₂, s.write ops w = s₂ ∧ s₂.Valid ∧
      s₂.activePageNumber = s.activePageNumber ∧ s₂.pageSize = s.pageSize ∧
      ∀ number, number ≠ s.activePageNumber → s₂.page ops number = s.page ops number := by
    refine ⟨_, rfl, ?_⟩
    have hnumber : (s.page ops s.activePageNumber).number = s.activePageNumber := by
      rw [h.valid.page_eq_place]
    unfold PageState.write PageState.activePage
    simp only [hpage, hnumber]
    by_cases hvisible : s.activePageNumber = s₁.visiblePageNumber
    · rw [if_pos hvisible]
      have hbuffer : (s.page ops s.activePageNumber).buffer = s.visibleBuffer := by
        rw [h.valid.page_eq, if_pos (hvisible.trans hsame.visiblePageNumber)]
      have hvalid₂ : PageState.Valid { s₁ with
          visibleBuffer := w.apply s.visibleBuffer
          visibleTop := min w.visibleTop (s₁.visibleBuffer.size.height - s₁.pageSize.height) } := by
        have hviewport := h.valid.viewport
        refine ⟨hvalid.isMainBuffer, ?_, hvalid.backing⟩
        simp only [Write.apply, hsame.pageSize, hsame.visibleBuffer]
        omega
      rw [hbuffer]
      refine ⟨hvalid₂, hsame.activePageNumber, hsame.pageSize, fun number hnumber' => ?_⟩
      have hother : number ≠ s₁.visiblePageNumber := fun heq => hnumber' (heq.trans hvisible.symm)
      rw [← hpages number, hvalid₂.page_eq, hvalid.page_eq, if_neg hother, if_neg hother]
      rfl
    · rw [if_neg hvisible]
      have hbuffer : (s.page ops s.activePageNumber).buffer =
          s.backingBuffer ops s.activePageNumber := by
        rw [h.valid.page_eq, if_neg (hsame.visiblePageNumber ▸ hvisible)]
      have hsize : (w.apply (s.page ops s.activePageNumber).buffer).size = s₁.pageSize := by
        rw [hbuffer, hsame.pageSize]
        exact h.valid.size_backingBuffer ops _
      have hvalid₂ : (s₁.setBacking s.activePageNumber
          (w.apply (s.page ops s.activePageNumber).buffer)).Valid := hvalid.setBacking hsize
      refine ⟨hvalid₂, hsame.activePageNumber, hsame.pageSize, fun number hnumber' => ?_⟩
      rw [← hpages number, hvalid₂.page_eq, hvalid.page_eq, backingBuffer_setBacking hsize,
        if_neg hnumber']
      rfl
  rw [hs₂]
  have hactivePage : (s₂.activePage ops).1 = s₂.page ops p.active := by
    rw [← h.active, ← hactive]
    rfl
  refine ⟨⟨hvalid₂, hactive.trans h.active, fun number i hi => ?_, ?_, ?_⟩, hsize⟩
  · simp only [PageSet.step, hactivePage]
    by_cases hnumber : number = p.active
    · rw [hnumber, Function.update_self]
    · rw [Function.update_of_ne hnumber, hothers number (h.active ▸ hnumber)]
      exact h.contents number i (hsize ▸ hi)
  · simp only [PageSet.step, hactivePage]
  · simp only [PageSet.step, hactivePage]

theorem Represents.step (h : Represents ops contents s p) (hcopy : ops.Faithful contents)
    (op : PageOp ρ) :
    Represents ops contents (s.step ops op) (p.step ops contents (s.step ops op) op) ∧
    (s.step ops op).pageSize = s.pageSize := by
  cases op with
  | moveTo pageNumber makeVisible => exact h.moveTo hcopy pageNumber makeVisible
  | moveRelative pageCount makeVisible =>
    have hactive : ({ p with active := .clamp (s.activePageNumber.val + pageCount) } : PageSet γ) =
        { p with active := .clamp (p.active.val + pageCount) } := by rw [h.active]
    have hmoved := h.moveTo hcopy (s.activePageNumber.val + pageCount) makeVisible
    rw [hactive] at hmoved
    exact hmoved
  | makeActivePageVisible =>
    simp only [PageState.step, PageState.makeActivePageVisible]
    split_ifs
    · have hmoved := h.moveTo hcopy s.activePageNumber.val true
      have hactive : ({ p with active := .clamp s.activePageNumber.val } : PageSet γ) = p := by
        rw [PageNumber.clamp_val, h.active]
      rw [hactive] at hmoved
      exact hmoved
    · exact ⟨h, rfl⟩
  | write w => exact h.write w

theorem Represents.run (h : Represents ops contents s p) (hcopy : ops.Faithful contents)
    (calls : List (PageOp ρ)) :
    Represents ops contents (run ops contents calls (s, p)).1 (run ops contents calls (s, p)).2 ∧
    (Pages.run ops contents calls (s, p)).1.pageSize = s.pageSize := by
  induction calls generalizing s p with
  | nil => exact ⟨h, rfl⟩
  | cons op calls ih =>
    obtain ⟨hstep, hsize⟩ := h.step hcopy op
    obtain ⟨hrun, hsize'⟩ := ih hstep
    exact ⟨hrun, hsize'.trans hsize⟩

end Steps

/-- The page manager of a new terminal: the only page is the one in the main buffer. -/
def PageState.new (visibleBuffer : PageBuffer ρ) (visibleTop : ℕ) (pageSize : Size) :
    PageState ρ where
  visibleBuffer := visibleBuffer
  visibleTop := visibleTop
  pageSize := pageSize
  isMainBuffer := true
  activePageNumber := .first
  visiblePageNumber := .first
  buffers _ := none

/-- The pages of a new terminal: the first shows the main buffer, the others are blank. -/
def PageSet.new (ops : RowOps ρ) (contents : ρ → γ) (visibleBuffer : PageBuffer ρ) (visibleTop : ℕ)
    (pageSize : Size) : PageSet γ where
  contents := Function.update (fun _ _ => contents (ops.blank pageSize.width)) .first
    fun i => contents (visibleBuffer.row (visibleTop + i))
  active := .first
  cursorPosition :=
    ⟨visibleBuffer.cursor.position.x, visibleBuffer.cursor.position.y - visibleTop⟩
  attributes := visibleBuffer.currentAttributes

theorem represents_new (ops : RowOps ρ) (contents : ρ → γ) (visibleBuffer : PageBuffer ρ)
    (visibleTop : ℕ) (pageSize : Size)
    (hviewport : visibleTop + pageSize.height ≤ visibleBuffer.size.height) :
    Represents ops contents (PageState.new visibleBuffer visibleTop pageSize)
      (PageSet.new ops contents visibleBuffer visibleTop pageSize) := by
  have hvalid : (PageState.new visibleBuffer visibleTop pageSize).Valid :=
    ⟨rfl, hviewport, fun _ _ hnone => nomatch hnone⟩
  refine ⟨hvalid, rfl, fun number i _ => ?_, ?_, ?_⟩
  · rw [hvalid.page_eq]
    by_cases hfirst : number = .first
    · subst hfirst
      rfl
    · have hvisible : number ≠ (PageState.new visibleBuffer visibleTop pageSize).visiblePageNumber :=
        hfirst
      have hblank : (PageSet.new ops contents visibleBuffer visibleTop pageSize).contents number i =
          contents (ops.blank pageSize.width) := by
        simp only [PageSet.new, Function.update_of_ne hfirst]
      rw [if_neg hvisible, hblank]
      rfl
  · rw [hvalid.page_eq]
    rfl
  · rw [hvalid.page_eq]
    rfl

/-- After any moves between pages and any writes to the active page, `Get` returns for each page
number what was last written to that page, and the cursor position on the active page and the
current attributes are those that the last write has left, on whichever page that was. -/
theorem pages_keep_contents {ops : RowOps ρ} {contents : ρ → γ} (hcopy : ops.Faithful contents)
    (visibleBuffer : PageBuffer ρ) (visibleTop : ℕ) (pageSize : Size)
    (hviewport : visibleTop + pageSize.height ≤ visibleBuffer.size.height)
    (calls : List (PageOp ρ)) :
    let result := run ops contents calls
      (.new visibleBuffer visibleTop pageSize, .new ops contents visibleBuffer visibleTop pageSize)
    (∀ pageNumber i, i < pageSize.height →
      contents ((result.1.get ops pageNumber).1.row i) =
        result.2.contents (.clamp pageNumber) i) ∧
    result.1.activePageNumber = result.2.active ∧
    (result.1.activePage ops).1.cursorPosition = result.2.cursorPosition ∧
    (result.1.activePage ops).1.buffer.currentAttributes = result.2.attributes := by
  intro result
  obtain ⟨hresult, hsize⟩ :=
    (represents_new ops contents visibleBuffer visibleTop pageSize hviewport).run hcopy calls
  have hactive : (result.1.activePage ops).1 = result.1.page ops result.2.active := by
    rw [← hresult.active]
    rfl
  refine ⟨fun pageNumber i hi => ?_, hresult.active, ?_, ?_⟩
  · have hcontents := hresult.contents (.clamp pageNumber) i (by rw [hsize]; exact hi)
    have hget : (result.1.get ops pageNumber).1 = result.1.page ops (.clamp pageNumber) := by
      unfold PageState.page PageState.get
      rw [PageNumber.clamp_val]
    rw [hget]
    exact hcontents
  · rw [hactive]
    exact hresult.cursorPosition
  · rw [hactive]
    exact hresult.attributes

/-- Rows that are numbers, and a copy that is exact. -/
def numberRows : RowOps ℕ where
  blank _ := 0
  copyFrom _ src := src
  resizeTraditional buffer size := { buffer with size }

/-- The first page is written, and the sixth is made visible and written: both are kept. -/
theorem pages_keep_contents_sample :
    let calls : List (PageOp ℕ) :=
      [.write { rows := fun y => y + 10, currentAttributes := {}, cursor := {}, visibleTop := 1 },
        .moveTo 9 true,
        .write { rows := fun y => y + 20, currentAttributes := {}, cursor := {}, visibleTop := 0 }]
    let buffer : PageBuffer ℕ := { size := ⟨2, 3⟩, rows := fun _ => 0 }
    let result := run numberRows id calls (.new buffer 0 ⟨2, 2⟩, .new numberRows id buffer 0 ⟨2, 2⟩)
    (result.1.get numberRows 1).1.row 0 = 11 ∧ (result.1.get numberRows 6).1.row 0 = 20 := by
  intro calls buffer result
  have hcopy : numberRows.Faithful id := ⟨fun _ _ => rfl⟩
  obtain ⟨hcontents, -⟩ := pages_keep_contents hcopy buffer 0 ⟨2, 2⟩ (by decide) calls
  exact ⟨hcontents 1 0 (by decide), hcontents 6 0 (by decide)⟩

end IntelligentTerminal.Pages
