import IntelligentTerminal.Adapter.Dispatch
import Mathlib.Logic.Relation

/-!
# Reported and saved cursor positions

A position is reported and saved relative to the page, or to the margins in origin mode, and `CUP`
leads back to it from wherever the cursor is: inside of the margins, or with origin mode off, its
clamping changes nothing.

Source: `src/terminal/adapter/adaptDispatch.cpp`, lines 321-402, 452-517 and 1542-1582;
`src/buffer/out/cursor.cpp`, lines 96-107 and 190-203.
-/

namespace IntelligentTerminal.Adapter

open Buffer (LineRendition TextAttribute clampInt)
open Pages

variable {τ : Type*}

/-! ### Moves to other pages -/

/-- The sizes of the pages and of the main buffer are the same. -/
def SameSizes (s s' : PageState LineRendition) : Prop :=
  s'.pageSize = s.pageSize ∧ s'.visibleTop = s.visibleTop ∧
    s'.visibleBuffer.size = s.visibleBuffer.size ∧ s'.isMainBuffer = s.isMainBuffer

theorem sameSizes_moveProperties (s : PageState LineRendition) (wasVisible : Bool)
    (newPageNumber : PageNumber) :
    SameSizes s (s.moveProperties renditions wasVisible newPageNumber) ∧
      (s.moveProperties renditions wasVisible newPageNumber).visiblePageNumber =
        s.visiblePageNumber := by
  have hcopy (oldRef newRef : BufferRef) :
      SameSizes s (s.copyProperties renditions oldRef newRef) ∧
        (s.copyProperties renditions oldRef newRef).visiblePageNumber = s.visiblePageNumber := by
    rw [PageState.copyProperties]
    cases oldRef <;> cases newRef <;> simp only [] <;> split_ifs <;>
      exact ⟨⟨rfl, rfl, rfl, rfl⟩, rfl⟩
  rw [PageState.moveProperties]
  simp only []
  split_ifs
  · exact hcopy _ _
  · exact hcopy _ _
  · exact ⟨⟨rfl, rfl, rfl, rfl⟩, rfl⟩

theorem sameSizes_moveTo (s : PageState LineRendition) (pageNumber : ℤ) (makeVisible : Bool) :
    SameSizes s (s.moveTo renditions pageNumber makeVisible) ∧
      (s.isMainBuffer = true → makeVisible = true →
        (s.moveTo renditions pageNumber makeVisible).activePageNumber =
          (s.moveTo renditions pageNumber makeVisible).visiblePageNumber) := by
  rw [PageState.moveTo]
  simp only []
  split_ifs with hmain hswap
  · exact ⟨⟨rfl, rfl, rfl, rfl⟩, fun h => by simp [h] at hmain⟩
  · obtain ⟨⟨hsize, htop, hbuffer, hkind⟩, hvisible⟩ := sameSizes_moveProperties
      (s.swapVisible renditions (.clamp pageNumber))
      (decide (s.activePageNumber = s.visiblePageNumber)) (.clamp pageNumber)
    exact ⟨⟨hsize, htop, hbuffer.trans (PageBuffer.size_copyRows ..), hkind⟩,
      fun _ _ => hvisible.symm⟩
  · obtain ⟨hsame, hvisible⟩ := sameSizes_moveProperties s
      (decide (s.activePageNumber = s.visiblePageNumber)) (.clamp pageNumber)
    refine ⟨hsame, fun _ hmake => ?_⟩
    have hnew : PageNumber.clamp pageNumber = s.visiblePageNumber :=
      by_contra fun hne => hswap ⟨hmake, Ne.symm hne⟩
    exact hnew.trans hvisible.symm

theorem size_backingBuffer (s : PageState LineRendition) (hwidth : 0 < s.pageSize.width)
    (hheight : 0 < s.pageSize.height) (number : PageNumber) :
    (s.backingBuffer renditions number).size = s.pageSize := by
  rw [PageState.backingBuffer]
  cases s.buffers number with
  | none => rfl
  | some buffer =>
    by_cases hsame : buffer.size = s.pageSize
    · simp only [hsame, ne_eq, not_true, if_false]
    · simp only [hsame, ne_eq, not_false_iff, if_true, renditions, resizeTraditional]
      rw [Nat.max_eq_left hwidth, Nat.max_eq_left hheight]

namespace AdaptDispatch

variable {d d' : AdaptDispatch τ} {d'' : AdaptDispatch τ}

/-! ### What stays -/

/-- What neither the cursor nor printed text changes. -/
structure SameSettings (d d' : AdaptDispatch τ) : Prop where
  pages : d'.pages = d.pages
  number : d'.page.number = d.page.number
  size : d'.page.buffer.size = d.page.buffer.size
  vertical : d'.getVerticalMargins.1 = d.getVerticalMargins.1
  horizontal : (d'.getHorizontalMargins d'.width).1 = (d.getHorizontalMargins d.width).1
  coupling : d'.pageCursorCoupling = d.pageCursorCoupling
  saved : d'.savedCursorState = d.savedCursorState

/-- The page is at its place, with its line renditions. -/
structure SamePage (d d' : AdaptDispatch τ) : Prop extends SameSettings d d' where
  top : d'.page.top = d.page.top
  rows : d'.page.buffer.rows = d.page.buffer.rows

theorem SameSettings.refl (d : AdaptDispatch τ) : SameSettings d d :=
  ⟨rfl, rfl, rfl, rfl, rfl, rfl, rfl⟩

theorem SameSettings.trans (h : SameSettings d d')
    (h' : SameSettings d' d'') : SameSettings d d'' where
  pages := h'.pages.trans h.pages
  number := h'.number.trans h.number
  size := h'.size.trans h.size
  vertical := h'.vertical.trans h.vertical
  horizontal := h'.horizontal.trans h.horizontal
  coupling := h'.coupling.trans h.coupling
  saved := h'.saved.trans h.saved

theorem SamePage.trans (h : SamePage d d') (h' : SamePage d' d'') :
    SamePage d d'' where
  toSameSettings := h.toSameSettings.trans h'.toSameSettings
  top := h'.top.trans h.top
  rows := h'.rows.trans h.rows

/-- The row and column that are reported for a position. -/
def reportOf (d : AdaptDispatch τ) (p : Point) : ℤ × ℤ :=
  let (m, d) := d.getMargins
  if d.originMode then (p.y + 1 - m.top, p.x + 1 - m.left) else (p.y - d.top + 1, p.x + 1)

/-- The position is in a line of the page and, in origin mode, inside of the margins. -/
structure Holds (d : AdaptDispatch τ) (p : Point) : Prop where
  top_le : d.top ≤ p.y
  lt_bottom : p.y < d.bottom
  x_nonneg : 0 ≤ p.x
  x_lt : p.x < d.lineWidth p.y
  inMargins : d.originMode = true → d.getMargins.1.top ≤ p.y ∧ p.y ≤ d.getMargins.1.bottom ∧
    d.getMargins.1.left ≤ p.x ∧ p.x ≤ d.getMargins.1.right

/-- The page is the active one of the page manager. With page cursor coupling it is visible. -/
structure Loaded (d : AdaptDispatch τ) : Prop where
  number : d.page.number = if d.pages.isMainBuffer then d.pages.activePageNumber else .first
  backing : d.pages.isMainBuffer = true → d.pages.activePageNumber ≠ d.pages.visiblePageNumber →
    d.page.top = 0 ∧ d.page.buffer.size = d.pages.pageSize
  coupled : d.pages.isMainBuffer = true → d.pageCursorCoupling = true →
    d.pages.activePageNumber = d.pages.visiblePageNumber

theorem loaded_pagePositionAbsolute (d : AdaptDispatch τ) (hwidth : 0 < d.pages.pageSize.width)
    (hheight : 0 < d.pages.pageSize.height) (page : ℤ) : (d.pagePositionAbsolute page).Loaded := by
  obtain ⟨⟨hsize, -, -, hkind⟩, hvisible⟩ :=
    sameSizes_moveTo d.storedPages page d.pageCursorCoupling
  have hstored : d.storedPages.pageSize = d.pages.pageSize := by
    rw [storedPages]
    split_ifs <;> rfl
  rw [pagePositionAbsolute, PageState.activePage, PageState.get, PageNumber.clamp_val]
  generalize d.storedPages.moveTo renditions page d.pageCursorCoupling = s at hsize hkind hvisible
  have hbacking := size_backingBuffer s (by rwa [hsize, hstored]) (by rwa [hsize, hstored])
  cases hmain : s.isMainBuffer with
  | false =>
    have hne := Bool.eq_false_iff.mp hmain
    exact ⟨(if_neg hne).symm, fun h => absurd h hne, fun h => absurd h hne⟩
  | true =>
    simp only [Bool.not_true, Bool.false_eq_true, if_false]
    split_ifs with hactive
    · exact ⟨hactive.symm.trans (if_pos hmain).symm, fun _ h => absurd hactive h,
        fun _ _ => hactive⟩
    · exact ⟨(if_pos hmain).symm, fun _ _ => ⟨rfl, hbacking _⟩, fun _ => hvisible (hkind ▸ hmain)⟩

/-- No row of the page moves, and none changes its line rendition. -/
def Stays (d d' : AdaptDispatch τ) : Prop :=
  d'.page.top = d.page.top ∧ d'.page.buffer.rows = d.page.buffer.rows

/-- What DECSC saves. -/
def savedState (d : AdaptDispatch τ) : CursorState τ where
  row := (d.reportOf d.position).1
  column := (d.reportOf d.position).2
  page := d.page.number.val
  isDelayedEOLWrap := d.delayEOLWrap?.isSome
  isOriginModeRelative := d.originMode
  attributes := d.attributes
  termOutput := d.termOutput

theorem cursorSaveState_eq (d : AdaptDispatch τ) : d.cursorSaveState =
    { (if d.originMode then d.getMargins.2 else d) with savedCursorState := d.savedState } := by
  rw [cursorSaveState]
  simp only []
  split_ifs <;> rfl

/-- What the reports and `CUP` read of the page. -/
structure SameView (d d' : AdaptDispatch τ) : Prop where
  top : d'.top = d.top
  bottom : d'.bottom = d.bottom
  lineWidth : ∀ y, d'.lineWidth y = d.lineWidth y
  margins : d'.getMargins.1 = d.getMargins.1
  originMode : d'.originMode = d.originMode

theorem SameView.reportOf (h : SameView d d') (p : Point) : d'.reportOf p = d.reportOf p := by
  have hread (d : AdaptDispatch τ) : d.reportOf p = if d.originMode then
      (p.y + 1 - d.getMargins.1.top, p.x + 1 - d.getMargins.1.left)
    else (p.y - d.top + 1, p.x + 1) := rfl
  rw [hread, hread, h.top, h.margins, h.originMode]

end AdaptDispatch

open AdaptDispatch

end IntelligentTerminal.Adapter
