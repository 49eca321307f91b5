import IntelligentTerminal.Adapter.SavedCursor

/-!
# The cursor stays in its line

Each handler clamps the cursor to the line that it moves to, and the ones that move rows of the
full width leave a line of single width under it, or move it to the first column. `SU` and `SD`
do neither: they bring another line under a cursor that stays.

Source: `src/terminal/adapter/adaptDispatch.cpp`, lines 269-402, 1610-1640 and 2136-2607;
`src/buffer/out/textBuffer.cpp`, lines 914-971.
-/

namespace IntelligentTerminal.Adapter

open Buffer (LineRendition clampInt)
open Pages

variable {τ : Type*}

theorem activePage_fits (s : PageState LineRendition) (hwidth : 2 ≤ s.pageSize.width)
    (hheight : 0 < s.pageSize.height) (hvisible : 2 ≤ s.visibleBuffer.size.width)
    (hviewport : s.visibleTop + s.pageSize.height ≤ s.visibleBuffer.size.height) :
    2 ≤ (s.activePage renditions).1.buffer.size.width ∧
      (s.activePage renditions).1.top + s.pageSize.height ≤
        (s.activePage renditions).1.buffer.size.height := by
  have hbacking := size_backingBuffer s (by omega) hheight
  rw [PageState.activePage, PageState.get]
  simp only []
  split_ifs
  · exact ⟨hvisible, hviewport⟩
  · exact ⟨hvisible, hviewport⟩
  · simp only [PageState.getBuffer, hbacking]
    omega

/-! ### Margins -/

theorem clampMargins_spec (low high : ℕ) (last : ℤ) (hlast : 0 ≤ last) :
    0 ≤ (clampMargins low high last).1.1 ∧
      (clampMargins low high last).1.1 ≤ (clampMargins low high last).1.2 ∧
      (clampMargins low high last).1.2 ≤ last := by
  unfold clampMargins
  split_ifs with hreset
  · simp [hlast]
  · by_cases hset : low < high
    · simp only [hset, if_true]
      omega
    · simp only [hset, if_false]
      omega

/-- Margins that are inside of the page. -/
structure Margins.Within (m : Margins) (d : AdaptDispatch τ) : Prop where
  top_le : d.top ≤ m.top
  top_le_bottom : m.top ≤ m.bottom
  bottom_lt : m.bottom < d.bottom
  left_nonneg : 0 ≤ m.left
  left_le_right : m.left ≤ m.right
  right_lt : m.right < d.width

namespace AdaptDispatch

variable {d d' : AdaptDispatch τ}
  {rendition : ℤ → LineRendition} {columnLimit : ℤ} {lo hi v w : ℤ} {y : ℤ} {m : Margins}

/-- Every page has two columns and a row, and is inside of its buffer. -/
structure Valid (d : AdaptDispatch τ) : Prop where
  two_le_width : 2 ≤ d.width
  height_pos : 0 < d.height
  bottom_le : d.bottom ≤ d.bufferHeight
  two_le_pageWidth : 2 ≤ d.pages.pageSize.width
  two_le_visibleWidth : 2 ≤ d.pages.visibleBuffer.size.width
  viewport : d.pages.visibleTop + d.pages.pageSize.height ≤ d.pages.visibleBuffer.size.height

/-- The cursor is in a line of the page. -/
structure InLine (d : AdaptDispatch τ) : Prop where
  top_le : d.top ≤ d.position.y
  lt_bottom : d.position.y < d.bottom
  x_nonneg : 0 ≤ d.position.x
  x_lt : d.position.x < d.lineWidth d.position.y

/-- What every control sequence keeps. -/
structure Ok (d : AdaptDispatch τ) : Prop where
  valid : d.Valid
  inLine : d.InLine

theorem Valid.of_eq (h : d.Valid) (hpages : d'.pages = d.pages)
    (hsize : d'.page.buffer.size = d.page.buffer.size) (htop : d'.page.top = d.page.top) :
    d'.Valid := by
  obtain ⟨hwidth, hheight, hbottom, hpage, hvisible, hviewport⟩ := h
  unfold bottom at hbottom
  constructor <;> simp only [width, height, bottom, top, bufferHeight, hpages, hsize, htop] <;>
    assumption

theorem InLine.of_eq (h : d.InLine) (hpages : d'.pages = d.pages) (hpage : d'.page = d.page) :
    d'.InLine := by
  obtain ⟨htop, hbottom, hx, hlt⟩ := h
  unfold bottom at hbottom
  constructor <;>
    simp only [position, bottom, height, top, lineWidth, lineRendition, width, hpages, hpage] <;>
    assumption

theorem Ok.of_eq (h : d.Ok) (hpages : d'.pages = d.pages) (hpage : d'.page = d.page) : d'.Ok :=
  ⟨h.valid.of_eq hpages (by rw [hpage]) (by rw [hpage]), h.inLine.of_eq hpages hpage⟩

theorem Valid.lineWidth_pos (h : d.Valid) (y : ℤ) : 0 < d.lineWidth y := by
  have := h.two_le_width
  unfold lineWidth
  split_ifs <;> omega

theorem lineWidth_le_width (hwidth : 0 ≤ d.width) (y : ℤ) : d.lineWidth y ≤ d.width := by
  unfold lineWidth
  split_ifs <;> omega

theorem Valid.getMargins (h : d.Valid) : ∃ m stored,
    d.getMargins = (m, { d with scrollMargins := stored }) ∧
      m.Within { d with scrollMargins := stored } := by
  refine ⟨_, _, rfl, ?_⟩
  have hwidth := h.two_le_width
  have hheight := h.height_pos
  obtain ⟨htop, hvert, hbottom⟩ :=
    clampMargins_spec d.scrollMargins.top d.scrollMargins.bottom (d.height - 1) (by omega)
  obtain ⟨hleft, hhoriz, hright⟩ :=
    clampMargins_spec d.scrollMargins.left d.scrollMargins.right (d.width - 1) (by omega)
  constructor
  · exact le_add_of_nonneg_left htop
  · exact add_le_add_left hvert _
  · change _ < d.top + d.height
    change (clampMargins d.scrollMargins.top d.scrollMargins.bottom (d.height - 1)).1.2 + d.top < _
    omega
  · exact hleft
  · exact hhoriz
  · change (clampMargins d.scrollMargins.left d.scrollMargins.right (d.width - 1)).1.2 < d.width
    omega

/-- The value is in the range. -/
def Between (lo hi v : ℤ) : Prop := lo ≤ v ∧ v ≤ hi

theorem between_clampInt (v : ℤ) {lo hi : ℤ} (h : lo ≤ hi) : Between lo hi (clampInt v lo hi) := by
  unfold Between clampInt
  split_ifs <;> omega

theorem Between.ite_max (hv : Between lo hi v) (hw : Between lo hi w) (c : Prop)
    [Decidable c] : Between lo hi (if c then max v w else v) := by
  unfold Between at *
  split_ifs <;> omega

theorem Between.ite_min (hv : Between lo hi v) (hw : Between lo hi w) (c : Prop)
    [Decidable c] : Between lo hi (if c then min v w else v) := by
  unfold Between at *
  split_ifs <;> omega

/-! ### The cursor -/

theorem Ok.setPosition (h : d.Valid) {p : Point} (htop : d.top ≤ p.y) (hbottom : p.y < d.bottom)
    (hx : 0 ≤ p.x) (hlt : p.x < d.lineWidth p.y) : (d.setPosition p).Ok :=
  ⟨h.of_eq rfl rfl rfl, htop, hbottom, hx, hlt⟩

theorem Ok.setPosition_clamp (h : d.Valid) {x y : ℤ} (hy : Between d.top (d.bottom - 1) y)
    (hx : Between 0 (d.width - 1) x) : (d.setPosition (d.clampPositionWithinLine ⟨x, y⟩)).Ok := by
  have hpos := h.lineWidth_pos y
  obtain ⟨htop, hbottom⟩ := hy
  have hnonneg := hx.1
  refine .setPosition h htop ?_ ?_ ?_ <;> simp only [clampPositionWithinLine] <;> omega

theorem Ok.setXPosition (h : d.Ok) {x : ℤ} (hx : 0 ≤ x) (hlt : x < d.lineWidth d.position.y) :
    (d.setXPosition x).Ok :=
  .setPosition h.valid h.inLine.top_le h.inLine.lt_bottom hx hlt

theorem Valid.cursorMovePosition (h : d.Valid) (rowOffset colOffset : Offset)
    (clampInMargins : Bool) : (d.cursorMovePosition rowOffset colOffset clampInMargins).Ok := by
  obtain ⟨m, stored, heq, hm⟩ := h.getMargins
  have hv : Valid { d with scrollMargins := stored } := h.of_eq rfl rfl rfl
  simp only [AdaptDispatch.cursorMovePosition, heq]
  set d' : AdaptDispatch τ := { d with scrollMargins := stored }
  have hwidth := hv.two_le_width
  have hheight := hv.height_pos
  have hbottom : d'.bottom = d'.top + d'.height := rfl
  obtain ⟨htop, hvert, hbottomMargin, hleft, hhoriz, hright⟩ := hm
  refine .setPosition_clamp hv ?_ ?_
  · exact ((between_clampInt _ (by omega)).ite_max ⟨by omega, by omega⟩ _).ite_min
      ⟨by omega, by omega⟩ _
  · exact ((between_clampInt _ (by omega)).ite_max ⟨by omega, by omega⟩ _).ite_min
      ⟨by omega, by omega⟩ _

theorem Valid.cursorPosition (h : d.Valid) (line column : ℤ) : (d.cursorPosition line column).Ok :=
  h.cursorMovePosition _ _ _

theorem Ok.move (h : d.Ok) (movement : Movement) : (d.move movement).Ok := by
  cases movement <;> exact h.valid.cursorMovePosition _ _ _

theorem Ok.getMargins (h : d.Ok) : ∃ m d', d.getMargins = (m, d') ∧ d'.Ok ∧ m.Within d' := by
  obtain ⟨m, stored, heq, hm⟩ := h.valid.getMargins
  exact ⟨m, _, heq, h.of_eq rfl rfl, hm⟩

/-! ### Rows under the cursor -/

theorem lineRendition_setLineRenditions (d : AdaptDispatch τ) (rendition : ℤ → LineRendition)
    (hy : 0 ≤ y) : (d.setLineRenditions rendition).lineRendition y = rendition y := by
  rw [lineRendition, setLineRenditions]
  simp only [Int.toNat_of_nonneg hy]

theorem resetLineRenditionRange_setLineRenditions (d : AdaptDispatch τ)
    (rendition : ℤ → LineRendition) (startRow endRow : ℤ) :
    (d.setLineRenditions rendition).resetLineRenditionRange startRow endRow =
      d.setLineRenditions fun y => if startRow ≤ y ∧ y < endRow then .singleWidth
        else (d.setLineRenditions rendition).lineRendition y := rfl

theorem scrollRectVertically_eq (d : AdaptDispatch τ) (left top right bottom delta : ℤ) :
    ∃ rendition, d.scrollRectVertically left top right bottom delta =
        d.setLineRenditions rendition ∧
      ∀ y, 0 ≤ y → rendition y =
        if top ≤ y ∧ y < bottom then
          if top ≤ y - delta ∧ y - delta < bottom then
            d.lineRendition (if right - left = d.width then y - delta else y)
          else .singleWidth
        else d.lineRendition y := by
  unfold AdaptDispatch.scrollRectVertically
  by_cases hmoved : min |delta| (bottom - top) < bottom - top ∧ right - left = d.width
  · simp only [hmoved, and_self, if_true]
    rw [scrollRows, resetLineRenditionRange_setLineRenditions]
    refine ⟨_, rfl, fun y hy => ?_⟩
    rw [lineRendition_setLineRenditions _ _ hy]
    grind
  · simp only [hmoved, if_false]
    refine ⟨_, rfl, fun y hy => ?_⟩
    grind

theorem InLine.y_nonneg (h : d.InLine) : 0 ≤ d.position.y :=
  (Int.natCast_nonneg d.page.top).trans h.top_le

theorem Ok.x_lt_width (h : d.Ok) : d.position.x < d.width := by
  have hwidth := h.valid.two_le_width
  exact h.inLine.x_lt.trans_le (lineWidth_le_width (by omega) _)

/-- The width of a line with a rendition. -/
def renditionWidth (d : AdaptDispatch τ) (rendition : LineRendition) : ℤ :=
  if rendition = .singleWidth then d.width else d.width / 2

theorem Ok.setLineRenditions (h : d.Ok)
    (hlt : d.position.x < d.renditionWidth (rendition d.position.y)) :
    (d.setLineRenditions rendition).Ok := by
  refine ⟨h.valid.of_eq rfl rfl rfl, h.inLine.top_le, h.inLine.lt_bottom, h.inLine.x_nonneg, ?_⟩
  change d.position.x < (d.setLineRenditions rendition).lineWidth d.position.y
  rw [lineWidth, lineRendition_setLineRenditions _ _ h.inLine.y_nonneg]
  exact hlt

theorem Ok.scrollRectVertically (h : d.Ok) {left top right bottom delta : ℤ}
    (hsource : right - left = d.width → top ≤ d.position.y → d.position.y < bottom →
      top ≤ d.position.y - delta → d.position.y - delta < bottom →
      d.position.x < d.lineWidth (d.position.y - delta)) :
    (d.scrollRectVertically left top right bottom delta).Ok := by
  obtain ⟨rendition, heq, hrendition⟩ := scrollRectVertically_eq d left top right bottom delta
  rw [heq]
  refine h.setLineRenditions ?_
  have hlt := h.inLine.x_lt
  have hwidth := h.x_lt_width
  rw [hrendition _ h.inLine.y_nonneg]
  split_ifs with hrect hmoved hfull
  · exact hsource hfull hrect.1 hrect.2 hmoved.1 hmoved.2
  · exact hlt
  · exact hwidth
  · exact hlt

/-- `SU` and `SD` bring a line under the cursor that it is in. -/
def ScrollsInLine (d : AdaptDispatch τ) (delta : ℤ) : Prop :=
  let (m, d) := d.getMargins
  m.left = 0 → m.right = d.width - 1 → m.top ≤ d.position.y → d.position.y ≤ m.bottom →
    m.top ≤ d.position.y - delta → d.position.y - delta ≤ m.bottom →
    d.position.x < d.lineWidth (d.position.y - delta)

theorem Ok.scrollMovement (h : d.Ok) {delta : ℤ} (hlines : d.ScrollsInLine delta) :
    (d.scrollMovement delta).Ok := by
  obtain ⟨m, d', heq, hd, hm⟩ := h.getMargins
  simp only [ScrollsInLine, heq] at hlines
  simp only [AdaptDispatch.scrollMovement, heq]
  have hleft := hm.left_nonneg
  have hright := hm.right_lt
  exact hd.scrollRectVertically fun hfull htop hbottom htop' hbottom' =>
    hlines (by omega) (by omega) htop (by omega) htop' (by omega)

theorem Ok.insertDeleteLineHelper (h : d.Ok) (delta : ℤ) :
    (d.insertDeleteLineHelper delta).Ok := by
  obtain ⟨m, d', heq, hd, hm⟩ := h.getMargins
  simp only [AdaptDispatch.insertDeleteLineHelper, heq]
  split_ifs with hinside
  · obtain ⟨rendition, heq', hrendition⟩ := scrollRectVertically_eq d' m.left d'.position.y
      (m.right + 1) (m.bottom + 1) delta
    have hleft := hm.left_nonneg
    have hright := hm.right_lt
    have hlt := hd.inLine.x_lt
    have hwidth := hd.valid.two_le_width
    rw [heq']
    change ((d'.setLineRenditions rendition).setPosition ⟨m.left, d'.position.y⟩).Ok
    refine .setPosition (d := d'.setLineRenditions rendition) (hd.valid.of_eq rfl rfl rfl)
      hd.inLine.top_le hd.inLine.lt_bottom hleft ?_
    change m.left < (d'.setLineRenditions rendition).lineWidth d'.position.y
    rw [lineWidth, lineRendition_setLineRenditions _ _ hd.inLine.y_nonneg,
      hrendition _ hd.inLine.y_nonneg]
    change m.left < d'.renditionWidth _
    rw [lineWidth] at hlt
    unfold renditionWidth
    -- either the row of the cursor has not been moved, or the left margin is the first column
    grind
  · exact hd

/-! ### Line feeds -/

theorem scrollRectVertically_erased (d : AdaptDispatch τ) (left top right bottom delta : ℤ)
    (hy : 0 ≤ y) (hrect : top ≤ y ∧ y < bottom)
    (herased : ¬(top ≤ y - delta ∧ y - delta < bottom)) :
    ∃ rendition, d.scrollRectVertically left top right bottom delta =
      d.setLineRenditions rendition ∧ rendition y = .singleWidth := by
  obtain ⟨rendition, heq, hrendition⟩ := scrollRectVertically_eq d left top right bottom delta
  refine ⟨rendition, heq, ?_⟩
  rw [hrendition y hy, if_pos hrect, if_neg herased]

theorem Ok.setPosition_erased (h : d.Valid) {x y : ℤ}
    (hsingle : rendition y = .singleWidth) (hy : Between d.top (d.bottom - 1) y)
    (hx : Between 0 (d.width - 1) x) :
    ((d.setLineRenditions rendition).setPosition ⟨x, y⟩).Ok := by
  obtain ⟨htop, hbottom⟩ := hy
  obtain ⟨hnonneg, hlt⟩ := hx
  have hy₀ : 0 ≤ y := (Int.natCast_nonneg d.page.top).trans htop
  refine .setPosition (d := d.setLineRenditions rendition) (p := ⟨x, y⟩) (h.of_eq rfl rfl rfl)
    htop (Int.lt_of_le_sub_one hbottom) hnonneg ?_
  change x < (d.setLineRenditions rendition).lineWidth y
  rw [lineWidth, lineRendition_setLineRenditions _ _ hy₀, if_pos hsingle]
  exact Int.lt_of_le_sub_one hlt

theorem Ok.feedLine (h : d.Ok) (hm : m.Within d) {x : ℤ}
    (hxpage : Between 0 (d.width - 1) x) : (d.feedLine m x).Ok := by
  obtain ⟨htop, hvert, hbottom, hleft, hhoriz, hright⟩ := hm
  obtain ⟨hvalid, hytop, hybottom, -, -⟩ := h
  have hfits := hvalid.bottom_le
  have hy₀ : 0 ≤ d.position.y := (Int.natCast_nonneg d.page.top).trans hytop
  have hy₁ : 0 ≤ d.position.y + 1 := by omega
  have hbottom_eq : d.bottom = d.top + d.height := rfl
  -- the page after its viewport has been moved down
  have hpanned (hpan : d.bottom < d.bufferHeight) :
      Valid { d with page.top := d.page.top + 1 } := by
    refine ⟨hvalid.two_le_width, hvalid.height_pos, ?_, hvalid.two_le_pageWidth,
      hvalid.two_le_visibleWidth, hvalid.viewport⟩
    change ((d.page.top + 1 : ℕ) : ℤ) + d.height ≤ d.bufferHeight
    change (d.page.top : ℤ) + d.height < d.bufferHeight at hpan
    omega
  have hnext (hy : d.top ≤ d.position.y) : Between ((d.page.top + 1 : ℕ) : ℤ)
      (((d.page.top + 1 : ℕ) : ℤ) + d.height - 1) (d.position.y + 1) := by
    change (d.page.top : ℤ) ≤ _ at hy
    change d.position.y < (d.page.top : ℤ) + d.height at hybottom
    constructor <;> omega
  rw [AdaptDispatch.feedLine]
  simp only []
  split_ifs with hstay hmargins hpan hlower hlower
  · exact .setPosition_clamp hvalid ⟨by omega, by omega⟩ hxpage
  · obtain ⟨rendition, heq', hsingle⟩ := scrollRectVertically_erased d m.left m.top (m.right + 1)
      (m.bottom + 1) (-1) hy₀ ⟨by omega, by omega⟩ (by omega)
    rw [heq']
    exact .setPosition_erased hvalid hsingle ⟨by omega, by omega⟩ hxpage
  · obtain ⟨rendition, heq', hsingle⟩ := scrollRectVertically_erased
      { d with page.top := d.page.top + 1 } 0 (m.bottom + 1) d.width (d.bottom + 1) 1 hy₁
      ⟨by omega, by omega⟩ (by omega)
    rw [heq']
    exact .setPosition_erased (hpanned hpan) hsingle (hnext (by omega)) hxpage
  · exact .setPosition_erased (hpanned hpan) (if_pos ⟨le_rfl, by omega⟩) (hnext (by omega))
      hxpage
  · obtain ⟨rendition, heq', hsingle⟩ := scrollRectVertically_erased d.incrementCircularBuffer 0
      m.bottom d.width d.bufferHeight 1 hy₀ ⟨by omega, by omega⟩ (by omega)
    rw [heq']
    exact .setPosition_erased (hvalid.of_eq rfl rfl rfl) hsingle ⟨hytop, by omega⟩ hxpage
  · exact .setPosition_erased hvalid (if_pos (by omega)) ⟨by omega, by omega⟩ hxpage

theorem Ok.doLineFeed (h : d.Ok) (withReturn : Bool) : (d.doLineFeed withReturn).Ok := by
  obtain ⟨m, d', heq, hd, hm⟩ := h.getMargins
  simp only [AdaptDispatch.doLineFeed, heq]
  have hleft := hm.left_nonneg
  have hhoriz := hm.left_le_right
  have hright := hm.right_lt
  have hx := hd.inLine.x_nonneg
  have hxwidth := hd.x_lt_width
  refine hd.feedLine hm ?_
  rw [Between]
  split_ifs <;> omega

theorem Ok.reverseLineFeed (h : d.Ok) : d.reverseLineFeed.Ok := by
  obtain ⟨m, d', heq, hd, hm⟩ := h.getMargins
  simp only [AdaptDispatch.reverseLineFeed, heq]
  have hx := hd.inLine.x_nonneg
  have hxwidth := hd.x_lt_width
  have hbottom := hd.inLine.lt_bottom
  split_ifs with hscroll hup
  · exact hd.scrollRectVertically fun _ _ _ htop => by omega
  · exact .setPosition_clamp hd.valid ⟨by omega, by omega⟩ ⟨hx, by omega⟩
  · exact hd

theorem Ok.backIndex (h : d.Ok) : d.backIndex.Ok := by
  obtain ⟨m, d', heq, hd, -⟩ := h.getMargins
  simp only [AdaptDispatch.backIndex, heq]
  have hlt := hd.inLine.x_lt
  split_ifs with hscroll hleft
  · exact hd
  · exact hd.setXPosition (by omega) (by omega)
  · exact hd

theorem Ok.forwardIndex (h : d.Ok) : d.forwardIndex.Ok := by
  obtain ⟨m, d', heq, hd, -⟩ := h.getMargins
  simp only [AdaptDispatch.forwardIndex, heq]
  have hx := hd.inLine.x_nonneg
  split_ifs with hscroll hright
  · exact hd
  · exact hd.setXPosition (by omega) (by omega)
  · exact hd

/-! ### Printing -/

theorem Ok.lineLimit (h : d.Ok) (hm : m.Within d) (inColumns : Prop)
    [Decidable inColumns] : Between 1 (d.lineWidth d.position.y) (d.lineLimit inColumns m) := by
  have hpos := h.valid.lineWidth_pos d.position.y
  have hleft := hm.left_nonneg
  have hright := hm.left_le_right
  simp only [AdaptDispatch.lineLimit, Between]
  split_ifs <;> omega

theorem Ok.wrapLine (h : d.Ok)
    (hlimit : Between 1 (d.lineWidth d.position.y) columnLimit) :
    (d.wrapLine columnLimit).1.Ok ∧
      Between 1 ((d.wrapLine columnLimit).1.lineWidth (d.wrapLine columnLimit).1.position.y)
        (d.wrapLine columnLimit).2 := by
  have hreset : d.resetDelayEOLWrap.Ok :=
    .setPosition (d := d) (p := d.position) h.valid h.inLine.top_le h.inLine.lt_bottom
      h.inLine.x_nonneg h.inLine.x_lt
  unfold AdaptDispatch.wrapLine
  cases d.delayEOLWrap? with
  | none => exact ⟨h, hlimit⟩
  | some delayedCursorPosition =>
    have hfed := hreset.doLineFeed true
    obtain ⟨m, d', heq, hread, hm⟩ := hfed.getMargins
    simp only [heq]
    split_ifs with hwrap hsame
    · exact ⟨hread, hread.lineLimit hm True⟩
    · exact ⟨hreset, hlimit⟩
    · exact ⟨h, hlimit⟩

theorem Ok.delayEOLWrap (h : d.Ok) : d.delayEOLWrap.Ok :=
  ⟨h.valid.of_eq rfl rfl rfl, h.inLine.top_le, h.inLine.lt_bottom, h.inLine.x_nonneg,
    h.inLine.x_lt⟩

theorem Ok.ite_delayEOLWrap (h : d.Ok) (c : Prop) [Decidable c] :
    (if c then d.delayEOLWrap else d).Ok := by
  split_ifs
  · exact h.delayEOLWrap
  · exact h

theorem Ok.writeLoop (h : d.Ok)
    (hlimit : Between 1 (d.lineWidth d.position.y) columnLimit) (columnEnds : List ℕ) :
    (d.writeLoop columnLimit columnEnds).Ok := by
  induction columnEnds generalizing d columnLimit with
  | nil => exact h
  | cons columnEnd columnEnds ih =>
    obtain ⟨hwrapped, hlower, hupper⟩ := h.wrapLine hlimit
    rw [AdaptDispatch.writeLoop]
    generalize d.wrapLine columnLimit = wrapped at hwrapped hlower hupper ⊢
    obtain ⟨d', columnLimit'⟩ := wrapped
    simp only [] at hwrapped hlower hupper ⊢
    generalize hx : (if decide (columnLimit' ≤ (columnEnd : ℤ)) = true then columnLimit' - 1
      else (columnEnd : ℤ)) = x
    have hwritten : (d'.setXPosition x).Ok := hwrapped.setXPosition (by grind) (by grind)
    -- the row stays the same, and so does the limit
    refine ih (hwritten.ite_delayEOLWrap _) ⟨hlower, ?_⟩
    split_ifs <;> exact hupper

theorem Ok.writeToBuffer (h : d.Ok) (columnEnds : List ℕ) : (d.writeToBuffer columnEnds).Ok := by
  obtain ⟨m, d', heq, hd, hm⟩ := h.getMargins
  simp only [AdaptDispatch.writeToBuffer, heq]
  exact hd.writeLoop (hd.lineLimit hm _) columnEnds

/-! ### Tabs -/

theorem tabLoop_eq (d : AdaptDispatch τ) (direction : ℤ) (steps : ℕ) (column numTabs : ℤ) :
    ∃ k ≤ steps, d.tabLoop direction steps column numTabs = column + direction * k := by
  induction steps generalizing column numTabs with
  | zero => exact ⟨0, le_rfl, by simp [tabLoop]⟩
  | succ steps ih =>
    rw [tabLoop]
    split_ifs with hmore
    · obtain ⟨k, hk, heq⟩ := ih (column + direction)
        (if d.tabStopColumns.getD (column + direction).toNat false then numTabs - 1 else numTabs)
      refine ⟨k + 1, by omega, heq.trans ?_⟩
      push_cast
      ring
    · exact ⟨0, by omega, by simp⟩

theorem initTabStopsForWidth_eq (d : AdaptDispatch τ) (width : ℤ) :
    ∃ tabStopColumns, d.initTabStopsForWidth width = { d with tabStopColumns } := by
  unfold AdaptDispatch.initTabStopsForWidth
  simp only []
  split_ifs
  · exact ⟨_, rfl⟩
  · exact ⟨d.tabStopColumns, rfl⟩

theorem Ok.getLineMargins (h : d.Ok) : ∃ margins stored,
    d.getVerticalMargins.2.getHorizontalMargins (d.lineWidth d.position.y) =
      (margins, { d with scrollMargins := stored }) ∧
      0 ≤ margins.1 ∧ margins.1 ≤ margins.2 ∧ margins.2 < d.lineWidth d.position.y := by
  have hpos := h.valid.lineWidth_pos d.position.y
  obtain ⟨hleft, hhoriz, hright⟩ := clampMargins_spec d.scrollMargins.left d.scrollMargins.right
    (d.lineWidth d.position.y - 1) (by omega)
  exact ⟨_, _, rfl, hleft, hhoriz, Int.lt_of_le_sub_one hright⟩

theorem Ok.setXPosition_tabLoop (h : d.Ok) (direction limit numTabs : ℤ)
    (hlimit : Between 0 (d.lineWidth d.position.y - 1) limit)
    (hdirection : direction = 1 ∨ direction = -1) :
    (d.setXPosition (d.tabLoop direction (direction * (limit - d.position.x)).toNat d.position.x
      numTabs)).Ok := by
  obtain ⟨k, hk, hcolumn⟩ :=
    tabLoop_eq d direction (direction * (limit - d.position.x)).toNat d.position.x numTabs
  have hx := h.inLine.x_nonneg
  have hlt := h.inLine.x_lt
  obtain ⟨hlower, hupper⟩ := hlimit
  rw [hcolumn]
  obtain rfl | rfl := hdirection
  · exact h.setXPosition (by omega) (by omega)
  · exact h.setXPosition (by omega) (by omega)

theorem Ok.forwardTab (h : d.Ok) (numTabs : ℤ) : (d.forwardTab numTabs).Ok := by
  obtain ⟨⟨leftMargin, rightMargin⟩, stored, heq, hleft, hhoriz, hright⟩ := h.getLineMargins
  have hpos := h.valid.lineWidth_pos d.position.y
  unfold AdaptDispatch.forwardTab
  generalize d.getVerticalMargins = vertical at heq ⊢
  obtain ⟨⟨topMargin, bottomMargin⟩, d₁⟩ := vertical
  simp only [heq]
  obtain ⟨stops, hstops⟩ := initTabStopsForWidth_eq { d with scrollMargins := stored }
    (d.lineWidth d.position.y)
  rw [hstops]
  have hd : Ok { d with scrollMargins := stored, tabStopColumns := stops } := h.of_eq rfl rfl
  have hmoved (limit : ℤ) (hlimit : Between 0 (d.lineWidth d.position.y - 1) limit) :=
    hd.setXPosition_tabLoop 1 limit numTabs hlimit (.inl rfl)
  simp only [one_mul] at hmoved
  exact (hmoved _ (by unfold Between; split_ifs <;> omega)).ite_delayEOLWrap _

theorem Ok.backwardsTab (h : d.Ok) (numTabs : ℤ) : (d.backwardsTab numTabs).Ok := by
  obtain ⟨⟨leftMargin, rightMargin⟩, stored, heq, hleft, hhoriz, hright⟩ := h.getLineMargins
  have hpos := h.valid.lineWidth_pos d.position.y
  unfold AdaptDispatch.backwardsTab
  generalize d.getVerticalMargins = vertical at heq ⊢
  obtain ⟨⟨topMargin, bottomMargin⟩, d₁⟩ := vertical
  simp only [heq]
  obtain ⟨stops, hstops⟩ := initTabStopsForWidth_eq { d with scrollMargins := stored }
    (d.lineWidth d.position.y)
  rw [hstops]
  have hd : Ok { d with scrollMargins := stored, tabStopColumns := stops } := h.of_eq rfl rfl
  have hmoved (limit : ℤ) (hlimit : Between 0 (d.lineWidth d.position.y - 1) limit) :=
    hd.setXPosition_tabLoop (-1) limit numTabs hlimit (.inr rfl)
  simp only [neg_one_mul, neg_sub] at hmoved
  exact hmoved _ (by unfold Between; split_ifs <;> omega)

/-! ### Margins, line renditions and the saved cursor -/

theorem Ok.resetDelayEOLWrap (h : d.Ok) : d.resetDelayEOLWrap.Ok :=
  .setPosition (d := d) (p := d.position) h.valid h.inLine.top_le h.inLine.lt_bottom
    h.inLine.x_nonneg h.inLine.x_lt

theorem Ok.insertDeleteCharacterHelper (h : d.Ok) : d.insertDeleteCharacterHelper.Ok := by
  have hvert : d.getVerticalMargins.2.Ok := h.of_eq rfl rfl
  have hmargins : (d.getVerticalMargins.2.getHorizontalMargins (d.lineWidth d.position.y)).2.Ok :=
    h.of_eq rfl rfl
  unfold AdaptDispatch.insertDeleteCharacterHelper
  generalize d.getVerticalMargins = vertical at hvert hmargins ⊢
  obtain ⟨⟨topMargin, bottomMargin⟩, d₁⟩ := vertical
  simp only []
  split_ifs
  · exact hmargins.resetDelayEOLWrap
  · exact hmargins
  · exact hvert.resetDelayEOLWrap
  · exact hvert

theorem Ok.doSetTopBottomScrollingMargins (h : d.Ok) (topMargin bottomMargin : ℕ) :
    (d.doSetTopBottomScrollingMargins topMargin bottomMargin).Ok := by
  unfold AdaptDispatch.doSetTopBottomScrollingMargins
  cases requestedMargins topMargin bottomMargin d.pages.pageSize.height with
  | none => exact h
  | some margins =>
    apply Valid.cursorPosition
    exact h.valid.of_eq rfl rfl rfl

theorem Ok.cursorSaveState (h : d.Ok) : d.cursorSaveState.Ok := by
  rw [cursorSaveState_eq]
  split_ifs <;> exact h.of_eq rfl rfl

theorem Ok.setLeftRightScrollingMargins (h : d.Ok) (leftMargin rightMargin : ℕ) :
    (d.setLeftRightScrollingMargins leftMargin rightMargin).Ok := by
  unfold AdaptDispatch.setLeftRightScrollingMargins AdaptDispatch.doSetLeftRightScrollingMargins
  split_ifs
  · cases requestedMargins leftMargin rightMargin d.page.buffer.size.width with
    | none => exact h
    | some margins =>
    apply Valid.cursorPosition
    exact h.valid.of_eq rfl rfl rfl
  · exact h.cursorSaveState

theorem Ok.setLineRendition (h : d.Ok) (rendition : LineRendition) :
    (d.setLineRendition rendition).Ok := by
  unfold AdaptDispatch.setLineRendition
  simp only []
  split_ifs
  · exact h
  · apply Ok.resetDelayEOLWrap
    have hwidth := h.x_lt_width
    exact Ok.setPosition_clamp (d := d.setLineRenditions _) (h.valid.of_eq rfl rfl rfl)
      ⟨h.inLine.top_le, Int.le_sub_one_of_lt h.inLine.lt_bottom⟩
      ⟨h.inLine.x_nonneg, Int.le_sub_one_of_lt hwidth⟩
  · apply Ok.resetDelayEOLWrap
    refine h.setLineRenditions ?_
    simp_all [renditionWidth, h.x_lt_width]
  · exact h.resetDelayEOLWrap

theorem Valid.pagePositionAbsolute (h : d.Valid) (page : ℤ) :
    (d.pagePositionAbsolute page).Valid := by
  obtain ⟨hwidth, hheight, hbottom, hpage, hvisible, hviewport⟩ := h
  have hpos : 0 < d.pages.pageSize.height := Int.ofNat_lt.mp hheight
  have hstored : 2 ≤ d.storedPages.visibleBuffer.size.width ∧
      d.storedPages.visibleTop + d.pages.pageSize.height ≤
        d.storedPages.visibleBuffer.size.height ∧
      d.storedPages.pageSize = d.pages.pageSize := by
    unfold storedPages
    split_ifs
    · exact ⟨hvisible, hviewport, rfl⟩
    · exact ⟨Int.ofNat_le.mp hwidth, Int.ofNat_le.mp hbottom, rfl⟩
  obtain ⟨⟨hsize, htop, hbuffer, -⟩, -⟩ :=
    sameSizes_moveTo d.storedPages page d.pageCursorCoupling
  unfold AdaptDispatch.pagePositionAbsolute
  generalize d.storedPages.moveTo renditions page d.pageCursorCoupling = pages at hsize htop hbuffer
  rw [hstored.2.2] at hsize
  rw [← hbuffer, ← htop] at hstored
  obtain ⟨hactiveWidth, hactiveHeight⟩ := activePage_fits pages (by rw [hsize]; exact hpage)
    (by rw [hsize]; exact hpos) hstored.1 (by rw [hsize]; exact hstored.2.1)
  refine ⟨Int.ofNat_le.mpr hactiveWidth, ?_, Int.ofNat_le.mpr hactiveHeight, ?_, hstored.1, ?_⟩
  · change (0 : ℤ) < pages.pageSize.height
    rw [hsize]
    exact hheight
  · rw [hsize]
    exact hpage
  · rw [hsize]
    exact hstored.2.1

theorem Ok.cursorRestoreState (h : d.Ok) : d.cursorRestoreState.Ok := by
  have hrestored : Ok (({ d with
      originMode := d.savedCursorState.isOriginModeRelative }.pagePositionAbsolute
        d.savedCursorState.page).cursorPosition d.savedCursorState.row
          d.savedCursorState.column) := by
    apply Valid.cursorPosition
    apply Valid.pagePositionAbsolute
    exact h.valid.of_eq rfl rfl rfl
  have hdelayed := hrestored.ite_delayEOLWrap (d.savedCursorState.isDelayedEOLWrap = true)
  exact ⟨hdelayed.valid.of_eq rfl rfl rfl, hdelayed.inLine.top_le, hdelayed.inLine.lt_bottom,
    hdelayed.inLine.x_nonneg, hdelayed.inLine.x_lt⟩

/-! ### Runs -/

/-- All control sequences but an `SU` or `SD` that brings a shorter line under the cursor. -/
def KeepsLine (d : AdaptDispatch τ) : Op τ → Prop
  | .scrollUp distance => d.ScrollsInLine (-distance)
  | .scrollDown distance => d.ScrollsInLine distance
  | _ => True

theorem Ok.step (h : d.Ok) {op : Op τ} (hop : d.KeepsLine op) : (d.step op).Ok := by
  cases op with
  | move movement => exact h.move movement
  | lineFeed lineFeedType => cases lineFeedType <;> exact h.doLineFeed _
  | reverseLineFeed => exact h.reverseLineFeed
  | backIndex => exact h.backIndex
  | forwardIndex => exact h.forwardIndex
  | forwardTab numTabs => exact h.forwardTab numTabs
  | backwardsTab numTabs => exact h.backwardsTab numTabs
  | insertCharacter _ => exact h.insertDeleteCharacterHelper
  | deleteCharacter _ => exact h.insertDeleteCharacterHelper
  | insertLine distance => exact h.insertDeleteLineHelper distance
  | deleteLine distance => exact h.insertDeleteLineHelper (-distance)
  | insertColumn _ => exact h.of_eq rfl rfl
  | deleteColumn _ => exact h.of_eq rfl rfl
  | scrollUp distance => exact h.scrollMovement hop
  | scrollDown distance => exact h.scrollMovement hop
  | setTopBottomScrollingMargins topMargin bottomMargin =>
    exact h.doSetTopBottomScrollingMargins topMargin bottomMargin
  | setLeftRightScrollingMargins leftMargin rightMargin =>
    exact h.setLeftRightScrollingMargins leftMargin rightMargin
  | setLineRendition rendition => exact h.setLineRendition rendition
  | cursorSaveState => exact h.cursorSaveState
  | cursorRestoreState => exact h.cursorRestoreState
  | print columnEnds => exact h.writeToBuffer columnEnds
  | setOriginMode enable =>
    apply Valid.cursorPosition
    exact h.valid.of_eq rfl rfl rfl
  | setGraphicsRendition attributes =>
    exact ⟨h.valid.of_eq rfl rfl rfl, h.inLine.top_le, h.inLine.lt_bottom, h.inLine.x_nonneg,
      h.inLine.x_lt⟩
  | designateCharset termOutput => exact h.of_eq rfl rfl

end AdaptDispatch

open AdaptDispatch

/-- As long as no `SU` or `SD` brings a shorter line under the cursor, it stays in its line. -/
theorem cursor_inLine {d d' : AdaptDispatch τ} (hvalid : d.Valid) (hline : d.InLine)
    (hrun : Relation.ReflTransGen (fun d d' => ∃ op, d.KeepsLine op ∧ d' = d.step op) d d') :
    d'.InLine := by
  have hok : d'.Ok := by
    induction hrun with
    | refl => exact ⟨hvalid, hline⟩
    | tail _ hstep ih =>
      obtain ⟨op, hop, rfl⟩ := hstep
      exact ih.step hop
  exact hok.inLine

/-- A scroll under a cursor in the first column. -/
theorem cursor_inLine_scrollUp :
    (((AdaptDispatch.new ⟨80, 24⟩ ()).step (.setLineRendition .doubleWidth)).step
      (.scrollUp 1)).InLine :=
  cursor_inLine (d := .new ⟨80, 24⟩ ()) (by constructor <;> decide) (by constructor <;> decide)
    (.tail (.tail .refl ⟨.setLineRendition .doubleWidth, trivial, rfl⟩)
      ⟨.scrollUp 1, fun _ _ _ _ _ _ => by decide, rfl⟩)

/-- A line of double width is scrolled under a cursor in the right half of the page. -/
theorem not_cursor_inLine :
    ¬∀ ops : List (Op Unit), (ops.foldl AdaptDispatch.step (.new ⟨80, 24⟩ ())).InLine := by
  intro h
  have hlt := (h [.move (.cursorPosition 2 1), .setLineRendition .doubleWidth,
    .move (.cursorPosition 1 51), .scrollUp 1]).x_lt
  revert hlt
  decide

end IntelligentTerminal.Adapter
