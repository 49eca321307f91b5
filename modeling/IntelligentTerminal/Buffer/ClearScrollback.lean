import IntelligentTerminal.Buffer.ScrollRows
import Mathlib

/-!
# Clearing the scrollback

`TextBuffer::ClearScrollback` moves the viewport to the start of the array, one row after the other
and in place. Behind the last row of the array the copy reads rows that it has written itself, so the
viewport is kept only if these are equal to the rows that were there.

Source: `src/buffer/out/textBuffer.cpp`, lines 145-164, 191-220, 806-882, 999-1030 and 3200-3217.
-/

namespace IntelligentTerminal.Buffer

open Glyph

/-! ### The code -/

/-- What `TextBuffer::ClearMarksInRange` does to a row. -/
def ROW.clearMarks (r : ROW) : ROW :=
  { r with
    promptData := none
    attr := r.attr.map fun attr => { attr with markKind := .none } }

namespace TextBuffer

/-- A loop over `GetMutableRowByOffset`, for `count` rows from `y` on. -/
def updateRows (f : ROW → ROW) : ℕ → ℤ → TextBuffer → TextBuffer
  | 0, _, b => b
  | count + 1, y, b => updateRows f count (y + 1) ((b.getRow y).2.setRow y (f (b.getRow y).1))

def clearMarksInRange (b : TextBuffer) (start end' : Point) : TextBuffer :=
  let top := clampInt (min start.y end'.y) 0 (b.height - 1)
  let bottom := clampInt (max start.y end'.y) 0 b.estimateOffsetOfLastCommittedRow
  updateRows ROW.clearMarks (bottom + 1 - top).toNat top b

def setFirstRowIndex (b : TextBuffer) (firstRowIndex : ℤ) : TextBuffer :=
  { b with firstRow := firstRowIndex }

def decommit (b : TextBuffer) : TextBuffer := { b with rows := [] }

/-- The loop at the end of `TextBuffer::ClearScrollback`. -/
def resetFrom (b : TextBuffer) (rowsToKeep : ℤ) : TextBuffer :=
  let end' : ℤ := b.estimateOffsetOfLastCommittedRow
  updateRows (fun r => r.reset b.initialAttributes) (end' + 1 - rowsToKeep).toNat rowsToKeep b

def clearScrollback (b : TextBuffer) (newFirstRow rowsToKeep : ℤ) : Except TextBuffer TextBuffer :=
  if newFirstRow ≤ 0 then .ok b
  else if rowsToKeep ≤ 0 then .ok b.decommit
  else
    let b := b.clearMarksInRange {} { x := b.width, y := max 0 (newFirstRow - 1) }
    let startAbsolute := b.firstRow + newFirstRow
    (scrollRows (b.setFirstRowIndex 0) startAbsolute rowsToKeep (-startAbsolute)).map fun b =>
      b.resetFrom rowsToKeep

end TextBuffer

/-! ### What it is for -/

/-- The rows have the same width, the same text and the same attributes. -/
structure ROW.SameContents (r s : ROW) : Prop where
  columnCount : r.columnCount = s.columnCount
  cells : ∀ c < s.columnCount, r.glyphAt c = s.glyphAt c ∧ r.dbcsAttrAt c = s.dbcsAttrAt c
  attr : ∀ c < s.columnCount, r.attr[c]? = s.attr[c]?

namespace TextBuffer

/-- The rows from `newFirstRow` on are the first rows now, and all others are blank. -/
def KeepsViewport (b : TextBuffer) (newFirstRow rowsToKeep : ℤ) (out : Except TextBuffer TextBuffer) :
    Prop :=
  ∃ b', out = .ok b' ∧ b'.height = b.height ∧ ∀ y : ℤ, 0 ≤ y → y < b.height →
    if y < rowsToKeep then
      (b'.row y).WellFormed ∧ (b'.row y).SameContents (b.row (newFirstRow + y))
    else b'.row y = b.blankRow

end TextBuffer

/-! ### What a copy of a row leaves -/

/-- The glyphs of the row after `ROW::CopyFrom`. -/
def ROW.copiedGlyphs (r source : ROW) : List (Glyph WChar) :=
  let text := fitting source.copiedColumns source.glyphs
  text ++ (blanks space (source.copiedColumns - cols text) ++ rightOf space r.glyphs source.copiedColumns)

/-- `_doubleBytePadded` after `ROW::CopyFrom`. -/
def ROW.copiedPadding (r source : ROW) : Bool :=
  if r.adjustForward source.copiedColumns = r.columnCount then
    decide (cols (fitting source.copiedColumns source.glyphs) < r.columnCount)
  else r.doubleBytePadded

/-- A copy of `source` to the row gives the text and the attributes of `target`. -/
def ROW.CopiesTo (r source target : ROW) : Prop :=
  r.copiedGlyphs source = target.glyphs ∧ source.attr = target.attr

namespace TextBuffer

/-- The row at a place of the array. -/
def storedRow (b : TextBuffer) (i : ℕ) : ROW := b.rows.getD (i + 1) b.blankRow

/-- The row that the `i`-th row of the viewport is copied from. Behind the end of the array that is a
row of the viewport which has been copied before, with the flags that the copy gave it. -/
def keptFrom (b : TextBuffer) (newFirstRow : ℤ) (i : ℕ) : ROW :=
  if _ : b.rowIndex newFirstRow + i < b.height ∨ b.height ≤ b.rowIndex newFirstRow then
    b.row (newFirstRow + i)
  else
    let j := b.rowIndex newFirstRow + i - b.height
    { b.row (newFirstRow + j) with
      lineRendition := (b.keptFrom newFirstRow j).lineRendition
      doubleBytePadded := (b.storedRow j).copiedPadding (b.keptFrom newFirstRow j) }
termination_by i
decreasing_by all_goals omega

/-- Each row of the viewport is what its copy gives, or no row moves. -/
def CopiesViewport (b : TextBuffer) (newFirstRow rowsToKeep : ℤ) : Prop :=
  b.rowIndex newFirstRow = 0 ∨ ∀ i : ℕ, i < rowsToKeep →
    (b.storedRow i).CopiesTo (b.keptFrom newFirstRow i) (b.row (newFirstRow + i))

end TextBuffer

/-! ### Rows -/

namespace ROW

variable {n : ℕ} {r s t : ROW}

/-- No glyph, attribute or flag that a copy reads tells the rows apart. -/
structure ReadsAs (r s : ROW) : Prop where
  glyphs : r.glyphs = s.glyphs
  attr : r.attr = s.attr
  lineRendition : r.lineRendition = s.lineRendition
  doubleBytePadded : r.doubleBytePadded = s.doubleBytePadded

theorem OfWidth.sameContents_iff (hr : r.OfWidth n) (hs : s.OfWidth n) :
    r.SameContents s ↔ r.glyphs = s.glyphs ∧ r.attr = s.attr := by
  have hcount := hr.columnCount.trans hs.columnCount.symm
  constructor
  · rintro ⟨-, hcells, hattr⟩
    refine ⟨hr.represents.eq_of_cells hs.represents hcount hcells, List.ext_getElem? fun c => ?_⟩
    rcases Nat.lt_or_ge c s.columnCount with hc | hc
    · exact hattr c hc
    · rw [hs.columnCount] at hc
      rw [List.getElem?_eq_none (hr.length_attr ▸ hc), List.getElem?_eq_none (hs.length_attr ▸ hc)]
  · rintro ⟨hglyphs, hattr⟩
    have hrep := hr.represents
    rw [hglyphs] at hrep
    exact ⟨hcount, fun c hc => hrep.cells_eq hs.represents hc, fun c _ => by rw [hattr]⟩

theorem OfWidth.copiedColumns_eq (hs : s.OfWidth n) {k : ℕ}
    (hk : k = clampColumn n s.getReadableColumnCount) :
    s.copiedColumns = if fitting k s.glyphs = [] then 0 else k := by
  have hcols : cols s.glyphs = n := hs.represents.count.trans hs.columnCount
  have hkle : k ≤ cols s.glyphs := by
    rw [hk, hcols]
    exact clampColumn_le _ _
  rw [copiedColumns, hs.represents.clampedColumnInclusive_eq, hcols, ← hk,
    hs.represents.adjustBackward_fitting hkle]
  simp only [cols_eq_zero_iff]

theorem ReadsAs.copiedColumns (h : r.ReadsAs s) (hr : r.OfWidth n) (hs : s.OfWidth n) :
    r.copiedColumns = s.copiedColumns := by
  have hreadable : r.getReadableColumnCount = s.getReadableColumnCount := by
    rw [getReadableColumnCount, getReadableColumnCount, h.lineRendition, h.doubleBytePadded,
      hr.columnCount, hs.columnCount]
  rw [hr.copiedColumns_eq rfl, hs.copiedColumns_eq rfl, hreadable, h.glyphs]

theorem ReadsAs.copiedGlyphs (h : s.ReadsAs t) (hs : s.OfWidth n) (ht : t.OfWidth n) :
    r.copiedGlyphs s = r.copiedGlyphs t := by
  rw [ROW.copiedGlyphs, ROW.copiedGlyphs, h.copiedColumns hs ht, h.glyphs]

theorem ReadsAs.copiedPadding (h : s.ReadsAs t) (hs : s.OfWidth n) (ht : t.OfWidth n) :
    r.copiedPadding s = r.copiedPadding t := by
  rw [ROW.copiedPadding, ROW.copiedPadding, h.copiedColumns hs ht, h.glyphs]

theorem OfWidth.setFlags (hr : r.OfWidth n) (lineRendition : LineRendition) (doubleBytePadded : Bool) :
    OfWidth n { r with lineRendition, doubleBytePadded } :=
  ⟨hr.represents.of_text_eq rfl rfl rfl, hr.columnCount, hr.length_attr⟩

theorem OfWidth.copyFrom_cases (hn : 0 < n) (hr : r.OfWidth n) (hs : s.OfWidth n) :
    (units (r.copiedGlyphs s) < 0x8000 → ∃ r', r.copyFrom s false = .ok r' ∧ r'.OfWidth n ∧
      r'.ReadsAs { s with
        chars := r'.chars, charOffsets := r'.charOffsets, columnCount := r'.columnCount
        doubleBytePadded := r.copiedPadding s } ∧ r'.glyphs = r.copiedGlyphs s) ∧
    (0x8000 ≤ units (r.copiedGlyphs s) → ∀ r', r.copyFrom s false = .ok r' → r'.columnCount = n →
      ¬r'.WellFormed) := by
  have hrep := hr.represents
  have hcount : r.columnCount = s.columnCount := hr.columnCount.trans hs.columnCount.symm
  have hcols : cols r.glyphs = cols s.glyphs := by rw [hrep.count, hs.represents.count, hcount]
  have hscols : cols s.glyphs = n := hs.represents.count.trans hs.columnCount
  have hattr : s.attr.resizeTrailingExtent r.columnCount = s.attr := by
    rw [hr.columnCount, ← hs.length_attr, RowAttributes.resizeTrailingExtent_length_self]
  obtain ⟨k, hk⟩ : ∃ k, k = clampColumn (cols s.glyphs) s.getReadableColumnCount := ⟨_, rfl⟩
  have hcopied := hs.copiedColumns_eq (hscols ▸ hk)
  by_cases hnil : fitting k s.glyphs = []
  · rw [if_pos hnil] at hcopied
    have hglyphs : r.copiedGlyphs s = r.glyphs := by
      rw [copiedGlyphs, hcopied, fitting_zero, rightOf_zero]
      rfl
    have hpadding : r.copiedPadding s = r.doubleBytePadded := by
      have hfwd : r.adjustForward 0 = 0 := hrep.adjustForward_boundary (A := [])
      rw [copiedPadding, hcopied, hfwd, if_neg (by rw [hr.columnCount]; omega)]
    rw [hglyphs, hpadding]
    refine ⟨fun _ => ⟨_, hrep.copyFrom_of_fitting_eq_nil hs.represents hk hnil,
      ⟨hrep.of_text_eq rfl rfl rfl, hr.columnCount, ?_⟩, ⟨rfl, hattr, rfl, rfl⟩, rfl⟩, fun h => ?_⟩
    · rw [hattr]
      exact hs.length_attr
    · have := hrep.units_lt
      omega
  · rw [if_neg hnil] at hcopied
    have hglyphs : r.copiedGlyphs s =
        fitting k s.glyphs ++ (blanks space (k - cols (fitting k s.glyphs)) ++ rightOf space r.glyphs k) := by
      rw [copiedGlyphs, hcopied]
    obtain ⟨hok, hover⟩ := hrep.copyFrom_of_fitting_ne_nil hs.represents hcols hk hnil hglyphs
    refine ⟨fun h => ?_, fun h r' hr' hcount' hwf => ?_⟩
    · obtain ⟨r', hr', hrep', hrest⟩ := hok h
      have hcount' : r'.columnCount = n := by
        rw [hrest]
        exact hr.columnCount
      have hattr' : r'.attr = s.attr := by
        rw [hrest]
        exact hattr
      have hrendition : r'.lineRendition = s.lineRendition := by rw [hrest]
      have hpadding : r'.doubleBytePadded = r.copiedPadding s := by
        rw [hrest, copiedPadding, hcopied]
      have hshown := hrep'.glyphs_eq
      exact ⟨r', hr', ⟨hshown.symm ▸ hrep', hcount', hattr' ▸ hs.length_attr⟩,
        ⟨rfl, hattr', hrendition, hpadding⟩, hshown⟩
    · have hlast := hover h r' hr'
      rw [hr.columnCount, ← hcount', hwf.last] at hlast
      cases hlast

end ROW

/-! ### Loops over the rows -/

namespace TextBuffer

variable {b c c' : TextBuffer}

theorem updateRows_spec (f : ROW → ROW) (count : ℕ) (y : ℤ) (hh : 0 < b.height) (hy : 0 ≤ y)
    (hle : y + count ≤ b.height) :
    (updateRows f count y b).SameShape b ∧
    (b.rows.length ≤ b.height + 1 → (updateRows f count y b).rows.length ≤ b.height + 1) ∧
    ∀ z : ℤ, 0 ≤ z → z < b.height → (updateRows f count y b).row z =
      if y ≤ z ∧ z < y + count then f (b.row z) else b.row z := by
  induction count generalizing y b with
  | zero =>
    refine ⟨.refl b, id, fun z _ _ => ?_⟩
    rw [if_neg (by omega)]
    rfl
  | succ count ih =>
    have hshape := b.store_sameShape y (f (b.getRow y).1)
    obtain ⟨ihShape, ihLength, ihRow⟩ := ih (b := (b.getRow y).2.setRow y (f (b.getRow y).1))
      (y := y + 1) (hshape.height.symm ▸ hh) (by omega) (by rw [hshape.height]; omega)
    rw [updateRows]
    refine ⟨ihShape.trans hshape, fun h => ?_, fun z hz hz' => ?_⟩
    · rw [hshape.height] at ihLength
      refine ihLength ?_
      rw [length_setRow]
      exact length_commit_le b h _
    · rw [ihRow z hz (by rw [hshape.height]; exact hz'), row_store hh y _ hz hz', getRow_fst,
        Int.emod_eq_of_lt hy (by omega)]
      by_cases hzy : z = y
      · rw [hzy, if_neg (by omega), if_pos rfl, if_pos (by omega)]
      · rw [if_neg hzy]
        exact if_congr (by omega) rfl rfl

theorem copyRow_frame {src dst : ℤ} (hh : 0 < b.height) (h : b.copyRow src dst = .ok c) :
    c.SameShape b ∧ (b.rows.length ≤ b.height + 1 → c.rows.length ≤ b.height + 1) ∧
    ∀ z, b.rowIndex z ≠ b.rowIndex dst → c.row z = b.row z := by
  obtain ⟨b₁, hshape, hlen, hlength, hrow, herror, hok⟩ := b.copyRow_spec hh src dst
  cases hout : (b.row dst).copyFrom (b.row src) (decide (b.rowIndex src = b.rowIndex dst)) with
  | error r =>
    rw [herror r hout] at h
    cases h
  | ok r =>
    rw [hok r hout] at h
    rw [← Except.ok.inj h]
    refine ⟨(b₁.setRow_sameShape _ _).trans hshape, fun h => ?_, fun z hz => ?_⟩
    · rw [length_setRow]
      exact hlength h
    · rw [row_setRow b₁ (by rw [hshape.rowIndex]; exact hlen), hshape.rowIndex, hshape.rowIndex,
        if_neg hz, hrow]

theorem scrollLoop_frame {delta : ℤ} {count : ℕ} {y : ℤ} (hh : 0 < b.height) (hy : 0 ≤ y + delta)
    (hle : y + delta + count ≤ b.height) (h : scrollLoop delta 1 count y b = .ok c) :
    c.SameShape b ∧ (b.rows.length ≤ b.height + 1 → c.rows.length ≤ b.height + 1) ∧
    ∀ z : ℤ, b.firstRow = 0 → 0 ≤ z → z < b.height → z < y + delta ∨ y + delta + count ≤ z →
      c.row z = b.row z := by
  induction count generalizing y b with
  | zero =>
    rw [← Except.ok.inj h]
    exact ⟨.refl b, id, fun _ _ _ _ _ => rfl⟩
  | succ count ih =>
    cases hcopy : b.copyRow y (y + delta) with
    | error e =>
      rw [scrollLoop_error hcopy] at h
      cases h
    | ok b₁ =>
      rw [scrollLoop_ok hcopy] at h
      obtain ⟨hshape, hlength, hrow⟩ := copyRow_frame hh hcopy
      obtain ⟨ihShape, ihLength, ihRow⟩ := ih (hshape.height.symm ▸ hh) (by omega)
        (by rw [hshape.height]; omega) h
      refine ⟨ihShape.trans hshape, fun h => ?_, fun z hfirst hz hz' hout => ?_⟩
      · rw [hshape.height] at ihLength
        exact ihLength (hlength h)
      · rw [ihRow z (hshape.firstRow.trans hfirst) hz (by rw [hshape.height]; exact hz') (by omega)]
        refine hrow z ?_
        rw [ne_eq, b.rowIndex_inj hz hz' hy (by omega)]
        omega

end TextBuffer

/-! ### Places of the array -/

namespace TextBuffer

variable {b c : TextBuffer} {newFirstRow : ℤ} {j : ℕ}

theorem rowIndex_of_firstRow_eq_zero (h : c.firstRow = 0) (hj : j < c.height) :
    c.rowIndex j = j := by
  have hindex := c.rowIndex_eq (by omega) j
  rw [h, zero_add, Int.emod_eq_of_lt (by omega) (by omega)] at hindex
  exact_mod_cast hindex

theorem row_of_firstRow_eq_zero (h : c.firstRow = 0) (hj : j < c.height) :
    c.row j = c.storedRow j := by
  rw [row, rowIndex_of_firstRow_eq_zero h hj]
  rfl

theorem storedRow_eq (hj : j < b.height) :
    b.storedRow j = b.row ((j - b.firstRow) % b.height) := by
  have hindex := b.rowIndex_eq (by omega) ((j - b.firstRow) % b.height)
  have hmod : (j : ℤ) % b.height = j := Int.emod_eq_of_lt (by omega) (by omega)
  rw [Int.add_emod_emod, add_sub_cancel, hmod] at hindex
  have hplace : b.rowIndex ((j - b.firstRow) % b.height) = j := by exact_mod_cast hindex
  rw [row, hplace]
  rfl

theorem rowIndex_add (hh : 0 < b.height) (i : ℕ) :
    b.rowIndex (newFirstRow + i) = (b.rowIndex newFirstRow + i) % b.height := by
  have hsum := b.rowIndex_eq hh (newFirstRow + i)
  have hstart := b.rowIndex_eq hh newFirstRow
  have hmod : ((b.rowIndex newFirstRow + i : ℕ) : ℤ) % b.height =
      (b.firstRow + (newFirstRow + i)) % b.height := by
    rw [Nat.cast_add, hstart, Int.emod_add_emod, add_assoc]
  rw [← hmod] at hsum
  exact_mod_cast hsum

theorem keptFrom_of_lt {i : ℕ} (h : b.rowIndex newFirstRow + i < b.height) :
    b.keptFrom newFirstRow i = b.row (newFirstRow + i) := by
  rw [keptFrom, dif_pos (Or.inl h)]

/-- A row of the viewport as its copy leaves it. -/
def keptRow (b : TextBuffer) (newFirstRow : ℤ) (j : ℕ) : ROW :=
  { b.row (newFirstRow + j) with
    lineRendition := (b.keptFrom newFirstRow j).lineRendition
    doubleBytePadded := (b.storedRow j).copiedPadding (b.keptFrom newFirstRow j) }

theorem keptFrom_of_ge (hh : 0 < b.height) {i j : ℕ} (h : b.rowIndex newFirstRow + i = b.height + j) :
    b.keptFrom newFirstRow i = b.keptRow newFirstRow j := by
  have hlt := b.rowIndex_lt hh newFirstRow
  have hj : b.rowIndex newFirstRow + i - b.height = j := by omega
  rw [keptFrom, dif_neg (by omega)]
  simp only [hj]
  rfl

theorem ofWidth_row (hh : 0 < b.height)
    (hrows : ∀ y : ℤ, 0 ≤ y → y < b.height → (b.row y).OfWidth b.width) (y : ℤ) :
    (b.row y).OfWidth b.width := by
  have hpos : (0 : ℤ) < b.height := by exact_mod_cast hh
  rw [row_emod hh]
  exact hrows _ (Int.emod_nonneg _ hpos.ne') (Int.emod_lt_of_pos _ hpos)

theorem ofWidth_keptFrom (hh : 0 < b.height)
    (hrows : ∀ y : ℤ, 0 ≤ y → y < b.height → (b.row y).OfWidth b.width) (newFirstRow : ℤ) (i : ℕ) :
    (b.keptFrom newFirstRow i).OfWidth b.width := by
  by_cases hlt : b.rowIndex newFirstRow + i < b.height
  · rw [keptFrom_of_lt hlt]
    exact ofWidth_row hh hrows _
  · rw [keptFrom_of_ge hh (j := b.rowIndex newFirstRow + i - b.height) (by omega)]
    exact (ofWidth_row hh hrows _).setFlags _ _

/-! ### The copy -/

/-- The first `i` rows of the viewport have been copied, and no row behind them has changed. -/
structure Kept (b : TextBuffer) (newFirstRow : ℤ) (i : ℕ) (c : TextBuffer) : Prop where
  firstRow : c.firstRow = 0
  height : c.height = b.height
  done : ∀ j < i, (c.storedRow j).OfWidth b.width ∧ (c.storedRow j).ReadsAs (b.keptRow newFirstRow j)
  rest : ∀ j, i ≤ j → j < b.height → c.storedRow j = b.storedRow j

/-- What the copy of the viewport is for. -/
def KeepsRows (b : TextBuffer) (newFirstRow : ℤ) (rowsToKeep : ℕ) (out : Except TextBuffer TextBuffer) :
    Prop :=
  ∃ c, out = .ok c ∧ ∀ j < rowsToKeep,
    (c.row j).WellFormed ∧ (c.row j).SameContents (b.row (newFirstRow + j))

namespace Kept

variable {i : ℕ}

theorem row_eq (h : b.Kept newFirstRow i c) {j : ℕ} (hj : j < b.height) : c.row j = c.storedRow j :=
  row_of_firstRow_eq_zero h.firstRow (h.height.symm ▸ hj)

theorem source (h : b.Kept newFirstRow i c) (hh : 0 < b.height)
    (hrows : ∀ y : ℤ, 0 ≤ y → y < b.height → (b.row y).OfWidth b.width)
    (hpos : 0 < b.rowIndex newFirstRow) (hi : i < b.height) :
    c.rowIndex (b.firstRow + newFirstRow + i) ≠ c.rowIndex i ∧
    (c.row (b.firstRow + newFirstRow + i)).OfWidth b.width ∧
    (c.row (b.firstRow + newFirstRow + i)).ReadsAs (b.keptFrom newFirstRow i) := by
  have hlt := b.rowIndex_lt hh newFirstRow
  have hindex : c.rowIndex (b.firstRow + newFirstRow + i) =
      (b.rowIndex newFirstRow + i) % b.height := by
    have hread := c.rowIndex_eq (h.height.symm ▸ hh) (b.firstRow + newFirstRow + i)
    have hplace := b.rowIndex_eq hh (newFirstRow + i)
    rw [← add_assoc] at hplace
    rw [h.firstRow, zero_add, h.height, ← hplace] at hread
    rw [← rowIndex_add hh]
    exact_mod_cast hread
  rw [row, hindex, rowIndex_of_firstRow_eq_zero h.firstRow (h.height.symm ▸ hi)]
  change _ ∧ (c.storedRow _).OfWidth _ ∧ (c.storedRow _).ReadsAs _
  by_cases hwrap : b.rowIndex newFirstRow + i < b.height
  · have hrow : b.storedRow (b.rowIndex newFirstRow + i) = b.row (newFirstRow + i) := by
      rw [row, rowIndex_add hh, Nat.mod_eq_of_lt hwrap]
      rfl
    rw [Nat.mod_eq_of_lt hwrap, h.rest _ (by omega) hwrap, hrow, keptFrom_of_lt hwrap]
    exact ⟨by omega, ofWidth_row hh hrows _, rfl, rfl, rfl, rfl⟩
  · have hmod : (b.rowIndex newFirstRow + i) % b.height = b.rowIndex newFirstRow + i - b.height := by
      rw [Nat.mod_eq_sub_mod (by omega), Nat.mod_eq_of_lt (by omega)]
    rw [hmod, keptFrom_of_ge hh (j := b.rowIndex newFirstRow + i - b.height) (by omega)]
    exact ⟨by omega, h.done _ (by omega)⟩

theorem next (h : b.Kept newFirstRow i c) (hw : 0 < b.width) (hh : 0 < b.height)
    (hrows : ∀ y : ℤ, 0 ≤ y → y < b.height → (b.row y).OfWidth b.width)
    (hpos : 0 < b.rowIndex newFirstRow) (hi : i < b.height)
    (hcopies : (b.storedRow i).CopiesTo (b.keptFrom newFirstRow i) (b.row (newFirstRow + i))) :
    ∃ c', c.copyRow (b.firstRow + newFirstRow + i) i = .ok c' ∧ b.Kept newFirstRow (i + 1) c' := by
  obtain ⟨hne, hsource, hreads⟩ := h.source hh hrows hpos hi
  have hstored : (b.storedRow i).OfWidth b.width := by
    rw [storedRow_eq hi]
    exact ofWidth_row hh hrows _
  have hkept := ofWidth_keptFrom hh hrows newFirstRow i
  have hrow : c.row i = b.storedRow i := by rw [h.row_eq hi, h.rest i le_rfl hi]
  have hglyphs := (hreads.copiedGlyphs (r := b.storedRow i) hsource hkept).trans hcopies.1
  obtain ⟨r, hr, hwidth, hreads', hglyphs'⟩ := (hstored.copyFrom_cases hw hsource).1 (by
    rw [hglyphs]
    exact (ofWidth_row hh hrows _).represents.units_lt)
  rw [← hrow] at hr
  obtain ⟨c', hc', hshape, hrow'⟩ := copyRow_ok (h.height.symm ▸ hh) hne hr
  have hstored' (j : ℕ) (hj : j < b.height) : c'.storedRow j =
      if j = i then { r with imageSlice := (c.row (b.firstRow + newFirstRow + i)).imageSlice }
      else c.storedRow j := by
    rw [← row_of_firstRow_eq_zero (hshape.firstRow.trans h.firstRow)
      (by rw [hshape.height, h.height]; exact hj), hrow', ← h.row_eq hj,
      rowIndex_of_firstRow_eq_zero h.firstRow (h.height.symm ▸ hj),
      rowIndex_of_firstRow_eq_zero h.firstRow (h.height.symm ▸ hi)]
  refine ⟨c', hc', hshape.firstRow.trans h.firstRow, hshape.height.trans h.height,
    fun j hj => ?_, fun j hj hj' => ?_⟩
  · rw [hstored' j (by omega)]
    split_ifs with hji
    · rw [hji]
      refine ⟨⟨hwidth.represents.of_text_eq rfl rfl rfl, hwidth.columnCount, hwidth.length_attr⟩,
        hglyphs'.trans hglyphs, ?_, ?_, ?_⟩
      · exact hreads'.attr.trans (hreads.attr.trans hcopies.2)
      · exact hreads'.lineRendition.trans hreads.lineRendition
      · exact hreads'.doubleBytePadded.trans (hreads.copiedPadding hsource hkept)
    · exact h.done j (by omega)
  · rw [hstored' j hj', if_neg (by omega)]
    exact h.rest j (by omega) hj'

theorem not_next (h : b.Kept newFirstRow i c) (hw : 0 < b.width) (hh : 0 < b.height)
    (hrows : ∀ y : ℤ, 0 ≤ y → y < b.height → (b.row y).OfWidth b.width)
    (hpos : 0 < b.rowIndex newFirstRow) (hi : i < b.height)
    (hcopies : ¬(b.storedRow i).CopiesTo (b.keptFrom newFirstRow i) (b.row (newFirstRow + i)))
    {c' : TextBuffer} (hc' : c.copyRow (b.firstRow + newFirstRow + i) i = .ok c') :
    ¬((c'.row i).WellFormed ∧ (c'.row i).SameContents (b.row (newFirstRow + i))) := by
  rintro ⟨hwf, hsame⟩
  obtain ⟨hne, hsource, hreads⟩ := h.source hh hrows hpos hi
  have hstored : (b.storedRow i).OfWidth b.width := by
    rw [storedRow_eq hi]
    exact ofWidth_row hh hrows _
  have hkept := ofWidth_keptFrom hh hrows newFirstRow i
  have htarget := ofWidth_row hh hrows (newFirstRow + i)
  have hrow : c.row i = b.storedRow i := by rw [h.row_eq hi, h.rest i le_rfl hi]
  generalize hout : (c.row i).copyFrom (c.row (b.firstRow + newFirstRow + i)) false = out
  cases out with
  | error e =>
    obtain ⟨b₁, -, -, -, herror, -⟩ := c.copyRow_eq (h.height.symm ▸ hh) hne
    rw [herror e hout] at hc'
    cases hc'
  | ok r =>
    obtain ⟨c'', hc'', -, hrow'⟩ := copyRow_ok (h.height.symm ▸ hh) hne hout
    obtain rfl : c'' = c' := Except.ok.inj (hc''.symm.trans hc')
    rw [hrow', if_pos rfl] at hwf hsame
    have hwf' : r.WellFormed := by
      obtain ⟨h₁, h₂, h₃, h₄, h₅, h₆, h₇, h₈, h₉⟩ := hwf
      exact ⟨h₁, h₂, h₃, h₄, h₅, h₆, h₇, h₈, h₉⟩
    rw [hrow] at hout
    rcases Nat.lt_or_ge (units ((b.storedRow i).copiedGlyphs
      (c.row (b.firstRow + newFirstRow + i)))) 0x8000 with hlt | hge
    · obtain ⟨r', hr', hwidth, hreads', hglyphs⟩ := (hstored.copyFrom_cases hw hsource).1 hlt
      obtain rfl : r = r' := Except.ok.inj (hout.symm.trans hr')
      have hwidth' : ROW.OfWidth b.width
          { r with imageSlice := (c.row (b.firstRow + newFirstRow + i)).imageSlice } :=
        ⟨hwidth.represents.of_text_eq rfl rfl rfl, hwidth.columnCount, hwidth.length_attr⟩
      obtain ⟨hglyphs', hattr⟩ := (hwidth'.sameContents_iff htarget).mp hsame
      refine hcopies ⟨?_, ?_⟩
      · rw [← hreads.copiedGlyphs hsource hkept, ← hglyphs]
        exact hglyphs'
      · rw [← hreads.attr]
        exact hreads'.attr.symm.trans hattr
    · exact (hstored.copyFrom_cases hw hsource).2 hge r hout
        (hsame.columnCount.trans htarget.columnCount) hwf'

end Kept

end TextBuffer

/-! ### The whole copy -/

namespace TextBuffer

variable {b c : TextBuffer} {newFirstRow : ℤ}

theorem Kept.keepsRows_iff {i : ℕ} (h : b.Kept newFirstRow i c) (count : ℕ) (hw : 0 < b.width)
    (hh : 0 < b.height)
    (hrows : ∀ y : ℤ, 0 ≤ y → y < b.height → (b.row y).OfWidth b.width)
    (hpos : 0 < b.rowIndex newFirstRow) (hle : i + count ≤ b.height) :
    b.KeepsRows newFirstRow (i + count) (scrollLoop (-(b.firstRow + newFirstRow)) 1 count
      (b.firstRow + newFirstRow + i) c) ↔
    ∀ j : ℕ, i ≤ j → j < i + count →
      (b.storedRow j).CopiesTo (b.keptFrom newFirstRow j) (b.row (newFirstRow + j)) := by
  induction count generalizing i c with
  | zero =>
    refine iff_of_true ⟨c, rfl, fun j hj => ?_⟩ fun j hj hj' => absurd hj' (by omega)
    obtain ⟨hwidth, hreads⟩ := h.done j hj
    rw [h.row_eq (by omega)]
    exact ⟨hwidth.represents.wellFormed (hwidth.columnCount.symm ▸ hw),
      (hwidth.sameContents_iff (ofWidth_row hh hrows _)).mpr ⟨hreads.glyphs, hreads.attr⟩⟩
  | succ count ih =>
    have htarget : b.firstRow + newFirstRow + i + -(b.firstRow + newFirstRow) = (i : ℤ) := by omega
    have hsucc : b.firstRow + newFirstRow + i + 1 = b.firstRow + newFirstRow + (i + 1 : ℕ) := by
      push_cast
      ring
    by_cases hcopies : (b.storedRow i).CopiesTo (b.keptFrom newFirstRow i) (b.row (newFirstRow + i))
    · obtain ⟨c', hc', hnext⟩ := h.next hw hh hrows hpos (by omega) hcopies
      have hcopy : c.copyRow (b.firstRow + newFirstRow + i)
          (b.firstRow + newFirstRow + i + -(b.firstRow + newFirstRow)) = .ok c' := by
        rw [htarget]
        exact hc'
      have hlast : i + (count + 1) = i + 1 + count := by omega
      have hrest := ih hnext (hlast ▸ hle)
      rw [scrollLoop_ok hcopy, hsucc, hlast, hrest]
      constructor
      · intro hrest j hj hj'
        rcases Nat.eq_or_lt_of_le hj with rfl | hlt
        · exact hcopies
        · exact hrest j hlt hj'
      · intro hall j hj hj'
        exact hall j (by omega) hj'
    · refine iff_of_false ?_ fun hall => hcopies (hall i le_rfl (by omega))
      rintro ⟨c', hc', hdone⟩
      cases hcopy : c.copyRow (b.firstRow + newFirstRow + i)
          (b.firstRow + newFirstRow + i + -(b.firstRow + newFirstRow)) with
      | error e =>
        rw [scrollLoop_error hcopy] at hc'
        cases hc'
      | ok c₁ =>
        obtain ⟨hshape, -, -⟩ := copyRow_frame (h.height.symm ▸ hh) hcopy
        rw [scrollLoop_ok hcopy] at hc'
        -- the rows behind are copied elsewhere
        have hkeep := (scrollLoop_frame (by rw [hshape.height, h.height]; exact hh) (by omega)
          (by rw [hshape.height, h.height]; omega) hc').2.2 i (hshape.firstRow.trans h.firstRow)
          (by omega) (by rw [hshape.height, h.height]; omega) (by omega)
        rw [htarget] at hcopy
        have hi := hdone i (by omega)
        rw [hkeep] at hi
        exact h.not_next hw hh hrows hpos (by omega) hcopies hcopy hi

end TextBuffer

theorem ROW.OfWidth.copyFrom_self {n : ℕ} {r : ROW} (hr : r.OfWidth n) : r.copyFrom r true = .ok r := by
  have hattr : r.attr.resizeTrailingExtent r.columnCount = r.attr := by
    rw [hr.columnCount, ← hr.length_attr, RowAttributes.resizeTrailingExtent_length_self]
  rw [ROW.copyFrom, ROW.copyTextFrom]
  simp only [Bool.or_true, Bool.true_or, if_true]
  change Except.ok { r with attr := r.attr.resizeTrailingExtent r.columnCount } = _
  rw [hattr]

namespace TextBuffer

variable {b c : TextBuffer} {newFirstRow : ℤ}

theorem scrollLoop_self {delta : ℤ} (count : ℕ) (y : ℤ) (hh : 0 < c.height)
    (hrows : ∀ z, (c.row z).OfWidth c.width) (hdelta : delta % c.height = 0) :
    ∃ c', scrollLoop delta 1 count y c = .ok c' ∧ ∀ z, c'.row z = c.row z := by
  induction count generalizing y c with
  | zero => exact ⟨c, rfl, fun _ => rfl⟩
  | succ count ih =>
    have hindex : c.rowIndex (y + delta) = c.rowIndex y := by
      have htarget := c.rowIndex_eq hh (y + delta)
      have hsource := c.rowIndex_eq hh y
      rw [← add_assoc, Int.add_emod, hdelta, add_zero, Int.emod_emod, ← hsource] at htarget
      exact_mod_cast htarget
    obtain ⟨c₁, hshape, hlen, -, hrow, -, hok⟩ := c.copyRow_spec hh y (y + delta)
    rw [hindex] at hlen
    have hsame : c.row (y + delta) = c.row y := by rw [row, hindex, row]
    rw [hindex, decide_eq_true rfl, hsame] at hok
    have hcopy := hok _ (hrows y).copyFrom_self
    have hset := (c₁.setRow_sameShape (y + delta) (c.row y)).trans hshape
    have hrow' (z : ℤ) : (c₁.setRow (y + delta) (c.row y)).row z = c.row z := by
      rw [row_setRow c₁ (by rw [hshape.rowIndex, hindex]; exact hlen), hshape.rowIndex,
        hshape.rowIndex, hindex]
      split_ifs with hz
      · rw [row, row, hz]
      · exact hrow z
    obtain ⟨c', hc', hdone⟩ := ih (c := c₁.setRow (y + delta) (c.row y)) (y := y + 1)
      (hset.height.symm ▸ hh) (fun z => by rw [hrow', hset.width]; exact hrows z)
      (by rw [hset.height]; exact hdelta)
    exact ⟨c', (scrollLoop_ok hcopy).trans hc', fun z => (hdone z).trans (hrow' z)⟩

/-! ### The marks -/

variable {b' : TextBuffer} {rowsToKeep : ℤ}

theorem clearMarksInRange_spec (hh : 0 < b.height) (hpos : 0 < newFirstRow)
    (hle : newFirstRow ≤ b.height)
    (heq : b' = b.clearMarksInRange {} { x := b.width, y := max 0 (newFirstRow - 1) }) :
    b'.SameShape b ∧ (b.rows.length ≤ b.height + 1 → b'.rows.length ≤ b.height + 1) ∧
    (∀ z : ℤ, newFirstRow ≤ z → z < b.height → b'.row z = b.row z) ∧
    ∀ z : ℤ, 0 ≤ z → z < b.height → b'.row z = b.row z ∨ b'.row z = (b.row z).clearMarks := by
  obtain ⟨bottom, hbottom⟩ : ∃ bottom, bottom =
    clampInt (max 0 (max 0 (newFirstRow - 1))) 0 b.estimateOffsetOfLastCommittedRow := ⟨_, rfl⟩
  have htop : clampInt (min 0 (max 0 (newFirstRow - 1))) 0 (b.height - 1) = 0 := by
    unfold clampInt
    split_ifs <;> omega
  have hbottom' : 0 ≤ bottom ∧ bottom < newFirstRow := by
    rw [hbottom]
    unfold clampInt
    split_ifs <;> omega
  have hloop : b' = updateRows ROW.clearMarks (bottom + 1 - 0).toNat 0 b := by
    rw [heq, clearMarksInRange, htop, ← hbottom]
  obtain ⟨hshape, hlength, hrow⟩ := updateRows_spec (b := b) ROW.clearMarks
    (bottom + 1 - 0).toNat 0 hh le_rfl (by omega)
  rw [hloop]
  refine ⟨hshape, hlength, fun z hz hz' => ?_, fun z hz hz' => ?_⟩
  · rw [hrow z (by omega) hz', if_neg (by omega)]
  · rw [hrow z hz hz']
    split_ifs
    · exact Or.inr rfl
    · exact Or.inl rfl

theorem copiesViewport_congr (hh : 0 < b.height) (hshape : b'.SameShape b) (hnew : 0 < newFirstRow)
    (hle : newFirstRow + rowsToKeep ≤ b.height)
    (hkeep : ∀ z : ℤ, newFirstRow ≤ z → z < b.height → b'.row z = b.row z)
    (hmarks : ∀ z : ℤ, 0 ≤ z → z < b.height → b'.row z = b.row z ∨ b'.row z = (b.row z).clearMarks) :
    b'.CopiesViewport newFirstRow rowsToKeep ↔ b.CopiesViewport newFirstRow rowsToKeep := by
  have hpos : (0 : ℤ) < b.height := by exact_mod_cast hh
  have hindex := hshape.rowIndex newFirstRow
  have hstored (j : ℕ) (hj : j < b.height) :
      b'.storedRow j = b.storedRow j ∨ b'.storedRow j = (b.storedRow j).clearMarks := by
    rw [storedRow_eq hj, storedRow_eq (hshape.height.symm ▸ hj), hshape.firstRow, hshape.height]
    exact hmarks _ (Int.emod_nonneg _ hpos.ne') (Int.emod_lt_of_pos _ hpos)
  have hpadding (j : ℕ) (hj : j < b.height) (s : ROW) :
      (b'.storedRow j).copiedPadding s = (b.storedRow j).copiedPadding s := by
    rcases hstored j hj with h | h <;> rw [h]
    rfl
  have hglyphs (j : ℕ) (hj : j < b.height) (s : ROW) :
      (b'.storedRow j).copiedGlyphs s = (b.storedRow j).copiedGlyphs s := by
    rcases hstored j hj with h | h <;> rw [h]
    rfl
  have hrow (i : ℕ) (hi : i < rowsToKeep) : b'.row (newFirstRow + i) = b.row (newFirstRow + i) :=
    hkeep _ (by omega) (by omega)
  have hlt := b.rowIndex_lt hh newFirstRow
  have hfrom (i : ℕ) (hi : i < rowsToKeep) :
      b'.keptFrom newFirstRow i = b.keptFrom newFirstRow i := by
    induction i using Nat.strong_induction_on with
    | _ i ih =>
      by_cases hwrap : b.rowIndex newFirstRow + i < b.height
      · rw [keptFrom_of_lt hwrap, keptFrom_of_lt (by rw [hindex, hshape.height]; exact hwrap), hrow i hi]
      · obtain ⟨j, hj⟩ : ∃ j, b.rowIndex newFirstRow + i = b.height + j :=
          ⟨b.rowIndex newFirstRow + i - b.height, by omega⟩
        rw [keptFrom_of_ge hh hj, keptFrom_of_ge (hshape.height.symm ▸ hh)
          (by rw [hindex, hshape.height]; exact hj), keptRow, keptRow, hrow j (by omega),
          ih j (by omega) (by omega), hpadding j (by omega)]
  rw [CopiesViewport, CopiesViewport, hindex]
  refine or_congr_right (forall_congr' fun i => forall_congr' fun hi => ?_)
  rw [ROW.CopiesTo, ROW.CopiesTo, hfrom i hi, hrow i hi, hglyphs i (by omega)]

/-! ### The rows behind the viewport -/

theorem row_resetFrom (rowsToKeep : ℕ) (hh : 0 < c.height) (hlength : c.rows.length ≤ c.height + 1)
    (hfirst : c.firstRow = 0) (hle : rowsToKeep ≤ c.height)
    (hwidth : ∀ z : ℕ, rowsToKeep ≤ z → z < c.height → (c.row z).columnCount = c.width) :
    (c.resetFrom rowsToKeep).SameShape c ∧
    (∀ z : ℕ, z < rowsToKeep → (c.resetFrom rowsToKeep).row z = c.row z) ∧
    ∀ z : ℕ, rowsToKeep ≤ z → z < c.height → (c.resetFrom rowsToKeep).row z = c.blankRow := by
  obtain ⟨count, hcount⟩ : ∃ count,
    count = ((c.estimateOffsetOfLastCommittedRow : ℤ) + 1 - rowsToKeep).toNat := ⟨_, rfl⟩
  have hend : c.estimateOffsetOfLastCommittedRow = c.rows.length - 2 := rfl
  obtain ⟨hshape, -, hrow⟩ := updateRows_spec (b := c) (fun r => r.reset c.initialAttributes)
    count rowsToKeep hh (by omega) (by omega)
  rw [resetFrom, ← hcount]
  refine ⟨hshape, fun z hz => ?_, fun z hz hz' => ?_⟩
  · rw [hrow z (by omega) (by omega), if_neg (by omega)]
  · rw [hrow z (by omega) (by omega)]
    split_ifs with hin
    · rw [ROW.reset, hwidth z hz hz']
      rfl
    · -- the row is not committed
      rw [row_of_firstRow_eq_zero hfirst hz', storedRow, List.getD_eq_default _ _ (by omega)]

/-! ### The viewport -/

theorem keepsRows_iff {rowsToKeep : ℕ} (hw : 0 < b.width) (hh : 0 < b.height)
    (hrows : ∀ y : ℤ, 0 ≤ y → y < b.height → (b.row y).OfWidth b.width)
    (hle : rowsToKeep ≤ b.height) :
    b.KeepsRows newFirstRow rowsToKeep (scrollLoop (-(b.firstRow + newFirstRow)) 1 rowsToKeep
      (b.firstRow + newFirstRow) (b.setFirstRowIndex 0)) ↔ b.CopiesViewport newFirstRow rowsToKeep := by
  obtain ⟨c, hc⟩ : ∃ c, c = b.setFirstRowIndex 0 := ⟨_, rfl⟩
  have hheight : c.height = b.height := by rw [hc, setFirstRowIndex]
  have hwidth : c.width = b.width := by rw [hc, setFirstRowIndex]
  have hfirst : c.firstRow = 0 := by rw [hc, setFirstRowIndex]
  have hstored (j : ℕ) : c.storedRow j = b.storedRow j := by rw [hc]; rfl
  rw [← hc]
  have hindex := b.rowIndex_eq hh newFirstRow
  rcases Nat.eq_zero_or_pos (b.rowIndex newFirstRow) with hzero | hpos
  · refine iff_of_true ?_ (Or.inl hzero)
    rw [hzero, Nat.cast_zero] at hindex
    have hdelta : -(b.firstRow + newFirstRow) % (c.height : ℤ) = 0 := by
      rw [hheight]
      exact Int.emod_eq_zero_of_dvd (Int.dvd_neg.mpr (Int.dvd_of_emod_eq_zero hindex.symm))
    have hplace (z : ℤ) : c.row z = b.row (newFirstRow + z) := by
      have hmod : (b.firstRow + (newFirstRow + z)) % b.height = z % b.height := by
        rw [← add_assoc, Int.add_emod, ← hindex, zero_add, Int.emod_emod]
      refine row_congr hh ?_ hwidth hheight ?_ ?_
      · rw [hc, setFirstRowIndex]
      · rw [hc, setFirstRowIndex]
      · rw [hfirst, zero_add, hmod]
    have hrow (z : ℤ) : (c.row z).OfWidth c.width := by
      rw [hplace, hwidth]
      exact ofWidth_row hh hrows _
    obtain ⟨c', hc', hsame⟩ := scrollLoop_self rowsToKeep (b.firstRow + newFirstRow)
      (hheight.symm ▸ hh) hrow hdelta
    refine ⟨c', hc', fun j hj => ?_⟩
    rw [hsame, hplace]
    have hrow' := ofWidth_row hh hrows (newFirstRow + j)
    exact ⟨hrow'.represents.wellFormed (hrow'.columnCount.symm ▸ hw), rfl, fun _ _ => ⟨rfl, rfl⟩,
      fun _ _ => rfl⟩
  · have hstart : b.Kept newFirstRow 0 c :=
      ⟨hfirst, hheight, fun j hj => absurd hj (Nat.not_lt_zero j), fun j _ _ => hstored j⟩
    have hloop := hstart.keepsRows_iff rowsToKeep hw hh hrows hpos (by omega)
    rw [Nat.cast_zero, add_zero, zero_add] at hloop
    rw [hloop, CopiesViewport, or_iff_right (by omega)]
    constructor
    · intro h j hj
      exact h j (Nat.zero_le j) (by exact_mod_cast hj)
    · intro h j _ hj
      exact h j (by exact_mod_cast hj)

theorem keepsViewport_iff {rowsToKeep : ℕ} (hw : 0 < b.width) (hh : 0 < b.height)
    (hrows : ∀ y : ℤ, 0 ≤ y → y < b.height → (b.row y).OfWidth b.width)
    (hlength : b.rows.length ≤ b.height + 1) (hfirst : 0 ≤ b.firstRow) (hnew : 0 < newFirstRow)
    (hkeep : 0 < rowsToKeep) (hle : newFirstRow + rowsToKeep ≤ b.height) :
    b.KeepsViewport newFirstRow rowsToKeep (b.clearScrollback newFirstRow rowsToKeep) ↔
      b.CopiesViewport newFirstRow rowsToKeep := by
  obtain ⟨b', hb'⟩ : ∃ b', b' = b.clearMarksInRange {} { x := b.width, y := max 0 (newFirstRow - 1) } :=
    ⟨_, rfl⟩
  obtain ⟨hshape, hlength', hviewport, hmarks⟩ := clearMarksInRange_spec hh hnew (by omega) hb'
  have hrows' : ∀ y : ℤ, 0 ≤ y → y < b'.height → (b'.row y).OfWidth b'.width := by
    intro y hy hy'
    rw [hshape.height] at hy'
    rw [hshape.width]
    rcases hmarks y hy hy' with h | h <;> rw [h]
    · exact hrows y hy hy'
    · obtain ⟨hrep, hcount, hattr⟩ := hrows y hy hy'
      exact ⟨hrep.of_text_eq rfl rfl rfl, hcount, by rw [ROW.clearMarks, List.length_map, hattr]⟩
  have hheight' : b'.height = b.height := hshape.height
  have hh' : 0 < b'.height := hheight'.symm ▸ hh
  have hfirst' : 0 ≤ b'.firstRow := hshape.firstRow.symm ▸ hfirst
  have hcode : b.clearScrollback newFirstRow rowsToKeep =
      (scrollLoop (-(b'.firstRow + newFirstRow)) 1 rowsToKeep (b'.firstRow + newFirstRow)
        (b'.setFirstRowIndex 0)).map fun c => c.resetFrom rowsToKeep := by
    rw [clearScrollback, if_neg (by omega), if_neg (by omega), ← hb']
    simp only [scrollRows]
    rw [if_neg (by omega), if_pos (by omega), max_eq_right (by omega), Int.toNat_natCast]
  rw [← copiesViewport_congr hh hshape hnew hle hviewport hmarks,
    ← keepsRows_iff (hshape.width.symm ▸ hw) hh' hrows' (by rw [hshape.height]; omega), hcode]
  -- what is behind the viewport is blank in any case
  have hreset (c : TextBuffer) (hc : scrollLoop (-(b'.firstRow + newFirstRow)) 1 rowsToKeep
      (b'.firstRow + newFirstRow) (b'.setFirstRowIndex 0) = .ok c) :
      (c.resetFrom rowsToKeep).height = b.height ∧
      (∀ z : ℕ, z < rowsToKeep → (c.resetFrom rowsToKeep).row z = c.row z) ∧
      ∀ z : ℕ, rowsToKeep ≤ z → z < b.height → (c.resetFrom rowsToKeep).row z = b.blankRow := by
    obtain ⟨hshape', hlength'', hframe⟩ := scrollLoop_frame (b := b'.setFirstRowIndex 0) hh'
      (by omega) (by change _ ≤ (b'.height : ℤ); rw [hshape.height]; omega) hc
    have hheight : c.height = b.height := hshape'.height.trans hshape.height
    have hwidth : c.width = b'.width := hshape'.width
    obtain ⟨hshape'', hkept, hblank⟩ := row_resetFrom (c := c) rowsToKeep
      (hheight.symm ▸ hh) (by rw [hshape'.height]; exact hlength'' (by
        change b'.rows.length ≤ b'.height + 1
        rw [hshape.height]
        exact hlength' hlength)) hshape'.firstRow (by omega) (fun z hz hz' => by
        rw [hheight] at hz'
        rw [hframe z rfl (by omega) (by change _ < (b'.height : ℤ); rw [hshape.height]; omega)
          (by omega), row_of_firstRow_eq_zero rfl (by change z < b'.height; omega), hwidth]
        change (b'.storedRow z).columnCount = b'.width
        rw [storedRow_eq (by omega)]
        exact (ofWidth_row hh' hrows' _).columnCount)
    refine ⟨hshape''.height.trans hheight, hkept, fun z hz hz' => ?_⟩
    rw [hblank z hz (by omega), hshape'.blankRow]
    exact hshape.blankRow
  constructor
  · rintro ⟨b'', hb'', -, hrow⟩
    cases hloop : scrollLoop (-(b'.firstRow + newFirstRow)) 1 rowsToKeep (b'.firstRow + newFirstRow)
        (b'.setFirstRowIndex 0) with
    | error e =>
      rw [hloop] at hb''
      cases hb''
    | ok c =>
      rw [hloop] at hb''
      obtain ⟨-, hkept, -⟩ := hreset c hloop
      refine ⟨c, rfl, fun j hj => ?_⟩
      have hj' := hrow j (by omega) (by omega)
      rw [if_pos (by omega), ← Except.ok.inj hb'', hkept j hj] at hj'
      rw [hviewport _ (by omega) (by omega)]
      exact hj'
  · rintro ⟨c, hc, hrow⟩
    obtain ⟨hheight, hkept, hblank⟩ := hreset c hc
    rw [hc]
    refine ⟨_, rfl, hheight, fun y hy hy' => ?_⟩
    obtain ⟨z, rfl⟩ := Int.eq_ofNat_of_zero_le hy
    split_ifs with hz
    · have hz' := hrow z (by omega)
      rw [hviewport _ (by omega) (by omega)] at hz'
      rw [hkept z (by omega)]
      exact hz'
    · exact hblank z (by omega) (by omega)

/-! ### Rows that are copied as a whole -/

/-- `GetReadableColumnCount` hides no column of a row. -/
structure AllReadable (b : TextBuffer) : Prop where
  lineRendition : ∀ y : ℤ, 0 ≤ y → y < b.height → (b.row y).lineRendition = .singleWidth
  doubleBytePadded : ∀ y : ℤ, 0 ≤ y → y < b.height → (b.row y).doubleBytePadded = false

end TextBuffer

namespace ROW

variable {n : ℕ} {r s : ROW}

theorem OfWidth.copiedColumns_of_readable (hn : 0 < n) (hs : s.OfWidth n)
    (hrendition : s.lineRendition = .singleWidth) (hpadding : s.doubleBytePadded = false) :
    s.copiedColumns = n := by
  have hreadable : s.getReadableColumnCount = n := by
    rw [getReadableColumnCount, if_pos hrendition, hpadding, hs.columnCount]
    simp
  have hfit : fitting n s.glyphs = s.glyphs := by
    rw [fitting_eq_self_iff, hs.represents.count, hs.columnCount]
  have hne : s.glyphs ≠ [] := by
    intro hnil
    have hcount := hs.represents.count
    rw [hnil, cols_nil, hs.columnCount] at hcount
    omega
  rw [hs.copiedColumns_eq rfl, hreadable, clampColumn_natCast le_rfl, hfit, if_neg hne]

theorem OfWidth.copiedGlyphs_of_readable (hn : 0 < n) (hr : r.OfWidth n) (hs : s.OfWidth n)
    (hrendition : s.lineRendition = .singleWidth) (hpadding : s.doubleBytePadded = false) :
    r.copiedGlyphs s = s.glyphs ∧ (r.doubleBytePadded = false → r.copiedPadding s = false) := by
  have hcolumns := hs.copiedColumns_of_readable hn hrendition hpadding
  have hscols : cols s.glyphs = n := hs.represents.count.trans hs.columnCount
  have hrcols : cols r.glyphs = n := hr.represents.count.trans hr.columnCount
  have hfit : fitting n s.glyphs = s.glyphs := fitting_eq_self_iff.mpr hscols.le
  have hright : rightOf space (r.glyphs ++ []) (cols r.glyphs) = [] := rightOf_append _ _ _
  rw [List.append_nil, hrcols] at hright
  constructor
  · rw [copiedGlyphs, hcolumns, hfit, hscols, Nat.sub_self, hright, List.append_nil]
    exact List.append_nil _
  · intro hr'
    rw [copiedPadding, hcolumns, hfit, hscols, hr.columnCount, hr']
    split_ifs
    · exact decide_eq_false (lt_irrefl n)
    · rfl

end ROW

namespace TextBuffer

variable {b : TextBuffer} {newFirstRow rowsToKeep : ℤ}

theorem AllReadable.row (h : b.AllReadable) (hh : 0 < b.height) (y : ℤ) :
    (b.row y).lineRendition = .singleWidth ∧ (b.row y).doubleBytePadded = false := by
  have hpos : (0 : ℤ) < b.height := by exact_mod_cast hh
  have hnonneg := Int.emod_nonneg y hpos.ne'
  have hlt := Int.emod_lt_of_pos y hpos
  rw [row_emod hh]
  exact ⟨h.lineRendition _ hnonneg hlt, h.doubleBytePadded _ hnonneg hlt⟩

theorem AllReadable.keptFrom (h : b.AllReadable) (hw : 0 < b.width) (hh : 0 < b.height)
    (hrows : ∀ y : ℤ, 0 ≤ y → y < b.height → (b.row y).OfWidth b.width) (newFirstRow : ℤ) (i : ℕ)
    (hi : i < b.height) :
    (b.keptFrom newFirstRow i).lineRendition = .singleWidth ∧
      (b.keptFrom newFirstRow i).doubleBytePadded = false := by
  have hlt := b.rowIndex_lt hh newFirstRow
  induction i using Nat.strong_induction_on with
  | _ i ih =>
    by_cases hwrap : b.rowIndex newFirstRow + i < b.height
    · rw [keptFrom_of_lt hwrap]
      exact h.row hh _
    · obtain ⟨j, hj⟩ : ∃ j, b.rowIndex newFirstRow + i = b.height + j :=
        ⟨b.rowIndex newFirstRow + i - b.height, by omega⟩
      obtain ⟨hrendition, hpadding⟩ := ih j (by omega) (by omega)
      rw [keptFrom_of_ge hh hj]
      refine ⟨hrendition, ?_⟩
      have hstored := storedRow_eq (b := b) (j := j) (by omega)
      refine (ROW.OfWidth.copiedGlyphs_of_readable hw (hstored ▸ ofWidth_row hh hrows _)
        (ofWidth_keptFrom hh hrows newFirstRow j) hrendition hpadding).2 ?_
      rw [hstored]
      exact (h.row hh _).2

theorem copiesViewport_of_allReadable (h : b.AllReadable) (hw : 0 < b.width) (hh : 0 < b.height)
    (hrows : ∀ y : ℤ, 0 ≤ y → y < b.height → (b.row y).OfWidth b.width)
    (hle : rowsToKeep ≤ b.height) :
    b.CopiesViewport newFirstRow rowsToKeep ↔ b.rowIndex newFirstRow = 0 ∨
      ∀ i j : ℕ, i < rowsToKeep → b.rowIndex newFirstRow + i = b.height + j →
        (b.row (newFirstRow + j)).SameContents (b.row (newFirstRow + i)) := by
  have hlt := b.rowIndex_lt hh newFirstRow
  have hcopies (i : ℕ) (hi : i < b.height) :
      (b.storedRow i).CopiesTo (b.keptFrom newFirstRow i) (b.row (newFirstRow + i)) ↔
        (b.keptFrom newFirstRow i).glyphs = (b.row (newFirstRow + i)).glyphs ∧
          (b.keptFrom newFirstRow i).attr = (b.row (newFirstRow + i)).attr := by
    obtain ⟨hrendition, hpadding⟩ := h.keptFrom hw hh hrows newFirstRow i hi
    rw [ROW.CopiesTo, (ROW.OfWidth.copiedGlyphs_of_readable hw
      (storedRow_eq (b := b) hi ▸ ofWidth_row hh hrows _) (ofWidth_keptFrom hh hrows newFirstRow i) hrendition
      hpadding).1]
  rw [CopiesViewport]
  refine or_congr_right ⟨fun hall i j hi hj => ?_, fun hall i hi => (hcopies i (by omega)).mpr ?_⟩
  · have hsame := (hcopies i (by omega)).mp (hall i hi)
    rw [keptFrom_of_ge hh hj] at hsame
    exact ((ofWidth_row hh hrows _).sameContents_iff (ofWidth_row hh hrows _)).mpr hsame
  · by_cases hwrap : b.rowIndex newFirstRow + i < b.height
    · rw [keptFrom_of_lt hwrap]
      exact ⟨rfl, rfl⟩
    · obtain ⟨j, hj⟩ : ∃ j, b.rowIndex newFirstRow + i = b.height + j :=
        ⟨b.rowIndex newFirstRow + i - b.height, by omega⟩
      rw [keptFrom_of_ge hh hj]
      exact ((ofWidth_row hh hrows _).sameContents_iff (ofWidth_row hh hrows _)).mp (hall i j hi hj)

end TextBuffer

/-- `TextBuffer::ClearScrollback` keeps the viewport if and only if each row of it is what its copy
gives. When no column is hidden from a copy, this is so if and only if no row moves, or the rows that
are read behind the end of the array are equal to the ones that were there. -/
theorem clearScrollback_keepsViewport_iff {b : TextBuffer} (hw : 0 < b.width)
    (hrows : ∀ y : ℤ, 0 ≤ y → y < b.height → (b.row y).OfWidth b.width)
    (hlength : b.rows.length ≤ b.height + 1) (hfirst : 0 ≤ b.firstRow) {newFirstRow rowsToKeep : ℤ}
    (hnew : 0 < newFirstRow) (hkeep : 0 < rowsToKeep) (hle : newFirstRow + rowsToKeep ≤ b.height) :
    (b.KeepsViewport newFirstRow rowsToKeep (b.clearScrollback newFirstRow rowsToKeep) ↔
      b.CopiesViewport newFirstRow rowsToKeep) ∧
    (b.AllReadable →
      (b.KeepsViewport newFirstRow rowsToKeep (b.clearScrollback newFirstRow rowsToKeep) ↔
        b.rowIndex newFirstRow = 0 ∨
        ∀ i j : ℕ, i < rowsToKeep → b.rowIndex newFirstRow + i = b.height + j →
          (b.row (newFirstRow + j)).SameContents (b.row (newFirstRow + i)))) := by
  have hh : 0 < b.height := by omega
  obtain ⟨count, rfl⟩ := Int.eq_ofNat_of_zero_le hkeep.le
  have hiff := TextBuffer.keepsViewport_iff hw hh hrows hlength hfirst hnew (by omega) hle
  refine ⟨hiff, fun h => hiff.trans ?_⟩
  exact TextBuffer.copiesViewport_of_allReadable h hw hh hrows (by omega)

/-- Three rows of one column, the second of which is the first. -/
def threeRows : TextBuffer where
  width := 1
  height := 3
  firstRow := 1
  rows := [ROW.construct 1 {}, { ROW.construct 1 {} with chars := [0x61] },
    { ROW.construct 1 {} with chars := [0x62] }, { ROW.construct 1 {} with chars := [0x63] }]

theorem threeRows_row (y : ℤ) (hy : 0 ≤ y) (hy' : y < threeRows.height) :
    (threeRows.row y).OfWidth threeRows.width ∧ (threeRows.row y).lineRendition = .singleWidth ∧
      (threeRows.row y).doubleBytePadded = false := by
  have hcase : y = 0 ∨ y = 1 ∨ y = 2 := by
    have : (threeRows.height : ℤ) = 3 := rfl
    omega
  rcases hcase with rfl | rfl | rfl <;>
    exact ⟨⟨⟨by decide, by decide, by decide, by decide, by decide, by decide⟩, rfl, rfl⟩, rfl, rfl⟩

/-- A viewport of one row. -/
theorem clearScrollback_keepsViewport_oneRow :
    threeRows.KeepsViewport 1 1 (threeRows.clearScrollback 1 1) := by
  have hreadable : threeRows.AllReadable :=
    ⟨fun y hy hy' => (threeRows_row y hy hy').2.1, fun y hy hy' => (threeRows_row y hy hy').2.2⟩
  refine ((clearScrollback_keepsViewport_iff (by decide) (fun y hy hy' => (threeRows_row y hy hy').1)
    (by decide) (by decide) (by decide) (by decide) (by decide)).2 hreadable).mpr
    (Or.inr fun i j hi hj => ?_)
  have hindex : threeRows.rowIndex 1 = 2 := by decide
  have hheight : threeRows.height = 3 := rfl
  omega

/-- Of a viewport of two rows the first one is there twice. -/
theorem clearScrollback_not_keepsViewport :
    ¬threeRows.KeepsViewport 1 2 (threeRows.clearScrollback 1 2) := by
  rintro ⟨b', hb', -, hrow⟩
  have hout : (threeRows.clearScrollback 1 2).toOption.map (fun b => (b.row 1).glyphAt 0) =
      some [0x63] := by
    decide +kernel
  rw [hb'] at hout
  have hcell : (b'.row 1).glyphAt 0 = [0x63] := Option.some.inj hout
  have hsame := ((hrow 1 (by decide) (by decide)).2.cells 0 (by decide)).1
  rw [Nat.cast_zero, hcell] at hsame
  exact absurd hsame (by decide)

end IntelligentTerminal.Buffer
