import Mathlib.Algebra.Order.Group.Unbundled.Int
import IntelligentTerminal.Buffer.RowInvariant
import IntelligentTerminal.Buffer.RowCells

/-!
# The rows of a text buffer

`TextBuffer` stores its rows in a circular array: the row at `y` is the one at
`(_firstRow + y) % _height`, behind a scratchpad row. Only a part of the array is committed; the
rest is constructed, with the attributes the buffer was made with, when a row in it is asked for.

Source: `src/buffer/out/textBuffer.cpp`, lines 48-247 and 728-882; `src/buffer/out/textBuffer.hpp`,
line 389; `src/buffer/out/ImageSlice.cpp`, lines 124-128; `src/inc/til/point.h`, lines 68-86.
-/

namespace IntelligentTerminal.Buffer

/-- `til::point`. -/
structure Point where
  x : ℤ := 0
  y : ℤ := 0
deriving DecidableEq

/-- `til::point::operator<=`: the order in which text is read. -/
instance : LinearOrder Point where
  le p q := p.y < q.y ∨ p.y = q.y ∧ p.x ≤ q.x
  lt p q := p.y < q.y ∨ p.y = q.y ∧ p.x < q.x
  le_refl p := .inr ⟨rfl, le_rfl⟩
  le_trans p q r h h' := by omega
  lt_iff_le_not_ge p q := by omega
  le_antisymm := by
    rintro ⟨x, y⟩ ⟨x', y'⟩ h h'
    rw [Point.mk.injEq]
    dsimp only at h h'
    omega
  le_total p q := by omega
  toDecidableLE p q := inferInstanceAs (Decidable (p.y < q.y ∨ p.y = q.y ∧ p.x ≤ q.x))
  toDecidableLT p q := inferInstanceAs (Decidable (p.y < q.y ∨ p.y = q.y ∧ p.x < q.x))
  toDecidableEq := inferInstance

theorem Point.le_def {p q : Point} : p ≤ q ↔ p.y < q.y ∨ p.y = q.y ∧ p.x ≤ q.x := Iff.rfl

theorem Point.lt_def {p q : Point} : p < q ↔ p.y < q.y ∨ p.y = q.y ∧ p.x < q.x := Iff.rfl

/-- `class Viewport`: the first and the last row that it spans. -/
structure Viewport where
  top : ℤ
  bottomInclusive : ℤ
deriving DecidableEq

/-- `class Cursor`: its position and the height it is drawn with. -/
structure Cursor where
  position : Point := {}
  size : ℕ := 25
deriving DecidableEq

/-- `class TextBuffer`. `rows` are the committed rows, the scratchpad row first. -/
structure TextBuffer where
  rows : List ROW := []
  firstRow : ℤ := 0
  width : ℕ
  height : ℕ
  initialAttributes : TextAttribute := {}
  cursor : Cursor := {}
deriving DecidableEq

namespace TextBuffer

/-- `TextBuffer::TextBuffer`, for a size that `_reserve` accepts. -/
def new (width height : ℕ) (defaultAttributes : TextAttribute) (cursorSize : ℕ) : TextBuffer where
  width := max width 1
  height := max height 1
  initialAttributes := defaultAttributes
  cursor := { size := cursorSize }

def commitReadAheadRowCount : ℕ := 128

/-- The row that `_construct` makes. -/
def blankRow (b : TextBuffer) : ROW := ROW.construct b.width b.initialAttributes

/-- `TextBuffer::_commit` of the row at `offset`, when it is not committed yet. -/
def commit (b : TextBuffer) (offset : ℕ) : TextBuffer :=
  if offset < b.rows.length then b
  else
    let remaining := b.height + 1 - b.rows.length
    let minimum := offset + 1 - b.rows.length
    let ideal := minimum + commitReadAheadRowCount
    { b with rows := b.rows ++ List.replicate (min remaining ideal) b.blankRow }

/-- The place of the row at `y` in the circular array. -/
def rowIndex (b : TextBuffer) (y : ℤ) : ℕ :=
  let offset := (b.firstRow + y).tmod b.height
  (if offset < 0 then offset + b.height else offset).toNat

/-- The row at `y`, whether it is committed or not. -/
def row (b : TextBuffer) (y : ℤ) : ROW := b.rows.getD (b.rowIndex y + 1) b.blankRow

/-- `TextBuffer::_getRow`, and the buffer with the row committed. -/
def getRow (b : TextBuffer) (y : ℤ) : ROW × TextBuffer :=
  let b := b.commit (b.rowIndex y + 1)
  (b.row y, b)

/-- Stores into the row at `y`, which `getRow` has committed. -/
def setRow (b : TextBuffer) (y : ℤ) (r : ROW) : TextBuffer :=
  { b with rows := b.rows.set (b.rowIndex y + 1) r }

def estimateOffsetOfLastCommittedRow (b : TextBuffer) : ℕ := b.rows.length - 2

def getSize (b : TextBuffer) : Viewport := { top := 0, bottomInclusive := b.height - 1 }

/-! ### Copying rows -/

/-- `TextBuffer::CopyRow` inside of a buffer, with `ImageSlice::CopyRow`. -/
def copyRow (b : TextBuffer) (srcRowIndex dstRowIndex : ℤ) : Except TextBuffer TextBuffer :=
  let (dstRow, b) := b.getRow dstRowIndex
  let (srcRow, b) := b.getRow srcRowIndex
  match dstRow.copyFrom srcRow (decide (b.rowIndex srcRowIndex = b.rowIndex dstRowIndex)) with
  | .error r => .error (b.setRow dstRowIndex r)
  | .ok r => .ok (b.setRow dstRowIndex { r with imageSlice := srcRow.imageSlice })

/-- The loop of `TextBuffer::ScrollRows`, for `count` rows from `y` on. -/
def scrollLoop (delta step : ℤ) : ℕ → ℤ → TextBuffer → Except TextBuffer TextBuffer
  | 0, _, b => .ok b
  | count + 1, y, b => do
    let b ← b.copyRow y (y + delta)
    scrollLoop delta step count (y + step) b

def scrollRows (b : TextBuffer) (firstRow size delta : ℤ) : Except TextBuffer TextBuffer :=
  if delta = 0 then .ok b
  else
    let size := max 0 size
    if delta < 0 then scrollLoop delta 1 size.toNat firstRow b
    else scrollLoop delta (-1) size.toNat (firstRow + size - 1) b

/-! ### The last text of a buffer -/

/-- The loop of `TextBuffer::GetLastNonSpaceCharacter`: `fuel` rows above `y` are left. -/
def lastNonSpaceLoop (viewportTop : ℤ) : ℕ → ℤ → ℤ → TextBuffer → Point × TextBuffer
  | 0, x, y, b => ({ x, y }, b)
  | fuel + 1, x, y, b =>
    if x < 0 ∧ y > viewportTop then
      let (backupRow, b) := b.getRow (y - 1)
      lastNonSpaceLoop viewportTop fuel (backupRow.measureRight - 1) (y - 1) b
    else ({ x, y }, b)

/-- `TextBuffer::GetLastNonSpaceCharacter`. The rows that it looks at are committed by it. -/
def getLastNonSpaceCharacter (b : TextBuffer) (viewOptional : Option Viewport) :
    Point × TextBuffer :=
  let viewport := viewOptional.getD b.getSize
  let y := min viewport.bottomInclusive b.estimateOffsetOfLastCommittedRow
  let (currRow, b) := b.getRow y
  let (coordEndOfText, b) :=
    lastNonSpaceLoop viewport.top (y - viewport.top).toNat (currRow.measureRight - 1) y b
  ({ x := max coordEndOfText.x 0, y := max coordEndOfText.y 0 }, b)

/-! ### Reading and storing rows -/

/-- The buffer `b'` has the size and the origin of `b`. -/
structure SameShape (b' b : TextBuffer) : Prop where
  firstRow : b'.firstRow = b.firstRow
  width : b'.width = b.width
  height : b'.height = b.height
  initialAttributes : b'.initialAttributes = b.initialAttributes

namespace SameShape

variable {b b' b'' : TextBuffer}

theorem refl (b : TextBuffer) : b.SameShape b := ⟨rfl, rfl, rfl, rfl⟩

theorem trans (h : b''.SameShape b') (h' : b'.SameShape b) : b''.SameShape b :=
  ⟨h.firstRow.trans h'.firstRow, h.width.trans h'.width, h.height.trans h'.height,
    h.initialAttributes.trans h'.initialAttributes⟩

theorem rowIndex (h : b'.SameShape b) (y : ℤ) : b'.rowIndex y = b.rowIndex y := by
  rw [TextBuffer.rowIndex, h.firstRow, h.height]
  rfl

theorem blankRow (h : b'.SameShape b) : b'.blankRow = b.blankRow := by
  rw [TextBuffer.blankRow, h.width, h.initialAttributes]
  rfl

end SameShape

variable (b : TextBuffer)

theorem commit_sameShape (offset : ℕ) : (b.commit offset).SameShape b := by
  unfold commit
  split_ifs
  · exact .refl b
  · exact ⟨rfl, rfl, rfl, rfl⟩

theorem setRow_sameShape (y : ℤ) (r : ROW) : (b.setRow y r).SameShape b := ⟨rfl, rfl, rfl, rfl⟩

theorem rowIndex_eq (hh : 0 < b.height) (y : ℤ) :
    (b.rowIndex y : ℤ) = (b.firstRow + y) % b.height := by
  have hpos : (0 : ℤ) < b.height := by exact_mod_cast hh
  have h₁ := Int.emod_nonneg (b.firstRow + y) hpos.ne'
  have h₂ := Int.emod_lt_of_pos (b.firstRow + y) hpos
  have h₃ : (b.firstRow + y).tmod b.height = (b.firstRow + y) % b.height ∨
      (b.firstRow + y).tmod b.height + b.height = (b.firstRow + y) % b.height ∧
        (b.firstRow + y).tmod b.height < 0 := by
    rw [Int.tmod_eq_emod]
    split_ifs with h
    · exact Or.inl (by omega)
    · exact Or.inr (by constructor <;> omega)
  unfold rowIndex
  simp only
  split_ifs <;> omega

theorem rowIndex_lt (hh : 0 < b.height) (y : ℤ) : b.rowIndex y < b.height := by
  have h := b.rowIndex_eq hh y
  have hpos : (0 : ℤ) < b.height := by exact_mod_cast hh
  have := Int.emod_lt_of_pos (b.firstRow + y) hpos
  omega

theorem rowIndex_inj {y z : ℤ} (hy : 0 ≤ y) (hy' : y < b.height) (hz : 0 ≤ z)
    (hz' : z < b.height) : b.rowIndex y = b.rowIndex z ↔ y = z := by
  have hh : 0 < b.height := by omega
  constructor
  · intro h
    have hmod : (b.firstRow + y) % b.height = (b.firstRow + z) % b.height := by
      rw [← b.rowIndex_eq hh, ← b.rowIndex_eq hh, h]
    have hdvd := Int.dvd_of_emod_eq_zero (Int.emod_eq_emod_iff_emod_sub_eq_zero.mp hmod)
    rw [show b.firstRow + y - (b.firstRow + z) = y - z by omega] at hdvd
    have := Int.eq_zero_of_abs_lt_dvd hdvd (by rw [abs_lt]; omega)
    omega
  · rintro rfl
    rfl

theorem row_commit (offset : ℕ) (y : ℤ) : (b.commit offset).row y = b.row y := by
  have hshape := b.commit_sameShape offset
  rw [row, row, hshape.rowIndex, hshape.blankRow]
  unfold commit
  split_ifs with h
  · rfl
  · rcases Nat.lt_or_ge (b.rowIndex y + 1) b.rows.length with hlt | hge
    · rw [List.getD_append _ _ _ _ hlt]
    · rw [List.getD_append_right _ _ _ _ hge, List.getD_eq_default _ _ hge,
        List.getD_eq_getElem?_getD, List.getElem?_replicate]
      split_ifs <;> rfl

theorem lt_length_commit {offset : ℕ} (h : offset ≤ b.height) :
    offset < (b.commit offset).rows.length := by
  unfold commit
  split_ifs with hlt
  · exact hlt
  · simp only [List.length_append, List.length_replicate]
    omega

theorem length_commit_le (h : b.rows.length ≤ b.height + 1) (offset : ℕ) :
    (b.commit offset).rows.length ≤ b.height + 1 := by
  unfold commit
  split_ifs
  · exact h
  · simp only [List.length_append, List.length_replicate]
    omega

theorem length_le_length_commit (offset : ℕ) : b.rows.length ≤ (b.commit offset).rows.length := by
  unfold commit
  split_ifs
  · exact le_rfl
  · simp only [List.length_append, List.length_replicate]
    omega

theorem length_setRow (y : ℤ) (r : ROW) : (b.setRow y r).rows.length = b.rows.length :=
  List.length_set

theorem row_setRow {y : ℤ} (hy : b.rowIndex y + 1 < b.rows.length) (r : ROW) (z : ℤ) :
    (b.setRow y r).row z = if b.rowIndex z = b.rowIndex y then r else b.row z := by
  rw [row, (b.setRow_sameShape y r).rowIndex, (b.setRow_sameShape y r).blankRow, setRow]
  split_ifs with h
  · rw [h, List.getD_eq_getElem?_getD, List.getElem?_set_self hy]
    rfl
  · rw [row, List.getD_eq_getElem?_getD, List.getElem?_set_ne (by omega),
      List.getD_eq_getElem?_getD]

theorem getRow_fst (y : ℤ) : (b.getRow y).1 = b.row y := b.row_commit _ y

theorem store_sameShape (y : ℤ) (r : ROW) : ((b.getRow y).2.setRow y r).SameShape b :=
  (setRow_sameShape _ y r).trans (b.commit_sameShape _)

variable {b}

theorem row_congr (hh : 0 < b.height) {b' : TextBuffer} (hrows : b'.rows = b.rows)
    (hwidth : b'.width = b.width) (hheight : b'.height = b.height)
    (hattributes : b'.initialAttributes = b.initialAttributes) {y z : ℤ}
    (h : (b'.firstRow + y) % b.height = (b.firstRow + z) % b.height) : b'.row y = b.row z := by
  have hleft := b'.rowIndex_eq (hheight ▸ hh) y
  have hright := b.rowIndex_eq hh z
  rw [hheight] at hleft
  have hindex : b'.rowIndex y = b.rowIndex z := by omega
  rw [row, row, hindex, hrows, blankRow, blankRow, hwidth, hattributes]

theorem row_emod (hh : 0 < b.height) (y : ℤ) : b.row y = b.row (y % b.height) :=
  row_congr hh rfl rfl rfl rfl (by rw [Int.add_emod_emod])

theorem row_store (hh : 0 < b.height) (y : ℤ) (r : ROW) {z : ℤ} (hz : 0 ≤ z) (hz' : z < b.height) :
    ((b.getRow y).2.setRow y r).row z = if z = y % b.height then r else b.row z := by
  have hshape := b.commit_sameShape (b.rowIndex y + 1)
  have hlt : (b.commit (b.rowIndex y + 1)).rowIndex y + 1 <
      (b.commit (b.rowIndex y + 1)).rows.length := by
    rw [hshape.rowIndex]
    exact b.lt_length_commit (b.rowIndex_lt hh y)
  have hmod : b.rowIndex y = b.rowIndex (y % b.height) := by
    have hleft := b.rowIndex_eq hh y
    have hright := b.rowIndex_eq hh (y % b.height)
    rw [Int.add_emod_emod] at hright
    omega
  have hpos : (0 : ℤ) < b.height := by exact_mod_cast hh
  rw [getRow, row_setRow _ hlt, hshape.rowIndex, hshape.rowIndex, b.row_commit, hmod]
  exact if_congr (b.rowIndex_inj hz hz' (Int.emod_nonneg _ hpos.ne') (Int.emod_lt_of_pos _ hpos)) rfl rfl

end TextBuffer

end IntelligentTerminal.Buffer
