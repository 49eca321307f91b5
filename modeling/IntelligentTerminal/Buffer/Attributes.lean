import Mathlib.Data.Int.Notation
import Mathlib.Data.List.Basic

/-!
# Per-cell and per-row data of the text buffer

The attribute of a cell, the rendition of a line, the mark and the image of a row, and the
attributes of a row. `ROW::_attr` is a run-length encoded vector with one attribute a column;
it is kept here as the list it encodes, with `replace`, `slice` and `resize_trailing_extent`
as they act on that list.

Source: `src/buffer/out/TextAttribute.hpp`, `TextColor.h`, `LineRendition.hpp`,
`DbcsAttribute.hpp`, `Marks.hpp`, `ImageSlice.hpp`; `src/inc/til/rle.h`, lines 427-535 and
692-704.
-/

namespace IntelligentTerminal.Buffer

/-- `wchar_t`, one UTF-16 unit. -/
abbrev WChar := UInt16

/-- `UNICODE_SPACE`. -/
def space : WChar := 0x20

inductive ColorType
  | isDefault
  | isIndex16
  | isIndex256
  | isRgb
deriving DecidableEq

/-- `struct TextColor`; `red` is also the index of an indexed color. -/
structure TextColor where
  red : UInt8 := 0
  green : UInt8 := 0
  blue : UInt8 := 0
  colorType : ColorType := .isDefault
deriving DecidableEq

inductive MarkKind
  | none
  | prompt
  | command
  | output
deriving DecidableEq

/-- `class TextAttribute`. The defaults are those of `TextAttribute{}`. -/
structure TextAttribute where
  attrs : UInt16 := 0
  hyperlinkId : UInt16 := 0
  foreground : TextColor := {}
  background : TextColor := {}
  underlineColor : TextColor := {}
  markKind : MarkKind := .none
deriving DecidableEq

inductive LineRendition
  | singleWidth
  | doubleWidth
  | doubleHeightTop
  | doubleHeightBottom
deriving DecidableEq

/-- `enum class DbcsAttribute`: the role of a cell in its glyph. -/
inductive DbcsAttribute
  | single
  | leading
  | trailing
deriving DecidableEq

inductive TextAttributeBehavior
  | stored
  | current
  | storedOnly
deriving DecidableEq

inductive MarkCategory
  | default
  | error
  | warning
  | success
  | prompt
deriving DecidableEq

/-- `struct ScrollbarData`; a color is its packed `ABGR` word. -/
structure ScrollbarData where
  category : MarkCategory := .default
  color : Option UInt32 := none
  exitCode : Option UInt32 := none
deriving DecidableEq

/-- `class ImageSlice`, without the revision, which is drawn from a counter of the process; a
pixel is its packed `RGBQUAD`. -/
structure ImageSlice where
  cellWidth : ℤ
  cellHeight : ℤ
  pixelBuffer : List UInt32 := []
  columnBegin : ℤ := 0
  columnEnd : ℤ := 0
  pixelWidth : ℤ := 0
deriving DecidableEq

/-! ### Row attributes -/

/-- `RowAttributes`, decoded: one attribute a column. -/
abbrev RowAttributes := List TextAttribute

namespace RowAttributes

/-- `til::basic_rle::replace`. The end is clamped to the size; a start past it throws. -/
def replace (attr : RowAttributes) (startIndex endIndex : ℕ) (replacement : RowAttributes) :
    Option RowAttributes :=
  let endIndex := min endIndex attr.length
  if startIndex > endIndex then none
  else some (attr.take startIndex ++ replacement ++ attr.drop endIndex)

/-- `til::basic_rle::replace` with a single value. -/
def replaceValue (attr : RowAttributes) (startIndex endIndex : ℕ) (value : TextAttribute) :
    Option RowAttributes :=
  attr.replace startIndex endIndex (List.replicate (min endIndex attr.length - startIndex) value)

/-- `til::basic_rle::slice`. -/
def slice (attr : RowAttributes) (startIndex endIndex : ℕ) : RowAttributes :=
  (attr.take endIndex).drop startIndex

/-- `til::basic_rle::resize_trailing_extent`: cut, or repeat the last value. -/
def resizeTrailingExtent (attr : RowAttributes) (newSize : ℕ) : RowAttributes :=
  match attr.getLast? with
  | none => attr
  | some last => attr.take newSize ++ List.replicate (newSize - attr.length) last

theorem resizeTrailingExtent_length_self (attr : RowAttributes) :
    attr.resizeTrailingExtent attr.length = attr := by
  unfold resizeTrailingExtent
  split
  · rfl
  · simp

theorem length_resizeTrailingExtent {attr : RowAttributes} (h : attr ≠ []) (newSize : ℕ) :
    (attr.resizeTrailingExtent newSize).length = newSize := by
  unfold resizeTrailingExtent
  cases hl : attr.getLast? with
  | none => exact absurd (List.getLast?_eq_none_iff.mp hl) h
  | some last =>
    simp only [List.length_append, List.length_take, List.length_replicate]
    omega

end RowAttributes

end IntelligentTerminal.Buffer
