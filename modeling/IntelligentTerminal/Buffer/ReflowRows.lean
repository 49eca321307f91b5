import IntelligentTerminal.Data.LineLayout
import IntelligentTerminal.Buffer.Reflow
import IntelligentTerminal.Buffer.ScrollRows

/-!
# The text of rows

The glyphs of a row as they count for the lines of a buffer, and the columns that
`MeasureRight` finds. Trailing spaces are counted in units of text, so the count is right as long
as no glyph but a blank ends with a space.

Source: `src/buffer/out/Row.cpp`, lines 1002-1060; `src/buffer/out/textBuffer.cpp`,
lines 2773-2786.
-/

namespace IntelligentTerminal.Buffer

open Glyph

/-- The glyphs of a row, without the padding column. -/
def ROW.lineText (r : ROW) : List (Glyph WChar) :=
  if r.doubleBytePadded then fitting (r.columnCount - 1) r.glyphs else r.glyphs

def ROW.textRow (r : ROW) : TextRow WChar := (r.lineText, r.wrapForced)

def TextBuffer.textRows (b : TextBuffer) : List (TextRow WChar) :=
  (List.range b.height).map fun (y : ℕ) => (b.row y).textRow

/-- The logical lines of a buffer: the text of rows joined by wrapped rows, without the padding
columns, the blanks at the end of each line and the empty lines at the end. -/
def TextBuffer.logicalLines (b : TextBuffer) : List (List (Glyph WChar)) :=
  IntelligentTerminal.logicalLines space b.textRows

/-- A row of single width. The padding column holds a blank, and no other glyph ends with a
space. -/
structure ROW.Reflowable (n : ℕ) (r : ROW) : Prop extends r.OfWidth n where
  singleWidth : r.lineRendition = .singleWidth
  padding : r.doubleBytePadded = true → ∃ t, r.glyphs = t ++ [blank space]
  spaces : ∀ g ∈ r.glyphs, g.text.getLast? = some space → g = blank space

/-! ### Measuring -/

theorem exists_trailing_blanks {t : List (Glyph WChar)}
    (h : ∀ g ∈ t, g.text.getLast? = some space → g = blank space) :
    ∃ u k, t = u ++ blanks space k ∧
      ((textOf t).reverse.takeWhile (· == space)).length = k := by
  induction t using List.reverseRecOn with
  | nil => exact ⟨[], 0, rfl, rfl⟩
  | append_singleton t g ih =>
    by_cases hg : g.text.getLast? = some space
    · obtain ⟨u, k, ht, hk⟩ := ih fun g' hg' => h g' (List.mem_append_left _ hg')
      obtain rfl := h g (by simp) hg
      refine ⟨u, k + 1, ?_, ?_⟩
      · conv_lhs => rw [ht]
        rw [List.append_assoc, blanks_add]
        rfl
      · rw [textOf_append, textOf_cons, textOf_nil, List.append_nil, List.reverse_append,
          show (blank space).text.reverse = [space] from rfl, List.singleton_append,
          List.takeWhile_cons_of_pos (by decide), List.length_cons, hk]
    · refine ⟨t ++ [g], 0, by simp [blanks], ?_⟩
      obtain ⟨v, c, hv⟩ := List.eq_nil_or_concat'  g.text |>.resolve_left g.text_ne_nil
      have hc : c ≠ space := by
        rintro rfl
        rw [hv] at hg
        simp at hg
      rw [textOf_append]
      simp [textOf, hv, hc]

namespace ROW.Reflowable

variable {n : ℕ} {r : ROW}

theorem glyphs_eq (hr : r.Reflowable n) :
    r.glyphs = r.lineText ++ blanks space r.doubleBytePadded.toNat ∧
      (cols r.lineText : ℤ) = r.getReadableColumnCount := by
  have hcols := hr.represents.count
  have hread : r.getReadableColumnCount = r.columnCount - r.doubleBytePadded.toNat := by
    rw [ROW.getReadableColumnCount, if_pos hr.singleWidth]
  unfold ROW.lineText
  cases hp : r.doubleBytePadded with
  | false =>
    rw [hread, hp]
    refine ⟨by simp [blanks], ?_⟩
    simp only [Bool.false_eq_true, if_false, Bool.toNat_false]
    omega
  | true =>
    obtain ⟨t, ht⟩ := hr.padding hp
    have hfit : fitting (r.columnCount - 1) r.glyphs = t := by
      have hsum : cols t + 1 = r.columnCount := by
        rw [← hcols, ht, cols_append]
        rfl
      rw [ht, show r.columnCount - 1 = cols t by omega, fitting_append_self]
    rw [if_pos rfl, hfit, hread, hp]
    refine ⟨ht, ?_⟩
    rw [← hcols, ht, cols_append]
    simp

theorem measureRight_eq (hr : r.Reflowable n) :
    ∃ t k, r.lineText = t ++ blanks space k ∧
      r.measureRight = if r.wrapForced then (cols r.lineText : ℤ) else cols t := by
  obtain ⟨hglyphs, hcols⟩ := hr.glyphs_eq
  have hrep := hr.represents
  obtain ⟨t, k, ht, hk⟩ := exists_trailing_blanks (t := r.lineText) fun g hg =>
    hr.spaces g (by rw [hglyphs]; exact List.mem_append_left _ hg)
  refine ⟨t, k, ht, ?_⟩
  have hread : r.getReadableColumnCount = r.columnCount - r.doubleBytePadded.toNat := by
    rw [ROW.getReadableColumnCount, if_pos hr.singleWidth]
  have htext : r.getText = textOf r.lineText := by
    have hrep' := hrep
    rw [hglyphs] at hrep'
    rw [ROW.getText, ← hcols, Int.toNat_natCast, hrep'.offset_boundary]
    generalize r.lineText = u at hrep'
    exact ROW.Represents.take_drop_chars (A := []) hrep'
  unfold ROW.measureRight ROW.getLastNonSpaceColumn
  split_ifs with hw
  · rw [hcols, hread]
  · rw [htext, hk, ← hcols, ht, cols_append, cols_blanks]
    push_cast
    omega

end ROW.Reflowable

/-! ### What is copied -/

/-- How much of a row `TextBuffer::Reflow` copies: its text, and what is in front of the
cursor. -/
def ROW.copyLimit (r : ROW) (cursor : Option ℤ) : ℤ :=
  match cursor with
  | none => r.measureRight
  | some x => max r.measureRight (x + 1)

/-- The glyphs that `TextBuffer::Reflow` copies. -/
def ROW.copiedText (r : ROW) (cursor : Option ℤ) : List (Glyph WChar) :=
  fitting (r.copyLimit cursor).toNat r.glyphs

theorem ROW.Reflowable.copiedText_spec {n : ℕ} {r : ROW} (hr : r.Reflowable n)
    {cursor : Option ℤ} (hcursor : ∀ x ∈ cursor, 0 ≤ x ∧ x < n ∧ r.wrapForced = false) :
    (∃ tail, r.glyphs = r.copiedText cursor ++ tail) ∧
      (cols (r.copiedText cursor) : ℤ) = r.copyLimit cursor ∧
      SameRow space (r.copiedText cursor, r.wrapForced) r.textRow := by
  obtain ⟨hglyphs, -⟩ := hr.glyphs_eq
  obtain ⟨t, k, ht, hmeasure⟩ := hr.measureRight_eq
  have hn : cols r.glyphs = n := hr.represents.count.trans hr.columnCount
  cases hw : r.wrapForced with
  | true =>
    have hnone : cursor = none := by
      cases hc : cursor with
      | none => rfl
      | some x =>
        have := (hcursor x hc).2.2
        rw [hw] at this
        cases this
    subst hnone
    have hlimit : r.copyLimit none = cols r.lineText := by
      rw [ROW.copyLimit, hmeasure, hw, if_pos rfl]
    have hcopied : r.copiedText none = r.lineText := by
      rw [ROW.copiedText, hlimit, Int.toNat_natCast]
      conv_lhs => rw [hglyphs]
      exact fitting_append_self _ _
    rw [hcopied, hlimit]
    exact ⟨⟨_, hglyphs⟩, rfl, hw.symm, Or.inl rfl⟩
  | false =>
    rw [hw, if_neg Bool.false_ne_true] at hmeasure
    have hsplit : r.glyphs = t ++ blanks space (k + r.doubleBytePadded.toNat) := by
      rw [blanks_add, ← List.append_assoc, ← ht, ← hglyphs]
    have hcols : cols t + (k + r.doubleBytePadded.toNat) = n := by
      rw [← hn, hsplit, cols_append, cols_blanks]
    -- the limit is at a blank behind the text
    obtain ⟨j, hj, hlimit⟩ : ∃ j ≤ k + r.doubleBytePadded.toNat,
        r.copyLimit cursor = (cols (t ++ blanks space j) : ℕ) := by
      rw [ROW.copyLimit.eq_def, hmeasure]
      cases hc : cursor with
      | none => exact ⟨0, Nat.zero_le _, by simp [blanks]⟩
      | some x =>
        obtain ⟨hx, hx', -⟩ := hcursor x hc
        refine ⟨(x + 1 - cols t).toNat, by omega, ?_⟩
        rw [cols_append, cols_blanks]
        simp only
        omega
    obtain ⟨i, hi⟩ : ∃ i, k + r.doubleBytePadded.toNat = j + i := ⟨_, (Nat.add_sub_of_le hj).symm⟩
    have hsplit' : r.glyphs = t ++ blanks space j ++ blanks space i := by
      rw [hsplit, hi, blanks_add, List.append_assoc]
    have hcopied : r.copiedText cursor = t ++ blanks space j := by
      rw [ROW.copiedText, hlimit, Int.toNat_natCast]
      conv_lhs => rw [hsplit']
      exact fitting_append_self _ _
    rw [hcopied, hlimit]
    exact ⟨⟨_, hsplit'⟩, rfl, hw.symm, Or.inr ⟨rfl, t, j, k, rfl, ht⟩⟩

end IntelligentTerminal.Buffer
