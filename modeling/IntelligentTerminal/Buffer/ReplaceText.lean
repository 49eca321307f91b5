import IntelligentTerminal.Buffer.RowCells
import IntelligentTerminal.Buffer.RowInvariant

/-!
# Functional correctness of ReplaceText

`ROW::ReplaceText` against the line of cells: for a text that does not continue the glyph in
front of it, the clusters that fit between the two columns replace the cells under them, the
columns up to the limit become blanks when a cluster did not fit, and whatever is left of a
glyph that was cut becomes a blank too.

One case is left out. When the ASCII fast path runs out of columns it does not look at the next
unit, so a mark that belongs to the last unit is left in the text.

Source: `src/buffer/out/Row.cpp`, lines 552-763 and 863-943; `src/buffer/out/Row.hpp`,
lines 29-49.
-/

namespace IntelligentTerminal.Buffer

open Glyph

namespace ROW.Represents

variable {r : ROW} {gs : List (Glyph WChar)} {w : CellWrite}

theorem cells_apply (hr : r.Represents gs) (hle : w.start + cols w.new ≤ w.stop)
    (hcount : w.stop ≤ r.columnCount) {c : ℕ}
    (hc : c < r.adjustBackward w.start ∨ r.adjustForward w.stop ≤ c) :
    (cellsOf (w.apply gs))[c]? = (cellsOf gs)[c]? := by
  obtain ⟨A, B, hA, hAle, hleft, -, hback, -⟩ := hr.exists_floor (b := w.start) (by omega)
  obtain ⟨D, C, hD, hDle, hright, hfwd⟩ := hr.exists_ceil hcount
  rw [CellWrite.apply, splice, hleft, hright]
  rcases hc with hc | hc
  · rw [hback] at hc
    rw [hA]
    simp only [List.append_assoc, cellsOf_append]
    rw [List.getElem?_append_left (by rw [length_cellsOf]; exact hc),
      List.getElem?_append_left (by rw [length_cellsOf]; exact hc)]
  · rw [hfwd] at hc
    rw [hD, ← List.append_assoc, cellsOf_append, cellsOf_append D,
      List.getElem?_append_right (by
        simp only [length_cellsOf, cols_append, cols_blanks]; omega),
      List.getElem?_append_right (by rw [length_cellsOf]; exact hc)]
    congr 1
    simp only [length_cellsOf, cols_append, cols_blanks]
    omega

theorem glyphAt_apply (hr : r.Represents gs) {r' : ROW}
    (hr' : r'.Represents (w.apply gs)) (hcols : r'.columnCount = r.columnCount)
    (hle : w.start + cols w.new ≤ w.stop) (hcount : w.stop ≤ r.columnCount) {c : ℕ}
    (hlt : c < r.columnCount) (hc : c < r.adjustBackward w.start ∨ r.adjustForward w.stop ≤ c) :
    r'.glyphAt c = r.glyphAt c ∧ r'.dbcsAttrAt c = r.dbcsAttrAt c := by
  have h := hr.cells_apply hle hcount hc
  rw [hr.cell_eq hlt, hr'.cell_eq (by omega), Option.some_inj, Prod.mk.injEq] at h
  exact h

end ROW.Represents

/-- `ROW::ReplaceText` of a text that does not continue the glyph in front of it. -/
theorem replaceText_splice {r : ROW} {gs : List (Glyph WChar)} (hr : r.Represents gs)
    (cwd : CodepointWidthDetector) (state : RowWriteState) {b l e : ℕ}
    (hb : b = clampColumn r.columnCount state.columnBegin)
    (hl : l = clampColumn r.columnCount state.columnLimit)
    {new : List (Glyph WChar)} (hnew : new = fitting (l - b) (cwd.clusters state.text))
    (he : e = if new = cwd.clusters state.text then b + cols new else l) :
    (¬(b < l ∧ state.text ≠ []) → r.replaceText cwd state = .ok (r, { state with
      columnEnd := b, columnBeginDirty := b, columnEndDirty := b })) ∧
    (b < l → state.text ≠ [] → joins cwd gs b state.text = false →
      -- a cluster ends where the ASCII fast path runs out of columns
      ((∀ c ∈ state.text.take (l - b), isAscii c) → l - b < state.text.length →
        (cwd.next (state.text.drop (l - b - 1))).1 = 1) →
      units (splice space gs b (new ++ blanks space (e - (b + cols new))) e) < 0x8000 →
      ∃ r' state', r.replaceText cwd state = .ok (r', state') ∧
        r'.Represents (splice space gs b (new ++ blanks space (e - (b + cols new))) e) ∧
        new.IsPrefix (cwd.clusters state.text) ∧ textOf new ++ state'.text = state.text ∧
        state'.columnEnd = (if state'.text = [] then b + cols new else l) ∧
        (∀ c < r.columnCount, ¬(state'.columnBeginDirty ≤ c ∧ c < state'.columnEndDirty) →
          r'.glyphAt c = r.glyphAt c ∧ r'.dbcsAttrAt c = r.dbcsAttrAt c) ∧
        r' = { r with
          chars := r'.chars
          charOffsets := r'.charOffsets
          doubleBytePadded := r'.doubleBytePadded }) := by
  have hvalid := hr.isValid_iff state.columnBegin state.columnLimit state.text
  rw [← hr.count] at hb hl
  rw [← hb, ← hl] at hvalid
  have hbeg : (WriteHelper.new r state.columnBegin state.columnLimit state.text).colBeg = b :=
    hb ▸ hr.clampedColumnInclusive_eq state.columnBegin
  have hlim : (WriteHelper.new r state.columnBegin state.columnLimit state.text).colLimit = l :=
    hl ▸ hr.clampedColumnInclusive_eq state.columnLimit
  constructor
  · intro hv
    rw [← hvalid, Bool.not_eq_true] at hv
    unfold ROW.replaceText
    simp only [hv, Bool.not_false, if_true, hbeg]
  · intro hlt htext hj hascii hunits
    have hw : replaceTextWrite cwd gs b l state.text = { start := b, new, stop := e } :=
      he ▸ replaceTextWrite_of_not_joins cwd hlt hj hascii hnew
    have hcl := clampColumn_le (cols gs) state.columnLimit
    have hcols := cols_fitting_le (l - b) (cwd.clusters state.text)
    rw [← hnew] at hcols
    rw [← hl] at hcl
    have he' : b + cols new ≤ e ∧ e ≤ r.columnCount := by
      rw [he, ← hr.count]
      split_ifs <;> omega
    have hdirty : (WriteHelper.new r state.columnBegin state.columnLimit state.text).colBegDirty =
        r.adjustBackward b := hbeg ▸ rfl
    have hw' : ({ start := b, new, stop := e } : CellWrite) = replaceTextWrite cwd gs
        (clampColumn (cols gs) state.columnBegin) (clampColumn (cols gs) state.columnLimit)
        state.text := by
      rw [← hb, ← hl, hw]
    obtain ⟨seg, hrep, hfin⟩ := hr.exists_seg_of_not_joins cwd state.columnBegin state.columnLimit
      htext (by rw [← hb, ← hl]; exact hlt) (by rw [← hb]; exact hj) hw'
    obtain ⟨r', hfin', hrep', hrest⟩ := hfin.ok hunits
    have hpre : new.IsPrefix (cwd.clusters state.text) := hnew ▸ fitting_isPrefix _ _
    have htextnew : textOf new ++ state.text.drop (units new) = state.text := by
      have h := textOf_isPrefix hpre
      rw [cwd.textOf_clusters] at h
      rw [List.prefix_iff_eq_take.mp h, length_textOf]
      exact List.take_append_drop _ _
    have hrow : r.replaceText cwd state = .ok (r', { state with
        text := state.text.drop (units new)
        columnEnd := if (state.text.drop (units new)).isEmpty then b + cols new else l
        columnBeginDirty := r.adjustBackward b
        columnEndDirty := r.adjustForward e }) := by
      unfold ROW.replaceText
      simp only [hvalid.mpr ⟨hlt, htext⟩, Bool.not_true, Bool.false_eq_true, if_false, hrep]
      rw [hfin']
      simp only [hdirty, hlim]
    refine ⟨r', _, hrow, hrep', hpre, htextnew, ?_, ?_, ?_⟩
    · simp only [List.isEmpty_iff]
    · intro c hc hout
      refine hr.glyphAt_apply hrep' (by rw [hrest]) he'.1 he'.2 hc ?_
      simp only at hout ⊢
      omega
    · rw [hrest]

/-- An ideograph over the second half of another one. What is left of the old one becomes a
blank, and the text behind the limit stays unconsumed. -/
theorem replaceText_splice_ideograph :
    let gs : List (Glyph WChar) :=
      [⟨[0x4e2d], 2, by decide, by decide, by decide⟩, single space, single space]
    let r : ROW := { ROW.construct 4 {} with
      chars := [0x4e2d, space, space], charOffsets := [0, 0x8000, 1, 2, 3] }
    r.Represents gs ∧ ∃ r' state',
      r.replaceText CodepointWidthDetector.ofMarks
        { text := [0x65e5, 0x78], columnBegin := 1, columnLimit := 3 } = .ok (r', state') ∧
      r'.Represents [single space, ⟨[0x65e5], 2, by decide, by decide, by decide⟩, single space] ∧
      [0x65e5] ++ state'.text = [0x65e5, 0x78] := by
  intro gs r
  have hr : r.Represents gs :=
    ⟨by decide, by decide, by decide, by decide, by decide, by decide⟩
  obtain ⟨r', state', hrow, hrep, -, htext, -⟩ :=
    (replaceText_splice hr CodepointWidthDetector.ofMarks
      { text := [0x65e5, 0x78], columnBegin := 1, columnLimit := 3 } rfl rfl rfl rfl).2
      (by decide) (by decide) (by decide)
      (fun hascii => absurd (hascii 0x65e5 (by decide)) (by decide)) (by decide)
  exact ⟨hr, r', state', hrow, hrep, htext⟩

/-- A limit in front of the first column is not where the write ends, and a cluster that does
not fit makes blanks of the columns up to the limit, although nothing of it is written. -/
theorem replaceText_not_columnLimit :
    let r : ROW := { ROW.construct 4 {} with chars := [0x61, 0x62, 0x63, 0x64] }
    (r.replaceText CodepointWidthDetector.ofMarks
        { text := [0x61], columnBegin := 3, columnLimit := 1 }).map
      (fun p => (p.2.text, p.2.columnEnd)) = .ok ([0x61], 3) ∧
    r.glyphAt 1 = [0x62] ∧
    (r.replaceText CodepointWidthDetector.ofMarks
        { text := [0x4e2d], columnBegin := 1, columnLimit := 2 }).map
      (fun p => (p.2.text, p.1.glyphAt 1)) = .ok ([0x4e2d], [space]) := by
  decide

end IntelligentTerminal.Buffer
