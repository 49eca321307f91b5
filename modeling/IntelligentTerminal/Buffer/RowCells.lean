import IntelligentTerminal.Buffer.Cells
import IntelligentTerminal.Buffer.RowRepresentation

/-!
# What a row shows

The text and the role of the cell at a column, as `GlyphAt` and `DbcsAttrAt` report them. On a
row that represents glyphs they are those of the line of cells (`ROW.Represents.cell_eq`), and
the line of cells determines the glyphs (`cellsOf_injective`).

Source: `src/buffer/out/Row.cpp`, lines 1080-1110.
-/

namespace IntelligentTerminal.Buffer

open Glyph

/-- The cells of a glyph: its text, and the role of each. -/
def glyphCells (g : Glyph WChar) : List (List WChar × DbcsAttribute) :=
  if g.width = 1 then [(g.text, .single)] else [(g.text, .leading), (g.text, .trailing)]

/-- The cells of a sequence of glyphs. -/
def cellsOf (gs : List (Glyph WChar)) : List (List WChar × DbcsAttribute) := gs.flatMap glyphCells

@[simp] theorem cellsOf_nil : cellsOf [] = [] := rfl

@[simp] theorem cellsOf_cons (g : Glyph WChar) (gs : List (Glyph WChar)) :
    cellsOf (g :: gs) = glyphCells g ++ cellsOf gs := rfl

@[simp] theorem cellsOf_append (gs hs : List (Glyph WChar)) :
    cellsOf (gs ++ hs) = cellsOf gs ++ cellsOf hs :=
  List.flatMap_append

theorem length_glyphCells (g : Glyph WChar) : (glyphCells g).length = g.width := by
  unfold glyphCells
  rcases g.width_eq with h | h <;> rw [h] <;> rfl

@[simp] theorem length_cellsOf (gs : List (Glyph WChar)) : (cellsOf gs).length = cols gs := by
  induction gs with
  | nil => rfl
  | cons g gs ih => rw [cellsOf_cons, List.length_append, length_glyphCells, ih, cols_cons]

theorem cellsOf_injective : Function.Injective cellsOf := by
  intro gs
  induction gs with
  | nil =>
    intro hs h
    have := congrArg List.length h
    rw [length_cellsOf, length_cellsOf, cols_nil] at this
    exact (cols_eq_zero_iff.mp this.symm).symm
  | cons g gs ih =>
    intro hs h
    cases hs with
    | nil =>
      have := congrArg List.length h
      rw [length_cellsOf, length_cellsOf, cols_nil] at this
      exact cols_eq_zero_iff.mp this
    | cons g' hs =>
      rw [cellsOf_cons, cellsOf_cons] at h
      have hcells : glyphCells g = glyphCells g' ∧ cellsOf gs = cellsOf hs := by
        -- the role of the first cell tells how many cells the glyph has
        refine List.append_inj h ?_
        rw [length_glyphCells, length_glyphCells]
        unfold glyphCells at h
        rcases g.width_eq with hw | hw <;> rcases g'.width_eq with hw' | hw' <;>
          simp_all
      have hwidth : g.width = g'.width := by
        have := congrArg List.length hcells.1
        rwa [length_glyphCells, length_glyphCells] at this
      have htext : g.text = g'.text := by
        have := hcells.1
        unfold glyphCells at this
        rw [hwidth] at this
        rcases g'.width_eq with hw' | hw' <;> simp_all
      rw [Glyph.ext htext hwidth, ih hcells.2]

namespace ROW.Represents

variable {r : ROW} {A B : List (Glyph WChar)} {g : Glyph WChar} {c : ℕ} {gs : List (Glyph WChar)}

theorem clampedColumn_natCast (hc : c < r.columnCount) : r.clampedColumn c = c := by
  unfold ROW.clampedColumn clampInt
  split_ifs <;> omega

theorem glyphAt_boundary (hr : r.Represents (A ++ g :: B)) :
    r.glyphAt (cols A) = g.text ∧
      r.dbcsAttrAt (cols A) = if g.width = 1 then .single else .leading := by
  have hw := g.width_pos
  have hc : cols A < r.columnCount := by
    rw [← hr.count, cols_append, cols_cons]
    omega
  have hfwd : r.adjustForward (cols A + 1) = cols A + g.width := by
    rcases g.width_eq with hg | hg
    · rw [← hg, hr.adjustForward_next]
    · rw [hr.adjustForward_cut hg, hg]
  constructor
  · simp only [ROW.glyphAt, clampedColumn_natCast hc, hfwd, hr.offset_next, hr.offset_boundary,
      Nat.add_sub_cancel_left]
    exact hr.glyph_chars
  · simp only [ROW.dbcsAttrAt, clampedColumn_natCast hc, hr.isTrailer_boundary, Bool.false_eq_true,
      if_false]
    rcases g.width_eq with hg | hg
    · rw [← hg, hr.isTrailer_next, hg]
      rfl
    · rw [hr.isTrailer_cut hg, hg]
      rfl

theorem glyphAt_cut (hr : r.Represents (A ++ g :: B)) (hg : g.width = 2) :
    r.glyphAt (cols A + 1 : ℕ) = g.text ∧ r.dbcsAttrAt (cols A + 1 : ℕ) = .trailing := by
  have hc : cols A + 1 < r.columnCount := by
    rw [← hr.count, cols_append, cols_cons]
    omega
  constructor
  · have hfwd : r.adjustForward (cols A + 1 + 1) = cols A + g.width := by
      rw [← hr.adjustForward_next, hg]
    simp only [ROW.glyphAt, clampedColumn_natCast hc, hfwd, hr.offset_next, hr.offset_cut hg,
      Nat.add_sub_cancel_left]
    exact hr.glyph_chars
  · simp only [ROW.dbcsAttrAt, clampedColumn_natCast hc, hr.isTrailer_cut hg, if_true]

theorem cell_eq (hr : r.Represents gs)
    (hc : c < r.columnCount) : (cellsOf gs)[c]? = some (r.glyphAt c, r.dbcsAttrAt c) := by
  obtain ⟨A, g, B, rfl, hcase⟩ := hr.exists_prev (Nat.succ_pos c) hc
  have hget : ∀ i, (cellsOf (A ++ g :: B))[cols A + i]? = (glyphCells g ++ cellsOf B)[i]? := by
    intro i
    rw [cellsOf_append, cellsOf_cons, List.getElem?_append_right (by simp), length_cellsOf,
      Nat.add_sub_cancel_left]
  -- the first or the second column of the glyph
  rcases Nat.lt_or_ge (cols A) c with hlt | hge
  · have hg : g.width = 2 := by
      have := g.width_le
      omega
    obtain rfl : c = cols A + 1 := by omega
    obtain ⟨htext, hrole⟩ := hr.glyphAt_cut hg
    rw [htext, hrole, hget, glyphCells, if_neg (by omega)]
    rfl
  · have hw := g.width_pos
    obtain rfl : c = cols A := by omega
    obtain ⟨htext, hrole⟩ := hr.glyphAt_boundary
    have := hget 0
    rw [Nat.add_zero] at this
    rw [htext, hrole, this, glyphCells]
    split_ifs <;> rfl

theorem eq_of_cells {s : ROW} {gs hs : List (Glyph WChar)} (hr : r.Represents gs)
    (hs' : s.Represents hs) (hcount : r.columnCount = s.columnCount)
    (hcells : ∀ c < s.columnCount, r.glyphAt c = s.glyphAt c ∧ r.dbcsAttrAt c = s.dbcsAttrAt c) :
    gs = hs := by
  refine cellsOf_injective (List.ext_getElem? fun c => ?_)
  rcases Nat.lt_or_ge c s.columnCount with hc | hc
  · obtain ⟨htext, hrole⟩ := hcells c hc
    rw [hr.cell_eq (by omega), hs'.cell_eq hc, htext, hrole]
  · rw [List.getElem?_eq_none (by rw [length_cellsOf, hr.count]; omega),
      List.getElem?_eq_none (by rw [length_cellsOf, hs'.count]; omega)]

theorem cells_eq {s : ROW} (hr : r.Represents gs)
    (hs : s.Represents gs) (hc : c < s.columnCount) :
    r.glyphAt c = s.glyphAt c ∧ r.dbcsAttrAt c = s.dbcsAttrAt c := by
  have hcount : r.columnCount = s.columnCount := hr.count.symm.trans hs.count
  have h := (hr.cell_eq (hcount ▸ hc)).symm.trans (hs.cell_eq hc)
  rwa [Option.some_inj, Prod.mk.injEq] at h

end ROW.Represents

/-! ### The glyphs of a row -/

/-- The glyph whose first column is `c`, if there is one. -/
def ROW.glyphFrom (r : ROW) (c : ℕ) : List (Glyph WChar) :=
  if r.uncheckedIsTrailer c then [] else glyphOf (r.glyphAt c) (r.adjustForward (c + 1) - c)

/-- The glyphs that a row shows. -/
def ROW.glyphs (r : ROW) : List (Glyph WChar) := (List.range r.columnCount).flatMap r.glyphFrom

namespace ROW.Represents

variable {r : ROW} {gs A B : List (Glyph WChar)} {g : Glyph WChar}

theorem glyphFrom_boundary (hr : r.Represents (A ++ g :: B)) : r.glyphFrom (cols A) = [g] := by
  have hfwd : r.adjustForward (cols A + 1) - cols A = g.width := by
    rcases g.width_eq with hg | hg
    · rw [← hg, hr.adjustForward_next, Nat.add_sub_cancel_left]
    · rw [hr.adjustForward_cut hg, hg, Nat.add_sub_cancel_left]
  rw [glyphFrom, hr.isTrailer_boundary, if_neg Bool.false_ne_true, hr.glyphAt_boundary.1, hfwd]
  exact dif_pos ⟨g.text_ne_nil, g.width_pos, g.width_le⟩

theorem glyphFrom_cut (hr : r.Represents (A ++ g :: B)) (hg : g.width = 2) :
    r.glyphFrom (cols A + 1) = [] := by
  rw [glyphFrom, hr.isTrailer_cut hg, if_pos rfl]

private theorem flatMap_glyphFrom : ∀ {B A : List (Glyph WChar)}, r.Represents (A ++ B) →
    (List.range' (cols A) (cols B)).flatMap r.glyphFrom = B := by
  intro B
  induction B with
  | nil =>
    intro A _
    rfl
  | cons g B ih =>
    intro A hr
    have hrest : (List.range' (cols A + g.width) (cols B)).flatMap r.glyphFrom = B := by
      have h := ih (A := A ++ [g]) (by rwa [List.append_assoc])
      rwa [cols_append, cols_cons, cols_nil, Nat.add_zero] at h
    have hhead : (List.range' (cols A) g.width).flatMap r.glyphFrom = [g] := by
      rcases g.width_eq with hg | hg
      · rw [hg]
        simp [hr.glyphFrom_boundary]
      · rw [hg]
        simp [List.range', hr.glyphFrom_boundary, hr.glyphFrom_cut hg]
    rw [cols_cons, ← List.range'_append_1, List.flatMap_append, hhead, hrest]
    rfl

theorem glyphs_eq (hr : r.Represents gs) : r.glyphs = gs := by
  rw [ROW.glyphs, ← hr.count, List.range_eq_range']
  exact flatMap_glyphFrom (A := []) hr

end ROW.Represents

/-- The rows have the same width, and no query of a cell, an attribute or a flag tells them
apart. -/
structure ROW.SameAs (r s : ROW) : Prop where
  columnCount : r.columnCount = s.columnCount
  cells : ∀ c < s.columnCount, r.glyphAt c = s.glyphAt c ∧ r.dbcsAttrAt c = s.dbcsAttrAt c
  attr : ∀ c < s.columnCount, r.attr[c]? = s.attr[c]?
  lineRendition : r.lineRendition = s.lineRendition
  wrapForced : r.wrapForced = s.wrapForced
  doubleBytePadded : r.doubleBytePadded = s.doubleBytePadded

end IntelligentTerminal.Buffer
