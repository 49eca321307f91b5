import IntelligentTerminal.Buffer.ReplaceText
import Mathlib

/-!
# Fitting text into columns

`TextBuffer::FitTextIntoColumns` measures a text in front of a write. It has its own ASCII fast path
and its own loop over clusters, which adds the width that a cluster is measured with. The writer
gives each cluster at least one column, and reports the limit if a cluster does not fit.

Source: `src/buffer/out/textBuffer.cpp`, lines 412-477.
-/

namespace IntelligentTerminal.Buffer

open Glyph

namespace CodepointWidthDetector

variable (cwd : CodepointWidthDetector)

/-- The widths of the clusters that are found in at most `fuel` calls. -/
def widthsN : ℕ → List WChar → List ℕ
  | 0, _ => []
  | fuel + 1, t => if t = [] then [] else (cwd.next t).2 :: widthsN fuel (t.drop (cwd.next t).1)

/-- The widths that the clusters of a text are measured with. -/
def widths (t : List WChar) : List ℕ := cwd.widthsN t.length t

@[simp] theorem widthsN_nil (fuel : ℕ) : cwd.widthsN fuel [] = [] := by
  cases fuel <;> simp [widthsN]

theorem map_width_clustersN (fuel : ℕ) (t : List WChar) :
    (cwd.clustersN fuel t).map Glyph.width = (cwd.widthsN fuel t).map (max 1) := by
  induction fuel generalizing t with
  | zero => rfl
  | succ fuel ih =>
    by_cases ht : t = []
    · simp [clustersN, widthsN, ht]
    · rw [clustersN, dif_pos ht, widthsN, if_neg ht, List.map_cons, List.map_cons, ih]
      rfl

theorem cols_clusters (t : List WChar) : cols (cwd.clusters t) = ((cwd.widths t).map (max 1)).sum := by
  rw [cols, clusters, map_width_clustersN, widths]

end CodepointWidthDetector

/-- The loop of `FitTextIntoColumns` over the text `it`. -/
def fitLoop (cwd : CodepointWidthDetector) (columnLimit : ℕ) :
    ℕ → List WChar → ℕ → ℕ → ℕ × ℕ
  | 0, _, dist, col => (dist, col)
  | fuel + 1, it, dist, col =>
    if it = [] then (dist, col)
    else
      let state := cwd.next it
      let col := col + state.2
      if col > columnLimit then (dist, col)
      else fitLoop cwd columnLimit fuel (it.drop state.1) (dist + state.1) col

/-- `TextBuffer::FitTextIntoColumns`: the number of units, and `columns`. -/
def fitTextIntoColumns (cwd : CodepointWidthDetector) (chars : List WChar) (columnLimit : ℤ) :
    ℕ × ℕ :=
  let columnLimit := (max 0 columnLimit).toNat
  let asciiEnd := min chars.length columnLimit
  let dist := WriteHelper.asciiCount columnLimit chars
  if dist = asciiEnd then (dist, dist)
  else
    fitLoop cwd columnLimit (chars.length - (dist - 1)) (chars.drop (dist - 1)) (dist - 1) (dist - 1)

theorem fitLoop_spec (cwd : CodepointWidthDetector) (columnLimit fuel : ℕ) (it : List WChar)
    (hfuel : it.length ≤ fuel) (dist col : ℕ) :
    (col + (cwd.widthsN fuel it).sum ≤ columnLimit →
      fitLoop cwd columnLimit fuel it dist col =
        (dist + it.length, col + (cwd.widthsN fuel it).sum)) ∧
    (columnLimit < col + (cwd.widthsN fuel it).sum → col ≤ columnLimit →
      columnLimit < (fitLoop cwd columnLimit fuel it dist col).2) := by
  induction fuel generalizing it dist col with
  | zero =>
    obtain rfl : it = [] := List.length_eq_zero_iff.mp (by omega)
    simp [fitLoop]
    omega
  | succ fuel ih =>
    by_cases hit : it = []
    · subst hit
      simp [fitLoop]
      omega
    · have hpos := cwd.next_len_pos it hit
      have hle := cwd.next_len_le it
      obtain ⟨hfits, hlimited⟩ := ih (it.drop (cwd.next it).1)
        (by rw [List.length_drop]; omega) (dist + (cwd.next it).1) (col + (cwd.next it).2)
      rw [fitLoop, if_neg hit, CodepointWidthDetector.widthsN, if_neg hit, List.sum_cons]
      simp only
      constructor
      · intro hsum
        rw [if_neg (by omega), hfits (by omega), List.length_drop]
        congr 1 <;> omega
      · intro hsum _
        by_cases hstop : col + (cwd.next it).2 > columnLimit
        · rw [if_pos hstop]
          exact hstop
        · rw [if_neg hstop]
          exact hlimited (by omega) (by omega)

theorem sum_map_max_one (ws : List ℕ) :
    ws.sum ≤ (ws.map (max 1)).sum ∧ ((ws.map (max 1)).sum = ws.sum ↔ ∀ w ∈ ws, 0 < w) := by
  induction ws with
  | nil => simp
  | cons w ws ih =>
    obtain ⟨hle, hiff⟩ := ih
    rw [List.map_cons, List.sum_cons, List.sum_cons, List.forall_mem_cons, ← hiff]
    omega

theorem replaceText_reports {r r' : ROW} {gs : List (Glyph WChar)} (hr : r.Represents gs)
    (cwd : CodepointWidthDetector) {text : List WChar} {columnLimit : ℕ} (hlimit : columnLimit ≤ cols gs)
    {state : RowWriteState} (hok : r.replaceText cwd { text, columnBegin := 0, columnLimit } =
      .ok (r', state)) :
    (columnLimit = 0 ∨ text = [] → state.text = text ∧ state.columnEnd = 0) ∧
    (0 < columnLimit → text ≠ [] →
      state.text = text.drop (units (textGlyphs cwd columnLimit text).1) ∧
      state.columnEnd = if state.text = [] then cols (textGlyphs cwd columnLimit text).1
        else columnLimit) := by
  have hbegin : clampColumn (cols gs) 0 = 0 := clampColumn_natCast (c := 0) (Nat.zero_le _)
  have hend : clampColumn (cols gs) columnLimit = columnLimit := clampColumn_natCast hlimit
  have hvalid := hr.isValid_iff 0 columnLimit text
  rw [hbegin, hend] at hvalid
  unfold ROW.replaceText at hok
  constructor
  · intro hempty
    have hinvalid : (WriteHelper.new r 0 columnLimit text).isValid = false := by
      rw [Bool.eq_false_iff, ne_eq, hvalid]
      rintro ⟨hpos, hne⟩
      rcases hempty with h | h
      · omega
      · exact hne h
    simp only [hinvalid, Bool.not_false, if_true, Except.ok.injEq, Prod.mk.injEq] at hok
    obtain ⟨-, rfl⟩ := hok
    exact ⟨rfl, (hr.clampedColumnInclusive_eq 0).trans hbegin⟩
  · intro hpos hne
    have hjoins : joins cwd gs (clampColumn (cols gs) 0) text = false := by
      rw [hbegin]
      simp [joins]
    have hwrite : replaceTextWrite cwd gs (clampColumn (cols gs) 0)
        (clampColumn (cols gs) columnLimit) text =
        { start := 0, new := (textGlyphs cwd columnLimit text).1
          stop := if (textGlyphs cwd columnLimit text).2 then columnLimit
            else 0 + cols (textGlyphs cwd columnLimit text).1 } := by
      rw [replaceTextWrite, hjoins, hbegin, hend]
      rfl
    obtain ⟨seg, hrep, -⟩ := hr.exists_seg_of_not_joins cwd 0 columnLimit hne
      (by rw [hbegin, hend]; exact hpos) hjoins rfl
    rw [hwrite] at hrep
    simp only [hvalid.mpr ⟨hpos, hne⟩, Bool.not_true, Bool.false_eq_true, if_false, hrep] at hok
    split at hok
    · cases hok
    · rename_i row h hfin
      obtain ⟨colEndDirty, hh⟩ := WriteHelper.finish_snd hfin
      simp only at hh
      subst hh
      simp only [Except.ok.injEq, Prod.mk.injEq] at hok
      obtain ⟨-, rfl⟩ := hok
      have hlim : (WriteHelper.new r 0 columnLimit text).colLimit = columnLimit :=
        (hr.clampedColumnInclusive_eq columnLimit).trans hend
      refine ⟨rfl, ?_⟩
      simp only [List.isEmpty_iff, hlim, Nat.zero_add]

/-- A text whose clusters are all measured as at least one column wide, and fit. -/
def FitsAsMeasured (cwd : CodepointWidthDetector) (text : List WChar) (columns : ℕ) : Prop :=
  (∀ w ∈ cwd.widths text, 0 < w) ∧ (cwd.widths text).sum ≤ columns

/-- `FitTextIntoColumns` predicts what `ReplaceText` reports for a write of the text at the start of
a blank row, exactly if the ASCII fast path takes the text up to its end or up to the limit, or all
clusters from the unit before the first one that is not ASCII are at least one column wide, and
fit. -/
theorem fitTextIntoColumns_iff (cwd : CodepointWidthDetector) {width : ℕ} (hwidth : width < 0x8000)
    (attr : TextAttribute) (text : List WChar) {columnLimit : ℕ} (hlimit : columnLimit ≤ width)
    {r : ROW} {state : RowWriteState}
    (hok : (ROW.construct width attr).replaceText cwd { text, columnBegin := 0, columnLimit } =
      .ok (r, state)) :
    fitTextIntoColumns cwd text columnLimit =
        (text.length - state.text.length, state.columnEnd) ↔
      WriteHelper.asciiCount columnLimit text = min text.length columnLimit ∨
        FitsAsMeasured cwd (text.drop (WriteHelper.asciiCount columnLimit text - 1))
          (columnLimit - (WriteHelper.asciiCount columnLimit text - 1)) := by
  obtain ⟨hskip, hwrite⟩ := replaceText_reports (ROW.construct_represents hwidth attr) cwd
    (by rwa [cols_blanks]) hok
  have hlimit' : (max 0 (columnLimit : ℤ)).toNat = columnLimit := by omega
  have hcount := asciiCount_le columnLimit text
  unfold fitTextIntoColumns
  simp only [hlimit']
  by_cases hempty : columnLimit = 0 ∨ text = []
  · obtain ⟨htext, hcolumn⟩ := hskip hempty
    have hzero : min text.length columnLimit = 0 := by
      rcases hempty with rfl | rfl
      · exact Nat.min_zero _
      · exact Nat.zero_min _
    have hascii : WriteHelper.asciiCount columnLimit text = min text.length columnLimit := by omega
    rw [if_pos hascii, htext, hcolumn, hascii, hzero, Nat.sub_self]
    simp
  rw [not_or] at hempty
  obtain ⟨htext, hcolumn⟩ := hwrite (Nat.pos_of_ne_zero hempty.1) hempty.2
  have hconsumed : text.length - state.text.length = units (textGlyphs cwd columnLimit text).1 := by
    have hle := (textOf_textGlyphs cwd columnLimit text).length_le
    rw [length_textOf] at hle
    rw [htext, List.length_drop]
    omega
  have hall : state.text = [] ↔ text.length ≤ units (textGlyphs cwd columnLimit text).1 := by
    rw [htext, List.drop_eq_nil_iff]
  rw [hconsumed, hcolumn]
  simp only [hall]
  clear hall hcolumn hconsumed htext hskip hwrite hok
  unfold textGlyphs
  simp only
  generalize WriteHelper.asciiCount columnLimit text = ascii at hcount ⊢
  by_cases hascii : ascii = min text.length columnLimit
  · have hnot : ¬ascii < min text.length columnLimit := by omega
    have htake : (text.take ascii).length = ascii := by
      rw [List.length_take]
      omega
    rw [if_pos hascii, if_neg hnot, units_map_single, cols_map_single, htake]
    simp only [hascii, true_or, iff_true, Prod.mk.injEq, true_and]
    split_ifs <;> omega
  · have hlt : ascii < min text.length columnLimit := by omega
    have htake : (text.take (ascii - 1)).length = ascii - 1 := by
      rw [List.length_take]
      omega
    have hdrop : (text.drop (ascii - 1)).length = text.length - (ascii - 1) := List.length_drop
    rw [if_neg hascii, if_pos hlt, units_append, cols_append, units_map_single, cols_map_single, htake]
    generalize hrest : text.drop (ascii - 1) = rest at hdrop ⊢
    obtain ⟨hfits, hlimited⟩ := fitLoop_spec cwd columnLimit (text.length - (ascii - 1))
      rest hdrop.le (ascii - 1) (ascii - 1)
    have hwidths : cwd.widthsN (text.length - (ascii - 1)) rest = cwd.widths rest := by
      rw [CodepointWidthDetector.widths, hdrop]
    rw [hwidths] at hfits hlimited
    obtain ⟨hsumLe, hsumEq⟩ := sum_map_max_one (cwd.widths rest)
    have hcols := cwd.cols_clusters rest
    have hunits : units (cwd.clusters rest) = rest.length := by
      rw [← length_textOf, cwd.textOf_clusters]
    simp only [hascii, false_or]
    constructor
    · intro heq
      have hfitCols := cols_fitting_le (columnLimit - (ascii - 1)) (cwd.clusters rest)
      have hsum : ascii - 1 + (cwd.widths rest).sum ≤ columnLimit := by
        by_contra hsum
        -- the measured columns are past the limit, which the writer never reports
        have hpast := hlimited (by omega) (by omega)
        rw [heq] at hpast
        simp only at hpast
        split_ifs at hpast <;> omega
      rw [hfits hsum, Prod.mk.injEq] at heq
      obtain ⟨hdist, hcol⟩ := heq
      have hfit : fitting (columnLimit - (ascii - 1)) (cwd.clusters rest) = cwd.clusters rest :=
        eq_of_isPrefix_of_units (fitting_isPrefix _ _) (by omega)
      rw [hfit, hunits, if_pos (by omega), hcols] at hcol
      exact ⟨hsumEq.mp (by omega), by omega⟩
    · rintro ⟨hpos, hsum⟩
      have hfit : fitting (columnLimit - (ascii - 1)) (cwd.clusters rest) = cwd.clusters rest := by
        rw [fitting_eq_self_iff, hcols, hsumEq.mpr hpos]
        exact hsum
      rw [hfits (by omega), hfit, hunits, hcols, hsumEq.mpr hpos, if_pos (by omega)]

/-- An ideograph in front of ASCII, in three columns. -/
theorem fitTextIntoColumns_ideograph :
    fitTextIntoColumns .ofMarks [0x4e2d, 0x78] 3 = (2, 3) := by
  have hok : (ROW.construct 4 {}).replaceText .ofMarks
      { text := [0x4e2d, 0x78], columnBegin := 0, columnLimit := (3 : ℕ) } =
      .ok ({ ROW.construct 4 {} with
        chars := [0x4e2d, 0x78, space, space], charOffsets := [0, 0x8000, 1, 2, 3] },
        { text := [], columnBegin := 0, columnLimit := (3 : ℕ), columnEnd := 3,
          columnBeginDirty := 0, columnEndDirty := 3 }) := by
    decide
  exact (fitTextIntoColumns_iff .ofMarks (by decide) {} [0x4e2d, 0x78] (by decide) hok).mpr
    (.inr ⟨by decide, by decide⟩)

/-- An ideograph does not fit into the one column left: the writer reports the limit, while two
columns are measured. -/
theorem not_fitTextIntoColumns_eq : ¬∀ (cwd : CodepointWidthDetector) (width columnLimit : ℕ)
    (attr : TextAttribute) (text : List WChar) (r : ROW) (state : RowWriteState),
    width < 0x8000 → columnLimit ≤ width →
    (ROW.construct width attr).replaceText cwd { text, columnBegin := 0, columnLimit } =
      .ok (r, state) →
    fitTextIntoColumns cwd text columnLimit =
      (text.length - state.text.length, state.columnEnd) := by
  intro h
  have hok : (ROW.construct 4 {}).replaceText .ofMarks
      { text := [0x4e2d], columnBegin := 0, columnLimit := (1 : ℕ) } =
      .ok (ROW.construct 4 {},
        { text := [0x4e2d], columnBegin := 0, columnLimit := (1 : ℕ), columnEnd := 1,
          columnBeginDirty := 0, columnEndDirty := 1 }) := by
    decide
  have heq := h .ofMarks 4 1 {} [0x4e2d] _ _ (by decide) (by decide) hok
  have hmeasured : fitTextIntoColumns .ofMarks [0x4e2d] 1 = (0, 2) := by decide
  rw [Nat.cast_one, hmeasured] at heq
  exact absurd heq (by decide)

end IntelligentTerminal.Buffer
