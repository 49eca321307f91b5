import IntelligentTerminal.Buffer.RowWrite

/-!
# Writing text to a row

`ROW::ReplaceText` on a row that holds `gs` is the write `replaceTextWrite`: the clusters that
fit, from the column asked for on or, when the text continues the glyph in front of it, from
that glyph on.

Source: `src/buffer/out/Row.cpp`, lines 613-763.
-/

namespace IntelligentTerminal.Buffer

open Glyph

/-! ### The loop over clusters -/

namespace WriteHelper

theorem clusterLoop_eq (cwd : CodepointWidthDetector) {colLimit : ℕ} (hl : colLimit < 0x8000) :
    ∀ {fuel : ℕ} {it : List WChar}, it.length ≤ fuel →
    ∀ {charOffsets : List ℕ} {colEnd : ℕ}, colEnd ≤ colLimit → ∀ {ch : ℕ},
      clusterLoop cwd colLimit fuel it charOffsets colEnd ch =
        (charOffsets.overwrite colEnd
            (leadWords ch (fitting (colLimit - colEnd) (cwd.clusters it))),
          colEnd + cols (fitting (colLimit - colEnd) (cwd.clusters it)),
          ch + units (fitting (colLimit - colEnd) (cwd.clusters it)),
          decide (fitting (colLimit - colEnd) (cwd.clusters it) ≠ cwd.clusters it)) := by
  intro fuel
  induction fuel with
  | zero =>
    intro it hfuel charOffsets colEnd _ ch
    obtain rfl : it = [] := List.length_eq_zero_iff.mp (by omega)
    simp [clusterLoop, fitting]
  | succ fuel ih =>
    intro it hfuel charOffsets colEnd hc ch
    by_cases hit : it = []
    · subst hit
      simp [clusterLoop, fitting]
    · have hpos := cwd.next_len_pos it hit
      have hlen := List.length_pos_of_ne_nil hit
      have hwidth := cwd.next_width_le it
      have hglyph : (cwd.cluster it hit).width = max 1 (cwd.next it).2 := rfl
      have hnarrow : narrow16 (colEnd + (max 1 (cwd.next it).2 : ℕ)) =
          colEnd + max 1 (cwd.next it).2 := narrow16_add (by omega)
      have hend : glyphEnd colEnd (colEnd + max 1 (cwd.next it).2) =
          colEnd + max 1 (cwd.next it).2 := by
        unfold glyphEnd
        omega
      rw [clusterLoop, if_neg hit, cwd.clusters_eq_cons hit, fitting, hglyph]
      simp only [hnarrow, hend, Nat.add_sub_cancel_left]
      by_cases hfit : colEnd + max 1 (cwd.next it).2 ≤ colLimit
      · rw [if_neg (by omega), if_pos (by omega),
          ih (by rw [List.length_drop]; omega) hfit, Nat.sub_sub, leadWords, hglyph,
          cwd.length_text_cluster, List.overwrite_append_seg, length_glyphWords (by omega),
          cols_cons, units_cons, hglyph, cwd.length_text_cluster]
        simp only [List.cons.injEq, true_and, Nat.add_assoc, ne_eq]
      · rw [if_pos (by omega), if_neg (by omega)]
        simp

variable {h : WriteHelper} {r : ROW}

theorem replaceClusters_eq (cwd : CodepointWidthDetector)
    (hl : h.colLimit < 0x8000) {it : List WChar} {colEnd ch : ℕ} (hc : colEnd ≤ h.colLimit)
    {fit : List (Glyph WChar)} (hfit : fit = fitting (h.colLimit - colEnd) (cwd.clusters it)) :
    replaceClusters cwd h r it colEnd ch =
      ({ r with charOffsets := r.charOffsets.overwrite colEnd (leadWords ch fit) },
        { h with
          colEnd := colEnd + cols fit
          colEndDirty := if fit = cwd.clusters it then colEnd + cols fit else h.colLimit
          charsConsumed := ch + units fit - h.chBeg }) := by
  subst hfit
  unfold replaceClusters
  rw [clusterLoop_eq cwd hl le_rfl hc]
  by_cases heq : fitting (h.colLimit - colEnd) (cwd.clusters it) = cwd.clusters it
  · simp only [ne_eq, heq, not_true_eq_false, decide_false, Bool.false_eq_true, if_false, if_true]
  · simp only [ne_eq, heq, not_false_eq_true, decide_true, if_true, if_false]

theorem replaceTextUnicode_zero (cwd : CodepointWidthDetector)
    (hl : h.colLimit < 0x8000) (hbeg : h.colBeg = 0) (hend : h.colEnd = 0) (hch : h.chBeg = 0)
    (hdirty : h.colBegDirty = 0) (hchars : h.chars ≠ []) (hoff : r.uncheckedCharOffset 0 = 0) :
    h.replaceTextUnicode cwd r 0 = replaceClusters cwd h r h.chars h.colEnd h.chBeg := by
  have hpos := cwd.next_len_pos h.chars hchars
  have hwidth := cwd.next_width_le h.chars
  have hglyph : (cwd.cluster h.chars hchars).width = max 1 (cwd.next h.chars).2 := rfl
  have hnarrow : narrow16 (((0 : ℕ) : ℤ) + (max 1 (cwd.next h.chars).2 : ℕ)) =
      max 1 (cwd.next h.chars).2 := by
    rw [narrow16_add (by omega), Nat.zero_add]
  have hglyphEnd : glyphEnd 0 (max 1 (cwd.next h.chars).2) = max 1 (cwd.next h.chars).2 := by
    unfold glyphEnd
    omega
  rw [hend, hch, replaceClusters_eq cwd hl (Nat.zero_le _) rfl]
  unfold replaceTextUnicode
  simp only [hbeg, if_true, hoff, hch, Nat.sub_self, List.take_zero, cwd.join_nil, hpos, hnarrow,
    hglyphEnd, Nat.sub_zero, Nat.zero_add, cwd.clusters_eq_cons hchars, fitting, hglyph]
  by_cases hfit : max 1 (cwd.next h.chars).2 ≤ h.colLimit
  · rw [if_neg (by omega), if_pos hfit, replaceClusters_eq cwd (by exact hl) (by exact hfit) rfl]
    simp only [leadWords, List.overwrite_append_seg, hglyph, cwd.length_text_cluster, cols_cons,
      units_cons, Nat.zero_add, List.cons.injEq, true_and, hdirty]
    rw [length_glyphWords (by omega), Nat.sub_zero]
  · rw [if_pos (by omega), if_neg hfit]
    simp [hdirty]

theorem replaceText_of_not_joins (cwd : CodepointWidthDetector)
    (hend : h.colEnd = h.colBeg) (hlt : h.colBeg < h.colLimit) (hl : h.colLimit < 0x8000)
    (hunicode : asciiCount (h.colLimit - h.colBeg) h.chars = 0 →
      h.replaceTextUnicode cwd r 0 = replaceClusters cwd h r h.chars h.colEnd h.chBeg)
    {T : List (Glyph WChar) × Bool} (hT : T = textGlyphs cwd (h.colLimit - h.colBeg) h.chars)
    {stop : ℕ} (hstop : stop = if T.2 then h.colLimit else h.colBeg + cols T.1) :
    ∃ seg, h.replaceText cwd r =
        ({ r with charOffsets := r.charOffsets.overwrite h.colBeg seg },
          { h with
            colEnd := h.colBeg + cols T.1, colEndDirty := stop, charsConsumed := units T.1 }) ∧
      seg.take (cols T.1) = leadWords h.chBeg T.1 ∧ h.colBeg + seg.length ≤ stop ∧
      h.colBeg + cols T.1 ≤ stop ∧ stop ≤ h.colLimit := by
  have hle := asciiCount_le (h.colLimit - h.colBeg) h.chars
  unfold textGlyphs at hT
  unfold replaceText
  simp only at hT ⊢
  generalize asciiCount (h.colLimit - h.colBeg) h.chars = ascii at *
  by_cases hasc : ascii < min h.chars.length (h.colLimit - h.colBeg)
  · rw [if_pos hasc] at hT ⊢
    -- with and without units of ASCII, the loop over clusters runs from the same place
    have hloop : h.replaceTextUnicode cwd
          { r with charOffsets := r.charOffsets.overwrite h.colEnd (iotaN ascii h.chBeg) } ascii =
        replaceClusters cwd h
          { r with charOffsets := r.charOffsets.overwrite h.colEnd (iotaN ascii h.chBeg) }
          (h.chars.drop (ascii - 1)) (h.colEnd + (ascii - 1)) (h.chBeg + (ascii - 1)) := by
      rcases Nat.eq_zero_or_pos ascii with rfl | hpos
      · exact hunicode rfl
      · rw [replaceTextUnicode, if_neg hpos.ne']
    obtain ⟨rest, hrest⟩ : ∃ rest, rest = cwd.clusters (h.chars.drop (ascii - 1)) := ⟨_, rfl⟩
    obtain ⟨fit, hfit⟩ : ∃ fit, fit = fitting (h.colLimit - h.colBeg - (ascii - 1)) rest := ⟨_, rfl⟩
    rw [← hrest, ← hfit] at hT
    have htake : (h.chars.take (ascii - 1)).length = ascii - 1 := by
      rw [List.length_take]
      omega
    have hcols : cols fit ≤ h.colLimit - h.colBeg - (ascii - 1) := hfit ▸ cols_fitting_le _ _
    have hT₁ : cols T.1 = ascii - 1 + cols fit := by
      rw [hT, cols_append, cols_map_single, htake]
    have hT₂ : units T.1 = ascii - 1 + units fit := by
      rw [hT, units_append, units_map_single, htake]
    have hT₃ : leadWords h.chBeg T.1 =
        iotaN (ascii - 1) h.chBeg ++ leadWords (h.chBeg + (ascii - 1)) fit := by
      rw [hT, leadWords_append, leadWords_map_single, units_map_single, htake]
    have hstop' : stop = if fit = rest then h.colBeg + cols T.1 else h.colLimit := by
      rw [hstop, hT]
      by_cases heq : fit = rest <;> simp [heq]
    have hpos : fit = rest → 0 < cols fit := by
      intro heq
      refine Nat.pos_of_ne_zero fun h0 => ?_
      rw [cols_eq_zero_iff, heq, hrest] at h0
      refine cwd.clusters_ne_nil ?_ h0
      rw [ne_eq, List.drop_eq_nil_iff]
      omega
    have hfit' : fit = fitting (h.colLimit - (h.colEnd + (ascii - 1)))
        (cwd.clusters (h.chars.drop (ascii - 1))) := by
      rw [hfit, hrest, hend, Nat.sub_sub]
    rw [hloop, replaceClusters_eq cwd hl (by omega) hfit', ← hrest, List.overwrite_overwrite (by rw [length_iotaN]; omega),
      take_iotaN (Nat.sub_le _ _), hend]
    refine ⟨iotaN (ascii - 1) h.chBeg ++ (leadWords (h.chBeg + (ascii - 1)) fit ++
      ((iotaN ascii h.chBeg).drop (ascii - 1)).drop
        (leadWords (h.chBeg + (ascii - 1)) fit).length), ?_, ?_, ?_, ?_, ?_⟩
    · rw [hstop', hT₁, hT₂, ← Nat.add_assoc, Nat.add_assoc h.chBeg, Nat.add_sub_cancel_left]
    · rw [hT₁, hT₃, ← List.append_assoc, List.take_left']
      rw [List.length_append, length_iotaN, length_leadWords]
    · simp only [List.length_append, List.length_drop, length_iotaN, length_leadWords, hstop', hT₁]
      split_ifs with heq
      · have := hpos heq
        omega
      · omega
    · rw [hT₁, hstop', hT₁]
      split_ifs <;> omega
    · rw [hstop', hT₁]
      split_ifs <;> omega
  · rw [if_neg hasc] at hT ⊢
    have htake : (h.chars.take ascii).length = ascii := by
      rw [List.length_take]
      omega
    have hT₁ : cols T.1 = ascii := by rw [hT, cols_map_single, htake]
    have hT₂ : units T.1 = ascii := by rw [hT, units_map_single, htake]
    have hstop' : stop = h.colBeg + ascii := by rw [hstop, hT₁, hT]; rfl
    refine ⟨iotaN ascii h.chBeg, ?_, ?_, ?_, ?_, ?_⟩
    · rw [hT₁, hT₂, hstop', hend]
    · rw [hT₁, hT, leadWords_map_single, htake, take_iotaN le_rfl]
    · rw [length_iotaN, hstop']
    · rw [hT₁, hstop']
    · rw [hstop']
      omega

end WriteHelper

/-! ### The glyph in front of a text -/

theorem prevGlyph_append (A gs : List (Glyph WChar)) {b : ℕ} (hb : 0 < b) :
    prevGlyph (A ++ gs) (cols A + b) =
      { prevGlyph gs b with col := cols A + (prevGlyph gs b).col } := by
  induction A with
  | nil => simp
  | cons g A ih =>
    have := g.width_pos
    rw [List.cons_append, prevGlyph, cols_cons, if_neg (by omega), if_neg (by omega),
      if_neg (by omega), show g.width + cols A + b - g.width = cols A + b by omega, ih]
    simp only [Nat.add_assoc]

theorem prevGlyph_boundary (A B : List (Glyph WChar)) (g : Glyph WChar) :
    prevGlyph (A ++ g :: B) (cols A + g.width) =
      { col := cols A, chars := g.text, kept := g.text } := by
  have := g.width_pos
  rw [prevGlyph_append _ _ g.width_pos, prevGlyph, if_neg (by omega), if_neg (by omega),
    if_pos rfl]
  simp

theorem prevGlyph_cut (A B : List (Glyph WChar)) {g : Glyph WChar} (hg : g.width = 2) :
    prevGlyph (A ++ g :: B) (cols A + 1) =
      { col := cols A, chars := g.text.take 1, kept := [space] } := by
  rw [prevGlyph_append _ _ Nat.one_pos, prevGlyph, if_neg (by omega), if_pos (by omega)]
  simp

namespace ROW.Represents

variable {r : ROW} {gs : List (Glyph WChar)} {A B : List (Glyph WChar)} {columnBegin : ℤ}

theorem new_boundary (hr : r.Represents (A ++ B)) (columnLimit : ℤ)
    (hb : clampColumn (cols (A ++ B)) columnBegin = cols A)
    (chars : List WChar) :
    WriteHelper.new r columnBegin columnLimit chars =
      { chars, colBeg := cols A, colLimit := clampColumn (cols (A ++ B)) columnLimit
        colEnd := cols A, colBegDirty := cols A, chBeg := units A, chBegDirty := units A
        leadingSpaces := 0 } := by
  have hlt := hr.units_add_lt
  simp only [WriteHelper.new, hr.clampedColumnInclusive_eq, hb, hr.adjustBackward_boundary,
    hr.offset_boundary, Nat.sub_self]
  rw [narrow16_add (by omega), Nat.add_zero]

theorem new_cut {g : Glyph WChar} (hr : r.Represents (A ++ g :: B))
    (hg : g.width = 2) (columnLimit : ℤ)
    (hb : clampColumn (cols (A ++ g :: B)) columnBegin = cols A + 1) (chars : List WChar) :
    WriteHelper.new r columnBegin columnLimit chars =
      { chars, colBeg := cols A + 1, colLimit := clampColumn (cols (A ++ g :: B)) columnLimit
        colEnd := cols A + 1, colBegDirty := cols A, chBeg := units A + 1, chBegDirty := units A
        leadingSpaces := 1 } := by
  have hlt := hr.units_add_lt
  simp only [WriteHelper.new, hr.clampedColumnInclusive_eq, hb, hr.adjustBackward_cut hg,
    hr.offset_cut hg, Nat.add_sub_cancel_left]
  rw [narrow16_add (by omega)]

theorem prev_eq (hr : r.Represents gs) {columnBegin columnLimit : ℤ} {chars : List WChar}
    {b : ℕ} (hb : b = clampColumn (cols gs) columnBegin) (hpos : 0 < b)
    {h : WriteHelper} (hh : h = WriteHelper.new r columnBegin columnLimit chars) :
    r.adjustBackward (b - 1) = (prevGlyph gs b).col ∧
      (r.chars.drop (r.uncheckedCharOffset (prevGlyph gs b).col)).take
        (h.chBeg - r.uncheckedCharOffset (prevGlyph gs b).col) = (prevGlyph gs b).chars := by
  obtain ⟨A, g, B, rfl, hcase⟩ := hr.exists_prev hpos (by rw [hb, ← hr.count]; exact clampColumn_le _ _)
  rcases hcase with hbd | ⟨hg, hbd⟩
  · rw [hbd, prevGlyph_boundary]
    refine ⟨hr.adjustBackward_last, ?_⟩
    have hr' := hr
    rw [List.append_cons] at hr'
    have hcols : cols (A ++ [g]) = cols A + g.width := by simp
    have hnew := hr'.new_boundary columnLimit (by
      rw [← List.append_cons, ← hb, hbd, hcols]) chars
    rw [hh, hnew, hr.offset_boundary]
    simp only [units_append, units_cons, units_nil, Nat.add_zero, Nat.add_sub_cancel_left]
    exact hr.glyph_chars
  · rw [hbd, prevGlyph_cut A B hg]
    refine ⟨hr.adjustBackward_boundary, ?_⟩
    rw [hh, hr.new_cut hg columnLimit (by rw [← hb, hbd]), hr.offset_boundary]
    simp only [Nat.add_sub_cancel_left]
    exact hr.glyph_first

end ROW.Represents

theorem asciiCount_eq_zero_iff {k : ℕ} {t : List WChar} (hk : 0 < k) (ht : t ≠ []) :
    WriteHelper.asciiCount k t = 0 ↔ t.head?.all isAscii = false := by
  obtain ⟨c, t, rfl⟩ := List.exists_cons_of_ne_nil ht
  obtain ⟨k, rfl⟩ : ∃ m, k = m + 1 := ⟨k - 1, by omega⟩
  rw [WriteHelper.asciiCount, List.take_succ_cons, List.takeWhile_cons]
  cases hc : isAscii c <;> simp [hc]

namespace ROW.Represents

variable {r : ROW} {gs : List (Glyph WChar)} {text : List WChar} {h : WriteHelper}
  {columnBegin columnLimit : ℤ}

theorem replaceTextUnicode_of_not_joined (hr : r.Represents gs) (cwd : CodepointWidthDetector)
    (htext : text ≠ [])
    (hj : clampColumn (cols gs) columnBegin = 0 ∨

      (cwd.join (prevGlyph gs (clampColumn (cols gs) columnBegin)).chars text).1 = 0)
    (hh : h = WriteHelper.new r columnBegin columnLimit text) :
    h.replaceTextUnicode cwd r 0 =
      WriteHelper.replaceClusters cwd h r h.chars h.colEnd h.chBeg := by
  have hl : h.colLimit < 0x8000 := by
    rw [hh]
    have := clampColumn_le (cols gs) columnLimit
    have := hr.cols_le
    simp only [WriteHelper.new, hr.clampedColumnInclusive_eq]
    omega
  rcases Nat.eq_zero_or_pos (clampColumn (cols gs) columnBegin) with h0 | hpos
  · have hnew := ROW.Represents.new_boundary (A := []) (B := gs) hr columnLimit h0 text
    rw [← hh] at hnew
    refine WriteHelper.replaceTextUnicode_zero cwd hl ?_ ?_ ?_ ?_ ?_ ?_
    · rw [hnew, cols_nil]
    · rw [hnew, cols_nil]
    · rw [hnew, units_nil]
    · rw [hnew, cols_nil]
    · rw [hnew]
      exact htext
    · exact ROW.Represents.offset_boundary (A := []) (B := gs) hr
  · obtain ⟨hcol, hchars⟩ := hr.prev_eq rfl hpos hh
    have hlen : ¬0 < (cwd.join (prevGlyph gs (clampColumn (cols gs) columnBegin)).chars text).1 := by
      omega
    have hbeg : h.colBeg = clampColumn (cols gs) columnBegin := by
      rw [hh]
      exact hr.clampedColumnInclusive_eq columnBegin
    have htext' : h.chars = text := by rw [hh]; rfl
    unfold WriteHelper.replaceTextUnicode
    simp only [if_true, hbeg, hpos.ne', if_false, hcol, hchars, htext', hlen]

theorem replaceTextUnicode_of_not_joins (hr : r.Represents gs) (cwd : CodepointWidthDetector)
    (htext : text ≠ [])
    (hascii : text.head?.all isAscii = false)
    (hj : joins cwd gs (clampColumn (cols gs) columnBegin) text = false)
    (hh : h = WriteHelper.new r columnBegin columnLimit text) :
    h.replaceTextUnicode cwd r 0 =
      WriteHelper.replaceClusters cwd h r h.chars h.colEnd h.chBeg := by
  refine hr.replaceTextUnicode_of_not_joined cwd htext ?_ hh
  rcases Nat.eq_zero_or_pos (clampColumn (cols gs) columnBegin) with h0 | hpos
  · exact .inl h0
  · simp only [joins, hascii, Bool.not_false, Bool.true_and, decide_eq_true hpos,
      decide_eq_false_iff_not] at hj
    exact .inr (Nat.eq_zero_of_not_pos hj)

theorem exists_seg_of_not_joins (hr : r.Represents gs) (cwd : CodepointWidthDetector)
    (columnBegin columnLimit : ℤ) (htext : text ≠ [])
    (hlt : clampColumn (cols gs) columnBegin < clampColumn (cols gs) columnLimit)
    (hj : joins cwd gs (clampColumn (cols gs) columnBegin) text = false) {w : CellWrite}
    (hw : w = replaceTextWrite cwd gs (clampColumn (cols gs) columnBegin)
      (clampColumn (cols gs) columnLimit) text) :
    ∃ seg, (WriteHelper.new r columnBegin columnLimit text).replaceText cwd r =
        ({ r with charOffsets := r.charOffsets.overwrite w.start seg },
          { WriteHelper.new r columnBegin columnLimit text with
            colEnd := w.start + cols w.new
            colEndDirty := w.stop
            charsConsumed := units w.new }) ∧
      r.FinishesAs { r with charOffsets := r.charOffsets.overwrite w.start seg }
        { WriteHelper.new r columnBegin columnLimit text with
          colEnd := w.start + cols w.new
          colEndDirty := w.stop
          charsConsumed := units w.new } (w.apply gs) := by
  obtain ⟨T, hT⟩ : ∃ T, T = textGlyphs cwd
      (clampColumn (cols gs) columnLimit - clampColumn (cols gs) columnBegin) text := ⟨_, rfl⟩
  have hw' : w = { start := clampColumn (cols gs) columnBegin, new := T.1
                   stop := if T.2 then clampColumn (cols gs) columnLimit
                     else clampColumn (cols gs) columnBegin + cols T.1 } := by
    rw [hw, replaceTextWrite, hj, hT]
    rfl
  have hbeg : (WriteHelper.new r columnBegin columnLimit text).colBeg =
      clampColumn (cols gs) columnBegin := hr.clampedColumnInclusive_eq columnBegin
  have hlim : (WriteHelper.new r columnBegin columnLimit text).colLimit =
      clampColumn (cols gs) columnLimit := hr.clampedColumnInclusive_eq columnLimit
  have hcl := clampColumn_le (cols gs) columnLimit
  have hcols := hr.cols_le
  obtain ⟨seg, hrep, hseg, hlen, hle, hstop⟩ := WriteHelper.replaceText_of_not_joins cwd (r := r)
    (h := WriteHelper.new r columnBegin columnLimit text) rfl (by rw [hbeg, hlim]; exact hlt)
    (by omega) (fun h0 => hr.replaceTextUnicode_of_not_joins cwd htext
      ((asciiCount_eq_zero_iff (by rw [hbeg, hlim]; omega) htext).mp h0) hj rfl)
    (T := T) (by rw [hbeg, hlim]; exact hT) rfl
  rw [hbeg, hlim] at hrep hlen hle hstop
  have hpre : (textOf T.1).IsPrefix text := hT ▸ textOf_textGlyphs cwd _ text
  subst hw'
  refine ⟨seg, by simp only [hrep, hbeg, hlim], ?_⟩
  refine hr.finishesAs_apply columnBegin columnLimit text rfl hpre.length_le ?_ hle ?_
    (fun _ => hseg) hlen
  · exact List.prefix_iff_eq_take.mp hpre
  · rw [← hr.count]
    simp only
    omega

theorem finishesAs_of_written {A B N : List (Glyph WChar)} (hr : r.Represents (A ++ B))
    (pre : List WChar)
    (hw : h.Written r A B N pre 0 (leadWords (units A) N))
    (hlead : h.leadingSpaces = 0 ∨
      h.leadingSpaces = 1 ∧ h.chBegDirty = units A ∧ ∃ g N', N = g :: N') :
    r.FinishesAs { r with charOffsets := r.charOffsets.overwrite (cols A) (leadWords (units A) N) }
      h ({ start := cols A, new := N, stop := h.colEndDirty : CellWrite }.apply (A ++ B)) := by
  have happly : A ++ N ++ blanks space (h.colEndDirty - h.colEnd) ++
      rightOf space (A ++ B) h.colEndDirty =
      { start := cols A, new := N, stop := h.colEndDirty : CellWrite }.apply (A ++ B) := by
    simp only [CellWrite.apply, splice, leftOf_append, hw.colEnd, List.append_assoc]
  have hwords : ∀ W : List ℕ, cols N ≤ W.length → 0 + (leadWords (units A) N).length ≤ W.length →
      ((W.overwrite 0 (leadWords (units A) N)).overwrite 0
        (iotaN h.leadingSpaces h.chBegDirty)).take (cols N) = leadWords (units A) N := by
    intro W hW _
    have htake : (W.overwrite 0 (leadWords (units A) N)).take (cols N) = leadWords (units A) N := by
      rw [List.overwrite_zero (by rw [length_leadWords]; exact hW), length_leadWords,
        List.take_left' (length_leadWords _ _)]
    rcases hlead with h0 | ⟨h1, hch, g, N', rfl⟩
    · rw [h0]
      exact htake
    · -- the word of the leading space is the one that is there already
      have hseg : iotaN 1 (units A) ++ (leadWords (units A) (g :: N')).drop 1 =
          leadWords (units A) (g :: N') := rfl
      rw [h1, hch, List.overwrite_overwrite_same, length_iotaN, hseg]
      exact htake
  constructor
  · intro hlt
    obtain ⟨r', hfin, hrep, hrest⟩ := hw.finish_spec hr hwords (by rw [happly]; exact hlt)
    rw [happly] at hrep
    exact ⟨r', hfin, hrep, hrest⟩
  · intro hlt
    exact hw.finish_eq_none hr (by rw [happly]; exact hlt)
  · intro hlt p hfin
    exact hw.finish_isTrailer hr (by rw [happly]; exact hlt) hfin

theorem replaceText_eq_unicode (hr : r.Represents gs) (cwd : CodepointWidthDetector)
    (columnBegin columnLimit : ℤ)
    (hlt : clampColumn (cols gs) columnBegin < clampColumn (cols gs) columnLimit)
    (hascii : text.head?.all isAscii = false) :
    (WriteHelper.new r columnBegin columnLimit text).replaceText cwd r =
      (WriteHelper.new r columnBegin columnLimit text).replaceTextUnicode cwd r 0 := by
  have htext : text ≠ [] := by
    rintro rfl
    cases hascii
  have hbeg : (WriteHelper.new r columnBegin columnLimit text).colBeg =
      clampColumn (cols gs) columnBegin := hr.clampedColumnInclusive_eq columnBegin
  have hlim : (WriteHelper.new r columnBegin columnLimit text).colLimit =
      clampColumn (cols gs) columnLimit := hr.clampedColumnInclusive_eq columnLimit
  have hzero := (asciiCount_eq_zero_iff (k := clampColumn (cols gs) columnLimit -
    clampColumn (cols gs) columnBegin) (by omega) htext).mpr hascii
  have hlen := List.length_pos_of_ne_nil htext
  have hchars : (WriteHelper.new r columnBegin columnLimit text).chars = text := rfl
  have hrow (h : WriteHelper) :
      { r with charOffsets := r.charOffsets.overwrite h.colEnd (iotaN 0 h.chBeg) } = r := rfl
  unfold WriteHelper.replaceText
  simp only [hbeg, hlim, hchars, hzero, hrow]
  rw [if_pos (by omega)]

theorem replaceTextUnicode_of_joins (hr : r.Represents gs) (cwd : CodepointWidthDetector)
    (columnBegin columnLimit : ℤ)
    (hlt : clampColumn (cols gs) columnBegin < clampColumn (cols gs) columnLimit)
    (hpos : 0 < clampColumn (cols gs) columnBegin)
    (hlen : 0 < (cwd.join (prevGlyph gs (clampColumn (cols gs) columnBegin)).chars text).1)
    {p : PrevGlyph} (hp : p = prevGlyph gs (clampColumn (cols gs) columnBegin))
    (hcol : p.col < clampColumn (cols gs) columnBegin)
    {state : ℕ × ℕ} (hstate : state = cwd.join p.chars text)
    {fit : List (Glyph WChar)} (hfit : fit = fitting
      (clampColumn (cols gs) columnLimit - (p.col + max 1 state.2))

      (cwd.clusters (text.drop state.1)))
    (hh : h = WriteHelper.new r columnBegin columnLimit text) :
    h.replaceTextUnicode cwd r 0 =
      ({ r with
          charOffsets := (r.charOffsets.overwrite p.col
            (glyphWords (r.uncheckedCharOffset p.col) (max 1 state.2) ++
              leadWords (h.chBeg + state.1) fit)) },
        { h with
          colBegDirty := p.col
          colEnd := p.col + max 1 state.2 + cols fit
          colEndDirty :=
            if fit = cwd.clusters (text.drop state.1) then p.col + max 1 state.2 + cols fit
            else clampColumn (cols gs) columnLimit
          charsConsumed := state.1 + units fit }) := by
  rw [← hp] at hlen
  have hcl := clampColumn_le (cols gs) columnLimit
  have hcols := hr.cols_le
  have hbeg : h.colBeg = clampColumn (cols gs) columnBegin := by
    rw [hh]
    exact hr.clampedColumnInclusive_eq columnBegin
  have hlim : h.colLimit = clampColumn (cols gs) columnLimit := by
    rw [hh]
    exact hr.clampedColumnInclusive_eq columnLimit
  have hchars : h.chars = text := by rw [hh]; rfl
  have hwidth := cwd.join_width_le p.chars text
  rw [← hstate] at hwidth hlen
  obtain ⟨hprev, hprevChars⟩ := hr.prev_eq rfl hpos hh
  rw [← hp] at hprev hprevChars
  have hnarrow : narrow16 (p.col + (max 1 state.2 : ℕ)) = p.col + max 1 state.2 :=
    narrow16_add (by omega)
  have hend : glyphEnd p.col (p.col + max 1 state.2) = p.col + max 1 state.2 := by
    unfold glyphEnd
    omega
  unfold WriteHelper.replaceTextUnicode
  simp only [if_true, hbeg, hpos.ne', if_false, hprev, hprevChars, hchars, ← hstate, hlen, hnarrow,
    hlim, hend, Nat.add_sub_cancel_left]
  rw [if_neg (by omega), WriteHelper.replaceClusters_eq cwd (by simp only; omega)
    (by simp only; omega) hfit, List.overwrite_append_seg, length_glyphWords (by omega),
    Nat.add_assoc h.chBeg, Nat.add_sub_cancel_left]

theorem exists_finishesAs_joined (hr : r.Represents gs) (cwd : CodepointWidthDetector)
    (columnBegin columnLimit : ℤ)
    (hlt : clampColumn (cols gs) columnBegin < clampColumn (cols gs) columnLimit)
    (hpos : 0 < clampColumn (cols gs) columnBegin)
    (hlen : 0 < (cwd.join (prevGlyph gs (clampColumn (cols gs) columnBegin)).chars text).1) :
    ∃ written h, (WriteHelper.new r columnBegin columnLimit text).replaceTextUnicode cwd r 0 =
        (written, h) ∧
      h.colBegDirty = (prevGlyph gs (clampColumn (cols gs) columnBegin)).col ∧
      written.columnCount = r.columnCount ∧
      r.FinishesAs written h ((joinedWrite cwd gs (clampColumn (cols gs) columnBegin)
        (clampColumn (cols gs) columnLimit) text).apply gs) := by
  have hcl := clampColumn_le (cols gs) columnLimit
  have hcb := clampColumn_le (cols gs) columnBegin
  obtain ⟨A, g, B, rfl, hcase⟩ := hr.exists_prev hpos (by rw [← hr.count]; exact hcb)
  have hcount := hr.count
  generalize hb : clampColumn (cols (A ++ g :: B)) columnBegin = b at *
  generalize hl : clampColumn (cols (A ++ g :: B)) columnLimit = l at *
  obtain ⟨p, hp⟩ : ∃ p, p = prevGlyph (A ++ g :: B) b := ⟨_, rfl⟩
  obtain ⟨state, hstate⟩ : ∃ state, state = cwd.join p.chars text := ⟨_, rfl⟩
  obtain ⟨rest, hrest⟩ : ∃ rest, rest = cwd.clusters (text.drop state.1) := ⟨_, rfl⟩
  have hcolp : p.col = cols A := by
    rcases hcase with h | ⟨hg, h⟩
    · rw [hp, h, prevGlyph_boundary]
    · rw [hp, h, prevGlyph_cut A B hg]
  obtain ⟨fit, hfit⟩ : ∃ fit, fit = fitting (l - (cols A + max 1 state.2)) rest := ⟨_, rfl⟩
  have hlen' := hlen
  rw [← hp, ← hstate] at hlen
  have hwidth := cwd.join_width_le p.chars text
  have hle := cwd.join_len_le p.chars text
  rw [← hstate] at hwidth hle
  have hcolsfit : cols fit ≤ l - (cols A + max 1 state.2) := hfit ▸ cols_fitting_le _ _
  have htake : (text.take state.1).length = state.1 := by
    rw [List.length_take]
    omega
  -- the text consumed is a start of the text
  have hpre : (textOf fit).IsPrefix (text.drop state.1) := by
    have h := textOf_isPrefix (hfit ▸ fitting_isPrefix _ rest : fit.IsPrefix rest)
    rwa [hrest, cwd.textOf_clusters] at h
  have hunits : state.1 + units fit ≤ text.length := by
    have := hpre.length_le
    rw [length_textOf, List.length_drop] at this
    omega
  have hconsumed : text.take (state.1 + units fit) = text.take state.1 ++ textOf fit := by
    rw [List.take_add, ← length_textOf, ← List.prefix_iff_eq_take.mp hpre]
  have hne : p.kept ++ text.take state.1 ≠ [] := List.ne_nil_of_length_pos (by
    rw [List.length_append, htake]; omega)
  obtain ⟨g', hg', htext', hwidth'⟩ := exists_glyphOf hne (by omega : 0 < max 1 state.2) (by omega)
  have hw := g.width_pos
  have hw₂ := g.width_le
  have hcol : p.col < b := by omega
  obtain ⟨stop, hstop⟩ : ∃ stop, stop =
    if fit = rest then cols A + max 1 state.2 + cols fit else l := ⟨_, rfl⟩
  have hstop' : cols A + max 1 state.2 + cols fit ≤ stop ∧ stop ≤ r.columnCount := by
    rw [hstop]
    split_ifs <;> omega
  have hwrite : joinedWrite cwd (A ++ g :: B) b l text =
      { start := cols A, new := g' :: fit, stop } := by
    unfold joinedWrite
    simp only [← hp, ← hstate, ← hrest, hg', hcolp, ← hfit, ← hstop]
    rfl
  have hoff : r.uncheckedCharOffset p.col = units A := hcolp ▸ hr.offset_boundary
  have hfit' : fit = fitting (clampColumn (cols (A ++ g :: B)) columnLimit -
      (p.col + max 1 state.2)) (cwd.clusters (text.drop state.1)) := by
    rw [hl, hcolp, ← hrest, ← hfit]
  have hrep := hr.replaceTextUnicode_of_joins cwd columnBegin columnLimit
    (by rw [hb, hl]; exact hlt) (by rw [hb]; exact hpos) (by rw [hb]; exact hlen')
    (by rw [hb]; exact hp) (by rw [hb]; exact hcol) hstate hfit' rfl
  rw [hrep, hwrite, ← hp, hoff, hcolp, hl, ← hrest, ← hstop]
  refine ⟨_, _, rfl, rfl, rfl, ?_⟩
  have hcolsN : cols (g' :: fit) = max 1 state.2 + cols fit := by rw [cols_cons, hwidth']
  have hseg : leadWords (units A) (g' :: fit) = glyphWords (units A) (max 1 state.2) ++
      leadWords (units A + p.kept.length + state.1) fit := by
    rw [leadWords, htext', hwidth', List.length_append, htake, Nat.add_assoc]
  rcases hcase with hbd | ⟨hg, hbd⟩
  · have hkept : p.kept = g.text := by rw [hp, hbd, prevGlyph_boundary]
    have hr' := hr
    rw [List.append_cons] at hr'
    have hcols : cols (A ++ [g]) = cols A + g.width := by simp
    have hunitsA : units (A ++ [g]) = units A + g.text.length := by simp
    rw [hr'.new_boundary columnLimit (by rw [← List.append_cons, hb, hbd, hcols]) text]
    rw [hkept] at hseg htext'
    simp only [hunitsA, ← hseg]
    refine hr.finishesAs_of_written g.text ?_ (Or.inl rfl)
    exact
      { is_pre := Or.inr ⟨by omega, g, B, rfl, rfl⟩
        chBegDirty := rfl
        chBeg := rfl
        colBegDirty := rfl
        colEnd := by simp only [hcolsN]; omega
        colEnd_le := hstop'.1
        colEndDirty_le := hstop'.2
        leading_le := Nat.zero_le _
        seg_le := by simp only [length_leadWords, hcolsN]; omega
        consumed_le := hunits
        new_text := by
          simp only [textOf_cons, htext', hconsumed, List.replicate_zero, List.append_nil,
            List.append_assoc] }
  · have hkept : p.kept = [space] := by rw [hp, hbd, prevGlyph_cut A B hg]
    rw [hr.new_cut hg columnLimit (by rw [hb, hbd]) text]
    rw [hkept] at hseg htext'
    simp only [List.length_singleton] at hseg
    simp only [← hseg]
    refine hr.finishesAs_of_written [] ?_ (Or.inr ⟨rfl, rfl, g', fit, rfl⟩)
    exact
      { is_pre := Or.inl rfl
        chBegDirty := rfl
        chBeg := rfl
        colBegDirty := rfl
        colEnd := by simp only [hcolsN]; omega
        colEnd_le := hstop'.1
        colEndDirty_le := hstop'.2
        leading_le := by simp only [hcolsN]; omega
        seg_le := by simp only [length_leadWords, hcolsN]; omega
        consumed_le := hunits
        new_text := by
          simp only [textOf_cons, htext', hconsumed, List.replicate_one, List.nil_append,
            List.append_assoc] }

theorem exists_finishesAs_of_joins (hr : r.Represents gs) (cwd : CodepointWidthDetector)
    (columnBegin columnLimit : ℤ)
    (hlt : clampColumn (cols gs) columnBegin < clampColumn (cols gs) columnLimit)
    (hj : joins cwd gs (clampColumn (cols gs) columnBegin) text = true) :
    ∃ written h, (WriteHelper.new r columnBegin columnLimit text).replaceText cwd r =
        (written, h) ∧
      r.FinishesAs written h ((replaceTextWrite cwd gs (clampColumn (cols gs) columnBegin)
        (clampColumn (cols gs) columnLimit) text).apply gs) := by
  have hj' := hj
  simp only [joins, Bool.and_eq_true, Bool.not_eq_true', decide_eq_true_eq] at hj'
  obtain ⟨⟨hascii, hpos⟩, hlen⟩ := hj'
  obtain ⟨written, h, hrep, -, -, hfin⟩ :=
    hr.exists_finishesAs_joined cwd columnBegin columnLimit hlt hpos hlen
  refine ⟨written, h, ?_, by rwa [replaceTextWrite_of_joins hj]⟩
  rw [hr.replaceText_eq_unicode cwd columnBegin columnLimit hlt hascii]
  exact hrep

theorem replaceText (hr : r.Represents gs) (cwd : CodepointWidthDetector) (state : RowWriteState) :
    r.WritesAs ((r.replaceText cwd state).map Prod.fst) (replaceTextCells cwd gs state) := by
  have hvalid := hr.isValid_iff state.columnBegin state.columnLimit state.text
  unfold ROW.replaceText replaceTextCells
  simp only
  by_cases hv : clampColumn (cols gs) state.columnBegin < clampColumn (cols gs) state.columnLimit ∧
      state.text ≠ []
  · obtain ⟨written, h, hrep, hfin⟩ : ∃ written h,
        (WriteHelper.new r state.columnBegin state.columnLimit state.text).replaceText cwd r =
          (written, h) ∧
        r.FinishesAs written h ((replaceTextWrite cwd gs
          (clampColumn (cols gs) state.columnBegin) (clampColumn (cols gs) state.columnLimit)
          state.text).apply gs) := by
      cases hj : joins cwd gs (clampColumn (cols gs) state.columnBegin) state.text with
      | true => exact hr.exists_finishesAs_of_joins cwd _ _ hv.1 hj
      | false =>
        obtain ⟨seg, hrep, hfin⟩ := hr.exists_seg_of_not_joins cwd _ _ hv.2 hv.1 hj rfl
        exact ⟨_, _, hrep, hfin⟩
    rw [if_pos hv]
    rw [← hvalid] at hv
    simp only [hv, Bool.not_true, Bool.false_eq_true, if_false, hrep]
    constructor
    · intro hlt
      obtain ⟨r', hfin', hrep', hrest⟩ := hfin.ok hlt
      exact ⟨r', by rw [hfin']; rfl, hrep', by rw [hrest]⟩
    · intro hlt
      rw [hfin.throws hlt]
      rfl
  · rw [if_neg hv]
    rw [← hvalid, Bool.not_eq_true] at hv
    simp only [hv, Bool.not_false, if_true]
    exact hr.writesAs_self

end ROW.Represents

end IntelligentTerminal.Buffer
