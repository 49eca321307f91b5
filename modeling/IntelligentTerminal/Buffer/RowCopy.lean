import IntelligentTerminal.Buffer.RowWrite

/-!
# Copying text between rows

`ROW::CopyTextFrom` takes the words of the source range, shifts them to the offset of the target
column and leaves the rest to `Finish`. On a target that holds `gs` and a source that holds `src`
it is the write `copyTextWrite`: the glyphs of the source range that fit, and blanks where the
range ends inside of a glyph.

Source: `src/buffer/out/Row.cpp`, lines 765-861.
-/

namespace IntelligentTerminal.Buffer

open Glyph

/-! ### The words of the source -/

variable {gs : List (Glyph WChar)} {offset o o' : ℕ} {words : List ℕ}

theorem copyOffset_eq (hadd : narrow16 (o + offset) = o') (ho : o < 0x8000) :
    WriteHelper.copyOffset offset o = o' := by
  rw [WriteHelper.copyOffset, offsetOf_of_lt ho, hadd]
  have h : o &&& charOffsetsTrailer = 0 := by
    have := isTrailer_of_lt ho
    simpa [isTrailer] using this
  rw [h, Nat.or_zero]

theorem copyOffset_trailer (hadd : narrow16 (o + offset) = o')
    (ho : o < 0x8000) :
    WriteHelper.copyOffset offset (o ||| charOffsetsTrailer) = o' ||| charOffsetsTrailer := by
  rw [WriteHelper.copyOffset, offsetOf_or_trailer ho, hadd, Nat.and_or_distrib_right, Nat.and_self]
  have h : o &&& charOffsetsTrailer = 0 := by
    have := isTrailer_of_lt ho
    simpa [isTrailer] using this
  rw [h, Nat.zero_or]

theorem map_copyOffset_leadWords
    (hadd : narrow16 (o + offset) = o') (ho : o + units gs < 0x8000)
    (ho' : o' + units gs < 0x8000) :
    (leadWords o gs).map (WriteHelper.copyOffset offset) = leadWords o' gs := by
  induction gs generalizing o o' with
  | nil => rfl
  | cons g gs ih =>
    rw [units_cons] at ho ho'
    have hrest : narrow16 ((o + g.text.length : ℕ) + offset) = o' + g.text.length := by
      unfold narrow16 at hadd ⊢
      omega
    rw [leadWords, leadWords, List.map_append, ih hrest (by omega) (by omega),
      glyphWords_eq (by omega), glyphWords_eq (by omega), List.map_cons, List.map_replicate,
      copyOffset_eq hadd (by omega), copyOffset_trailer hadd (by omega)]

theorem wordsOf_at {o m : ℕ} (hm : m ≤ cols gs)
    (h : o + units gs < 0x8000) :
    offsetOf ((wordsOf o gs).getD m 0) = o + units (fitting m gs) ∧
      stepBackward (wordsOf o gs) m = cols (fitting m gs) ∧
      (wordsOf o gs).take (cols (fitting m gs)) = leadWords o (fitting m gs) ∧
      (wordsOf o gs).getD (cols (fitting m gs)) 0 = o + units (fitting m gs) := by
  obtain ⟨B, hgs, hcase⟩ := exists_fitting_append hm
  generalize fitting m gs = N at *
  subst hgs
  rw [units_append] at h
  have hN := length_leadWords o N
  rw [wordsOf_append]
  obtain ⟨rest, hrest⟩ := head_wordsOf (show o + units N + units B < 0x8000 by omega)
  refine ⟨?_, ?_, List.take_left' hN, ?_⟩
  · rcases hcase with rfl | ⟨g, B', rfl, hg, rfl⟩
    · rw [List.getD_append_right _ _ _ _ hN.le, hN, Nat.sub_self, hrest, List.getD_cons_zero,
        offsetOf_of_lt (by omega)]
    · rw [List.getD_append_right _ _ _ _ (by omega), hN, Nat.add_sub_cancel_left, wordsOf_cons,
        glyphWords_eq (by omega), hg]
      exact offsetOf_or_trailer (by omega)
  · rcases hcase with rfl | ⟨g, B', rfl, hg, rfl⟩
    · rw [hrest]
      exact stepBackward_boundary hN (by omega)
    · rw [wordsOf_cons, glyphWords_eq (by omega), hg]
      exact stepBackward_cut hN (by omega) (by omega)
  · rw [List.getD_append_right _ _ _ _ hN.le, hN, Nat.sub_self, hrest, List.getD_cons_zero]

theorem slice_at {o k m : ℕ} (hk : k ≤ cols gs) (hm : m ≤ k)
    (h : o + units gs < 0x8000) (hwords : words = (wordsOf o gs).take (k + 1)) :
    stepBackward words m = cols (fitting m gs) ∧
      words.take (cols (fitting m gs)) = leadWords o (fitting m gs) ∧
      words.getD (cols (fitting m gs)) 0 = o + units (fitting m gs) := by
  obtain ⟨-, hback, htake, hget⟩ := wordsOf_at (hm.trans hk) h
  have hle := cols_fitting_le m gs
  subst hwords
  refine ⟨?_, ?_, ?_⟩
  · rw [stepBackward, List.take_take, Nat.min_eq_left (by omega)]
    exact hback
  · rw [List.take_take, Nat.min_eq_left (by omega), htake]
  · rw [List.getD_eq_getElem?_getD, List.getElem?_take_of_lt (by omega),
      ← List.getD_eq_getElem?_getD, hget]

theorem ROW.Represents.source_range {source : ROW} {S T : List (Glyph WChar)}
    (hs : source.Represents (S ++ T)) {k : ℕ} (hk : k ≤ cols T)
    (hwords : words = (source.charOffsets.drop (cols S)).take (k + 1)) :
    words = (wordsOf (units S) T).take (k + 1) ∧ words.length = k + 1 ∧
      words.headD 0 = units S ∧ offsetOf (words.getLastD 0) = units S + units (fitting k T) ∧
      (source.chars.drop (units S)).take (units (fitting k T)) = textOf (fitting k T) := by
  have hlt := hs.units_add_lt
  rw [hs.words_append, List.drop_left' (length_leadWords 0 S)] at hwords
  have hlen : words.length = k + 1 := by
    rw [hwords, List.length_take, length_wordsOf]
    omega
  obtain ⟨rest, hrest⟩ := head_wordsOf hlt
  refine ⟨hwords, hlen, ?_, ?_, ?_⟩
  · rw [hwords, hrest]
    rfl
  · have hlast : words.getLastD 0 = (wordsOf (units S) T).getD k 0 := by
      rw [List.getLastD_eq_getLast?, List.getLast?_eq_getElem?, hlen, Nat.add_sub_cancel, hwords,
        List.getElem?_take_of_lt (Nat.lt_succ_self k), List.getD_eq_getElem?_getD]
    rw [hlast, (wordsOf_at hk hlt).1]
  · obtain ⟨B, hT, -⟩ := exists_fitting_append hk
    rw [hT, ← List.append_assoc] at hs
    exact hs.take_drop_chars

/-! ### CopyTextFrom -/

theorem WriteHelper.copyTextFrom_eq {h : WriteHelper} {r : ROW} {T : List (Glyph WChar)}
    {o k : ℕ} (hend : h.colEnd = h.colBeg) (hlt : h.colBeg < h.colLimit)
    (hl : h.colLimit < 0x8000) (hk : k ≤ cols T) (ho : o + units T < 0x8000)
    (hwords : words = (wordsOf o T).take (k + 1)) (hlen : words.length = k + 1)
    (hhead : words.headD 0 = o) {w : CellWrite} (hw : w = copyTextWrite h.colBeg h.colLimit k T) :
    ∃ seg, h.copyTextFrom r words =
        ({ r with charOffsets := r.charOffsets.overwrite w.start seg },
          { h with
            colEnd := w.start + cols w.new, colEndDirty := w.stop, charsConsumed := units w.new }) ∧
      (h.chBeg + units w.new < 0x8000 → seg = leadWords h.chBeg w.new) ∧
      seg.length = cols w.new ∧ w.start = h.colBeg ∧ w.start + cols w.new ≤ w.stop ∧
      w.stop ≤ h.colLimit := by
  obtain ⟨m, hm⟩ : ∃ m, m = min (h.colLimit - h.colBeg) k := ⟨_, rfl⟩
  have hw' : w = { start := h.colBeg, new := fitting m T, stop := h.colBeg + m } := by
    rw [hw, copyTextWrite, hm]
  have hnarrow : narrow16 ((h.colLimit : ℤ) - h.colBeg) = h.colLimit - h.colBeg := by
    unfold narrow16
    omega
  have hm' : min (narrow16 ((h.colLimit : ℤ) - h.colBeg)) (words.length - 1) = m := by
    rw [hnarrow, hlen, Nat.add_sub_cancel, hm]
  obtain ⟨hback, htake, hget⟩ := slice_at hk (by omega : m ≤ k) ho hwords
  have hget0 : words.getD 0 0 = o := by
    rw [← hhead]
    cases words <;> rfl
  have hcols := cols_fitting_le m T
  subst hw'
  unfold copyTextFrom
  simp only [hm', hback, hget, hget0, htake, hend, Nat.add_sub_cancel_left]
  rw [narrow16_add (by omega)]
  refine ⟨_, rfl, ?_, by rw [List.length_map, length_leadWords], trivial, by omega,
    by omega⟩
  intro hchlt
  obtain ⟨B, hT, -⟩ := exists_fitting_append (by omega : m ≤ cols T)
  have hunits : units (fitting m T) ≤ units T := by
    conv_rhs => rw [hT]
    rw [units_append]
    omega
  refine map_copyOffset_leadWords ?_ (by omega) hchlt
  unfold narrow16
  omega

namespace ROW.Represents

variable {r source : ROW} {gs : List (Glyph WChar)} {src : List (Glyph WChar)} {w : CellWrite}

theorem chBeg_add_le (hr : r.Represents gs) (columnBegin columnLimit : ℤ) (chars : List WChar)
    (hstart : w.start = clampColumn (cols gs) columnBegin) :
    (WriteHelper.new r columnBegin columnLimit chars).chBeg + units w.new ≤ units (w.apply gs) := by
  obtain ⟨A, B, rfl, -, hleft, -, hnew⟩ := hr.new_eq columnBegin columnLimit chars
  rw [hnew, CellWrite.apply, splice, hstart, hleft]
  simp only [units_append, units_blanks]
  omega

theorem copyTextFrom_spec (hr : r.Represents gs) {S T : List (Glyph WChar)}
    (hs : source.Represents (S ++ T)) (state : RowCopyTextFromState) {b l sl : ℕ}
    (hb : b = clampColumn (cols gs) state.columnBegin)
    (hl : l = clampColumn (cols gs) state.columnLimit)
    (hsb : clampColumn (cols (S ++ T)) state.sourceColumnBegin = cols S)
    (hsl : sl = clampColumn (cols (S ++ T)) state.sourceColumnLimit)
    (hlt : b < l) (hne : fitting (sl - cols S) T ≠ [])
    (hw : w = copyTextWrite b l (sl - cols S) T) :
    (units (w.apply gs) < 0x8000 → ∃ r',
      r.copyTextFrom source false state = .ok (r', { state with
        columnEnd := if units w.new = units (fitting (sl - cols S) T) then b + cols w.new else l
        columnBeginDirty := r.adjustBackward b
        columnEndDirty := r.adjustForward w.stop
        sourceColumnEnd := cols S + cols w.new }) ∧
      r'.Represents (w.apply gs) ∧
      r' = { r with
        chars := r'.chars
        charOffsets := r'.charOffsets
        doubleBytePadded :=
          if r.adjustForward w.stop = r.columnCount then decide (b + cols w.new < r.columnCount)
          else r.doubleBytePadded }) ∧
    (0xffff < units (w.apply gs) → r.copyTextFrom source false state = .error r.thrown) ∧
    (0x8000 ≤ units (w.apply gs) → ∀ p, r.copyTextFrom source false state = .ok p →
      p.1.uncheckedIsTrailer r.columnCount = true) := by
  obtain ⟨k, hk⟩ : ∃ k, k = sl - cols S := ⟨_, rfl⟩
  rw [← hk] at hne hw ⊢
  have hkpos : cols S < sl := by
    by_contra h
    rw [show k = 0 by omega, fitting_zero] at hne
    exact hne rfl
  have hkT : k ≤ cols T := by
    have := clampColumn_le (cols (S ++ T)) state.sourceColumnLimit
    rw [← hsl, cols_append] at this
    omega
  have hcl := clampColumn_le (cols gs) state.columnLimit
  rw [← hl] at hcl
  have hcols := hr.cols_le
  have hlt' := hs.units_add_lt
  obtain ⟨words, hwords⟩ : ∃ words, words = (source.charOffsets.drop (cols S)).take (k + 1) :=
    ⟨_, rfl⟩
  obtain ⟨hslice, hlen, hhead, hlast, hchars⟩ := hs.source_range hkT hwords
  have hvalid : (WriteHelper.new r state.columnBegin state.columnLimit
      (textOf (fitting k T))).isValid = true := by
    rw [hr.isValid_iff, ← hb, ← hl]
    exact ⟨hlt, textOf_ne_nil hne⟩
  have hbeg : (WriteHelper.new r state.columnBegin state.columnLimit
      (textOf (fitting k T))).colBeg = b := hb ▸ hr.clampedColumnInclusive_eq state.columnBegin
  have hlim : (WriteHelper.new r state.columnBegin state.columnLimit
      (textOf (fitting k T))).colLimit = l := hl ▸ hr.clampedColumnInclusive_eq state.columnLimit
  have hdirty : (WriteHelper.new r state.columnBegin state.columnLimit
      (textOf (fitting k T))).colBegDirty = r.adjustBackward b := hbeg ▸ rfl
  obtain ⟨seg, hcopy, hseg, hseglen, hstart, hstop, hstop'⟩ :=
    WriteHelper.copyTextFrom_eq (r := r) (h := WriteHelper.new r state.columnBegin
      state.columnLimit (textOf (fitting k T))) rfl (by rw [hbeg, hlim]; exact hlt)
      (by rw [hlim]; omega) hkT hlt' hslice hlen hhead (w := w) (by rw [hbeg, hlim]; exact hw)
  rw [hbeg] at hstart
  rw [hlim] at hstop'
  have hpre : (textOf w.new).IsPrefix (textOf (fitting k T)) := by
    rw [hw]
    exact textOf_isPrefix (fitting_isPrefix_fitting (Nat.min_le_right _ _) T)
  have hseg' : units (w.apply gs) < 0x8000 → seg.take (cols w.new) = leadWords
      (WriteHelper.new r state.columnBegin state.columnLimit (textOf (fitting k T))).chBeg
        w.new := by
    intro hlt
    have := hr.chBeg_add_le state.columnBegin state.columnLimit (textOf (fitting k T))
      (hstart.trans hb)
    rw [hseg (by omega), List.take_of_length_le (by rw [length_leadWords])]
  have hconsumed : units w.new ≤ (textOf (fitting k T)).length := hpre.length_le
  have htext : textOf w.new = (textOf (fitting k T)).take (units w.new) :=
    List.prefix_iff_eq_take.mp hpre
  have hfin := hr.finishesAs_apply state.columnBegin state.columnLimit (textOf (fitting k T))
    (hstart.trans hb) hconsumed htext hstop
    (by rw [← hr.count]; omega) hseg' (by omega)
  unfold ROW.copyTextFrom
  simp only [hs.clampedColumnInclusive_eq, hsb, ← hsl, hkpos, if_true, ← hk, ← hwords, hhead,
    offsetOf_of_lt (by omega : units S < 0x8000), hlast, Nat.add_sub_cancel_left, hchars, hvalid,
    Bool.not_true, Bool.or_false, Bool.false_or, hlen, isTrailer_of_lt (by omega : units S < 0x8000),
    decide_eq_true_eq, hcopy]
  rw [if_neg (by omega)]
  refine ⟨?_, ?_, ?_⟩
  · intro hlt
    obtain ⟨r', hfin', hrep, hrest⟩ := hfin.ok hlt
    refine ⟨r', ?_, hrep, by rw [← hstart]; exact hrest⟩
    have hsrc : cols S + (b + cols w.new) - b = cols S + cols w.new := by omega
    rw [hfin']
    simp only [length_textOf, hbeg, hlim, hdirty, hstart, hsrc]
  · intro hlt
    rw [hfin.throws hlt]
  · intro hlt p hp
    generalize hout : WriteHelper.finish _ _ = out at hp
    cases out with
    | none => cases hp
    | some q =>
      rw [← Except.ok.inj hp]
      exact hfin.overflows hlt q hout

theorem copyTextFrom_of_not (hr : r.Represents gs)
    (hs : source.Represents src) (isSelf : Bool) (state : RowCopyTextFromState) {b l sb sl : ℕ}
    (hb : b = clampColumn (cols gs) state.columnBegin)
    (hl : l = clampColumn (cols gs) state.columnLimit)
    (hsb : sb = clampColumn (cols src) state.sourceColumnBegin)
    (hsl : sl = clampColumn (cols src) state.sourceColumnLimit)
    (hnot : ¬(b < l ∧ fitting (sl - sb) (src.drop (fitting sb src).length) ≠ [] ∧
      isSelf = false ∧ cols (fitting sb src) = sb)) :
    r.copyTextFrom source isSelf state = .ok (r, { state with
      columnEnd := b, columnBeginDirty := b, columnEndDirty := b
      sourceColumnEnd := source.columnCount }) := by
  unfold ROW.copyTextFrom
  simp only [hs.clampedColumnInclusive_eq, ← hsb, ← hsl]
  generalize hwords : (if sb < sl then (source.charOffsets.drop sb).take (sl - sb + 1) else []) =
    words
  generalize hchars : (source.chars.drop (offsetOf (words.headD 0))).take
    (offsetOf (words.getLastD 0) - offsetOf (words.headD 0)) = chars
  have hbeg : (WriteHelper.new r state.columnBegin state.columnLimit chars).colBeg = b :=
    hb ▸ hr.clampedColumnInclusive_eq state.columnBegin
  suffices hcond : (!(WriteHelper.new r state.columnBegin state.columnLimit chars).isValid ||
      isSelf || decide (words.length < 2) || isTrailer (words.headD 0)) = true by
    rw [if_pos hcond, hbeg]
  have hvalid := hr.isValid_iff state.columnBegin state.columnLimit chars
  rw [← hb, ← hl] at hvalid
  simp only [Bool.or_eq_true, Bool.not_eq_true', decide_eq_true_eq]
  by_contra hcon
  simp only [not_or, Bool.not_eq_true, Bool.not_eq_false, not_lt] at hcon
  obtain ⟨⟨⟨hval, hself⟩, hlen⟩, htrail⟩ := hcon
  obtain ⟨hlt, hne⟩ := hvalid.mp hval
  have hsblt : sb < sl := by
    by_contra h
    rw [if_neg h] at hwords
    rw [← hwords] at hlen
    exact absurd hlen (by decide)
  rw [if_pos hsblt] at hwords
  have hsle : sl ≤ cols src := hsl ▸ clampColumn_le _ _
  obtain ⟨B, hsrc, hcase⟩ := exists_fitting_append (by omega : sb ≤ cols src)
  have hhead : words.headD 0 = source.word sb := by
    rw [← hwords, List.headD_eq_head?_getD, List.head?_take, if_neg (Nat.succ_ne_zero _),
      List.head?_drop, ROW.word, List.getD_eq_getElem?_getD]
  have hcols : sb = cols (fitting sb src) := by
    rcases hcase with hcols | ⟨g, B', rfl, hg, hcols⟩
    · exact hcols
    · -- the range would start with a trailing half
      rw [hsrc] at hs
      have hlt' := hs.units_cut_lt
      rw [hhead, hcols, hs.word_cut hg, isTrailer_or_trailer (by omega)] at htrail
      exact absurd htrail (by decide)
  refine hnot ⟨hlt, fun hfit => hne ?_, hself, hcols.symm⟩
  -- there would be no text to copy
  have hdrop : (fitting sb src ++ B).drop (fitting sb src).length = B := List.drop_left
  rw [← hsrc] at hdrop
  rw [hdrop] at hfit
  have hkB : sl - sb ≤ cols B := by
    have := congrArg cols hsrc
    rw [cols_append] at this
    omega
  rw [hsrc] at hs
  have hlt' := hs.units_add_lt
  have hwords' : words = (source.charOffsets.drop (cols (fitting sb src))).take (sl - sb + 1) := by
    rw [← hcols, hwords]
  obtain ⟨-, -, hhead', hlast, -⟩ := hs.source_range hkB hwords'
  rw [← hchars, hhead', hlast, offsetOf_of_lt (show units (fitting sb src) < 0x8000 by omega),
    hfit, units_nil, Nat.add_zero, Nat.sub_self, List.take_zero]

theorem copyTextFrom (hr : r.Represents gs)
    (hs : source.Represents src) (isSelf : Bool) (state : RowCopyTextFromState) :
    r.WritesAs ((r.copyTextFrom source isSelf state).map Prod.fst)
      (copyTextCells gs src isSelf state) := by
  unfold copyTextCells
  simp only
  by_cases hv : clampColumn (cols gs) state.columnBegin < clampColumn (cols gs) state.columnLimit ∧
      fitting (clampColumn (cols src) state.sourceColumnLimit -
        clampColumn (cols src) state.sourceColumnBegin)
        (src.drop (fitting (clampColumn (cols src) state.sourceColumnBegin) src).length) ≠ [] ∧
      isSelf = false ∧
      cols (fitting (clampColumn (cols src) state.sourceColumnBegin) src) =
        clampColumn (cols src) state.sourceColumnBegin
  · rw [if_pos hv]
    obtain ⟨hlt, hne, rfl, hcols⟩ := hv
    generalize hS : fitting (clampColumn (cols src) state.sourceColumnBegin) src = S at *
    generalize hT : src.drop S.length = T at *
    have hsrc : S ++ T = src := by
      obtain ⟨T', hT'⟩ := hS ▸ fitting_isPrefix (clampColumn (cols src) state.sourceColumnBegin) src
      rw [← hT, ← hT', List.drop_left]
    subst hsrc
    rw [← hcols] at hne ⊢
    obtain ⟨hok, hthrows, -⟩ := hr.copyTextFrom_spec hs state rfl rfl hcols.symm rfl hlt hne rfl
    constructor
    · intro hlt'
      obtain ⟨r', heq, hrep, hrest⟩ := hok hlt'
      exact ⟨r', by rw [heq]; rfl, hrep, by rw [hrest]⟩
    · intro hlt'
      rw [hthrows hlt']
      rfl
  · rw [if_neg hv, hr.copyTextFrom_of_not hs isSelf state rfl rfl rfl rfl hv]
    exact hr.writesAs_self

end ROW.Represents

end IntelligentTerminal.Buffer
