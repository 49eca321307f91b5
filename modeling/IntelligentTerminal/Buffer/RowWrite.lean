import IntelligentTerminal.Buffer.Cells
import IntelligentTerminal.Buffer.RowFinish

/-!
# Writing to a row

A write of glyphs into a row that holds `gs` leaves the line of cells that `CellWrite.apply`
gives, or throws when its text is longer than `UINT16_MAX` (`ROW.FinishesAs`). The words of the
new glyphs are in place when `Finish` is called; behind the last of them a writer may have
stored a word that `Finish` overwrites.

Source: `src/buffer/out/Row.cpp`, lines 552-611.
-/

namespace IntelligentTerminal.Buffer

open Glyph

namespace ROW.Represents

variable {r : ROW} {gs : List (Glyph WChar)}

theorem exists_ceil (hr : r.Represents gs) {e : ℕ} (he : e ≤ r.columnCount) :
    ∃ D C, gs = D ++ C ∧ e ≤ cols D ∧ rightOf space gs e = blanks space (cols D - e) ++ C ∧
      r.adjustForward e = cols D := by
  rw [← hr.count] at he
  obtain ⟨D, C, rfl, hle, hright, rfl | ⟨D', g, rfl, hg, rfl⟩⟩ := IntelligentTerminal.exists_ceil space gs he
  · exact ⟨D, C, rfl, hle, hright, hr.adjustForward_boundary⟩
  · refine ⟨D' ++ [g], C, rfl, hle, hright, ?_⟩
    rw [List.append_assoc, List.singleton_append] at hr
    rw [hr.adjustForward_cut hg, cols_append, cols_cons, cols_nil, hg]

theorem exists_floor (hr : r.Represents gs) {b : ℕ} (hb : b ≤ r.columnCount) :
    ∃ A B, gs = A ++ B ∧ cols A ≤ b ∧ leftOf space gs b = A ++ blanks space (b - cols A) ∧
      (b = cols A ∨ ∃ g B', B = g :: B' ∧ g.width = 2 ∧ b = cols A + 1) ∧
      r.adjustBackward b = cols A ∧ r.uncheckedCharOffset b = units A := by
  rw [← hr.count] at hb
  obtain ⟨A, B, rfl, hle, hleft, hcase⟩ := IntelligentTerminal.exists_floor space gs hb
  refine ⟨A, B, rfl, hle, hleft, hcase, ?_⟩
  rcases hcase with rfl | ⟨g, B', rfl, hg, rfl⟩
  · exact ⟨hr.adjustBackward_boundary, hr.offset_boundary⟩
  · exact ⟨hr.adjustBackward_cut hg, hr.offset_cut hg⟩

end ROW.Represents

/-- What a writer has done to a row that holds `A ++ B` when it calls `Finish`: it has stored
the words `seg` from column `cols A + i` on, for the glyphs `N`. -/
structure WriteHelper.Written (h : WriteHelper) (r : ROW) (A B N : List (Glyph WChar))
    (pre : List WChar) (i : ℕ) (seg : List ℕ) : Prop where
  is_pre : pre = [] ∨ 0 < cols N ∧ ∃ g B', B = g :: B' ∧ pre = g.text
  chBegDirty : h.chBegDirty = units A + pre.length
  chBeg : h.chBeg = h.chBegDirty + h.leadingSpaces
  colBegDirty : h.colBegDirty = cols A
  colEnd : h.colEnd = cols A + cols N
  colEnd_le : h.colEnd ≤ h.colEndDirty
  colEndDirty_le : h.colEndDirty ≤ r.columnCount
  leading_le : h.leadingSpaces ≤ cols N
  seg_le : cols A + i + seg.length ≤ h.colEndDirty
  consumed_le : h.charsConsumed ≤ h.chars.length
  new_text : textOf N =
    pre ++ List.replicate h.leadingSpaces space ++ h.chars.take h.charsConsumed

namespace WriteHelper.Written

variable {h : WriteHelper} {r : ROW} {A B N : List (Glyph WChar)} {pre : List WChar} {i : ℕ}
  {seg : List ℕ}

theorem exists_pending (hw : h.Written r A B N pre i seg) (hr : r.Represents (A ++ B)) :
    ∃ M C, h.Pending { r with charOffsets := r.charOffsets.overwrite (cols A + i) seg } A M C N pre
        ((leadWords (units A) M).overwrite i seg) ∧
      A ++ N ++ blanks space (cols M - cols N) ++ C =
        A ++ N ++ blanks space (h.colEndDirty - h.colEnd) ++
          rightOf space (A ++ B) h.colEndDirty ∧
      r.adjustForward h.colEndDirty = cols A + cols M ∧ h.colEndDirty ≤ cols A + cols M := by
  obtain ⟨D, C, hgs, hle, hright, hadj⟩ := hr.exists_ceil hw.colEndDirty_le
  have hend := hw.colEnd
  have hend' := hw.colEnd_le
  have hseg := hw.seg_le
  obtain ⟨M, rfl, rfl⟩ := exists_append_of_cols_le hgs (by omega)
  rw [cols_append] at hle hadj hright
  have hpre : pre.IsPrefix (textOf M) := by
    rcases hw.is_pre with rfl | ⟨hpos, g, B', hB, rfl⟩
    · exact List.nil_prefix
    · cases M with
      | nil => simp only [cols_nil] at hle; omega
      | cons g' M =>
        obtain rfl : g' = g := (List.cons.inj hB).1
        exact List.prefix_append _ _
  have hwords : r.charOffsets.overwrite (cols A + i) seg =
      leadWords 0 A ++ (leadWords (units A) M).overwrite i seg ++
        wordsOf (units A + units M) C := by
    rw [hr.words_append, wordsOf_append, ← List.append_assoc,
      List.overwrite_inner (by rw [length_leadWords]) (by rw [length_leadWords]; omega)]
  refine ⟨M, C, ?_, ?_, hadj, hle⟩
  · exact
      { words := hwords
        length_words := by rw [List.length_overwrite, length_leadWords]
        text := by rw [List.append_assoc]; exact hr.text
        count := by rw [List.append_assoc]; exact hr.count.symm
        count_lt := hr.count_lt
        lt_old := by rw [List.append_assoc]; exact hr.units_lt
        cap := hr.cap
        is_pre := hpre
        chBegDirty := hw.chBegDirty
        chBeg := hw.chBeg
        colBegDirty := hw.colBegDirty
        colEnd := hend
        cols_le := by omega
        leading_le := hw.leading_le
        colEndDirty := by
          rw [← hadj, ROW.adjustForward, ROW.adjustForward, stepForward, stepForward,
            List.drop_overwrite (by omega)]
        consumed_le := hw.consumed_le
        new_text := hw.new_text }
  · rw [hright, List.append_assoc _ (blanks space (h.colEndDirty - h.colEnd)), ← List.append_assoc
      (blanks space (h.colEndDirty - h.colEnd)), ← blanks_add, ← List.append_assoc]
    congr 3
    omega

theorem finish_spec (hw : h.Written r A B N pre i seg) (hr : r.Represents (A ++ B))
    (hwords : ∀ W : List ℕ, cols N ≤ W.length → i + seg.length ≤ W.length →
      ((W.overwrite i seg).overwrite 0 (iotaN h.leadingSpaces h.chBegDirty)).take (cols N) =
        leadWords (units A) N)
    (hlt : units (A ++ N ++ blanks space (h.colEndDirty - h.colEnd) ++
      rightOf space (A ++ B) h.colEndDirty) < 0x8000) :
    ∃ r', h.finish { r with charOffsets := r.charOffsets.overwrite (cols A + i) seg } =
        some (r', { h with colEndDirty := r.adjustForward h.colEndDirty }) ∧
      r'.Represents (A ++ N ++ blanks space (h.colEndDirty - h.colEnd) ++
        rightOf space (A ++ B) h.colEndDirty) ∧
      r' = { r with
        chars := r'.chars
        charOffsets := r'.charOffsets
        doubleBytePadded :=
          if r.adjustForward h.colEndDirty = r.columnCount then decide (h.colEnd < r.columnCount)
          else r.doubleBytePadded } := by
  obtain ⟨M, C, hp, heq, hadj, hle⟩ := hw.exists_pending hr
  obtain ⟨r', hfin, hrep, hrest⟩ := hp.finish_spec
    (hwords _ (by rw [length_leadWords]; exact hp.cols_le)
      (by rw [length_leadWords]; have := hw.seg_le; omega)) (by rwa [heq])
  rw [heq] at hrep
  refine ⟨r', by rw [hfin, hadj], hrep, ?_⟩
  rw [hadj, hw.colEnd]
  exact hrest

theorem finish_eq_none (hw : h.Written r A B N pre i seg) (hr : r.Represents (A ++ B))
    (hlt : 0xffff < units (A ++ N ++ blanks space (h.colEndDirty - h.colEnd) ++
      rightOf space (A ++ B) h.colEndDirty)) :
    h.finish { r with charOffsets := r.charOffsets.overwrite (cols A + i) seg } = none := by
  obtain ⟨M, C, hp, heq, hadj, hle⟩ := hw.exists_pending hr
  exact hp.finish_eq_none (by rwa [heq])

theorem finish_isTrailer (hw : h.Written r A B N pre i seg) (hr : r.Represents (A ++ B))
    (hlt : 0x8000 ≤ units (A ++ N ++ blanks space (h.colEndDirty - h.colEnd) ++
      rightOf space (A ++ B) h.colEndDirty)) {p : ROW × WriteHelper}
    (hfin : h.finish { r with charOffsets := r.charOffsets.overwrite (cols A + i) seg } = some p) :
    p.1.uncheckedIsTrailer r.columnCount = true := by
  obtain ⟨M, C, hp, heq, hadj, hle⟩ := hw.exists_pending hr
  exact hp.finish_isTrailer (by rwa [heq]) hfin

end WriteHelper.Written

/-! ### A write that starts at the column asked for -/

/-- `Finish` of the helper `h`, on the row `r` with the words written, leaves the glyphs `gs`, or
throws when their text is too long. A text in between sets the flag of the last word. -/
structure ROW.FinishesAs (r written : ROW) (h : WriteHelper) (gs : List (Glyph WChar)) : Prop where
  ok : units gs < 0x8000 → ∃ r',
    h.finish written = some (r', { h with colEndDirty := r.adjustForward h.colEndDirty }) ∧
    r'.Represents gs ∧
    r' = { r with
      chars := r'.chars
      charOffsets := r'.charOffsets
      doubleBytePadded :=
        if r.adjustForward h.colEndDirty = r.columnCount then decide (h.colEnd < r.columnCount)
        else r.doubleBytePadded }
  throws : 0xffff < units gs → h.finish written = none
  overflows : 0x8000 ≤ units gs → ∀ p, h.finish written = some p →
    p.1.uncheckedIsTrailer r.columnCount = true

namespace ROW.Represents

variable {r : ROW} {gs : List (Glyph WChar)}

theorem clampedColumnInclusive_eq (hr : r.Represents gs) (v : ℤ) :
    r.clampedColumnInclusive v = clampColumn (cols gs) v := by
  rw [hr.count]
  rfl

theorem new_eq (hr : r.Represents gs) (columnBegin columnLimit : ℤ) (chars : List WChar) :
    ∃ A B, gs = A ++ B ∧ cols A ≤ clampColumn (cols gs) columnBegin ∧
      leftOf space gs (clampColumn (cols gs) columnBegin) =
        A ++ blanks space (clampColumn (cols gs) columnBegin - cols A) ∧
      (clampColumn (cols gs) columnBegin = cols A ∨ ∃ g B', B = g :: B' ∧ g.width = 2 ∧
        clampColumn (cols gs) columnBegin = cols A + 1) ∧
      WriteHelper.new r columnBegin columnLimit chars =
        { chars
          colBeg := clampColumn (cols gs) columnBegin
          colLimit := clampColumn (cols gs) columnLimit
          colEnd := clampColumn (cols gs) columnBegin
          colBegDirty := cols A
          chBeg := units A + (clampColumn (cols gs) columnBegin - cols A)
          chBegDirty := units A
          leadingSpaces := clampColumn (cols gs) columnBegin - cols A } := by
  have hb : clampColumn (cols gs) columnBegin ≤ r.columnCount := hr.count ▸ clampColumn_le _ _
  obtain ⟨A, B, rfl, hle, hleft, hcase, hadj, hoff⟩ := hr.exists_floor hb
  refine ⟨A, B, rfl, hle, hleft, hcase, ?_⟩
  have hlt := hr.units_add_lt
  have hsmall : clampColumn (cols (A ++ B)) columnBegin - cols A ≤ 1 := by
    rcases hcase with h | ⟨_, _, _, _, h⟩ <;> omega
  simp only [WriteHelper.new, hr.clampedColumnInclusive_eq, hadj, hoff]
  rw [narrow16_add (by omega)]

private theorem overwrite_words {A new : List (Glyph WChar)} {L : ℕ} {seg W : List ℕ}
    (hseg : seg.take (cols new) = leadWords (units A + L) new) (hW : L + seg.length ≤ W.length) :
    ((W.overwrite L seg).overwrite 0 (iotaN L (units A))).take (cols (blanks space L ++ new)) =
      leadWords (units A) (blanks space L ++ new) := by
  have hlen : cols new ≤ seg.length := by
    have := congrArg List.length hseg
    rw [List.length_take, length_leadWords] at this
    omega
  have htake : (W.take L).length = L := by
    rw [List.length_take]
    omega
  rw [List.overwrite_eq _ _ _ hW, List.append_assoc, List.overwrite_zero (by
    rw [length_iotaN, List.length_append]; omega), length_iotaN, List.drop_left' htake, cols_append,
    cols_blanks, List.take_append, List.take_of_length_le (by rw [length_iotaN]; omega),
    length_iotaN, Nat.add_sub_cancel_left, List.take_append_of_le_length hlen, hseg,
    leadWords_append, leadWords_blanks, units_blanks]

theorem finishesAs_apply (hr : r.Represents gs) (columnBegin columnLimit : ℤ) (chars : List WChar)
    {w : CellWrite} {k : ℕ} {seg : List ℕ} (hstart : w.start = clampColumn (cols gs) columnBegin)
    (hk : k ≤ chars.length) (htext : textOf w.new = chars.take k)
    (hstop : w.start + cols w.new ≤ w.stop) (hcount : w.stop ≤ r.columnCount)
    (hseg : units (w.apply gs) < 0x8000 → seg.take (cols w.new) =
      leadWords (WriteHelper.new r columnBegin columnLimit chars).chBeg w.new)
    (hlen : w.start + seg.length ≤ w.stop) :
    r.FinishesAs { r with charOffsets := r.charOffsets.overwrite w.start seg }
      { WriteHelper.new r columnBegin columnLimit chars with
        colEnd := w.start + cols w.new, colEndDirty := w.stop, charsConsumed := k }
      (w.apply gs) := by
  obtain ⟨A, B, rfl, hle, hleft, -, hnew⟩ := hr.new_eq columnBegin columnLimit chars
  rw [← hstart] at hnew hleft hle
  rw [hnew] at hseg ⊢
  have happly : A ++ (blanks space (w.start - cols A) ++ w.new) ++
      blanks space (w.stop - (w.start + cols w.new)) ++ rightOf space (A ++ B) w.stop =
      w.apply (A ++ B) := by
    rw [CellWrite.apply, splice, hleft]
    simp only [List.append_assoc]
  have hat : cols A + (w.start - cols A) = w.start := by omega
  have hw : WriteHelper.Written
      { chars, colBeg := w.start, colLimit := clampColumn (cols (A ++ B)) columnLimit
        colBegDirty := cols A, chBeg := units A + (w.start - cols A), chBegDirty := units A
        leadingSpaces := w.start - cols A, colEnd := w.start + cols w.new, colEndDirty := w.stop
        charsConsumed := k }
      r A B (blanks space (w.start - cols A) ++ w.new) [] (w.start - cols A) seg :=
    { is_pre := Or.inl rfl
      chBegDirty := rfl
      chBeg := rfl
      colBegDirty := rfl
      colEnd := by simp only [cols_append, cols_blanks]; omega
      colEnd_le := hstop
      colEndDirty_le := hcount
      leading_le := by simp only [cols_append, cols_blanks]; omega
      seg_le := by simp only; omega
      consumed_le := hk
      new_text := by simp only [textOf_append, textOf_blanks, htext, List.nil_append] }
  constructor
  · intro hlt
    obtain ⟨r', hfin, hrep, hrest⟩ := hw.finish_spec hr
      (fun W _ hW => overwrite_words (hseg hlt) hW) (by rw [happly]; exact hlt)
    rw [happly] at hrep
    rw [hat] at hfin
    exact ⟨r', hfin, hrep, hrest⟩
  · intro hlt
    have := hw.finish_eq_none hr (by rw [happly]; exact hlt)
    rwa [hat] at this
  · intro hlt p hfin
    exact hw.finish_isTrailer hr (by rw [happly]; exact hlt) (by rw [hat]; exact hfin)

end ROW.Represents

/-! ### ReplaceCharacters -/

/-- A writer called on `r` leaves the glyphs `gs`, or throws when their text is too long. -/
structure ROW.WritesAs (r : ROW) (out : Except ROW ROW) (gs : List (Glyph WChar)) : Prop where
  ok : units gs < 0x8000 → ∃ r', out = .ok r' ∧ r'.Represents gs ∧
    r' = { r with
      chars := r'.chars, charOffsets := r'.charOffsets, doubleBytePadded := r'.doubleBytePadded }
  throws : 0xffff < units gs → out = .error r.thrown

variable {gs : List (Glyph WChar)} {r : ROW} {width : ℕ}

theorem ROW.Represents.writesAs_self (hr : r.Represents gs) :
    r.WritesAs (.ok r) gs :=
  ⟨fun _ => ⟨r, rfl, hr, rfl⟩, fun hlt => absurd hlt (by have := hr.units_lt; omega)⟩

theorem ROW.Represents.isValid_iff (hr : r.Represents gs)
    (columnBegin columnLimit : ℤ) (chars : List WChar) :
    (WriteHelper.new r columnBegin columnLimit chars).isValid = true ↔
      clampColumn (cols gs) columnBegin < clampColumn (cols gs) columnLimit ∧ chars ≠ [] := by
  simp only [WriteHelper.isValid, WriteHelper.new, hr.clampedColumnInclusive_eq, Bool.and_eq_true,
    decide_eq_true_eq, Bool.not_eq_true', List.isEmpty_eq_false_iff, ne_eq]

theorem replaceCharactersWrite_spec {b width : ℕ} {chars : List WChar}
    (hb : b ≤ cols gs) (hw : width = 1 ∨ width = 2) (hchars : chars ≠ []) :
    (replaceCharactersWrite gs b width chars).start = b ∧
      b + cols (replaceCharactersWrite gs b width chars).new ≤
        (replaceCharactersWrite gs b width chars).stop ∧
      (replaceCharactersWrite gs b width chars).stop ≤ cols gs := by
  obtain ⟨g, hg, -, hwidth⟩ := exists_glyphOf hchars (by omega : 0 < width) (by omega)
  unfold replaceCharactersWrite
  split_ifs with hfit
  · refine ⟨rfl, ?_, hfit⟩
    rw [hg, cols_cons, cols_nil, hwidth, Nat.add_zero]
  · exact ⟨rfl, hb, le_rfl⟩

theorem WriteHelper.replaceCharacters_eq {h : WriteHelper} (r : ROW) (gs : List (Glyph WChar))
    (hcount : cols gs < 0x8000) (hb : h.colEnd ≤ cols gs) (hl : h.colLimit = cols gs)
    (hw : width = 1 ∨ width = 2) (hchars : h.chars ≠ []) (hcons : h.charsConsumed = 0) :
    ∃ k ≤ h.chars.length, ∃ w, w = replaceCharactersWrite gs h.colEnd width h.chars ∧
      h.replaceCharacters r width =
        ({ r with charOffsets := r.charOffsets.overwrite h.colEnd (leadWords h.chBeg w.new) },
          { h with colEnd := h.colEnd + cols w.new, colEndDirty := w.stop, charsConsumed := k }) ∧
      textOf w.new = h.chars.take k := by
  have hnarrow : narrow16 (h.colEnd + width) = h.colEnd + width := narrow16_add (by omega)
  obtain ⟨g, hg, htext, hwidth⟩ := exists_glyphOf hchars (by omega : 0 < width) (by omega)
  unfold replaceCharacters replaceCharactersWrite glyphEnd
  simp only [hnarrow, hl]
  by_cases hfit : h.colEnd + width ≤ cols gs
  · have hmax : max (h.colEnd + 1) (h.colEnd + width) = h.colEnd + width := by omega
    rw [if_neg (show ¬h.colEnd + width > cols gs by omega), if_pos hfit, hmax,
      Nat.add_sub_cancel_left, hg]
    refine ⟨h.chars.length, le_rfl, _, rfl, ?_, ?_⟩
    · simp only [cols_cons, cols_nil, hwidth, Nat.add_zero, leadWords, List.append_nil]
    · simp only [textOf_cons, textOf_nil, List.append_nil, htext, List.take_length]
  · rw [if_pos (show h.colEnd + width > cols gs by omega), if_neg hfit]
    exact ⟨0, Nat.zero_le _, _, rfl, by simp only [hcons]; rfl, rfl⟩

theorem ROW.Represents.replaceCharacters
    (hr : r.Represents gs) (columnBegin : ℤ) (hw : width = 1 ∨ width = 2)
    (chars : List WChar) :
    r.WritesAs (r.replaceCharacters columnBegin width chars)
      (replaceCharactersCells gs columnBegin width chars) := by
  have hcols := hr.cols_le
  have hvalid := hr.isValid_iff columnBegin r.columnCount chars
  rw [← hr.count, clampColumn_natCast le_rfl] at hvalid
  unfold ROW.replaceCharacters replaceCharactersCells
  rw [← hr.count]
  by_cases hv : clampColumn (cols gs) columnBegin < cols gs ∧ chars ≠ []
  · rw [if_pos hv]
    have hb := hr.clampedColumnInclusive_eq columnBegin
    obtain ⟨k, hk, w, hwrite, heq, htext⟩ := WriteHelper.replaceCharacters_eq
      (h := WriteHelper.new r columnBegin (cols gs) chars) r gs (by omega)
      (by simp only [WriteHelper.new, hb]; omega)
      (by simp only [WriteHelper.new, hr.clampedColumnInclusive_eq, clampColumn_natCast le_rfl])
      hw hv.2 rfl
    obtain ⟨hstart, hstop, hle⟩ := replaceCharactersWrite_spec hv.1.le hw hv.2
    have hend : (WriteHelper.new r columnBegin (cols gs) chars).colEnd =
        clampColumn (cols gs) columnBegin := hb
    have hchars : (WriteHelper.new r columnBegin (cols gs) chars).chars = chars := rfl
    rw [hend] at heq hwrite
    rw [hchars] at hwrite
    rw [← hwrite] at hstart hstop hle ⊢
    have hfin := hr.finishesAs_apply columnBegin (cols gs) chars hstart hk htext (by omega)
      (by rw [← hr.count]; exact hle)
      (fun _ => List.take_of_length_le (by rw [length_leadWords]))
      (by rw [length_leadWords, hstart]; exact hstop)
    rw [hstart] at hfin
    rw [← hvalid] at hv
    simp only [hv, Bool.not_true, Bool.false_eq_true, if_false, heq]
    constructor
    · intro hlt
      obtain ⟨r', hfin', hrep, hrest⟩ := hfin.ok hlt
      exact ⟨r', by rw [hfin'], hrep, by rw [hrest]⟩
    · intro hlt
      rw [hfin.throws hlt]
  · rw [if_neg hv]
    rw [← hvalid, Bool.not_eq_true] at hv
    simp only [hv, Bool.not_false, if_true]
    exact hr.writesAs_self

end IntelligentTerminal.Buffer
