import IntelligentTerminal.Buffer.RowCopy
import IntelligentTerminal.Buffer.RowText

/-!
# The representation invariant of a row

`ROW.WellFormed` is what the queries of a row rely on: the words start with zero and are not
flagged at the end, the offsets never decrease, and a column is flagged exactly when its offset
is that of the column before it. A row that represents a sequence of glyphs is well formed
(`ROW.Represents.wellFormed`), and each call leaves such a row as long as the text it makes has
fewer than `0x8000` units, or more than `UINT16_MAX`, in which case the call throws and resets
the row (`RowCall.Fits`). Between the two the length of the text is stored with the flag of a
trailing half set.

Source: `src/buffer/out/Row.hpp`, lines 238-304; `src/buffer/out/Row.cpp`, lines 157-218,
356-536, 572-943, 1080-1234.
-/

namespace IntelligentTerminal.Buffer

open Glyph

/-- What the queries of a row rely on. -/
structure ROW.WellFormed (r : ROW) : Prop where
  length_words : r.charOffsets.length = r.columnCount + 1
  first : r.word 0 = 0
  last : r.uncheckedIsTrailer r.columnCount = false
  offset_le : ∀ c < r.columnCount, r.uncheckedCharOffset c ≤ r.uncheckedCharOffset (c + 1)
  trailer_iff : ∀ c < r.columnCount, r.uncheckedIsTrailer (c + 1) = true ↔
    r.uncheckedCharOffset (c + 1) = r.uncheckedCharOffset c
  size : r.word r.columnCount ≤ r.chars.length
  /-- `_adjustForward` stops at a column of the row. -/
  adjustForward_le : ∀ c ≤ r.columnCount, r.adjustForward c ≤ r.columnCount ∧
    r.uncheckedIsTrailer (r.adjustForward c) = false
  /-- `_adjustBackward` stops at a column of the row. -/
  adjustBackward_le : ∀ c ≤ r.columnCount, r.adjustBackward c ≤ c ∧
    r.uncheckedIsTrailer (r.adjustBackward c) = false
  /-- `GlyphAt` reads text of the row. -/
  glyphAt_le : ∀ column : ℤ, r.clampedColumn column < r.columnCount ∧
    r.adjustForward (r.clampedColumn column + 1) ≤ r.columnCount ∧
    r.uncheckedCharOffset (r.adjustForward (r.clampedColumn column + 1)) ≤ r.chars.length

namespace ROW.Represents

variable {r : ROW} {gs : List (Glyph WChar)}

theorem of_text_eq (hr : r.Represents gs) {r' : ROW} (hchars : r'.chars = r.chars)
    (hwords : r'.charOffsets = r.charOffsets) (hcount : r'.columnCount = r.columnCount) :
    r'.Represents gs where
  words := hwords.trans hr.words
  text := by rw [hchars]; exact hr.text
  count := hr.count.trans hcount.symm
  count_lt := by rw [hcount]; exact hr.count_lt
  units_lt := hr.units_lt
  cap := by rw [hchars]; exact hr.cap

theorem charSize_eq (hr : r.Represents gs) : r.charSize = units gs := by
  have h := ROW.Represents.word_boundary (A := gs) (B := []) (by rw [List.append_nil]; exact hr)
  rwa [hr.count] at h

theorem offset_le_chars (hr : r.Represents gs) {c : ℕ} (hc : c ≤ r.columnCount) :
    r.uncheckedCharOffset c ≤ r.chars.length := by
  obtain ⟨A, B, rfl, -, -, -, -, hoff⟩ := hr.exists_floor hc
  have := hr.units_le
  rw [units_append] at this
  omega

theorem wellFormed (hr : r.Represents gs) (hpos : 0 < r.columnCount) : r.WellFormed := by
  have hfwd : ∀ c ≤ r.columnCount, r.adjustForward c ≤ r.columnCount ∧
      r.uncheckedIsTrailer (r.adjustForward c) = false := by
    intro c hc
    obtain ⟨D, C, rfl, -, -, hadj⟩ := hr.exists_ceil hc
    refine ⟨?_, hadj ▸ hr.isTrailer_boundary⟩
    rw [hadj, ← hr.count, cols_append]
    omega
  have hstep : ∀ c < r.columnCount, r.uncheckedCharOffset c ≤ r.uncheckedCharOffset (c + 1) ∧
      (r.uncheckedIsTrailer (c + 1) = true ↔
        r.uncheckedCharOffset (c + 1) = r.uncheckedCharOffset c) := by
    intro c hc
    obtain ⟨A, g, B, rfl, hcase | ⟨hg, hcase⟩⟩ := hr.exists_prev (Nat.succ_pos c) hc
    · -- the column ends a glyph
      have hpos := g.length_text_pos
      have hbefore : r.uncheckedCharOffset c = units A := by
        rcases g.width_eq with hw | hw
        · rw [show c = cols A by omega, hr.offset_boundary]
        · rw [show c = cols A + 1 by omega, hr.offset_cut hw]
      have hcols : cols (A ++ [g]) = c + 1 := by
        rw [cols_append, cols_cons, cols_nil]
        omega
      rw [List.append_cons] at hr
      have hafter := hr.offset_boundary
      have htrail := hr.isTrailer_boundary
      rw [hcols] at hafter htrail
      have hunits : units (A ++ [g]) = units A + g.text.length := by simp
      rw [hafter, hbefore, htrail, hunits]
      refine ⟨by omega, fun h => absurd h Bool.false_ne_true, fun h => ?_⟩
      omega
    · -- the column cuts a glyph
      obtain rfl : c = cols A := by omega
      rw [hr.offset_cut hg, hr.offset_boundary, hr.isTrailer_cut hg]
      simp
  have hlast := ROW.Represents.isTrailer_boundary (A := gs) (B := [])
    (by rw [List.append_nil]; exact hr)
  rw [hr.count] at hlast
  refine
    { length_words := by rw [hr.words, length_wordsOf, hr.count]
      first := ROW.Represents.word_boundary (A := []) (B := gs) hr
      last := hlast
      offset_le := fun c hc => (hstep c hc).1
      trailer_iff := fun c hc => (hstep c hc).2
      size := hr.charSize_eq.trans_le hr.units_le
      adjustForward_le := hfwd
      adjustBackward_le := ?_
      glyphAt_le := ?_ }
  · intro c hc
    obtain ⟨A, B, rfl, hle, -, -, hadj, -⟩ := hr.exists_floor hc
    exact ⟨hadj ▸ hle, hadj ▸ hr.isTrailer_boundary⟩
  · intro column
    have hlt : r.clampedColumn column < r.columnCount := by
      unfold ROW.clampedColumn clampInt
      split_ifs <;> omega
    exact ⟨hlt, (hfwd _ hlt).1, hr.offset_le_chars (hfwd _ hlt).1⟩

end ROW.Represents

theorem ROW.construct_represents {rowWidth : ℕ} (h : rowWidth < 0x8000) (attr : TextAttribute) :
    (ROW.construct rowWidth attr).Represents (blanks space rowWidth) where
  words := by
    change iotaN (rowWidth + 1) 0 = _
    rw [wordsOf, leadWords_blanks, units_blanks, ← leadWords_blanks, blanks_add, leadWords_append,
      leadWords_blanks, units_blanks]
    congr 1
    change [narrow16 ((0 + rowWidth : ℕ) : ℤ)] = _
    rw [narrow16_natCast (by omega)]
  text := by
    rw [units_blanks, textOf_blanks]
    exact List.take_of_length_le (by simp [ROW.construct])
  count := cols_blanks space rowWidth
  count_lt := h
  units_lt := by rw [units_blanks]; exact h
  cap := by
    simp only [ROW.construct, List.length_replicate]
    omega

/-! ### Calls -/

/-- The length of a text that a row stores correctly, or that it refuses. -/
def TextFits (gs : List (Glyph WChar)) : Prop := units gs < 0x8000 ∨ 0xffff < units gs

instance (gs : List (Glyph WChar)) : Decidable (TextFits gs) :=
  inferInstanceAs (Decidable (units gs < 0x8000 ∨ 0xffff < units gs))

namespace WriteCellsState

/-- The column, the width and the text of the `ReplaceCharacters` call of a round of
`WriteCells`. -/
def textCall (finalColumnInRow : ℕ) (s : WriteCellsState) : Option (ℤ × ℕ × List WChar) :=
  if s.it.cell.textAttrBehavior = .storedOnly then none
  else
    match s.it.cell.dbcsAttr with
    | .leading =>
      if s.currentIndex = finalColumnInRow then some (s.currentIndex, 1, [space])
      else some (s.currentIndex, 2, s.it.cell.chars)
    | .trailing =>
      if s.currentIndex = 0 then some (s.currentIndex, 1, [space])
      else if s.it.position s.it.distance = 0 then some (s.currentIndex - 1, 2, s.it.cell.chars)
      else none
    | .single => some (s.currentIndex, 1, s.it.cell.chars)

/-- The text of each `ReplaceCharacters` call of the loop of `WriteCells` fits. -/
def Fits (wrap : Option Bool) (finalColumnInRow : ℕ) : ℕ → WriteCellsState → Prop
  | 0, _ => True
  | fuel + 1, s =>
    s.it.isValid ∧ s.currentIndex ≤ finalColumnInRow →
    ∀ s₁, s.fillColor = .ok s₁ →
      (∀ gs column width chars, s₁.row.Represents gs →
        s₁.textCall finalColumnInRow = some (column, width, chars) →
        TextFits (replaceCharactersCells gs column width chars)) ∧
      ∀ s₂, s₁.fillText wrap finalColumnInRow = .ok s₂ →
        Fits wrap finalColumnInRow fuel { s₂ with currentIndex := narrow16 (s₂.currentIndex + 1) }

end WriteCellsState

/-- The row has `n` columns and represents glyphs. -/
def ROW.Holds (n : ℕ) (r : ROW) : Prop := (∃ gs, r.Represents gs) ∧ r.columnCount = n

/-- What a call returns, and what an exception leaves behind, has a property. -/
inductive Outcome {α : Type} (p : ROW → Prop) (row : α → ROW) : Except ROW α → Prop
  | ok {a : α} (h : p (row a)) : Outcome p row (.ok a)
  | error {r : ROW} (h : p r) : Outcome p row (.error r)

theorem Outcome.bind {α β : Type} {p : ROW → Prop} {row : α → ROW} {row' : β → ROW}
    {out : Except ROW α} {f : α → Except ROW β} (hout : Outcome p row out)
    (hf : ∀ a, out = .ok a → p (row a) → Outcome p row' (f a)) : Outcome p row' (out >>= f) := by
  cases hout with
  | ok h => exact hf _ rfl h
  | error h => exact .error h

theorem Outcome.map {α β : Type} {p : ROW → Prop} {row : α → ROW} {row' : β → ROW}
    {out : Except ROW α} {f : α → β} (hout : Outcome p row out)
    (hf : ∀ a, p (row a) → p (row' (f a))) : Outcome p row' (out.map f) := by
  cases hout with
  | ok h => exact .ok (hf _ h)
  | error h => exact .error h

namespace ROW.Holds

variable {n : ℕ} {r r' : ROW}

theorem of_text_eq (h : r.Holds n) (hchars : r'.chars = r.chars)
    (hwords : r'.charOffsets = r.charOffsets) (hcount : r'.columnCount = r.columnCount) :
    r'.Holds n := by
  obtain ⟨⟨gs, hr⟩, rfl⟩ := h
  exact ⟨⟨gs, hr.of_text_eq hchars hwords hcount⟩, hcount⟩

theorem reset (h : r.Holds n) (attr : TextAttribute) : (r.reset attr).Holds n := by
  obtain ⟨⟨gs, hr⟩, rfl⟩ := h
  exact ⟨⟨_, ROW.construct_represents hr.count_lt attr⟩, rfl⟩

theorem outcome (h : r.Holds n) {out : Except ROW ROW} {gs : List (Glyph WChar)}
    (hw : r.WritesAs out gs) (hf : TextFits gs) : Outcome (ROW.Holds n) id out := by
  rcases hf with hlt | hlt
  · obtain ⟨r', rfl, hrep, hrest⟩ := hw.ok hlt
    exact .ok ⟨⟨gs, hrep⟩, by rw [hrest]; exact h.2⟩
  · rw [hw.throws hlt]
    exact .error (h.reset {})

theorem replaceCharacters (h : r.Holds n) {column : ℤ} {width : ℕ} (hw : width = 1 ∨ width = 2)
    {chars : List WChar}
    (hf : ∀ gs, r.Represents gs → TextFits (replaceCharactersCells gs column width chars)) :
    Outcome (ROW.Holds n) id (r.replaceCharacters column width chars) := by
  obtain ⟨gs, hr⟩ := h.1
  exact h.outcome (hr.replaceCharacters column hw chars) (hf gs hr)

end ROW.Holds

namespace WriteCellsState

variable {n : ℕ} {s : WriteCellsState} {finalColumnInRow : ℕ} {wrap : Option Bool}

theorem fillColor_holds (h : s.row.Holds n) :
    Outcome (ROW.Holds n) row s.fillColor := by
  unfold fillColor
  split
  · exact .ok h
  · split
    · exact .ok h
    · split
      · exact .error h
      · exact .ok (h.of_text_eq rfl rfl rfl)

theorem writeText_holds (h : s.row.Holds n)
    (hstored : s.it.cell.textAttrBehavior ≠ .storedOnly)
    (hf : ∀ gs column width chars, s.row.Represents gs →
      s.textCall finalColumnInRow = some (column, width, chars) →
      TextFits (replaceCharactersCells gs column width chars)) :
    Outcome (ROW.Holds n) row (s.writeText finalColumnInRow) := by
  have hcall : ∀ column width chars, s.textCall finalColumnInRow = some (column, width, chars) →
      (width = 1 ∨ width = 2) →
      Outcome (ROW.Holds n) id (s.row.replaceCharacters column width chars) :=
    fun column width chars hcall hw =>
      h.replaceCharacters hw fun gs hr => hf gs column width chars hr hcall
  unfold textCall at hcall
  rw [if_neg hstored] at hcall
  unfold writeText
  cases hdbcs : s.it.cell.dbcsAttr with
  | leading =>
    simp only [hdbcs] at hcall ⊢
    split_ifs with hlast
    · rw [if_pos hlast] at hcall
      exact (hcall _ _ _ rfl (Or.inl rfl)).map fun r hr => ROW.Holds.of_text_eq hr rfl rfl rfl
    · rw [if_neg hlast] at hcall
      exact (hcall _ _ _ rfl (Or.inr rfl)).map fun r hr => hr
  | trailing =>
    simp only [hdbcs] at hcall ⊢
    split_ifs with hfirst hposition
    · rw [if_pos hfirst] at hcall
      exact (hcall _ _ _ rfl (Or.inl rfl)).map fun r hr => hr
    · rw [if_neg hfirst, if_pos hposition] at hcall
      exact (hcall _ _ _ rfl (Or.inr rfl)).map fun r hr => hr
    · exact .ok h
  | single =>
    simp only [hdbcs] at hcall
    exact (hcall _ _ _ rfl (Or.inl rfl)).map fun r hr => hr

theorem fillText_holds
    (h : s.row.Holds n)
    (hf : ∀ gs column width chars, s.row.Represents gs →
      s.textCall finalColumnInRow = some (column, width, chars) →
      TextFits (replaceCharactersCells gs column width chars)) :
    Outcome (ROW.Holds n) row (s.fillText wrap finalColumnInRow) := by
  unfold fillText
  split_ifs with hstored
  · exact .ok h
  · refine (writeText_holds h hstored hf).map fun s' hs' => ?_
    cases wrap with
    | none => exact hs'
    | some w =>
      simp only
      split_ifs
      · exact ROW.Holds.of_text_eq hs' rfl rfl rfl
      · exact hs'

theorem loop_holds {finalColumnInRow fuel : ℕ}
    (h : s.row.Holds n) (hf : s.Fits wrap finalColumnInRow fuel) :
    Outcome (ROW.Holds n) row (loop wrap finalColumnInRow fuel s) := by
  induction fuel generalizing s with
  | zero => exact .ok h
  | succ fuel ih =>
    unfold loop
    split
    next hcond =>
      refine Outcome.bind (fillColor_holds h) fun s₁ hs₁ h₁ => ?_
      obtain ⟨htext, hnext⟩ := hf hcond s₁ hs₁
      exact Outcome.bind (fillText_holds h₁ htext) fun s₂ hs₂ h₂ => ih h₂ (hnext s₂ hs₂)
    · exact .ok h

end WriteCellsState

/-- A call on a row. A copy without a source is a copy of the row onto itself. -/
inductive RowCall
  | replaceText (state : RowWriteState)
  | replaceCharacters (columnBegin : ℤ) (width : ℕ) (chars : List WChar)
  | copyTextFrom (source : Option ROW) (state : RowCopyTextFromState)
  | copyFrom (source : Option ROW)
  | writeCells (fuel : ℕ) (it : OutputCellIterator) (columnBegin : ℤ) (wrap : Option Bool)
      (limitRight : Option ℤ)
  | clearCell (column : ℤ)
  | reset (attr : TextAttribute)

namespace RowCall

/-- The other row that a call reads. -/
def source : RowCall → Option ROW
  | .copyTextFrom source _ => source
  | .copyFrom source => source
  | _ => none

/-- `ReplaceCharacters` asserts a width of one or two columns. -/
def WidthOk : RowCall → Prop
  | .replaceCharacters _ width _ => width = 1 ∨ width = 2
  | _ => True

/-- The outcome of a call. -/
def run (cwd : CodepointWidthDetector) (r : ROW) : RowCall → Except ROW ROW
  | .replaceText state => (r.replaceText cwd state).map Prod.fst
  | .replaceCharacters columnBegin width chars => r.replaceCharacters columnBegin width chars
  | .copyTextFrom source state =>
    (r.copyTextFrom (source.getD r) source.isNone state).map Prod.fst
  | .copyFrom source => r.copyFrom (source.getD r) source.isNone
  | .writeCells fuel it columnBegin wrap limitRight =>
    (r.writeCells fuel it columnBegin wrap limitRight).map Prod.fst
  | .clearCell column => r.clearCell column
  | .reset attr => .ok (r.reset attr)

/-- The row that a call leaves behind. -/
def after (cwd : CodepointWidthDetector) (r : ROW) (c : RowCall) : ROW :=
  match c.run cwd r with
  | .ok r' => r'
  | .error r' => r'

/-- The line of cells that a call makes of the glyphs of the row has a text that fits. -/
def Fits (cwd : CodepointWidthDetector) (r : ROW) : RowCall → Prop
  | .replaceText state => ∀ gs, r.Represents gs → TextFits (replaceTextCells cwd gs state)
  | .replaceCharacters columnBegin width chars =>
    ∀ gs, r.Represents gs → TextFits (replaceCharactersCells gs columnBegin width chars)
  | .copyTextFrom source state => ∀ gs src, r.Represents gs → (source.getD r).Represents src →
    TextFits (copyTextCells gs src source.isNone state)
  | .copyFrom source => ∀ gs src, r.Represents gs → (source.getD r).Represents src →
    TextFits (copyTextCells gs src source.isNone
      { sourceColumnLimit := (source.getD r).getReadableColumnCount })
  | .writeCells fuel it columnBegin wrap limitRight =>
    WriteCellsState.Fits wrap (narrow16 (limitRight.getD (r.columnCount - 1))) fuel
      { row := r, it, currentColor := it.cell.textAttr, colorStarts := narrow16 columnBegin
        currentIndex := narrow16 columnBegin }
  | .clearCell column => ∀ gs, r.Represents gs → TextFits (replaceCharactersCells gs column 1 [space])
  | .reset _ => True

end RowCall

variable {n : ℕ} {r source : ROW} {src : List (Glyph WChar)} {isSelf : Bool}
  {state : RowCopyTextFromState}

theorem ROW.Holds.copyTextFrom (h : r.Holds n) (hs : source.Represents src)
    (hf : ∀ gs, r.Represents gs → TextFits (copyTextCells gs src isSelf state)) :
    Outcome (ROW.Holds n) Prod.fst (r.copyTextFrom source isSelf state) := by
  obtain ⟨gs, hr⟩ := h.1
  have hout := h.outcome (hr.copyTextFrom hs isSelf state) (hf gs hr)
  generalize r.copyTextFrom source isSelf state = out at hout ⊢
  cases out with
  | error e => cases hout with | error h => exact .error h
  | ok p => cases hout with | ok h => exact .ok h

theorem ROW.Holds.copyFrom (h : r.Holds n) (hs : source.Represents src)
    (hstate : state = { sourceColumnLimit := source.getReadableColumnCount })
    (hf : ∀ gs, r.Represents gs → TextFits (copyTextCells gs src isSelf state)) :
    Outcome (ROW.Holds n) id (r.copyFrom source isSelf) := by
  have h' : ROW.Holds n { r with
      lineRendition := source.lineRendition, wrapForced := source.wrapForced } :=
    h.of_text_eq rfl rfl rfl
  have hout := h'.copyTextFrom hs fun gs hr => hf gs (hr.of_text_eq rfl rfl rfl)
  rw [ROW.copyFrom, ← hstate]
  exact hout.map fun p hp => ROW.Holds.of_text_eq hp rfl rfl rfl

theorem ROW.Holds.writeCells (h : r.Holds n) {fuel : ℕ}
    {it : OutputCellIterator} {columnBegin : ℤ} {wrap : Option Bool} {limitRight : Option ℤ}
    (hf : WriteCellsState.Fits wrap (narrow16 (limitRight.getD (r.columnCount - 1))) fuel
      { row := r, it, currentColor := it.cell.textAttr, colorStarts := narrow16 columnBegin
        currentIndex := narrow16 columnBegin }) :
    Outcome (ROW.Holds n) Prod.fst (r.writeCells fuel it columnBegin wrap limitRight) := by
  unfold ROW.writeCells
  split
  · exact .error h
  · refine Outcome.bind (WriteCellsState.loop_holds h hf) fun s _ hs => ?_
    split
    · exact .ok hs
    · split
      · exact .error hs
      · exact .ok (ROW.Holds.of_text_eq hs rfl rfl rfl)

theorem RowCall.after_holds (cwd : CodepointWidthDetector) {r : ROW} {c : RowCall}
    (h : r.Holds n) (hs : ∀ s, c.source = some s → ∃ m, s.Holds m) (hw : c.WidthOk)
    (hf : c.Fits cwd r) : (c.after cwd r).Holds n := by
  obtain ⟨gs, hr⟩ := h.1
  have hsource : ∃ src, (c.source.getD r).Represents src := by
    cases hc : c.source with
    | none => exact ⟨gs, hr⟩
    | some s =>
      obtain ⟨m, hm⟩ := hs s hc
      exact hm.1
  obtain ⟨src, hsrc⟩ := hsource
  suffices hout : Outcome (ROW.Holds n) id (c.run cwd r) by
    unfold RowCall.after
    generalize c.run cwd r = out at hout
    cases hout with
    | ok h => exact h
    | error h => exact h
  cases c with
  | replaceText state => exact h.outcome (hr.replaceText cwd state) (hf gs hr)
  | replaceCharacters columnBegin width chars => exact h.replaceCharacters hw hf
  | copyTextFrom source state =>
    exact h.outcome (hr.copyTextFrom hsrc source.isNone state) (hf gs src hr hsrc)
  | copyFrom source => exact h.copyFrom hsrc rfl fun gs hr => hf gs src hr hsrc
  | writeCells fuel it columnBegin wrap limitRight => exact (h.writeCells hf).map fun _ hr => hr
  | clearCell column => exact h.replaceCharacters (Or.inl rfl) hf
  | reset attr => exact .ok (h.reset attr)

/-! ### Runs -/

/-- The rows that calls on new rows lead to. The width of a new row meets `wide`, each call on a
row meets `fits`, and a row is copied only from a row that has been reached. -/
inductive ROW.Reached (cwd : CodepointWidthDetector) (wide : ℕ → Prop)
    (fits : ROW → RowCall → Prop) : ROW → Prop
  | construct {rowWidth : ℕ} (hpos : 1 ≤ rowWidth) (hwide : wide rowWidth) (attr : TextAttribute) :
    Reached cwd wide fits (ROW.construct rowWidth attr)
  | call {r : ROW} {c : RowCall} (hr : Reached cwd wide fits r)
    (hs : ∀ s, c.source = some s → Reached cwd wide fits s) (hw : c.WidthOk) (hf : fits r c) :
    Reached cwd wide fits (c.after cwd r)

theorem ROW.Reached.holds {cwd : CodepointWidthDetector} {r : ROW}
    (h : ROW.Reached cwd (· < 0x8000) (fun r c => c.Fits cwd r) r) :
    ∃ n, 0 < n ∧ r.Holds n := by
  induction h with
  | @construct rowWidth hpos hwide attr =>
    exact ⟨rowWidth, hpos, ⟨_, ROW.construct_represents hwide attr⟩, rfl⟩
  | call _ _ hw hf ih ihs =>
    obtain ⟨n, hn, hr⟩ := ih
    refine ⟨n, hn, RowCall.after_holds cwd hr (fun s hs => ?_) hw hf⟩
    obtain ⟨m, -, hm⟩ := ihs s hs
    exact ⟨m, hm⟩

/-- Every row that calls lead to from rows of fewer than `0x8000` columns is well formed, as
long as no call makes a text of `0x8000` to `UINT16_MAX` units. -/
theorem reached_wellFormed {cwd : CodepointWidthDetector} {r : ROW}
    (h : ROW.Reached cwd (· < 0x8000) (fun r c => c.Fits cwd r) r) : r.WellFormed := by
  obtain ⟨n, hn, ⟨gs, hr⟩, rfl⟩ := h.holds
  exact hr.wellFormed hn

theorem reached_wellFormed_ideograph :
    ROW.Reached CodepointWidthDetector.ofMarks (· < 0x8000)
        (fun r c => c.Fits CodepointWidthDetector.ofMarks r)
        ((RowCall.replaceCharacters 0 2 [0x4e2d]).after CodepointWidthDetector.ofMarks
          (ROW.construct 2 {})) ∧
      ((RowCall.replaceCharacters 0 2 [0x4e2d]).after CodepointWidthDetector.ofMarks
        (ROW.construct 2 {})).WellFormed := by
  have hreached : ROW.Reached CodepointWidthDetector.ofMarks (· < 0x8000)
      (fun r c => c.Fits CodepointWidthDetector.ofMarks r)
      ((RowCall.replaceCharacters 0 2 [0x4e2d]).after CodepointWidthDetector.ofMarks
        (ROW.construct 2 {})) := by
    refine .call (.construct (by decide) (by decide) {}) (fun s hs => by cases hs) (Or.inr rfl) ?_
    intro gs hgs
    rw [hgs.unique (ROW.construct_represents (by decide) {})]
    decide
  exact ⟨hreached, reached_wellFormed hreached⟩

theorem replaceCharacters_overflow {chars : List WChar} (h : chars.length = 0x8000) :
    ∃ r, (ROW.construct 1 {}).replaceCharacters 0 1 chars = .ok r ∧
      r.charOffsets = [0, 0x8000] ∧ r.columnCount = 1 := by
  have hne : chars ≠ [] := by
    rintro rfl
    simp at h
  have hnew : WriteHelper.new (ROW.construct 1 {}) 0 1 chars =
      { chars, colBeg := 0, colLimit := 1, colEnd := 0, colBegDirty := 0, chBeg := 0
        chBegDirty := 0, leadingSpaces := 0 } := rfl
  have hvalid : (WriteHelper.new (ROW.construct 1 {}) 0 1 chars).isValid = true := by
    rw [hnew]
    simp [WriteHelper.isValid, hne]
  have hwritten : (WriteHelper.new (ROW.construct 1 {}) 0 1 chars).replaceCharacters
      (ROW.construct 1 {}) 1 =
      (ROW.construct 1 {},
        { chars, colBeg := 0, colLimit := 1, colEnd := 1, colBegDirty := 0, colEndDirty := 1
          chBeg := 0, chBegDirty := 0, leadingSpaces := 0, charsConsumed := 0x8000 }) := by
    rw [hnew, ← h]
    rfl
  have hforward : (ROW.construct 1 {}).adjustForward 1 = 1 := by decide
  have hoffset : (ROW.construct 1 {}).uncheckedCharOffset 1 = 1 := by decide
  have hsize : (ROW.construct 1 {}).charSize = 1 := by decide
  have hwords : (ROW.construct 1 {}).charOffsets.take 1 ++ ((ROW.construct 1 {}).charOffsets.drop 1).map
      (fun (word : ℕ) => narrow16 (word + (((0x8000 : ℕ) : ℤ) - (1 : ℕ)))) = [0, 0x8000] := by
    decide
  have hresize : ∃ chars', (ROW.construct 1 {}).resizeChars 1 0 0x8000 1 =
      some { ROW.construct 1 {} with chars := chars', charOffsets := [0, 0x8000] } := by
    unfold ROW.resizeChars
    simp only [hsize, hwords]
    exact ⟨_, rfl⟩
  obtain ⟨chars', hresize⟩ := hresize
  unfold ROW.replaceCharacters
  simp only [show ((ROW.construct 1 {}).columnCount : ℤ) = 1 from rfl, hvalid, hwritten,
    Bool.not_true, Bool.false_eq_true, if_false]
  unfold WriteHelper.finish
  simp only [hforward, hoffset, Nat.sub_self, Nat.zero_add, Nat.add_zero, hresize]
  exact ⟨_, rfl, rfl, rfl⟩

/-- A text of `0x8000` units in a row of one column sets the flag of its last word. -/
theorem not_reached_wellFormed : ¬∀ cwd r,
    ROW.Reached cwd (· ≤ uint16Max) (fun _ _ => True) r → r.WellFormed := by
  intro hall
  obtain ⟨r, hr, hwords, hcount⟩ :=
    replaceCharacters_overflow (List.length_replicate (n := 0x8000) (a := (0x61 : WChar)))
  have hreached : ROW.Reached CodepointWidthDetector.ofMarks (· ≤ uint16Max) (fun _ _ => True)
      ((RowCall.replaceCharacters 0 1 (List.replicate 0x8000 0x61)).after
        CodepointWidthDetector.ofMarks (ROW.construct 1 {})) :=
    .call (.construct le_rfl (by decide) {}) (fun s hs => by cases hs) (Or.inl rfl) trivial
  have hafter : (RowCall.replaceCharacters 0 1 (List.replicate 0x8000 0x61)).after
      CodepointWidthDetector.ofMarks (ROW.construct 1 {}) = r := by
    rw [RowCall.after, RowCall.run, hr]
  rw [hafter] at hreached
  have hlast := (hall _ r hreached).last
  rw [hcount, ROW.uncheckedIsTrailer, ROW.word, hwords] at hlast
  exact absurd hlast (by decide)

end IntelligentTerminal.Buffer
