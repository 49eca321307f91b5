import IntelligentTerminal.Buffer.Row

/-!
# Rows as sequences of glyphs

A row represents a sequence of glyphs when its words are the offsets of these glyphs and its
text is their text (`ROW.Represents`). The offsets stay below `0x8000`, the flag of a trailing
half. This file gives the words of a sequence (`leadWords`) and what the loops over words and
the queries find on them.
-/

namespace IntelligentTerminal.Buffer

open Glyph

/-! ### Words -/

theorem offsetOf_eq_mod (w : ℕ) : offsetOf w = w % 0x8000 :=
  Nat.and_two_pow_sub_one_eq_mod w 15

variable {gs : List (Glyph WChar)} {o : ℕ} {pre rest : List ℕ} {p o c : ℕ}

theorem offsetOf_of_lt (h : o < 0x8000) : offsetOf o = o := by
  rw [offsetOf_eq_mod, Nat.mod_eq_of_lt h]

theorem isTrailer_eq_testBit (w : ℕ) : isTrailer w = w.testBit 15 := by
  have h : w &&& charOffsetsTrailer = (w.testBit 15).toNat * 2 ^ 15 := Nat.and_two_pow w 15
  rw [isTrailer, h]
  cases w.testBit 15 <;> rfl

theorem isTrailer_of_lt (h : o < 0x8000) : isTrailer o = false := by
  rw [isTrailer_eq_testBit]
  exact Nat.testBit_lt_two_pow h

theorem isTrailer_of_ge (h : 0x8000 ≤ o) (h' : o ≤ 0xffff) : isTrailer o = true := by
  rw [isTrailer_eq_testBit, show o = 2 ^ 15 + (o - 0x8000) by omega,
    Nat.testBit_two_pow_add_eq (o - 0x8000) 15, Nat.testBit_lt_two_pow (by omega)]
  rfl

theorem or_trailer (h : o < 0x8000) : o ||| charOffsetsTrailer = o + 0x8000 := by
  have := Nat.two_pow_add_eq_or_of_lt (i := 15) h 1
  rw [Nat.or_comm]
  rw [Nat.mul_one] at this
  rw [Nat.add_comm]
  exact this.symm

theorem offsetOf_or_trailer (h : o < 0x8000) : offsetOf (o ||| charOffsetsTrailer) = o := by
  rw [or_trailer h, offsetOf_eq_mod]
  omega

theorem isTrailer_or_trailer (h : o < 0x8000) :
    isTrailer (o ||| charOffsetsTrailer) = true := by
  rw [or_trailer h, isTrailer_eq_testBit, Nat.add_comm]
  rw [Nat.testBit_two_pow_add_eq o 15, Nat.testBit_lt_two_pow h]
  rfl

theorem narrow16_natCast {n : ℕ} (h : n < 0x10000) : narrow16 n = n := by
  unfold narrow16
  omega

theorem narrow16_add {m n : ℕ} (h : m + n < 0x10000) : narrow16 (m + n) = m + n := by
  unfold narrow16
  omega

@[simp] theorem length_iotaN (count val : ℕ) : (iotaN count val).length = count := by
  simp [iotaN]

theorem take_iotaN {j count : ℕ} (h : j ≤ count) (val : ℕ) :
    (iotaN count val).take j = iotaN j val := by
  rw [iotaN, iotaN, ← List.map_take, List.take_range'_of_length_ge h]

theorem glyphWords_eq {ch : ℕ} (h : ch < 0x8000) (width : ℕ) :
    glyphWords ch width = ch :: List.replicate (width - 1) (ch ||| charOffsetsTrailer) := by
  rw [glyphWords, narrow16_natCast (by omega), narrow16_natCast (by rw [or_trailer h]; omega)]

theorem length_glyphWords {width : ℕ} (hw : 0 < width) (ch : ℕ) :
    (glyphWords ch width).length = width := by
  simp only [glyphWords, List.length_cons, List.length_replicate]
  omega

/-- The words of the columns of a sequence of glyphs whose text starts at `o`. -/
def leadWords : ℕ → List (Glyph WChar) → List ℕ
  | _, [] => []
  | o, g :: gs => glyphWords o g.width ++ leadWords (o + g.text.length) gs

/-- The words of a sequence of glyphs whose text starts at `o`, with the one past its end. -/
def wordsOf (o : ℕ) (gs : List (Glyph WChar)) : List ℕ := leadWords o gs ++ [o + units gs]

@[simp] theorem leadWords_nil (o : ℕ) : leadWords o [] = [] := rfl

@[simp] theorem length_leadWords (o : ℕ) (gs : List (Glyph WChar)) :
    (leadWords o gs).length = cols gs := by
  induction gs generalizing o with
  | nil => rfl
  | cons g gs ih =>
    rw [leadWords, List.length_append, length_glyphWords g.width_pos, ih, cols_cons]

@[simp] theorem length_wordsOf (o : ℕ) (gs : List (Glyph WChar)) :
    (wordsOf o gs).length = cols gs + 1 := by
  rw [wordsOf, List.length_append, length_leadWords, List.length_singleton]

theorem leadWords_append (o : ℕ) (gs hs : List (Glyph WChar)) :
    leadWords o (gs ++ hs) = leadWords o gs ++ leadWords (o + units gs) hs := by
  induction gs generalizing o with
  | nil => rfl
  | cons g gs ih =>
    rw [List.cons_append, leadWords, leadWords, ih, List.append_assoc, units_cons, Nat.add_assoc]

theorem wordsOf_append (o : ℕ) (gs hs : List (Glyph WChar)) :
    wordsOf o (gs ++ hs) = leadWords o gs ++ wordsOf (o + units gs) hs := by
  rw [wordsOf, wordsOf, leadWords_append, List.append_assoc, units_append, Nat.add_assoc]

theorem leadWords_map_single (o : ℕ) (t : List WChar) :
    leadWords o (t.map single) = iotaN t.length o := by
  induction t generalizing o with
  | nil => rfl
  | cons c t ih =>
    rw [List.map_cons, leadWords, single_width, single_text, List.length_singleton, ih, iotaN,
      List.length_cons, iotaN, List.range'_succ, List.map_cons]
    rfl

theorem leadWords_blanks (o k : ℕ) : leadWords o (blanks space k) = iotaN k o := by
  have h : blanks space k = (List.replicate k space).map single := by
    rw [List.map_replicate]
    rfl
  rw [h, leadWords_map_single, List.length_replicate]

/-! ### The loops over words -/

theorem head_wordsOf (h : o + units gs < 0x8000) :
    ∃ rest, wordsOf o gs = o :: rest := by
  cases gs with
  | nil => exact ⟨[], rfl⟩
  | cons g gs =>
    rw [units_cons] at h
    refine ⟨List.replicate (g.width - 1) (o ||| charOffsetsTrailer) ++
      wordsOf (o + g.text.length) gs, ?_⟩
    rw [wordsOf, leadWords, glyphWords_eq (by omega), wordsOf]
    simp only [List.cons_append, List.append_assoc, units_cons, Nat.add_assoc]

theorem stepForward_boundary {pre : List ℕ} {o c : ℕ}
    (hc : pre.length = c) (h : o + units gs < 0x8000) :
    stepForward (pre ++ wordsOf o gs) c = c := by
  obtain ⟨rest, hrest⟩ := head_wordsOf h
  rw [stepForward, ← hc, List.drop_left, hrest,
    List.takeWhile_cons_of_neg (by rw [isTrailer_of_lt (by omega)]; exact Bool.false_ne_true)]
  rfl

theorem stepForward_cut {pre : List ℕ}
    (hc : pre.length = c) (hp : p < 0x8000) (h : o + units gs < 0x8000) :
    stepForward (pre ++ (p ||| charOffsetsTrailer) :: wordsOf o gs) c = c + 1 := by
  obtain ⟨rest, hrest⟩ := head_wordsOf h
  rw [stepForward, ← hc, List.drop_left, hrest, List.takeWhile_cons_of_pos (isTrailer_or_trailer hp),
    List.takeWhile_cons_of_neg (by rw [isTrailer_of_lt (by omega)]; exact Bool.false_ne_true)]
  rfl

theorem stepBackward_boundary {o c : ℕ} (hc : pre.length = c)
    (h : o < 0x8000) : stepBackward (pre ++ o :: rest) c = c := by
  have htake : (pre ++ o :: rest).take (c + 1) = pre ++ [o] := by
    rw [← hc, List.take_add_one, List.take_left]
    simp
  rw [stepBackward, htake, List.reverse_append, List.reverse_singleton, List.singleton_append,
    List.takeWhile_cons_of_neg (by rw [isTrailer_of_lt h]; exact Bool.false_ne_true)]
  rfl

theorem stepBackward_cut (hc : pre.length = c)
    (ho : o < 0x8000) (hp : p < 0x8000) :
    stepBackward (pre ++ o :: (p ||| charOffsetsTrailer) :: rest) (c + 1) = c := by
  have htake : (pre ++ o :: (p ||| charOffsetsTrailer) :: rest).take (c + 1 + 1) =
      pre ++ [o, p ||| charOffsetsTrailer] := by
    rw [← hc, Nat.add_assoc, List.take_append, List.take_of_length_le (by omega),
      Nat.add_sub_cancel_left]
    rfl
  rw [stepBackward, htake, List.reverse_append, List.reverse_cons, List.reverse_singleton,
    List.singleton_append, List.cons_append, List.singleton_append,
    List.takeWhile_cons_of_pos (isTrailer_or_trailer hp),
    List.takeWhile_cons_of_neg (by rw [isTrailer_of_lt ho]; exact Bool.false_ne_true)]
  rfl

theorem wordsOf_cons (o : ℕ) (g : Glyph WChar) (gs : List (Glyph WChar)) :
    wordsOf o (g :: gs) = glyphWords o g.width ++ wordsOf (o + g.text.length) gs := by
  rw [wordsOf, leadWords, wordsOf, List.append_assoc, units_cons, Nat.add_assoc]

theorem map_shift_wordsOf {o o' : ℕ} {diff : ℤ}
    (hdiff : (o : ℤ) + diff = o') (h : o + units gs < 0x8000) (h' : o' + units gs < 0x8000) :
    ((wordsOf o gs).map fun (w : ℕ) => narrow16 (w + diff)) = wordsOf o' gs := by
  induction gs generalizing o o' with
  | nil =>
    rw [units_nil] at h h'
    have hw : narrow16 (o + diff) = o' := by
      rw [hdiff, narrow16_natCast (by omega)]
    simp only [wordsOf, leadWords_nil, List.nil_append, units_nil, Nat.add_zero, List.map_cons,
      List.map_nil, hw]
  | cons g gs ih =>
    rw [units_cons] at h h'
    have hlead : narrow16 (o + diff) = o' := by
      rw [hdiff, narrow16_natCast (by omega)]
    have htrail : narrow16 ((o ||| charOffsetsTrailer : ℕ) + diff) = o' ||| charOffsetsTrailer := by
      rw [or_trailer (by omega), or_trailer (by omega)]
      unfold narrow16
      omega
    have htail : ((wordsOf (o + g.text.length) gs).map fun (w : ℕ) => narrow16 (w + diff)) =
        wordsOf (o' + g.text.length) gs :=
      ih (by push_cast; omega) (by omega) (by omega)
    rw [wordsOf_cons, wordsOf_cons, List.map_append, htail, glyphWords_eq (by omega),
      glyphWords_eq (by omega), List.map_cons, List.map_replicate, hlead, htrail]

/-! ### Rows -/

structure ROW.Represents (r : ROW) (gs : List (Glyph WChar)) : Prop where
  words : r.charOffsets = wordsOf 0 gs
  text : r.chars.take (units gs) = textOf gs
  count : cols gs = r.columnCount
  count_lt : r.columnCount < 0x8000
  units_lt : units gs < 0x8000
  cap : r.chars.length ≤ 0xffff

namespace ROW.Represents

variable {r : ROW} {gs : List (Glyph WChar)}

theorem units_le (h : r.Represents gs) : units gs ≤ r.chars.length := by
  have := congrArg List.length h.text
  rw [List.length_take, length_textOf] at this
  omega

theorem cols_le (h : r.Represents gs) : cols gs ≤ 0x7fff := by
  have := h.count
  have := h.count_lt
  omega

theorem take_drop_chars {A B C : List (Glyph WChar)} (hr : r.Represents (A ++ B ++ C)) :
    (r.chars.drop (units A)).take (units B) = textOf B := by
  have htext := congrArg (List.take (units A + units B)) hr.text
  rw [List.take_take, textOf_append, units_append, units_append,
    Nat.min_eq_left (by omega), List.take_left' (by rw [length_textOf, units_append])] at htext
  rw [List.take_drop, htext, textOf_append, List.drop_left' (length_textOf A)]

theorem glyphs_unique {o : ℕ} {gs hs : List (Glyph WChar)} (hwords : wordsOf o gs = wordsOf o hs)
    (htext : textOf gs = textOf hs) (hlt : o + units gs < 0x8000) : gs = hs := by
  induction gs generalizing o hs with
  | nil =>
    have hcols := congrArg List.length hwords
    rw [length_wordsOf, length_wordsOf, cols_nil] at hcols
    exact (cols_eq_zero_iff.mp (by omega)).symm
  | cons g gs ih =>
    cases hs with
    | nil =>
      have hcols := congrArg List.length hwords
      rw [length_wordsOf, length_wordsOf, cols_nil] at hcols
      exact cols_eq_zero_iff.mp (by omega)
    | cons g' hs =>
      have hunits : units (g :: gs) = units (g' :: hs) := congrArg List.length htext
      rw [units_cons, units_cons] at hunits
      rw [units_cons] at hlt
      obtain ⟨rest, hrest⟩ := head_wordsOf (show o + g.text.length + units gs < 0x8000 by omega)
      obtain ⟨rest', hrest'⟩ := head_wordsOf (show o + g'.text.length + units hs < 0x8000 by omega)
      rw [wordsOf_cons, wordsOf_cons, glyphWords_eq (by omega), glyphWords_eq (by omega)] at hwords
      have htrail := or_trailer (show o < 0x8000 by omega)
      have hwidth : g.width = g'.width := by
        -- the second word tells a wide glyph from a narrow one
        rcases g.width_eq with hw | hw <;> rcases g'.width_eq with hw' | hw' <;>
          rw [hw, hw', hrest, hrest'] at hwords <;> rw [hw, hw']
        · have := (List.cons.inj (List.cons.inj hwords).2).1
          omega
        · have := (List.cons.inj (List.cons.inj hwords).2).1
          omega
      rw [hwidth] at hwords
      have htail := List.append_cancel_left hwords
      have hlen : g.text.length = g'.text.length := by
        rw [hrest, hrest'] at htail
        have := (List.cons.inj htail).1
        omega
      obtain ⟨htext₁, htext₂⟩ := List.append_inj htext hlen
      rw [← hlen] at htail
      have hgs := ih htail htext₂ (by omega)
      rw [hgs, Glyph.ext htext₁ hwidth]

theorem unique (hr : r.Represents gs) {hs : List (Glyph WChar)} (hr' : r.Represents hs) :
    gs = hs := by
  have hwords : wordsOf 0 gs = wordsOf 0 hs := hr.words.symm.trans hr'.words
  have hunits : units gs = units hs := by
    have hcols : cols gs = cols hs := hr.count.trans hr'.count.symm
    have h := congrArg (fun l => l.getD (cols gs) 0) hwords
    simp only [wordsOf] at h
    rw [List.getD_append_right _ _ _ _ (by simp), hcols,
      List.getD_append_right _ _ _ _ (by simp)] at h
    simpa [hcols] using h
  refine glyphs_unique hwords ?_ (by rw [Nat.zero_add]; exact hr.units_lt)
  rw [← hr.text, ← hr'.text, hunits]

section Boundary

variable {A B : List (Glyph WChar)}

theorem words_append (h : r.Represents (A ++ B)) :
    r.charOffsets = leadWords 0 A ++ wordsOf (units A) B := by
  rw [h.words, wordsOf_append, Nat.zero_add]

theorem units_add_lt (h : r.Represents (A ++ B)) : units A + units B < 0x8000 := by
  have := h.units_lt
  rwa [units_append] at this

theorem word_boundary (h : r.Represents (A ++ B)) : r.word (cols A) = units A := by
  obtain ⟨rest, hrest⟩ := head_wordsOf h.units_add_lt
  rw [ROW.word, h.words_append, List.getD_append_right _ _ _ _ (by simp), length_leadWords,
    Nat.sub_self, hrest, List.getD_cons_zero]

theorem offset_boundary (h : r.Represents (A ++ B)) : r.uncheckedCharOffset (cols A) = units A := by
  have := h.units_add_lt
  rw [ROW.uncheckedCharOffset, h.word_boundary, offsetOf_of_lt (by omega)]

theorem isTrailer_boundary (h : r.Represents (A ++ B)) :
    r.uncheckedIsTrailer (cols A) = false := by
  have := h.units_add_lt
  rw [ROW.uncheckedIsTrailer, h.word_boundary, isTrailer_of_lt (by omega)]

theorem adjustForward_boundary (h : r.Represents (A ++ B)) :
    r.adjustForward (cols A) = cols A := by
  rw [ROW.adjustForward, h.words_append]
  exact stepForward_boundary (length_leadWords 0 A) h.units_add_lt

theorem adjustBackward_boundary (h : r.Represents (A ++ B)) :
    r.adjustBackward (cols A) = cols A := by
  have hlt := h.units_add_lt
  obtain ⟨rest, hrest⟩ := head_wordsOf hlt
  rw [ROW.adjustBackward, h.words_append, hrest]
  exact stepBackward_boundary (length_leadWords 0 A) (by omega)

end Boundary

section Cut

variable {A B : List (Glyph WChar)} {g : Glyph WChar}

theorem words_cut (h : r.Represents (A ++ g :: B)) (hg : g.width = 2) :
    r.charOffsets = leadWords 0 A ++ units A :: (units A ||| charOffsetsTrailer) ::
      wordsOf (units A + g.text.length) B := by
  have hlt := h.units_add_lt
  rw [units_cons] at hlt
  rw [h.words_append, wordsOf_cons, glyphWords_eq (by omega), hg]
  rfl

theorem units_cut_lt (h : r.Represents (A ++ g :: B)) :
    units A + g.text.length + units B < 0x8000 := by
  have hlt := h.units_add_lt
  rwa [units_cons, ← Nat.add_assoc] at hlt

theorem word_cut (h : r.Represents (A ++ g :: B)) (hg : g.width = 2) :
    r.word (cols A + 1) = units A ||| charOffsetsTrailer := by
  rw [ROW.word, h.words_cut hg, List.getD_append_right _ _ _ _ (by simp), length_leadWords,
    Nat.add_sub_cancel_left]
  rfl

theorem offset_cut (h : r.Represents (A ++ g :: B)) (hg : g.width = 2) :
    r.uncheckedCharOffset (cols A + 1) = units A := by
  have := h.units_cut_lt
  rw [ROW.uncheckedCharOffset, h.word_cut hg, offsetOf_or_trailer (by omega)]

theorem isTrailer_cut (h : r.Represents (A ++ g :: B)) (hg : g.width = 2) :
    r.uncheckedIsTrailer (cols A + 1) = true := by
  have := h.units_cut_lt
  rw [ROW.uncheckedIsTrailer, h.word_cut hg, isTrailer_or_trailer (by omega)]

theorem adjustForward_cut (h : r.Represents (A ++ g :: B)) (hg : g.width = 2) :
    r.adjustForward (cols A + 1) = cols A + 2 := by
  have hlt := h.units_cut_lt
  have hwords := h.words_cut hg
  rw [List.append_cons] at hwords
  rw [ROW.adjustForward, hwords]
  exact stepForward_cut (by simp) (by omega) hlt

theorem adjustBackward_cut (h : r.Represents (A ++ g :: B)) (hg : g.width = 2) :
    r.adjustBackward (cols A + 1) = cols A := by
  have hlt := h.units_cut_lt
  rw [ROW.adjustBackward, h.words_cut hg]
  exact stepBackward_cut (length_leadWords 0 A) (by omega) (by omega)

end Cut

theorem exists_prev (hr : r.Represents gs) {b : ℕ} (hb : 0 < b) (hle : b ≤ r.columnCount) :
    ∃ A g B, gs = A ++ g :: B ∧ (b = cols A + g.width ∨ g.width = 2 ∧ b = cols A + 1) := by
  rw [← hr.count] at hle
  rcases exists_split gs hle with ⟨A, B, rfl, rfl⟩ | ⟨A, g, B, rfl, rfl, hg⟩
  · rcases List.eq_nil_or_concat' A with rfl | ⟨A, g, rfl⟩
    · simp at hb
    · exact ⟨A, g, B, by simp, Or.inl (by simp)⟩
  · exact ⟨A, g, B, rfl, Or.inr ⟨hg, rfl⟩⟩

section Prev

variable {A B : List (Glyph WChar)} {g : Glyph WChar}

theorem adjustBackward_last (hr : r.Represents (A ++ g :: B)) :
    r.adjustBackward (cols A + g.width - 1) = cols A := by
  rcases g.width_eq with hw | hw <;> rw [hw]
  · exact hr.adjustBackward_boundary
  · exact hr.adjustBackward_cut hw

theorem glyph_chars (hr : r.Represents (A ++ g :: B)) :
    (r.chars.drop (units A)).take g.text.length = g.text := by
  rw [List.append_cons] at hr
  have := hr.take_drop_chars
  rwa [units_cons, units_nil, Nat.add_zero, textOf_cons, textOf_nil, List.append_nil] at this

theorem offset_next (hr : r.Represents (A ++ g :: B)) :
    r.uncheckedCharOffset (cols A + g.width) = units A + g.text.length := by
  rw [List.append_cons] at hr
  have := hr.offset_boundary
  simpa using this

theorem adjustForward_next (hr : r.Represents (A ++ g :: B)) :
    r.adjustForward (cols A + g.width) = cols A + g.width := by
  rw [List.append_cons] at hr
  have := hr.adjustForward_boundary
  simpa using this

theorem isTrailer_next (hr : r.Represents (A ++ g :: B)) :
    r.uncheckedIsTrailer (cols A + g.width) = false := by
  rw [List.append_cons] at hr
  have := hr.isTrailer_boundary
  simpa using this

theorem glyph_first (hr : r.Represents (A ++ g :: B)) :
    (r.chars.drop (units A)).take 1 = g.text.take 1 := by
  have := congrArg (List.take 1) hr.glyph_chars
  rwa [List.take_take, Nat.min_eq_left g.length_text_pos] at this

end Prev

end ROW.Represents

end IntelligentTerminal.Buffer
