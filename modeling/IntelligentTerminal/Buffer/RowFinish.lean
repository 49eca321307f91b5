import IntelligentTerminal.Buffer.RowRepresentation

/-!
# Finishing a write

The writers store the words of the new glyphs and leave the rest to `WriteHelper::Finish`: it
moves the text behind the written columns, shifts the words there, stores the new text and
replaces what is left of cut glyphs by spaces. On a row that holds the glyphs `A ++ M ++ C`, of
which `M` is replaced by `N`, the outcome is `A ++ N ++ blanks ++ C`, or an exception when that
text is longer than `UINT16_MAX`.

Source: `src/buffer/out/Row.cpp`, lines 863-943.
-/

namespace IntelligentTerminal.Buffer

open Glyph

/-! ### Moving the text -/

variable {r : ROW}
  {colEndDirty chBegDirty chEndDirty chEndDirtyOld : ℕ} {C : List (Glyph WChar)} {pre : List ℕ}

theorem ROW.charSize_eq {c o : ℕ}
    (hwords : r.charOffsets = pre ++ wordsOf o C) (hpre : pre.length = c)
    (hcount : r.columnCount = c + cols C) : r.charSize = o + units C := by
  rw [charSize, word, hwords, hcount, wordsOf, List.getD_append_right _ _ _ _ (by omega), hpre,
    Nat.add_sub_cancel_left, List.getD_append_right _ _ _ _ (by simp), length_leadWords,
    Nat.sub_self]
  rfl

theorem ROW.resizeChars_spec {t : List WChar}
    {colEndDirty : ℕ} (chBegDirty chEndDirty : ℕ)
    (hwords : r.charOffsets = pre ++ wordsOf t.length C) (hpre : pre.length = colEndDirty)
    (hcount : r.columnCount = colEndDirty + cols C)
    (htext : r.chars.take (t.length + units C) = t ++ textOf C)
    (hlen : t.length + units C ≤ r.chars.length) (hcap : r.chars.length ≤ 0xffff)
    (hold : t.length + units C < 0x8000)
    (hbeg : chBegDirty ≤ t.length) (hbeg' : chBegDirty ≤ chEndDirty)
    (hnew : chEndDirty + units C < 0x8000) :
    ∃ chars, r.resizeChars colEndDirty chBegDirty chEndDirty t.length =
        some { r with chars, charOffsets := pre ++ wordsOf chEndDirty C } ∧
      chars.take chBegDirty = t.take chBegDirty ∧
      (chars.drop chEndDirty).take (units C) = textOf C ∧
      chEndDirty + units C ≤ chars.length ∧ chars.length ≤ 0xffff := by
  have hsize := charSize_eq hwords hpre hcount
  have hmoved : (r.chars.take (t.length + units C)).drop t.length = textOf C := by
    rw [htext, List.drop_left]
  have hprefix : r.chars.take chBegDirty = t.take chBegDirty := by
    have := congrArg (List.take chBegDirty) htext
    rwa [List.take_take, Nat.min_eq_left (by omega), List.take_append_of_le_length hbeg] at this
  have hoffsets : r.charOffsets.take colEndDirty ++ ((r.charOffsets.drop colEndDirty).map
      fun (word : ℕ) => narrow16 (word + ((chEndDirty : ℤ) - t.length))) =
      pre ++ wordsOf chEndDirty C := by
    rw [hwords, List.take_left' hpre, List.drop_left' hpre,
      map_shift_wordsOf (by omega) hold hnew]
  -- the text lies below `chBegDirty` and from `chEndDirty` on, whichever array it is in
  have hchars : ∀ l : List WChar, l.take chBegDirty = t.take chBegDirty →
      chEndDirty + units C ≤ l.length →
      (l.overwrite chEndDirty (textOf C)).take chBegDirty = t.take chBegDirty ∧
      ((l.overwrite chEndDirty (textOf C)).drop chEndDirty).take (units C) = textOf C ∧
      chEndDirty + units C ≤ l.length := by
    intro l hl hle
    rw [List.overwrite_eq _ _ _ hle]
    have htake : (l.take chEndDirty).length = chEndDirty := by
      rw [List.length_take]
      omega
    refine ⟨?_, ?_, hle⟩
    · rw [List.append_assoc, List.take_append_of_le_length (by omega), List.take_take,
        Nat.min_eq_left hbeg', hl]
    · rw [List.append_assoc, List.drop_left' htake, List.take_left' (length_textOf C)]
  unfold resizeChars
  simp only [hoffsets, hsize, hmoved]
  split_ifs with hfit hbig
  · obtain ⟨h₁, h₂, h₃⟩ := hchars r.chars hprefix (by omega)
    exact ⟨_, rfl, h₁, h₂, by rwa [List.length_overwrite], by rwa [List.length_overwrite]⟩
  · exact absurd hbig (by unfold uint16Max; omega)
  · unfold uint16Max at hbig
    have hlen' : (r.chars.take chBegDirty).length = chBegDirty := by
      rw [List.length_take]
      omega
    refine ⟨_, rfl, ?_⟩
    obtain ⟨h₁, h₂, h₃⟩ := hchars
      ((List.replicate (max (t.length + units C + chEndDirty - t.length)
        (min uint16Max (r.chars.length + r.chars.length / 2))) 0).overwrite 0
        (r.chars.take chBegDirty))
      (by rw [List.overwrite_zero (by rw [hlen', List.length_replicate]; omega),
        List.take_left' hlen', hprefix])
      (by rw [List.length_overwrite, List.length_replicate]; omega)
    refine ⟨h₁, h₂, by rwa [List.length_overwrite], ?_⟩
    rw [List.length_overwrite, List.length_overwrite, List.length_replicate]
    unfold uint16Max
    omega

theorem ROW.resizeChars_eq_none
    (hcap : r.chars.length ≤ 0xffff)
    (h : 0xffff < r.charSize + chEndDirty - chEndDirtyOld) :
    r.resizeChars colEndDirty chBegDirty chEndDirty chEndDirtyOld = none := by
  unfold resizeChars
  simp only
  rw [if_neg (by omega), if_pos (by unfold uint16Max; omega)]

theorem ROW.charOffsets_of_resizeChars {r r' : ROW}
    (h : r.resizeChars colEndDirty chBegDirty chEndDirty chEndDirtyOld = some r') :
    r'.charOffsets = r.charOffsets.take colEndDirty ++ (r.charOffsets.drop colEndDirty).map
      fun (word : ℕ) => narrow16 (word + ((chEndDirty : ℤ) - chEndDirtyOld)) := by
  unfold resizeChars at h
  simp only at h
  split_ifs at h
  · rw [← Option.some.inj h]
  · rw [← Option.some.inj h]

/-! ### What is left alone -/

namespace ROW

variable {r r' : ROW}

/-- The row has the attributes and the size of another. -/
structure SameAttributes (r' r : ROW) : Prop where
  attr : r'.attr = r.attr
  columnCount : r'.columnCount = r.columnCount

theorem SameAttributes.trans {r'' : ROW} (h : r''.SameAttributes r') (h' : r'.SameAttributes r) :
    r''.SameAttributes r := ⟨h.attr.trans h'.attr, h.columnCount.trans h'.columnCount⟩

theorem sameAttributes_resizeChars {colEndDirty chBegDirty chEndDirty chEndDirtyOld : ℕ}
    (h : r.resizeChars colEndDirty chBegDirty chEndDirty chEndDirtyOld = some r') :
    r'.SameAttributes r := by
  unfold resizeChars at h
  dsimp only at h
  split_ifs at h
  · rw [← Option.some.inj h]
    exact ⟨rfl, rfl⟩
  · rw [← Option.some.inj h]
    exact ⟨rfl, rfl⟩

theorem sameAttributes_finish {w w' : WriteHelper} (h : w.finish r = some (r', w')) :
    r'.SameAttributes r := by
  unfold WriteHelper.finish at h
  dsimp only at h
  obtain ⟨resized, hresized, heq⟩ := Option.map_eq_some_iff.mp h
  have hsame : resized.SameAttributes r := by
    split_ifs at hresized
    · exact sameAttributes_resizeChars hresized
    · rw [← Option.some.inj hresized]
      exact ⟨rfl, rfl⟩
  rw [← (Prod.mk.inj heq).1]
  exact ⟨hsame.attr, hsame.columnCount⟩

theorem clampedColumnInclusive_le (r : ROW) (v : ℤ) : r.clampedColumnInclusive v ≤ r.columnCount := by
  unfold clampedColumnInclusive clampInt
  split_ifs <;> omega

end ROW

/-! ### Finish -/

theorem WriteHelper.finish_snd {h : WriteHelper} {p : ROW × WriteHelper}
    (hp : h.finish r = some p) : ∃ colEndDirty, p.2 = { h with colEndDirty } := by
  unfold WriteHelper.finish at hp
  simp only [Option.map_eq_some_iff] at hp
  obtain ⟨-, -, rfl⟩ := hp
  exact ⟨_, rfl⟩

/-- What a writer leaves to `WriteHelper::Finish`. The row still has the text of the glyphs
`A ++ M ++ C`, but the columns of `M` have the words `W`. The glyphs `N` replace `M`; their text
is the old text `pre`, the leading spaces and the new text that was consumed. -/
structure WriteHelper.Pending (h : WriteHelper) (r : ROW) (A M C N : List (Glyph WChar))
    (pre : List WChar) (W : List ℕ) : Prop where
  words : r.charOffsets = leadWords 0 A ++ W ++ wordsOf (units A + units M) C
  length_words : W.length = cols M
  text : r.chars.take (units (A ++ M ++ C)) = textOf (A ++ M ++ C)
  count : r.columnCount = cols (A ++ M ++ C)
  count_lt : r.columnCount < 0x8000
  lt_old : units (A ++ M ++ C) < 0x8000
  cap : r.chars.length ≤ 0xffff
  is_pre : pre.IsPrefix (textOf M)
  chBegDirty : h.chBegDirty = units A + pre.length
  chBeg : h.chBeg = h.chBegDirty + h.leadingSpaces
  colBegDirty : h.colBegDirty = cols A
  colEnd : h.colEnd = cols A + cols N
  cols_le : cols N ≤ cols M
  leading_le : h.leadingSpaces ≤ cols N
  colEndDirty : r.adjustForward h.colEndDirty = cols A + cols M
  consumed_le : h.charsConsumed ≤ h.chars.length
  new_text : textOf N =
    pre ++ List.replicate h.leadingSpaces space ++ h.chars.take h.charsConsumed

namespace WriteHelper.Pending

variable {h : WriteHelper} {r : ROW} {A M C N : List (Glyph WChar)} {pre : List WChar}
  {W : List ℕ} {chEndDirty : ℕ}

theorem units_new (hp : h.Pending r A M C N pre W) :
    units N = pre.length + h.leadingSpaces + h.charsConsumed := by
  have := hp.consumed_le
  rw [units, hp.new_text, List.length_append, List.length_append, List.length_replicate,
    List.length_take]
  omega

theorem pre_le (hp : h.Pending r A M C N pre W) : pre.length ≤ units M := hp.is_pre.length_le

theorem units_le (hp : h.Pending r A M C N pre W) :
    units A + units M + units C ≤ r.chars.length := by
  have := congrArg List.length hp.text
  rw [List.length_take, length_textOf, units_append, units_append] at this
  omega

theorem chEndDirty_eq (hp : h.Pending r A M C N pre W) :
    h.chBegDirty + h.charsConsumed + h.leadingSpaces + (cols M - cols N) =
      units A + units N + (cols M - cols N) := by
  rw [hp.units_new, hp.chBegDirty]
  omega

theorem chEndDirtyOld_eq (hp : h.Pending r A M C N pre W) :
    r.uncheckedCharOffset (cols A + cols M) = units A + units M := by
  have hlt := hp.lt_old
  simp only [units_append] at hlt
  have hlt' : units A + units M + units C < 0x8000 := hlt
  obtain ⟨rest, hrest⟩ := head_wordsOf hlt'
  have hlen : (leadWords 0 A ++ W).length = cols A + cols M := by
    rw [List.length_append, length_leadWords, hp.length_words]
  rw [ROW.uncheckedCharOffset, ROW.word, hp.words, List.getD_append_right _ _ _ _ hlen.le, hlen,
    Nat.sub_self, hrest, List.getD_cons_zero, offsetOf_of_lt (by omega)]

theorem resized (hp : h.Pending r A M C N pre W)
    (hlt' : units (A ++ N ++ blanks space (cols M - cols N) ++ C) < 0x8000)
    (hch : chEndDirty = units A + units N + (cols M - cols N)) :
    ∃ chars,
      (if chEndDirty ≠ units A + units M then
        r.resizeChars (cols A + cols M) h.chBegDirty chEndDirty (units A + units M)
      else some r) =
        some { r with
          chars, charOffsets := leadWords 0 A ++ W ++ wordsOf chEndDirty C } ∧
      chars.take h.chBegDirty = textOf A ++ pre ∧
      (chars.drop chEndDirty).take (units C) = textOf C ∧
      chEndDirty + units C ≤ chars.length ∧ chars.length ≤ 0xffff := by
  have hpre := hp.pre_le
  have hlt := hp.lt_old
  have hnew := hp.units_new
  have hbeg := hp.chBegDirty
  have hle := hp.units_le
  simp only [units_append, units_blanks] at hlt hlt'
  have ht : (textOf A ++ textOf M).length = units A + units M := by
    rw [List.length_append, length_textOf, length_textOf]
  have htake : (textOf A ++ textOf M).take h.chBegDirty = textOf A ++ pre := by
    obtain ⟨suf, hsuf⟩ := hp.is_pre
    rw [← hsuf, ← List.append_assoc, List.take_left']
    rw [List.length_append, length_textOf, hbeg]
  have htext : r.chars.take (units A + units M + units C) = textOf A ++ textOf M ++ textOf C := by
    have := hp.text
    rwa [units_append, units_append, textOf_append, textOf_append] at this
  by_cases heq : chEndDirty = units A + units M
  · rw [if_neg (not_not.mpr heq), heq]
    refine ⟨r.chars, ?_, ?_, ?_, hle, hp.cap⟩
    · rw [← hp.words]
    · have := congrArg (List.take h.chBegDirty) htext
      rwa [List.take_take, Nat.min_eq_left (by omega), List.take_append_of_le_length (by omega),
        htake] at this
    · rw [List.take_drop, htext, List.drop_left' ht]
  · rw [if_pos heq]
    have hcount : r.columnCount = cols A + cols M + cols C := by
      rw [hp.count, cols_append, cols_append]
    have hwords := hp.words
    rw [← ht] at hwords htext
    obtain ⟨chars, hres, hfst, hsnd, hlen⟩ := ROW.resizeChars_spec h.chBegDirty chEndDirty
      hwords (by rw [List.length_append, length_leadWords, hp.length_words]) hcount htext (by omega)
      hp.cap (by omega) (by omega) (by omega) (by omega)
    rw [ht] at hres
    exact ⟨chars, hres, hfst.trans htake, hsnd, hlen⟩

theorem chars_eq (hp : h.Pending r A M C N pre W) {chars : List WChar} {k chEndDirty : ℕ}
    (hch : chEndDirty = units A + units N + k)
    (hfst : chars.take h.chBegDirty = textOf A ++ pre)
    (hsnd : (chars.drop chEndDirty).take (units C) = textOf C)
    (hlen : chEndDirty + units C ≤ chars.length) :
    (((chars.overwrite h.chBeg (h.chars.take h.charsConsumed)).overwrite h.chBegDirty
        (List.replicate h.leadingSpaces space)).overwrite (h.chBeg + h.charsConsumed)
        (List.replicate k space)).take (units (A ++ N ++ blanks space k ++ C)) =
      textOf (A ++ N ++ blanks space k ++ C) := by
  have hnew := hp.units_new
  have hbegd := hp.chBegDirty
  have hbeg := hp.chBeg
  have hcons := hp.consumed_le
  have hP : (textOf A ++ pre).length = h.chBegDirty := by
    rw [List.length_append, length_textOf, hbegd]
  -- the five parts of the array
  obtain ⟨X, Y, Z, S, hX, hY, hZ, hsplit⟩ : ∃ X Y Z S : List WChar,
      X.length = h.leadingSpaces ∧ Y.length = h.charsConsumed ∧ Z.length = k ∧
      chars = textOf A ++ pre ++ X ++ Y ++ Z ++ S := by
    refine ⟨(chars.drop h.chBegDirty).take h.leadingSpaces,
      (chars.drop h.chBeg).take h.charsConsumed,
      (chars.drop (h.chBeg + h.charsConsumed)).take k,
      chars.drop chEndDirty, ?_, ?_, ?_, ?_⟩
    · rw [List.length_take, List.length_drop]; omega
    · rw [List.length_take, List.length_drop]; omega
    · rw [List.length_take, List.length_drop]; omega
    · have hadd : ∀ i j, chars.take i ++ (chars.drop i).take j = chars.take (i + j) :=
        fun i j => List.take_add.symm
      rw [← hfst, hadd, ← hbeg, hadd, hadd, show h.chBeg + h.charsConsumed + k = chEndDirty by omega,
        List.take_append_drop]
  have hS : S.take (units C) = textOf C := by
    rwa [hsplit, List.drop_left' (by simp only [List.length_append, hP, hX, hY, hZ] at hP ⊢; omega)]
      at hsnd
  have hY' : (h.chars.take h.charsConsumed).length = Y.length := by
    rw [List.length_take, hY]
    omega
  have hX' : (List.replicate h.leadingSpaces (space)).length = X.length := by
    rw [List.length_replicate, hX]
  have hZ' : (List.replicate k (space)).length = Z.length := by
    rw [List.length_replicate, hZ]
  have h₁ : chars.overwrite h.chBeg (h.chars.take h.charsConsumed) =
      textOf A ++ pre ++ X ++ h.chars.take h.charsConsumed ++ (Z ++ S) := by
    rw [hsplit, List.append_assoc _ Z S]
    exact List.overwrite_middle (by rw [List.length_append, hP, hX, hbeg]) hY'
  have h₂ : (chars.overwrite h.chBeg (h.chars.take h.charsConsumed)).overwrite h.chBegDirty
      (List.replicate h.leadingSpaces space) =
      textOf A ++ pre ++ List.replicate h.leadingSpaces space ++
        (h.chars.take h.charsConsumed ++ (Z ++ S)) := by
    rw [h₁, List.append_assoc (_ ++ X)]
    exact List.overwrite_middle hP.symm hX'
  have h₃ : textOf A ++ pre ++ List.replicate h.leadingSpaces space ++
        (h.chars.take h.charsConsumed ++ (Z ++ S)) = textOf A ++ textOf N ++ Z ++ S := by
    rw [hp.new_text]
    simp only [List.append_assoc]
  rw [h₂, h₃, List.overwrite_middle (by
    rw [List.length_append, length_textOf, length_textOf]; omega) hZ']
  simp only [units_append, units_blanks, textOf_append, textOf_blanks]
  rw [List.take_append, List.take_of_length_le (by
    simp only [List.length_append, length_textOf, List.length_replicate]; omega)]
  simp only [List.length_append, length_textOf, List.length_replicate, Nat.add_sub_cancel_left, hS]

theorem words_eq (hp : h.Pending r A M C N pre W)
    (hwords : (W.overwrite 0 (iotaN h.leadingSpaces h.chBegDirty)).take (cols N) =
      leadWords (units A) N)
    (hlt : units (A ++ N ++ blanks space (cols M - cols N) ++ C) < 0x8000)
    (hch : chEndDirty = units A + units N + (cols M - cols N)) :
    ((leadWords 0 A ++ W ++ wordsOf chEndDirty C).overwrite h.colBegDirty
        (iotaN h.leadingSpaces h.chBegDirty)).overwrite h.colEnd
        (iotaN (cols M - cols N) (narrow16 (h.chBeg + h.charsConsumed))) =
      wordsOf 0 (A ++ N ++ blanks space (cols M - cols N) ++ C) := by
  have hle := hp.cols_le
  have hlead := hp.leading_le
  simp only [units_append, units_blanks] at hlt
  have hend : h.chBeg + h.charsConsumed = units A + units N := by
    rw [hp.chBeg, hp.chBegDirty, hp.units_new]
    omega
  have hspaces : iotaN (cols M - cols N) (narrow16 (h.chBeg + h.charsConsumed)) =
      leadWords (units A + units N) (blanks space (cols M - cols N)) := by
    rw [narrow16_add (by omega), hend, leadWords_blanks]
  set L := iotaN h.leadingSpaces h.chBegDirty with hL
  have hLlen : L.length ≤ W.length := by
    rw [hL, length_iotaN, hp.length_words]
    omega
  have hW : W.overwrite 0 L = leadWords (units A) N ++ (W.overwrite 0 L).drop (cols N) := by
    rw [← hwords, List.take_append_drop]
  have hover : (leadWords 0 A ++ W ++ wordsOf chEndDirty C).overwrite h.colBegDirty L =
      leadWords 0 A ++ leadWords (units A) N ++ (W.overwrite 0 L).drop (cols N) ++
        wordsOf chEndDirty C := by
    rw [List.append_assoc _ W, List.overwrite_append (by rw [length_leadWords, hp.colBegDirty])
      (by rw [List.length_append]; omega), List.drop_append_of_le_length hLlen,
      List.append_assoc _ L, ← List.append_assoc L, ← List.overwrite_zero hLlen]
    conv_lhs => rw [hW]
    simp only [List.append_assoc]
  rw [hover, hspaces, List.overwrite_middle (by
      rw [List.length_append, length_leadWords, length_leadWords, hp.colEnd])
    (by rw [length_leadWords, cols_blanks, List.length_drop, List.length_overwrite,
      hp.length_words])]
  rw [wordsOf_append, leadWords_append, leadWords_append, hch]
  simp only [units_append, units_blanks, Nat.zero_add]

theorem finish_spec (hp : h.Pending r A M C N pre W)
    (hwords : (W.overwrite 0 (iotaN h.leadingSpaces h.chBegDirty)).take (cols N) =
      leadWords (units A) N)
    (hlt : units (A ++ N ++ blanks space (cols M - cols N) ++ C) < 0x8000) :
    ∃ r', h.finish r = some (r', { h with colEndDirty := cols A + cols M }) ∧
      r'.Represents (A ++ N ++ blanks space (cols M - cols N) ++ C) ∧
      r' = { r with
        chars := r'.chars
        charOffsets := r'.charOffsets
        doubleBytePadded :=
          if cols A + cols M = r.columnCount then decide (cols A + cols N < r.columnCount)
          else r.doubleBytePadded } := by
  obtain ⟨chars, hres, hfst, hsnd, hlen, hcap⟩ := hp.resized hlt rfl
  have hk : cols A + cols M - h.colEnd = cols M - cols N := by
    have := hp.colEnd
    omega
  unfold finish
  simp only [hp.colEndDirty, hp.chEndDirtyOld_eq, hk, hp.chEndDirty_eq, hres, Option.map_some,
    hp.words_eq hwords hlt rfl]
  refine ⟨_, rfl, ⟨rfl, hp.chars_eq rfl hfst hsnd hlen, ?_, hp.count_lt, hlt, ?_⟩,
    by simp only [hp.colEnd]⟩
  · have := hp.cols_le
    rw [hp.count]
    simp only [cols_append, cols_blanks]
    omega
  · rwa [List.length_overwrite, List.length_overwrite, List.length_overwrite]

theorem finish_eq_none (hp : h.Pending r A M C N pre W)
    (hlt : 0xffff < units (A ++ N ++ blanks space (cols M - cols N) ++ C)) :
    h.finish r = none := by
  have hk : cols A + cols M - h.colEnd = cols M - cols N := by
    have := hp.colEnd
    omega
  have hsize : r.charSize = units A + units M + units C :=
    ROW.charSize_eq hp.words (by rw [List.length_append, length_leadWords, hp.length_words])
      (by rw [hp.count, cols_append, cols_append])
  have hold := hp.lt_old
  simp only [units_append, units_blanks] at hlt hold
  unfold finish
  simp only [hp.colEndDirty, hp.chEndDirtyOld_eq, hk, hp.chEndDirty_eq]
  rw [if_pos (by omega), ROW.resizeChars_eq_none hp.cap (by rw [hsize]; omega), Option.map_none]

theorem finish_isTrailer (hp : h.Pending r A M C N pre W)
    (hlt : 0x8000 ≤ units (A ++ N ++ blanks space (cols M - cols N) ++ C))
    {p : ROW × WriteHelper} (hfin : h.finish r = some p) :
    p.1.uncheckedIsTrailer r.columnCount = true := by
  have hle : units (A ++ N ++ blanks space (cols M - cols N) ++ C) ≤ 0xffff := by
    by_contra hgt
    rw [hp.finish_eq_none (by omega)] at hfin
    cases hfin
  have hk : cols A + cols M - h.colEnd = cols M - cols N := by
    have := hp.colEnd
    omega
  have hcount : r.columnCount = cols A + cols M + cols C := by
    rw [hp.count, cols_append, cols_append]
  have hold := hp.lt_old
  have hcols := hp.cols_le
  have hlead := hp.leading_le
  have hcolBeg := hp.colBegDirty
  have hcolEnd := hp.colEnd
  simp only [units_append, units_blanks] at hlt hle hold
  unfold finish at hfin
  simp only [hp.colEndDirty, hp.chEndDirtyOld_eq, hk, hp.chEndDirty_eq] at hfin
  rw [if_pos (by omega), Option.map_eq_some_iff] at hfin
  obtain ⟨r', hres, rfl⟩ := hfin
  have hpre : (leadWords 0 A ++ W).length = cols A + cols M := by
    rw [List.length_append, length_leadWords, hp.length_words]
  have hwords := ROW.charOffsets_of_resizeChars hres
  rw [hp.words, List.take_left' hpre, List.drop_left' hpre] at hwords
  -- the last word is behind everything that the writer and `Finish` store
  have hlast : (((r'.charOffsets.overwrite h.colBegDirty
      (iotaN h.leadingSpaces h.chBegDirty)).overwrite h.colEnd (iotaN (cols M - cols N)
        (narrow16 (h.chBeg + h.charsConsumed)))).drop r.columnCount) =
      [units A + units N + (cols M - cols N) + units C] := by
    rw [List.drop_overwrite (by rw [length_iotaN]; omega),
      List.drop_overwrite (by rw [length_iotaN]; omega), hwords, hcount, ← hpre,
      List.drop_length_add_append, wordsOf, List.map_append,
      List.drop_left' (by rw [List.length_map, length_leadWords])]
    simp only [List.map_cons, List.map_nil, List.cons.injEq, and_true]
    rw [show ((units A + units M + units C : ℕ) : ℤ) +
        ((units A + units N + (cols M - cols N) : ℕ) - (units A + units M : ℕ)) =
        (units A + units N + (cols M - cols N) + units C : ℕ) by omega, narrow16_natCast (by omega)]
  have hword : ∀ (l : List ℕ) (v : ℕ), l.drop r.columnCount = [v] →
      l.getD r.columnCount 0 = v := by
    intro l v hl
    rw [List.getD_eq_getElem?_getD, ← List.head?_drop, hl]
    rfl
  rw [ROW.uncheckedIsTrailer, ROW.word, hword _ _ hlast, isTrailer_of_ge (by omega) (by omega)]

end WriteHelper.Pending

end IntelligentTerminal.Buffer
