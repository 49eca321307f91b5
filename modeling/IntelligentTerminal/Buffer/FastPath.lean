import IntelligentTerminal.Buffer.ReplaceText
import Mathlib

/-!
# The ASCII fast path of ReplaceText

`WriteHelper::ReplaceText` writes units of ASCII one by one and leaves the rest of the text to
`_replaceTextUnicode`, which backs up one unit, because what follows may continue it. Where the fast
path runs out of columns it looks at nothing that follows, and it never tries its first unit with the
glyph in front of it. A text that is cut into clusters from its first unit on has the same effect
exactly if nothing is missed at either end.

Source: `src/buffer/out/Row.cpp`, lines 644-763 and 863-943.
-/

namespace IntelligentTerminal.Buffer

open Glyph

/-- `ROW::ReplaceText`, with `_replaceTextUnicode` called for the whole text. -/
def ROW.replaceTextByGraphemes (r : ROW) (cwd : CodepointWidthDetector) (state : RowWriteState) :
    Except ROW (ROW × RowWriteState) :=
  let h := WriteHelper.new r state.columnBegin state.columnLimit state.text
  if !h.isValid then
    .ok (r, { state with
      columnEnd := h.colBeg, columnBeginDirty := h.colBeg, columnEndDirty := h.colBeg })
  else
    let (r', h) := h.replaceTextUnicode cwd r 0
    match h.finish r' with
    | none => .error r.thrown
    | some (r', h) =>
      let text := state.text.drop h.charsConsumed
      .ok (r', { state with
        text
        columnEnd := if text.isEmpty then h.colEnd else h.colLimit
        columnBeginDirty := h.colBegDirty
        columnEndDirty := h.colEndDirty })

/-- A text that starts with ASCII does not continue the glyph in front of it, and where the fast path
runs out of columns a cluster ends. -/
def FastPathComplete (cwd : CodepointWidthDetector) (gs : List (Glyph WChar)) (b l : ℕ)
    (text : List WChar) : Prop :=
  b < l → text.head?.any isAscii = true →
    (b = 0 ∨ (cwd.join (prevGlyph gs b).chars text).1 = 0) ∧
      ((∀ c ∈ text.take (l - b), isAscii c) → l - b < text.length →
        (cwd.next (text.drop (l - b - 1))).1 = 1)

/-! ### Words that are about to be overwritten -/

section Finish

variable {h : WriteHelper} {r : ROW} {P X Y C : List ℕ}

theorem overwrite_congr {D seg tr : List ℕ} {i : ℕ} (hlength : X.length = Y.length)
    (hseg : i + seg.length ≤ P.length) (htr : X.length ≤ tr.length)
    (hfits : tr.length ≤ X.length + D.length) :
    ((P ++ X ++ D).overwrite i seg).overwrite P.length tr =
      ((P ++ Y ++ D).overwrite i seg).overwrite P.length tr := by
  have hone : ∀ Z : List ℕ, Z.length = X.length →
      ((P ++ Z ++ D).overwrite i seg).overwrite P.length tr =
        P.overwrite i seg ++ tr ++ D.drop (tr.length - X.length) := by
    intro Z hZ
    have hfront : (P ++ (Z ++ D)).overwrite i seg = P.overwrite i seg ++ (Z ++ D) :=
      List.overwrite_inner (a := []) (Nat.zero_add i).symm hseg
    rw [← List.append_assoc] at hfront
    rw [hfront, List.append_assoc, List.overwrite_append (by rw [List.length_overwrite])
      (by rw [List.length_append]; omega), List.drop_append, List.drop_eq_nil_of_le (by omega),
      List.nil_append, hZ, List.append_assoc]
  rw [hone X rfl, hone Y hlength.symm]

theorem stepForward_append (hlength : X.length = Y.length) :
    stepForward (P ++ X ++ C) (P.length + X.length) =
      stepForward (P ++ Y ++ C) (P.length + X.length) := by
  have hone : ∀ Z : List ℕ, Z.length = X.length →
      (P ++ Z ++ C).drop (P.length + X.length) = C := fun Z hZ =>
    List.drop_left' (by rw [List.length_append, hZ])
  rw [stepForward, stepForward, hone X rfl, hone Y hlength.symm]

theorem getD_append (hlength : X.length = Y.length) {col : ℕ} (hcol : P.length + X.length ≤ col) :
    (P ++ X ++ C).getD col 0 = (P ++ Y ++ C).getD col 0 := by
  have hone : ∀ Z : List ℕ, Z.length = X.length →
      (P ++ Z ++ C).getD col 0 = C.getD (col - (P.length + X.length)) 0 := by
    intro Z hZ
    have hle : (P ++ Z).length = P.length + X.length := by rw [List.length_append, hZ]
    rw [List.getD_append_right _ _ _ _ (by omega), hle]
  rw [hone X rfl, hone Y hlength.symm]

theorem resizeChars_append (hlength : X.length = Y.length) {colEndDirty : ℕ}
    (hdirty : P.length + X.length ≤ colEndDirty) (hcount : P.length + X.length ≤ r.columnCount)
    (chBegDirty chEndDirty chEndDirtyOld : ℕ) :
    ∃ (chars : Option (List WChar)) (D : List ℕ), D.length = C.length ∧
      ({ r with charOffsets := P ++ X ++ C } : ROW).resizeChars colEndDirty chBegDirty chEndDirty
          chEndDirtyOld = chars.map (fun chars => { r with chars, charOffsets := P ++ X ++ D }) ∧
      ({ r with charOffsets := P ++ Y ++ C } : ROW).resizeChars colEndDirty chBegDirty chEndDirty
          chEndDirtyOld = chars.map (fun chars => { r with chars, charOffsets := P ++ Y ++ D }) := by
  obtain ⟨t, rfl⟩ := Nat.exists_eq_add_of_le hdirty
  obtain ⟨f, hf⟩ : ∃ f : ℕ → ℕ, f = fun (word : ℕ) => narrow16 (word + ((chEndDirty : ℤ) - chEndDirtyOld)) :=
      ⟨_, rfl⟩
  have hwords : ∀ Z : List ℕ, Z.length = X.length →
      (P ++ Z ++ C).take (P.length + X.length + t) ++
        ((P ++ Z ++ C).drop (P.length + X.length + t)).map f =
      P ++ Z ++ (C.take t ++ (C.drop t).map f) := by
    intro Z hZ
    have hle : (P ++ Z).length = P.length + X.length := by rw [List.length_append, hZ]
    rw [← hle, List.take_length_add_append, List.drop_length_add_append, List.append_assoc]
  have hsize : ({ r with charOffsets := P ++ Y ++ C } : ROW).charSize =
      ({ r with charOffsets := P ++ X ++ C } : ROW).charSize := (getD_append hlength hcount).symm
  refine ⟨(({ r with charOffsets := P ++ X ++ C } : ROW).resizeChars (P.length + X.length + t)
    chBegDirty chEndDirty chEndDirtyOld).map ROW.chars, C.take t ++ (C.drop t).map f, ?_, ?_, ?_⟩
  · rw [List.length_append, List.length_map, ← List.length_append, List.take_append_drop]
  · unfold ROW.resizeChars
    simp only [← hf, hwords X rfl]
    split_ifs <;> rfl
  · unfold ROW.resizeChars
    simp only [← hf, hwords Y hlength.symm, hsize]
    split_ifs <;> rfl

theorem WriteHelper.finish_congr (hlength : X.length = Y.length) (hcolEnd : h.colEnd = P.length)
    (hdirty : h.colEndDirty = P.length + X.length)
    (hbegin : h.colBegDirty + h.leadingSpaces ≤ P.length)
    (hcount : P.length + X.length ≤ r.columnCount) :
    h.finish { r with charOffsets := P ++ X ++ C } =
      h.finish { r with charOffsets := P ++ Y ++ C } := by
  have hforward : ({ r with charOffsets := P ++ Y ++ C } : ROW).adjustForward h.colEndDirty =
      ({ r with charOffsets := P ++ X ++ C } : ROW).adjustForward h.colEndDirty := by
    rw [ROW.adjustForward, ROW.adjustForward, hdirty]
    exact (stepForward_append hlength).symm
  obtain ⟨t, ht, htC⟩ : ∃ t, ({ r with charOffsets := P ++ X ++ C } : ROW).adjustForward
      h.colEndDirty = P.length + X.length + t ∧ t ≤ C.length := by
    refine ⟨(((P ++ X ++ C).drop h.colEndDirty).takeWhile isTrailer).length, ?_, ?_⟩
    · rw [ROW.adjustForward, stepForward, hdirty]
    · refine (List.takeWhile_prefix _).length_le.trans ?_
      rw [List.length_drop, hdirty]
      simp only [List.length_append]
      omega
  have hoffset : ({ r with charOffsets := P ++ Y ++ C } : ROW).uncheckedCharOffset
      (P.length + X.length + t) =
      ({ r with charOffsets := P ++ X ++ C } : ROW).uncheckedCharOffset (P.length + X.length + t) :=
    congrArg offsetOf (getD_append hlength (Nat.le_add_right _ t)).symm
  have hover : ∀ (D : List ℕ) (ch : ℕ), D.length = C.length →
      ((P ++ Y ++ D).overwrite h.colBegDirty (iotaN h.leadingSpaces h.chBegDirty)).overwrite h.colEnd
          (iotaN (P.length + X.length + t - h.colEnd) ch) =
        ((P ++ X ++ D).overwrite h.colBegDirty (iotaN h.leadingSpaces h.chBegDirty)).overwrite h.colEnd
          (iotaN (P.length + X.length + t - h.colEnd) ch) := by
    intro D ch hD
    rw [hcolEnd]
    exact (overwrite_congr hlength (by rw [length_iotaN]; exact hbegin)
      (by rw [length_iotaN]; omega) (by rw [length_iotaN]; omega)).symm
  unfold WriteHelper.finish
  simp only [hforward, ht, hoffset]
  generalize h.chBegDirty + h.charsConsumed + h.leadingSpaces +
    (P.length + X.length + t - h.colEnd) = chEndDirty
  generalize ({ r with charOffsets := P ++ X ++ C } : ROW).uncheckedCharOffset
    (P.length + X.length + t) = chEndDirtyOld
  by_cases hresize : chEndDirty ≠ chEndDirtyOld
  · obtain ⟨chars, D, hD, hX, hY⟩ := resizeChars_append (C := C) hlength (Nat.le_add_right _ t) hcount
      h.chBegDirty chEndDirty chEndDirtyOld
    rw [if_pos hresize, if_pos hresize, hX, hY, Option.map_map, Option.map_map]
    congr 1
    funext chars
    simp only [Function.comp_apply, hover D _ hD]
  · rw [if_neg hresize, if_neg hresize, Option.map_some, Option.map_some]
    simp only [hover C _ rfl]

end Finish

/-! ### A complete fast path -/

section Complete

variable {r : ROW} {gs : List (Glyph WChar)}

theorem finish_overwrite_congr {h : WriteHelper} {lead seg : List ℕ}
    (hlead : seg.take lead.length = lead) (hcolEnd : h.colEnd = h.colBeg + lead.length)
    (hseg : h.colBeg + seg.length ≤ h.colEndDirty) (hend : h.colEnd ≤ h.colEndDirty)
    (hbegin : h.colBegDirty + h.leadingSpaces ≤ h.colBeg) (hdirty : h.colEndDirty ≤ r.columnCount)
    (hwords : r.columnCount < r.charOffsets.length) :
    h.finish { r with charOffsets := r.charOffsets.overwrite h.colBeg seg } =
      h.finish { r with charOffsets := r.charOffsets.overwrite h.colBeg lead } := by
  have hsegLength : lead.length ≤ seg.length := by
    have hlength := congrArg List.length hlead
    rw [List.length_take] at hlength
    omega
  have hsplit : ∀ seg : List ℕ, seg.take lead.length = lead → lead.length ≤ seg.length →
      h.colBeg + seg.length ≤ h.colEndDirty → ∃ X, X.length = h.colEndDirty - h.colEnd ∧
        r.charOffsets.overwrite h.colBeg seg =
          r.charOffsets.take h.colBeg ++ lead ++ X ++ r.charOffsets.drop h.colEndDirty := by
    intro seg htake hle hfits
    refine ⟨seg.drop lead.length ++
      (r.charOffsets.drop (h.colBeg + seg.length)).take (h.colEndDirty - (h.colBeg + seg.length)), ?_, ?_⟩
    · rw [List.length_append, List.length_take, List.length_drop, List.length_drop]
      omega
    · have hsplitSeg : lead ++ seg.drop lead.length = seg := by
        conv_rhs => rw [← List.take_append_drop lead.length seg, htake]
      have hrest : (r.charOffsets.drop (h.colBeg + seg.length)).take
            (h.colEndDirty - (h.colBeg + seg.length)) ++ r.charOffsets.drop h.colEndDirty =
          r.charOffsets.drop (h.colBeg + seg.length) := by
        have htail := List.take_append_drop (h.colEndDirty - (h.colBeg + seg.length))
          (r.charOffsets.drop (h.colBeg + seg.length))
        rwa [List.drop_drop, Nat.add_sub_cancel' hfits] at htail
      calc r.charOffsets.overwrite h.colBeg seg
          = r.charOffsets.take h.colBeg ++ seg ++ r.charOffsets.drop (h.colBeg + seg.length) :=
            List.overwrite_eq _ _ _ (by omega)
        _ = r.charOffsets.take h.colBeg ++ (lead ++ seg.drop lead.length) ++
              ((r.charOffsets.drop (h.colBeg + seg.length)).take
                (h.colEndDirty - (h.colBeg + seg.length)) ++ r.charOffsets.drop h.colEndDirty) := by
            rw [hsplitSeg, hrest]
        _ = _ := by simp only [List.append_assoc]
  obtain ⟨X, hX, hsegWords⟩ := hsplit seg hlead hsegLength hseg
  obtain ⟨Y, hY, hleadWords⟩ := hsplit lead (List.take_length ..) le_rfl (by omega)
  rw [hsegWords, hleadWords]
  have hlength : (r.charOffsets.take h.colBeg ++ lead).length = h.colEnd := by
    rw [List.length_append, List.length_take]
    omega
  exact WriteHelper.finish_congr (by rw [hX, hY]) hlength.symm (by rw [hlength, hX]; omega)
    (by rw [hlength]; omega) (by rw [hlength, hX]; omega)

theorem exists_replaceText_eq (hr : r.Represents gs) (cwd : CodepointWidthDetector)
    (columnBegin columnLimit : ℤ) {text : List WChar} (htext : text ≠ [])
    (hlt : clampColumn (cols gs) columnBegin < clampColumn (cols gs) columnLimit)
    (hcomplete : FastPathComplete cwd gs (clampColumn (cols gs) columnBegin)
      (clampColumn (cols gs) columnLimit) text) :
    ∃ fast whole h, (WriteHelper.new r columnBegin columnLimit text).replaceText cwd r = (fast, h) ∧
      (WriteHelper.new r columnBegin columnLimit text).replaceTextUnicode cwd r 0 = (whole, h) ∧
      h.finish fast = h.finish whole := by
  cases hascii : text.head?.any isAscii with
  | false =>
    have hall : text.head?.all isAscii = false := by
      obtain ⟨c, t, rfl⟩ := List.exists_cons_of_ne_nil htext
      simpa using hascii
    rw [hr.replaceText_eq_unicode cwd columnBegin columnLimit hlt hall]
    exact ⟨_, _, _, rfl, rfl, rfl⟩
  | true =>
    obtain ⟨hjoin, hend⟩ := hcomplete hlt hascii
    have hbeg : (WriteHelper.new r columnBegin columnLimit text).colBeg =
        clampColumn (cols gs) columnBegin := hr.clampedColumnInclusive_eq columnBegin
    have hlim : (WriteHelper.new r columnBegin columnLimit text).colLimit =
        clampColumn (cols gs) columnLimit := hr.clampedColumnInclusive_eq columnLimit
    have hlimLe := clampColumn_le (cols gs) columnLimit
    have hcolsLe := hr.cols_le
    have hpositive : WriteHelper.asciiCount (clampColumn (cols gs) columnLimit -
        clampColumn (cols gs) columnBegin) text ≠ 0 := by
      rw [ne_eq, asciiCount_eq_zero_iff (by omega) htext]
      obtain ⟨c, t, rfl⟩ := List.exists_cons_of_ne_nil htext
      simpa using hascii
    generalize hb : clampColumn (cols gs) columnBegin = b at *
    generalize hl : clampColumn (cols gs) columnLimit = l at *
    obtain ⟨fit, hfit⟩ : ∃ fit, fit = fitting (l - b) (cwd.clusters text) := ⟨_, rfl⟩
    obtain ⟨hglyphs, hstop⟩ := textGlyphs_eq_fitting cwd (by omega : 0 < l - b) hend
    rw [← hfit] at hglyphs hstop
    have hwhole := hr.replaceTextUnicode_of_not_joined cwd htext (by rw [hb]; exact hjoin)
      (h := WriteHelper.new r columnBegin columnLimit text) rfl
    have hcolsFit : cols fit ≤ l - b := hfit ▸ cols_fitting_le _ _
    have hfitNew : fit = fitting ((WriteHelper.new r columnBegin columnLimit text).colLimit -
        (WriteHelper.new r columnBegin columnLimit text).colEnd)
        (cwd.clusters (WriteHelper.new r columnBegin columnLimit text).chars) := by
      change fit = fitting (_ - (WriteHelper.new r columnBegin columnLimit text).colBeg) _
      rw [hlim, hbeg]
      exact hfit
    rw [WriteHelper.replaceClusters_eq cwd (by rw [hlim]; omega)
      (by change (WriteHelper.new r columnBegin columnLimit text).colBeg ≤ _; omega) hfitNew] at hwhole
    obtain ⟨stop, hstopEq⟩ : ∃ stop, stop =
        if (textGlyphs cwd (l - b) text).2 then l else b + cols (textGlyphs cwd (l - b) text).1 :=
      ⟨_, rfl⟩
    have hstopWhole : stop = if fit = cwd.clusters text then b + cols fit else l := by
      rw [hglyphs] at hstop hstopEq
      by_cases hall : fit = cwd.clusters text
      · rw [if_pos hall, ← hall] at hstop
        rw [if_pos hall, hstopEq]
        split_ifs at hstop ⊢ <;> omega
      · rw [if_neg hall] at hstop
        rw [if_neg hall, hstopEq]
        split_ifs at hstop ⊢ <;> omega
    have hstopNew : stop = if (textGlyphs cwd (l - b) text).2
        then (WriteHelper.new r columnBegin columnLimit text).colLimit
        else (WriteHelper.new r columnBegin columnLimit text).colBeg +
          cols (textGlyphs cwd (l - b) text).1 := by
      rw [hbeg, hlim]
      exact hstopEq
    obtain ⟨seg, hfast, hseg, hsegLe, hcolsLeStop, hstopLe⟩ := WriteHelper.replaceText_of_not_joins cwd
      (h := WriteHelper.new r columnBegin columnLimit text) (r := r) rfl (by rw [hbeg, hlim]; exact hlt)
      (by rw [hlim]; omega) (fun hzero => absurd hzero (by rw [hbeg, hlim]; exact hpositive))
      (T := textGlyphs cwd (l - b) text) (by rw [hbeg, hlim]; rfl) hstopNew
    rw [hglyphs] at hfast hseg hcolsLeStop
    have hwhole' : (WriteHelper.new r columnBegin columnLimit text).replaceTextUnicode cwd r 0 =
        ({ r with
            charOffsets := (r.charOffsets.overwrite
              (WriteHelper.new r columnBegin columnLimit text).colBeg
              (leadWords (WriteHelper.new r columnBegin columnLimit text).chBeg fit)) },
          { WriteHelper.new r columnBegin columnLimit text with
            colEnd := (WriteHelper.new r columnBegin columnLimit text).colBeg + cols fit
            colEndDirty := stop
            charsConsumed := units fit }) := by
      have hdirty : (if fit = cwd.clusters (WriteHelper.new r columnBegin columnLimit text).chars then
            (WriteHelper.new r columnBegin columnLimit text).colEnd + cols fit
          else (WriteHelper.new r columnBegin columnLimit text).colLimit) = stop := by
        change (if fit = cwd.clusters text then
          (WriteHelper.new r columnBegin columnLimit text).colBeg + cols fit else _) = stop
        rw [hbeg, hlim, hstopWhole]
      rw [hwhole, hdirty, Nat.add_sub_cancel_left]
      rfl
    refine ⟨_, _, _, hfast, hwhole', ?_⟩
    have hbackward : r.adjustBackward b ≤ b := Nat.sub_le _ _
    refine finish_overwrite_congr (by rw [length_leadWords]; exact hseg) (by rw [length_leadWords])
      hsegLe hcolsLeStop ?_ ?_ ?_
    · change r.adjustBackward (WriteHelper.new r columnBegin columnLimit text).colBeg +
        ((WriteHelper.new r columnBegin columnLimit text).colBeg -
          r.adjustBackward (WriteHelper.new r columnBegin columnLimit text).colBeg) ≤ _
      rw [hbeg]
      omega
    · rw [hlim] at hstopLe
      rw [← hr.count]
      exact hstopLe.trans hlimLe
    · rw [hr.words, wordsOf, List.length_append, length_leadWords, hr.count]
      exact Nat.lt_succ_self _

theorem replaceText_eq_graphemes (hr : r.Represents gs) (cwd : CodepointWidthDetector)
    (state : RowWriteState)
    (hcomplete : FastPathComplete cwd gs (clampColumn (cols gs) state.columnBegin)
      (clampColumn (cols gs) state.columnLimit) state.text) :
    r.replaceText cwd state = r.replaceTextByGraphemes cwd state := by
  have hvalid := hr.isValid_iff state.columnBegin state.columnLimit state.text
  unfold ROW.replaceText ROW.replaceTextByGraphemes
  by_cases hv : (WriteHelper.new r state.columnBegin state.columnLimit state.text).isValid = true
  · obtain ⟨hlt, htext⟩ := hvalid.mp hv
    obtain ⟨fast, whole, h, hfast, hwhole, hfinish⟩ :=
      exists_replaceText_eq hr cwd state.columnBegin state.columnLimit htext hlt hcomplete
    cases hfin : h.finish whole <;> rw [hfin] at hfinish <;>
      simp only [hv, Bool.not_true, Bool.false_eq_true, if_false, hfast, hwhole, hfinish, hfin]
  · rw [Bool.not_eq_true] at hv
    simp only [hv, Bool.not_false, if_true]

end Complete

/-! ### What an incomplete fast path misses -/

section Incomplete

variable {r : ROW} {gs : List (Glyph WChar)}
  {cwd : CodepointWidthDetector} {written r₁ : ROW} {text : List WChar}
  {state s₁ s₂ : RowWriteState} {h : WriteHelper} {r₁ r₂ : ROW}

theorem ROW.FinishesAs.eq_of_represents {h h₁ : WriteHelper}
    {gs₁ : List (Glyph WChar)} (hfin : r.FinishesAs written h gs) (hok : h.finish written = some (r₁, h₁))
    (hcount : written.columnCount = r.columnCount) (hrep : r₁.Represents gs₁) : gs₁ = gs := by
  rcases Nat.lt_or_ge (units gs) 0x8000 with hlt | hge
  · obtain ⟨r', hok', hrep', -⟩ := hfin.ok hlt
    rw [hok] at hok'
    obtain ⟨rfl, -⟩ := Prod.mk.inj (Option.some.inj hok')
    exact hrep.unique hrep'
  · have htrailer := hfin.overflows hge _ hok
    have hend := ROW.Represents.isTrailer_boundary (r := r₁) (A := gs₁) (B := [])
      (by rwa [List.append_nil])
    rw [hrep.count, (ROW.sameAttributes_finish hok).columnCount, hcount] at hend
    rw [hend] at htrailer
    cases htrailer

theorem replaceText_report {state s₁ : RowWriteState}
    (hv : (WriteHelper.new r state.columnBegin state.columnLimit state.text).isValid = true)
    (hrep : (WriteHelper.new r state.columnBegin state.columnLimit state.text).replaceText cwd r =
      (written, h))
    (hok : r.replaceText cwd state = .ok (r₁, s₁)) :
    (∃ h₁, h.finish written = some (r₁, h₁)) ∧ s₁.text = state.text.drop h.charsConsumed ∧
      s₁.columnBeginDirty = h.colBegDirty := by
  unfold ROW.replaceText at hok
  simp only [hv, Bool.not_true, Bool.false_eq_true, if_false, hrep] at hok
  cases hfin : h.finish written with
  | none =>
    rw [hfin] at hok
    cases hok
  | some p =>
    obtain ⟨colEndDirty, hp⟩ := WriteHelper.finish_snd hfin
    rw [hfin] at hok
    simp only [Except.ok.injEq, Prod.mk.injEq] at hok
    obtain ⟨rfl, rfl⟩ := hok
    exact ⟨⟨_, rfl⟩, by rw [hp], by rw [hp]⟩

theorem replaceTextByGraphemes_report {state s₁ : RowWriteState}
    (hv : (WriteHelper.new r state.columnBegin state.columnLimit state.text).isValid = true)
    (hrep : (WriteHelper.new r state.columnBegin state.columnLimit state.text).replaceTextUnicode cwd r
      0 = (written, h))
    (hok : r.replaceTextByGraphemes cwd state = .ok (r₁, s₁)) :
    (∃ h₁, h.finish written = some (r₁, h₁)) ∧ s₁.text = state.text.drop h.charsConsumed ∧
      s₁.columnBeginDirty = h.colBegDirty := by
  unfold ROW.replaceTextByGraphemes at hok
  simp only [hv, Bool.not_true, Bool.false_eq_true, if_false, hrep] at hok
  cases hfin : h.finish written with
  | none =>
    rw [hfin] at hok
    cases hok
  | some p =>
    obtain ⟨colEndDirty, hp⟩ := WriteHelper.finish_snd hfin
    rw [hfin] at hok
    simp only [Except.ok.injEq, Prod.mk.injEq] at hok
    obtain ⟨rfl, rfl⟩ := hok
    exact ⟨⟨_, rfl⟩, by rw [hp], by rw [hp]⟩

theorem units_fitting_ne (cwd : CodepointWidthDetector) {k : ℕ} (hk : 0 < k)
    (hascii : ∀ c ∈ text.take k, isAscii c) (hlength : k < text.length)
    (hnext : (cwd.next (text.drop (k - 1))).1 ≠ 1) :
    units (fitting k (cwd.clusters text)) ≠ k := by
  have hlast : text.drop (k - 1) ≠ [] := by
    rw [ne_eq, List.drop_eq_nil_iff]
    omega
  have hpos := cwd.next_len_pos _ hlast
  have htake : (text.take (k - 1)).length = k - 1 := by
    rw [List.length_take]
    omega
  rw [clusters_take_ascii cwd hascii hlength.le, cwd.clusters_eq_cons hlast,
    fitting_append (by rw [cols_map_single]; omega), units_append, units_map_single, cols_map_single,
    htake, fitting]
  split_ifs with hfit
  · have hnone : k - (k - 1) - (cwd.cluster (text.drop (k - 1)) hlast).width = 0 := by
      have hwidth := (cwd.cluster (text.drop (k - 1)) hlast).width_pos
      omega
    rw [hnone, fitting_zero, units_cons, cwd.length_text_cluster, units_nil]
    omega
  · rw [units_nil]
    omega

theorem joins_of_ascii {gs : List (Glyph WChar)} {b : ℕ} (hfirst : text.head?.any isAscii = true) :
    joins cwd gs b text = false := by
  cases text with
  | nil => cases hfirst
  | cons c text =>
    rw [List.head?_cons, Option.any_some] at hfirst
    simp [joins, hfirst]

theorem asciiCount_of_ascii {k : ℕ} (hascii : ∀ c ∈ text.take k, isAscii c) :
    WriteHelper.asciiCount k text = min k text.length := by
  rw [WriteHelper.asciiCount, List.takeWhile_eq_self_iff.mpr hascii, List.length_take]

theorem text_ne_of_cut (hr : r.Represents gs) (cwd : CodepointWidthDetector) {b l : ℕ}
    (hb : b = clampColumn (cols gs) state.columnBegin)
    (hl : l = clampColumn (cols gs) state.columnLimit) (hlt : b < l)
    (hfirst : state.text.head?.any isAscii = true)
    (hjoin : b = 0 ∨ (cwd.join (prevGlyph gs b).chars state.text).1 = 0)
    (hascii : ∀ c ∈ state.text.take (l - b), isAscii c) (hlength : l - b < state.text.length)
    (hnext : (cwd.next (state.text.drop (l - b - 1))).1 ≠ 1)
    (hfast : r.replaceText cwd state = .ok (r₁, s₁))
    (hwhole : r.replaceTextByGraphemes cwd state = .ok (r₂, s₂)) : s₁.text ≠ s₂.text := by
  have htext : state.text ≠ [] := List.ne_nil_of_length_pos (by omega)
  subst hb hl
  have hv := (hr.isValid_iff state.columnBegin state.columnLimit state.text).mpr ⟨hlt, htext⟩
  have hbeg : (WriteHelper.new r state.columnBegin state.columnLimit state.text).colEnd =
      clampColumn (cols gs) state.columnBegin := hr.clampedColumnInclusive_eq state.columnBegin
  have hlim : (WriteHelper.new r state.columnBegin state.columnLimit state.text).colLimit =
      clampColumn (cols gs) state.columnLimit := hr.clampedColumnInclusive_eq state.columnLimit
  have hlimLe := clampColumn_le (cols gs) state.columnLimit
  have hcolsLe := hr.cols_le
  -- the fast path consumes one unit for each column
  obtain ⟨seg, hrep, -⟩ := hr.exists_seg_of_not_joins cwd state.columnBegin state.columnLimit htext hlt
    (joins_of_ascii hfirst) rfl
  have hconsumed : units (replaceTextWrite cwd gs (clampColumn (cols gs) state.columnBegin)
      (clampColumn (cols gs) state.columnLimit) state.text).new =
      clampColumn (cols gs) state.columnLimit - clampColumn (cols gs) state.columnBegin := by
    rw [replaceTextWrite, joins_of_ascii hfirst]
    simp only [Bool.false_eq_true, if_false, textGlyphs, asciiCount_of_ascii hascii,
      Nat.min_eq_left hlength.le, Nat.min_eq_right hlength.le, lt_irrefl, units_map_single,
      List.length_take]
  have htext₁ : s₁.text = state.text.drop (clampColumn (cols gs) state.columnLimit -
      clampColumn (cols gs) state.columnBegin) :=
    (replaceText_report hv hrep hfast).2.1.trans (congrArg (state.text.drop ·) hconsumed)
  -- the clusters do not
  have hclusters := hr.replaceTextUnicode_of_not_joined cwd htext hjoin
    (h := WriteHelper.new r state.columnBegin state.columnLimit state.text) rfl
  rw [WriteHelper.replaceClusters_eq cwd (by rw [hlim]; omega) (by rw [hlim, hbeg]; omega) rfl,
    hlim, hbeg] at hclusters
  have htext₂ : s₂.text = state.text.drop (units (fitting (clampColumn (cols gs) state.columnLimit -
      clampColumn (cols gs) state.columnBegin) (cwd.clusters state.text))) :=
    (replaceTextByGraphemes_report hv hclusters hwhole).2.1.trans
      (congrArg (state.text.drop ·) (Nat.add_sub_cancel_left _ _))
  have hne := units_fitting_ne cwd (by omega) hascii hlength hnext
  have hle : units (fitting (clampColumn (cols gs) state.columnLimit -
      clampColumn (cols gs) state.columnBegin) (cwd.clusters state.text)) ≤ state.text.length := by
    have hprefix := (textOf_isPrefix (fitting_isPrefix (clampColumn (cols gs) state.columnLimit -
      clampColumn (cols gs) state.columnBegin) (cwd.clusters state.text))).length_le
    rwa [cwd.textOf_clusters] at hprefix
  intro heq
  rw [htext₁, htext₂] at heq
  have hlengths := congrArg List.length heq
  rw [List.length_drop, List.length_drop] at hlengths
  omega

theorem report_or_cells_ne_of_joined (hr : r.Represents gs) (cwd : CodepointWidthDetector)
    {gs₁ gs₂ : List (Glyph WChar)} {b l : ℕ}
    (hb : b = clampColumn (cols gs) state.columnBegin)
    (hl : l = clampColumn (cols gs) state.columnLimit) (hlt : b < l)
    (hfirst : state.text.head?.any isAscii = true) (hpos : 0 < b)
    (hjoin : 0 < (cwd.join (prevGlyph gs b).chars state.text).1)
    (hfast : r.replaceText cwd state = .ok (r₁, s₁)) (hrep₁ : r₁.Represents gs₁)
    (hwhole : r.replaceTextByGraphemes cwd state = .ok (r₂, s₂)) (hrep₂ : r₂.Represents gs₂) :
    s₁.columnBeginDirty ≠ s₂.columnBeginDirty ∨
      gs₁ ≠ gs₂ ∧ r₁.columnCount = r.columnCount ∧ r₂.columnCount = r.columnCount := by
  have htext : state.text ≠ [] := by
    rintro hnil
    rw [hnil] at hfirst
    cases hfirst
  subst hb hl
  have hv := (hr.isValid_iff state.columnBegin state.columnLimit state.text).mpr ⟨hlt, htext⟩
  obtain ⟨seg, hrep, hfin⟩ := hr.exists_seg_of_not_joins cwd state.columnBegin state.columnLimit htext
    hlt (joins_of_ascii hfirst) rfl
  obtain ⟨⟨h₁, hfinish₁⟩, -, hdirty₁⟩ := replaceText_report hv hrep hfast
  obtain ⟨written, h, hrep', hdirty, hcount, hfin'⟩ :=
    hr.exists_finishesAs_joined cwd state.columnBegin state.columnLimit hlt hpos hjoin
  obtain ⟨⟨h₂, hfinish₂⟩, -, hdirty₂⟩ := replaceTextByGraphemes_report hv hrep' hwhole
  have hbLe : clampColumn (cols gs) state.columnBegin ≤ r.columnCount :=
    hr.count ▸ clampColumn_le (cols gs) state.columnBegin
  obtain ⟨A, g, B, rfl, hcase⟩ := hr.exists_prev hpos hbLe
  rcases hcase with hboundary | ⟨hg, hcut⟩
  · -- the glyph in front of the column is written again
    left
    have hbackward : r.adjustBackward (cols A + g.width) = cols A + g.width := by
      have hlast := ROW.Represents.adjustBackward_boundary (r := r) (A := A ++ [g]) (B := B)
        (by rwa [List.append_assoc])
      simpa using hlast
    have hfirstColumn : s₁.columnBeginDirty = cols A + g.width := by
      rw [hdirty₁]
      change r.adjustBackward (WriteHelper.new r state.columnBegin state.columnLimit state.text).colBeg =
        _
      rw [show (WriteHelper.new r state.columnBegin state.columnLimit state.text).colBeg =
        cols A + g.width from (hr.clampedColumnInclusive_eq _).trans hboundary, hbackward]
    rw [hfirstColumn, hdirty₂, hdirty, hboundary, prevGlyph_boundary]
    have hwidth := g.width_pos
    change cols A + g.width ≠ cols A
    omega
  · -- the column cuts a wide glyph, whose first column gets the new text
    right
    refine ⟨?_, (ROW.sameAttributes_finish hfinish₁).columnCount,
      (ROW.sameAttributes_finish hfinish₂).columnCount.trans hcount⟩
    rw [hfin.eq_of_represents hfinish₁ rfl hrep₁, hfin'.eq_of_represents hfinish₂ hcount hrep₂]
    have hprev := prevGlyph_cut A B hg
    rw [hcut, hprev] at hjoin
    obtain ⟨g', hg', htext', -⟩ := exists_glyphOf
      (List.cons_ne_nil space (state.text.take (cwd.join (g.text.take 1) state.text).1)) (Nat.lt_of_lt_of_le Nat.one_pos (Nat.le_max_left 1
        (cwd.join (g.text.take 1) state.text).2))
      (Nat.max_le.mpr ⟨by decide, cwd.join_width_le _ _⟩)
    have hone : ∃ R, (replaceTextWrite cwd (A ++ g :: B)
        (clampColumn (cols (A ++ g :: B)) state.columnBegin)
        (clampColumn (cols (A ++ g :: B)) state.columnLimit) state.text).apply (A ++ g :: B) =
        A ++ blank space :: R := by
      rw [replaceTextWrite, joins_of_ascii hfirst, hcut]
      simp only [Bool.false_eq_true, if_false, CellWrite.apply, splice, leftOf_cut space A B hg,
        List.append_assoc, List.singleton_append]
      exact ⟨_, rfl⟩
    have htwo : ∃ R, (joinedWrite cwd (A ++ g :: B)
        (clampColumn (cols (A ++ g :: B)) state.columnBegin)
        (clampColumn (cols (A ++ g :: B)) state.columnLimit) state.text).apply (A ++ g :: B) =
        A ++ g' :: R := by
      rw [hcut]
      simp only [joinedWrite, hprev, CellWrite.apply, splice, leftOf_append, hg', List.append_assoc,
        List.singleton_append]
      exact ⟨_, rfl⟩
    obtain ⟨R₁, hR₁⟩ := hone
    obtain ⟨R₂, hR₂⟩ := htwo
    rw [hR₁, hR₂]
    intro heq
    have hhead := (List.cons.inj (List.append_cancel_left heq)).1
    have hlengths := congrArg (fun x => x.text.length) hhead
    have hle := cwd.join_len_le (g.text.take 1) state.text
    simp only [htext', List.length_cons, List.length_take, single_text, List.length_nil]
      at hlengths hjoin
    omega

end Incomplete

/-- `ReplaceText` agrees with a write that cuts the whole text into clusters, exactly if the fast path
is complete: the remaining text, the reported columns and, where both leave a valid row, the
cells. -/
theorem replaceText_eq_graphemes_iff {r : ROW} {gs : List (Glyph WChar)} (hr : r.Represents gs)
    (cwd : CodepointWidthDetector) (state : RowWriteState) :
    (FastPathComplete cwd gs (clampColumn (cols gs) state.columnBegin)
        (clampColumn (cols gs) state.columnLimit) state.text →
      r.replaceText cwd state = r.replaceTextByGraphemes cwd state) ∧
    ∀ r₁ s₁ gs₁ r₂ s₂ gs₂, r.replaceText cwd state = .ok (r₁, s₁) → r₁.Represents gs₁ →
      r.replaceTextByGraphemes cwd state = .ok (r₂, s₂) → r₂.Represents gs₂ →
      ((s₁ = s₂ ∧ ∀ c < r.columnCount,
          r₁.glyphAt c = r₂.glyphAt c ∧ r₁.dbcsAttrAt c = r₂.dbcsAttrAt c) ↔
        FastPathComplete cwd gs (clampColumn (cols gs) state.columnBegin)
          (clampColumn (cols gs) state.columnLimit) state.text) := by
  refine ⟨replaceText_eq_graphemes hr cwd state, fun r₁ s₁ gs₁ r₂ s₂ gs₂ hfast hrep₁ hwhole hrep₂ =>
    ⟨?_, ?_⟩⟩
  · rintro ⟨hstate, hcells⟩ hlt hfirst
    have hjoin : clampColumn (cols gs) state.columnBegin = 0 ∨ (cwd.join
        (prevGlyph gs (clampColumn (cols gs) state.columnBegin)).chars state.text).1 = 0 := by
      by_contra hnot
      rw [not_or] at hnot
      rcases report_or_cells_ne_of_joined hr cwd rfl rfl hlt hfirst (Nat.pos_of_ne_zero hnot.1)
        (Nat.pos_of_ne_zero hnot.2) hfast hrep₁ hwhole hrep₂ with hreport | ⟨hne, hcount₁, hcount₂⟩
      · exact hreport (by rw [hstate])
      · exact hne (hrep₁.eq_of_cells hrep₂ (hcount₁.trans hcount₂.symm) fun c hc =>
          hcells c (by rwa [← hcount₂]))
    refine ⟨hjoin, fun hascii hlength => ?_⟩
    by_contra hnext
    exact text_ne_of_cut hr cwd rfl rfl hlt hfirst hjoin hascii hlength hnext hfast hwhole
      (by rw [hstate])
  · intro hcomplete
    rw [replaceText_eq_graphemes hr cwd state hcomplete, hwhole] at hfast
    obtain ⟨rfl, rfl⟩ := Prod.mk.inj (Except.ok.inj hfast)
    exact ⟨rfl, fun c _ => ⟨rfl, rfl⟩⟩

/-- Two units of ASCII in front of a combining mark, with room for all of them. -/
theorem replaceText_eq_graphemes_mark :
    (ROW.construct 4 {}).replaceText .ofMarks
        { text := [0x61, 0x62, 0x301], columnBegin := 1, columnLimit := 4 } =
      (ROW.construct 4 {}).replaceTextByGraphemes .ofMarks
        { text := [0x61, 0x62, 0x301], columnBegin := 1, columnLimit := 4 } :=
  (replaceText_eq_graphemes_iff (ROW.construct_represents (by decide) {}) .ofMarks
    { text := [0x61, 0x62, 0x301], columnBegin := 1, columnLimit := 4 }).1 fun _ _ =>
    ⟨by decide, fun hascii => absurd (hascii 0x301 (by decide)) (by decide)⟩

/-- A unit of ASCII in the last column in front of a combining mark: the mark is left in the text. -/
theorem replaceText_ne_graphemes : ¬∀ (cwd : CodepointWidthDetector) (r : ROW)
    (gs : List (Glyph WChar)) (state : RowWriteState), r.Represents gs →
    (r.replaceText cwd state).map (fun p => p.2.text) =
      (r.replaceTextByGraphemes cwd state).map (fun p => p.2.text) := by
  intro h
  have heq := h .ofMarks (ROW.construct 1 {}) _ { text := [0x61, 0x301], columnLimit := 1 }
    (ROW.construct_represents (by decide) {})
  have hfast : ((ROW.construct 1 {}).replaceText .ofMarks
      { text := [0x61, 0x301], columnLimit := 1 }).map (fun p => p.2.text) = .ok [0x301] := by
    decide
  have hwhole : ((ROW.construct 1 {}).replaceTextByGraphemes .ofMarks
      { text := [0x61, 0x301], columnLimit := 1 }).map (fun p => p.2.text) = .ok [] := by
    decide
  rw [hfast, hwhole] at heq
  cases heq

end IntelligentTerminal.Buffer
