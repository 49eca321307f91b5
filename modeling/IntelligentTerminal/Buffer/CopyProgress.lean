import IntelligentTerminal.Buffer.RowInvariant
import Mathlib

/-!
# How far CopyTextFrom comes

`ROW::CopyTextFrom` copies the glyphs of the source that end in the columns that are left of the
destination. When there is none it copies nothing, and the destination is full. When there is no text
to copy it skips the rest of the source.

Source: `src/buffer/out/Row.cpp`, lines 765-841.
-/

namespace IntelligentTerminal.Buffer

open Glyph

/-! ### A glyph that does not fit -/

/-- The text of `source` between two columns, as `CopyTextFrom` takes it. -/
def ROW.textBetween (source : ROW) (c limit : ℕ) : List WChar :=
  (source.chars.drop (source.uncheckedCharOffset c)).take
    (source.uncheckedCharOffset limit - source.uncheckedCharOffset c)

/-- At the column `c` there is text to copy, and no glyph of it ends in the next `width` columns. -/
def ROW.Sticks (source : ROW) (c limit width : ℕ) : Prop :=
  c < limit ∧ source.textBetween c limit ≠ [] ∧ source.uncheckedIsTrailer c = false ∧
    ∀ j, 0 < j → j ≤ width → c + j ≤ limit → source.uncheckedIsTrailer (c + j) = true

theorem length_le_takeWhile_append {α : Type*} (p : α → Bool) (l r : List α) :
    l.length ≤ ((l ++ r).takeWhile p).length ↔ ∀ x ∈ l, p x = true := by
  rw [List.takeWhile_append, ← List.takeWhile_eq_self_iff]
  by_cases hlength : (l.takeWhile p).length = l.length
  · have hall : l.takeWhile p = l := (List.takeWhile_prefix p).eq_of_length hlength
    rw [if_pos hlength, List.length_append]
    exact iff_of_true (Nat.le_add_right _ _) hall
  · rw [if_neg hlength]
    have hle := (List.takeWhile_prefix p (l := l)).length_le
    exact iff_of_false (by omega) fun hall => hlength (congrArg List.length hall)

theorem stepBackward_eq_zero_iff {words : List ℕ} {m : ℕ} (hm : m < words.length) :
    stepBackward words m = 0 ↔ ∀ j, 0 < j → j ≤ m → isTrailer (words.getD j 0) = true := by
  obtain ⟨w, rest, rfl⟩ := List.exists_cons_of_length_pos (Nat.zero_lt_of_lt hm)
  rw [List.length_cons] at hm
  have hlength : (rest.take m).reverse.length = m := by
    rw [List.length_reverse, List.length_take_of_le (by omega)]
  have hall := length_le_takeWhile_append isTrailer (rest.take m).reverse [w]
  rw [hlength, ← List.reverse_cons] at hall
  rw [stepBackward, List.take_succ_cons, Nat.sub_eq_zero_iff_le, hall]
  constructor
  · intro h j hpos hle
    obtain ⟨j, rfl⟩ := Nat.exists_eq_add_of_lt hpos
    have hj : j < rest.length := by omega
    rw [Nat.zero_add, List.getD_cons_succ, List.getD_eq_getElem _ _ hj]
    refine h _ (List.mem_reverse.mpr (List.mem_take_iff_getElem.mpr ⟨j, by omega, rfl⟩))
  · intro h x hx
    obtain ⟨j, hj, rfl⟩ := List.mem_take_iff_getElem.mp (List.mem_reverse.mp hx)
    have hword := h (j + 1) (Nat.succ_pos j) (by omega)
    rwa [List.getD_cons_succ, List.getD_eq_getElem _ _ (by omega)] at hword

/-! ### What CopyTextFrom comes to -/

namespace ROW

variable {r source r' : ROW} {state' : RowCopyTextFromState}

theorem clampedColumnInclusive_natCast {c : ℕ} (hc : c ≤ r.columnCount) :
    r.clampedColumnInclusive c = c := by
  unfold clampedColumnInclusive clampInt
  split_ifs <;> omega

/-- The words that `CopyTextFrom` takes. -/
def wordsBetween (source : ROW) (c limit : ℕ) : List ℕ :=
  if c < limit then (source.charOffsets.drop c).take (limit - c + 1) else []

variable {c limit : ℕ} {columnLimit : ℤ}

theorem getD_wordsBetween (source : ROW) (hc : c < limit) {j : ℕ} (hj : c + j ≤ limit) :
    (source.wordsBetween c limit).getD j 0 = source.word (c + j) := by
  rw [wordsBetween, if_pos hc, word, List.getD_eq_getElem?_getD, List.getD_eq_getElem?_getD,
    List.getElem?_take, if_pos (by omega), List.getElem?_drop]

theorem length_wordsBetween (source : ROW) (hc : c < limit)
    (hlimit : limit < source.charOffsets.length) :
    (source.wordsBetween c limit).length = limit - c + 1 := by
  rw [wordsBetween, if_pos hc, List.length_take, List.length_drop]
  omega

theorem headD_wordsBetween (hc : c < limit) :
    (source.wordsBetween c limit).headD 0 = source.word c := by
  have hword := getD_wordsBetween source hc (j := 0) (by omega)
  rw [Nat.add_zero] at hword
  rw [← hword]
  cases source.wordsBetween c limit <;> rfl

theorem getLastD_wordsBetween (hc : c < limit) (hlimit : limit < source.charOffsets.length) :
    (source.wordsBetween c limit).getLastD 0 = source.word limit := by
  have hword := getD_wordsBetween source hc (j := limit - c) (by omega)
  rw [Nat.add_sub_cancel' hc.le] at hword
  rw [← hword, List.getLastD_eq_getLast?, List.getLast?_eq_getElem?, length_wordsBetween source hc
    hlimit, List.getD_eq_getElem?_getD]
  rfl

theorem copyTextFrom_columnCount {isSelf : Bool} {state : RowCopyTextFromState}
    (h : r.copyTextFrom source isSelf state = .ok (r', state')) :
    r'.columnCount = r.columnCount := by
  have hwordsEq (c limit : ℕ) : (if c < limit then
      (source.charOffsets.drop c).take (limit - c + 1) else []) = source.wordsBetween c limit := rfl
  unfold ROW.copyTextFrom at h
  simp only [hwordsEq] at h
  split_ifs at h
  · rw [← (Prod.mk.inj (Except.ok.inj h)).1]
  · split at h
    · cases h
    · next hfinish =>
      rw [← (Prod.mk.inj (Except.ok.inj h)).1]
      exact (sameAttributes_finish hfinish).columnCount

/-- `CopyTextFrom` has something to copy. -/
def Copies (source : ROW) (c limit : ℕ) : Prop :=
  c < limit ∧ source.textBetween c limit ≠ [] ∧ source.uncheckedIsTrailer c = false

theorem copyTextFrom_ends {newX : ℕ} (hcount : r.columnCount < 0x10000)
    (hnewX : newX < r.columnCount) (hwords : source.charOffsets.length = source.columnCount + 1)
    (hc : c ≤ source.columnCount) (hlimit : source.clampedColumnInclusive columnLimit = limit)
    (h : r.copyTextFrom source false
      { columnBegin := newX, sourceColumnBegin := c, sourceColumnLimit := columnLimit } =
        .ok (r', state')) :
    ¬ source.Copies c limit ∧ state'.sourceColumnEnd = source.columnCount ∨
      source.Copies c limit ∧
        state'.sourceColumnEnd =
          c + stepBackward (source.wordsBetween c limit) (min (r.columnCount - newX) (limit - c)) ∧
        (stepBackward (source.wordsBetween c limit) (min (r.columnCount - newX) (limit - c)) = 0 →
          state'.columnEnd = r.columnCount) := by
  have hlimitLe := source.clampedColumnInclusive_le columnLimit
  rw [hlimit] at hlimitLe
  have hcoord : r.clampedColumnInclusive coordTypeMax = r.columnCount := by
    unfold clampedColumnInclusive clampInt coordTypeMax
    split_ifs <;> omega
  have hnew : r.clampedColumnInclusive newX = newX := clampedColumnInclusive_natCast hnewX.le
  unfold ROW.copyTextFrom at h
  simp only [clampedColumnInclusive_natCast hc, hlimit] at h
  have hwordsEq : (if c < limit then (source.charOffsets.drop c).take (limit - c + 1) else []) =
      source.wordsBetween c limit := rfl
  simp only [hwordsEq] at h
  by_cases hcopies : source.Copies c limit
  · obtain ⟨hlt, htext, htrailer⟩ := hcopies
    have hlimit' : limit < source.charOffsets.length := by omega
    have hchars : (source.chars.drop (offsetOf ((source.wordsBetween c limit).headD 0))).take
        (offsetOf ((source.wordsBetween c limit).getLastD 0) -
          offsetOf ((source.wordsBetween c limit).headD 0)) = source.textBetween c limit := by
      rw [headD_wordsBetween hlt, getLastD_wordsBetween hlt hlimit']
      rfl
    have hlength := length_wordsBetween source hlt hlimit'
    have hvalid : (!(WriteHelper.new r newX coordTypeMax (source.textBetween c limit)).isValid ||
        false || decide ((source.wordsBetween c limit).length < 2) ||
          isTrailer ((source.wordsBetween c limit).headD 0)) = false := by
      have htrailer' : isTrailer (source.word c) = false := htrailer
      rw [headD_wordsBetween hlt, htrailer', hlength]
      simp [WriteHelper.new, WriteHelper.isValid, hcoord, hnew, hnewX, htext]
      omega
    simp only [hchars, hvalid, Bool.false_eq_true, if_false] at h
    have hmin : min (narrow16 (r.columnCount - newX)) ((source.wordsBetween c limit).length - 1) =
        min (r.columnCount - newX) (limit - c) := by
      rw [hlength]
      unfold narrow16
      omega
    cases hfinish :
        ((WriteHelper.new r newX coordTypeMax (source.textBetween c limit)).copyTextFrom r
          (source.wordsBetween c limit)).2.finish
            ((WriteHelper.new r newX coordTypeMax (source.textBetween c limit)).copyTextFrom r
              (source.wordsBetween c limit)).1 with
    | none =>
      rw [hfinish] at h
      cases h
    | some finished =>
      rw [hfinish] at h
      obtain ⟨colEndDirty, hsnd⟩ := WriteHelper.finish_snd hfinish
      obtain ⟨rfl, rfl⟩ := Prod.mk.inj (Except.ok.inj h)
      refine .inr ⟨⟨hlt, htext, htrailer⟩, ?_⟩
      simp only [hsnd, WriteHelper.copyTextFrom, WriteHelper.new, hnew, hcoord, hmin]
      refine ⟨by omega, fun hzero => ?_⟩
      have hempty : (0 : ℕ) ≠ (source.textBetween c limit).length := fun hnil =>
        htext (List.length_eq_zero_iff.mp hnil.symm)
      rw [hzero, Nat.sub_self, if_neg hempty]
  · have hinvalid : (!(WriteHelper.new r newX coordTypeMax
          ((source.chars.drop (offsetOf ((source.wordsBetween c limit).headD 0))).take
            (offsetOf ((source.wordsBetween c limit).getLastD 0) -
              offsetOf ((source.wordsBetween c limit).headD 0)))).isValid ||
        false || decide ((source.wordsBetween c limit).length < 2) ||
          isTrailer ((source.wordsBetween c limit).headD 0)) = true := by
      by_cases hlt : c < limit
      · have hlimit' : limit < source.charOffsets.length := by omega
        rw [headD_wordsBetween hlt, getLastD_wordsBetween hlt hlimit']
        by_cases htrailer : source.uncheckedIsTrailer c = true
        · have htrailer' : isTrailer (source.word c) = true := htrailer
          rw [htrailer', Bool.or_true]
        · have htext : source.textBetween c limit = [] := by
            by_contra hne
            exact hcopies ⟨hlt, hne, Bool.not_eq_true _ ▸ htrailer⟩
          have htext' : (source.chars.drop (offsetOf (source.word c))).take
              (offsetOf (source.word limit) - offsetOf (source.word c)) = [] := htext
          rw [htext']
          simp [WriteHelper.new, WriteHelper.isValid]
      · have hnil : source.wordsBetween c limit = [] := if_neg hlt
        rw [hnil]
        simp
    simp only [hinvalid, if_true] at h
    obtain ⟨rfl, rfl⟩ := Prod.mk.inj (Except.ok.inj h)
    exact .inl ⟨hcopies, rfl⟩

theorem copyTextFrom_progress {newX : ℕ} (hcount : r.columnCount < 0x10000)
    (hnewX : newX < r.columnCount) (hwords : source.charOffsets.length = source.columnCount + 1)
    (hc : c < source.columnCount) (hlimit : source.clampedColumnInclusive columnLimit = limit)
    (h : r.copyTextFrom source false
      { columnBegin := newX, sourceColumnBegin := c, sourceColumnLimit := columnLimit } =
        .ok (r', state')) :
    (source.Sticks c limit (r.columnCount - newX) →
      state'.sourceColumnEnd = c ∧ state'.columnEnd = r.columnCount) ∧
    (¬ source.Sticks c limit (r.columnCount - newX) → c < state'.sourceColumnEnd) := by
  obtain ⟨hcopies, hend⟩ | ⟨hcopies, hend, hfull⟩ :=
    copyTextFrom_ends hcount hnewX hwords hc.le hlimit h
  · exact ⟨fun hsticks => absurd ⟨hsticks.1, hsticks.2.1, hsticks.2.2.1⟩ hcopies,
      fun _ => by rw [hend]; exact hc⟩
  · have hlimitLe := source.clampedColumnInclusive_le columnLimit
    rw [hlimit] at hlimitLe
    have hlt := hcopies.1
    have hlength := length_wordsBetween source hlt (by omega)
    have hshort : min (r.columnCount - newX) (limit - c) <
        (source.wordsBetween c limit).length := by omega
    have hzero := stepBackward_eq_zero_iff hshort
    have hsticks : source.Sticks c limit (r.columnCount - newX) ↔
        stepBackward (source.wordsBetween c limit) (min (r.columnCount - newX) (limit - c)) = 0 := by
      rw [hzero]
      constructor
      · rintro ⟨-, -, -, htrailers⟩ j hpos hj
        rw [getD_wordsBetween source hlt (by omega)]
        exact htrailers j hpos (by omega) (by omega)
      · intro htrailers
        refine ⟨hlt, hcopies.2.1, hcopies.2.2, fun j hpos hj hj' => ?_⟩
        have hword := htrailers j hpos (by omega)
        rwa [getD_wordsBetween source hlt (by omega)] at hword
    constructor
    · intro h
      exact ⟨by rw [hend, hsticks.mp h, Nat.add_zero], hfull (hsticks.mp h)⟩
    · intro h
      have hne := mt hsticks.mpr h
      omega

end ROW

end IntelligentTerminal.Buffer
