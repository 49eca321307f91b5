import IntelligentTerminal.Buffer.ReflowRows

/-!
# Copying rows into a new buffer

`TextBuffer::Reflow` into a new buffer fills its rows as `Layout` does: when it has copied some of
the old rows, the new buffer holds the rows of the layout of their text (`Laid`).

Source: `src/buffer/out/textBuffer.cpp`, lines 2786-2911.
-/

namespace IntelligentTerminal.Buffer

open Glyph

/-! ### The new buffer -/

/-- A row of `W` columns with the text `t` and blanks behind it. -/
structure NewRow (W : ℕ) (t : List (Glyph WChar)) (wraps padded : Bool) (r : ROW) : Prop where
  represents : r.Represents (t ++ blanks space (W - cols t))
  wrapForced : r.wrapForced = wraps
  doubleBytePadded : r.doubleBytePadded = padded
  length_attr : r.attr.length = W

/-- The buffer `b` of `H` rows holds the rows of the layout `L`; `padded` is the flag of the row
that is being filled. -/
structure Laid (W H : ℕ) (L : Layout WChar) (padded : Bool) (b : TextBuffer) : Prop where
  width : b.width = W
  height : b.height = H
  firstRow : b.firstRow = 0
  length_le : L.done.length ≤ H
  done : ∀ i : ℕ, ∀ p ∈ L.done[i]?, NewRow W p.1 p.2 (p.2 && decide (cols p.1 < W)) (b.row i)
  cur : L.done.length < H → NewRow W L.cur false padded (b.row L.done.length)
  rest : ∀ y : ℕ, L.done.length < y → y < H → NewRow W [] false false (b.row y)

theorem TextBuffer.row_getRow_setRow {b : TextBuffer} {y z : ℕ} (hy : y < b.height)
    (hz : z < b.height) (r : ROW) :
    ((b.getRow y).2.setRow y r).row z = if z = y then r else b.row z := by
  have hshape := b.commit_sameShape (b.rowIndex y + 1)
  have hlt : b.rowIndex y + 1 < (b.commit (b.rowIndex y + 1)).rows.length :=
    b.lt_length_commit (b.rowIndex_lt (by omega) y)
  rw [TextBuffer.getRow, TextBuffer.row_setRow _ (by rw [hshape.rowIndex]; exact hlt),
    hshape.rowIndex, hshape.rowIndex, TextBuffer.row_commit]
  simp only [b.rowIndex_inj (Int.natCast_nonneg z) (by exact_mod_cast hz) (Int.natCast_nonneg y)
    (by exact_mod_cast hy), Nat.cast_inj]

theorem TextBuffer.getRow_setRow_sameShape (b : TextBuffer) (y : ℤ) (r : ROW) :
    ((b.getRow y).2.setRow y r).SameShape b :=
  (TextBuffer.setRow_sameShape _ _ _).trans (b.commit_sameShape _)

namespace Laid

variable {W H : ℕ} {L : Layout WChar} {padded : Bool} {b : TextBuffer}

theorem setRow (h : Laid W H L padded b) (hlt : L.done.length < H) {t : List (Glyph WChar)}
    {padded' : Bool} {r : ROW} (hr : NewRow W t false padded' r) :
    Laid W H { L with cur := t } padded'
      ((b.getRow L.done.length).2.setRow L.done.length r) := by
  have hshape := b.getRow_setRow_sameShape L.done.length r
  have hheight := h.height
  have hrow : ∀ z : ℕ, z < H →
      ((b.getRow L.done.length).2.setRow L.done.length r).row z =
        if z = L.done.length then r else b.row z :=
    fun z hz => TextBuffer.row_getRow_setRow (by omega) (by omega) r
  refine ⟨hshape.width.trans h.width, hshape.height.trans h.height,
    hshape.firstRow.trans h.firstRow, h.length_le, fun i p hp => ?_, fun _ => ?_,
    fun y hy hy' => ?_⟩
  · have hi : i < L.done.length := (List.getElem?_eq_some_iff.mp hp).1
    rw [hrow i (by omega), if_neg (by omega)]
    exact h.done i p hp
  · rw [hrow _ hlt, if_pos rfl]
    exact hr
  · simp only at hy
    rw [hrow y hy', if_neg (by omega)]
    exact h.rest y hy hy'

theorem wrap (h : Laid W H L padded b) (hlt : L.done.length < H)
    (hpad : padded = decide (cols L.cur < W)) {r : ROW}
    (hr : r = (b.row L.done.length).setWrapForced true) :
    Laid W H L.wrap false ((b.getRow L.done.length).2.setRow L.done.length r) := by
  have hcur := h.cur hlt
  have hheight := h.height
  have hshape := b.getRow_setRow_sameShape L.done.length r
  have hrow : ∀ z : ℕ, z < H →
      ((b.getRow L.done.length).2.setRow L.done.length r).row z =
        if z = L.done.length then r else b.row z :=
    fun z hz => TextBuffer.row_getRow_setRow (by omega) (by omega) r
  have hlen : L.wrap.done.length = L.done.length + 1 := by simp [Layout.wrap]
  refine ⟨hshape.width.trans h.width, hshape.height.trans h.height,
    hshape.firstRow.trans h.firstRow, by omega, fun i p hp => ?_, fun hlt' => ?_,
    fun y hy hy' => ?_⟩
  · have hi := (List.getElem?_eq_some_iff.mp hp).1
    rw [hrow i (by omega)]
    split_ifs with heq
    · have hp' : p = (L.cur, true) := by
        rw [heq, Layout.wrap, List.getElem?_concat_length] at hp
        exact (Option.some.inj hp).symm
      rw [hr, hp']
      exact ⟨hcur.represents.of_text_eq rfl rfl rfl, rfl, by
        rw [Bool.true_and, ← hpad]; exact hcur.doubleBytePadded, hcur.length_attr⟩
    · rw [Layout.wrap, List.getElem?_append_left (by omega)] at hp
      exact h.done i p hp
  · rw [hlen, hrow _ (by omega), if_neg (by omega)]
    exact h.rest _ (by omega) (by omega)
  · rw [hrow y hy', if_neg (by omega)]
    exact h.rest y (by omega) hy'

theorem endRow (h : Laid W H L false b) (hlt : L.done.length < H) :
    Laid W H (L.endRow false) false b := by
  have hcur := h.cur hlt
  have hlen : (L.endRow false).done.length = L.done.length + 1 := by simp [Layout.endRow]
  refine ⟨h.width, h.height, h.firstRow, by omega, fun i p hp => ?_, fun hlt' => ?_,
    fun y hy hy' => h.rest y (by omega) hy'⟩
  · rcases Nat.lt_or_ge i L.done.length with hi | hi
    · rw [Layout.endRow, if_neg Bool.false_ne_true, List.getElem?_append_left hi] at hp
      exact h.done i p hp
    · have hi' := (List.getElem?_eq_some_iff.mp hp).1
      obtain rfl : i = L.done.length := by omega
      have hp' : p = (L.cur, false) := by
        rw [Layout.endRow, if_neg Bool.false_ne_true, List.getElem?_concat_length] at hp
        exact (Option.some.inj hp).symm
      rw [hp']
      exact hcur
  · rw [hlen]
    exact h.rest _ (by omega) (by omega)

end Laid

/-! ### One pass of the loop -/

theorem NewRow.copyTextFrom {W : ℕ} {cur : List (Glyph WChar)} {r : ROW}
    (hr : NewRow W cur false false r) (hcur : cols cur < W) {n : ℕ} {oldRow : ROW}
    (hold : oldRow.OfWidth n) {S rest tail : List (Glyph WChar)}
    (hglyphs : oldRow.glyphs = S ++ (rest ++ tail)) (hrest : rest = [] → S = [])
    {state : RowCopyTextFromState} (hb : state.columnBegin = cols cur)
    (hl : state.columnLimit = coordTypeMax) (hsb : state.sourceColumnBegin = cols S)
    (hsl : state.sourceColumnLimit = cols (S ++ rest)) {fit : List (Glyph WChar)}
    (hfit : fit = fitting (W - cols cur) rest)
    (hunits : units (cur ++ fit) + (W - cols (cur ++ fit)) < 0x8000) :
    ∃ r' state', r.copyTextFrom oldRow false state = .ok (r', state') ∧
      NewRow W (cur ++ fit) false (decide (fit ≠ rest) && decide (cols (cur ++ fit) < W)) r' ∧
      state'.columnEnd = (if fit = rest then cols (cur ++ fit) else W) ∧
      (fit = rest → cols (S ++ rest) ≤ state'.sourceColumnEnd) ∧
      (fit ≠ rest → state'.sourceColumnEnd = cols (S ++ fit)) := by
  have hcount : r.columnCount = W := by
    rw [← hr.represents.count, cols_append, cols_blanks]
    omega
  have hcols : cols (cur ++ blanks space (W - cols cur)) = W := hr.represents.count.trans hcount
  have hW := hr.represents.cols_le
  have hs : oldRow.Represents (S ++ (rest ++ tail)) := hglyphs ▸ hold.represents
  have hb' : cols cur = clampColumn (cols (cur ++ blanks space (W - cols cur))) state.columnBegin := by
    rw [hb, clampColumn_natCast (by omega)]
  have hl' : W = clampColumn (cols (cur ++ blanks space (W - cols cur))) state.columnLimit := by
    rw [hl, hcols]
    unfold clampColumn clampInt coordTypeMax
    split_ifs <;> omega
  have hsb' : clampColumn (cols (S ++ (rest ++ tail))) state.sourceColumnBegin = cols S := by
    rw [hsb, clampColumn_natCast (by simp only [cols_append]; omega)]
  have hsl' : cols S + cols rest =
      clampColumn (cols (S ++ (rest ++ tail))) state.sourceColumnLimit := by
    rw [hsl, clampColumn_natCast (by simp only [cols_append]; omega), cols_append]
  by_cases hnil : rest = []
  · -- nothing is left to copy
    obtain rfl := hrest hnil
    subst hnil
    obtain rfl : fit = [] := hfit
    rw [cols_nil] at hsl' hsb'
    have hcopy := hr.represents.copyTextFrom_of_not hs false state hb' hl' hsb'.symm hsl' (by simp)
    refine ⟨r, _, hcopy, ?_, by simp, fun _ => ?_, fun h => absurd rfl h⟩
    · rw [List.append_nil]
      exact hr
    · simp
  · have htake : fitting (cols S + cols rest - cols S) (rest ++ tail) = rest := by
      rw [Nat.add_sub_cancel_left, fitting_append_self]
    obtain ⟨m, hm⟩ : ∃ m, m = min (W - cols cur) (cols rest) := ⟨_, rfl⟩
    have hfitm : fitting m (rest ++ tail) = fit := by rw [hm, fitting_min_append, hfit]
    have hfitle : cols fit ≤ m := hfitm ▸ cols_fitting_le _ _
    obtain ⟨w, hw⟩ : ∃ w, w = copyTextWrite (cols cur) W (cols S + cols rest - cols S)
      (rest ++ tail) := ⟨_, rfl⟩
    have hw' : w = { start := cols cur, new := fit, stop := cols cur + m } := by
      rw [hw, copyTextWrite, Nat.add_sub_cancel_left, ← hm, hfitm]
    have hblanks : ∀ j, j + m = W - cols cur →
        blanks space (W - cols cur) = blanks space m ++ blanks (space : WChar) j := by
      intro j hj
      rw [← blanks_add, Nat.add_comm m, hj]
    have happly : w.apply (cur ++ blanks space (W - cols cur)) =
        cur ++ fit ++ blanks space (W - cols (cur ++ fit)) := by
      rw [hw', CellWrite.apply, splice, leftOf_append, rightOf_append_add,
        hblanks (W - cols cur - m) (by omega)]
      have hright : rightOf space (blanks (space : WChar) m ++ blanks space (W - cols cur - m))
          (cols (blanks space m)) = blanks space (W - cols cur - m) := rightOf_append _ _ _
      rw [cols_blanks] at hright
      rw [hright, List.append_assoc cur, List.append_assoc fit, ← blanks_add, List.append_assoc]
      simp only [cols_append]
      congr 3
      omega
    have hfwd : r.adjustForward w.stop = cols cur + m := by
      have hrep := hr.represents
      rw [hblanks (W - cols cur - m) (by omega), ← List.append_assoc] at hrep
      have := hrep.adjustForward_boundary
      rw [cols_append, cols_blanks] at this
      rw [hw']
      exact this
    obtain ⟨hok, -⟩ := hr.represents.copyTextFrom_spec hs state hb' hl' hsb' hsl' hcur
      (by rw [htake]; exact hnil) hw
    rw [happly, htake, hfwd, hcount] at hok
    obtain ⟨r', hcopy, hrep, hrest'⟩ := hok (by
      rw [units_append, units_blanks]
      exact hunits)
    have hall : units fit = units rest ↔ fit = rest := by
      refine ⟨fun h => eq_of_isPrefix_of_units (hfit ▸ fitting_isPrefix _ _) h, fun h => by rw [h]⟩
    refine ⟨r', _, hcopy, ⟨hrep, by rw [hrest']; exact hr.wrapForced, ?_, ?_⟩, ?_, ?_, ?_⟩
    · rw [hrest', hr.doubleBytePadded, hw', cols_append]
      by_cases heq : fit = rest
      · have hm' : m = cols fit := by
          rw [heq] at hfitle ⊢
          omega
        rw [hm', decide_eq_false (not_not.mpr heq), Bool.false_and]
        split_ifs with h
        · exact decide_eq_false (by simp only; omega)
        · rfl
      · have hlt : W - cols cur < cols rest := by
          by_contra h
          exact heq (hfit.trans (fitting_eq_self_iff.mpr (by omega)))
        rw [if_pos (by omega), decide_eq_true heq, Bool.true_and]
    · rw [hrest']
      exact hr.length_attr
    · simp only [hw', hall, cols_append]
    · intro heq
      simp only [hw', heq, cols_append, le_refl]
    · intro _
      simp only [hw', cols_append]

namespace ReflowState

variable {W H n : ℕ} {s : ReflowState} {L : Layout WChar} {padded : Bool} {oldRow : ROW} {fuel : ℕ}

theorem notePosition_eq (s : ReflowState) : ∃ m v p, s.notePosition =
    { s with mutableViewportTop := m, visibleViewportTop := v, positionInfo := p } := by
  unfold notePosition
  simp only
  split_ifs <;> exact ⟨_, _, _, rfl⟩

theorem noteCursor_eq (s : ReflowState) (newRow : ROW) (oldCursorPos : Point) : ∃ c l,
    (l = s.newYLimit ∨ l = s.newY + s.newBuffer.height) ∧
      s.noteCursor newRow oldCursorPos = { s with newCursorPos := c, newYLimit := l } := by
  unfold noteCursor
  split_ifs
  · exact ⟨_, _, Or.inr rfl, rfl⟩
  · exact ⟨s.newCursorPos, s.newYLimit, Or.inl rfl, rfl⟩

theorem copyAttributes_eq {oldRow newRow : ROW} (hold : oldRow.attr.length = n)
    (hnew : newRow.attr.length = W) (hW : s.newBuffer.width = W) (hW' : W ≤ 0xffff)
    (hn : n ≤ 0xffff) {x y : ℕ} (hx : s.oldX = x) (hx' : x < n) (hy : s.newX = y) (hy' : y < W) :
    ∃ attr, s.copyAttributes oldRow newRow = some attr ∧ attr.length = W := by
  unfold copyAttributes
  rw [hx, hy, hW, narrow16_natCast (by omega), narrow16_natCast (by omega),
    narrow16_natCast (by omega)]
  simp only [RowAttributes.replace, Nat.min_self, hnew]
  rw [if_neg (by omega), Option.map_some]
  refine ⟨_, rfl, RowAttributes.length_resizeTrailingExtent (fun hnil => ?_) W⟩
  have hlen := congrArg List.length hnil
  simp only [RowAttributes.slice, List.length_append, List.length_take, List.length_drop,
    List.length_nil, hold] at hlen
  omega

theorem copyText_laid (hL : Laid W H L false s.newBuffer) (hY : s.newY = L.done.length)
    (hlt : L.done.length < H) (hX : s.newX = cols L.cur) (hcur : cols L.cur < W)
    (hlim : (H : ℤ) ≤ s.newYLimit) (hold : oldRow.OfWidth n) (hn : 0 < n)
    {S rest tail : List (Glyph WChar)} (hglyphs : oldRow.glyphs = S ++ (rest ++ tail))
    (hrest : rest = [] → S = []) (hoX : s.oldX = cols S) {fit : List (Glyph WChar)}
    (hfit : fit = fitting (W - cols L.cur) rest)
    (hunits : units (L.cur ++ fit) + (W - cols (L.cur ++ fit)) < 0x8000) (oldCursorPos : Point) :
    ∃ s', s.copyText oldRow (cols (S ++ rest) : ℕ) oldCursorPos = .ok s' ∧
      Laid W H { L with cur := L.cur ++ fit }
        (decide (fit ≠ rest) && decide (cols (L.cur ++ fit) < W)) s'.newBuffer ∧
      s'.newY = s.newY ∧ s'.newX = (if fit = rest then cols (L.cur ++ fit) else W : ℕ) ∧
      (H : ℤ) ≤ s'.newYLimit ∧ (fit = rest → (cols (S ++ rest) : ℤ) ≤ s'.oldX) ∧
      (fit ≠ rest → s'.oldX = cols (S ++ fit)) ∧
      s'.oldBuffer = s.oldBuffer ∧ s'.oldY = s.oldY := by
  have hrow : s.newRow = s.newBuffer.row L.done.length := by
    rw [newRow, TextBuffer.getRow, hY, TextBuffer.row_commit]
  have hnew := hL.cur hlt
  rw [← hrow] at hnew
  have hW : W ≤ 0x7fff := by
    have := hnew.represents.cols_le
    rw [cols_append, cols_blanks] at this
    omega
  have hn' : n ≤ 0x7fff := by
    have := hold.represents.cols_le
    rw [hold.represents.count, hold.columnCount] at this
    exact this
  have hS : cols S < n := by
    rw [← hold.columnCount, ← hold.represents.count, hglyphs, cols_append, cols_append]
    by_cases hnil : rest = []
    · have hcols : cols oldRow.glyphs = n := hold.represents.count.trans hold.columnCount
      rw [hglyphs, hrest hnil, hnil] at hcols
      simp only [List.nil_append] at hcols
      rw [hrest hnil, cols_nil]
      omega
    · have := Nat.pos_of_ne_zero fun h => hnil (cols_eq_zero_iff.mp h)
      omega
  obtain ⟨state, hstate⟩ : ∃ state : RowCopyTextFromState, state =
      { columnBegin := s.newX, sourceColumnBegin := s.oldX
        sourceColumnLimit := (cols (S ++ rest) : ℕ) } := ⟨_, rfl⟩
  have hb : state.columnBegin = cols L.cur := by rw [hstate]; exact hX
  have hsb : state.sourceColumnBegin = cols S := by rw [hstate]; exact hoX
  obtain ⟨r', state', hcopy, hr', hend, hsrc, hsrc'⟩ := hnew.copyTextFrom hcur hold hglyphs hrest
    hb (by rw [hstate]) hsb (by rw [hstate]) hfit hunits
  obtain ⟨r'', hr''eq⟩ : ∃ r'', r'' =
    if s.oldX = 0 then { r' with imageSlice := oldRow.imageSlice } else r' := ⟨_, rfl⟩
  have hr'' : NewRow W (L.cur ++ fit) false
      (decide (fit ≠ rest) && decide (cols (L.cur ++ fit) < W)) r'' := by
    rw [hr''eq]
    split_ifs
    · exact ⟨hr'.represents.of_text_eq rfl rfl rfl, hr'.wrapForced, hr'.doubleBytePadded,
        hr'.length_attr⟩
    · exact hr'
  obtain ⟨attr, hattr, hlen⟩ := copyAttributes_eq (s := s) hold.length_attr hr''.length_attr
    hL.width (by omega) (by omega) hoX hS hX hcur
  have hlaid : Laid W H { L with cur := L.cur ++ fit }
      (decide (fit ≠ rest) && decide (cols (L.cur ++ fit) < W))
      (s.setNewRow { r'' with attr }).newBuffer := by
    rw [setNewRow, hY]
    exact hL.setRow hlt ⟨hr''.represents.of_text_eq rfl rfl rfl, hr''.wrapForced,
      hr''.doubleBytePadded, hlen⟩
  obtain ⟨c, l, hl, hcursor⟩ :=
    (s.setNewRow { r'' with attr }).noteCursor_eq { r'' with attr } oldCursorPos
  obtain ⟨m, v, p, hpos⟩ :=
    notePosition_eq { s.setNewRow { r'' with attr } with newCursorPos := c, newYLimit := l }
  have heq : s.copyText oldRow (cols (S ++ rest) : ℕ) oldCursorPos = .ok
      { s.setNewRow { r'' with attr } with
        newCursorPos := c, newYLimit := l, mutableViewportTop := m, visibleViewportTop := v
        positionInfo := p, oldX := state'.sourceColumnEnd, newX := state'.columnEnd } := by
    unfold copyText
    rw [← hstate, hcopy]
    simp only [← hr''eq, hattr, hcursor, hpos]
  refine ⟨_, heq, hlaid, rfl, by simp only [hend], ?_, fun h => ?_, fun h => ?_, rfl, rfl⟩
  · have hheight := hlaid.height
    rcases hl with h | h
    · rw [h]
      exact hlim
    · rw [h, hheight]
      change (H : ℤ) ≤ s.newY + H
      omega
  · exact Int.ofNat_le.mpr (hsrc h)
  · exact congrArg (Nat.cast : ℕ → ℤ) (hsrc' h)

/-! ### The loop that copies a row -/

theorem wrap_of_lt (h : s.newX < s.newBuffer.width) : s.wrap = s := if_neg (by omega)

theorem wrap_laid (hL : Laid W H L padded s.newBuffer) (hY : s.newY = L.done.length)
    (hlt : L.done.length < H) (hX : s.newX = W) (hpad : padded = decide (cols L.cur < W)) :
    ∃ b, s.wrap = { s with newBuffer := b, newX := 0, newY := L.wrap.done.length } ∧
      Laid W H L.wrap false b := by
  have hrow : s.newRow = s.newBuffer.row L.done.length := by
    rw [newRow, TextBuffer.getRow, hY, TextBuffer.row_commit]
  refine ⟨_, ?_, hL.wrap hlt hpad rfl⟩
  have hlen : s.newY + 1 = L.wrap.done.length := by
    rw [hY, Layout.wrap, List.length_append]
    rfl
  rw [wrap, if_pos (by rw [hL.width, hX]), newline, setNewRow, ← hlen, hrow, hY]

theorem copyLoop_wrap {limit : ℤ} {oldCursorPos : Point}
    (h : s.wrap.newX < s.wrap.newBuffer.width) :
    copyLoop oldRow limit oldCursorPos (fuel + 1) s =
      copyLoop oldRow limit oldCursorPos (fuel + 1) s.wrap := by
  rw [copyLoop, copyLoop, wrap_of_lt h]

theorem copyLoop_eq (oldRow : ROW) (limit : ℤ) (oldCursorPos : Point) (fuel : ℕ)
    (hX : s.newX < s.newBuffer.width) (hY : s.newY < s.newBuffer.height) :
    copyLoop oldRow limit oldCursorPos (fuel + 1) s =
      (s.copyText oldRow limit oldCursorPos).bind fun s =>
        if s.oldX < limit then copyLoop oldRow limit oldCursorPos fuel s else .ok s := by
  rw [copyLoop]
  simp only [wrap_of_lt hX]
  rw [if_neg (by omega), if_neg (by omega)]

/-- The rows of a layout fit into `H` rows whose texts fit, at every time that they are filled. -/
structure RowsFit (W H : ℕ) (rows : List (TextRow WChar)) : Prop where
  length_le : rows.length ≤ H
  units_lt : ∀ p ∈ rows, ∀ t, t <+: p.1 → units t + (W - cols t) < 0x8000

theorem RowsFit.of_grows {rows rows' : List (TextRow WChar)} (h : RowsFit W H rows')
    (hg : Grows rows rows') : RowsFit W H rows := by
  refine ⟨hg.length_le.trans h.length_le, fun p hp t ht => ?_⟩
  obtain ⟨p', hp', hpre⟩ := hg.isPrefix p hp
  exact h.units_lt p' hp' t (ht.trans hpre)

theorem RowsFit.cur (h : RowsFit W H L.close) (hopen : L.opened = true) :
    L.done.length < H ∧ units L.cur + (W - cols L.cur) < 0x8000 := by
  rw [Layout.close_of_opened hopen] at h
  have hlen := h.length_le
  rw [List.length_append, List.length_singleton] at hlen
  exact ⟨by omega, h.units_lt (L.cur, false) (by simp) L.cur List.prefix_rfl⟩

/-- Where the loop that copies a row is: the glyphs `S` of `oldRow` have been copied, the glyphs
`rest` are left, and the row that is being filled is not full. -/
structure Copying (W H : ℕ) (oldRow : ROW) (S rest tail : List (Glyph WChar)) (L : Layout WChar)
    (s : ReflowState) : Prop where
  laid : Laid W H L false s.newBuffer
  opened : L.opened = true
  newY : s.newY = L.done.length
  newX : s.newX = cols L.cur
  cols_lt : cols L.cur < W
  newYLimit : (H : ℤ) ≤ s.newYLimit
  glyphs : oldRow.glyphs = S ++ (rest ++ tail)
  eq_nil : rest = [] → S = []
  oldX : s.oldX = cols S
  fits : RowsFit W H (rest.foldl (Layout.put W) L).close

/-- Where the loop that copies a row ends. -/
structure Copied (W H : ℕ) (L : Layout WChar) (s s' : ReflowState) : Prop where
  laid : Laid W H L false s'.newBuffer
  newY : s'.newY = L.done.length
  newX : s'.newX = cols L.cur
  newYLimit : (H : ℤ) ≤ s'.newYLimit
  oldBuffer : s'.oldBuffer = s.oldBuffer
  oldY : s'.oldY = s.oldY

section CopyLoop

variable {oldRow : ROW} {S rest tail : List (Glyph WChar)}

theorem foldl_put_rest (hW : 2 ≤ W) {fit : List (Glyph WChar)}
    (hfit : fit = fitting (W - cols L.cur) rest) (hcur : cols L.cur ≤ W) :
    ∃ rest', rest = fit ++ rest' ∧
      rest.foldl (Layout.put W) L =
        rest'.foldl (Layout.put W) { L with cur := L.cur ++ fit } ∧
      (rest' ≠ [] → rest.foldl (Layout.put W) L =
        rest'.foldl (Layout.put W) (Layout.wrap { L with cur := L.cur ++ fit })) := by
  obtain ⟨rest', hrest'⟩ := hfit ▸ fitting_isPrefix (W - cols L.cur) rest
  have hfold : rest.foldl (Layout.put W) L =
      rest'.foldl (Layout.put W) { L with cur := L.cur ++ fit } := by
    rw [← hrest', List.foldl_append]
    conv_lhs => rw [hfit, Layout.foldl_put_fitting, ← hfit]
  refine ⟨rest', hrest'.symm, hfold, fun hne => ?_⟩
  cases rest' with
  | nil => exact absurd rfl hne
  | cons g rest'' =>
    have hsplit : rest = fitting (W - cols L.cur) rest ++ g :: rest'' := by rw [← hfit, hrest']
    have hlt := lt_of_fitting_append hsplit
    rw [← hfit] at hlt
    rw [hfold, List.foldl_cons, List.foldl_cons, Layout.put_of_not_fit hW]
    rw [cols_append]
    omega

theorem Copying.step (hW : 2 ≤ W) (hold : oldRow.OfWidth n) (hn : 0 < n) (oldCursorPos : Point)
    (h : Copying W H oldRow S rest tail L s) (fuel : ℕ) :
    (∃ s', copyLoop oldRow (cols (S ++ rest) : ℕ) oldCursorPos (fuel + 1) s = .ok s' ∧
      Copied W H (rest.foldl (Layout.put W) L) s s') ∨
    ∃ s₁ fit rest', rest = fit ++ rest' ∧ (L.cur = [] → fit ≠ []) ∧ rest' ≠ [] ∧
      copyLoop oldRow (cols (S ++ rest) : ℕ) oldCursorPos (fuel + 1) s =
        copyLoop oldRow (cols (S ++ rest) : ℕ) oldCursorPos fuel s₁ ∧
      (∀ fuel', copyLoop oldRow (cols (S ++ rest) : ℕ) oldCursorPos (fuel' + 1) s₁ =
        copyLoop oldRow (cols (S ++ rest) : ℕ) oldCursorPos (fuel' + 1) s₁.wrap) ∧
      Copying W H oldRow (S ++ fit) rest' tail
        (Layout.wrap { L with cur := L.cur ++ fit }) s₁.wrap ∧
      rest.foldl (Layout.put W) L =
        rest'.foldl (Layout.put W) (Layout.wrap { L with cur := L.cur ++ fit }) ∧
      s₁.wrap.oldBuffer = s.oldBuffer ∧ s₁.wrap.oldY = s.oldY := by
  obtain ⟨fit, hfit⟩ : ∃ fit, fit = fitting (W - cols L.cur) rest := ⟨_, rfl⟩
  have hcur := h.cols_lt
  have hwidth := h.laid.width
  have hheight := h.laid.height
  obtain ⟨rest', hrest', hfold, hfold'⟩ := foldl_put_rest hW hfit hcur.le
  obtain ⟨L₁, hL₁⟩ : ∃ L₁ : Layout WChar, L₁ = { L with cur := L.cur ++ fit } := ⟨_, rfl⟩
  have hopen : L₁.opened = true := hL₁ ▸ h.opened
  rw [← hL₁] at hfold hfold'
  obtain ⟨hlt, hunits⟩ := RowsFit.cur
    (h.fits.of_grows (hfold ▸ Layout.grows_foldl_put hopen rest')) hopen
  rw [hL₁] at hlt hunits
  obtain ⟨s₁, hcopy, hlaid, hY, hX, hlim, hdone, hleft, hbuf, hold'⟩ := copyText_laid h.laid h.newY
    hlt h.newX hcur h.newYLimit hold hn h.glyphs h.eq_nil h.oldX hfit hunits oldCursorPos
  have hloop := copyLoop_eq oldRow (cols (S ++ rest) : ℕ) oldCursorPos fuel
    (by rw [h.newX, hwidth]; exact_mod_cast hcur) (by rw [h.newY, hheight]; exact_mod_cast hlt)
  rw [hcopy] at hloop
  change _ = if _ then _ else _ at hloop
  by_cases hall : fit = rest
  · left
    have hnil : rest' = [] := by
      rw [hall] at hrest'
      exact List.self_eq_append_right.mp hrest'
    rw [hnil, List.foldl_nil] at hfold
    rw [if_neg (not_lt.mpr (hdone hall))] at hloop
    rw [if_pos hall] at hX
    rw [decide_eq_false (not_not.mpr hall), Bool.false_and] at hlaid
    refine ⟨s₁, hloop, ?_, ?_, ?_, hlim, hbuf, hold'⟩
    · rw [hfold, hL₁]
      exact hlaid
    · rw [hY, h.newY, hfold, hL₁]
    · rw [hX, hfold, hL₁]
  · right
    have hne : rest' ≠ [] := by
      rintro rfl
      exact hall (by rw [hrest', List.append_nil])
    have hcols : cols (S ++ rest) = cols (S ++ fit ++ rest') := by
      rw [hrest', List.append_assoc]
    have hpos : 0 < cols rest' := Nat.pos_of_ne_zero fun h => hne (cols_eq_zero_iff.mp h)
    rw [if_pos (by rw [hleft hall, hcols, cols_append _ rest']; omega)] at hloop
    rw [if_neg hall] at hX
    rw [decide_eq_true hall, Bool.true_and, ← hL₁] at hlaid
    obtain ⟨b, hwrap, hlaid'⟩ := wrap_laid hlaid (by rw [hY, h.newY, hL₁]) (by rw [hL₁]; exact hlt)
      hX (by rw [hL₁])
    have hwidth' := hlaid'.width
    refine ⟨s₁, fit, rest', hrest', fun hnil hfitnil => ?_, hne, hloop, fun fuel' => ?_, ?_,
      by rw [← hL₁]; exact hfold' hne, by rw [hwrap]; exact hbuf, by rw [hwrap]; exact hold'⟩
    · -- a row that is empty takes the next glyph
      cases rest' with
      | nil => exact hne rfl
      | cons g rest'' =>
        have hg := g.width_le
        have hsplit : rest = fitting (W - cols L.cur) rest ++ g :: rest'' := by
          rw [← hfit]
          exact hrest'
        have := lt_of_fitting_append hsplit
        rw [← hfit, hfitnil, hnil, cols_nil] at this
        omega
    · refine copyLoop_wrap ?_
      rw [hwrap]
      simp only [hwidth']
      omega
    · rw [hwrap, ← hL₁]
      exact
        { laid := hlaid'
          opened := hopen
          newY := rfl
          newX := rfl
          cols_lt := by
            rw [show L₁.wrap.cur = [] from rfl, cols_nil]
            omega
          newYLimit := hlim
          glyphs := by rw [h.glyphs, hrest']; simp only [List.append_assoc]
          eq_nil := fun hnil => absurd hnil hne
          oldX := hleft hall
          fits := hfold' hne ▸ h.fits }

theorem Copying.copyLoop (hW : 2 ≤ W) (hold : oldRow.OfWidth n) (hn : 0 < n)
    (oldCursorPos : Point) : ∀ {fuel : ℕ} {S rest : List (Glyph WChar)} {L : Layout WChar}
    {s : ReflowState}, Copying W H oldRow S rest tail L s →
    2 * rest.length + (if L.cur = [] then 0 else 1) ≤ fuel →
    ∃ s', ReflowState.copyLoop oldRow (cols (S ++ rest) : ℕ) oldCursorPos (fuel + 1) s = .ok s' ∧
      Copied W H (rest.foldl (Layout.put W) L) s s' := by
  intro fuel
  induction fuel with
  | zero =>
    intro S rest L s h hfuel
    obtain h' | ⟨s₁, fit, rest', rfl, -, hne, -⟩ := h.step hW hold hn oldCursorPos 0
    · exact h'
    · have := List.length_pos_of_ne_nil hne
      rw [List.length_append] at hfuel
      omega
  | succ fuel ih =>
    intro S rest L s h hfuel
    obtain h' | ⟨s₁, fit, rest', rfl, hfit, hne, hloop, hwrap, hnext, hfold, hbuf, hold'⟩ :=
      h.step hW hold hn oldCursorPos (fuel + 1)
    · exact h'
    · have hlen : 2 * rest'.length ≤ fuel := by
        rw [List.length_append] at hfuel
        split_ifs at hfuel with hnil
        · have := List.length_pos_of_ne_nil (hfit hnil)
          omega
        · omega
      obtain ⟨s', hs', hcopied⟩ := ih hnext (by
        rw [show (Layout.wrap { L with cur := L.cur ++ fit }).cur = [] from rfl, if_pos rfl]
        exact hlen)
      refine ⟨s', ?_, ?_⟩
      · rw [hloop, hwrap, ← List.append_assoc]
        exact hs'
      · rw [hfold]
        exact ⟨hcopied.laid, hcopied.newY, hcopied.newX, hcopied.newYLimit,
          hcopied.oldBuffer.trans hbuf, hcopied.oldY.trans hold'⟩

end CopyLoop

/-! ### The old rows -/

/-- The new buffer holds the layout `L` of the text of the first `y` rows of `old`. -/
structure Reflowed (W H : ℕ) (old : TextBuffer) (y : ℕ) (L : Layout WChar) (s : ReflowState) :
    Prop where
  laid : Laid W H L false s.newBuffer
  full : L.Full W
  newY : s.newY = L.done.length
  newX : s.newX = cols L.cur
  newYLimit : (H : ℤ) ≤ s.newYLimit
  row_eq : ∀ z, s.oldBuffer.row z = old.row z
  oldY : s.oldY = y

/-- Where the cursor is in the row at `y`. -/
def cursorIn (cursor : Point) (y : ℤ) : Option ℤ := if y = cursor.y then some cursor.x else none

theorem oldRowLimit_eq (s : ReflowState) (oldRow : ROW) (cursor : Point) :
    s.oldRowLimit oldRow cursor = oldRow.copyLimit (cursorIn cursor s.oldY) := by
  unfold oldRowLimit cursorIn
  split_ifs <;> rfl

theorem length_le_cols (t : List (Glyph WChar)) : t.length ≤ cols t := by
  induction t with
  | nil => exact Nat.zero_le 0
  | cons g t ih =>
    have := g.width_pos
    rw [List.length_cons, cols_cons]
    omega

theorem copyMark_laid (hL : Laid W H L false s.newBuffer) (hY : s.newY = L.done.length)
    (hlt : L.done.length < H) (oldRow : ROW) :
    ∃ b, s.copyMark oldRow = { s with newBuffer := b } ∧ Laid W H L false b := by
  unfold copyMark
  split_ifs
  · have hrow : s.newRow = s.newBuffer.row L.done.length := by
      rw [newRow, TextBuffer.getRow, hY, TextBuffer.row_commit]
    have hcur := hL.cur hlt
    rw [← hrow] at hcur
    refine ⟨_, rfl, ?_⟩
    rw [hY]
    exact hL.setRow hlt ⟨hcur.represents.of_text_eq rfl rfl rfl, hcur.wrapForced,
      hcur.doubleBytePadded, hcur.length_attr⟩
  · exact ⟨s.newBuffer, rfl, hL⟩

theorem copyLine_laid (hW : 2 ≤ W) (hn : 0 < n) {old : TextBuffer} {y : ℕ} {cursor : Point}
    (h : Reflowed W H old y L s) (hold : oldRow.Reflowable n)
    (hcursor : ∀ x ∈ cursorIn cursor y, 0 ≤ x ∧ x < n ∧ oldRow.wrapForced = false)
    (hfuel : 2 * n + 2 ≤ fuel) {r : TextRow WChar}
    (hr : r = (oldRow.copiedText (cursorIn cursor y), oldRow.wrapForced))
    (hfits : RowsFit W H (L.row W r).close) :
    ∃ s', copyLine fuel s oldRow cursor = .ok s' ∧ Reflowed W H old y (L.row W r) s' := by
  obtain ⟨⟨tail, hglyphs⟩, hlimit, -⟩ := hold.copiedText_spec hcursor
  obtain ⟨t, ht⟩ : ∃ t, t = oldRow.copiedText (cursorIn cursor y) := ⟨_, rfl⟩
  rw [← ht] at hglyphs hlimit hr
  have hopen : (t.foldl (Layout.put W) (L.begin W)).opened = true := by
    rw [Layout.opened_foldl_put]
    rfl
  have hfits₁ : RowsFit W H (t.foldl (Layout.put W) (L.begin W)).close := by
    rw [hr] at hfits
    exact hfits.of_grows (Layout.grows_endRow hopen _)
  have hfits₀ := hfits₁.of_grows (Layout.grows_foldl_put (by rfl) t)
  have hlen := hfits₀.length_le
  rw [Layout.close_begin] at hlen
  have hlt : L.done.length < H := by
    split_ifs at hlen <;> simp only [List.length_append, List.length_cons] at hlen <;> omega
  obtain ⟨b, hmark, hlaid⟩ := copyMark_laid h.laid h.newY hlt oldRow
  obtain ⟨fuel, rfl⟩ : ∃ f, fuel = f + 1 := ⟨fuel - 1, by omega⟩
  have hlen' : 2 * t.length + (if (L.begin W).cur = [] then 0 else 1) ≤ fuel := by
    have h₁ := length_le_cols t
    have h₂ : cols t ≤ n := by
      have := congrArg cols hglyphs
      rw [hold.represents.count, hold.columnCount, cols_append] at this
      omega
    split_ifs <;> omega
  -- the loop begins on the row that is being filled, or wraps it first
  obtain ⟨s₁, hloop, hcopying, hbuf, hold'⟩ : ∃ s₁,
      copyLoop oldRow (cols ([] ++ t) : ℕ) cursor (fuel + 1) { s.copyMark oldRow with oldX := 0 } =
        copyLoop oldRow (cols ([] ++ t) : ℕ) cursor (fuel + 1) s₁ ∧
      Copying W H oldRow [] t tail (L.begin W) s₁ ∧
      s₁.oldBuffer = s.oldBuffer ∧ s₁.oldY = s.oldY := by
    rw [hmark]
    have hbegin : ∀ (L' : Layout WChar) (s₁ : ReflowState), Laid W H L' false s₁.newBuffer →
        L.begin W = { L' with opened := true } → s₁.newY = L'.done.length → s₁.newX = cols L'.cur →
        cols L'.cur < W → (H : ℤ) ≤ s₁.newYLimit → s₁.oldX = 0 →
        Copying W H oldRow [] t tail (L.begin W) s₁ := by
      intro L' s₁ h₁ hL' h₂ h₃ h₄ h₅ h₆
      rw [hL'] at hfits₁ ⊢
      exact ⟨⟨h₁.width, h₁.height, h₁.firstRow, h₁.length_le, h₁.done, h₁.cur, h₁.rest⟩, rfl, h₂,
        h₃, h₄, h₅, hglyphs, fun _ => rfl, h₆, hfits₁⟩
    rcases Nat.lt_or_ge (cols L.cur) W with hcur | hcur
    · refine ⟨_, rfl, hbegin L _ hlaid ?_ h.newY h.newX hcur h.newYLimit rfl, rfl, rfl⟩
      rw [Layout.begin, if_pos hcur]
    · have hcur' := h.full.cols_cur_le
      obtain ⟨b', hwrap, hlaid'⟩ := wrap_laid (s := { s with newBuffer := b, oldX := 0 }) hlaid
        h.newY hlt (by rw [← le_antisymm hcur' hcur]; exact h.newX)
        (decide_eq_false (not_lt.mpr hcur)).symm
      have hcols : cols L.wrap.cur < W := by
        rw [show L.wrap.cur = [] from rfl, cols_nil]
        omega
      refine ⟨_, copyLoop_wrap (s := { s with newBuffer := b, oldX := 0 }) ?_, ?_, ?_, ?_⟩
      · rw [hwrap]
        simp only [hlaid'.width]
        omega
      · rw [hwrap]
        refine hbegin L.wrap _ hlaid' ?_ rfl rfl hcols h.newYLimit rfl
        rw [Layout.begin, if_neg (not_lt.mpr hcur)]
      · rw [hwrap]
      · rw [hwrap]
  obtain ⟨s', hs', hcopied⟩ := hcopying.copyLoop hW hold.toOfWidth hn cursor hlen'
  have hline : copyLine (fuel + 1) s oldRow cursor =
      .ok (if oldRow.wrapForced then s' else s'.newline) := by
    rw [copyLine, oldRowLimit_eq, h.oldY, ← hlimit]
    rw [List.nil_append] at hloop hs'
    rw [hloop, hs']
    rfl
  refine ⟨_, hline, ?_⟩
  have hfull := Layout.full_row hW h.full r
  have hrow : ∀ z, s'.oldBuffer.row z = old.row z := by
    intro z
    rw [hcopied.oldBuffer, hbuf]
    exact h.row_eq z
  have hY : s'.oldY = y := by rw [hcopied.oldY, hold', h.oldY]
  rw [Layout.row, hr] at hfull ⊢
  cases hw : oldRow.wrapForced with
  | true =>
    rw [hw] at hfull
    exact ⟨hcopied.laid, hfull, hcopied.newY, hcopied.newX, hcopied.newYLimit, hrow, hY⟩
  | false =>
    rw [hw] at hfull
    refine ⟨hcopied.laid.endRow (hfits₁.cur hopen).1, hfull, ?_, rfl, hcopied.newYLimit, hrow, hY⟩
    simp only [newline, Bool.false_eq_true, if_false, Layout.endRow, List.length_append,
      List.length_singleton, hcopied.newY]
    push_cast
    rfl

end ReflowState

end IntelligentTerminal.Buffer
