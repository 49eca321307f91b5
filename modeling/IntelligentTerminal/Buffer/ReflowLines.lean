import Mathlib.Data.List.Infix
import IntelligentTerminal.Buffer.ReflowCopy

/-!
# Reflow keeps the lines of a buffer

Laying rows out at another width keeps their lines, so `TextBuffer::Reflow` into a new buffer that
is tall enough leaves the lines of the old buffer there.

Source: `src/buffer/out/textBuffer.cpp`, lines 760-789 and 2718-2957.
-/

namespace IntelligentTerminal.Buffer

open Glyph

/-! ### The last text -/

namespace TextBuffer

/-- No row below those that `GetLastNonSpaceCharacter` looks at has text. -/
def SearchCovers (b : TextBuffer) (viewOptional : Option Viewport) : Prop :=
  ∀ y : ℤ, min (viewOptional.getD b.getSize).bottomInclusive b.estimateOffsetOfLastCommittedRow < y →
    y < b.height → (b.row y).measureRight ≤ 0

theorem lastNonSpaceLoop_spec (viewportTop : ℤ) : ∀ (fuel : ℕ) {x y : ℤ} {b : TextBuffer},
    x = (b.row y).measureRight - 1 → ∃ p b', lastNonSpaceLoop viewportTop fuel x y b = (p, b') ∧
      p.y ≤ y ∧ (∀ z, p.y < z → z ≤ y → (b.row z).measureRight ≤ 0) ∧ b'.SameShape b ∧
      (∀ z, b'.row z = b.row z) ∧ b'.cursor = b.cursor := by
  intro fuel
  induction fuel with
  | zero =>
    intro x y b _
    exact ⟨_, _, rfl, le_rfl, fun z h h' => absurd (lt_of_lt_of_le h h') (lt_irrefl _), .refl b,
      fun _ => rfl, rfl⟩
  | succ fuel ih =>
    intro x y b hx
    rw [lastNonSpaceLoop]
    split_ifs with h
    · have hshape := b.commit_sameShape (b.rowIndex (y - 1) + 1)
      have hcursor : (b.commit (b.rowIndex (y - 1) + 1)).cursor = b.cursor := by
        unfold commit
        split_ifs <;> rfl
      simp only [getRow]
      obtain ⟨p, b', hloop, hle, hblank, hshape', hrow, hcursor'⟩ := ih
        (x := ((b.commit (b.rowIndex (y - 1) + 1)).row (y - 1)).measureRight - 1) (y := y - 1) rfl
      refine ⟨p, b', hloop, by omega, fun z hz hz' => ?_, hshape'.trans hshape, fun z => ?_,
        hcursor'.trans hcursor⟩
      · rcases eq_or_lt_of_le hz' with rfl | hlt
        · omega
        · have := hblank z hz (by omega)
          rwa [row_commit] at this
      · rw [hrow, row_commit]
    · exact ⟨_, _, rfl, le_rfl, fun z h h' => absurd (lt_of_lt_of_le h h') (lt_irrefl _), .refl b,
        fun _ => rfl, rfl⟩

theorem getLastNonSpaceCharacter_spec {b : TextBuffer} {viewOptional : Option Viewport}
    (hlen : b.rows.length ≤ b.height + 1) (hpos : 0 < b.height)
    (hview : b.SearchCovers viewOptional) :
    ∃ p b', b.getLastNonSpaceCharacter viewOptional = (p, b') ∧ 0 ≤ p.y ∧ p.y < b.height ∧
      (∀ y : ℤ, p.y < y → y < b.height → (b.row y).measureRight ≤ 0) ∧ b'.SameShape b ∧
      (∀ z, b'.row z = b.row z) ∧ b'.cursor = b.cursor := by
  obtain ⟨start, hstart⟩ : ∃ start : ℤ, start =
    min (viewOptional.getD b.getSize).bottomInclusive b.estimateOffsetOfLastCommittedRow := ⟨_, rfl⟩
  have hstart' : start < b.height := by
    have : b.estimateOffsetOfLastCommittedRow < b.height := by
      unfold estimateOffsetOfLastCommittedRow
      omega
    omega
  unfold SearchCovers at hview
  rw [← hstart] at hview
  have hshape := b.commit_sameShape (b.rowIndex start + 1)
  have hcursor : (b.commit (b.rowIndex start + 1)).cursor = b.cursor := by
    unfold commit
    split_ifs <;> rfl
  obtain ⟨p, b', hloop, hle, hblank, hshape', hrow, hcursor'⟩ :=
    lastNonSpaceLoop_spec (viewOptional.getD b.getSize).top
      (start - (viewOptional.getD b.getSize).top).toNat
      (x := ((b.commit (b.rowIndex start + 1)).row start).measureRight - 1) (y := start) rfl
  refine ⟨{ x := max p.x 0, y := max p.y 0 }, b', ?_, le_max_right _ _, ?_, fun y hy hy' => ?_,
    hshape'.trans hshape, fun z => ?_, hcursor'.trans hcursor⟩
  · unfold getLastNonSpaceCharacter
    simp only [← hstart, getRow, hloop]
  · exact max_lt (by omega) (by omega)
  · rcases lt_or_ge start y with h | h
    · exact hview y h hy'
    · have := hblank y (lt_of_le_of_lt (le_max_left _ _) hy) h
      rwa [row_commit] at this
  · rw [hrow, row_commit]

theorem measureRight_construct {width : ℕ} (h : width < 0x8000) (attr : TextAttribute) :
    (ROW.construct width attr).measureRight = 0 := by
  have hrep := ROW.construct_represents h attr
  have hread : (ROW.construct width attr).getReadableColumnCount = width := by
    change (width : ℤ) - 0 = width
    omega
  have hoff : (ROW.construct width attr).uncheckedCharOffset width = width := by
    have := ROW.Represents.offset_boundary (r := ROW.construct width attr)
      (A := blanks space width) (B := []) (by rw [List.append_nil]; exact hrep)
    rwa [cols_blanks, units_blanks] at this
  have htext : (ROW.construct width attr).getText = List.replicate width space := by
    rw [ROW.getText, hread, Int.toNat_natCast, hoff]
    change (List.replicate width space).take width = _
    rw [List.take_of_length_le (by rw [List.length_replicate])]
  change (ROW.construct width attr).getLastNonSpaceColumn = 0
  rw [ROW.getLastNonSpaceColumn, hread, htext, List.reverse_replicate,
    List.takeWhile_eq_self_iff.mpr (by simp), List.length_replicate]
  omega

theorem searchCovers_none {b : TextBuffer} (hpos : 0 < b.height) (hwidth : b.width < 0x8000)
    (h : b.firstRow = 0 ∨ b.rows.length = b.height + 1) : b.SearchCovers none := by
  intro y hy hy'
  have hsize : (Option.getD none b.getSize).bottomInclusive = b.height - 1 := rfl
  rw [hsize] at hy
  have hest : b.estimateOffsetOfLastCommittedRow = b.rows.length - 2 := rfl
  rcases h with h | h
  · have hidx := b.rowIndex_eq hpos y
    rw [h, zero_add, Int.emod_eq_of_lt (by omega) (by exact_mod_cast hy')] at hidx
    have hrow : b.row y = b.blankRow := by
      rw [row, List.getD_eq_default]
      omega
    rw [hrow, blankRow, measureRight_construct hwidth]
  · omega

/-! ### The text that is copied -/

/-- The position of the cursor, inside of the buffer. -/
def cursorPos (b : TextBuffer) : Point where
  x := clampInt b.cursor.position.x 0 (b.width - 1)
  y := clampInt b.cursor.position.y 0 (b.height - 1)

/-- The row of text that `TextBuffer::Reflow` copies from the row at `y`. -/
def copiedRow (b : TextBuffer) (y : ℕ) : TextRow WChar :=
  ((b.row y).copiedText (ReflowState.cursorIn b.cursorPos y), (b.row y).wrapForced)

/-- The rows of text that `TextBuffer::Reflow` copies. -/
def copiedRows (b : TextBuffer) (lastCharacterViewport : Option Viewport) : List (TextRow WChar) :=
  (List.range (max (b.getLastNonSpaceCharacter lastCharacterViewport).1.y b.cursorPos.y +
    1).toNat).map b.copiedRow

/-- A buffer of rows of single width with the cursor on a row that is not wrapped. -/
structure Reflowable (b : TextBuffer) : Prop where
  width_pos : 0 < b.width
  height_pos : 0 < b.height
  length_le : b.rows.length ≤ b.height + 1
  rows : ∀ y : ℕ, y < b.height → (b.row y).Reflowable b.width
  cursor : (b.row b.cursorPos.y).wrapForced = false

variable {b : TextBuffer}

theorem Reflowable.cursorPos_mem (hb : b.Reflowable) :
    (0 ≤ b.cursorPos.x ∧ b.cursorPos.x < b.width) ∧ 0 ≤ b.cursorPos.y ∧ b.cursorPos.y < b.height := by
  have h₁ := hb.width_pos
  have h₂ := hb.height_pos
  unfold cursorPos clampInt
  simp only
  constructor <;> constructor <;> split_ifs <;> omega

theorem Reflowable.cursorIn (hb : b.Reflowable) (y : ℕ) :
    ∀ x ∈ ReflowState.cursorIn b.cursorPos y,
      0 ≤ x ∧ x < b.width ∧ (b.row y).wrapForced = false := by
  intro x hx
  unfold ReflowState.cursorIn at hx
  split_ifs at hx with h
  · obtain ⟨⟨h₁, h₂⟩, -⟩ := hb.cursorPos_mem
    obtain rfl : b.cursorPos.x = x := by simpa using hx
    exact ⟨h₁, h₂, by rw [h]; exact hb.cursor⟩
  · simp at hx

theorem Reflowable.logicalLines_copied (hb : b.Reflowable) {count : ℕ} (hcount : count ≤ b.height)
    (hblank : ∀ y : ℕ, count ≤ y → y < b.height → (b.row y).measureRight ≤ 0) :
    IntelligentTerminal.logicalLines space ((List.range count).map b.copiedRow) =
      b.logicalLines := by
  obtain ⟨k, hk⟩ : ∃ k, b.height = count + k := ⟨_, (Nat.add_sub_of_le hcount).symm⟩
  have hsplit : b.textRows = ((List.range count).map fun (y : ℕ) => (b.row y).textRow) ++
      (List.range' count k).map fun (y : ℕ) => (b.row y).textRow := by
    rw [textRows, hk, List.range_eq_range', ← List.range'_append_1, List.map_append,
      List.range_eq_range', Nat.zero_add]
  rw [logicalLines, hsplit, logicalLines_append_blank]
  · refine logicalLines_congr (List.forall₂_map_left_iff.mpr (List.forall₂_map_right_iff.mpr ?_))
    refine List.forall₂_same.mpr fun y hy => ?_
    exact ((hb.rows y (by rw [List.mem_range] at hy; omega)).copiedText_spec (hb.cursorIn y)).2.2
  · intro r hr g hg
    obtain ⟨y, hy, rfl⟩ := List.mem_map.mp hr
    rw [List.mem_range'_1] at hy
    have hrow := hb.rows y (by omega)
    obtain ⟨t, j, ht, hmeasure⟩ := hrow.measureRight_eq
    have hle := hblank y (by omega) (by omega)
    rw [hmeasure] at hle
    have htext : (b.row y).textRow.1 = (b.row y).lineText := rfl
    rw [htext] at hg
    split_ifs at hle
    · rw [cols_eq_zero_iff.mp (show cols (b.row y).lineText = 0 by omega)] at hg
      simp at hg
    · rw [ht, cols_eq_zero_iff.mp (show cols t = 0 by omega), List.nil_append] at hg
      exact List.eq_of_mem_replicate hg

end TextBuffer

/-! ### The loop over the old rows -/

namespace ReflowState

variable {W H : ℕ} {s : ReflowState} {L : Layout WChar} {old : TextBuffer}

theorem copyRow_laid (hW : 2 ≤ W) (hold : old.Reflowable) {y : ℕ} (hy : y < old.height)
    (h : Reflowed W H old y L s) {fuel : ℕ} (hfuel : 2 * old.width + 2 ≤ fuel)
    (hfits : RowsFit W H (L.row W (old.copiedRow y)).close) :
    ∃ s', s.copyRow fuel old.cursorPos = .ok s' ∧
      Reflowed W H old (y + 1) (L.row W (old.copiedRow y)) s' := by
  have hrow : (s.oldBuffer.getRow s.oldY).1 = old.row y := by
    rw [TextBuffer.getRow, TextBuffer.row_commit, h.row_eq, h.oldY]
  have h' : Reflowed W H old y L { s with oldBuffer := (s.oldBuffer.getRow s.oldY).2 } :=
    ⟨h.laid, h.full, h.newY, h.newX, h.newYLimit, fun z => by
      simp only [TextBuffer.getRow]
      rw [TextBuffer.row_commit, h.row_eq], h.oldY⟩
  obtain ⟨s', hs', hdone⟩ := copyLine_laid hW hold.width_pos h' (hold.rows y hy) (hold.cursorIn y)
    hfuel rfl hfits
  refine ⟨{ s' with oldY := s'.oldY + 1 }, ?_, hdone.laid, hdone.full, hdone.newY, hdone.newX,
    hdone.newYLimit, hdone.row_eq, ?_⟩
  · have hget : s.oldBuffer.getRow s.oldY = (old.row y, (s.oldBuffer.getRow s.oldY).2) :=
      Prod.ext hrow rfl
    rw [copyRow, hget]
    simp only
    rw [if_pos (hold.rows y hy).singleWidth, hs']
    rfl
  · simp only [hdone.oldY]
    push_cast
    rfl

theorem copyRows_laid (hW : 2 ≤ W) (hold : old.Reflowable) {fuel : ℕ}
    (hfuel : 2 * old.width + 2 ≤ fuel) : ∀ {count y : ℕ} {L : Layout WChar} {s : ReflowState},
    y + count ≤ old.height → Reflowed W H old y L s →
    RowsFit W H (((List.range' y count).map old.copiedRow).foldl (Layout.row W) L).close →
    ∃ s', copyRows fuel old.cursorPos count s = .ok s' ∧ Reflowed W H old (y + count)
      (((List.range' y count).map old.copiedRow).foldl (Layout.row W) L) s' := by
  intro count
  induction count with
  | zero =>
    intro y L s _ h _
    exact ⟨s, rfl, h⟩
  | succ count ih =>
    intro y L s hle h hfits
    rw [List.range'_succ, List.map_cons, List.foldl_cons] at hfits ⊢
    have hfits' := hfits.of_grows (Layout.grows_foldl_row _ _)
    obtain ⟨s₁, hs₁, hnext⟩ := copyRow_laid hW hold (by omega) h hfuel hfits'
    obtain ⟨s', hs', hdone⟩ := ih (by omega) hnext hfits
    have hlt : s.newY < s.newYLimit := by
      -- the row that comes next is inside of the buffer
      have hgrow : Grows (L.begin W).close (L.row W (old.copiedRow y)).close :=
        (Layout.grows_foldl_put (by rfl) _).trans (Layout.grows_endRow (by
          rw [Layout.opened_foldl_put]; rfl) _)
      have hlen := (hfits'.of_grows hgrow).length_le
      have hlim := h.newYLimit
      rw [Layout.close_begin] at hlen
      rw [h.newY]
      split_ifs at hlen <;> simp only [List.length_append, List.length_cons] at hlen <;> omega
    refine ⟨s', ?_, by rw [← Nat.add_assoc, Nat.add_right_comm]; exact hdone⟩
    rw [copyRows, if_pos hlt, hs₁]
    exact hs'

/-! ### The rest -/

/-- The rows have the same text and flags. -/
structure SameText (r r' : ROW) : Prop where
  chars : r'.chars = r.chars
  charOffsets : r'.charOffsets = r.charOffsets
  columnCount : r'.columnCount = r.columnCount
  wrapForced : r'.wrapForced = r.wrapForced
  doubleBytePadded : r'.doubleBytePadded = r.doubleBytePadded

theorem SameText.trans {r r' r'' : ROW} (h : SameText r' r'') (h' : SameText r r') :
    SameText r r'' :=
  ⟨h.chars.trans h'.chars, h.charOffsets.trans h'.charOffsets,
    h.columnCount.trans h'.columnCount, h.wrapForced.trans h'.wrapForced,
    h.doubleBytePadded.trans h'.doubleBytePadded⟩

theorem copyRestRow_spec (hpos : 0 ≤ s.newY) (hlt : s.newY < s.newBuffer.height) {z : ℕ}
    (hz : z < s.newBuffer.height) :
    SameText (s.newBuffer.row z) (s.copyRestRow.newBuffer.row z) := by
  obtain ⟨y, hy⟩ : ∃ y : ℕ, s.newY = y := ⟨s.newY.toNat, by omega⟩
  unfold copyRestRow
  simp only [hy]
  rw [TextBuffer.row_getRow_setRow (by omega) hz]
  split_ifs with heq
  · have hnew : s.newRow = s.newBuffer.row z := by
      rw [newRow, TextBuffer.getRow, TextBuffer.row_commit, hy, heq]
    rw [hnew]
    exact ⟨rfl, rfl, rfl, rfl, rfl⟩
  · exact ⟨rfl, rfl, rfl, rfl, rfl⟩

theorem copyRest_spec : ∀ (count : ℕ) {s : ReflowState}, 0 ≤ s.newY → s.newY ≤ s.newBuffer.height →
    (copyRest count s).newY ≤ s.newBuffer.height ∧
      (copyRest count s).newBuffer.SameShape s.newBuffer ∧
      (∀ z : ℕ, z < s.newBuffer.height →
        SameText (s.newBuffer.row z) ((copyRest count s).newBuffer.row z)) ∧
      ∀ z, (copyRest count s).oldBuffer.row z = s.oldBuffer.row z := by
  intro count
  induction count with
  | zero =>
    intro s _ hle
    exact ⟨hle, .refl _, fun z _ => ⟨rfl, rfl, rfl, rfl, rfl⟩, fun _ => rfl⟩
  | succ count ih =>
    intro s hpos hle
    rw [copyRest]
    split_ifs with hlt
    · have hshape : s.copyRestRow.newBuffer.SameShape s.newBuffer :=
        s.newBuffer.getRow_setRow_sameShape s.newY _
      have hheight := hshape.height
      have hY : s.copyRestRow.newY = s.newY + 1 := rfl
      obtain ⟨h₁, h₂, h₃, h₄⟩ := ih (s := s.copyRestRow) (by omega) (by omega)
      refine ⟨by omega, h₂.trans hshape, fun z hz => ?_, fun z => ?_⟩
      · exact (h₃ z (by omega)).trans (copyRestRow_spec hpos hlt hz)
      · rw [h₄, copyRestRow, TextBuffer.getRow, TextBuffer.row_commit]
    · exact ⟨hle, .refl _, fun z _ => ⟨rfl, rfl, rfl, rfl, rfl⟩, fun _ => rfl⟩

end ReflowState

/-! ### The lines of the new buffer -/

theorem NewRow.sameRow {W : ℕ} {t : List (Glyph WChar)} {wraps : Bool} {r : ROW}
    (hr : NewRow W t wraps (wraps && decide (cols t < W)) r) (hle : cols t ≤ W)
    (hfull : wraps = true → W ≤ cols t + 1) : SameRow space r.textRow (t, wraps) := by
  have hcount : r.columnCount = W := by
    rw [← hr.represents.count, cols_append, cols_blanks]
    omega
  have hglyphs := hr.represents.glyphs_eq
  refine ⟨hr.wrapForced, ?_⟩
  simp only [ROW.textRow, ROW.lineText, hr.doubleBytePadded, hr.wrapForced, hglyphs, hcount]
  cases wraps with
  | false =>
    right
    exact ⟨rfl, t, W - cols t, 0, by simp, by simp [blanks]⟩
  | true =>
    left
    have hle' := hfull rfl
    rcases Nat.lt_or_ge (cols t) W with hlt | hge
    · rw [decide_eq_true hlt, Bool.true_and, if_pos rfl, show W - 1 = cols t by omega,
        fitting_append_self]
    · rw [decide_eq_false (by omega), Bool.true_and, if_neg Bool.false_ne_true,
        show W - cols t = 0 by omega]
      simp [blanks]

variable {W H : ℕ}

theorem Laid.logicalLines {L : Layout WChar} {b : TextBuffer}
    (hL : Laid W H L false b) (hfull : L.Full W) (htidy : L.Tidy) (hlen : L.close.length ≤ H) :
    b.logicalLines = IntelligentTerminal.logicalLines space L.close := by
  obtain ⟨rows, hrows⟩ : ∃ rows, rows =
    L.close ++ List.replicate (H - L.close.length) (([], false) : TextRow WChar) := ⟨_, rfl⟩
  have hlen₁ : b.textRows.length = H := by
    rw [TextBuffer.textRows, List.length_map, List.length_range, hL.height]
  have hlen₂ : rows.length = H := by
    rw [hrows, List.length_append, List.length_replicate]
    omega
  have hdone : ∃ t, rows = L.done ++ t := by
    rw [hrows]
    unfold Layout.close
    split_ifs
    · exact ⟨_, List.append_assoc _ _ _⟩
    · exact ⟨_, rfl⟩
  have hcur : L.done.length < H → rows =
      L.done ++ (L.cur, false) :: List.replicate (H - L.done.length - 1) ([], false) := by
    intro hlt
    rw [hrows]
    unfold Layout.close
    split_ifs with hopen
    · rw [List.append_assoc, List.length_append, List.length_singleton, Nat.sub_sub]
      rfl
    · rw [htidy (by simpa using hopen), ← List.replicate_succ]
      congr 2
      omega
  -- each row of the buffer holds the row of the layout, or blanks
  have hrow : ∀ i < H, ∃ p, rows[i]? = some p ∧ SameRow space (b.row i).textRow p := by
    intro i hi
    rcases Nat.lt_trichotomy i L.done.length with hlt | rfl | hgt
    · obtain ⟨t, ht⟩ := hdone
      have hp : L.done[i]? = some L.done[i] := List.getElem?_eq_getElem hlt
      refine ⟨L.done[i], by rw [ht, List.getElem?_append_left hlt, hp],
        (hL.done i _ hp).sameRow ?_ ?_⟩
      · exact hfull.cols_le _ (List.getElem_mem hlt)
      · exact hfull.le_cols _ (List.getElem_mem hlt)
    · refine ⟨(L.cur, false), ?_, (hL.cur hi).sameRow hfull.cols_cur_le (by simp)⟩
      rw [hcur hi, List.getElem?_append_right le_rfl, Nat.sub_self, List.getElem?_cons_zero]
    · refine ⟨([], false), ?_, (hL.rest i hgt hi).sameRow (Nat.zero_le W) (by simp)⟩
      rw [hcur (by omega), List.getElem?_append_right hgt.le,
        show i - L.done.length = i - L.done.length - 1 + 1 by omega, List.getElem?_cons_succ,
        List.getElem?_replicate, if_pos (by omega)]
  have hforall : List.Forall₂ (SameRow space) b.textRows rows := by
    rw [List.forall₂_iff_get]
    refine ⟨by omega, fun i hi hi' => ?_⟩
    obtain ⟨p, hp, hsame⟩ := hrow i (by omega)
    have hget : b.textRows.get ⟨i, hi⟩ = (b.row i).textRow := by
      simp [TextBuffer.textRows]
    have hget' : rows.get ⟨i, hi'⟩ = p :=
      Option.some.inj ((List.getElem?_eq_getElem hi').symm.trans hp)
    rw [hget, hget']
    exact hsame
  rw [TextBuffer.logicalLines, logicalLines_congr hforall, hrows, logicalLines_append_blank]
  intro r hr g hg
  rw [List.eq_of_mem_replicate hr] at hg
  simp at hg

/-! ### Reflow -/

theorem ReflowState.SameText.textRow_eq {r r' : ROW} (h : ReflowState.SameText r r') :
    r'.textRow = r.textRow := by
  obtain ⟨h₁, h₂, h₃, h₄, h₅⟩ := h
  rcases r with ⟨_, _, _, _, _, _, _, _, _⟩
  rcases r' with ⟨_, _, _, _, _, _, _, _, _⟩
  simp only at h₁ h₂ h₃ h₄ h₅
  subst h₁ h₂ h₃ h₄ h₅
  rfl

theorem ReflowState.RowsFit.pos (hW : 0 < W) {r : TextRow WChar}
    {rows : List (TextRow WChar)} (h : ReflowState.RowsFit W H (layout W (r :: rows))) :
    0 < H ∧ W < 0x8000 := by
  have hgrow : Grows (Layout.begin W ({} : Layout WChar)).close (layout W (r :: rows)) :=
    (Layout.grows_foldl_put (by rfl) _).trans ((Layout.grows_endRow (by
      rw [Layout.opened_foldl_put]; rfl) _).trans (Layout.grows_foldl_row _ rows))
  obtain ⟨h₁, h₂⟩ := (h.of_grows hgrow).cur rfl
  have hcur : (Layout.begin W ({} : Layout WChar)).cur = [] := by
    rw [Layout.begin, if_pos (by simpa using hW)]
  rw [hcur, units_nil, cols_nil] at h₂
  omega

theorem laid_new (hW : 0 < W) (hW' : W < 0x8000) (hH : 0 < H) (attr : TextAttribute)
    (cursorSize : ℕ) : Laid W H {} false (TextBuffer.new W H attr cursorSize) := by
  have hwidth : max W 1 = W := by omega
  have hrow : ∀ y : ℤ, NewRow W [] false false ((TextBuffer.new W H attr cursorSize).row y) := by
    intro y
    have hblank : (TextBuffer.new W H attr cursorSize).row y = ROW.construct W attr := by
      change ROW.construct (max W 1) attr = _
      rw [hwidth]
    rw [hblank]
    refine ⟨?_, rfl, rfl, List.length_replicate⟩
    rw [cols_nil, Nat.sub_zero, List.nil_append]
    exact ROW.construct_represents hW' attr
  exact ⟨hwidth, by change max H 1 = H; omega, rfl, Nat.zero_le H, fun i p hp => by simp at hp,
    fun _ => hrow _, fun y _ _ => hrow y⟩

/-- `TextBuffer::Reflow` of a buffer of rows of single width, with the cursor on a row that is
not wrapped, into a new buffer that is tall enough: the new buffer has the lines of the old one. -/
theorem reflow_logicalLines {old : TextBuffer} (hold : old.Reflowable) {W H : ℕ} (hW : 2 ≤ W)
    (hH : H ≤ uint16Max) {lastCharacterViewport : Option Viewport}
    (hview : old.SearchCovers lastCharacterViewport)
    (hfits : ReflowState.RowsFit W H (layout W (old.copiedRows lastCharacterViewport)))
    (positionInfo : Option PositionInformation) (attr : TextAttribute) (cursorSize : ℕ) {fuel : ℕ}
    (hfuel : 2 * old.width + 2 ≤ fuel) :
    ∃ old' new info,
      TextBuffer.reflow fuel old (TextBuffer.new W H attr cursorSize) lastCharacterViewport
        positionInfo = .ok (old', new, info) ∧
      new.logicalLines = old.logicalLines ∧ ∀ y, old'.row y = old.row y := by
  obtain ⟨p, b, hlast, hp, hp', hblank, hshape, hrow, hcursor⟩ :=
    TextBuffer.getLastNonSpaceCharacter_spec hold.length_le hold.height_pos hview
  obtain ⟨-, hcur, hcur'⟩ := hold.cursorPos_mem
  obtain ⟨count, hcount⟩ : ∃ count : ℕ, max p.y old.cursorPos.y + 1 = count :=
    ⟨(max p.y old.cursorPos.y + 1).toNat, by omega⟩
  have hcopied : old.copiedRows lastCharacterViewport = (List.range count).map old.copiedRow := by
    rw [TextBuffer.copiedRows, hlast, hcount, Int.toNat_natCast]
  rw [hcopied] at hfits
  have hle : count ≤ old.height := by omega
  obtain ⟨hHpos, hW'⟩ : 0 < H ∧ W < 0x8000 := by
    have hrange : List.range count = 0 :: (List.range (count - 1)).map Nat.succ := by
      rw [← List.range_succ_eq_map]
      congr 1
      omega
    rw [hrange, List.map_cons] at hfits
    exact hfits.pos (by omega)
  -- the loop over the old rows
  obtain ⟨s₀, hs₀⟩ : ∃ s₀ : ReflowState, s₀ =
      { oldBuffer := b, newBuffer := TextBuffer.new W H attr cursorSize, positionInfo
        mutableViewportTop := (positionInfo.map (·.mutableViewportTop)).getD coordTypeMax
        visibleViewportTop := (positionInfo.map (·.visibleViewportTop)).getD coordTypeMax } :=
    ⟨_, rfl⟩
  have hstart : ReflowState.Reflowed W H old 0 {} s₀ := by
    rw [hs₀]
    refine ⟨laid_new (by omega) hW' hHpos attr cursorSize,
      ⟨fun r hr => by simp at hr, fun r hr => by simp at hr, Nat.zero_le W⟩, rfl, rfl, ?_, hrow, rfl⟩
    unfold coordTypeMax
    unfold uint16Max at hH
    simp only
    omega
  rw [layout, List.range_eq_range'] at hfits
  obtain ⟨s, hs, hdone⟩ := ReflowState.copyRows_laid hW hold hfuel (by omega) hstart hfits
  rw [← List.range_eq_range'] at hdone hfits
  have htidy : (((List.range count).map old.copiedRow).foldl (Layout.row W) {}).Tidy :=
    Layout.tidy_foldl_row (fun _ => rfl) _
  have hlines : logicalLines space (layout W ((List.range count).map old.copiedRow)) =
      logicalLines space ((List.range count).map old.copiedRow) := logicalLines_layout W _
  rw [layout] at hlines
  generalize ((List.range count).map old.copiedRow).foldl (Layout.row W) {} = L at *
  -- the rest changes no text
  obtain ⟨s₁, hs₁⟩ : ∃ s₁, s₁ = if s.newX ≠ 0 then s.newline else s := ⟨_, rfl⟩
  have hs₁' : s₁.newBuffer = s.newBuffer ∧ s₁.oldBuffer = s.oldBuffer ∧ 0 ≤ s₁.newY ∧
      s₁.newY ≤ s₁.newBuffer.height := by
    have hY := hdone.newY
    have hlen := hdone.laid.length_le
    have hheight := hdone.laid.height
    rw [hs₁]
    split_ifs with hX
    · have hopen : L.opened = true := by
        by_contra h
        rw [hdone.newX, htidy (by simpa using h)] at hX
        exact hX rfl
      have := (hfits.cur hopen).1
      refine ⟨rfl, rfl, ?_, ?_⟩ <;> simp only [ReflowState.newline] <;> omega
    · exact ⟨rfl, rfl, by omega, by omega⟩
  obtain ⟨hnew, holdb, hpos, hlast'⟩ := hs₁'
  obtain ⟨rest, hrest⟩ : ∃ rest : ℕ,
    rest = ((s₁.oldBuffer.estimateOffsetOfLastCommittedRow : ℤ) + 1 - s₁.oldY).toNat := ⟨_, rfl⟩
  obtain ⟨hY, hshape', htext, holdrow⟩ := ReflowState.copyRest_spec rest hpos hlast'
  have hrotate : (ReflowState.copyRest rest s₁).rotate = ReflowState.copyRest rest s₁ :=
    if_neg (by rw [hshape'.height]; omega)
  have hlines' : s.newBuffer.logicalLines = old.logicalLines := by
    rw [hdone.laid.logicalLines hdone.full htidy hfits.length_le, hlines]
    exact hold.logicalLines_copied hle fun y hy hy' => hblank y (by omega) (by omega)
  refine ⟨(ReflowState.copyRest rest s₁).oldBuffer,
    { (ReflowState.copyRest rest s₁).newBuffer with
      cursor :=
        { position := (ReflowState.copyRest rest s₁).newCursorPos
          size := (ReflowState.copyRest rest s₁).oldBuffer.cursor.size } },
    (ReflowState.copyRest rest s₁).positionInfo, ?_, ?_, fun y => ?_⟩
  · have hcount' : (max p.y old.cursorPos.y + 1).toNat = count := by omega
    unfold TextBuffer.reflow
    rw [hlast]
    change Except.map _ (ReflowState.copyRows fuel old.cursorPos
      (max p.y old.cursorPos.y + 1).toNat _) = _
    rw [hcount', ← hs₀, hs]
    simp only [Except.map]
    rw [← hs₁, ← hrest, hrotate]
  · have hrows : (ReflowState.copyRest rest s₁).newBuffer.textRows = s₁.newBuffer.textRows := by
      rw [TextBuffer.textRows, TextBuffer.textRows, hshape'.height]
      refine List.map_congr_left fun z hz => ?_
      exact (htext z (List.mem_range.mp hz)).textRow_eq
    rw [← hlines', ← hnew, TextBuffer.logicalLines, TextBuffer.logicalLines, ← hrows]
    rfl
  · rw [holdrow, holdb, hdone.row_eq]

/-- Two rows of one line, laid out at a smaller width. -/
theorem reflow_logicalLines_wrapped :
    let old : TextBuffer :=
      { width := 3, height := 2, cursor := { position := { x := 0, y := 1 } }
        rows := [ROW.construct 3 {},
          { ROW.construct 3 {} with chars := [0x61, 0x62, 0x63], wrapForced := true },
          { ROW.construct 3 {} with chars := [0x64, space, space] }] }
    ∃ old' new info,
      old.reflow 8 (TextBuffer.new 2 2 {} 25) none none = .ok (old', new, info) ∧
      new.logicalLines = [[single 0x61, single 0x62, single 0x63, single 0x64]] := by
  intro old
  have hrows : ∀ y : ℕ, y < old.height → (old.row y).Reflowable old.width := by
    intro y hy
    have hcase : y = 0 ∨ y = 1 := by
      have : old.height = 2 := rfl
      omega
    rcases hcase with rfl | rfl
    · exact ⟨⟨⟨by decide, by decide, by decide, by decide, by decide, by decide⟩, rfl, rfl⟩, rfl,
        fun h => absurd h (by decide), by decide⟩
    · exact ⟨⟨⟨by decide, by decide, by decide, by decide, by decide, by decide⟩, rfl, rfl⟩, rfl,
        fun h => absurd h (by decide), by decide⟩
  have hold : old.Reflowable := ⟨by decide, by decide, by decide, hrows, by decide⟩
  have hfits : ReflowState.RowsFit 2 2 (layout 2 (old.copiedRows none)) := by
    refine ⟨by decide +kernel, fun p hp t ht => ?_⟩
    have hall : ∀ p ∈ layout 2 (old.copiedRows none), ∀ t ∈ p.1.inits,
        units t + (2 - cols t) < 0x8000 := by decide +kernel
    exact hall p hp t ((List.mem_inits t p.1).mpr ht)
  obtain ⟨old', new, info, hreflow, hlines, -⟩ := reflow_logicalLines hold (le_refl 2) (by decide)
    (TextBuffer.searchCovers_none (by decide) (by decide) (Or.inl rfl)) hfits none {} 25
    (show 8 ≤ 8 from le_rfl)
  refine ⟨old', new, info, hreflow, hlines.trans ?_⟩
  decide +kernel

/-- The lines of a buffer where blanks are dropped from the last row of each line only. -/
def TextBuffer.lastRowTrimmedLines (b : TextBuffer) : List (List (Glyph WChar)) :=
  (linesOf (stream (b.textRows.map fun r =>
    if r.2 then r else (r.1.rdropWhile (· = blank space), false)))).rdropWhile (· = [])

/-- A wrapped row that ends with blanks, and an empty row behind it: the line has lost its blanks
in the new buffer, where it has one row. -/
theorem reflow_not_lastRowTrimmedLines :
    let old : TextBuffer :=
      { width := 4, height := 3, cursor := { position := { x := 0, y := 2 } }
        rows := [ROW.construct 4 {},
          { ROW.construct 4 {} with chars := [0x61, 0x62, space, space], wrapForced := true },
          ROW.construct 4 {},
          { ROW.construct 4 {} with chars := [0x78, space, space, space] }] }
    old.lastRowTrimmedLines =
      [[single 0x61, single 0x62, single space, single space], [single 0x78]] ∧
    (old.reflow 10 (TextBuffer.new 8 3 {} 25) none none).map (fun p => p.2.1.lastRowTrimmedLines) =
      .ok [[single 0x61, single 0x62], [single 0x78]] := by
  decide +kernel

end IntelligentTerminal.Buffer
