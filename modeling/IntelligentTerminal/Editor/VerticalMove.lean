import IntelligentTerminal.Editor.Wrapping

/-!
# The cursor above or below

A vertical move goes to the position of the row above or below that is closest to the preferred
column, and stops before a position at which the row is full. A row that ends at a soft break may be
narrower than the box, where a wide character did not fit. Its end is the start of the next row, so a
move that reaches it is a move to the next row.

Source: `tools/wta/src/ui/input.rs`, lines 338-387 and 420-508.
-/

namespace IntelligentTerminal.Editor

open Data

variable {env : Env} {maxWidth offset : ℕ} {lines : List (List Char)} {starts : List ℕ}
  {line text : List Char} {position row col start : ℕ}

/-! ### Rows and their positions -/

theorem IsCaret.cons (h : IsCaret env lines starts position row col) (line : List Char)
    (offset : ℕ) : IsCaret env (line :: lines) (offset :: starts) position (row + 1) col := by
  obtain ⟨⟨before, after, start, hline, hstart, hposition, hcol⟩, hbelow⟩ := h
  exact ⟨⟨before, after, start, hline, hstart, hposition, hcol⟩, hbelow⟩

namespace Wrapping

theorem le_of_mem (h : Wrapping env maxWidth offset lines starts text) :
    ∀ start ∈ starts, offset ≤ start := by
  induction h with
  | last offset hline => simp
  | newline offset hline h ih =>
    exact List.forall_mem_cons.mpr ⟨le_rfl, fun start hmem => by have := ih start hmem; omega⟩
  | soft offset hline hne hover h ih =>
    exact List.forall_mem_cons.mpr ⟨le_rfl, fun start hmem => by have := ih start hmem; omega⟩

theorem pairwise (h : Wrapping env maxWidth offset lines starts text) :
    starts.Pairwise (· < ·) := by
  induction h with
  | last offset hline => exact List.pairwise_singleton _ _
  | newline offset hline h ih =>
    refine List.pairwise_cons.mpr ⟨fun start hmem => ?_, ih⟩
    have := h.le_of_mem start hmem
    omega
  | soft offset hline hne hover h ih =>
    refine List.pairwise_cons.mpr ⟨fun start hmem => ?_, ih⟩
    have hpos := mt (width_eq_zero Char.utf8Size_pos).mp hne
    have := h.le_of_mem start hmem
    unfold len at this
    omega

theorem exists_next (h : Wrapping env maxWidth offset lines starts text)
    (hline : lines[row]? = some line) (hstart : starts[row]? = some start) :
    starts[row + 1]? = none ∨ starts[row + 1]? = some (start + len line + 1) ∨
      starts[row + 1]? = some (start + len line) ∧ line ≠ [] := by
  induction h generalizing row with
  | last offset hline' => exact .inl (List.getElem?_eq_none (by simp))
  | newline offset hline' h ih =>
    cases row with
    | zero =>
      obtain rfl := Option.some.inj hline
      obtain rfl := Option.some.inj hstart
      refine .inr (.inl ?_)
      cases h <;> rfl
    | succ row => exact ih hline hstart
  | soft offset hline' hne hover h ih =>
    cases row with
    | zero =>
      obtain rfl := Option.some.inj hline
      obtain rfl := Option.some.inj hstart
      refine .inr (.inr ⟨?_, hne⟩)
      cases h <;> rfl
    | succ row => exact ih hline hstart

theorem exists_isCaret (h : Wrapping env maxWidth offset lines starts text) {a b : List Char}
    (htext : text = a ++ b) : ∃ row col, IsCaret env lines starts (offset + len a) row col := by
  induction h generalizing a b with
  | @last offset line hline =>
    exact ⟨0, _, ⟨a, b, offset, congrArg some htext, rfl, rfl, rfl⟩, by simp⟩
  | @newline offset line hline lines starts rest h ih =>
    rcases List.append_eq_append_iff.mp htext with ⟨c, rfl, hc⟩ | ⟨c, rfl, hc⟩
    · cases c with
      | nil =>
        rw [List.append_nil]
        refine ⟨0, _, ⟨line, [], offset, by simp, rfl, rfl, rfl⟩, fun start hmem => ?_⟩
        have := h.le_of_mem start hmem
        omega
      | cons ch c =>
        obtain ⟨rfl, hrest⟩ := List.cons.inj hc
        obtain ⟨row, col, hcaret⟩ := ih hrest
        have hnewline : Char.utf8Size '\n' = 1 := rfl
        have hlen : offset + len (line ++ '\n' :: c) = offset + len line + 1 + len c := by
          rw [len, len, len, width_append, width_cons, hnewline]
          omega
        exact ⟨row + 1, col, hlen ▸ hcaret.cons line offset⟩
    · refine ⟨0, _, ⟨a, c, offset, rfl, rfl, rfl, rfl⟩, fun start hmem => ?_⟩
      have := h.le_of_mem start hmem
      rw [len, width_append] at this
      unfold len
      omega
  | @soft offset line hline hne lines starts rest hover h ih =>
    rcases List.append_eq_append_iff.mp htext with ⟨c, rfl, hc⟩ | ⟨c, rfl, hc⟩
    · obtain ⟨row, col, hcaret⟩ := ih hc
      have hlen : offset + len (line ++ c) = offset + len line + len c := by
        rw [len, len, len, width_append]
        omega
      exact ⟨row + 1, col, hlen ▸ hcaret.cons line offset⟩
    · cases c with
      | nil =>
        -- The position is at the soft break: it is in the next row.
        obtain ⟨row, col, hcaret⟩ := ih (a := []) rfl
        rw [List.append_nil] at hcaret
        exact ⟨row + 1, col, by simpa using hcaret.cons a offset⟩
      | cons ch c =>
        refine ⟨0, _, ⟨a, ch :: c, offset, rfl, rfl, rfl, rfl⟩, fun start hmem => ?_⟩
        have := h.le_of_mem start hmem
        have hpos := Char.utf8Size_pos ch
        rw [len, width_append, width_cons] at this
        unfold len
        omega

theorem takeWhile_of_getElem? (h : starts.Pairwise (· < ·)) (hstart : starts[row]? = some start)
    (hle : start ≤ position) :
    starts.takeWhile (· ≤ position) =
      starts.take (row + 1) ++ (starts.drop (row + 1)).takeWhile (· ≤ position) := by
  have htake : ∀ first ∈ starts.take (row + 1), decide (first ≤ position) = true := by
    induction h generalizing row with
    | nil => simp
    | @cons first starts hfirst hsorted ih =>
      cases row with
      | zero =>
        obtain rfl := Option.some.inj hstart
        simpa using hle
      | succ row =>
        have := hfirst start (List.mem_of_getElem? hstart)
        exact List.forall_mem_cons.mpr ⟨decide_eq_true (by omega), ih hstart⟩
  conv_lhs => rw [← List.take_append_drop (row + 1) starts]
  exact List.takeWhile_append_of_pos htake

theorem rowOf_eq (h : Wrapping env maxWidth offset lines starts text)
    (hcaret : IsCaret env lines starts position row col) : rowOf starts position = row := by
  obtain ⟨before, after, start, -, hstart, hposition, -⟩ := hcaret.line
  have hlater : (starts.drop (row + 1)).takeWhile (· ≤ position) = [] := by
    cases hdrop : starts.drop (row + 1) with
    | nil => rfl
    | cons start later =>
      have := hcaret.below start (hdrop ▸ List.mem_cons_self)
      exact List.takeWhile_cons_of_neg (by simpa using this)
  have hrow := (List.getElem?_eq_some_iff.mp hstart).1
  rw [rowOf, takeWhile_of_getElem? h.pairwise hstart (by omega), hlater, List.append_nil,
    List.length_take_of_le hrow]
  rfl

theorem isCaret_of_row (h : Wrapping env maxWidth offset lines starts text) {before after : List Char}
    (hline : lines[row]? = some (before ++ after)) (hstart : starts[row]? = some start)
    (hend : after = [] → starts[row + 1]? ≠ some (start + len before)) :
    IsCaret env lines starts (start + len before) row (displayWidth env before) := by
  refine ⟨⟨before, after, start, hline, hstart, rfl, rfl⟩, fun later hlater => ?_⟩
  cases hdrop : starts.drop (row + 1) with
  | nil => exact absurd (hdrop ▸ hlater) List.not_mem_nil
  | cons next rest =>
    have hnext : starts[row + 1]? = some next := by
      rw [← Nat.add_zero (row + 1), ← List.getElem?_drop, hdrop]
      rfl
    have hle : next ≤ later := by
      have hsorted := h.pairwise.sublist (List.drop_sublist (row + 1) starts)
      rw [hdrop] at hsorted hlater
      rcases List.mem_cons.mp hlater with rfl | hlater
      · exact le_rfl
      · exact ((List.pairwise_cons.mp hsorted).1 later hlater).le
    refine lt_of_lt_of_le ?_ hle
    rcases h.exists_next hline hstart with hnone | hhard | ⟨hsoft, -⟩
    · rw [hnext] at hnone
      exact absurd hnone (Option.some_ne_none _)
    · rw [hnext] at hhard
      obtain rfl := Option.some.inj hhard
      rw [len, len, width_append]
      omega
    · rw [hnext] at hsoft
      obtain rfl := Option.some.inj hsoft
      have hne : after ≠ [] := by
        rintro rfl
        rw [List.append_nil] at hnext
        exact hend rfl hnext
      have hpos := mt (width_eq_zero Char.utf8Size_pos).mp hne
      rw [len, len, width_append]
      omega

theorem lt_rowOf (h : Wrapping env maxWidth offset lines starts text)
    (hnext : starts[row + 1]? = some position) : row < rowOf starts position := by
  have hrow := (List.getElem?_eq_some_iff.mp hnext).1
  rw [rowOf, takeWhile_of_getElem? h.pairwise hnext le_rfl, List.length_append,
    List.length_take_of_le hrow]
  omega

end Wrapping

/-! ### A move -/

theorem exists_columnLoop (env : Env) (column width displayColumn position : ℕ)
    (line : List Char) :
    ∃ before after, line = before ++ after ∧
      columnLoop env column width position displayColumn line = position + len before ∧
      (after = [] ↔ line = [] ∨
        displayColumn + displayWidth env line ≤ column ∧
          displayColumn + displayWidth env line < width) := by
  induction line generalizing displayColumn position with
  | nil => exact ⟨[], [], rfl, rfl, by simp⟩
  | cons ch line ih =>
    have hwidth : displayWidth env (ch :: line) = charDisplayWidth env ch + displayWidth env line :=
      width_cons _ _ _
    rw [columnLoop]
    split_ifs with hstop
    · refine ⟨[], ch :: line, rfl, rfl, iff_of_false (List.cons_ne_nil _ _) ?_⟩
      rintro (h | h)
      · exact h.elim
      · rw [hwidth] at h
        omega
    · obtain ⟨before, after, rfl, hloop, hend⟩ :=
        ih (displayColumn + charDisplayWidth env ch) (position + ch.utf8Size)
      refine ⟨ch :: before, after, rfl, ?_, ?_⟩
      · rw [hloop, len, len, width_cons, Nat.add_assoc]
      · rw [hend, hwidth]
        constructor
        · rintro (h | h)
          · rw [h, displayWidth, width_nil]
            exact .inr (by omega)
          · exact .inr (by omega)
        · rintro (h | h)
          · exact absurd h (by simp)
          · exact .inr (by omega)

/-- The wrapping that `adjacent_input_cursor` uses. -/
def adjacentLayout (env : Env) (input : List Char) (cursorPos totalWidth : ℕ)
    (preferredColumn : Option ℕ) : WrappedInput :=
  wrapInput env input
    (if preferredColumn.isSome then len input else clampCursorToBoundary input cursorPos)
    (inputTextWidth totalWidth)

variable (env) (input : List Char) (cursorPos totalWidth : ℕ) (upward : Bool)
  (preferredColumn : Option ℕ)

theorem wrapping_adjacentLayout :
    Wrapping env (inputTextWidth totalWidth) 0
      (adjacentLayout env input cursorPos totalWidth preferredColumn).lines
      (adjacentLayout env input cursorPos totalWidth preferredColumn).lineStarts input := by
  have h := (wrapping_wrapInput_and_isCaret env input
    (if preferredColumn.isSome then len input else clampCursorToBoundary input cursorPos)
    (inputTextWidth totalWidth)).1
  rwa [show max (inputTextWidth totalWidth) 1 = inputTextWidth totalWidth by
    rw [inputTextWidth]; omega] at h

theorem adjacentInputCursor_eq
    (hcaret : IsCaret env (adjacentLayout env input cursorPos totalWidth preferredColumn).lines
      (adjacentLayout env input cursorPos totalWidth preferredColumn).lineStarts
      (clampCursorToBoundary input cursorPos) row col) :
    adjacentInputCursor env input cursorPos totalWidth upward preferredColumn =
      if upward ∧ row = 0 then some none
      else positionInRow env (adjacentLayout env input cursorPos totalWidth preferredColumn)
        (if upward then row - 1 else row + 1) (preferredColumn.getD col)
        (inputTextWidth totalWidth) := by
  have hrow := (wrapping_adjacentLayout env input cursorPos totalWidth preferredColumn).rowOf_eq
    hcaret
  obtain ⟨before, after, start, hline, hstart, hposition, hcol⟩ := hcaret.line
  have hinLine : min (clampCursorToBoundary input cursorPos - start) (len (before ++ after)) =
      len before := by
    rw [← hposition, len, len, width_append]
    omega
  have hcolumn : preferredOr env preferredColumn (before ++ after) (len before) =
      some (preferredColumn.getD col) := by
    cases preferredColumn with
    | some column => rfl
    | none =>
      have hget := get_append [] before after
      rw [List.nil_append, len, width_nil] at hget
      rw [preferredOr, hget, Option.map_some, Option.getD_none, ← hcol]
      rfl
  unfold rowOf at hrow
  unfold adjacentLayout at hrow hline hstart ⊢
  rw [adjacentInputCursor]
  dsimp only
  rw [hrow, hstart, hline]
  simp only [Option.bind_eq_bind, Option.bind_some, hinLine, hcolumn]

/-- A row that a move at a column passes over: the row is before the column, it is narrower than the
box, and a soft break follows. -/
def RunsOver (env : Env) (wrapped : WrappedInput) (width column row : ℕ) : Prop :=
  ∃ line start, wrapped.lines[row]? = some line ∧ wrapped.lineStarts[row]? = some start ∧
    wrapped.lineStarts[row + 1]? = some (start + len line) ∧
    displayWidth env line < width ∧ displayWidth env line ≤ column

theorem positionInRow_iff {wrapped : WrappedInput} {width : ℕ}
    (h : Wrapping env width 0 wrapped.lines wrapped.lineStarts text) (column row : ℕ) :
    ∃ found, positionInRow env wrapped row column width = some found ∧
      ((∀ position column, found = some (position, column) →
        rowOf wrapped.lineStarts position = row) ↔ ¬RunsOver env wrapped width column row) := by
  rw [positionInRow]
  cases hline : wrapped.lines[row]? with
  | none =>
    refine ⟨none, rfl, iff_of_true (fun _ _ hnone => absurd hnone.symm (Option.some_ne_none _)) ?_⟩
    rintro ⟨line, start, hline', -⟩
    exact absurd (hline.symm.trans hline') (Option.some_ne_none _).symm
  | some line =>
    obtain ⟨start, hstart⟩ : ∃ start, wrapped.lineStarts[row]? = some start := by
      have hrow := (List.getElem?_eq_some_iff.mp hline).1
      exact ⟨_, List.getElem?_eq_getElem (h.length_eq ▸ hrow)⟩
    obtain ⟨before, after, rfl, hloop, hend⟩ := exists_columnLoop env column width 0 start line
    rw [hstart]
    rw [Nat.zero_add] at hend
    refine ⟨some (start + len before, column), by simp only [Option.map_some, hloop], ?_, ?_⟩
    · rintro hland ⟨line', start', hline', hstart', hnext, hnarrow, hcolumn⟩
      obtain rfl := Option.some.inj (hline.symm.trans hline')
      obtain rfl := Option.some.inj (hstart.symm.trans hstart')
      obtain rfl := hend.mpr (.inr ⟨hcolumn, hnarrow⟩)
      rw [List.append_nil] at hnext
      exact absurd (hland _ _ rfl) (h.lt_rowOf hnext).ne'
    · intro hnot position column' hfound
      obtain ⟨rfl, rfl⟩ := Prod.mk.inj (Option.some.inj hfound)
      refine h.rowOf_eq (h.isCaret_of_row hline hstart fun hafter hnext => ?_)
      have hrow := hend.mp hafter
      subst hafter
      rw [List.append_nil] at hline hrow
      rcases hrow with hempty | ⟨hcolumn, hnarrow⟩
      · rcases h.exists_next hline hstart with hnone | hhard | ⟨-, hne⟩
        · exact absurd (hnext.symm.trans hnone) (Option.some_ne_none _)
        · have := Option.some.inj (hnext.symm.trans hhard)
          omega
        · exact hne hempty
      · exact hnot ⟨before, start, hline, hstart, hnext, hnarrow, hcolumn⟩

/-! ### Whether a move lands -/

/-- A move finds a boundary of the text in the row above or below the cursor, or nothing. -/
def Lands (env : Env) (input : List Char) (cursorPos totalWidth : ℕ) (upward : Bool)
    (preferredColumn : Option ℕ) : Prop :=
  ∃ found, adjacentInputCursor env input cursorPos totalWidth upward preferredColumn = some found ∧
    ∀ position column, found = some (position, column) →
      IsCharBoundary input position ∧
        let starts := (adjacentLayout env input cursorPos totalWidth preferredColumn).lineStarts
        let row := rowOf starts (clampCursorToBoundary input cursorPos)
        if upward then rowOf starts position + 1 = row else rowOf starts position = row + 1

/-- The column of a position in its row. -/
def columnOf (env : Env) (wrapped : WrappedInput) (position : ℕ) : ℕ :=
  let row := rowOf wrapped.lineStarts position
  displayWidth env (takeWidth Char.utf8Size (position - wrapped.lineStarts.getD row 0)
    (wrapped.lines.getD row []))

/-- A move passes over the row above or below the cursor. -/
def PassesOver (env : Env) (input : List Char) (cursorPos totalWidth : ℕ) (upward : Bool)
    (preferredColumn : Option ℕ) : Prop :=
  let wrapped := adjacentLayout env input cursorPos totalWidth preferredColumn
  let cursor := clampCursorToBoundary input cursorPos
  let row := rowOf wrapped.lineStarts cursor
  (upward → 0 < row) ∧
    RunsOver env wrapped (inputTextWidth totalWidth)
      (preferredColumn.getD (columnOf env wrapped cursor)) (if upward then row - 1 else row + 1)

theorem exists_isCaret_adjacentLayout :
    ∃ row, IsCaret env (adjacentLayout env input cursorPos totalWidth preferredColumn).lines
      (adjacentLayout env input cursorPos totalWidth preferredColumn).lineStarts
      (clampCursorToBoundary input cursorPos) row
      (columnOf env (adjacentLayout env input cursorPos totalWidth preferredColumn)
        (clampCursorToBoundary input cursorPos)) := by
  obtain ⟨a, b, htext, hlen⟩ := (isBoundary_iff Char.utf8Size_pos).mp
    (isCharBoundary_clampCursorToBoundary input cursorPos)
  have hwrapping := wrapping_adjacentLayout env input cursorPos totalWidth preferredColumn
  obtain ⟨row, col, hcaret⟩ := hwrapping.exists_isCaret htext
  rw [Nat.zero_add, len, hlen] at hcaret
  refine ⟨row, ?_⟩
  have hrow := hwrapping.rowOf_eq hcaret
  obtain ⟨before, after, start, hline, hstart, hposition, hcol⟩ := hcaret.line
  rw [columnOf, hrow, List.getD_eq_getElem?_getD, List.getD_eq_getElem?_getD, hline, hstart,
    Option.getD_some, Option.getD_some, ← hposition, Nat.add_sub_cancel_left,
    takeWidth_width_append Char.utf8Size_pos, hposition, hcol]
  exact hcaret

theorem exists_positionInRow (column row : ℕ) :
    ∃ found, positionInRow env (adjacentLayout env input cursorPos totalWidth preferredColumn) row
        column (inputTextWidth totalWidth) = some found ∧
      ((∀ position column, found = some (position, column) → IsCharBoundary input position ∧
          rowOf (adjacentLayout env input cursorPos totalWidth preferredColumn).lineStarts
            position = row) ↔
        ¬RunsOver env (adjacentLayout env input cursorPos totalWidth preferredColumn)
          (inputTextWidth totalWidth) column row) := by
  obtain ⟨found, hfound, hiff⟩ := positionInRow_iff env
    (wrapping_adjacentLayout env input cursorPos totalWidth preferredColumn) column row
  obtain ⟨found', hfound', hboundary⟩ := isCharBoundary_positionInRow
    (segments_wrapInput env input
      (if preferredColumn.isSome then len input else clampCursorToBoundary input cursorPos)
      (inputTextWidth totalWidth)).1 row column (inputTextWidth totalWidth)
  obtain rfl := Option.some.inj (hfound.symm.trans hfound')
  refine ⟨found, hfound, hiff.symm.trans ?_ |>.symm⟩
  exact ⟨fun h position column hsome => ⟨hboundary position column hsome, h position column hsome⟩,
    fun h position column hsome => (h position column hsome).2⟩

theorem lands_iff :
    Lands env input cursorPos totalWidth upward preferredColumn ↔
      ¬PassesOver env input cursorPos totalWidth upward preferredColumn := by
  obtain ⟨row, hcaret⟩ :=
    exists_isCaret_adjacentLayout env input cursorPos totalWidth preferredColumn
  have hrow := (wrapping_adjacentLayout env input cursorPos totalWidth preferredColumn).rowOf_eq
    hcaret
  rw [Lands, PassesOver, adjacentInputCursor_eq env input cursorPos totalWidth upward
    preferredColumn hcaret]
  dsimp only
  rw [hrow]
  by_cases hfirst : upward = true ∧ row = 0
  · obtain ⟨rfl, rfl⟩ := hfirst
    exact iff_of_true ⟨none, rfl, nofun⟩ fun h => absurd (h.1 rfl) (lt_irrefl _)
  · obtain ⟨found, hfound, hiff⟩ := exists_positionInRow env input cursorPos totalWidth
      preferredColumn (preferredColumn.getD (columnOf env
        (adjacentLayout env input cursorPos totalWidth preferredColumn)
        (clampCursorToBoundary input cursorPos))) (if upward then row - 1 else row + 1)
    have hup : upward = true → 0 < row := fun h => Nat.pos_of_ne_zero fun hzero => hfirst ⟨h, hzero⟩
    rw [if_neg hfirst, hfound, not_and, ← hiff]
    have htarget : ∀ row', (if upward then row' + 1 = row else row' = row + 1) ↔
        row' = if upward then row - 1 else row + 1 := fun row' => by
      split_ifs with h
      · have := hup h
        omega
      · rfl
    simp only [htarget]
    constructor
    · rintro ⟨found', hfound', hland⟩ -
      obtain rfl := Option.some.inj hfound'
      exact hland
    · exact fun h => ⟨found, rfl, h hup⟩

/-! ### Moves in a sequence -/

/-- What a press of Up or Down does to the cursor and the preferred column. -/
def press (env : Env) (input : List Char) (totalWidth : ℕ) (upward : Bool)
    (state : ℕ × Option ℕ) : ℕ × Option ℕ :=
  match adjacentInputCursor env input state.1 totalWidth upward state.2 with
  | some (some (position, column)) => (position, some column)
  | _ => state

/-- The row of the cursor, in the wrapping that the next move uses. -/
def stateRow (env : Env) (input : List Char) (totalWidth : ℕ) (state : ℕ × Option ℕ) : ℕ :=
  rowOf (adjacentLayout env input state.1 totalWidth state.2).lineStarts
    (clampCursorToBoundary input state.1)

/-- From each cursor, Up comes to the first row and Down to the last one. -/
def ReachesEnds (env : Env) (input : List Char) (totalWidth : ℕ) : Prop :=
  ∀ state, (∃ n, stateRow env input totalWidth ((press env input totalWidth true)^[n] state) = 0) ∧
    ∃ n, let last := (press env input totalWidth false)^[n] state
      stateRow env input totalWidth last + 1 =
        (adjacentLayout env input last.1 totalWidth last.2).lines.length

/-- A row that is narrower than the box, and that a soft break follows. -/
def ShortRow (env : Env) (wrapped : WrappedInput) (width row : ℕ) : Prop :=
  ∃ line start, wrapped.lines[row]? = some line ∧ wrapped.lineStarts[row]? = some start ∧
    wrapped.lineStarts[row + 1]? = some (start + len line) ∧ displayWidth env line < width

section Runs

variable {env} {input} {totalWidth}

theorem length_le_of_positionInRow {wrapped : WrappedInput} {row column width : ℕ}
    (h : positionInRow env wrapped row column width = some none) : wrapped.lines.length ≤ row := by
  rw [positionInRow] at h
  split at h
  · next hnone => exact List.getElem?_eq_none_iff.mp hnone
  · obtain ⟨start, -, hstart⟩ := Option.map_eq_some_iff.mp h
    exact absurd hstart (Option.some_ne_none _)

theorem press_cases {upward : Bool} {state : ℕ × Option ℕ}
    (h : Lands env input state.1 totalWidth upward state.2) :
    (if upward then stateRow env input totalWidth state = 0
      else stateRow env input totalWidth state + 1 =
        (adjacentLayout env input state.1 totalWidth state.2).lines.length) ∨
    ∃ position column, press env input totalWidth upward state = (position, some column) ∧
      IsCharBoundary input position ∧
      let row := rowOf (adjacentLayout env input state.1 totalWidth state.2).lineStarts position
      if upward then row + 1 = stateRow env input totalWidth state
      else row = stateRow env input totalWidth state + 1 := by
  obtain ⟨row, hcaret⟩ := exists_isCaret_adjacentLayout env input state.1 totalWidth state.2
  have hrow := (wrapping_adjacentLayout env input state.1 totalWidth state.2).rowOf_eq hcaret
  have hlt := hcaret.row_lt
  obtain ⟨found, hfound, hland⟩ := h
  cases found with
  | some found =>
    obtain ⟨position, column⟩ := found
    refine .inr ⟨position, column, by rw [press, hfound], hland position column rfl⟩
  | none =>
    left
    rw [adjacentInputCursor_eq env input state.1 totalWidth upward state.2 hcaret] at hfound
    rw [stateRow, hrow]
    by_cases hfirst : upward = true ∧ row = 0
    · rw [if_pos hfirst.1]
      exact hfirst.2
    · rw [if_neg hfirst] at hfound
      have hlength := length_le_of_positionInRow hfound
      split_ifs at hlength ⊢ <;> omega

theorem stateRow_some {position : ℕ} (h : IsCharBoundary input position) (column : ℕ) :
    stateRow env input totalWidth (position, some column) =
      rowOf (wrapInput env input (len input) (inputTextWidth totalWidth)).lineStarts position := by
  rw [stateRow, clampCursorToBoundary_of_isCharBoundary h]
  rfl

theorem exists_stateRow_eq_zero
    (h : ∀ state : ℕ × Option ℕ, Lands env input state.1 totalWidth true state.2)
    (state : ℕ × Option ℕ) :
    ∃ n, stateRow env input totalWidth ((press env input totalWidth true)^[n] state) = 0 := by
  have hsome : ∀ row position column, IsCharBoundary input position →
      stateRow env input totalWidth (position, some column) = row →
      ∃ n, stateRow env input totalWidth
        ((press env input totalWidth true)^[n] (position, some column)) = 0 := by
    intro row
    induction row with
    | zero => exact fun position column _ hrow => ⟨0, hrow⟩
    | succ row ih =>
      intro position column _ hrow
      rcases press_cases (h (position, some column)) with
        hzero | ⟨position', column', hpress, hboundary, hup⟩
      · exact ⟨0, hzero⟩
      · obtain ⟨n, hn⟩ := ih position' column' hboundary (by
          rw [stateRow_some hboundary]
          exact Nat.succ.inj (hup.trans hrow))
        exact ⟨n + 1, by rw [Function.iterate_succ_apply, hpress, hn]⟩
  rcases press_cases (h state) with hzero | ⟨position, column, hpress, hboundary, -⟩
  · exact ⟨0, hzero⟩
  · obtain ⟨n, hn⟩ := hsome _ position column hboundary rfl
    exact ⟨n + 1, by rw [Function.iterate_succ_apply, hpress, hn]⟩

theorem exists_stateRow_eq_last
    (h : ∀ state : ℕ × Option ℕ, Lands env input state.1 totalWidth false state.2)
    (state : ℕ × Option ℕ) :
    ∃ n, let last := (press env input totalWidth false)^[n] state
      stateRow env input totalWidth last + 1 =
        (adjacentLayout env input last.1 totalWidth last.2).lines.length := by
  have hsome : ∀ below position column, IsCharBoundary input position →
      stateRow env input totalWidth (position, some column) + 1 + below =
        (wrapInput env input (len input) (inputTextWidth totalWidth)).lines.length →
      ∃ n, let last := (press env input totalWidth false)^[n] (position, some column)
        stateRow env input totalWidth last + 1 =
          (adjacentLayout env input last.1 totalWidth last.2).lines.length := by
    intro below
    induction below with
    | zero => exact fun position column _ hrow => ⟨0, hrow⟩
    | succ below ih =>
      intro position column _ hrow
      rcases press_cases (h (position, some column)) with
        hlast | ⟨position', column', hpress, hboundary, hdown⟩
      · exact ⟨0, hlast⟩
      · obtain ⟨n, hn⟩ := ih position' column' hboundary (by
          have hrow' : stateRow env input totalWidth (position', some column') =
              stateRow env input totalWidth (position, some column) + 1 :=
            (stateRow_some hboundary column').trans hdown
          omega)
        exact ⟨n + 1, by rwa [Function.iterate_succ_apply, hpress]⟩
  rcases press_cases (h state) with hlast | ⟨position, column, hpress, hboundary, -⟩
  · exact ⟨0, hlast⟩
  · obtain ⟨row, hcaret⟩ := exists_isCaret_adjacentLayout env input position totalWidth (some column)
    have hrow := (wrapping_adjacentLayout env input position totalWidth (some column)).rowOf_eq hcaret
    have hlt : stateRow env input totalWidth (position, some column) + 1 ≤
        (wrapInput env input (len input) (inputTextWidth totalWidth)).lines.length := by
      rw [stateRow, hrow]
      exact hcaret.row_lt
    obtain ⟨n, hn⟩ := hsome _ position column hboundary (Nat.add_sub_cancel' hlt)
    exact ⟨n + 1, by rwa [Function.iterate_succ_apply, hpress]⟩

end Runs

/-! ### The rows of all wrappings -/

section Layouts

variable {env} {wrapped wrapped' : WrappedInput}

/-- Two states of the loop that differ in the cursor only. -/
structure SameRows (wrapped wrapped' : WrappedInput) : Prop where
  lines : wrapped.lines = wrapped'.lines
  lineStarts : wrapped.lineStarts = wrapped'.lineStarts
  row : wrapped.row = wrapped'.row
  col : wrapped.col = wrapped'.col

theorem SameRows.setCursor (h : SameRows wrapped wrapped') (found found' : Prop) [Decidable found]
    [Decidable found'] : SameRows (wrapped.setCursor found) (wrapped'.setCursor found') := by
  rw [WrappedInput.setCursor, WrappedInput.setCursor]
  split_ifs <;> exact ⟨h.lines, h.lineStarts, h.row, h.col⟩

theorem SameRows.newLine (h : SameRows wrapped wrapped') (start : ℕ) :
    SameRows (wrapped.newLine start) (wrapped'.newLine start) :=
  ⟨congrArg (· ++ [[]]) h.lines, congrArg (· ++ [start]) h.lineStarts, congrArg (· + 1) h.row, rfl⟩

theorem SameRows.push (h : SameRows wrapped wrapped') (cursorPos cursorPos' maxWidth idx : ℕ)
    (ch : Char) :
    SameRows (wrapped.push env cursorPos maxWidth idx ch)
      (wrapped'.push env cursorPos' maxWidth idx ch) := by
  have hset := h.setCursor (wrapped.cursor.isNone ∧ idx = cursorPos)
    (wrapped'.cursor.isNone ∧ idx = cursorPos')
  rw [WrappedInput.push, WrappedInput.push]
  refine SameRows.setCursor ?_ _ _
  split_ifs
  · exact hset.newLine _
  · have hwrap := hset.newLine idx
    simp only [WrappedInput.wrapAt, hset.col]
    split_ifs
    · have hcursor := hwrap.setCursor (idx = cursorPos) (idx = cursorPos')
      exact ⟨by rw [WrappedInput.pushChar, WrappedInput.pushChar, hcursor.lines, hcursor.row],
        hcursor.lineStarts, hcursor.row, congrArg (· + _) hcursor.col⟩
    · exact ⟨by rw [WrappedInput.pushChar, WrappedInput.pushChar, hset.lines, hset.row],
        hset.lineStarts, hset.row, congrArg (· + _) hset.col⟩

theorem SameRows.pushAll (h : SameRows wrapped wrapped') (env : Env) (cursorPos cursorPos' maxWidth idx : ℕ)
    (rest : List Char) :
    SameRows (wrapped.pushAll env cursorPos maxWidth idx rest)
      (wrapped'.pushAll env cursorPos' maxWidth idx rest) := by
  induction rest generalizing wrapped wrapped' idx with
  | nil => exact h
  | cons ch rest ih => exact ih (h.push cursorPos cursorPos' maxWidth idx ch) _

theorem wrapInput_isPrefix (env : Env) (input : List Char) (cursorPos maxWidth : ℕ) :
    (wrapInput env input cursorPos maxWidth).lines <+:
        (wrapInput env input (len input) maxWidth).lines ∧
      (wrapInput env input cursorPos maxWidth).lineStarts <+:
        (wrapInput env input (len input) maxWidth).lineStarts := by
  by_cases hend : clampCursorToBoundary input cursorPos = len input
  · have hclamp := clampCursorToBoundary_of_isCharBoundary
      (isBoundary_width Char.utf8Size_pos input)
    have hsame : wrapInput env input cursorPos maxWidth = wrapInput env input (len input) maxWidth := by
      rw [wrapInput, wrapInput, hend, hclamp]
    rw [hsame]
    exact ⟨List.prefix_rfl, List.prefix_rfl⟩
  · have hinit : SameRows
        { cursor := if clampCursorToBoundary input cursorPos = 0 then some (0, 0) else none }
        { cursor := if clampCursorToBoundary input (len input) = 0 then some (0, 0) else none } :=
      ⟨rfl, rfl, rfl, rfl⟩
    have hsame := hinit.pushAll env (clampCursorToBoundary input cursorPos)
      (clampCursorToBoundary input (len input)) (max maxWidth 1) 0 input
    rw [wrapInput, wrapInput, if_neg fun h => hend h.2.1]
    generalize WrappedInput.pushAll env (clampCursorToBoundary input cursorPos) (max maxWidth 1) _ 0
      input = before at hsame ⊢
    generalize WrappedInput.pushAll env (clampCursorToBoundary input (len input)) (max maxWidth 1) _
      0 input = after at hsame ⊢
    split_ifs
    · exact ⟨hsame.lines ▸ List.prefix_append _ _, hsame.lineStarts ▸ List.prefix_append _ _⟩
    · exact ⟨hsame.lines ▸ List.prefix_rfl, hsame.lineStarts ▸ List.prefix_rfl⟩

theorem RunsOver.shortRow {width column row : ℕ} (h : RunsOver env wrapped width column row)
    (hlines : wrapped.lines <+: wrapped'.lines) (hstarts : wrapped.lineStarts <+: wrapped'.lineStarts) :
    ShortRow env wrapped' width row := by
  obtain ⟨line, start, hline, hstart, hnext, hnarrow, -⟩ := h
  obtain ⟨lines, hlines⟩ := hlines
  obtain ⟨starts, hstarts⟩ := hstarts
  have hget : ∀ {α : Type} {xs ys zs : List α} {i : ℕ} {x : α}, xs ++ ys = zs → xs[i]? = some x →
      zs[i]? = some x := fun happend hx => by
    rw [← happend, List.getElem?_append_left (List.getElem?_eq_some_iff.mp hx).1, hx]
  exact ⟨line, start, hget hlines hline, hget hstarts hstart, hget hstarts hnext, hnarrow⟩

end Layouts

theorem exists_not_lands (env : Env) {input : List Char} {totalWidth row : ℕ}
    (h : ShortRow env (wrapInput env input (len input) (inputTextWidth totalWidth))
      (inputTextWidth totalWidth) row) :
    ∃ cursorPos column, ¬Lands env input cursorPos totalWidth true (some column) := by
  obtain ⟨line, start, hline, hstart, hnext, hnarrow⟩ := h
  set wrapped := wrapInput env input (len input) (inputTextWidth totalWidth)
  have hwrapping : Wrapping env (inputTextWidth totalWidth) 0 wrapped.lines wrapped.lineStarts
      input := wrapping_adjacentLayout env input 0 totalWidth (some 0)
  have hsegments := (segments_wrapInput env input (len input) (inputTextWidth totalWidth)).1
  -- The row below begins at a boundary.
  obtain ⟨next, hnextLine⟩ : ∃ next, wrapped.lines[row + 1]? = some next := by
    have hrow := (List.getElem?_eq_some_iff.mp hnext).1
    exact ⟨_, List.getElem?_eq_getElem (hwrapping.length_eq ▸ hrow)⟩
  obtain ⟨start', hstart', a, b, htext, hlen⟩ := exists_getElem?_of_forall₂ hsegments hnextLine
  obtain rfl := Option.some.inj (hnext.symm.trans hstart')
  have hboundary : IsCharBoundary input (start + len line) := by
    rw [htext, List.append_assoc, ← hlen]
    exact isBoundary_append Char.utf8Size_pos a _
  have hcaret : IsCaret env wrapped.lines wrapped.lineStarts (start + len line) (row + 1) 0 := by
    have hnextLine' : wrapped.lines[row + 1]? = some ([] ++ next) := hnextLine
    refine hwrapping.isCaret_of_row hnextLine' hnext fun hempty hsoft => ?_
    rcases hwrapping.exists_next hnextLine hnext with hnone | hhard | ⟨-, hne⟩
    · exact absurd (hsoft.symm.trans hnone) (Option.some_ne_none _)
    · rw [hempty] at hhard
      exact absurd (Option.some.inj (hsoft.symm.trans hhard)) (Nat.succ_ne_self _).symm
    · exact hne hempty
  refine ⟨start + len line, displayWidth env line, fun hlands => ?_⟩
  have hnot := (lands_iff env input _ totalWidth true _).mp hlands
  have hrow : rowOf wrapped.lineStarts (clampCursorToBoundary input (start + len line)) =
      row + 1 := by
    rw [clampCursorToBoundary_of_isCharBoundary hboundary]
    exact hwrapping.rowOf_eq hcaret
  refine hnot ⟨fun _ => ?_, ?_⟩
  · exact hrow ▸ Nat.succ_pos row
  · change RunsOver env wrapped (inputTextWidth totalWidth) (displayWidth env line)
      (rowOf wrapped.lineStarts (clampCursorToBoundary input (start + len line)) - 1)
    rw [hrow]
    exact ⟨line, start, hline, hstart, hnext, hnarrow, le_rfl⟩

/-- A move lands exactly if it does not pass over its row. All moves at a width land, and come to the
ends, exactly if each row at a soft break is as wide as the box. -/
theorem lands_iff_not_shortRow (env : Env) (input : List Char) (totalWidth : ℕ) :
    (∀ cursorPos upward preferredColumn,
      Lands env input cursorPos totalWidth upward preferredColumn ↔
        ¬PassesOver env input cursorPos totalWidth upward preferredColumn) ∧
    ((∀ cursorPos upward preferredColumn,
        Lands env input cursorPos totalWidth upward preferredColumn) ∧
        ReachesEnds env input totalWidth ↔
      ∀ row, ¬ShortRow env (wrapInput env input (len input) (inputTextWidth totalWidth))
        (inputTextWidth totalWidth) row) := by
  refine ⟨fun cursorPos upward preferredColumn =>
    lands_iff env input cursorPos totalWidth upward preferredColumn, ?_, fun hrows => ?_⟩
  · rintro ⟨hlands, -⟩ row hshort
    obtain ⟨cursorPos, column, hnot⟩ := exists_not_lands env hshort
    exact hnot (hlands cursorPos true (some column))
  · have hlands : ∀ cursorPos upward preferredColumn,
        Lands env input cursorPos totalWidth upward preferredColumn :=
      fun cursorPos upward preferredColumn => by
        refine (lands_iff env input cursorPos totalWidth upward preferredColumn).mpr fun h => ?_
        obtain ⟨hlines, hstarts⟩ := wrapInput_isPrefix env input
          (if preferredColumn.isSome then len input else clampCursorToBoundary input cursorPos)
          (inputTextWidth totalWidth)
        exact hrows _ (h.2.shortRow hlines hstarts)
    exact ⟨hlands, fun state => ⟨exists_stateRow_eq_zero (fun state => hlands _ _ _) state,
      exists_stateRow_eq_last (fun state => hlands _ _ _) state⟩⟩

/-- Widths of the Latin letters and of the ideographs. -/
def latinEnv : Env where
  isAlphanumeric := Char.isAlphanum
  hasExtension := fun _ => false
  charWidth := fun ch => some (if ch.toNat < 0x1100 then 1 else 2)

/-- The ideograph does not fit behind the three letters. From the third column of the second row, Up
goes to the start of that row, and stays there. -/
theorem not_lands_of_wide_char :
    ¬(∀ (input : List Char) (cursorPos totalWidth : ℕ) (upward : Bool)
        (preferredColumn : Option ℕ),
      Lands latinEnv input cursorPos totalWidth upward preferredColumn) ∧
    press latinEnv "abc宽def".toList 9 true (7, none) = (3, some 3) ∧
    press latinEnv "abc宽def".toList 9 true (3, some 3) = (3, some 3) := by
  refine ⟨fun h => ?_, by decide +kernel, by decide +kernel⟩
  obtain ⟨found, hfound, hland⟩ := h "abc宽def".toList 7 9 true none
  have heval : adjacentInputCursor latinEnv "abc宽def".toList 7 9 true none = some (some (3, 3)) := by
    decide +kernel
  obtain rfl := Option.some.inj (heval.symm.trans hfound)
  exact absurd (hland 3 3 rfl).2 (by decide +kernel)

end IntelligentTerminal.Editor
