import IntelligentTerminal.Editor.Text

/-!
# The wrapped prompt and the cursor above or below

The prompt is wrapped into the lines of the input box, and a vertical move of the cursor looks for
the position in the line above or below that is closest to the preferred column.

Source: `tools/wta/src/ui/input.rs`, lines 10-22, 180-184, 338-389 and 420-500.
-/

namespace IntelligentTerminal.Editor

open Data

/-- `input_text_width`, with `INPUT_LEFT_PAD` and `INPUT_PROMPT_WIDTH`. -/
def inputTextWidth (totalWidth : ℕ) : ℕ := max (totalWidth - (1 + 2 + 2)) 1

def charDisplayWidth (env : Env) (ch : Char) : ℕ :=
  if ch = '\t' then 4 else max ((env.charWidth ch).getD 0) 1

/-- The variables of `wrap_input`. -/
structure WrappedInput where
  lines : List (List Char) := [[]]
  lineStarts : List ℕ := [0]
  row : ℕ := 0
  col : ℕ := 0
  cursor : Option (ℕ × ℕ)

namespace WrappedInput

/-- A line begins at the position `start`. -/
def newLine (wrapped : WrappedInput) (start : ℕ) : WrappedInput :=
  { wrapped with
    row := wrapped.row + 1
    lines := wrapped.lines ++ [[]]
    lineStarts := wrapped.lineStarts ++ [start]
    col := 0 }

/-- The cursor is where the next character goes, if it is found there. -/
def setCursor (wrapped : WrappedInput) (found : Prop) [Decidable found] : WrappedInput :=
  if found then { wrapped with cursor := some (wrapped.row, wrapped.col) } else wrapped

/-- The line that a character of a width goes to: it may be the next one. -/
def wrapAt (cursorPos maxWidth : ℕ) (wrapped : WrappedInput) (idx charWidth : ℕ) : WrappedInput :=
  if 0 < wrapped.col ∧ maxWidth < wrapped.col + charWidth then
    (wrapped.newLine idx).setCursor (idx = cursorPos)
  else wrapped

/-- A character at the end of the line. -/
def pushChar (wrapped : WrappedInput) (ch : Char) (charWidth : ℕ) : WrappedInput :=
  { wrapped with
    lines := wrapped.lines.modify wrapped.row (· ++ [ch])
    col := wrapped.col + charWidth }

/-- The body of the loop of `wrap_input`. -/
def push (env : Env) (cursorPos maxWidth : ℕ) (wrapped : WrappedInput) (idx : ℕ) (ch : Char) :
    WrappedInput :=
  let wrapped := wrapped.setCursor (wrapped.cursor.isNone ∧ idx = cursorPos)
  let wrapped :=
    if ch = '\n' then wrapped.newLine (idx + ch.utf8Size)
    else
      let charWidth := charDisplayWidth env ch
      (wrapped.wrapAt cursorPos maxWidth idx charWidth).pushChar ch charWidth
  wrapped.setCursor (wrapped.cursor.isNone ∧ idx + ch.utf8Size = cursorPos)

/-- The loop of `wrap_input`. -/
def pushAll (env : Env) (cursorPos maxWidth : ℕ) : WrappedInput → ℕ → List Char → WrappedInput
  | wrapped, _, [] => wrapped
  | wrapped, idx, ch :: input =>
    pushAll env cursorPos maxWidth (wrapped.push env cursorPos maxWidth idx ch)
      (idx + ch.utf8Size) input

end WrappedInput

/-- `wrap_input`, without where it finds the cursor. -/
def wrapInput (env : Env) (input : List Char) (cursorPos maxWidth : ℕ) : WrappedInput :=
  let cursorPos := clampCursorToBoundary input cursorPos
  let maxWidth := max maxWidth 1
  let wrapped := WrappedInput.pushAll env cursorPos maxWidth
    { cursor := if cursorPos = 0 then some (0, 0) else none } 0 input
  let cursor := wrapped.cursor.getD (wrapped.row, wrapped.col)
  -- The cursor at the right edge of a full last line is shown on a line of its own.
  if maxWidth ≤ cursor.2 ∧ cursorPos = len input ∧ wrapped.lines.length ≤ cursor.1 + 1 then
    { wrapped with
      lines := wrapped.lines ++ [[]]
      lineStarts := wrapped.lineStarts ++ [len input] }
  else wrapped

/-- The loop of `adjacent_input_cursor`, for the characters of the line from `position` on. -/
def columnLoop (env : Env) (column width : ℕ) : ℕ → ℕ → List Char → ℕ
  | position, _, [] => position
  | position, displayColumn, ch :: line =>
    let nextColumn := displayColumn + charDisplayWidth env ch
    if column < nextColumn ∨ width ≤ nextColumn then position
    else columnLoop env column width (position + ch.utf8Size) nextColumn line

/-- `column` in `adjacent_input_cursor`; the slice of the line panics if it has no result. -/
def preferredOr (env : Env) (preferredColumn : Option ℕ) (line : List Char) (inLine : ℕ) :
    Option ℕ :=
  match preferredColumn with
  | some column => some column
  | none => (get line ⟨0, inLine⟩).map fun before => (before.map (charDisplayWidth env)).sum

/-- The end of `adjacent_input_cursor`, where there may be no line in the row. -/
def positionInRow (env : Env) (wrapped : WrappedInput) (targetRow column width : ℕ) :
    Option (Option (ℕ × ℕ)) :=
  match wrapped.lines[targetRow]? with
  | none => some none
  | some line => wrapped.lineStarts[targetRow]?.map fun start =>
    some (columnLoop env column width start 0 line, column)

/-- `adjacent_input_cursor`: it panics if it has no result. -/
def adjacentInputCursor (env : Env) (input : List Char) (cursorPos totalWidth : ℕ) (upward : Bool)
    (preferredColumn : Option ℕ) : Option (Option (ℕ × ℕ)) := do
  let width := inputTextWidth totalWidth
  let cursorPos := clampCursorToBoundary input cursorPos
  let layoutCursor := if preferredColumn.isSome then len input else cursorPos
  let wrapped := wrapInput env input layoutCursor width
  let row := (wrapped.lineStarts.takeWhile (· ≤ cursorPos)).length - 1
  let lineStart ← wrapped.lineStarts[row]?
  let line ← wrapped.lines[row]?
  let inLine := min (cursorPos - lineStart) (len line)
  let column ← preferredOr env preferredColumn line inLine
  if upward ∧ row = 0 then some none
  else positionInRow env wrapped (if upward then row - 1 else row + 1) column width

section Wrapping

variable {env : Env} {input text : List Char} {wrapped : WrappedInput} {cursorPos maxWidth : ℕ}

/-! ### The lines -/

/-- A line is the part of the text that begins at a position. -/
def Segment (text line : List Char) (start : ℕ) : Prop :=
  ∃ a b, text = a ++ line ++ b ∧ len a = start

/-- The text that has been wrapped so far: it ends with the last line. -/
def Wraps (text : List Char) (wrapped : WrappedInput) : Prop :=
  ∃ lines line starts a,
    wrapped.lines = lines ++ [line] ∧ wrapped.lineStarts = starts ++ [len a] ∧
    wrapped.row = lines.length ∧ List.Forall₂ (Segment text) lines starts ∧ text = a ++ line

theorem Segment.append {line : List Char} {start : ℕ} (h : Segment text line start)
    (s : List Char) : Segment (text ++ s) line start := by
  obtain ⟨a, b, rfl, hstart⟩ := h
  exact ⟨a, b ++ s, List.append_assoc _ _ _, hstart⟩

theorem Wraps.segments (h : Wraps text wrapped) :
    List.Forall₂ (Segment text) wrapped.lines wrapped.lineStarts := by
  obtain ⟨lines, line, starts, a, hlines, hstarts, -, hforall, htext⟩ := h
  rw [hlines, hstarts]
  refine List.rel_append hforall (.cons ⟨a, [], ?_, rfl⟩ .nil)
  rw [List.append_nil, htext]

theorem Wraps.congr {wrapped' : WrappedInput} (h : Wraps text wrapped)
    (hlines : wrapped'.lines = wrapped.lines) (hstarts : wrapped'.lineStarts = wrapped.lineStarts)
    (hrow : wrapped'.row = wrapped.row) : Wraps text wrapped' := by
  obtain ⟨lines, line, starts, a, hl, hs, hr, hforall, htext⟩ := h
  exact ⟨lines, line, starts, a, hlines.trans hl, hstarts.trans hs, hrow.trans hr, hforall, htext⟩

theorem Wraps.newLine (h : Wraps text wrapped) (s : List Char) :
    Wraps (text ++ s) (wrapped.newLine (len (text ++ s))) := by
  have hsegments := h.segments
  obtain ⟨lines, line, starts, a, hlines, hstarts, hrow, hforall, htext⟩ := h
  refine ⟨wrapped.lines, [], wrapped.lineStarts, text ++ s, rfl, rfl, ?_, ?_,
    (List.append_nil _).symm⟩
  · rw [WrappedInput.newLine, hlines, hrow, List.length_append, List.length_singleton]
  · exact hsegments.imp fun _ _ hsegment => hsegment.append s

theorem modify_length_append {α : Type*} (f : α → α) (xs : List α) (x : α) :
    (xs ++ [x]).modify xs.length f = xs ++ [f x] := by
  induction xs with
  | nil => rfl
  | cons y xs ih => exact congrArg (y :: ·) ih

theorem Wraps.pushChar (h : Wraps text wrapped) (ch : Char) (charWidth : ℕ) :
    Wraps (text ++ [ch]) (wrapped.pushChar ch charWidth) := by
  obtain ⟨lines, line, starts, a, hlines, hstarts, hrow, hforall, htext⟩ := h
  refine ⟨lines, line ++ [ch], starts, a, ?_, hstarts, hrow,
    hforall.imp fun _ _ hsegment => hsegment.append [ch], ?_⟩
  · rw [WrappedInput.pushChar, hlines, hrow, modify_length_append]
  · rw [htext, List.append_assoc]

theorem Wraps.setCursor (h : Wraps text wrapped) (found : Prop) [Decidable found] :
    Wraps text (wrapped.setCursor found) := by
  rw [WrappedInput.setCursor]
  split_ifs
  · exact h.congr rfl rfl rfl
  · exact h

theorem Wraps.wrapAt (h : Wraps text wrapped) (charWidth : ℕ) :
    Wraps text (wrapped.wrapAt cursorPos maxWidth (len text) charWidth) := by
  rw [WrappedInput.wrapAt]
  split_ifs
  · have hline := h.newLine []
    rw [List.append_nil] at hline
    exact hline.setCursor _
  · exact h

theorem Wraps.push (h : Wraps text wrapped) (ch : Char) :
    Wraps (text ++ [ch]) (wrapped.push env cursorPos maxWidth (len text) ch) := by
  have hlen : len text + ch.utf8Size = len (text ++ [ch]) := by
    rw [len, len, width_append, width_cons, width_nil, Nat.add_zero]
  refine Wraps.setCursor ?_ _
  split_ifs
  · rw [hlen]
    exact (h.setCursor _).newLine [ch]
  · exact ((h.setCursor _).wrapAt _).pushChar ch _

theorem Wraps.pushAll (h : Wraps text wrapped) (rest : List Char) :
    Wraps (text ++ rest) (wrapped.pushAll env cursorPos maxWidth (len text) rest) := by
  induction rest generalizing text wrapped with
  | nil =>
    rw [List.append_nil]
    exact h
  | cons ch rest ih =>
    have hlen : len text + ch.utf8Size = len (text ++ [ch]) := by
      rw [len, len, width_append, width_cons, width_nil, Nat.add_zero]
    have hpush : Wraps (text ++ [ch]) (wrapped.push env cursorPos maxWidth (len text) ch) :=
      h.push ch
    have hrest := ih hpush
    rw [← hlen, List.append_assoc] at hrest
    exact hrest

theorem segments_wrapInput (env : Env) (input : List Char) (cursorPos maxWidth : ℕ) :
    List.Forall₂ (Segment input) (wrapInput env input cursorPos maxWidth).lines
        (wrapInput env input cursorPos maxWidth).lineStarts ∧
      (wrapInput env input cursorPos maxWidth).lines ≠ [] := by
  have hstart (cursor : Option (ℕ × ℕ)) : Wraps [] { cursor } :=
    ⟨[], [], [], [], rfl, rfl, rfl, .nil, rfl⟩
  rw [wrapInput]
  set wrapped := WrappedInput.pushAll env (clampCursorToBoundary input cursorPos) (max maxWidth 1)
    { cursor := if clampCursorToBoundary input cursorPos = 0 then some (0, 0) else none } 0 input
  have hwraps : Wraps input wrapped := (hstart _).pushAll input
  have hne : wrapped.lines ≠ [] := by
    obtain ⟨lines, line, starts, a, hlines, -⟩ := hwraps
    rw [hlines]
    exact List.append_ne_nil_of_right_ne_nil _ (List.cons_ne_nil _ _)
  split_ifs
  · refine ⟨List.rel_append hwraps.segments (.cons ⟨input, [], ?_, rfl⟩ .nil), ?_⟩
    · rw [List.append_nil, List.append_nil]
    · exact List.append_ne_nil_of_right_ne_nil _ (List.cons_ne_nil _ _)
  · exact ⟨hwraps.segments, hne⟩

/-! ### The line above or below -/

theorem isCharBoundary_columnLoop (column width displayColumn : ℕ) {a line b : List Char}
    (h : input = a ++ line ++ b) :
    IsCharBoundary input (columnLoop env column width (len a) displayColumn line) := by
  have hstart (a b : List Char) (h : input = a ++ b) : IsCharBoundary input (len a) :=
    h ▸ isBoundary_append Char.utf8Size_pos a b
  induction line generalizing a displayColumn with
  | nil => exact hstart a ([] ++ b) (by rw [h, List.append_assoc])
  | cons ch line ih =>
    have hlen : len a + ch.utf8Size = len (a ++ [ch]) := by
      rw [len, len, width_append, width_cons, width_nil, Nat.add_zero]
    rw [columnLoop]
    split_ifs
    · exact hstart a (ch :: line ++ b) (by rw [h, List.append_assoc])
    · rw [hlen]
      exact ih _ (by rw [h]; simp)

theorem exists_getElem?_of_forall₂ {α β : Type*} {r : α → β → Prop} {xs : List α} {ys : List β}
    (h : List.Forall₂ r xs ys) {i : ℕ} {x : α} (hx : xs[i]? = some x) :
    ∃ y, ys[i]? = some y ∧ r x y := by
  induction h generalizing i with
  | nil => exact absurd hx (by simp)
  | cons hr _ ih =>
    cases i with
    | zero =>
      obtain rfl := Option.some_inj.mp hx
      exact ⟨_, rfl, hr⟩
    | succ i => exact ih hx

theorem isCharBoundary_positionInRow
    (h : List.Forall₂ (Segment input) wrapped.lines wrapped.lineStarts)
    (targetRow column width : ℕ) :
    ∃ found, positionInRow env wrapped targetRow column width = some found ∧
      ∀ position column, found = some (position, column) → IsCharBoundary input position := by
  rw [positionInRow]
  split
  · exact ⟨none, rfl, nofun⟩
  · next line hline =>
    obtain ⟨start, hstart, a, b, htext, rfl⟩ := exists_getElem?_of_forall₂ h hline
    rw [hstart]
    refine ⟨_, rfl, fun position column hfound => ?_⟩
    obtain ⟨rfl, -⟩ := Prod.mk.inj (Option.some_inj.mp hfound)
    exact isCharBoundary_columnLoop _ _ _ htext

end Wrapping

end IntelligentTerminal.Editor
