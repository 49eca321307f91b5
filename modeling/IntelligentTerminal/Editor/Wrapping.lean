import IntelligentTerminal.Editor.WrapInput

/-!
# The rows of the wrapped prompt

The rows of the input box take the prompt apart. A row ends at a newline, or where the next character
does not fit. A cursor that stands between two rows at such a soft break is on the second one.

Source: `tools/wta/src/ui/input.rs`, lines 420-500.
-/

namespace IntelligentTerminal.Editor

open Data

/-- The columns that a text takes. -/
abbrev displayWidth (env : Env) (line : List Char) : ℕ := width (charDisplayWidth env) line

/-- A row of the box: it is at most as wide as the box, unless it is a single character. -/
structure IsRow (env : Env) (maxWidth : ℕ) (line : List Char) : Prop where
  noNewline : '\n' ∉ line
  width_le : displayWidth env line ≤ maxWidth ∨ line.length = 1

/-- What follows a row does not fit on it. A row that is full may be followed by an empty one. -/
def Overflows (env : Env) (maxWidth : ℕ) (line : List Char) : List Char → Prop
  | [] => maxWidth ≤ displayWidth env line
  | ch :: _ => maxWidth < displayWidth env line + charDisplayWidth env ch

/-- Rows that take a text apart, with the positions where they start in a longer text. -/
inductive Wrapping (env : Env) (maxWidth : ℕ) : ℕ → List (List Char) → List ℕ → List Char → Prop
  | last (offset : ℕ) {line : List Char} (hline : IsRow env maxWidth line) :
      Wrapping env maxWidth offset [line] [offset] line
  | newline (offset : ℕ) {line : List Char} (hline : IsRow env maxWidth line)
      {lines : List (List Char)} {starts : List ℕ} {rest : List Char}
      (h : Wrapping env maxWidth (offset + len line + 1) lines starts rest) :
      Wrapping env maxWidth offset (line :: lines) (offset :: starts) (line ++ '\n' :: rest)
  | soft (offset : ℕ) {line : List Char} (hline : IsRow env maxWidth line) (hne : line ≠ [])
      {lines : List (List Char)} {starts : List ℕ} {rest : List Char}
      (hover : Overflows env maxWidth line rest)
      (h : Wrapping env maxWidth (offset + len line) lines starts rest) :
      Wrapping env maxWidth offset (line :: lines) (offset :: starts) (line ++ rest)

/-- A position is in a row, at a column of it, and before the rows below. -/
structure IsCaret (env : Env) (lines : List (List Char)) (starts : List ℕ) (position row col : ℕ) :
    Prop where
  line : ∃ before after start, lines[row]? = some (before ++ after) ∧ starts[row]? = some start ∧
    start + len before = position ∧ displayWidth env before = col
  below : ∀ start ∈ starts.drop (row + 1), position < start

/-- Where `wrap_input` finds the cursor: `cursor_row` and `cursor_col`. -/
def wrapInputCursor (env : Env) (input : List Char) (cursorPos maxWidth : ℕ) : ℕ × ℕ :=
  let cursorPos := clampCursorToBoundary input cursorPos
  let maxWidth := max maxWidth 1
  let wrapped := WrappedInput.pushAll env cursorPos maxWidth
    { cursor := if cursorPos = 0 then some (0, 0) else none } 0 input
  let cursor := wrapped.cursor.getD (wrapped.row, wrapped.col)
  if maxWidth ≤ cursor.2 ∧ cursorPos = len input then (cursor.1 + 1, 0) else cursor

/-- The row of a position: the last one that starts at or before it. -/
def rowOf (starts : List ℕ) (position : ℕ) : ℕ := (starts.takeWhile (· ≤ position)).length - 1

variable {env : Env} {maxWidth offset : ℕ} {lines : List (List Char)} {starts : List ℕ}
  {line text rest : List Char} {position row col : ℕ} {ch : Char}

theorem charDisplayWidth_pos (env : Env) (ch : Char) : 0 < charDisplayWidth env ch := by
  rw [charDisplayWidth]
  split_ifs <;> omega

theorem len_append_singleton (s : List Char) (ch : Char) :
    len (s ++ [ch]) = len s + ch.utf8Size := by
  rw [len, len, width_append, width_cons, width_nil, Nat.add_zero]

theorem displayWidth_append_singleton (s : List Char) (ch : Char) :
    displayWidth env (s ++ [ch]) = displayWidth env s + charDisplayWidth env ch := by
  rw [displayWidth, displayWidth, width_append, width_cons, width_nil, Nat.add_zero]

/-! ### Rows at the end -/

theorem Overflows.append (h : Overflows env maxWidth line rest) (s : List Char) :
    Overflows env maxWidth line (rest ++ s) := by
  cases rest with
  | cons ch rest => exact h
  | nil =>
    cases s with
    | nil => exact h
    | cons ch s =>
      have := charDisplayWidth_pos env ch
      change maxWidth ≤ displayWidth env line at h
      change maxWidth < displayWidth env line + charDisplayWidth env ch
      omega

namespace Wrapping

theorem ne_nil (h : Wrapping env maxWidth offset lines starts text) : lines ≠ [] := by
  cases h <;> exact List.cons_ne_nil _ _

theorem length_eq (h : Wrapping env maxWidth offset lines starts text) :
    lines.length = starts.length := by
  induction h with
  | last offset hline => rfl
  | newline offset hline h ih => exact congrArg (· + 1) ih
  | soft offset hline hne hover h ih => exact congrArg (· + 1) ih

theorem exists_last (h : Wrapping env maxWidth offset lines starts text) :
    ∃ front line starts' start, lines = front ++ [line] ∧ starts = starts' ++ [start] ∧
      front.length = starts'.length ∧ start + len line = offset + len text := by
  induction h with
  | @last offset line hline => exact ⟨[], line, [], offset, rfl, rfl, rfl, rfl⟩
  | @newline offset line hline lines starts rest h ih =>
    obtain ⟨front, last, starts', start, rfl, rfl, hlength, hstart⟩ := ih
    refine ⟨line :: front, last, offset :: starts', start, rfl, rfl, congrArg (· + 1) hlength, ?_⟩
    have hnewline : Char.utf8Size '\n' = 1 := rfl
    rw [hstart, len, len, len, width_append, width_cons, hnewline]
    omega
  | @soft offset line hline hne lines starts rest hover h ih =>
    obtain ⟨front, last, starts', start, rfl, rfl, hlength, hstart⟩ := ih
    refine ⟨line :: front, last, offset :: starts', start, rfl, rfl, congrArg (· + 1) hlength, ?_⟩
    rw [hstart, len, len, len, width_append]
    omega

variable {front : List (List Char)}

theorem pushChar
    (h : Wrapping env maxWidth offset (front ++ [line]) starts text) (hch : ch ≠ '\n')
    (hfits : line = [] ∨ displayWidth env line + charDisplayWidth env ch ≤ maxWidth) :
    Wrapping env maxWidth offset (front ++ [line ++ [ch]]) starts (text ++ [ch]) := by
  have hrow : IsRow env maxWidth line → IsRow env maxWidth (line ++ [ch]) := fun hline => by
    refine ⟨by simpa [hline.noNewline] using hch.symm, ?_⟩
    rcases hfits with rfl | hfits
    · exact .inr rfl
    · exact .inl (displayWidth_append_singleton line ch ▸ hfits)
  induction front generalizing offset starts text with
  | nil =>
    cases h with
    | last _ hline => exact .last offset (hrow hline)
    | newline _ hline h => exact absurd rfl h.ne_nil
    | soft _ hline hne hover h => exact absurd rfl h.ne_nil
  | cons first front ih =>
    generalize hrows : front ++ [line] = rows at ih
    rw [List.cons_append, hrows] at h
    cases h with
    | last _ hline => exact absurd hrows (List.append_ne_nil_of_right_ne_nil _ (by simp))
    | newline _ hline h =>
      rw [List.append_assoc, List.cons_append]
      exact .newline offset hline (ih h)
    | soft _ hline hne hover h =>
      rw [List.append_assoc]
      exact .soft offset hline hne (hover.append _) (ih h)

theorem pushNewline (h : Wrapping env maxWidth offset lines starts text) :
    Wrapping env maxWidth offset (lines ++ [[]]) (starts ++ [offset + len text + 1])
      (text ++ ['\n']) := by
  have hempty : IsRow env maxWidth [] := ⟨List.not_mem_nil, .inl (Nat.zero_le _)⟩
  induction h with
  | last offset hline => exact .newline offset hline (.last _ hempty)
  | @newline offset line hline lines starts rest h ih =>
    have hnewline : Char.utf8Size '\n' = 1 := rfl
    have hlen : offset + len (line ++ '\n' :: rest) + 1 = offset + len line + 1 + len rest + 1 := by
      rw [len, len, len, width_append, width_cons, hnewline]
      omega
    rw [hlen, List.append_assoc]
    exact .newline offset hline ih
  | @soft offset line hline hne lines starts rest hover h ih =>
    have hlen : offset + len (line ++ rest) + 1 = offset + len line + len rest + 1 := by
      rw [len, len, len, width_append]
      omega
    rw [hlen, List.append_assoc]
    exact .soft offset hline hne (hover.append _) ih

theorem pushRow {new : List Char}
    (h : Wrapping env maxWidth offset (front ++ [line]) starts text) (hne : line ≠ [])
    (hover : Overflows env maxWidth line new) (hnew : IsRow env maxWidth new) :
    Wrapping env maxWidth offset (front ++ [line] ++ [new]) (starts ++ [offset + len text])
      (text ++ new) := by
  induction front generalizing offset starts text with
  | nil =>
    cases h with
    | last _ hline => exact .soft offset hline hne hover (.last _ hnew)
    | newline _ hline h => exact absurd rfl h.ne_nil
    | soft _ hline hne hover h => exact absurd rfl h.ne_nil
  | cons first front ih =>
    rw [List.cons_append, List.cons_append]
    generalize hrows : front ++ [line] = rows at ih ⊢
    rw [List.cons_append, hrows] at h
    cases h with
    | last _ hline => exact absurd hrows (List.append_ne_nil_of_right_ne_nil _ (by simp))
    | @newline _ _ hline _ starts rest h =>
      have hnewline : Char.utf8Size '\n' = 1 := rfl
      have hlen : offset + len (first ++ '\n' :: rest) = offset + len first + 1 + len rest := by
        rw [len, len, len, width_append, width_cons, hnewline]
        omega
      rw [hlen, List.append_assoc first]
      exact .newline offset hline (ih h)
    | @soft _ _ hline hne' _ starts rest hover' h =>
      have hlen : offset + len (first ++ rest) = offset + len first + len rest := by
        rw [len, len, len, width_append]
        omega
      rw [hlen, List.append_assoc first]
      exact .soft offset hline hne' (hover'.append _) (ih h)

end Wrapping

/-! ### The caret -/

namespace IsCaret

theorem row_lt (h : IsCaret env lines starts position row col) : row < lines.length := by
  obtain ⟨before, after, start, hline, -⟩ := h.line
  exact (List.getElem?_eq_some_iff.mp hline).1

theorem row_le {row' col' : ℕ} (h : IsCaret env lines starts position row col)
    (h' : IsCaret env lines starts position row' col') : row' ≤ row := by
  by_contra hlt
  obtain ⟨before, after, start, -, hstart, hposition, -⟩ := h'.line
  have := h.below start (List.mem_iff_getElem?.mpr
    ⟨row' - (row + 1), by rw [List.getElem?_drop, Nat.add_sub_cancel' (by omega), hstart]⟩)
  omega

theorem unique {row' col' : ℕ} (h : IsCaret env lines starts position row col)
    (h' : IsCaret env lines starts position row' col') : row = row' ∧ col = col' := by
  obtain rfl := le_antisymm (h'.row_le h) (h.row_le h')
  obtain ⟨before, after, start, hline, hstart, hposition, hcol⟩ := h.line
  obtain ⟨before', after', start', hline', hstart', hposition', hcol'⟩ := h'.line
  obtain rfl := Option.some.inj (hstart.symm.trans hstart')
  have hline := Option.some.inj (hline.symm.trans hline')
  obtain ⟨rfl, -⟩ := append_inj_of_width Char.utf8Size_pos hline
    (Nat.add_left_cancel (hposition.trans hposition'.symm))
  exact ⟨rfl, hcol.symm.trans hcol'⟩

variable {starts : List ℕ} {start : ℕ}

theorem append (h : IsCaret env lines starts position row col)
    (hlength : lines.length = starts.length) (new : List Char)
    (hstart : position < start) :
    IsCaret env (lines ++ [new]) (starts ++ [start]) position row col := by
  have hrow := h.row_lt
  obtain ⟨⟨before, after, start', hline, hstart', hposition, hcol⟩, hbelow⟩ := h
  refine ⟨⟨before, after, start', ?_, ?_, hposition, hcol⟩, fun start'' hmem => ?_⟩
  · rw [List.getElem?_append_left hrow, hline]
  · rw [List.getElem?_append_left (hlength ▸ hrow), hstart']
  · rw [List.drop_append_of_le_length (by omega), List.mem_append, List.mem_singleton] at hmem
    rcases hmem with hmem | rfl
    · exact hbelow _ hmem
    · exact hstart

variable {front : List (List Char)}

theorem pushChar
    (h : IsCaret env (front ++ [line]) starts position row col) (ch : Char) :
    IsCaret env (front ++ [line ++ [ch]]) starts position row col := by
  have hrow := h.row_lt
  obtain ⟨⟨before, after, start, hline, hstart, hposition, hcol⟩, hbelow⟩ := h
  rw [List.length_append, List.length_singleton] at hrow
  rcases Nat.lt_succ_iff_lt_or_eq.mp hrow with hlt | rfl
  · refine ⟨⟨before, after, start, ?_, hstart, hposition, hcol⟩, hbelow⟩
    rw [List.getElem?_append_left hlt] at hline ⊢
    exact hline
  · refine ⟨⟨before, after ++ [ch], start, ?_, hstart, hposition, hcol⟩, hbelow⟩
    rw [List.getElem?_concat_length] at hline ⊢
    rw [Option.some.inj hline, List.append_assoc]

theorem of_last
    (hlength : front.length = starts.length) (line : List Char) :
    IsCaret env (front ++ [line]) (starts ++ [start]) (start + len line) front.length
      (displayWidth env line) := by
  refine ⟨⟨line, [], start, ?_, ?_, rfl, rfl⟩, ?_⟩
  · rw [List.getElem?_concat_length, List.append_nil]
  · rw [hlength, List.getElem?_concat_length]
  · rw [List.drop_of_length_le (by simp [hlength])]
    exact fun _ h => absurd h List.not_mem_nil

theorem of_last_start
    (hlength : front.length = starts.length) (line : List Char) :
    IsCaret env (front ++ [line]) (starts ++ [start]) start front.length 0 := by
  refine ⟨⟨[], line, start, ?_, ?_, rfl, rfl⟩, ?_⟩
  · rw [List.getElem?_concat_length, List.nil_append]
  · rw [hlength, List.getElem?_concat_length]
  · rw [List.drop_of_length_le (by simp [hlength])]
    exact fun _ h => absurd h List.not_mem_nil

end IsCaret

/-! ### The loop -/

structure HasRows (env : Env) (maxWidth : ℕ) (text : List Char) (wrapped : WrappedInput) :
    Prop where
  atLast : ∃ front line, wrapped.lines = front ++ [line] ∧ wrapped.row = front.length ∧
    wrapped.col = displayWidth env line
  wrapping : Wrapping env maxWidth 0 wrapped.lines wrapped.lineStarts text

/-- The cursor has been found if it is not behind the text. -/
structure FindsCursor (env : Env) (cursorPos : ℕ) (text : List Char) (wrapped : WrappedInput) :
    Prop where
  found : cursorPos ≤ len text → ∃ row col, wrapped.cursor = some (row, col) ∧
    IsCaret env wrapped.lines wrapped.lineStarts cursorPos row col
  notFound : len text < cursorPos → wrapped.cursor = none

variable {cursorPos : ℕ} {wrapped : WrappedInput}

theorem HasRows.isCaret_end (h : HasRows env maxWidth text wrapped) :
    IsCaret env wrapped.lines wrapped.lineStarts (len text) wrapped.row wrapped.col := by
  obtain ⟨front, line, hlines, hrow, hcol⟩ := h.atLast
  obtain ⟨front', line', starts', start, hlines', hstarts', hlength, hstart⟩ :=
    h.wrapping.exists_last
  obtain ⟨rfl, hline⟩ := List.append_inj' (hlines.symm.trans hlines') rfl
  obtain rfl := List.singleton_inj.mp hline
  rw [Nat.zero_add] at hstart
  rw [hlines, hstarts', hrow, hcol, ← hstart]
  exact IsCaret.of_last hlength line

theorem setCursor_of_not {found : Prop} [Decidable found] (h : ¬found) :
    wrapped.setCursor found = wrapped := if_neg h

theorem HasRows.setCursor (h : HasRows env maxWidth text wrapped) (found : Prop)
    [Decidable found] : HasRows env maxWidth text (wrapped.setCursor found) := by
  rw [WrappedInput.setCursor]
  split_ifs
  · exact ⟨h.atLast, h.wrapping⟩
  · exact h

theorem FindsCursor.setCursor (hrows : HasRows env maxWidth (text ++ [ch]) wrapped)
    (h : FindsCursor env cursorPos text wrapped)
    (hcursor : cursorPos ≤ len text ∨ len (text ++ [ch]) ≤ cursorPos) :
    FindsCursor env cursorPos (text ++ [ch])
      (wrapped.setCursor (wrapped.cursor.isNone ∧ len text + ch.utf8Size = cursorPos)) := by
  have hpos := Char.utf8Size_pos ch
  have hlen := len_append_singleton text ch
  rw [← hlen]
  rcases hcursor with hle | hge
  · -- It has been found before.
    obtain ⟨row, col, hsome, hcaret⟩ := h.found hle
    rw [setCursor_of_not (by simp [hsome])]
    exact ⟨fun _ => ⟨row, col, hsome, hcaret⟩, fun hlt => by omega⟩
  · have hnone := h.notFound (by omega)
    rcases hge.eq_or_lt with rfl | hlt
    · rw [WrappedInput.setCursor, if_pos ⟨by rw [hnone]; rfl, rfl⟩]
      exact ⟨fun _ => ⟨_, _, rfl, hrows.isCaret_end⟩, fun hlt => absurd hlt (lt_irrefl _)⟩
    · rw [setCursor_of_not fun hfound => hlt.ne hfound.2]
      exact ⟨fun hle => by omega, fun _ => hnone⟩

theorem HasRows.newLine (h : HasRows env maxWidth text wrapped) :
    HasRows env maxWidth (text ++ ['\n']) (wrapped.newLine (len text + 1)) := by
  have hwrapping := h.wrapping.pushNewline
  rw [Nat.zero_add] at hwrapping
  obtain ⟨front, line, hlines, hrow, -⟩ := h.atLast
  refine ⟨⟨wrapped.lines, [], rfl, ?_, rfl⟩, hwrapping⟩
  rw [WrappedInput.newLine, hrow, hlines, List.length_append, List.length_singleton]

theorem FindsCursor.newLine (hrows : HasRows env maxWidth text wrapped)
    (h : FindsCursor env cursorPos text wrapped) :
    FindsCursor env cursorPos text (wrapped.newLine (len text + 1)) where
  found hle := by
    obtain ⟨row, col, hsome, hcaret⟩ := h.found hle
    exact ⟨row, col, hsome, hcaret.append hrows.wrapping.length_eq [] (Nat.lt_succ_of_le hle)⟩
  notFound := h.notFound

theorem HasRows.pushChar (hrows : HasRows env maxWidth text wrapped)
    (h : FindsCursor env cursorPos text wrapped) (hch : ch ≠ '\n') :
    HasRows env maxWidth (text ++ [ch])
        ((wrapped.wrapAt cursorPos maxWidth (len text) (charDisplayWidth env ch)).pushChar ch
          (charDisplayWidth env ch)) ∧
      FindsCursor env cursorPos text
        ((wrapped.wrapAt cursorPos maxWidth (len text) (charDisplayWidth env ch)).pushChar ch
          (charDisplayWidth env ch)) := by
  obtain ⟨front, line, hlines, hrow, hcol⟩ := hrows.atLast
  have hwrapping := hrows.wrapping
  rw [hlines] at hwrapping
  rw [WrappedInput.wrapAt]
  split_ifs with hwrap
  · have hne : line ≠ [] := by
      rintro rfl
      rw [hcol] at hwrap
      exact absurd hwrap.1 (lt_irrefl _)
    have hover : Overflows env maxWidth line [ch] := by
      change maxWidth < displayWidth env line + charDisplayWidth env ch
      rw [← hcol]
      exact hwrap.2
    have hnew := hwrapping.pushRow hne hover ⟨by simpa using hch.symm, .inr rfl⟩
    have hlength : wrapped.row + 1 = wrapped.lines.length := by
      rw [hrow, hlines, List.length_append, List.length_singleton]
    have hmodify : (wrapped.lines ++ [[]]).modify (wrapped.row + 1) (· ++ [ch]) =
        wrapped.lines ++ [[ch]] := by
      rw [hlength, modify_length_append, List.nil_append]
    rw [Nat.zero_add, ← hlines, ← hmodify] at hnew
    have hlast : ∃ front line, (wrapped.lines ++ [[]]).modify (wrapped.row + 1) (· ++ [ch]) =
        front ++ [line] ∧ wrapped.row + 1 = front.length ∧
          0 + charDisplayWidth env ch = displayWidth env line :=
      ⟨wrapped.lines, [ch], hmodify, hlength, by simp [displayWidth]⟩
    rw [WrappedInput.setCursor]
    split_ifs with heq
    · -- The cursor is between the two rows: it goes to the second one.
      refine ⟨⟨hlast, hnew⟩, fun _ => ⟨_, _, rfl, ?_⟩, fun hlt => absurd heq hlt.ne⟩
      dsimp only [WrappedInput.pushChar, WrappedInput.newLine]
      rw [hmodify, hlength, ← heq]
      exact IsCaret.of_last_start hrows.wrapping.length_eq [ch]
    · refine ⟨⟨hlast, hnew⟩, fun hle => ?_, h.notFound⟩
      obtain ⟨row, col, hsome, hcaret⟩ := h.found hle
      refine ⟨row, col, hsome, ?_⟩
      dsimp only [WrappedInput.pushChar, WrappedInput.newLine]
      rw [hmodify]
      exact hcaret.append hrows.wrapping.length_eq [ch] (lt_of_le_of_ne hle (Ne.symm heq))
  · have hfits : line = [] ∨ displayWidth env line + charDisplayWidth env ch ≤ maxWidth := by
      by_contra hnot
      rw [not_or, not_le, ← hcol] at hnot
      refine hwrap ⟨?_, hnot.2⟩
      rw [hcol, Nat.pos_iff_ne_zero, Ne, width_eq_zero (charDisplayWidth_pos env)]
      exact hnot.1
    have hmodify : wrapped.lines.modify wrapped.row (· ++ [ch]) = front ++ [line ++ [ch]] := by
      rw [hlines, hrow, modify_length_append]
    have hnew := hwrapping.pushChar hch hfits
    rw [← hmodify] at hnew
    refine ⟨⟨⟨front, line ++ [ch], hmodify, hrow, ?_⟩, hnew⟩, fun hle => ?_, h.notFound⟩
    · rw [displayWidth_append_singleton, ← hcol]
      rfl
    · obtain ⟨row, col, hsome, hcaret⟩ := h.found hle
      refine ⟨row, col, hsome, ?_⟩
      dsimp only [WrappedInput.pushChar]
      rw [hmodify]
      rw [hlines] at hcaret
      exact hcaret.pushChar ch

theorem HasRows.push (hrows : HasRows env maxWidth text wrapped)
    (h : FindsCursor env cursorPos text wrapped) (ch : Char)
    (hcursor : cursorPos ≤ len text ∨ len (text ++ [ch]) ≤ cursorPos) :
    HasRows env maxWidth (text ++ [ch]) (wrapped.push env cursorPos maxWidth (len text) ch) ∧
      FindsCursor env cursorPos (text ++ [ch])
        (wrapped.push env cursorPos maxWidth (len text) ch) := by
  have hsame : wrapped.setCursor (wrapped.cursor.isNone ∧ len text = cursorPos) = wrapped := by
    refine setCursor_of_not fun ⟨hnone, heq⟩ => ?_
    obtain ⟨row, col, hsome, -⟩ := h.found heq.ge
    simp [hsome] at hnone
  rw [WrappedInput.push, hsame]
  dsimp only
  split_ifs with hch
  · subst hch
    have hnew := hrows.newLine
    exact ⟨hnew.setCursor _, (h.newLine hrows).setCursor hnew hcursor⟩
  · obtain ⟨hnew, hfinds⟩ := hrows.pushChar h hch
    exact ⟨hnew.setCursor _, hfinds.setCursor hnew hcursor⟩

theorem HasRows.pushAll (hrows : HasRows env maxWidth text wrapped)
    (h : FindsCursor env cursorPos text wrapped) (rest : List Char)
    (hcursor : IsCharBoundary (text ++ rest) cursorPos) :
    HasRows env maxWidth (text ++ rest) (wrapped.pushAll env cursorPos maxWidth (len text) rest) ∧
      FindsCursor env cursorPos (text ++ rest)
        (wrapped.pushAll env cursorPos maxWidth (len text) rest) := by
  induction rest generalizing text wrapped with
  | nil =>
    rw [List.append_nil]
    exact ⟨hrows, h⟩
  | cons ch rest ih =>
    have hstep : cursorPos ≤ len text ∨ len (text ++ [ch]) ≤ cursorPos := by
      by_contra hbetween
      rw [not_or, not_le, not_le, len_append_singleton] at hbetween
      exact hbetween.1.ne' (hcursor.eq_of_between _ hbetween.1.le hbetween.2)
    obtain ⟨hrows, h⟩ := hrows.push h ch hstep
    have hall := ih hrows h (by rwa [List.append_assoc])
    rwa [List.append_assoc, len_append_singleton] at hall

/-! ### The wrapped prompt -/

variable (env) (input : List Char) (cursorPos maxWidth : ℕ)

theorem wrapping_wrapInput_and_isCaret :
    Wrapping env (max maxWidth 1) 0 (wrapInput env input cursorPos maxWidth).lines
        (wrapInput env input cursorPos maxWidth).lineStarts input ∧
      IsCaret env (wrapInput env input cursorPos maxWidth).lines
        (wrapInput env input cursorPos maxWidth).lineStarts
        (clampCursorToBoundary input cursorPos)
        (wrapInputCursor env input cursorPos maxWidth).1
        (wrapInputCursor env input cursorPos maxWidth).2 := by
  rw [wrapInput, wrapInputCursor]
  have hboundary := isCharBoundary_clampCursorToBoundary input cursorPos
  generalize clampCursorToBoundary input cursorPos = cursorPos at *
  have hmax : 0 < max maxWidth 1 := by omega
  generalize max maxWidth 1 = maxWidth at *
  have hempty : IsRow env maxWidth [] := ⟨List.not_mem_nil, .inl (Nat.zero_le _)⟩
  have hstart : HasRows env maxWidth []
      { cursor := if cursorPos = 0 then some (0, 0) else none } :=
    ⟨⟨[], [], rfl, rfl, rfl⟩, .last 0 hempty⟩
  have hfinds : FindsCursor env cursorPos []
      { cursor := if cursorPos = 0 then some (0, 0) else none } := by
    refine ⟨fun hle => ?_, fun hlt => if_neg hlt.ne'⟩
    obtain rfl := Nat.le_zero.mp hle
    exact ⟨0, 0, rfl, hstart.isCaret_end⟩
  obtain ⟨hrows, hfound⟩ := hstart.pushAll hfinds input hboundary
  rw [len, width_nil, List.nil_append] at hrows hfound
  obtain ⟨row, col, hsome, hcaret⟩ := hfound.found hboundary.le
  generalize WrappedInput.pushAll env cursorPos maxWidth
    { cursor := if cursorPos = 0 then some (0, 0) else none } 0 input = wrapped at *
  rw [hsome, Option.getD_some]
  by_cases hfull : maxWidth ≤ col ∧ cursorPos = len input
  · -- The cursor is at the end of the last row, which is full: a row is added for it.
    obtain ⟨hcol, rfl⟩ := hfull
    obtain ⟨rfl, rfl⟩ := hcaret.unique hrows.isCaret_end
    obtain ⟨front, line, hlines, hrow, hline⟩ := hrows.atLast
    have hlength : wrapped.row + 1 = wrapped.lines.length := by
      rw [hrow, hlines, List.length_append, List.length_singleton]
    have hne : line ≠ [] := by
      rintro rfl
      rw [hline] at hcol
      exact absurd hcol (not_le.mpr hmax)
    have hwrapping := hrows.wrapping
    rw [hlines] at hwrapping
    have hover : Overflows env maxWidth line [] := by
      change maxWidth ≤ displayWidth env line
      rwa [← hline]
    have hnew := hwrapping.pushRow hne hover hempty
    rw [Nat.zero_add, List.append_nil, ← hlines] at hnew
    rw [if_pos ⟨hcol, rfl, hlength.ge⟩, if_pos ⟨hcol, rfl⟩]
    refine ⟨hnew, ?_⟩
    dsimp only
    rw [hlength]
    exact IsCaret.of_last_start hrows.wrapping.length_eq []
  · rw [if_neg fun h => hfull ⟨h.1, h.2.1⟩, if_neg hfull]
    exact ⟨hrows.wrapping, hcaret⟩

end IntelligentTerminal.Editor
