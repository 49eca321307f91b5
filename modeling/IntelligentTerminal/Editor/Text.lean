import IntelligentTerminal.Data.Offsets

/-!
# Text and its byte positions

The prompt editor keeps its text in a `String` and all positions in bytes. A text is modelled by the
list of its characters, and each character is as wide as its UTF-8 encoding. An operation of
`String` panics at a position that is inside a character: it has no result there. Positions are
natural numbers, since a text is never as long as `usize::MAX`.

Source: `tools/wta/src/app/input_edit.rs`, lines 9-94 and 640-647.
-/

namespace IntelligentTerminal.Editor

open Data

/-- What the standard library and `unicode_width` say about characters and paths:
`char::is_alphanumeric`, `Path::new(label).extension().is_some()` and `UnicodeWidthChar::width`. -/
structure Env where
  isAlphanumeric : Char → Bool
  hasExtension : List Char → Bool
  charWidth : Char → Option ℕ

/-! ### Ranges -/

/-- `str::len`. -/
abbrev len (s : List Char) : ℕ := width Char.utf8Size s

/-- `str::is_char_boundary`. -/
abbrev IsCharBoundary (s : List Char) (index : ℕ) : Prop := IsBoundary Char.utf8Size s index

/-- `Range<usize>`. -/
structure Range where
  start : ℕ
  stop : ℕ
deriving DecidableEq

namespace Range

def IsEmpty (r : Range) : Prop := ¬r.start < r.stop

instance (r : Range) : Decidable r.IsEmpty := inferInstanceAs (Decidable (¬_))

end Range

/-- The ranges that a text can be cut at. -/
def Fits (s : List Char) (r : Range) : Prop :=
  r.start ≤ r.stop ∧ IsCharBoundary s r.start ∧ IsCharBoundary s r.stop

instance (s : List Char) (r : Range) : Decidable (Fits s r) :=
  inferInstanceAs (Decidable (_ ∧ _ ∧ _))

/-- `str::get`; `&s[range]` panics where it has no result. -/
def get (s : List Char) (r : Range) : Option (List Char) :=
  if Fits s r then
    some (takeWidth Char.utf8Size (r.stop - r.start) (dropWidth Char.utf8Size r.start s))
  else none

/-- `String::replace_range`; `String::insert_str` is the case of an empty range. -/
def replaceRange (s : List Char) (r : Range) (replacement : List Char) : Option (List Char) :=
  if Fits s r then
    some (takeWidth Char.utf8Size r.start s ++ replacement ++ dropWidth Char.utf8Size r.stop s)
  else none

/-! ### Boundaries -/

/-- The loop of `clamp_cursor_to_boundary`. -/
def clampLoop (input : List Char) : ℕ → ℕ
  | 0 => 0
  | clamped + 1 =>
    if IsCharBoundary input (clamped + 1) then clamped + 1 else clampLoop input clamped

def clampCursorToBoundary (input : List Char) (cursorPos : ℕ) : ℕ :=
  clampLoop input (min cursorPos (len input))

/-! ### The editor -/

structure TextEditor where
  text : List Char
  cursorPos : ℕ

namespace TextEditor

def new (text : List Char) (cursorPos : ℕ) : TextEditor where
  text
  cursorPos := clampCursorToBoundary text cursorPos

def insertStr (editor : TextEditor) (value : List Char) : Option (TextEditor × Option Range) :=
  if value = [] then some (editor, none)
  else do
    let start := editor.cursorPos
    let text ← replaceRange editor.text ⟨start, start⟩ value
    let cursorPos := start + len value
    some ({ text, cursorPos }, some ⟨start, cursorPos⟩)

def deleteRange (editor : TextEditor) (range : Range) : Option (TextEditor × Option Range) :=
  if range.IsEmpty then some (editor, none)
  else do
    let text ← replaceRange editor.text range []
    some ({ text, cursorPos := range.start }, some range)

end TextEditor

/-! ### Cutting a text -/

section Cut

variable {s a m b t : List Char} {i j : ℕ}

theorem fits_append (a m b : List Char) : Fits (a ++ m ++ b) ⟨len a, len (a ++ m)⟩ := by
  refine ⟨?_, ?_, isBoundary_append Char.utf8Size_pos (a ++ m) b⟩
  · simp only [width_append]
    exact Nat.le_add_right _ _
  · rw [List.append_assoc]
    exact isBoundary_append Char.utf8Size_pos a (m ++ b)

theorem get_append (a m b : List Char) : get (a ++ m ++ b) ⟨len a, len (a ++ m)⟩ = some m := by
  rw [get, if_pos (fits_append a m b)]
  dsimp only
  rw [List.append_assoc, dropWidth_width_append Char.utf8Size_pos, len, len, width_append,
    Nat.add_sub_cancel_left, takeWidth_width_append Char.utf8Size_pos]

theorem replaceRange_append (a m b t : List Char) :
    replaceRange (a ++ m ++ b) ⟨len a, len (a ++ m)⟩ t = some (a ++ t ++ b) := by
  rw [replaceRange, if_pos (fits_append a m b)]
  dsimp only
  rw [dropWidth_width_append Char.utf8Size_pos, List.append_assoc a m b,
    takeWidth_width_append Char.utf8Size_pos]

theorem replaceRange_insert (a b t : List Char) :
    replaceRange (a ++ b) ⟨len a, len a⟩ t = some (a ++ t ++ b) := by
  simpa using replaceRange_append a [] b t

theorem exists_append_of_fits {r : Range} (h : Fits s r) :
    ∃ a m b, s = a ++ m ++ b ∧ r = ⟨len a, len (a ++ m)⟩ := by
  obtain ⟨a, m, b, hs, hstart, hstop⟩ :=
    exists_append_of_isBoundary Char.utf8Size_pos h.2.1 h.2.2 h.1
  exact ⟨a, m, b, hs, by rw [len, len, hstart, hstop]⟩

/-! ### Clamping -/

theorem clampLoop_of_isCharBoundary (h : IsCharBoundary s i) : clampLoop s i = i := by
  cases i with
  | zero => rfl
  | succ i => exact if_pos h

theorem isCharBoundary_clampLoop (s : List Char) (i : ℕ) : IsCharBoundary s (clampLoop s i) := by
  induction i with
  | zero => exact isBoundary_zero Char.utf8Size_pos s
  | succ i ih =>
    rw [clampLoop]
    split_ifs with h
    · exact h
    · exact ih

theorem isCharBoundary_clampCursorToBoundary (s : List Char) (i : ℕ) :
    IsCharBoundary s (clampCursorToBoundary s i) :=
  isCharBoundary_clampLoop s _

theorem clampCursorToBoundary_of_isCharBoundary (h : IsCharBoundary s i) :
    clampCursorToBoundary s i = i := by
  rw [clampCursorToBoundary, min_eq_left h.le, clampLoop_of_isCharBoundary h]

end Cut

end IntelligentTerminal.Editor
