import IntelligentTerminal.Data.Utf8

/-!
# Windows of terminal text

An agent is given a bounded part of a pane's text: the last lines of the buffer, or the first lines
of the last command, cut to a number of characters. A third reader returns the last lines of the
scrollback uncut. All three split the UTF-8 bytes into lines with `std::getline` and join them again.

The claimed lines of a text are its newline-separated pieces. For the tail of the buffer a newline
terminates a line, so there is no empty line behind the last one. The reader of the scrollback puts
a newline in front of a line only when something stands before it, and agrees with the tail when
the first of its lines is not empty.

Source: `src/cascadia/TerminalProtocol/ProtocolParsing.h`,
`src/cascadia/TerminalApp/TerminalPage.Protocol.cpp`.
-/

namespace IntelligentTerminal.Panes

/-- A `std::string` in UTF-8. -/
abbrev Utf8String := List UInt8

structure BoundedContextText where
  content : Utf8String := []
  lineCount : ℤ := 0
  truncated : Bool := false

/-- A `static_cast<int32_t>` of a size. -/
def toInt32 (n : ℕ) : ℤ := (n : ℤ).bmod (2 ^ 32)

/-! ### The source -/

/-- The offset behind the continuation bytes that stand at one. -/
def pastContinuation (text : Utf8String) (offset : ℕ) : ℕ :=
  offset + ((text.drop offset).takeWhile isContinuation).length

/-- The loop of `Utf8PrefixBytes`, for the characters that may still be read. -/
def prefixLoop (text : Utf8String) : ℕ → ℕ → ℕ
  | 0, offset => offset
  | characters + 1, offset =>
    if offset < text.length then prefixLoop text characters (pastContinuation text (offset + 1))
    else offset

def utf8PrefixBytes (text : Utf8String) (maxCharacters : ℕ) : ℕ := prefixLoop text maxCharacters 0

/-- The inner loop of `Utf8TailOffset`: from an offset back to the start of its character. -/
def backToStart (text : Utf8String) : ℕ → ℕ
  | 0 => 0
  | offset + 1 =>
    if isContinuation (text.getD (offset + 1) 0) then backToStart text offset else offset + 1

/-- The loop of `Utf8TailOffset`, for the characters that may still be read. -/
def tailLoop (text : Utf8String) : ℕ → ℕ → ℕ
  | 0, offset => offset
  | _ + 1, 0 => 0
  | characters + 1, offset + 1 => tailLoop text characters (backToStart text offset)

def utf8TailOffset (text : Utf8String) (maxCharacters : ℕ) : ℕ :=
  tailLoop text maxCharacters text.length

def countContextLines (text : Utf8String) : ℤ :=
  if text = [] then 0 else 1 + toInt32 (text.count 0x0A)

/-- The lines `std::getline` reads, each without one trailing `\r`, where `line` has been read
already. The end of the text ends a line only if something has been read of it. -/
def readLines (line : Utf8String) : Utf8String → List Utf8String
  | [] => if line = [] then [] else [dropTrailing 0x0D line]
  | b :: stream =>
    if b = 0x0A then dropTrailing 0x0D line :: readLines [] stream
    else readLines (line ++ [b]) stream

def buildBoundedCommand (text : Utf8String) (maxLines maxCharacters : ℤ) : BoundedContextText :=
  if maxLines ≤ 0 ∨ maxCharacters ≤ 0 ∨ text = [] then {}
  else
    let read := readLines [] text
    let lines := if text.getLast? = some 0x0A then read ++ [[]] else read
    let lineLimit := min lines.length maxLines.toNat
    let content := joinLines 0x0A (lines.take lineLimit)
    let stop := utf8PrefixBytes content maxCharacters.toNat
    { content := content.take stop
      lineCount := countContextLines (content.take stop)
      truncated := lineLimit < lines.length ∨ stop < content.length }

def buildBoundedBufferTail (text : Utf8String) (maxLines maxCharacters : ℤ) :
    BoundedContextText :=
  if maxLines ≤ 0 ∨ maxCharacters ≤ 0 ∨ text = [] then {}
  else
    let lines := readLines [] text
    let lineLimit := maxLines.toNat
    let startLine := if lineLimit < lines.length then lines.length - lineLimit else 0
    let content := joinLines 0x0A (lines.drop startLine)
    let characterStart := utf8TailOffset content maxCharacters.toNat
    { content := content.drop characterStart
      lineCount := countContextLines (content.drop characterStart)
      truncated := 0 < startLine ∨ 0 < characterStart }

/-- One line of the scrollback read: the content so far, the lines counted. -/
def appendLine (r : Utf8String × ℤ) (line : Utf8String) : Utf8String × ℤ :=
  ((if r.1 = [] then [] else r.1 ++ [0x0A]) ++ line, r.2 + 1)

/-- The scrollback branch of `ReadProtocolPaneOutput`, on the whole buffer. -/
def readProtocolPaneOutput (fullBuffer : Utf8String) (maxLines : ℤ) : BoundedContextText :=
  let effectiveMaxLines := if maxLines ≤ 0 then 200 else maxLines
  let lines := readLines [] fullBuffer
  let truncated := decide (effectiveMaxLines < toInt32 lines.length)
  let startIdx := if truncated then lines.length - effectiveMaxLines.toNat else 0
  let r := (lines.drop startIdx).foldl appendLine ([], 0)
  { content := r.1, lineCount := r.2, truncated }

/-! ### What a window is -/

/-- The newline-separated pieces of a text without one trailing carriage return each. -/
def textLines (text : List Char) : List (List Char) :=
  (text.splitOn '\n').map (dropTrailing '\r')

/-- The same without the empty piece behind a final newline. -/
def terminatedLines (text : List Char) : List (List Char) :=
  (dropTrailing [] (text.splitOn '\n')).map (dropTrailing '\r')

def firstLines (maxLines : ℤ) (lines : List (List Char)) : List (List Char) :=
  lines.take maxLines.toNat

def lastLines (maxLines : ℤ) (lines : List (List Char)) : List (List Char) :=
  lines.drop (lines.length - maxLines.toNat)

/-- A part with at most `n` characters, none of them longer. -/
def IsLongest (part : List Char → Prop) (n : ℕ) (w : List Char) : Prop :=
  part w ∧ w.length ≤ n ∧ ∀ other, part other → other.length ≤ n → other.length ≤ w.length

/-- The number of lines of a content; an empty one has none. -/
def lineCount (w : List Char) : ℤ := if w = [] then 0 else (w.splitOn '\n').length

/-- A result shows the longest part of the selected lines that has at most `maxCharacters`
characters, tells whether that is less than all the lines, and counts its lines. -/
def IsWindow (part : List Char → List Char → Prop) (lines selected : List (List Char))
    (maxCharacters : ℤ) (r : BoundedContextText) : Prop :=
  ∃ w, r.content = utf8Bytes w ∧
    IsLongest (part · (joinLines '\n' selected)) maxCharacters.toNat w ∧
    (r.truncated = true ↔ w ≠ joinLines '\n' lines) ∧ r.lineCount = lineCount w

/-- The tail of the buffer is a window of the last of some lines of the text. -/
def TailExact (linesOf : List Char → List (List Char)) (text : List Char)
    (maxLines maxCharacters : ℤ) : Prop :=
  IsWindow (· <:+ ·) (linesOf text) (lastLines maxLines (linesOf text)) maxCharacters
    (buildBoundedBufferTail (utf8Bytes text) maxLines maxCharacters)

/-- The command is a window of the first lines of the text. -/
def CommandExact (text : List Char) (maxLines maxCharacters : ℤ) : Prop :=
  IsWindow (· <+: ·) (textLines text) (firstLines maxLines (textLines text)) maxCharacters
    (buildBoundedCommand (utf8Bytes text) maxLines maxCharacters)

/-- The scrollback read returns what the tail of the buffer does. -/
def ReadsAlike (text : List Char) (maxLines maxCharacters : ℤ) : Prop :=
  (readProtocolPaneOutput (utf8Bytes text) maxLines).content =
      (buildBoundedBufferTail (utf8Bytes text) maxLines maxCharacters).content ∧
    (readProtocolPaneOutput (utf8Bytes text) maxLines).lineCount =
      (buildBoundedBufferTail (utf8Bytes text) maxLines maxCharacters).lineCount

/-! ### Reading the lines -/

theorem toInt32_eq {n : ℕ} (h : n < 2 ^ 31) : toInt32 n = n :=
  Int.bmod_eq_of_le (by omega) (by omega)

theorem readLines_append_of_not_mem {bytes : Utf8String} (h : 0x0A ∉ bytes)
    (line stream : Utf8String) :
    readLines line (bytes ++ stream) = readLines (line ++ bytes) stream := by
  induction bytes generalizing line with
  | nil => simp
  | cons b bytes ih =>
    obtain ⟨hb, hbytes⟩ : 0x0A ≠ b ∧ 0x0A ∉ bytes := by simpa using h
    rw [List.cons_append, readLines, if_neg (Ne.symm hb), ih hbytes, List.append_assoc,
      List.singleton_append]

theorem readLines_utf8Bytes {line : List Char} (h : '\n' ∉ line) (text : List Char) :
    readLines (utf8Bytes line) (utf8Bytes text) =
      (terminatedLines (line ++ text)).map utf8Bytes := by
  induction text generalizing line with
  | nil =>
    rw [List.append_nil, terminatedLines, List.splitOn_eq_singleton h, utf8Bytes_nil, readLines]
    by_cases hline : line = []
    · subst hline
      rfl
    · have hkept : dropTrailing [] [line] = [line] := if_neg (by simpa using hline)
      rw [if_neg (by simpa using hline), dropTrailing_utf8Bytes, hkept]
      rfl
  | cons c text ih =>
    rw [utf8Bytes_cons]
    by_cases hc : c = '\n'
    · subst hc
      have hrest := ih (List.not_mem_nil)
      have hne := List.splitOn_ne_nil '\n' text
      have hdrop : dropTrailing [] (line :: text.splitOn '\n') =
          line :: dropTrailing [] (text.splitOn '\n') := by
        obtain ⟨first, rest, hsplit⟩ := List.exists_cons_of_ne_nil hne
        rw [hsplit, dropTrailing, dropTrailing, List.getLast?_cons_cons]
        split_ifs
        · rw [List.dropLast_cons_cons]
        · rfl
      rw [utf8EncodeChar_newline, List.singleton_append, readLines, if_pos rfl, dropTrailing_utf8Bytes,
        terminatedLines, List.splitOn_append_cons_self, List.splitOn_eq_singleton h,
        List.singleton_append, hdrop]
      exact congrArg _ hrest
    · have hbytes : 0x0A ∉ String.utf8EncodeChar c := mt newline_mem_utf8EncodeChar.mp hc
      have hgrown : '\n' ∉ line ++ [c] := by simpa [h] using Ne.symm hc
      have hih := ih hgrown
      rw [utf8Bytes_append, utf8Bytes_cons, utf8Bytes_nil, List.append_nil,
        List.append_assoc, List.singleton_append] at hih
      rw [readLines_append_of_not_mem hbytes, hih]

theorem readLines_text (text : List Char) :
    readLines [] (utf8Bytes text) = (terminatedLines text).map utf8Bytes :=
  readLines_utf8Bytes List.not_mem_nil text

theorem getLast?_utf8Bytes_eq_newline {text : List Char} (htext : text ≠ []) :
    (utf8Bytes text).getLast? = some 0x0A ↔ (text.splitOn '\n').getLast? = some [] := by
  obtain ⟨text, c, rfl⟩ := text.eq_nil_or_concat.resolve_left htext
  obtain ⟨front, last, hsplit, -, hgrown⟩ := exists_splitOn_concat '\n' text
  rw [List.concat_eq_append, getLast?_utf8Bytes_concat (by decide),
    utf8EncodeChar_eq_ascii_iff (by decide) utf8EncodeChar_newline]
  by_cases hc : c = '\n'
  · rw [hc, splitOn_concat_self]
    exact iff_of_true rfl (by simp)
  · rw [hgrown c hc]
    exact iff_of_false hc (by simp)

theorem not_mem_of_mem_textLines {text line : List Char} (h : line ∈ textLines text) :
    '\n' ∉ line := by
  obtain ⟨piece, hpiece, rfl⟩ := List.mem_map.mp h
  exact fun hmem => not_mem_of_mem_splitOn hpiece (dropTrailing_subset _ _ hmem)

theorem terminatedLines_subset (text : List Char) : terminatedLines text ⊆ textLines text :=
  List.map_subset _ (dropTrailing_subset _ _)

/-! ### Cutting the characters -/

theorem prefixLoop_utf8Bytes (n : ℕ) (done text : List Char) :
    prefixLoop (utf8Bytes (done ++ text)) n (utf8Bytes done).length =
      (utf8Bytes (done ++ text.take n)).length := by
  induction n generalizing done text with
  | zero => simp [prefixLoop]
  | succ n ih =>
    cases text with
    | nil => simp [prefixLoop]
    | cons c text =>
      obtain ⟨lead, tail, henc, -, htail, -⟩ := exists_utf8EncodeChar c
      have hpast : pastContinuation (utf8Bytes (done ++ c :: text))
          ((utf8Bytes done).length + 1) = (utf8Bytes (done ++ [c])).length := by
        have hdrop : (utf8Bytes (done ++ c :: text)).drop ((utf8Bytes done).length + 1) =
            tail ++ utf8Bytes text := by
          rw [utf8Bytes_append, utf8Bytes_cons, henc, ← List.drop_drop, List.drop_left]
          rfl
        rw [pastContinuation, hdrop, List.takeWhile_append_of_pos htail,
          takeWhile_isContinuation_utf8Bytes]
        simp only [utf8Bytes_append, utf8Bytes_cons, utf8Bytes_nil, henc, List.append_nil,
          List.length_append, List.length_cons]
        omega
      have hless : (utf8Bytes done).length < (utf8Bytes (done ++ c :: text)).length := by
        simp only [utf8Bytes_append, utf8Bytes_cons, henc, List.length_append, List.length_cons]
        omega
      have hnext := ih (done ++ [c]) text
      rw [List.append_assoc, List.append_assoc, List.singleton_append, List.singleton_append]
        at hnext
      rw [prefixLoop, if_pos hless, hpast, hnext, List.take_succ_cons]

theorem utf8PrefixBytes_utf8Bytes (text : List Char) (n : ℕ) :
    utf8PrefixBytes (utf8Bytes text) n = (utf8Bytes (text.take n)).length :=
  prefixLoop_utf8Bytes n [] text

theorem backToStart_utf8Bytes {done text : List Char} {c : Char} {lead : UInt8}
    {tail : List UInt8} (henc : String.utf8EncodeChar c = lead :: tail)
    (hlead : isContinuation lead = false) (htail : ∀ b ∈ tail, isContinuation b = true)
    {i : ℕ} (hi : i ≤ tail.length) :
    backToStart (utf8Bytes (done ++ c :: text)) ((utf8Bytes done).length + i) =
      (utf8Bytes done).length := by
  have hget (k : ℕ) : (utf8Bytes (done ++ c :: text)).getD ((utf8Bytes done).length + k) 0 =
      (lead :: (tail ++ utf8Bytes text)).getD k 0 := by
    rw [utf8Bytes_append, utf8Bytes_cons, henc, List.getD_append_right _ _ _ _ (by omega)]
    simp
  induction i with
  | zero =>
    have hstart := hget 0
    rw [Nat.add_zero, List.getD_cons_zero] at hstart
    rw [Nat.add_zero]
    cases hoffset : (utf8Bytes done).length with
    | zero => rw [backToStart]
    | succ offset =>
      rw [hoffset] at hstart
      rw [backToStart, hstart, hlead]
      rfl
  | succ i ih =>
    have hnext := hget (i + 1)
    rw [List.getD_cons_succ, List.getD_append _ _ _ _ (by omega)] at hnext
    have hcontinues : isContinuation (tail.getD i 0) = true := by
      rw [List.getD_eq_getElem _ _ (by omega)]
      exact htail _ (List.getElem_mem _)
    rw [← Nat.add_assoc, backToStart, Nat.add_assoc, hnext, if_pos hcontinues]
    exact ih (by omega)

theorem tailLoop_utf8Bytes (n : ℕ) (front text : List Char) :
    tailLoop (utf8Bytes (front ++ text)) n (utf8Bytes front).length =
      (utf8Bytes (front.take (front.length - n))).length := by
  induction n generalizing front text with
  | zero => simp [tailLoop]
  | succ n ih =>
    obtain rfl | ⟨front, c, rfl⟩ := front.eq_nil_or_concat
    · simp [tailLoop]
    obtain ⟨lead, tail, henc, hlead, htail, -⟩ := exists_utf8EncodeChar c
    have hlength : (utf8Bytes (front ++ [c])).length =
        (utf8Bytes front).length + tail.length + 1 := by
      simp only [utf8Bytes_append, utf8Bytes_cons, utf8Bytes_nil, henc, List.append_nil,
        List.length_append, List.length_cons]
      omega
    have htake : (front ++ [c]).take ((front ++ [c]).length - (n + 1)) =
        front.take (front.length - n) := by
      rw [List.length_append, List.length_singleton, Nat.add_sub_add_right,
        List.take_append_of_le_length (Nat.sub_le _ _)]
    rw [List.concat_eq_append, hlength, tailLoop, htake, List.append_assoc,
      List.singleton_append, backToStart_utf8Bytes henc hlead htail le_rfl]
    exact ih front (c :: text)

theorem utf8TailOffset_utf8Bytes (text : List Char) (n : ℕ) :
    utf8TailOffset (utf8Bytes text) n = (utf8Bytes (text.take (text.length - n))).length := by
  have h := tailLoop_utf8Bytes n text []
  rwa [List.append_nil] at h

theorem drop_utf8Bytes (text : List Char) (n : ℕ) :
    (utf8Bytes text).drop (utf8Bytes (text.take n)).length = utf8Bytes (text.drop n) := by
  have hsplit : utf8Bytes text = utf8Bytes (text.take n) ++ utf8Bytes (text.drop n) := by
    rw [← utf8Bytes_append, List.take_append_drop]
  rw [hsplit, List.drop_left]

theorem take_utf8Bytes (text : List Char) (n : ℕ) :
    (utf8Bytes text).take (utf8Bytes (text.take n)).length = utf8Bytes (text.take n) := by
  have hsplit : utf8Bytes text = utf8Bytes (text.take n) ++ utf8Bytes (text.drop n) := by
    rw [← utf8Bytes_append, List.take_append_drop]
  rw [hsplit, List.take_left]

/-! ### Counting the lines -/

variable {lines : List (List Char)} {maxLines : ℤ}

theorem length_splitOn_joinLines (h : ∀ line ∈ lines, '\n' ∉ line)
    (hne : lines ≠ []) : ((joinLines '\n' lines).splitOn '\n').length = lines.length := by
  have hpos := List.length_pos_of_ne_nil hne
  rw [length_splitOn, count_joinLines h]
  omega

theorem countContextLines_part {selected : List (List Char)}
    (h : ∀ line ∈ selected, '\n' ∉ line) (hlength : selected.length < 2 ^ 31) {w : List Char}
    (hw : w.Sublist (joinLines '\n' selected)) :
    countContextLines (utf8Bytes w) = lineCount w := by
  have hcount := hw.count_le '\n'
  rw [count_joinLines h] at hcount
  rw [countContextLines, lineCount]
  by_cases hempty : w = []
  · simp [hempty]
  · rw [if_neg (by simpa using hempty), if_neg hempty, count_newline_utf8Bytes,
      toInt32_eq (by omega), length_splitOn]
    push_cast
    ring

/-! ### What is cut -/

theorem length_joinLines_lt {a b : List (List Char)} (ha : a ≠ []) (hb : b ≠ []) :
    (joinLines '\n' a).length < (joinLines '\n' (a ++ b)).length ∧
      (joinLines '\n' b).length < (joinLines '\n' (a ++ b)).length := by
  rw [joinLines_append _ ha hb]
  simp only [List.length_append, List.length_cons]
  omega

theorem cut_front_iff (hmax : 0 < maxLines) (k : ℕ) :
    (maxLines.toNat < lines.length ∨ (joinLines '\n' (lastLines maxLines lines)).take k ≠ []) ↔
      (joinLines '\n' (lastLines maxLines lines)).drop k ≠ joinLines '\n' lines := by
  by_cases hless : maxLines.toNat < lines.length
  · refine iff_of_true (.inl hless) fun heq => ?_
    have hfront : lines.take (lines.length - maxLines.toNat) ≠ [] := by
      rw [ne_eq, List.take_eq_nil_iff]
      rintro (hzero | rfl)
      · omega
      · simp at hless
    have hlast : lastLines maxLines lines ≠ [] := by
      rw [lastLines, ne_eq, List.drop_eq_nil_iff]
      omega
    have hshort := (length_joinLines_lt hfront hlast).2
    rw [lastLines, List.take_append_drop, ← lastLines, ← heq, List.length_drop] at hshort
    omega
  · have hall : lastLines maxLines lines = lines := by
      rw [lastLines, Nat.sub_eq_zero_of_le (by omega), List.drop_zero]
    rw [hall, or_iff_right hless, not_iff_not]
    constructor
    · intro hnone
      nth_rewrite 2 [← List.take_append_drop k (joinLines '\n' lines)]
      rw [hnone, List.nil_append]
    · intro heq
      have hlength := congrArg List.length heq
      rw [List.length_drop] at hlength
      rw [List.take_eq_nil_iff, ← List.length_eq_zero_iff]
      omega

theorem cut_end_iff (hmax : 0 < maxLines) (k : ℕ) :
    (maxLines.toNat < lines.length ∨ (joinLines '\n' (firstLines maxLines lines)).drop k ≠ []) ↔
      (joinLines '\n' (firstLines maxLines lines)).take k ≠ joinLines '\n' lines := by
  by_cases hless : maxLines.toNat < lines.length
  · refine iff_of_true (.inl hless) fun heq => ?_
    have hfirst : firstLines maxLines lines ≠ [] := by
      rw [firstLines, ne_eq, List.take_eq_nil_iff]
      rintro (hzero | rfl)
      · omega
      · simp at hless
    have hrest : lines.drop maxLines.toNat ≠ [] := by
      rw [ne_eq, List.drop_eq_nil_iff]
      omega
    have hshort := (length_joinLines_lt hfirst hrest).1
    rw [firstLines, List.take_append_drop, ← firstLines, ← heq, List.length_take] at hshort
    omega
  · have hall : firstLines maxLines lines = lines := List.take_of_length_le (by omega)
    rw [hall, or_iff_right hless, not_iff_not, List.drop_eq_nil_iff, List.take_eq_self_iff]

/-! ### The windows -/

theorem isLongest_drop (s : List Char) (n : ℕ) :
    IsLongest (· <:+ s) n (s.drop (s.length - n)) := by
  refine ⟨List.drop_suffix _ _, ?_, fun other hother hlength => ?_⟩
  · rw [List.length_drop]
    omega
  · have hle := hother.length_le
    rw [List.length_drop]
    omega

theorem isLongest_take (s : List Char) (n : ℕ) : IsLongest (· <+: s) n (s.take n) :=
  ⟨List.take_prefix _ _, List.length_take_le _ _, fun other hother hlength => by
    rw [List.length_take]
    exact le_min hlength hother.length_le⟩

section Windows

variable (text : List Char) {maxLines maxCharacters : ℤ} {joined : List Char}

theorem lastLines_map (lines : List (List Char)) :
    (lines.map utf8Bytes).drop
        (if maxLines.toNat < lines.length then lines.length - maxLines.toNat else 0) =
      (lastLines maxLines lines).map utf8Bytes := by
  rw [lastLines, ← List.map_drop]
  congr 2
  split_ifs <;> omega

theorem buildBoundedBufferTail_utf8Bytes (hlines : 0 < maxLines) (hchars : 0 < maxCharacters)
    (hjoined : joined = joinLines '\n' (lastLines maxLines (terminatedLines text)))
    {start : ℕ} (hstart : start = joined.length - maxCharacters.toNat) :
    buildBoundedBufferTail (utf8Bytes text) maxLines maxCharacters =
      { content := utf8Bytes (joined.drop start)
        lineCount := countContextLines (utf8Bytes (joined.drop start))
        truncated := maxLines.toNat < (terminatedLines text).length ∨ joined.take start ≠ [] } := by
  by_cases htext : text = []
  · subst htext
    have hnone : terminatedLines [] = [] := rfl
    have hempty : joined = [] := by
      rw [hjoined, hnone, lastLines, List.drop_nil]
      rfl
    rw [buildBoundedBufferTail, if_pos (by simp), hempty, hnone]
    simp [countContextLines]
  have hguard : ¬ (maxLines ≤ 0 ∨ maxCharacters ≤ 0 ∨ utf8Bytes text = []) := by
    simp only [utf8Bytes_eq_nil, htext, or_false]
    omega
  have hcut : (0 < if maxLines.toNat < (terminatedLines text).length then
      (terminatedLines text).length - maxLines.toNat else 0) ↔
      maxLines.toNat < (terminatedLines text).length := by
    split_ifs <;> omega
  have htaken : 0 < (utf8Bytes (joined.take start)).length ↔ joined.take start ≠ [] := by
    rw [List.length_pos_iff, ne_eq, utf8Bytes_eq_nil]
  rw [buildBoundedBufferTail, if_neg hguard]
  dsimp only
  rw [readLines_text, List.length_map, lastLines_map, ← utf8Bytes_joinLines, ← hjoined,
    utf8TailOffset_utf8Bytes, ← hstart, drop_utf8Bytes]
  simp only [hcut, htaken]

theorem tailExact_terminatedLines (hlines : 0 < maxLines) (hmax : maxLines < 2 ^ 31)
    (hchars : 0 < maxCharacters) : TailExact terminatedLines text maxLines maxCharacters := by
  obtain ⟨selected, hselected⟩ : ∃ l, l = lastLines maxLines (terminatedLines text) := ⟨_, rfl⟩
  have hwindow := buildBoundedBufferTail_utf8Bytes text hlines hchars rfl rfl
  have hlongest := isLongest_drop (joinLines '\n' selected) maxCharacters.toNat
  have hlength : selected.length < 2 ^ 31 := by
    rw [hselected, lastLines, List.length_drop]
    omega
  have hnone : ∀ line ∈ selected, '\n' ∉ line := fun line hline =>
    not_mem_of_mem_textLines (terminatedLines_subset text
      (List.mem_of_mem_drop (hselected ▸ hline)))
  rw [TailExact, IsWindow, hwindow, ← hselected]
  refine ⟨_, rfl, hlongest, ?_, countContextLines_part hnone hlength hlongest.1.sublist⟩
  rw [decide_eq_true_iff, hselected]
  exact cut_front_iff hlines _

theorem readLines_command (htext : text ≠ []) :
    (if (utf8Bytes text).getLast? = some 0x0A then readLines [] (utf8Bytes text) ++ [[]]
      else readLines [] (utf8Bytes text)) = (textLines text).map utf8Bytes := by
  rw [readLines_text, terminatedLines, textLines]
  by_cases hlast : (text.splitOn '\n').getLast? = some []
  · obtain ⟨front, hfront⟩ := List.getLast?_eq_some_iff.mp hlast
    rw [if_pos ((getLast?_utf8Bytes_eq_newline htext).mpr hlast), dropTrailing, if_pos hlast,
      hfront, List.dropLast_concat]
    simp [dropTrailing]
  · rw [if_neg (fun h => hlast ((getLast?_utf8Bytes_eq_newline htext).mp h)), dropTrailing,
      if_neg hlast]

theorem buildBoundedCommand_utf8Bytes (hlines : 0 < maxLines) (hchars : 0 < maxCharacters)
    (hjoined : joined = joinLines '\n' (firstLines maxLines (textLines text))) :
    buildBoundedCommand (utf8Bytes text) maxLines maxCharacters =
      { content := utf8Bytes (joined.take maxCharacters.toNat)
        lineCount := countContextLines (utf8Bytes (joined.take maxCharacters.toNat))
        truncated := maxLines.toNat < (textLines text).length ∨
          joined.drop maxCharacters.toNat ≠ [] } := by
  by_cases htext : text = []
  · subst htext
    have hone : textLines [] = [[]] := rfl
    have hempty : joined = [] := by
      rw [hjoined, hone, firstLines, List.take_of_length_le]
      · rfl
      · rw [List.length_singleton]
        omega
    rw [buildBoundedCommand, if_pos (by simp), hempty, hone]
    have hnotless : ¬ maxLines.toNat < 1 := by omega
    simp [countContextLines, hnotless]
  have hguard : ¬ (maxLines ≤ 0 ∨ maxCharacters ≤ 0 ∨ utf8Bytes text = []) := by
    simp only [utf8Bytes_eq_nil, htext, or_false]
    omega
  have htake : (textLines text).take (min (textLines text).length maxLines.toNat) =
      firstLines maxLines (textLines text) := by
    rw [firstLines, List.take_eq_take_iff]
    omega
  have hcut : min (textLines text).length maxLines.toNat < (textLines text).length ↔
      maxLines.toNat < (textLines text).length := by
    omega
  have hleft : (utf8Bytes (joined.take maxCharacters.toNat)).length < (utf8Bytes joined).length ↔
      joined.drop maxCharacters.toNat ≠ [] := by
    have hrest := drop_utf8Bytes joined maxCharacters.toNat
    rw [ne_eq, ← utf8Bytes_eq_nil, ← hrest, List.drop_eq_nil_iff, not_le]
  rw [buildBoundedCommand, if_neg hguard]
  dsimp only
  rw [readLines_command text htext, List.length_map, ← List.map_take, htake,
    ← utf8Bytes_joinLines, ← hjoined, utf8PrefixBytes_utf8Bytes, take_utf8Bytes]
  simp only [hcut, hleft]

theorem commandExact (hlines : 0 < maxLines) (hmax : maxLines < 2 ^ 31)
    (hchars : 0 < maxCharacters) : CommandExact text maxLines maxCharacters := by
  obtain ⟨selected, hselected⟩ : ∃ l, l = firstLines maxLines (textLines text) := ⟨_, rfl⟩
  have hwindow := buildBoundedCommand_utf8Bytes text hlines hchars rfl
  have hlongest := isLongest_take (joinLines '\n' selected) maxCharacters.toNat
  have hlength : selected.length < 2 ^ 31 := by
    rw [hselected, firstLines, List.length_take]
    omega
  have hnone : ∀ line ∈ selected, '\n' ∉ line := fun line hline =>
    not_mem_of_mem_textLines (List.mem_of_mem_take (hselected ▸ hline))
  rw [CommandExact, IsWindow, hwindow, ← hselected]
  refine ⟨_, rfl, hlongest, ?_, countContextLines_part hnone hlength hlongest.1.sublist⟩
  rw [decide_eq_true_iff, hselected]
  exact cut_end_iff hlines _

/-! ### The scrollback read -/

theorem foldl_appendLine {content : Utf8String} (hcontent : content ≠ []) (n : ℤ)
    (lines : List Utf8String) : lines.foldl appendLine (content, n) =
      (content ++ lines.flatMap (0x0A :: ·), n + lines.length) := by
  induction lines generalizing content n with
  | nil => simp
  | cons line lines ih =>
    rw [List.foldl_cons, appendLine, if_neg hcontent, ih (by simp [hcontent])]
    simp only [List.flatMap_cons, List.append_assoc, List.singleton_append, List.length_cons]
    congr 1
    push_cast
    ring

theorem foldl_appendLine_lines {lines : List (List Char)} (h : lines.head? ≠ some []) :
    (lines.map utf8Bytes).foldl appendLine ([], 0) =
      (utf8Bytes (joinLines '\n' lines), (lines.length : ℤ)) := by
  cases lines with
  | nil => rfl
  | cons line lines =>
    have hline : utf8Bytes line ≠ [] := by simpa using h
    rw [List.map_cons, List.foldl_cons, appendLine, if_pos rfl, List.nil_append,
      foldl_appendLine hline, utf8Bytes_joinLines]
    simp only [joinLines, List.map_cons, List.length_map, List.length_cons]
    congr 1
    push_cast
    ring

theorem readProtocolPaneOutput_utf8Bytes (hlines : 0 < maxLines)
    (hlength : (terminatedLines text).length < 2 ^ 31)
    (hhead : (lastLines maxLines (terminatedLines text)).head? ≠ some []) :
    readProtocolPaneOutput (utf8Bytes text) maxLines =
      { content := utf8Bytes (joinLines '\n' (lastLines maxLines (terminatedLines text)))
        lineCount := (lastLines maxLines (terminatedLines text)).length
        truncated := maxLines < (terminatedLines text).length } := by
  have hstart : (if decide (maxLines < ((terminatedLines text).length : ℤ)) = true then
        (terminatedLines text).length - maxLines.toNat else 0) =
      if maxLines.toNat < (terminatedLines text).length then
        (terminatedLines text).length - maxLines.toNat else 0 := by
    simp only [decide_eq_true_iff]
    split_ifs <;> omega
  rw [readProtocolPaneOutput, if_neg (not_le.mpr hlines)]
  rw [readLines_text, List.length_map, toInt32_eq hlength, hstart, lastLines_map,
    foldl_appendLine_lines hhead]

theorem readsAlike (hlines : 0 < maxLines) (hchars : 0 < maxCharacters)
    (hall : (joinLines '\n' (lastLines maxLines (terminatedLines text))).length ≤ maxCharacters)
    (hlength : (terminatedLines text).length < 2 ^ 31)
    (hhead : (lastLines maxLines (terminatedLines text)).head? ≠ some []) :
    ReadsAlike text maxLines maxCharacters := by
  obtain ⟨selected, hselected⟩ : ∃ l, l = lastLines maxLines (terminatedLines text) := ⟨_, rfl⟩
  have hnone : ∀ line ∈ selected, '\n' ∉ line := fun line hline =>
    not_mem_of_mem_textLines (terminatedLines_subset text
      (List.mem_of_mem_drop (hselected ▸ hline)))
  have hshort : selected.length < 2 ^ 31 := by
    rw [hselected, lastLines, List.length_drop]
    omega
  have hwindow := buildBoundedBufferTail_utf8Bytes text hlines hchars rfl rfl
  rw [← hselected] at hall hhead hwindow
  have hstart : (joinLines '\n' selected).length - maxCharacters.toNat = 0 := by omega
  rw [hstart, List.drop_zero, countContextLines_part hnone hshort (List.Sublist.refl _)] at hwindow
  have hcount : (selected.length : ℤ) = lineCount (joinLines '\n' selected) := by
    cases hcases : selected with
    | nil => rfl
    | cons line lines =>
      have hne : joinLines '\n' (line :: lines) ≠ [] := by
        rw [hcases] at hhead
        simp only [List.head?_cons, ne_eq, Option.some.injEq] at hhead
        simp [joinLines, hhead]
      rw [lineCount, if_neg hne, length_splitOn_joinLines (hcases ▸ hnone) (by simp)]
  rw [ReadsAlike, readProtocolPaneOutput_utf8Bytes text hlines hlength (hselected ▸ hhead),
    hwindow, ← hselected]
  exact ⟨rfl, hcount⟩

end Windows

/-- The tail of the buffer and the command show exactly a window of the lines, where a final newline
ends the last line of the buffer. The scrollback read agrees with the tail of the buffer when the
first line it returns is not empty. -/
theorem paneText_exact (text : List Char) (maxLines maxCharacters : ℤ) (hlines : 0 < maxLines)
    (hmax : maxLines < 2 ^ 31) (hchars : 0 < maxCharacters) :
    TailExact terminatedLines text maxLines maxCharacters ∧
      CommandExact text maxLines maxCharacters ∧
      ((joinLines '\n' (lastLines maxLines (terminatedLines text))).length ≤ maxCharacters →
        (terminatedLines text).length < 2 ^ 31 →
        (lastLines maxLines (terminatedLines text)).head? ≠ some [] →
        ReadsAlike text maxLines maxCharacters) :=
  ⟨tailExact_terminatedLines text hlines hmax hchars, commandExact text hlines hmax hchars,
    readsAlike text hlines hchars⟩

theorem paneText_exact_twoLines : ReadsAlike "a\r\nb\r\n".toList 2 3 ∧
    (readProtocolPaneOutput (utf8Bytes "a\r\nb\r\n".toList) 2).content =
      utf8Bytes "a\nb".toList :=
  ⟨(paneText_exact _ 2 3 (by decide) (by decide) (by decide)).2.2 (by decide) (by decide)
    (by decide), by decide⟩

/-- The newline at the end of a buffer begins no piece of the tail, and the scrollback read loses
an empty line in front. -/
theorem not_tailExact_textLines :
    ¬ TailExact textLines "a\n".toList 2 9 ∧ ¬ ReadsAlike "\na".toList 2 9 := by
  refine ⟨?_, fun h => absurd h.1 (by decide)⟩
  rintro ⟨w, hcontent, ⟨-, -, hlongest⟩, -⟩
  have hbytes : (buildBoundedBufferTail (utf8Bytes "a\n".toList) 2 9).content = [97] := by decide
  have hshort := length_le_length_utf8Bytes w
  have hlong := hlongest "a\n".toList (by decide) (by decide)
  rw [← hcontent, hbytes] at hshort
  exact absurd (hlong.trans hshort) (by decide)

end IntelligentTerminal.Panes
